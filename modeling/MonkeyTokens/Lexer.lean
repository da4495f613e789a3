import MonkeyTokens.Cursor
import MonkeyTokens.Source.Text
import MonkeyTokens.Text.Class

/-!
# The lexer

A lexer reads tokens from a cursor on a source that ends. Blanks are skipped; then the longest
run of letters is a word, a run of digits with at most one dot is a number, `==` and `!=` are
one token each, and any other character is a token by itself.

A token of one character has that character's position, and a doubled symbol that of its second
character. A word or a number has the position at which the cursor stands behind it.

Tokens are read one by one, the end of the text included, with `nextToken`; or as a sequence
that stops before the end, with `next?`, `take`, `nth?`, `collect` and `count`. The sequence
remembers that it has stopped.

The view of a lexer is `Lexer.upcoming`, the characters it will still read. A run is the longest
prefix of them in its class (`takeRun_eq_takeWhile`, `upcoming_takeRun_eq_dropWhile`), and every
token but the one at the end leaves fewer of them (`length_upcoming_nextToken`).
-/

namespace MonkeyTokens

/-- A reader of tokens. -/
structure Lexer (σ : Type) [CharSource σ] where
  cursor : Cursor σ
  /-- Whether the sequence of tokens has stopped. -/
  finished : Bool := false
  /-- The source will be asked only finitely often. -/
  ends : cursor.Ends
  /-- The cursor stands on a character or behind the last one, and knows which. -/
  settled : cursor.Settled

namespace Lexer

open Text

variable {σ : Type} [CharSource σ]

/-- A lexer at the first character of a source that ends. -/
def ofEnding (s : σ) (h : CharSource.Ends s) : Lexer σ :=
  { cursor := .ofSource s, ends := Cursor.ends_ofSource h, settled := Cursor.settled_ofSource s }

/-- A lexer at the first character of a source. -/
def ofSource [FiniteSource σ] (s : σ) : Lexer σ := ofEnding s (FiniteSource.ends s)

/-- A lexer at the first character of a text. -/
def ofText (text : String) : Lexer TextSource := ofSource (.ofString text)

/-- Where the lexer stands. -/
def position (l : Lexer σ) : Position := l.cursor.position

/-- What happened so far. -/
def journal (l : Lexer σ) : Array Event := l.cursor.journal

/-- The characters from the current one on. -/
noncomputable def upcoming (l : Lexer σ) : List Char := l.cursor.upcoming

/-- Move on to the next character. -/
def advance (l : Lexer σ) : Lexer σ :=
  { l with
    cursor := l.cursor.advance
    ends := l.ends.advance
    settled := Cursor.settled_advance l.settled.agrees }

/-- The character behind the current one, without moving. -/
def peek (l : Lexer σ) : Option Char × Lexer σ :=
  (l.cursor.peek.1,
    { l with cursor := l.cursor.peek.2, ends := l.ends.peek, settled := l.settled.peek })

/-- The lexer with one more entry in its journal. -/
def record (l : Lexer σ) (e : Event) : Lexer σ :=
  { l with cursor := l.cursor.record e, settled := ⟨l.settled.exhausted_iff, l.settled.behind⟩ }

/-- The current character is the first upcoming one; moving on leaves the others. -/
theorem upcoming_of_current {l : Lexer σ} {c : Char} (h : l.cursor.current? = some c) :
    l.upcoming = c :: l.advance.upcoming :=
  Cursor.upcoming_of_current l.ends h

/-- Nothing is to come where the lexer stands on no character. -/
theorem upcoming_eq_nil {l : Lexer σ} (h : l.cursor.current? = none) : l.upcoming = [] :=
  l.settled.upcoming_eq_nil h

/-- The lexer stands on the first character that is to come. -/
theorem head?_upcoming (l : Lexer σ) : l.upcoming.head? = l.cursor.current? := by
  cases h : l.cursor.current? with
  | none => rw [upcoming_eq_nil h, List.head?_nil]
  | some c => rw [upcoming_of_current h, List.head?_cons]

/-- At first a lexer has all of the text before it. -/
theorem upcoming_ofText (text : String) : (ofText text).upcoming = text.toList :=
  (Cursor.upcoming_ofSource (FiniteSource.ends _)).trans (TextSource.upcoming_eq_rest _)

/-- Looking ahead changes nothing of what is to come. -/
theorem upcoming_peek (l : Lexer σ) : l.peek.2.upcoming = l.upcoming :=
  Cursor.upcoming_peek l.ends

/-- The longest run of characters of a class, from the current character on. -/
def takeRun (p : Char → Bool) (l : Lexer σ) : List Char × Lexer σ :=
  match _h : l.cursor.current? with
  | none => ([], l)
  | some c =>
    if p c then
      let (run, m) := takeRun p l.advance
      (c :: run, m)
    else ([], l)
termination_by l.upcoming.length
decreasing_by simp [upcoming_of_current ‹l.cursor.current? = some c›]

/-- A run and what comes behind it make up what was to come. -/
theorem upcoming_takeRun (p : Char → Bool) (l : Lexer σ) :
    l.upcoming = (l.takeRun p).1 ++ (l.takeRun p).2.upcoming := by
  fun_induction takeRun p l with
  | case1 | case3 => rfl
  | case2 l c hc _ run m hr ih => simp [upcoming_of_current hc, ih, hr]

/-- A run holds all characters up to the first one that is not of its class. -/
theorem takeRun_eq_takeWhile (p : Char → Bool) (l : Lexer σ) :
    (l.takeRun p).1 = l.upcoming.takeWhile p := by
  fun_induction takeRun p l with
  | case1 l hc => simp [upcoming_eq_nil hc]
  | case2 l c hc hp run m hr ih => simp [upcoming_of_current hc, hp, ← ih, hr]
  | case3 l c hc hp => simp [upcoming_of_current hc, hp]

/-- Behind a run comes what is left from the first character on that is not of its class. -/
theorem upcoming_takeRun_eq_dropWhile (p : Char → Bool) (l : Lexer σ) :
    (l.takeRun p).2.upcoming = l.upcoming.dropWhile p := by
  have h := l.upcoming_takeRun p
  rw [takeRun_eq_takeWhile] at h
  exact List.append_cancel_left (h.symm.trans List.takeWhile_append_dropWhile.symm)

/-- Where a character of the class stands, the run starts with it. -/
theorem takeRun_of_current {p : Char → Bool} {l : Lexer σ} {c : Char}
    (h : l.cursor.current? = some c) (hp : p c = true) :
    l.takeRun p = (c :: (l.advance.takeRun p).1, (l.advance.takeRun p).2) := by
  rw [takeRun]
  split <;> simp_all

/-- A word, from its first letter on. -/
def scanWord (l : Lexer σ) : Token × Lexer σ :=
  let (run, m) := l.takeRun isLetter
  let word := String.ofList run
  (⟨.ofWord word, word, m.position⟩, m)

/-- A number, from its first digit on; a dot makes it a float. -/
def scanNumber (l : Lexer σ) : Token × Lexer σ :=
  let (whole, m) := l.takeRun isDigit
  if m.cursor.current? = some '.' then
    let (places, n) := m.advance.takeRun isDigit
    (⟨.float, String.ofList (whole ++ '.' :: places), n.position⟩, n)
  else (⟨.integer, String.ofList whole, m.position⟩, m)

/-- The current character `c` as a token of its own. -/
def scanSingle (c : Char) (l : Lexer σ) : Token × Lexer σ :=
  (⟨.ofChar c, String.singleton c, l.position⟩, l.advance)

/-- The current character `c` and an `=` behind it, if the two make one symbol, else `c` alone. -/
def scanSymbol (c : Char) (l : Lexer σ) : Token × Lexer σ :=
  match (Symbol.ofChar? c).bind Symbol.withEquals? with
  | none => l.scanSingle c
  | some double =>
    let (next?, m) := l.peek
    if next? = some '=' then
      let second := m.advance
      (⟨.symbol double, double.text, second.position⟩, second.advance)
    else m.scanSingle c

/-- The token that starts at the current character, which is no blank. -/
def scan (l : Lexer σ) : Token × Lexer σ :=
  match l.cursor.current? with
  | none => (.endAt l.position, l)
  | some c =>
    if isLetter c then l.scanWord
    else if isDigit c then l.scanNumber
    else l.scanSymbol c

/-- The next token; at the end of the text, and from then on, the one that marks the end. -/
def nextToken (l : Lexer σ) : Token × Lexer σ :=
  let (t, m) := (l.takeRun isBlank).2.scan
  (t, m.record (.producedToken t))

private theorem length_upcoming_takeRun_lt {p : Char → Bool} {l : Lexer σ} {c : Char}
    (h : l.cursor.current? = some c) (hp : p c = true) :
    (l.takeRun p).2.upcoming.length < l.upcoming.length := by
  have ha := congrArg List.length (l.advance.upcoming_takeRun p)
  rw [takeRun_of_current h hp, upcoming_of_current h]
  simp only [List.length_append, List.length_cons] at ha ⊢
  omega

private theorem length_upcoming_takeRun_le (p : Char → Bool) (l : Lexer σ) :
    (l.takeRun p).2.upcoming.length ≤ l.upcoming.length := by
  have h := congrArg List.length (l.upcoming_takeRun p)
  simp only [List.length_append] at h
  omega

private theorem length_upcoming_advance_lt {l : Lexer σ} {c : Char}
    (h : l.cursor.current? = some c) : l.advance.upcoming.length < l.upcoming.length := by
  simp [upcoming_of_current h]

private theorem length_upcoming_advance_le (l : Lexer σ) :
    l.advance.upcoming.length ≤ l.upcoming.length := by
  have h := Cursor.upcoming_advance l.ends
  simp only [upcoming, advance, Cursor.upcoming] at h ⊢
  simp [h]

private theorem length_upcoming_scanSymbol_lt {l : Lexer σ} {c : Char}
    (h : l.cursor.current? = some c) :
    (l.scanSymbol c).2.upcoming.length < l.upcoming.length := by
  unfold scanSymbol
  have hp : l.peek.2.cursor.current? = some c := by simpa [peek, Cursor.current_peek] using h
  split
  · exact length_upcoming_advance_lt h
  · simp only
    split
    · calc _ ≤ l.peek.2.advance.upcoming.length := length_upcoming_advance_le _
        _ < l.peek.2.upcoming.length := length_upcoming_advance_lt hp
        _ = l.upcoming.length := by rw [upcoming_peek]
    · calc _ < l.peek.2.upcoming.length := length_upcoming_advance_lt hp
        _ = l.upcoming.length := by rw [upcoming_peek]

/-- Every token but the one at the end shortens what is to come. -/
theorem length_upcoming_scan {l : Lexer σ} (h : l.scan.1.isEnd = false) :
    l.scan.2.upcoming.length < l.upcoming.length := by
  unfold scan at h ⊢
  split
  · simp_all [Token.endAt, Token.isEnd]
  · next c hc =>
    split
    · next hl => exact length_upcoming_takeRun_lt hc hl
    · split
      · next hd =>
        have hr := length_upcoming_takeRun_lt hc hd
        unfold scanNumber
        simp only
        split
        · calc _ ≤ _ := length_upcoming_takeRun_le _ _
            _ ≤ _ := length_upcoming_advance_le _
            _ < _ := hr
        · exact hr
      · exact length_upcoming_scanSymbol_lt hc

/-- Every token but the one at the end shortens what is to come. -/
theorem length_upcoming_nextToken {l : Lexer σ} (h : l.nextToken.1.isEnd = false) :
    l.nextToken.2.upcoming.length < l.upcoming.length :=
  calc l.nextToken.2.upcoming.length
    _ = (l.takeRun isBlank).2.scan.2.upcoming.length := rfl
    _ < (l.takeRun isBlank).2.upcoming.length := length_upcoming_scan h
    _ ≤ l.upcoming.length := length_upcoming_takeRun_le _ _

/-- All tokens before the end, the one at the end, and the lexer behind it. -/
def drain (l : Lexer σ) : List Token × Token × Lexer σ :=
  let next := l.nextToken
  if _h : next.1.isEnd then ([], next.1, next.2)
  else
    let (ts, last, m) := next.2.drain
    (next.1 :: ts, last, m)
termination_by l.upcoming.length
decreasing_by exact length_upcoming_nextToken (by simpa using _h)

/-- The next token of the sequence; none at the end of the text and from then on. -/
def next? (l : Lexer σ) : Option Token × Lexer σ :=
  if l.finished then (none, l)
  else
    let (t, m) := l.nextToken
    if t.isEnd then (none, { m with finished := true }) else (some t, m)

/-- The next tokens of the sequence, as many as asked for if there are so many. -/
def take : Nat → Lexer σ → List Token × Lexer σ
  | 0, l => ([], l)
  | n + 1, l =>
    match l.next? with
    | (none, m) => ([], m)
    | (some t, m) =>
      let (ts, last) := take n m
      (t :: ts, last)

/-- The token of the sequence behind the next `n`, if there is one. -/
def nth? : Nat → Lexer σ → Option Token × Lexer σ
  | 0, l => l.next?
  | n + 1, l =>
    match l.next? with
    | (none, m) => (none, m)
    | (some _, m) => nth? n m

/-- All tokens left in the sequence. -/
def collect (l : Lexer σ) : List Token × Lexer σ :=
  if l.finished then ([], l)
  else
    let (ts, _, m) := l.drain
    (ts, { m with finished := true })

/-- How many tokens were left in the sequence, which is used up by counting. -/
def count (l : Lexer σ) : Nat × Lexer σ :=
  let (ts, m) := l.collect
  (ts.length, m)

/-- The source behind the lexer. -/
def source (l : Lexer σ) : σ := l.cursor.source

/-- The lexer with another source behind it. What it holds stays, and so does its knowledge of
whether there is more to ask for. -/
def withSource [FiniteSource σ] (l : Lexer σ) (s : σ) : Lexer σ :=
  { l with
    cursor := { l.cursor with source := s }
    ends := .inr (FiniteSource.ends s)
    settled := ⟨l.settled.exhausted_iff, l.settled.behind⟩ }

/-- Ask the source for a character behind the lexer's back. -/
def pullSource [FiniteSource σ] (l : Lexer σ) : Option Char × Lexer σ :=
  let p := CharSource.pull l.source
  (p.char?, p.events.foldl record (l.withSource p.source))

end Lexer

/-- The tokens of a text, the one at its end included. -/
def tokenize (text : String) : List Token :=
  let (ts, last, _) := (Lexer.ofText text).drain
  ts ++ [last]

end MonkeyTokens
