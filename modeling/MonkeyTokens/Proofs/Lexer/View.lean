import MonkeyTokens.Lexer

/-!
# What a lexer reads

A view holds the characters that are to come and the position of the first of them. Moving on is
a function of the view alone, and so is the next token: `View.lexeme` cuts the characters that
make it off a list, and `View.token` stamps it. A lexer on any source that ends reads just what
its view says (`view_nextToken`, `drain_eq`), so that all that is said of tokens can be said of
lists of characters.
-/

namespace MonkeyTokens

/-- The characters that are to come, and the position of the first of them. -/
structure View where
  chars : List Char
  /-- Behind the last character this is still its position. -/
  position : Position
  deriving DecidableEq, Repr

/-- Whether tokens of this kind are stamped behind their last character and not on it. -/
def Kind.isRun : Kind → Bool
  | .identifier | .integer | .float | .keyword _ => true
  | .illegal | .endOfText | .symbol _ => false

/-- How many characters of a token are behind the reader when the token is stamped. -/
def Kind.stampOffset (k : Kind) (length : Nat) : Nat := if k.isRun then length else length - 1

/-- Words are runs. -/
theorem Kind.isRun_ofWord (word : String) : (Kind.ofWord word).isRun = true := by
  unfold Kind.ofWord
  cases Keyword.ofWord? word <;> rfl

/-- A word is stamped behind its last letter. -/
@[simp] theorem Kind.stampOffset_ofWord (word : String) (n : Nat) :
    (Kind.ofWord word).stampOffset n = n := by
  rw [Kind.stampOffset, if_pos (Kind.isRun_ofWord word)]

/-- A character by itself is stamped before it is left. -/
@[simp] theorem Kind.stampOffset_ofChar (c : Char) (n : Nat) :
    (Kind.ofChar c).stampOffset n = n - 1 := by
  unfold Kind.ofChar
  cases Symbol.ofChar? c <;> rfl

/-- A token is stamped behind its last character at the latest. -/
theorem Kind.stampOffset_le (k : Kind) (length : Nat) : k.stampOffset length ≤ length := by
  unfold Kind.stampOffset
  split <;> omega

namespace View

open Text

/-- All of a text, seen from its start. -/
def ofChars (cs : List Char) : View := ⟨cs, if cs = [] then .start else .next .start none⟩

/-- Moving on drops a character; the position moves only if there is another one. -/
def advance : View → View
  | ⟨c :: d :: cs, p⟩ => ⟨d :: cs, p.next (some c)⟩
  | ⟨_, p⟩ => ⟨[], p⟩

/-- Moving on so many times. -/
def skip : Nat → View → View
  | 0, v => v
  | n + 1, v => skip n v.advance

/-- The kind and the characters of the number that a list starts with. -/
def number (cs : List Char) : Kind × List Char :=
  match cs.dropWhile isDigit with
  | '.' :: rest => (.float, cs.takeWhile isDigit ++ '.' :: rest.takeWhile isDigit)
  | _ => (.integer, cs.takeWhile isDigit)

/-- The kind and the characters of the symbol that a list starts with, if it does with one. -/
def symbol (c : Char) (cs : List Char) : Kind × List Char :=
  match (Symbol.ofChar? c).bind Symbol.withEquals? with
  | none => (.ofChar c, [c])
  | some double => if cs.head? = some '=' then (.symbol double, [c, '=']) else (.ofChar c, [c])

/-- The kind and the characters of the token that a list without leading blanks starts with. -/
def lexeme : List Char → Kind × List Char
  | [] => (.endOfText, [])
  | c :: cs =>
    if isLetter c then
      (.ofWord (String.ofList ((c :: cs).takeWhile isLetter)), (c :: cs).takeWhile isLetter)
    else if isDigit c then number (c :: cs)
    else symbol c cs

/-- A number with a dot behind its first digits goes on behind the dot. -/
theorem number_of_dot {cs rest : List Char} (h : cs.dropWhile isDigit = '.' :: rest) :
    number cs = (.float, cs.takeWhile isDigit ++ '.' :: rest.takeWhile isDigit) := by
  rw [number, h]
  rfl

/-- A number without a dot behind its first digits ends there. -/
theorem number_of_ne {cs : List Char} (h : (cs.dropWhile isDigit).head? ≠ some '.') :
    number cs = (.integer, cs.takeWhile isDigit) := by
  unfold number
  split
  · next rest hr => simp [hr] at h
  · rfl

/-- The token that starts at the first character, which is no blank. -/
def token (v : View) : Token :=
  let (kind, run) := lexeme v.chars
  ⟨kind, String.ofList run, (v.skip (kind.stampOffset run.length)).position⟩

/-- The view behind that token. -/
def behind (v : View) : View := v.skip (lexeme v.chars).2.length

/-- The view behind the leading blanks. -/
def skipBlanks (v : View) : View := v.skip (v.chars.takeWhile isBlank).length

@[simp] theorem chars_advance (v : View) : v.advance.chars = v.chars.tail := by
  obtain ⟨chars, p⟩ := v
  match chars with
  | [] | [_] | _ :: _ :: _ => rfl

@[simp] theorem chars_skip (n : Nat) (v : View) : (v.skip n).chars = v.chars.drop n := by
  induction n generalizing v with
  | zero => rfl
  | succ n ih => rw [skip, ih, chars_advance, List.drop_tail]

/-- Moving on, taken apart. -/
theorem skip_eq (n : Nat) (v : View) : v.skip n = ⟨v.chars.drop n, (v.skip n).position⟩ := by
  rw [← chars_skip]

/-- The token, given the kind and the characters that make it. -/
theorem token_of_lexeme {v : View} {k : Kind} {run : List Char} (h : lexeme v.chars = (k, run)) :
    v.token = ⟨k, String.ofList run, (v.skip (k.stampOffset run.length)).position⟩ := by
  rw [token, h]

/-- What is behind the token, given the characters that make it. -/
theorem behind_of_lexeme {v : View} {k : Kind} {run : List Char}
    (h : lexeme v.chars = (k, run)) : v.behind = v.skip run.length := by
  rw [behind, h]

/-- Moving on in two parts. -/
theorem skip_add (m n : Nat) (v : View) : v.skip (m + n) = (v.skip m).skip n := by
  induction m generalizing v with
  | zero => rw [Nat.zero_add, skip]
  | succ m ih => rw [Nat.succ_add, skip, ih, skip]

/-- The blanks are gone once they are skipped. -/
theorem chars_skipBlanks (v : View) : v.skipBlanks.chars = v.chars.dropWhile isBlank := by
  rw [skipBlanks, chars_skip]
  have h := List.takeWhile_append_dropWhile (p := isBlank) (l := v.chars)
  calc v.chars.drop (v.chars.takeWhile isBlank).length
    _ = (v.chars.takeWhile isBlank ++ v.chars.dropWhile isBlank).drop
          (v.chars.takeWhile isBlank).length := by rw [h]
    _ = v.chars.dropWhile isBlank := List.drop_left

private theorem lexeme_ne_nil (c : Char) (cs : List Char) : (lexeme (c :: cs)).2 ≠ [] := by
  rw [lexeme]
  split
  · next hl => simp [hl]
  · split
    · next hd =>
      unfold number
      split <;> simp [hd]
    · unfold symbol
      split
      · simp
      · split <;> simp

private theorem lexeme_ne_endOfText (c : Char) (cs : List Char) :
    (lexeme (c :: cs)).1 ≠ .endOfText := by
  rw [lexeme]
  split
  · exact Kind.ofWord_ne_endOfText _
  · split
    · unfold number
      split <;> simp
    · unfold symbol
      split
      · exact Kind.ofChar_ne_endOfText c
      · split
        · simp
        · exact Kind.ofChar_ne_endOfText c

private theorem isEnd_token_iff (v : View) : v.token.isEnd = true ↔ v.chars = [] := by
  rw [Token.isEnd, beq_iff_eq, token]
  cases h : v.chars with
  | nil => simp [lexeme]
  | cons c cs => simpa using lexeme_ne_endOfText c cs

/-- All tokens before the end. -/
def tokens (v : View) : List Token :=
  match _h : v.skipBlanks.chars with
  | [] => []
  | _ :: _ => v.skipBlanks.token :: v.skipBlanks.behind.tokens
termination_by v.chars.length
decreasing_by
  have hb : v.skipBlanks.chars.length ≤ v.chars.length := by
    rw [chars_skipBlanks]
    exact (List.dropWhile_sublist _).length_le
  have hl := List.length_pos_iff.mpr (lexeme_ne_nil ‹Char› ‹List Char›)
  rw [behind, chars_skip, List.length_drop, _h]
  rw [_h, List.length_cons] at hb
  rw [List.length_cons]
  omega

/-- Nothing but blanks holds no token. -/
theorem tokens_of_blank {v : View} (h : v.skipBlanks.chars = []) : v.tokens = [] := by
  rw [tokens]
  split
  · rfl
  · next c cs hc => rw [h] at hc; cases hc

/-- The first token, and those behind it. -/
theorem tokens_of_token {v : View} (h : v.skipBlanks.chars ≠ []) :
    v.tokens = v.skipBlanks.token :: v.skipBlanks.behind.tokens := by
  rw [tokens]
  split
  · next hc => exact absurd hc h
  · rfl

/-- No token before the end marks it. -/
theorem isEnd_of_mem_tokens (v : View) : ∀ t ∈ v.tokens, t.isEnd = false := by
  fun_induction tokens v with
  | case1 v h => simp
  | case2 v c cs h ih =>
    have hn : ¬ v.skipBlanks.token.isEnd = true := by
      rw [isEnd_token_iff, h]
      exact List.cons_ne_nil c cs
    intro t ht
    rcases List.mem_cons.mp ht with rfl | ht
    · simpa using hn
    · exact ih t ht

/-- Behind the last character. -/
def last (v : View) : View := v.skip v.chars.length

private theorem skip_of_nil {v : View} (h : v.chars = []) (n : Nat) : v.skip n = v := by
  obtain ⟨chars, p⟩ := v
  obtain rfl : chars = [] := h
  induction n with
  | zero => rfl
  | succ n ih => exact ih

private theorem skip_of_length_le {v : View} {n : Nat} (h : v.chars.length ≤ n) :
    v.skip n = v.last := by
  have hn : v.last.chars = [] := by rw [last, chars_skip, List.drop_length]
  calc v.skip n
    _ = v.skip (v.chars.length + (n - v.chars.length)) := by rw [Nat.add_sub_cancel' h]
    _ = v.last.skip (n - v.chars.length) := by rw [skip_add, last]
    _ = v.last := skip_of_nil hn _

/-- Moving on does not change what is behind the last character. -/
theorem last_skip (n : Nat) (v : View) : (v.skip n).last = v.last := by
  rw [last, ← skip_add]
  apply skip_of_length_le
  rw [chars_skip, List.length_drop]
  omega

/-- Where only blanks are left, the mark at the end is stamped behind them. -/
theorem token_of_blank {v : View} (h : v.skipBlanks.chars = []) :
    v.skipBlanks.token = .endAt v.last.position := by
  have hl : v.skipBlanks = v.last := by
    rw [← last_skip, ← skipBlanks, last, h]
    rfl
  have hx : lexeme v.skipBlanks.chars = (.endOfText, []) := by rw [h, lexeme]
  rw [token_of_lexeme hx, hl]
  rfl

end View

namespace Cursor

variable {σ : Type} [CharSource σ]

private theorem takeNext_eq_head? {c : Cursor σ} (h : c.Ends) (agrees : c.Agrees) :
    c.takeNext.1 = (c.lookahead?.join.toList ++ c.unasked).head? := by
  have hx := exhausted_takeNext agrees
  rw [following_takeNext h]
  cases hn : c.takeNext.1 with
  | none =>
    rw [hn] at hx
    simp [unasked, hx]
  | some next => rfl

/-- Looking ahead finds what would be taken next. -/
theorem peek_eq_takeNext (c : Cursor σ) : c.peek.1 = c.takeNext.1 := by
  unfold peek takeNext
  split <;> rfl

/-- Looking ahead leaves the position. -/
theorem position_peek (c : Cursor σ) : c.peek.2.position = c.position := by
  unfold peek
  split
  · rfl
  · exact c.pull_held.2.2

private theorem position_takeNext (c : Cursor σ) : c.takeNext.2.position = c.position := by
  unfold takeNext
  split
  · rfl
  · exact c.pull_held.2.2

private theorem position_advance (c : Cursor σ) :
    c.advance.position =
      if c.takeNext.1.isSome then c.position.next c.current? else c.position := by
  rw [← c.position_takeNext, ← c.current_takeNext]
  unfold advance
  split
  · next d hd => simp [hd]
  · next next d hd => simp [hd]

end Cursor

namespace Lexer

open Text

variable {σ : Type} [CharSource σ]

/-- What the lexer still has before it. -/
noncomputable def view (l : Lexer σ) : View := ⟨l.upcoming, l.position⟩

@[simp] theorem chars_view (l : Lexer σ) : l.view.chars = l.upcoming := rfl

@[simp] theorem position_view (l : Lexer σ) : l.view.position = l.position := rfl

private theorem chars_view_of_current {l : Lexer σ} {c : Char} (h : l.cursor.current? = some c) :
    l.view.chars = c :: l.advance.upcoming :=
  upcoming_of_current h

private theorem view_advance (l : Lexer σ) : l.advance.view = l.view.advance := by
  have hu : l.advance.upcoming = l.cursor.lookahead?.join.toList ++ l.cursor.unasked :=
    Cursor.upcoming_advance l.ends
  have hp : l.advance.position =
      if l.advance.upcoming.head?.isSome then l.position.next l.cursor.current?
      else l.position := by
    rw [hu, ← Cursor.takeNext_eq_head? l.ends l.settled.agrees]
    exact Cursor.position_advance l.cursor
  cases hc : l.cursor.current? with
  | none =>
    have hx := l.settled.exhausted_iff.mpr (.inl hc)
    have hn : l.advance.upcoming = [] := by simp [hu, l.settled.behind hc, Cursor.unasked, hx]
    rw [hn] at hp
    simp only [view, upcoming_eq_nil hc, hn, hp]
    rfl
  | some c =>
    rw [hc] at hp
    simp only [view, upcoming_of_current hc, hp]
    cases l.advance.upcoming <;> rfl

private theorem view_peek (l : Lexer σ) : l.peek.2.view = l.view := by
  have hp : l.peek.2.position = l.position := l.cursor.position_peek
  rw [view, upcoming_peek, hp, view]

private theorem peek_eq_head? {l : Lexer σ} {c : Char} (h : l.cursor.current? = some c) :
    l.peek.1 = l.view.chars.tail.head? := by
  rw [chars_view_of_current h, List.tail_cons]
  calc l.cursor.peek.1
    _ = l.cursor.takeNext.1 := l.cursor.peek_eq_takeNext
    _ = (l.cursor.lookahead?.join.toList ++ l.cursor.unasked).head? :=
      Cursor.takeNext_eq_head? l.ends l.settled.agrees
    _ = l.advance.upcoming.head? := by rw [← Cursor.upcoming_advance l.ends]; rfl

private theorem view_takeRun (p : Char → Bool) (l : Lexer σ) :
    (l.takeRun p).2.view = l.view.skip (l.takeRun p).1.length := by
  rw [takeRun_eq_takeWhile]
  fun_induction takeRun p l with
  | case1 l hc => simp [upcoming_eq_nil hc, View.skip]
  | case2 l c hc hp run m hr ih =>
    rw [hr] at ih
    rw [upcoming_of_current hc, List.takeWhile_cons_of_pos hp, List.length_cons, View.skip,
      ← view_advance, ih]
  | case3 l c hc hp => simp [upcoming_of_current hc, hp, View.skip]

/-- Where a token was read: it is the one that the view starts with, and the rest is behind. -/
private def Scans (l : Lexer σ) (p : Token × Lexer σ) : Prop :=
  p.1 = l.view.token ∧ p.2.view = l.view.behind

private theorem scans_of_lexeme {l : Lexer σ} {p : Token × Lexer σ} (run : List Char)
    (hx : View.lexeme l.view.chars = (p.1.kind, run)) (ht : p.1.literal = String.ofList run)
    (hp : p.1.position = (l.view.skip (p.1.kind.stampOffset run.length)).position)
    (hv : p.2.view = l.view.skip run.length) : l.Scans p := by
  constructor
  · rw [View.token_of_lexeme hx, ← ht, ← hp]
  · rw [View.behind_of_lexeme hx, hv]

private theorem scans_scanWord {l : Lexer σ}
    (hx : View.lexeme l.view.chars = (.ofWord (String.ofList (l.takeRun isLetter).1),
      (l.takeRun isLetter).1)) : l.Scans l.scanWord := by
  have hv := view_takeRun isLetter l
  apply scans_of_lexeme _ hx
  · rfl
  · simp only [scanWord, Kind.stampOffset_ofWord, ← hv]
    rfl
  · exact hv

private theorem scans_scanNumber {l : Lexer σ}
    (hx : View.lexeme l.view.chars = View.number l.view.chars) : l.Scans l.scanNumber := by
  have hr : (l.takeRun isDigit).1 = l.view.chars.takeWhile isDigit :=
    takeRun_eq_takeWhile isDigit l
  have hw : (l.takeRun isDigit).2.upcoming = l.view.chars.dropWhile isDigit :=
    upcoming_takeRun_eq_dropWhile isDigit l
  have hv := view_takeRun isDigit l
  unfold scanNumber
  simp only
  generalize l.takeRun isDigit = whole at hr hw hv ⊢
  split
  · next hdot =>
    rw [upcoming_of_current hdot] at hw
    have hs := takeRun_eq_takeWhile isDigit whole.2.advance
    have hn := view_takeRun isDigit whole.2.advance
    generalize whole.2.advance.takeRun isDigit = places at hs hn ⊢
    have hl : (whole.1 ++ '.' :: places.1).length = whole.1.length + (1 + places.1.length) := by
      simp; omega
    have hp : places.2.view = l.view.skip (whole.1 ++ '.' :: places.1).length := by
      rw [hn, view_advance, hv, hl, View.skip_add, View.skip_add]
      rfl
    apply scans_of_lexeme (whole.1 ++ '.' :: places.1)
    · rw [hx, View.number_of_dot hw.symm, hr, hs]
    · rfl
    · exact congrArg View.position hp
    · exact hp
  · next hdot =>
    apply scans_of_lexeme whole.1
    · rw [hx, View.number_of_ne, hr]
      rwa [← hw, head?_upcoming]
    · rfl
    · exact congrArg View.position hv
    · exact hv

private theorem scans_scanSingle {c : Char} {l m : Lexer σ} (hm : m.view = l.view)
    (hx : View.lexeme l.view.chars = (.ofChar c, [c])) : l.Scans (m.scanSingle c) := by
  apply scans_of_lexeme _ hx
  · exact String.singleton_eq_ofList
  · simp only [scanSingle, Kind.stampOffset_ofChar, ← hm]
    rfl
  · exact (view_advance m).trans (congrArg View.advance hm)

private theorem text_double {c : Char} {double : Symbol}
    (h : (Symbol.ofChar? c).bind Symbol.withEquals? = some double) :
    double.text = String.ofList [c, '='] := by
  obtain ⟨s, hs, hd⟩ := Option.bind_eq_some_iff.mp h
  apply String.toList_inj.mp
  rw [Symbol.text_of_withEquals? hd, Symbol.text_of_ofChar? hs]
  simp

private theorem scans_scanSymbol {l : Lexer σ} {c : Char} (hc : l.cursor.current? = some c)
    (hx : View.lexeme l.view.chars = View.symbol c l.view.chars.tail) :
    l.Scans (l.scanSymbol c) := by
  have hv := view_peek l
  have hp := peek_eq_head? hc
  unfold scanSymbol
  unfold View.symbol at hx
  split
  · next hn =>
    rw [hn] at hx
    exact scans_scanSingle rfl hx
  · next double hs =>
    rw [hs] at hx
    simp only
    generalize l.peek = ahead at hv hp ⊢
    simp only [← hp] at hx
    split
    · next he =>
      rw [if_pos he] at hx
      apply scans_of_lexeme _ hx
      · exact text_double hs
      · have h := congrArg View.position (view_advance ahead.2)
        rw [hv] at h
        exact h
      · simp only [view_advance, hv]
        rfl
    · next he =>
      rw [if_neg he] at hx
      exact scans_scanSingle hv hx

private theorem scans_scan (l : Lexer σ) : l.Scans l.scan := by
  unfold scan
  split
  · next hc =>
    have hn := upcoming_eq_nil hc
    apply scans_of_lexeme []
    · rw [chars_view, hn]
      rfl
    · rfl
    · rfl
    · rfl
  · next c hc =>
    have hcs := chars_view_of_current hc
    split
    · next hl =>
      apply scans_scanWord
      rw [takeRun_eq_takeWhile, ← chars_view, hcs, View.lexeme, if_pos hl]
    · next hl =>
      split
      · next hd =>
        apply scans_scanNumber
        rw [hcs, View.lexeme, if_neg hl, if_pos hd]
      · next hd =>
        apply scans_scanSymbol hc
        rw [hcs, View.lexeme, if_neg hl, if_neg hd, List.tail_cons]

/-- The next token is the one that the view starts with behind its blanks. -/
theorem view_nextToken (l : Lexer σ) :
    l.nextToken.1 = l.view.skipBlanks.token ∧ l.nextToken.2.view = l.view.skipBlanks.behind := by
  have hb : (l.takeRun isBlank).2.view = l.view.skipBlanks := by
    rw [view_takeRun, takeRun_eq_takeWhile]
    rfl
  rw [← hb]
  exact scans_scan _

/-- A token marks the end exactly if nothing but blanks was to come. -/
theorem isEnd_nextToken_iff (l : Lexer σ) :
    l.nextToken.1.isEnd = true ↔ l.view.skipBlanks.chars = [] := by
  rw [(view_nextToken l).1]
  exact View.isEnd_token_iff _

/-- Draining a lexer reads all tokens of its view, and then the mark at the end. -/
theorem drain_eq (l : Lexer σ) :
    l.drain.1 = l.view.tokens ∧ l.drain.2.1 = .endAt l.view.last.position := by
  fun_induction drain l with
  | case1 l next h =>
    have hn := (isEnd_nextToken_iff l).mp h
    constructor
    · exact (View.tokens_of_blank hn).symm
    · exact (view_nextToken l).1.trans (View.token_of_blank hn)
  | case2 l next h ts last m hd ih =>
    have hn : l.view.skipBlanks.chars ≠ [] := fun he ↦ h ((isEnd_nextToken_iff l).mpr he)
    have hnext := view_nextToken l
    rw [hd, hnext.2] at ih
    constructor
    · rw [View.tokens_of_token hn, ← ih.1]
      exact congrArg (· :: ts) hnext.1
    · have hlast := ih.2
      rw [View.behind, View.last_skip, View.skipBlanks, View.last_skip] at hlast
      exact hlast

/-- At first a lexer has all that its source supplies before it. -/
theorem view_ofEnding {s : σ} {cs : List Char} (h : CharSource.Supplies s cs) :
    (ofEnding s ⟨cs, h⟩).view = .ofChars cs := by
  have hu : (Cursor.ofSource s).upcoming = cs :=
    (Cursor.upcoming_ofSource ⟨cs, h⟩).trans h.upcoming_eq
  have hn : (Cursor.takeNext ({ source := s } : Cursor σ)).1 = cs.head? := by
    rw [Cursor.takeNext_eq_head? (.inr ⟨cs, h⟩) (Cursor.agrees_unmoved s), ← h.upcoming_eq]
    rfl
  have hp : (Cursor.ofSource s).position =
      if cs.head?.isSome then .next .start none else .start := by
    rw [Cursor.ofSource, Cursor.position_advance, hn]
  have hv : (ofEnding s ⟨cs, h⟩).view =
      ⟨(Cursor.ofSource s).upcoming, (Cursor.ofSource s).position⟩ := rfl
  rw [hv, hu, hp, View.ofChars]
  cases cs <;> rfl

/-- At first a lexer has all of its text before it. -/
theorem view_ofText (text : String) : (ofText text).view = .ofChars text.toList :=
  view_ofEnding (TextSource.supplies text.toList)

end Lexer

/-- The tokens of a text are those of its characters, with the mark at the end behind them. -/
theorem tokenize_eq (text : String) :
    tokenize text = (View.ofChars text.toList).tokens ++
      [.endAt (View.ofChars text.toList).last.position] := by
  have hdrain := Lexer.drain_eq (Lexer.ofText text)
  rw [← Lexer.view_ofText, ← hdrain.1, ← hdrain.2]
  rfl

/-- Without that mark they are just those of its characters. -/
theorem dropLast_tokenize (text : String) :
    (tokenize text).dropLast = (View.ofChars text.toList).tokens := by
  rw [tokenize_eq, List.dropLast_concat]

end MonkeyTokens
