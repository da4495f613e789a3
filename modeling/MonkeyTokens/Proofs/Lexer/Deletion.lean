import MonkeyTokens.Proofs.Lexer.Lines
import MonkeyTokens.Proofs.Lexer.ReadAhead

/-!
# Characters that are taken behind a lexer's back

Between two tokens a character can be taken from the source of a lexer, which then never sees it.
A token depends on nothing behind the one character that the lexer holds when it has read the token
(`View.token_of_behind`), and that character cannot be taken. So the tokens are those of the text
without the characters that were taken, wherever in the text these were (`sharedCalls_ofText`).
-/

namespace MonkeyTokens

open CharSource Text

/-! ### Texts without some of their characters -/

/-- The characters, numbered from an index on, but for those at some indices. -/
def withoutIndices (gone : List Nat) (i : Nat) (cs : List Char) : List Char :=
  ((cs.zipIdx i).filter fun x ↦ x.2 ∉ gone).map Prod.fst

private theorem withoutIndices_append (gone : List Nat) (i : Nat) (cs ds : List Char) :
    withoutIndices gone i (cs ++ ds) =
      withoutIndices gone i cs ++ withoutIndices gone (i + cs.length) ds := by
  rw [withoutIndices, List.zipIdx_append, List.filter_append, List.map_append]
  rfl

private theorem withoutIndices_of_le {gone : List Nat} {i : Nat} {cs : List Char}
    (h : ∀ j ∈ gone, i + cs.length ≤ j) : withoutIndices gone i cs = cs := by
  have hall : (cs.zipIdx i).filter (fun x ↦ x.2 ∉ gone) = cs.zipIdx i := by
    apply List.filter_eq_self.mpr
    intro x hx
    have hlt := List.snd_lt_of_mem_zipIdx hx
    rw [decide_eq_true_eq]
    intro hm
    have := h x.2 hm
    omega
  rw [withoutIndices, hall, List.zipIdx_map_fst]

private theorem withoutIndices_cons (gone : List Nat) (i : Nat) (c : Char) (cs : List Char) :
    withoutIndices (i :: gone) i (c :: cs) = withoutIndices gone (i + 1) cs := by
  have htail : (cs.zipIdx (i + 1)).filter (fun x ↦ x.2 ∉ i :: gone) =
      (cs.zipIdx (i + 1)).filter (fun x ↦ x.2 ∉ gone) := by
    apply List.filter_congr
    intro x hx
    have hle := List.le_snd_of_mem_zipIdx hx
    have hne : x.2 ≠ i := by omega
    simp [hne]
  rw [withoutIndices, List.zipIdx_cons, List.filter_cons_of_neg (by simp), htail, withoutIndices]

example : withoutIndices [1, 2, 6] 0 ['a', '=', 'b', '!', '='] = ['a', '!', '='] := by decide

/-! ### What a token depends on -/

namespace View

/-- A token is followed by a character that belongs to what is behind it. What comes behind this
character makes no difference to the token, nor to where the character is. -/
theorem token_of_behind {v : View} {c : Char} {rest : List Char}
    (h : v.skipBlanks.behind.chars = c :: rest) :
    ∃ front, v.chars = front ++ c :: rest ∧ ∀ other,
      (View.mk (front ++ c :: other) v.position).skipBlanks.token = v.skipBlanks.token ∧
        (View.mk (front ++ c :: other) v.position).skipBlanks.behind =
          ⟨c :: other, v.skipBlanks.behind.position⟩ := by
  have hne : v.skipBlanks.chars ≠ [] := by
    intro hb
    rw [behind, chars_skip, hb, List.drop_nil] at h
    cases h
  obtain ⟨b, w, more, k, hv, blank, lexeme, stops⟩ := exists_isLexeme hne
  have hbehind := behind_of_isLexeme hv blank lexeme stops
  obtain rfl : more = c :: rest := by
    rw [← h, hbehind, chars_skip, hv, ← List.length_append, List.drop_left]
  -- up to the character behind the token all positions are those without the rest
  have hskip : ∀ other n, n ≤ (b ++ w).length →
      ((View.mk (b ++ w ++ c :: other) v.position).skip n).position =
        ((View.mk (b ++ w ++ [c]) v.position).skip n).position := by
    intro other n hn
    have hlen : n < (b ++ w ++ [c]).length := by
      rw [List.length_append, List.length_singleton]
      omega
    rw [List.append_cons (b ++ w) c other, skip_append hlen]
  have hstamp : b.length + k.stampOffset w.length ≤ (b ++ w).length := by
    have := k.stampOffset_le w.length
    rw [List.length_append]
    omega
  have hself : v = ⟨b ++ w ++ c :: rest, v.position⟩ := by rw [← hv]
  refine ⟨b ++ w, hv, ?_⟩
  intro other
  have hstops : ∀ d ∈ (c :: other).head?, k.absorbs d = false := stops
  constructor
  · rw [token_of_isLexeme rfl blank lexeme hstops, token_of_isLexeme hv blank lexeme stops,
      hskip other _ hstamp, ← hskip rest _ hstamp, ← hself]
  · rw [behind_of_isLexeme rfl blank lexeme hstops, hbehind, ← List.length_append,
      skip_eq (b ++ w).length, hskip other _ (Nat.le_refl _), List.drop_left,
      ← hskip rest _ (Nat.le_refl _), ← hself]

/-- The view without the characters at some indices, where the first one stays in any case and the
others are numbered from an index on. -/
def without (gone : List Nat) (i : Nat) (v : View) : View :=
  ⟨v.chars.take 1 ++ withoutIndices gone i v.chars.tail, v.position⟩

private theorem without_nil (i : Nat) (v : View) : v.without [] i = v := by
  have htail : withoutIndices [] i v.chars.tail = v.chars.tail := withoutIndices_of_le nofun
  rw [without, htail, ← List.drop_one, List.take_append_drop]

private theorem without_ofChars {gone : List Nat} {cs : List Char}
    (h : ∀ j ∈ gone, (cs.take 1).length ≤ j) :
    (ofChars cs).without gone (cs.take 1).length = ofChars (withoutIndices gone 0 cs) := by
  cases cs with
  | nil => rfl
  | cons c cs =>
    have hc : withoutIndices gone 0 (c :: cs) = c :: withoutIndices gone 1 cs := by
      have hfirst : withoutIndices gone 0 [c] = [c] := by
        apply withoutIndices_of_le
        intro j hj
        rw [Nat.zero_add]
        exact h j hj
      rw [← List.singleton_append, withoutIndices_append, hfirst]
      rfl
    rw [hc]
    rfl

private theorem without_behind {v : View} {gone : List Nat} {i : Nat} {between : List Char}
    (htail : v.chars.tail = between ++ v.skipBlanks.behind.chars.tail)
    (hgone : ∀ j ∈ gone, i + between.length ≤ j)
    (hend : v.skipBlanks.behind.chars.tail = [] → gone = []) :
    (v.without gone i).skipBlanks.token = v.skipBlanks.token ∧
      (v.without gone i).skipBlanks.behind =
        v.skipBlanks.behind.without gone (i + between.length) := by
  cases h : v.skipBlanks.behind.chars with
  | nil =>
    rw [h] at hend
    rw [hend rfl, without_nil, without_nil]
    exact ⟨rfl, rfl⟩
  | cons c rest =>
    obtain ⟨front, hv, hother⟩ := token_of_behind h
    rw [h, List.tail_cons, hv] at htail
    have hall : (front ++ c :: rest).take 1 ++ between ++ rest = front ++ [c] ++ rest := by
      rw [List.append_assoc, ← htail, ← List.drop_one, List.take_append_drop]
      exact List.append_cons front c rest
    have hfront := List.append_cancel_right hall
    have hw : v.without gone i =
        ⟨front ++ c :: withoutIndices gone (i + between.length) rest, v.position⟩ := by
      rw [without, hv, htail, withoutIndices_append, withoutIndices_of_le hgone,
        ← List.append_assoc, hfront, ← List.append_cons]
    rw [hw]
    refine ⟨(hother _).1, ?_⟩
    rw [(hother _).2, without, h]
    rfl

end View

/-! ### A lexer that shares its source -/

/-- What is asked for: a token of the lexer, or a character of its source behind its back. -/
inductive SharedCall where
  | nextToken
  | pullSource
  deriving DecidableEq, Repr

/-- What came of some calls. -/
structure SharedRun where
  /-- The tokens that were read. -/
  tokens : List Token
  /-- The characters that were taken from the source, with their indices in the text. -/
  taken : List (Nat × Char)
  last : Lexer TextSource

namespace Lexer

/-- Calls to a lexer and to its source, in turn. A text of the given length has given all but the
rest before the next character is taken from it, and this is the index of the character. -/
def sharedCalls (length : Nat) : List SharedCall → Lexer TextSource → SharedRun
  | [], l => ⟨[], [], l⟩
  | .nextToken :: calls, l =>
    let (t, m) := l.nextToken
    let run := sharedCalls length calls m
    { run with tokens := t :: run.tokens }
  | .pullSource :: calls, l =>
    let (c?, m) := l.pullSource
    let run := sharedCalls length calls m
    { run with taken := c?.toList.map (length - l.source.rest.length, ·) ++ run.taken }

end Lexer

/-! ### Between two calls -/

private theorem TextSource.char?_pull (s : TextSource) : (pull s).char? = s.rest.head? := by
  obtain ⟨rest⟩ := s
  cases rest <;> rfl

private theorem Ledger.Reads.rest_suffix {g h : Ledger TextSource} {ts : List Token}
    (r : Ledger.Reads g ts h) : h.source.rest <:+ g.source.rest := by
  induction r with
  | refl => exact List.suffix_rfl
  | @ask h ts _ ih =>
    unfold Ledger.ask
    split
    · exact ih
    · change (pull h.source).source.rest <:+ _
      rw [TextSource.rest_pull]
      exact (List.tail_suffix _).trans ih
  | report _ _ ih => exact ih

private theorem Ledger.Reads.rest_eq_nil {g h : Ledger TextSource} {ts : List Token}
    (r : Ledger.Reads g ts h) (hg : g.exhausted = true → g.source.rest = []) :
    h.exhausted = true → h.source.rest = [] := by
  induction r with
  | refl => exact hg
  | @ask h ts _ ih =>
    unfold Ledger.ask
    split
    · exact ih
    · change (pull h.source).char?.isNone = true → (pull h.source).source.rest = []
      rw [TextSource.char?_pull, TextSource.rest_pull, Option.isNone_iff_eq_none,
        List.head?_eq_none_iff]
      intro hr
      rw [hr, List.tail_nil]
  | report _ _ ih => exact ih

namespace Lexer

private theorem rest_suffix_nextToken (l : Lexer TextSource) :
    l.nextToken.2.source.rest <:+ l.source.rest :=
  l.reads_nextToken.rest_suffix

/-- Between two calls a lexer has looked at nothing, and it knows of the end only if its source has
come to it. -/
structure Paused (l : Lexer TextSource) : Prop where
  free : l.cursor.lookahead? = none
  spent : l.cursor.exhausted = true → l.source.rest = []

namespace Paused

variable {l : Lexer TextSource}

private theorem ofText (text : String) : (Lexer.ofText text).Paused where
  free := Cursor.lookahead_advance _
  spent := (reads_ofSource (TextSource.ofString text)).rest_eq_nil nofun

private theorem nextToken (h : l.Paused) : l.nextToken.2.Paused where
  free := lookahead_nextToken h.free
  spent := l.reads_nextToken.rest_eq_nil h.spent

private theorem nextTokens (h : l.Paused) (k : Nat) : (l.nextTokens k).2.Paused where
  free := lookahead_nextTokens k h.free
  spent := (l.reads_nextTokens k).rest_eq_nil h.spent

private theorem rest_eq (h : l.Paused) : l.source.rest = l.upcoming.tail := by
  rw [← unasked_of_free h.free, Cursor.unasked]
  split
  · next hx => exact h.spent hx
  · exact (TextSource.upcoming_eq_rest _).symm

private theorem upcoming_eq (h : l.Paused) :
    l.upcoming = l.cursor.current?.toList ++ l.source.rest := by
  rw [h.rest_eq, ← l.head?_upcoming]
  cases l.upcoming <;> rfl

private theorem withSource (h : l.Paused) {c : Char} {rest : List Char}
    (hr : l.source.rest = c :: rest) :
    (l.withSource ⟨rest⟩).Paused ∧ ∃ d, l.view = ⟨d :: c :: rest, l.position⟩ ∧
      (l.withSource ⟨rest⟩).view = ⟨d :: rest, l.position⟩ := by
  have hx : l.cursor.exhausted ≠ true := by
    intro hx
    rw [h.spent hx] at hr
    cases hr
  have hpaused : (l.withSource ⟨rest⟩).Paused := ⟨h.free, fun he ↦ absurd he hx⟩
  refine ⟨hpaused, ?_⟩
  cases hc : l.cursor.current? with
  | none => exact absurd (l.settled.exhausted_iff.mpr (.inl hc)) hx
  | some d =>
    refine ⟨d, ?_, ?_⟩
    · rw [view, h.upcoming_eq, hc, hr]
      rfl
    · rw [view, hpaused.upcoming_eq]
      change View.mk (l.cursor.current?.toList ++ rest) l.position = _
      rw [hc]
      rfl

end Paused

private theorem sharedCalls_of_nil {l : Lexer TextSource} (hr : l.source.rest = []) (length : Nat)
    (calls : List SharedCall) :
    l.sharedCalls length (.pullSource :: calls) = l.sharedCalls length calls := by
  obtain ⟨⟨⟨rest⟩, _, _, _, _, _⟩, _, _, _⟩ := l
  obtain rfl : rest = [] := hr
  rfl

private theorem sharedCalls_of_cons {l : Lexer TextSource} {c : Char} {given rest : List Char}
    (hr : l.source.rest = c :: rest) {length : Nat}
    (hlen : length = (given ++ l.source.rest).length) (calls : List SharedCall) :
    l.sharedCalls length (.pullSource :: calls) =
      let run := (l.withSource ⟨rest⟩).sharedCalls length calls
      { run with taken := (given.length, c) :: run.taken } := by
  have hindex : length - l.source.rest.length = given.length := by
    rw [hlen, List.length_append, Nat.add_sub_cancel]
  rw [← hindex]
  obtain ⟨⟨⟨_⟩, _, _, _, _, _⟩, _, _, _⟩ := l
  obtain rfl : _ = c :: rest := hr
  rfl

/-! ### Tokens and characters in turn -/

private theorem taken_sharedCalls {cs given : List Char} {l : Lexer TextSource}
    (h : cs = given ++ l.source.rest) (calls : List SharedCall) :
    let taken := (l.sharedCalls cs.length calls).taken
    (∀ x ∈ taken, given.length ≤ x.1 ∧ cs[x.1]? = some x.2) ∧
      (taken.map Prod.fst).Pairwise (· < ·) := by
  induction calls generalizing l given with
  | nil => exact ⟨nofun, .nil⟩
  | cons call calls ih =>
    cases call with
    | nextToken =>
      obtain ⟨between, hbetween⟩ := l.rest_suffix_nextToken
      rw [← hbetween, ← List.append_assoc] at h
      obtain ⟨htaken, hsorted⟩ := ih h
      refine ⟨?_, hsorted⟩
      intro x hx
      obtain ⟨hle, hat⟩ := htaken x hx
      rw [List.length_append] at hle
      exact ⟨by omega, hat⟩
    | pullSource =>
      cases hr : l.source.rest with
      | nil =>
        rw [sharedCalls_of_nil hr]
        exact ih h
      | cons c rest =>
        rw [sharedCalls_of_cons hr (congrArg List.length h)]
        have hat : cs[given.length]? = some c := by
          rw [h, hr, List.getElem?_append_right (Nat.le_refl _), Nat.sub_self]
          rfl
        rw [hr, List.append_cons] at h
        obtain ⟨htaken, hsorted⟩ := ih (l := l.withSource ⟨rest⟩) h
        have hbehind : ∀ x ∈ ((l.withSource ⟨rest⟩).sharedCalls cs.length calls).taken,
            given.length < x.1 := by
          intro x hx
          have hle := (htaken x hx).1
          rwa [List.length_append] at hle
        constructor
        · intro x hx
          rcases List.mem_cons.mp hx with rfl | hx
          · exact ⟨Nat.le_refl _, hat⟩
          · exact ⟨Nat.le_of_lt (hbehind x hx), (htaken x hx).2⟩
        · apply List.pairwise_cons.mpr
          refine ⟨?_, hsorted⟩
          intro j hj
          obtain ⟨x, hx, rfl⟩ := List.mem_map.mp hj
          exact hbehind x hx

private theorem index_sharedCalls {cs given : List Char} {l : Lexer TextSource}
    (h : cs = given ++ l.source.rest) (calls : List SharedCall) :
    ∀ j ∈ (l.sharedCalls cs.length calls).taken.map Prod.fst,
      given.length ≤ j ∧ j < cs.length := by
  intro j hj
  obtain ⟨x, hx, rfl⟩ := List.mem_map.mp hj
  obtain ⟨hle, hat⟩ := (taken_sharedCalls h calls).1 x hx
  exact ⟨hle, (List.getElem?_eq_some_iff.mp hat).1⟩

private theorem rest_suffix_sharedCalls (length : Nat) (l : Lexer TextSource)
    (calls : List SharedCall) :
    (l.sharedCalls length calls).last.source.rest <:+ l.source.rest := by
  induction calls generalizing l with
  | nil => exact List.suffix_rfl
  | cons call calls ih =>
    cases call with
    | nextToken => exact (ih l.nextToken.2).trans l.rest_suffix_nextToken
    | pullSource =>
      have htail : l.pullSource.2.source.rest <:+ l.source.rest := by
        obtain ⟨⟨⟨rest⟩, _, _, _, _, _⟩, _, _, _⟩ := l
        cases rest with
        | nil => exact List.suffix_rfl
        | cons c rest => exact List.suffix_cons c rest
      exact (ih l.pullSource.2).trans htail

private theorem Paused.nextToken_without {l : Lexer TextSource} (paused : l.Paused)
    {cs given between : List Char} (hbetween : between ++ l.nextToken.2.source.rest = l.source.rest)
    (h : cs = given ++ between ++ l.nextToken.2.source.rest) {gone : List Nat}
    (hgone : ∀ j ∈ gone, (given ++ between).length ≤ j ∧ j < cs.length) :
    let kept := l.view.without gone given.length
    kept.skipBlanks.token = l.nextToken.1 ∧
      kept.skipBlanks.behind = l.nextToken.2.view.without gone (given ++ between).length := by
  obtain ⟨ht, hv⟩ := l.view_nextToken
  have hrest : l.nextToken.2.source.rest = l.view.skipBlanks.behind.chars.tail := by
    rw [paused.nextToken.rest_eq, ← chars_view, hv]
  have htail : l.view.chars.tail = between ++ l.view.skipBlanks.behind.chars.tail := by
    rw [← hrest, hbetween, paused.rest_eq, chars_view]
  have hend : l.view.skipBlanks.behind.chars.tail = [] → gone = [] := by
    rw [← hrest]
    intro hr
    apply List.eq_nil_iff_forall_not_mem.mpr
    intro j hj
    have hlen := congrArg List.length h
    rw [hr, List.append_nil] at hlen
    have := hgone j hj
    omega
  rw [List.length_append] at hgone ⊢
  rw [ht, hv]
  exact View.without_behind htail (fun j hj ↦ (hgone j hj).1) hend

private theorem Paused.sharedCalls_eq {cs given : List Char} {l : Lexer TextSource}
    (paused : l.Paused) (h : cs = given ++ l.source.rest) (calls : List SharedCall) :
    let run := l.sharedCalls cs.length calls
    let kept := l.view.without (run.taken.map Prod.fst) given.length
    run.tokens = kept.firstTokens (calls.count .nextToken) ∧
      run.last.view = kept.behindTokens (calls.count .nextToken) ∧ run.last.Paused := by
  induction calls generalizing l given with
  | nil => exact ⟨rfl, (l.view.without_nil _).symm, paused⟩
  | cons call calls ih =>
    cases call with
    | nextToken =>
      obtain ⟨between, hbetween⟩ := l.rest_suffix_nextToken
      rw [← hbetween, ← List.append_assoc] at h
      have hwithin := index_sharedCalls h calls
      obtain ⟨htokens, hlast, hpaused⟩ := ih paused.nextToken h
      generalize hgone : (l.nextToken.2.sharedCalls cs.length calls).taken.map Prod.fst = gone
        at hwithin htokens hlast
      obtain ⟨htoken, hbehind⟩ := paused.nextToken_without hbetween h hwithin
      have hcount : (SharedCall.nextToken :: calls).count .nextToken =
          calls.count .nextToken + 1 := List.count_cons_self
      intro run kept
      have hkept : kept = l.view.without gone given.length := by
        rw [← hgone]
        rfl
      rw [hcount, View.firstTokens_succ, View.behindTokens, hkept, htoken, hbehind, ← htokens]
      exact ⟨rfl, hlast, hpaused⟩
    | pullSource =>
      have hcount : (SharedCall.pullSource :: calls).count .nextToken =
          calls.count .nextToken := List.count_cons_of_ne (by decide)
      rw [hcount]
      cases hr : l.source.rest with
      | nil =>
        rw [sharedCalls_of_nil hr]
        exact ih paused h
      | cons c rest =>
        obtain ⟨hpaused, d, hview, hleft⟩ := paused.withSource hr
        rw [sharedCalls_of_cons hr (congrArg List.length h)]
        rw [hr, List.append_cons] at h
        have hrun := ih hpaused h
        generalize (l.withSource ⟨rest⟩).sharedCalls cs.length calls = run at hrun ⊢
        rw [hleft, List.length_append] at hrun
        intro all kept
        have hkept : kept = ⟨d :: withoutIndices (run.taken.map Prod.fst) (given.length + 1) rest,
            l.position⟩ := by
          rw [← withoutIndices_cons _ _ c]
          exact congrArg (View.without _ _) hview
        rw [hkept]
        exact hrun

/-- Two lexers between two calls that have the same before them, up to where what one text leaves
and what the other leaves begin. -/
structure Parallel (left other : List Char) (l m : Lexer TextSource) : Prop where
  first : l.Paused
  second : m.Paused
  same : ∃ front, l.view = ⟨front ++ left, l.position⟩ ∧ m.view = ⟨front ++ other, l.position⟩

namespace Parallel

variable {left other : List Char} {l m : Lexer TextSource}

private theorem nextToken (h : Parallel left other l m) (hne : left ≠ [])
    (hleft : left <:+ l.nextToken.2.source.rest) :
    m.nextToken.1 = l.nextToken.1 ∧ Parallel left other l.nextToken.2 m.nextToken.2 ∧
      ∃ between, l.source.rest = between ++ l.nextToken.2.source.rest ∧
        m.source.rest = between ++ m.nextToken.2.source.rest := by
  obtain ⟨hl, hm, front, hlview, hmview⟩ := h
  obtain ⟨r, hr⟩ := hleft
  obtain ⟨ht, hv⟩ := l.view_nextToken
  obtain ⟨hu, hw⟩ := m.view_nextToken
  have hc : ∃ c, l.view.skipBlanks.behind.chars = c :: (r ++ left) := by
    rw [hl.nextToken.rest_eq, ← chars_view, hv] at hr
    cases hb : l.view.skipBlanks.behind.chars with
    | nil =>
      rw [hb] at hr
      exact absurd (List.append_eq_nil_iff.mp hr).2 hne
    | cons c rest =>
      rw [hb] at hr
      exact ⟨c, congrArg (c :: ·) hr.symm⟩
  obtain ⟨c, hc⟩ := hc
  obtain ⟨start, hchars, hother⟩ := View.token_of_behind hc
  have hfront : front = start ++ c :: r := by
    rw [hlview, ← List.cons_append, ← List.append_assoc] at hchars
    exact List.append_cancel_right hchars
  have hwhole : m.view = ⟨start ++ c :: (r ++ other), l.view.position⟩ := by
    rw [hmview, hfront, List.append_assoc, List.cons_append, position_view]
  obtain ⟨htoken, hbehind⟩ := hother (r ++ other)
  rw [hwhole, htoken, ← ht] at hu
  rw [hwhole, hbehind, ← hv] at hw
  have hself : l.nextToken.2.view = ⟨c :: r ++ left, l.nextToken.2.position⟩ := by
    rw [hv, List.cons_append, ← hc, ← position_view, hv]
  have hcut : ∀ cs, (start ++ c :: cs).tail = (start ++ [c]).tail ++ cs := by
    intro cs
    rw [List.append_cons, List.tail_append_of_ne_nil (List.concat_ne_nil _ _)]
  refine ⟨hu, ⟨hl.nextToken, hm.nextToken, c :: r, hself, hw⟩, (start ++ [c]).tail, ?_, ?_⟩
  · rw [hl.rest_eq, ← chars_view, hchars, hcut, hr]
  · rw [hm.rest_eq, hm.nextToken.rest_eq, ← chars_view, ← chars_view, hwhole, hw, hcut,
      List.tail_cons]

private theorem withSource (h : Parallel left other l m) {c : Char} {r : List Char}
    (hr : l.source.rest = c :: (r ++ left)) :
    m.source.rest = c :: (r ++ other) ∧
      Parallel left other (l.withSource ⟨r ++ left⟩) (m.withSource ⟨r ++ other⟩) := by
  obtain ⟨hl, hm, front, hlview, hmview⟩ := h
  obtain ⟨hlpaused, d, hd, hlbehind⟩ := hl.withSource hr
  have hfront : front = d :: c :: r := by
    rw [hd] at hlview
    exact List.append_cancel_right (congrArg View.chars hlview).symm
  have hmr : m.source.rest = c :: (r ++ other) := by
    rw [hm.rest_eq, ← chars_view, hmview, hfront]
    rfl
  obtain ⟨hmpaused, e, he, hmbehind⟩ := hm.withSource hmr
  rw [hmview, hfront] at he
  injection he with hchars hposition
  injection hchars with hde
  rw [← hde, ← hposition] at hmbehind
  exact ⟨hmr, hlpaused, hmpaused, d :: r, hlbehind, hmbehind⟩

private theorem sharedCalls_eq (h : Parallel left other l m) (hne : left ≠ [])
    {cs ds given : List Char}
    (hcs : cs = given ++ l.source.rest) (hds : ds = given ++ m.source.rest)
    (calls : List SharedCall)
    (hlast : (l.sharedCalls cs.length calls).last.source.rest = left) :
    (m.sharedCalls ds.length calls).tokens = (l.sharedCalls cs.length calls).tokens ∧
      (m.sharedCalls ds.length calls).taken = (l.sharedCalls cs.length calls).taken := by
  induction calls generalizing l m given with
  | nil => exact ⟨rfl, rfl⟩
  | cons call calls ih =>
    cases call with
    | nextToken =>
      change (l.nextToken.2.sharedCalls cs.length calls).last.source.rest = left at hlast
      have hleft : left <:+ l.nextToken.2.source.rest := by
        rw [← hlast]
        exact rest_suffix_sharedCalls ..
      obtain ⟨htoken, hnext, between, hl, hm⟩ := h.nextToken hne hleft
      rw [hl, ← List.append_assoc] at hcs
      rw [hm, ← List.append_assoc] at hds
      obtain ⟨htokens, htaken⟩ := ih hnext hcs hds hlast
      exact ⟨congrArg₂ List.cons htoken htokens, htaken⟩
    | pullSource =>
      cases hr : l.source.rest with
      | nil =>
        have hleft := rest_suffix_sharedCalls cs.length l (.pullSource :: calls)
        rw [hlast, hr] at hleft
        exact absurd (List.suffix_nil.mp hleft) hne
      | cons c rest =>
        rw [sharedCalls_of_cons hr (congrArg List.length hcs)] at hlast ⊢
        have hleft : left <:+ rest := by
          rw [← hlast]
          exact rest_suffix_sharedCalls ..
        obtain ⟨r, rfl⟩ := hleft
        obtain ⟨hmr, hnext⟩ := h.withSource hr
        rw [sharedCalls_of_cons hmr (congrArg List.length hds)]
        rw [hr, List.append_cons] at hcs
        rw [hmr, List.append_cons] at hds
        obtain ⟨htokens, htaken⟩ := ih hnext hcs hds hlast
        exact ⟨htokens, congrArg (List.cons _) htaken⟩

end Parallel

/-! ### Calls to a lexer on a text -/

private theorem rest_ofText (text : String) :
    text.toList = text.toList.take 1 ++ (ofText text).source.rest := by
  rw [(Paused.ofText text).rest_eq, upcoming_ofText, ← List.drop_one, List.take_append_drop]

private theorem nextTokens_of_sharedCalls (text : String) (calls : List SharedCall) :
    let run := (ofText text).sharedCalls text.length calls
    let kept := String.ofList (withoutIndices (run.taken.map Prod.fst) 0 text.toList)
    let direct := (ofText kept).nextTokens (calls.count .nextToken)
    run.tokens = direct.1 ∧ run.last.view = direct.2.view ∧ run.last.Paused := by
  intro run kept direct
  have hcs := rest_ofText text
  have hwithin := index_sharedCalls hcs calls
  obtain ⟨htokens, hlast, hpaused⟩ := (Paused.ofText text).sharedCalls_eq hcs calls
  rw [String.length_toList] at hwithin htokens hlast hpaused
  have hkept : (ofText text).view.without (run.taken.map Prod.fst) (text.toList.take 1).length =
      (ofText kept).view := by
    rw [view_ofText, view_ofText, View.without_ofChars fun j hj ↦ (hwithin j hj).1,
      String.toList_ofList]
  obtain ⟨hdirect, hbehind⟩ := nextTokens_eq (calls.count .nextToken) (ofText kept)
  rw [← hkept] at hdirect hbehind
  exact ⟨htokens.trans hdirect.symm, hlast.trans hbehind.symm, hpaused⟩

/-- Lexers on texts that start alike, with a character at least, have the same before them. -/
theorem Parallel.ofText {text other : String} {d : Char} {front left rest : List Char}
    (htext : text.toList = d :: front ++ left) (hother : other.toList = d :: front ++ rest) :
    Parallel left rest (Lexer.ofText text) (Lexer.ofText other) := by
  have hl : (Lexer.ofText text).view = ⟨d :: front ++ left, .next .start none⟩ := by
    rw [view_ofText, htext]
    rfl
  have hm : (Lexer.ofText other).view = ⟨d :: front ++ rest, .next .start none⟩ := by
    rw [view_ofText, hother]
    rfl
  have hposition : (Lexer.ofText text).position = .next .start none := congrArg View.position hl
  refine ⟨.ofText text, .ofText other, d :: front, ?_, ?_⟩
  · rw [hposition, hl]
  · rw [hposition, hm]

private theorem sharedCalls_of_isPrefix {text other : String} {calls : List SharedCall}
    (hne : ((ofText text).sharedCalls text.length calls).last.source.rest ≠ [])
    (h : text.toList.take (text.length -
        ((ofText text).sharedCalls text.length calls).last.source.rest.length) <+: other.toList) :
    ((ofText other).sharedCalls other.length calls).tokens =
        ((ofText text).sharedCalls text.length calls).tokens ∧
      ((ofText other).sharedCalls other.length calls).taken =
        ((ofText text).sharedCalls text.length calls).taken := by
  have hsuffix := rest_suffix_sharedCalls text.length (ofText text) calls
  generalize hlast : ((ofText text).sharedCalls text.length calls).last.source.rest = left
    at hne h hsuffix
  rw [← String.length_toList] at hlast h ⊢
  rw [← String.length_toList]
  have htext := rest_ofText text
  have hcons : text.toList ≠ [] := by
    intro hnil
    rw [hnil, List.take_nil, List.nil_append] at htext
    rw [← htext] at hsuffix
    exact hne (List.suffix_nil.mp hsuffix)
  obtain ⟨d, ds, hcs⟩ := List.exists_cons_of_ne_nil hcons
  have hrest : (ofText text).source.rest = ds := by
    rw [hcs] at htext
    exact (List.cons_inj_right d).mp htext.symm
  rw [hrest] at hsuffix
  obtain ⟨front, rfl⟩ := hsuffix
  have hlen : (d :: (front ++ left)).length - left.length = (d :: front).length := by
    rw [← List.cons_append, List.length_append, Nat.add_sub_cancel]
  rw [hcs, hlen, ← List.cons_append, List.take_left] at h
  obtain ⟨rest, hother⟩ := h
  have hotext := rest_ofText other
  have hfirst : text.toList.take 1 = [d] := by rw [hcs]; rfl
  have hofirst : other.toList.take 1 = [d] := by rw [← hother]; rfl
  rw [hfirst] at htext
  rw [hofirst] at hotext
  exact (Parallel.ofText hcs hother.symm).sharedCalls_eq hne htext hotext calls hlast

/-- Tokens that are read from a text and characters that are taken from it behind the lexer's back
come in any order. The tokens are those of the text without just these characters, and then the
mark at its end again and again; the lexer holds the same character in the same position, and has
the same left in its source, as one that reads as many tokens from that text. The characters that
neither the lexer nor anyone else has asked for make no difference. -/
theorem sharedCalls_ofText (text : String) (calls : List SharedCall) :
    let run := (ofText text).sharedCalls text.length calls
    let gone := run.taken.map Prod.fst
    let kept := String.ofList (withoutIndices gone 0 text.toList)
    let direct := (ofText kept).nextTokens (calls.count .nextToken)
    (∀ x ∈ run.taken, text.toList[x.1]? = some x.2) ∧ gone.Pairwise (· < ·) ∧
      run.tokens = direct.1 ∧ run.tokens.length = calls.count .nextToken ∧
      (∃ mark, (tokenize kept).getLast? = some mark ∧
        run.tokens <+: tokenize kept ++ List.replicate run.tokens.length mark) ∧
      run.last.cursor.current? = direct.2.cursor.current? ∧
      run.last.position = direct.2.position ∧ run.last.source = direct.2.source ∧
      (run.last.source.rest ≠ [] → ∀ other : String,
        text.toList.take (text.length - run.last.source.rest.length) <+: other.toList →
          ((ofText other).sharedCalls other.length calls).tokens = run.tokens ∧
            ((ofText other).sharedCalls other.length calls).taken = run.taken) := by
  intro run gone kept direct
  have htaken := taken_sharedCalls (rest_ofText text) calls
  rw [String.length_toList] at htaken
  obtain ⟨htokens, hview, hpaused⟩ := nextTokens_of_sharedCalls text calls
  obtain ⟨hdirect, hbehind⟩ := nextTokens_eq (calls.count .nextToken) (ofText kept)
  have hlen : run.tokens.length = calls.count .nextToken := by
    rw [htokens, hdirect, View.length_firstTokens]
  have hupcoming : run.last.upcoming = direct.2.upcoming := congrArg View.chars hview
  have hrest : run.last.source.rest = direct.2.source.rest := by
    rw [hpaused.rest_eq, hupcoming]
    exact ((Paused.ofText kept).nextTokens _).rest_eq.symm
  refine ⟨fun x hx ↦ (htaken.1 x hx).2, htaken.2, htokens, hlen, ?_, ?_, ?_, ?_, ?_⟩
  · refine ⟨.endAt (ofText kept).view.last.position, ?_, ?_⟩
    · rw [tokenize_eq, ← view_ofText, List.getLast?_concat]
    · rw [hlen, htokens, hdirect, tokenize_eq, ← view_ofText]
      exact View.isPrefix_firstTokens _ _
  · rw [← head?_upcoming, ← head?_upcoming, hupcoming]
  · exact congrArg View.position hview
  · exact congrArg TextSource.mk hrest
  · intro hne other h
    exact sharedCalls_of_isPrefix hne h

end Lexer
end MonkeyTokens
