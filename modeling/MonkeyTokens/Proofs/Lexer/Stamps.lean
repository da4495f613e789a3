import Mathlib.Algebra.Group.Nat.Defs
import MonkeyTokens.Proofs.Lexer.Grammar

/-!
# Where tokens are stamped

`place` counts the line and the column of an index off the text itself: the line feeds before it,
and how far it is from the last of them. A reader keeps line and column step by step instead, but
has the same at every index (`position_ofIndex`), and behind the last character still those of
that character. So every token of a text has a position that can be told from the place at which
its characters stand in the text (`tokenize_stamps`).
-/

namespace MonkeyTokens

open Text

/-- The index of the last line feed in front of an index. -/
def lastFeed? (cs : List Char) (i : Nat) : Option Nat :=
  (List.range i).reverse.find? fun j ↦ cs[j]? = some '\n'

/-- The line and the column of an index of a text. -/
def place (cs : List Char) (i : Nat) : Position where
  line := 1 + (cs.take i).count '\n'
  column := match lastFeed? cs i with
    | some j => i - j
    | none => i + 1

/-- The position that a token has by its kind and by the index at which it starts. -/
def stampOf (cs : List Char) (i : Nat) (t : Token) : Position :=
  match t.kind with
  | .symbol .equals | .symbol .notEquals => place cs (i + 1)
  | .symbol _ | .illegal => place cs i
  | .identifier | .keyword _ | .integer | .float | .endOfText =>
    if i + t.literal.length < cs.length then place cs (i + t.literal.length)
    else place cs (cs.length - 1)

/-- From an index on, a text is made of these tokens, each with the index at which it starts, and
of blanks. -/
inductive LaidOut (cs : List Char) : Nat → List (Nat × Token) → Prop where
  | done {i : Nat} (blank : ∀ c ∈ cs.drop i, isBlank c = true) : LaidOut cs i []
  | more {i : Nat} {b rest : List Char} {t : Token} {placed : List (Nat × Token)}
      (blank : ∀ c ∈ b, isBlank c = true) (lexeme : IsLexeme t.kind t.literal.toList)
      (here : cs.drop i = b ++ t.literal.toList ++ rest)
      (behind : LaidOut cs (i + b.length + t.literal.length) placed) :
      LaidOut cs i ((i + b.length, t) :: placed)

/-! ### Layouts -/

/-- The characters of a token that come from an index on are some, and end inside the text. -/
theorem IsLexeme.add_length_le {k : Kind} {cs b w rest : List Char} {i : Nat}
    (lexeme : IsLexeme k w) (here : cs.drop i = b ++ w ++ rest) :
    0 < w.length ∧ i + b.length + w.length ≤ cs.length := by
  have hpos := List.length_pos_iff.mpr lexeme.ne_nil
  have hlen := congrArg List.length here
  simp only [List.length_drop, List.length_append] at hlen
  omega

/-- The characters of a token that is laid out make one token of its kind. -/
theorem LaidOut.isLexeme {cs : List Char} {i : Nat} {placed : List (Nat × Token)}
    (laid : LaidOut cs i placed) : ∀ x ∈ placed, IsLexeme x.2.kind x.2.literal.toList := by
  induction laid with
  | done => simp
  | more blank lexeme here behind ih => exact List.forall_mem_cons.mpr ⟨lexeme, ih⟩

/-- A token that is laid out is not empty and lies between the index and the end of the text. -/
theorem LaidOut.bounds {cs : List Char} {i : Nat} {placed : List (Nat × Token)}
    (laid : LaidOut cs i placed) : ∀ x ∈ placed,
      i ≤ x.1 ∧ 0 < x.2.literal.length ∧ x.1 + x.2.literal.length ≤ cs.length := by
  induction laid with
  | done => simp
  | more blank lexeme here behind ih =>
    obtain ⟨hpos, hfits⟩ := lexeme.add_length_le here
    rw [String.length_toList] at hpos hfits
    intro x hx
    rcases List.mem_cons.mp hx with rfl | hx
    · exact ⟨Nat.le_add_right _ _, hpos, hfits⟩
    · obtain ⟨hstart, hbounds⟩ := ih x hx
      exact ⟨by omega, hbounds⟩

/-- No token that is laid out starts before the ones in front of it end. -/
theorem LaidOut.pairwise {cs : List Char} {i : Nat} {placed : List (Nat × Token)}
    (laid : LaidOut cs i placed) :
    placed.Pairwise fun x y ↦ x.1 + x.2.literal.length ≤ y.1 := by
  induction laid with
  | done => exact .nil
  | more blank lexeme here behind ih =>
    exact .cons (fun y hy ↦ (behind.bounds y hy).1) ih

/-! ### Lines and columns by steps -/

/-- The position that a reader reaches from the first character by leaving these. -/
def Position.after (cs : List Char) : Position :=
  cs.foldl (fun p c ↦ p.next (some c)) (Position.start.next none)

private theorem Position.after_concat (cs : List Char) (c : Char) :
    Position.after (cs ++ [c]) = (Position.after cs).next (some c) := by
  rw [Position.after, List.foldl_append, List.foldl_cons, List.foldl_nil, Position.after]

private theorem lastFeed?_succ_of_feed {cs : List Char} {i : Nat} (h : cs[i]? = some '\n') :
    lastFeed? cs (i + 1) = some i := by
  rw [lastFeed?, List.range_succ, List.reverse_concat, List.find?_cons_of_pos]
  simpa using h

private theorem lastFeed?_succ_of_ne {cs : List Char} {i : Nat} (h : cs[i]? ≠ some '\n') :
    lastFeed? cs (i + 1) = lastFeed? cs i := by
  rw [lastFeed?, List.range_succ, List.reverse_concat, List.find?_cons_of_neg, lastFeed?]
  simpa using h

private theorem lt_of_lastFeed? {cs : List Char} {i j : Nat} (h : lastFeed? cs i = some j) :
    j < i := by
  have hm := List.mem_of_find?_eq_some h
  simpa using hm

/-- Behind a line feed a new line starts. -/
theorem place_succ_of_feed {cs : List Char} {i : Nat} (h : cs[i]? = some '\n') :
    place cs (i + 1) = ⟨(place cs i).line + 1, 1⟩ := by
  have ht : cs.take (i + 1) = cs.take i ++ ['\n'] := by rw [List.take_add_one, h]; rfl
  rw [place, lastFeed?_succ_of_feed h, ht, List.count_append, List.count_singleton_self, place]
  congr 1
  simp only
  omega

/-- Behind anything else the line goes on. -/
theorem place_succ_of_ne {cs : List Char} {i : Nat} (h : cs[i]? ≠ some '\n') :
    place cs (i + 1) = ⟨(place cs i).line, (place cs i).column + 1⟩ := by
  have hz : cs[i]?.toList.count '\n' = 0 :=
    List.count_eq_zero.mpr fun hm ↦ h (Option.mem_toList.mp hm)
  rw [place, lastFeed?_succ_of_ne h, List.take_add_one, List.count_append, hz, place]
  congr 1
  cases hl : lastFeed? cs i with
  | none => rfl
  | some j =>
    have := lt_of_lastFeed? hl
    simp only
    omega

private theorem place_le (cs : List Char) (i : Nat) :
    (1 ≤ (place cs i).line ∧ (place cs i).line ≤ i + 1) ∧
      1 ≤ (place cs i).column ∧ (place cs i).column ≤ i + 1 := by
  have hl : (cs.take i).count '\n' ≤ i :=
    List.count_le_length.trans (by rw [List.length_take]; omega)
  refine ⟨⟨?_, ?_⟩, ?_⟩
  · simp only [place]
    omega
  · simp only [place]
    omega
  · rw [place]
    simp only
    split
    · next j hj =>
      have := lt_of_lastFeed? hj
      omega
    · omega

private theorem Position.after_take {cs : List Char} {i : Nat} (hi : i ≤ cs.length)
    (h : i < Position.limit) : Position.after (cs.take i) = place cs i := by
  induction i with
  | zero => rfl
  | succ i ih =>
    have hlt : i < cs.length := hi
    have hle := place_le cs i
    rw [List.take_succ_eq_append_getElem hlt, Position.after_concat, ih (by omega) (by omega)]
    by_cases hc : cs[i] = '\n'
    · rw [place_succ_of_feed (by rw [List.getElem?_eq_getElem hlt, hc]), Position.next, hc,
        if_pos rfl, Position.nextLine]
      congr 1
      omega
    · rw [place_succ_of_ne (by simpa [List.getElem?_eq_getElem hlt] using hc),
        Position.next_of_ne (by simpa using hc), Position.nextColumn]
      congr 1
      omega

/-! ### Views of a text -/

namespace View

/-- What is left of a text from an index on. -/
def ofIndex (cs : List Char) (i : Nat) : View where
  chars := cs.drop i
  position := if cs = [] then .start else .after (cs.take (min i (cs.length - 1)))

/-- At first all of a text is left. -/
theorem ofIndex_zero (cs : List Char) : ofIndex cs 0 = ofChars cs := by
  rw [ofIndex, Nat.zero_min]
  rfl

private theorem advance_ofIndex (cs : List Char) (i : Nat) :
    (ofIndex cs i).advance = ofIndex cs (i + 1) := by
  by_cases h : i + 1 < cs.length
  · have hd : cs.drop i = cs[i] :: cs[i + 1] :: cs.drop (i + 2) := by
      rw [List.drop_eq_getElem_cons (by omega), List.drop_eq_getElem_cons h]
    have hne : cs ≠ [] := by
      rintro rfl
      simp at h
    rw [ofIndex, ofIndex, if_neg hne, if_neg hne, hd, Nat.min_eq_left (by omega),
      Nat.min_eq_left (by omega), List.take_succ_eq_append_getElem (by omega : i < cs.length),
      Position.after_concat, List.drop_eq_getElem_cons h]
    rfl
  · have hd : cs.drop (i + 1) = [] := List.drop_of_length_le (by omega)
    have hl : (cs.drop i).length ≤ 1 := by
      rw [List.length_drop]
      omega
    rw [ofIndex, ofIndex, hd, Nat.min_eq_right (by omega), Nat.min_eq_right (by omega)]
    match hm : cs.drop i, hl with
    | [], _ | [_], _ => rfl

/-- Moving on so many times leads so many indices on. -/
theorem skip_ofIndex (cs : List Char) (n i : Nat) :
    (ofIndex cs i).skip n = ofIndex cs (i + n) := by
  induction n generalizing i with
  | zero => rfl
  | succ n ih => rw [skip, advance_ofIndex, ih, Nat.add_assoc, Nat.add_comm 1]

/-- Below the limit the position is the place of the index, and behind the last character still
that of the last index. -/
theorem position_ofIndex {cs : List Char} (hcs : cs ≠ []) (h : cs.length ≤ Position.limit)
    (i : Nat) : (ofIndex cs i).position = place cs (min i (cs.length - 1)) := by
  have hpos := List.length_pos_iff.mpr hcs
  rw [ofIndex, if_neg hcs]
  exact Position.after_take (by omega) (by omega)

end View

private theorem stampOf_of_isRun {t : Token} (h : t.kind.isRun = true) (cs : List Char)
    (i : Nat) : stampOf cs i t = if i + t.literal.length < cs.length
      then place cs (i + t.literal.length) else place cs (cs.length - 1) := by
  unfold stampOf
  cases hk : t.kind <;> simp_all [Kind.isRun]

/-- A reader that stamps a token has the position there that is told by the token's kind. -/
theorem IsLexeme.position_stamp {k : Kind} {w cs : List Char} {i : Nat} (lexeme : IsLexeme k w)
    (fits : i + w.length ≤ cs.length) (h : cs.length ≤ Position.limit) (p : Position) :
    (View.ofIndex cs (i + k.stampOffset w.length)).position =
      stampOf cs i ⟨k, String.ofList w, p⟩ := by
  have hw : 0 < w.length := by
    obtain ⟨c, cs, rfl, -⟩ := lexeme.exists_cons
    exact Nat.succ_pos _
  have hcs : cs ≠ [] := by
    rintro rfl
    simp only [List.length_nil] at fits
    omega
  rw [View.position_ofIndex hcs h]
  by_cases hk : k.isRun = true
  · rw [stampOf_of_isRun hk, Kind.stampOffset, if_pos hk]
    simp only [String.length_ofList]
    split
    · rw [Nat.min_eq_left (by omega)]
    · rw [Nat.min_eq_right (by omega)]
  · rw [Kind.stampOffset, if_neg hk, Nat.min_eq_left (by omega)]
    cases lexeme with
    | word _ _ kind =>
      rw [← wordKind_iff.mp kind] at hk
      exact absurd (Kind.isRun_ofWord _) hk
    | integer | float => exact absurd rfl hk
    | symbol s => cases s <;> rfl
    | illegal => rfl

/-- The tokens that come from an index on are laid out behind it. In a text that is short enough
each of them is stamped by its kind. -/
theorem View.exists_laidOut (cs : List Char) (i : Nat) :
    ∃ placed : List (Nat × Token), (ofIndex cs i).tokens = placed.map Prod.snd ∧
      LaidOut cs i placed ∧
      (cs.length ≤ Position.limit → ∀ x ∈ placed, x.2.position = stampOf cs x.1 x.2) := by
  generalize hv : ofIndex cs i = v
  fun_induction tokens v generalizing i with
  | case1 v hb =>
    subst hv
    rw [chars_skipBlanks] at hb
    exact ⟨[], rfl, .done (List.dropWhile_eq_nil_iff.mp hb), by simp⟩
  | case2 v d ds hb ih =>
    subst hv
    obtain ⟨b, w, rest, k, hcs, blank, lexeme, stops⟩ :=
      exists_isLexeme (by rw [hb]; exact List.cons_ne_nil d ds)
    have ht := token_of_isLexeme hcs blank lexeme stops
    have hr := behind_of_isLexeme hcs blank lexeme stops
    rw [skip_ofIndex] at ht hr
    obtain ⟨placed, hplaced, hlaid, hstamps⟩ := ih _ hr.symm
    have hdrop : cs.drop i = b ++ w ++ rest := hcs
    refine ⟨(i + b.length, (ofIndex cs i).skipBlanks.token) :: placed, ?_, ?_, ?_⟩
    · rw [hplaced, List.map_cons]
    · have hw : (ofIndex cs i).skipBlanks.token.literal.toList = w := by
        rw [ht, String.toList_ofList]
      refine .more blank ?_ (hw.symm ▸ hdrop) ?_
      · rwa [hw, ht]
      · rwa [← String.length_toList, hw, Nat.add_assoc]
    · intro h x hx
      rcases List.mem_cons.mp hx with rfl | hx
      · rw [ht, ← Nat.add_assoc]
        exact lexeme.position_stamp (lexeme.add_length_le hdrop).2 h _
      · exact hstamps h x hx

/-- The tokens that come from an index on are laid out behind it, each stamped by its kind. -/
theorem View.laidOut_tokens {cs : List Char} (h : cs.length ≤ Position.limit) (i : Nat) :
    ∃ placed : List (Nat × Token), (ofIndex cs i).tokens = placed.map Prod.snd ∧
      LaidOut cs i placed ∧ ∀ x ∈ placed, x.2.position = stampOf cs x.1 x.2 := by
  obtain ⟨placed, hplaced, hlaid, hstamps⟩ := exists_laidOut cs i
  exact ⟨placed, hplaced, hlaid, hstamps h⟩

/-- Behind the last character the position is still that of the last index. -/
theorem View.position_last {cs : List Char} (h : cs.length ≤ Position.limit) :
    (ofChars cs).last.position = if cs.length = 0 then ⟨1, 0⟩ else place cs (cs.length - 1) := by
  have hl : (ofChars cs).last = ofIndex cs cs.length := by
    rw [← ofIndex_zero, last, skip_ofIndex, Nat.zero_add]
    rfl
  rw [hl]
  by_cases hcs : cs = []
  · subst hcs
    rfl
  · rw [if_neg (mt List.length_eq_zero_iff.mp hcs), position_ofIndex hcs h,
      Nat.min_eq_right (Nat.sub_le _ _)]

private theorem exists_stampOf_eq (cs : List Char) (i : Nat) (t : Token) :
    ∃ j, stampOf cs i t = place cs j := by
  unfold stampOf
  repeat' split
  all_goals exact ⟨_, rfl⟩

/-- The position of every token of a text that is short enough, by its kind and by the index at
which it starts; the mark at the end has the position of the last character. -/
theorem tokenize_stamps (text : String) (h : text.length < 2 ^ 32) :
    ∃ (placed : List (Nat × Token)) (mark : Token),
      tokenize text = placed.map Prod.snd ++ [mark] ∧
      LaidOut text.toList 0 placed ∧
      (∀ x ∈ placed, x.2.position = stampOf text.toList x.1 x.2) ∧
      mark = .endAt (if text.length = 0 then ⟨1, 0⟩ else place text.toList (text.length - 1)) ∧
      (text.length ≠ 0 → ∀ t ∈ tokenize text, 1 ≤ t.position.line ∧ 1 ≤ t.position.column) := by
  have hlim : text.toList.length ≤ Position.limit := by
    rw [String.length_toList, Position.limit]
    omega
  obtain ⟨placed, hplaced, hlaid, hstamps⟩ := View.laidOut_tokens hlim 0
  have hlast := View.position_last hlim
  rw [String.length_toList] at hlast
  have htokens : tokenize text = placed.map Prod.snd ++
      [.endAt (if text.length = 0 then ⟨1, 0⟩ else place text.toList (text.length - 1))] := by
    rw [tokenize_eq, hlast, ← View.ofIndex_zero, hplaced]
  refine ⟨placed, _, htokens, hlaid, hstamps, rfl, ?_⟩
  intro hne t ht
  have hplace : ∃ j, t.position = place text.toList j := by
    rw [htokens, if_neg hne] at ht
    rcases List.mem_append.mp ht with ht | ht
    · obtain ⟨x, hx, rfl⟩ := List.mem_map.mp ht
      obtain ⟨j, hj⟩ := exists_stampOf_eq text.toList x.1 x.2
      exact ⟨j, (hstamps x hx).trans hj⟩
    · rw [List.mem_singleton.mp ht]
      exact ⟨_, rfl⟩
  obtain ⟨j, hj⟩ := hplace
  have hle := place_le text.toList j
  rw [hj]
  exact ⟨hle.1.1, hle.2.1⟩

/-- A word that a line feed ends, a number that a symbol ends, and a word at the very end. -/
theorem tokenize_stamps_two_lines :
    "ab\n1.== x".length < 2 ^ 32 ∧
    ∃ (placed : List (Nat × Token)) (mark : Token),
      tokenize "ab\n1.== x" = placed.map Prod.snd ++ [mark] ∧
      LaidOut "ab\n1.== x".toList 0 placed ∧
      (∀ x ∈ placed, x.2.position = stampOf "ab\n1.== x".toList x.1 x.2) ∧
      mark = .endAt (if "ab\n1.== x".length = 0 then ⟨1, 0⟩
        else place "ab\n1.== x".toList ("ab\n1.== x".length - 1)) ∧
      ("ab\n1.== x".length ≠ 0 →
        ∀ t ∈ tokenize "ab\n1.== x", 1 ≤ t.position.line ∧ 1 ≤ t.position.column) :=
  ⟨by decide, tokenize_stamps "ab\n1.== x" (by decide)⟩

end MonkeyTokens
