import Mathlib.Data.Prod.Lex
import Mathlib.Order.Monotone.Basic
import MonkeyTokens.Proofs.Lexer.Stamps

/-!
# The order of stamps

Positions are compared by line and then by column (`Position.key`). A later index of a text has a
later place (`strictMono_place`), so that it is enough to compare the indices at which tokens are
stamped. A token is stamped on its last character or behind it (`stampIndex_bounds`). Hence no
stamp comes before the one in front of it, and two stamps are the same only where a run is stamped
on the token behind it (`stampIndex_eq_iff`).
-/

namespace MonkeyTokens

/-- The line and the column, compared in this order. -/
def Position.key (p : Position) : ℕ ×ₗ ℕ := toLex (p.line, p.column)

/-- The index of a text of so many characters at which a token is stamped. -/
def stampIndex (n : Nat) (x : Nat × Token) : Nat :=
  min (x.1 + x.2.kind.stampOffset x.2.literal.length) (n - 1)

/-- In a text of so many characters the second token has no room for a stamp of its own: it is a
single character right behind a run, and if it is a run itself, the text ends with it. -/
structure SharesStamp (n : Nat) (x y : Nat × Token) : Prop where
  run : x.2.kind.isRun = true
  adjacent : y.1 = x.1 + x.2.literal.length
  single : y.2.literal.length = 1
  atEnd : y.2.kind.isRun = true → y.1 + 1 = n

/-! ### Places -/

private theorem Position.key_inj {p q : Position} : p.key = q.key ↔ p = q := by
  obtain ⟨l, c⟩ := p
  obtain ⟨m, d⟩ := q
  simp [key]

private theorem key_place_lt_succ (cs : List Char) (i : Nat) :
    (place cs i).key < (place cs (i + 1)).key := by
  refine Prod.Lex.toLex_lt_toLex.mpr ?_
  by_cases h : cs[i]? = some '\n'
  · rw [place_succ_of_feed h]
    exact .inl (Nat.lt_succ_self _)
  · rw [place_succ_of_ne h]
    exact .inr ⟨rfl, Nat.lt_succ_self _⟩

/-- A later index has a later place. -/
theorem strictMono_place (cs : List Char) : StrictMono fun i ↦ (place cs i).key :=
  strictMono_nat_of_lt_succ (key_place_lt_succ cs)

private theorem place_inj {cs : List Char} {i j : Nat} : place cs i = place cs j ↔ i = j := by
  rw [← Position.key_inj]
  exact (strictMono_place cs).injective.eq_iff

/-! ### Where stamps are made -/

section Indices

variable {n : Nat} {x y : Nat × Token}

/-- A token is stamped on its last character or behind it, and never behind the text. -/
theorem stampIndex_bounds (pos : 0 < x.2.literal.length)
    (fits : x.1 + x.2.literal.length ≤ n) :
    x.1 + x.2.literal.length ≤ stampIndex n x + 1 ∧
      stampIndex n x ≤ x.1 + x.2.literal.length ∧ stampIndex n x < n := by
  unfold stampIndex Kind.stampOffset
  split <;> omega

private theorem stampIndex_eq_end_iff (pos : 0 < x.2.literal.length)
    (inside : x.1 + x.2.literal.length < n) :
    stampIndex n x = x.1 + x.2.literal.length ↔ x.2.kind.isRun = true := by
  unfold stampIndex Kind.stampOffset
  split <;> simp_all <;> omega

private theorem stampIndex_eq_start_iff (single : x.2.literal.length = 1) (fits : x.1 < n) :
    stampIndex n x = x.1 ↔ (x.2.kind.isRun = true → x.1 + 1 = n) := by
  unfold stampIndex Kind.stampOffset
  rw [single]
  split <;> simp_all <;> omega

private theorem stampIndex_le (posx : 0 < x.2.literal.length) (posy : 0 < y.2.literal.length)
    (behind : x.1 + x.2.literal.length ≤ y.1) (fits : y.1 + y.2.literal.length ≤ n) :
    stampIndex n x ≤ stampIndex n y := by
  have hx := stampIndex_bounds posx (n := n) (by omega)
  have hy := stampIndex_bounds posy fits
  omega

/-- Both stamps are made at one index exactly if the second token has no room for its own. -/
theorem stampIndex_eq_iff (posx : 0 < x.2.literal.length) (posy : 0 < y.2.literal.length)
    (behind : x.1 + x.2.literal.length ≤ y.1) (fits : y.1 + y.2.literal.length ≤ n) :
    stampIndex n x = stampIndex n y ↔ SharesStamp n x y := by
  have hx := stampIndex_bounds posx (n := n) (by omega)
  have hy := stampIndex_bounds posy fits
  have hend := stampIndex_eq_end_iff posx (n := n) (by omega)
  constructor
  · intro heq
    have hsingle : y.2.literal.length = 1 := by omega
    exact ⟨hend.mp (by omega), by omega, hsingle,
      (stampIndex_eq_start_iff hsingle (by omega)).mp (by omega)⟩
  · intro shares
    rw [hend.mpr shares.run, ← shares.adjacent]
    exact ((stampIndex_eq_start_iff shares.single (by omega)).mpr shares.atEnd).symm

end Indices

/-! ### Stamps of a layout -/

section Layout

variable {cs : List Char} {placed : List (Nat × Token)}

private theorem stampOf_eq_place {x : Nat × Token} (lexeme : IsLexeme x.2.kind x.2.literal.toList)
    (fits : x.1 + x.2.literal.length ≤ cs.length) (h : cs.length ≤ Position.limit) :
    stampOf cs x.1 x.2 = place cs (stampIndex cs.length x) := by
  have hcs : cs ≠ [] := by
    rintro rfl
    have := List.length_pos_iff.mpr lexeme.ne_nil
    simp only [List.length_nil, String.length_toList] at this fits
    omega
  have hstamp := lexeme.position_stamp fits h x.2.position
  rw [View.position_ofIndex hcs h, String.ofList_toList] at hstamp
  exact hstamp.symm

private theorem LaidOut.pairwise_stampIndex (laid : LaidOut cs 0 placed) :
    placed.Pairwise fun x y ↦ stampIndex cs.length x ≤ stampIndex cs.length y := by
  refine laid.pairwise.imp_of_mem fun hx hy hxy ↦ ?_
  obtain ⟨-, hposx, -⟩ := laid.bounds _ hx
  obtain ⟨-, hposy, hfits⟩ := laid.bounds _ hy
  exact stampIndex_le hposx hposy hxy hfits

private theorem LaidOut.end_le_of_lt (laid : LaidOut cs 0 placed) {i j : Nat} {x y : Nat × Token}
    (hx : placed[i]? = some x) (hy : placed[j]? = some y) (hij : i < j) :
    x.1 + x.2.literal.length ≤ y.1 := by
  obtain ⟨hi, rfl⟩ := List.getElem?_eq_some_iff.mp hx
  obtain ⟨hj, rfl⟩ := List.getElem?_eq_some_iff.mp hy
  exact List.pairwise_iff_getElem.mp laid.pairwise i j hi hj hij

private theorem LaidOut.stampIndex_lt (laid : LaidOut cs 0 placed) {i j : Nat} {x y : Nat × Token}
    (hx : placed[i]? = some x) (hy : placed[j]? = some y) (apart : i + 2 ≤ j) :
    stampIndex cs.length x < stampIndex cs.length y := by
  have hj : j < placed.length := (List.getElem?_eq_some_iff.mp hy).1
  have hz := List.getElem?_eq_getElem (by omega : i + 1 < placed.length)
  have hfirst := laid.end_le_of_lt hx hz (Nat.lt_succ_self i)
  have hsecond := laid.end_le_of_lt hz hy (by omega)
  obtain ⟨-, hposx, hfitsx⟩ := laid.bounds x (List.mem_of_getElem? hx)
  obtain ⟨-, hposy, hfitsy⟩ := laid.bounds y (List.mem_of_getElem? hy)
  obtain ⟨-, hbetween, -⟩ := laid.bounds _ (List.mem_of_getElem? hz)
  -- at the latest the first is stamped where the one between starts, and that one is not empty
  have hstampx := stampIndex_bounds hposx hfitsx
  have hstampy := stampIndex_bounds hposy hfitsy
  omega

private theorem LaidOut.stampIndex_eq_iff_of_adjacent (laid : LaidOut cs 0 placed) {i : Nat}
    {x y : Nat × Token} (hx : placed[i]? = some x) (hy : placed[i + 1]? = some y) :
    stampIndex cs.length x = stampIndex cs.length y ↔ SharesStamp cs.length x y := by
  obtain ⟨-, hposx, -⟩ := laid.bounds x (List.mem_of_getElem? hx)
  obtain ⟨-, hposy, hfits⟩ := laid.bounds y (List.mem_of_getElem? hy)
  exact stampIndex_eq_iff hposx hposy (laid.end_le_of_lt hx hy (Nat.lt_succ_self i)) hfits

private theorem LaidOut.stampIndex_le_last (laid : LaidOut cs 0 placed) {x : Nat × Token}
    (hx : x ∈ placed) : cs.length ≠ 0 ∧ stampIndex cs.length x ≤ cs.length - 1 := by
  obtain ⟨-, hpos, hfits⟩ := laid.bounds x hx
  have := stampIndex_bounds hpos hfits
  omega

end Layout

/-- In a text that is short enough positions never decrease from token to token, the mark at the
end included. They increase where another token is between two, and adjacent tokens have one
position exactly where the second has no room for a stamp of its own. -/
theorem tokenize_position_order (text : String) (h : text.length < 2 ^ 32) :
    ∃ (placed : List (Nat × Token)) (last : Position),
      tokenize text = placed.map Prod.snd ++ [.endAt last] ∧
      LaidOut text.toList 0 placed ∧
      (tokenize text).Pairwise (fun s t ↦ s.position.key ≤ t.position.key) ∧
      (∀ i j x y, placed[i]? = some x → placed[j]? = some y → i + 2 ≤ j →
        x.2.position.key < y.2.position.key) ∧
      ∀ i x y, placed[i]? = some x → placed[i + 1]? = some y →
        (x.2.position = y.2.position ↔ SharesStamp text.length x y) := by
  rw [← String.length_toList] at h ⊢
  have hlim : text.toList.length ≤ Position.limit := Nat.le_of_lt_succ h
  obtain ⟨placed, hplaced, laid, hstamps⟩ := View.laidOut_tokens hlim 0
  have hposition : ∀ x ∈ placed,
      x.2.position = place text.toList (stampIndex text.toList.length x) := fun x hx ↦
    (hstamps x hx).trans
      (stampOf_eq_place (laid.isLexeme x hx) (laid.bounds x hx).2.2 hlim)
  have hmono := strictMono_place text.toList
  have htokens : tokenize text =
      placed.map Prod.snd ++ [.endAt (View.ofChars text.toList).last.position] := by
    rw [tokenize_eq, ← View.ofIndex_zero, hplaced]
  refine ⟨placed, _, htokens, laid, ?_, ?_, ?_⟩
  · rw [htokens, List.pairwise_append, List.pairwise_map]
    refine ⟨laid.pairwise_stampIndex.imp_of_mem fun hx hy hxy ↦ ?_,
      List.pairwise_singleton _ _, ?_⟩
    · rw [hposition _ hx, hposition _ hy]
      exact hmono.monotone hxy
    · intro t ht mark hmark
      obtain ⟨x, hx, rfl⟩ := List.mem_map.mp ht
      obtain ⟨hne, hle⟩ := laid.stampIndex_le_last hx
      rw [List.mem_singleton.mp hmark, hposition x hx, Token.endAt, View.position_last hlim,
        if_neg hne]
      exact hmono.monotone hle
  · intro i j x y hx hy apart
    rw [hposition x (List.mem_of_getElem? hx), hposition y (List.mem_of_getElem? hy)]
    exact hmono (laid.stampIndex_lt hx hy apart)
  · intro i x y hx hy
    rw [hposition x (List.mem_of_getElem? hx), hposition y (List.mem_of_getElem? hy), place_inj]
    exact laid.stampIndex_eq_iff_of_adjacent hx hy

/-- A symbol that shares the position of the word in front of it, and a word of one letter at the
end that shares that of a number. -/
theorem tokenize_position_order_shared :
    "x=1a".length < 2 ^ 32 ∧
    ∃ (placed : List (Nat × Token)) (last : Position),
      tokenize "x=1a" = placed.map Prod.snd ++ [.endAt last] ∧
      LaidOut "x=1a".toList 0 placed ∧
      (tokenize "x=1a").Pairwise (fun s t ↦ s.position.key ≤ t.position.key) ∧
      (∀ i j x y, placed[i]? = some x → placed[j]? = some y → i + 2 ≤ j →
        x.2.position.key < y.2.position.key) ∧
      ∀ i x y, placed[i]? = some x → placed[i + 1]? = some y →
        (x.2.position = y.2.position ↔ SharesStamp "x=1a".length x y) :=
  ⟨by decide, tokenize_position_order "x=1a" (by decide)⟩

example : (tokenize "x=1a").map Token.position =
    [⟨1, 2⟩, ⟨1, 2⟩, ⟨1, 4⟩, ⟨1, 4⟩, ⟨1, 4⟩] := by cbv

end MonkeyTokens
