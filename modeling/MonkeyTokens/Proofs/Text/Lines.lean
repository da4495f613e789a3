/-!
# Lines with their ends

`splitLines` cuts a text behind every line feed. A proof about the lines of a text goes through
them one by one with `splitLines_induction`.
-/

namespace MonkeyTokens.Text

/-- The lines of a text, each with the line feed that ends it; what follows the last line feed is
a line too if it is not empty. -/
def splitLines : List Char → List (List Char)
  | [] => []
  | c :: cs =>
    if c = '\n' then [c] :: splitLines cs
    else match splitLines cs with
      | [] => [[c]]
      | line :: lines => (c :: line) :: lines

/-- The first line feed ends the first line. -/
theorem splitLines_append_feed {w : List Char} (h : '\n' ∉ w) (rest : List Char) :
    splitLines (w ++ '\n' :: rest) = (w ++ ['\n']) :: splitLines rest := by
  induction w with
  | nil => rfl
  | cons c w ih =>
    rw [List.mem_cons, not_or] at h
    rw [List.cons_append, splitLines, if_neg (Ne.symm h.1), ih h.2]
    rfl

/-- A text without a line feed is one line. -/
theorem splitLines_of_notMem {w : List Char} (ne : w ≠ []) (h : '\n' ∉ w) :
    splitLines w = [w] := by
  induction w with
  | nil => exact absurd rfl ne
  | cons c w ih =>
    rw [List.mem_cons, not_or] at h
    rw [splitLines, if_neg (Ne.symm h.1)]
    by_cases hw : w = []
    · subst hw
      rfl
    · rw [ih hw h.2]

/-- What holds of the empty text and of a last line without a line feed, and is kept by a line in
front, holds of every text. -/
@[elab_as_elim]
theorem splitLines_induction {P : List Char → Prop} (nil : P [])
    (last : ∀ w, w ≠ [] → '\n' ∉ w → P w)
    (line : ∀ w rest, '\n' ∉ w → P rest → P (w ++ '\n' :: rest)) (cs : List Char) : P cs := by
  induction hn : cs.length using Nat.strongRecOn generalizing cs with
  | ind n ih =>
    by_cases hf : '\n' ∈ cs
    · obtain ⟨w, rest, hcs, hw⟩ := List.eq_append_cons_of_mem hf
      have hlen : rest.length < n := by
        rw [← hn, hcs, List.length_append, List.length_cons]
        omega
      rw [hcs]
      exact line w rest hw (ih rest.length hlen rest rfl)
    · by_cases hcs : cs = []
      · rw [hcs]
        exact nil
      · exact last cs hcs hf

end MonkeyTokens.Text
