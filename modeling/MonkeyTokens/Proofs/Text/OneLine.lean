import MonkeyTokens.Proofs.Text.Lines
import MonkeyTokens.Text.Lines
import MonkeyTokens.Text.Quoted

/-!
# Texts in one line

A text is in one line if it has no line feed in it (`OneLine`). Numbers are, and so is every quoted
text, whatever was quoted. Lines that are put together are cut apart again as they were
(`splitLines_ofLines`).
-/

namespace MonkeyTokens.Text

/-- There is no line feed in the text. -/
def OneLine (text : String) : Prop := '\n' ∉ text.toList

instance (text : String) : Decidable (OneLine text) := inferInstanceAs (Decidable (¬ _))

/-- Texts are in one line together if each of them is. -/
@[simp] theorem oneLine_append {first rest : String} :
    OneLine (first ++ rest) ↔ OneLine first ∧ OneLine rest := by
  simp [OneLine]

/-- Any number of texts are in one line together if each of them is. -/
theorem oneLine_join {texts : List String} :
    OneLine (String.join texts) ↔ ∀ text ∈ texts, OneLine text := by
  simp [OneLine]

private theorem feed_notMem_toDigits {b : Nat} (hb : 1 < b) (n : Nat) :
    '\n' ∉ Nat.toDigits b n := by
  induction n using Nat.strongRecOn with
  | ind n ih =>
    rw [Nat.toDigits_eq_if hb]
    by_cases h : n < b
    · simp [h]
    · have hrest := ih (n / b) (Nat.div_lt_self (by omega) hb)
      simp [h, hrest]

/-- A number is in one line. -/
@[simp] theorem oneLine_repr (n : Nat) : OneLine n.repr := by
  rw [OneLine, Nat.toList_repr]
  exact feed_notMem_toDigits (by decide) n

private theorem feed_notMem_escape (c : Char) : '\n' ∉ Quoted.escape c := by
  have hcode : '\n' ∉ Nat.toDigits 16 c.toNat := feed_notMem_toDigits (by decide) _
  unfold Quoted.escape
  split
  · decide
  · decide
  · decide
  · decide
  · decide
  · decide
  · next hfeed _ _ _ =>
    split
    · simpa [Quoted.codePoint] using hcode
    · simpa using Ne.symm hfeed

/-- A quoted text is in one line. -/
@[simp] theorem oneLine_quote (text : String) : OneLine (Quoted.quote text) := by
  simp [OneLine, Quoted.quote, feed_notMem_escape]

/-- Lines put together are cut into just these lines. -/
theorem splitLines_ofLines {lines : List String} (h : ∀ line ∈ lines, OneLine line) :
    splitLines (ofLines lines).toList = lines.map fun line ↦ (line ++ "\n").toList := by
  induction lines with
  | nil => rfl
  | cons line lines ih =>
    obtain ⟨hline, hlines⟩ := List.forall_mem_cons.mp h
    have htext : (ofLines (line :: lines)).toList =
        line.toList ++ '\n' :: (ofLines lines).toList := by
      simp [ofLines]
    rw [htext, splitLines_append_feed hline, ih hlines, List.map_cons, String.toList_append]
    rfl

end MonkeyTokens.Text
