import MonkeyTokens.Source.Basic

/-!
# Watched sources

A watched source answers as the source behind it does, and keeps its answers in the order in which
it gave them. They tell how often it was asked, and whether it was asked once more after it had
said that it has no more.
-/

namespace MonkeyTokens

open CharSource

/-- A source and the answers that it has given. -/
structure Watched (σ : Type) where
  source : σ
  /-- The answers so far, the first one first. -/
  answers : List (Option Char) := []

namespace Watched

variable {σ : Type} [CharSource σ]

instance : CharSource (Watched σ) where
  pull w :=
    let p := pull w.source
    { char? := p.char?, fault? := p.fault?, source := ⟨p.source, w.answers ++ [p.char?]⟩ }

/-- A watched source supplies what the source behind it does. -/
theorem supplies_iff {w : Watched σ} {cs : List Char} : Supplies w cs ↔ Supplies w.source cs := by
  constructor
  · intro h
    induction h with
    | done hn => exact .done hn
    | more hc _ ih => exact .more hc ih
  · intro h
    generalize hs : w.source = s at h
    induction h generalizing w with
    | done hn =>
      subst hs
      exact .done hn
    | more hc _ ih =>
      subst hs
      exact .more hc (ih rfl)

instance [FiniteSource σ] : FiniteSource (Watched σ) where
  ends w := by
    obtain ⟨cs, h⟩ := FiniteSource.ends w.source
    exact ⟨cs, supplies_iff.mpr h⟩

end Watched
end MonkeyTokens
