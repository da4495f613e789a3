import MonkeyTokens.Source.Basic

/-!
# Sources given by their answers

Such a source is the list of its answers, one for each time it is asked; it has no more
characters once they are used up. An answer in the middle may say that there is no more while
later ones still give characters.
-/

namespace MonkeyTokens

/-- The answers that a source has not given yet. -/
structure AnswerSource where
  answers : List (Option Char)
  deriving DecidableEq, Repr

namespace AnswerSource

instance : CharSource AnswerSource where
  pull s := match s.answers with
    | [] => ⟨none, none, s⟩
    | answer :: rest => ⟨answer, none, ⟨rest⟩⟩

instance : FiniteSource AnswerSource :=
  .of_measure (fun s ↦ s.answers.length) fun s c h ↦ by
    obtain ⟨answers⟩ := s
    cases answers with
    | nil => simp [CharSource.pull] at h
    | cons answer rest => simp [CharSource.pull]

end AnswerSource
end MonkeyTokens
