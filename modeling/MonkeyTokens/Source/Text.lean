import MonkeyTokens.Source.Basic

/-!
# Texts as sources

A text gives its characters from left to right, and then none for good.
-/

namespace MonkeyTokens

/-- The part of a text that has not been given yet. -/
structure TextSource where
  rest : List Char
  deriving DecidableEq, Repr

namespace TextSource

/-- All of a text. -/
def ofString (text : String) : TextSource := ⟨text.toList⟩

/-- What has not been given yet, as a text. -/
def toString (s : TextSource) : String := String.ofList s.rest

instance : CharSource TextSource where
  pull s := match s.rest with
    | [] => ⟨none, none, s⟩
    | c :: rest => ⟨some c, none, ⟨rest⟩⟩

/-- A text meets no fault. -/
theorem fault?_pull (s : TextSource) : (CharSource.pull s).fault? = none := by
  obtain ⟨rest⟩ := s
  cases rest <;> rfl

/-- A text supplies its characters. -/
theorem supplies (cs : List Char) : CharSource.Supplies (TextSource.mk cs) cs := by
  induction cs with
  | nil => exact .done rfl
  | cons c cs ih => exact .more rfl ih

instance : FiniteSource TextSource where
  ends s := ⟨s.rest, supplies s.rest⟩

/-- The characters of a text are the ones upcoming in it. -/
theorem upcoming_eq_rest (s : TextSource) : CharSource.upcoming s = s.rest :=
  (supplies s.rest).upcoming_eq

end TextSource
end MonkeyTokens
