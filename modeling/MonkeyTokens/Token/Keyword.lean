/-!
# Reserved words

Eight words are reserved; `fn` and `function` are two spellings of one keyword. Words are
compared letter by letter, case included.
-/

namespace MonkeyTokens

/-- What a reserved word stands for. -/
inductive Keyword where
  | functionWord
  | letWord
  | trueWord
  | falseWord
  | ifWord
  | elseWord
  | returnWord
  deriving DecidableEq, Repr

namespace Keyword

/-- The printed name. -/
def name : Keyword → String
  | .functionWord => "FUNCTION"
  | .letWord => "LET"
  | .trueWord => "TRUE"
  | .falseWord => "FALSE"
  | .ifWord => "IF"
  | .elseWord => "ELSE"
  | .returnWord => "RETURN"

/-- The reserved words in alphabetical order. -/
def reserved : List (String × Keyword) :=
  [("else", .elseWord), ("false", .falseWord), ("fn", .functionWord),
    ("function", .functionWord), ("if", .ifWord), ("let", .letWord), ("return", .returnWord),
    ("true", .trueWord)]

/-- The keyword that a word is reserved for. -/
def ofWord? (word : String) : Option Keyword := reserved.lookup word

private theorem lookup_eq_some_iff_mem {table : List (String × Keyword)}
    (h : table.Pairwise (fun a b ↦ a.1 ≠ b.1)) (word : String) (k : Keyword) :
    table.lookup word = some k ↔ (word, k) ∈ table := by
  induction table with
  | nil => simp
  | cons entry table ih =>
    obtain ⟨w, l⟩ := entry
    obtain ⟨hne, ht⟩ := List.pairwise_cons.mp h
    by_cases he : word = w
    · subst he
      have hn : (word, k) ∉ table := fun hm ↦ hne _ hm rfl
      simp [hn, eq_comm]
    · have hb : (word == w) = false := beq_false_of_ne he
      simp [List.lookup_cons, hb, ih ht, he]

/-- A word is a keyword exactly if the table of reserved words pairs it with that keyword. -/
theorem ofWord?_eq_some_iff {word : String} {k : Keyword} :
    ofWord? word = some k ↔ (word, k) ∈ reserved :=
  lookup_eq_some_iff_mem (by decide) word k

end Keyword
end MonkeyTokens
