/-!
# Classes of characters

Blanks separate tokens. Letters make words and digits make numbers; both are ASCII only.
-/

namespace MonkeyTokens.Text

/-- Space, tab, line feed and carriage return. -/
def isBlank (c : Char) : Bool := c == ' ' || c == '\t' || c == '\n' || c == '\r'

/-- The four characters that are blanks. -/
theorem isBlank_iff {c : Char} : isBlank c = true ↔ c ∈ [' ', '\t', '\n', '\r'] := by
  simp [isBlank, or_assoc]

/-- An ASCII letter or the underscore. -/
def isLetter (c : Char) : Bool := c.isAlpha || c == '_'

/-- The characters that are letters. -/
theorem isLetter_iff {c : Char} : isLetter c = true ↔ c.isAlpha ∨ c = '_' := by
  simp [isLetter]

/-- An ASCII digit. -/
def isDigit (c : Char) : Bool := c.isDigit

end MonkeyTokens.Text
