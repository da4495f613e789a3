/-!
# Positions in a text

A position is a line and a column. Lines count from one; the column before the first
character is zero. Both stop growing at `Position.limit`.
-/

namespace MonkeyTokens

/-- A line and a column of a text. -/
structure Position where
  line : Nat
  column : Nat
  deriving DecidableEq, Repr

namespace Position

/-- The greatest line and the greatest column that are told apart. -/
def limit : Nat := 4294967295

/-- Before the first character of a text. -/
def start : Position := ⟨1, 0⟩

/-- One column to the right. -/
def nextColumn (p : Position) : Position := { p with column := min (p.column + 1) limit }

/-- The first column of the line below. -/
def nextLine (p : Position) : Position := ⟨min (p.line + 1) limit, 1⟩

/-- The position of the character that follows `held?`: only a line feed ends a line. -/
def next (p : Position) (held? : Option Char) : Position :=
  if held? = some '\n' then p.nextLine else p.nextColumn

/-- Line and column, with a colon between them. -/
def render (p : Position) : String := s!"{p.line}:{p.column}"

/-- Any other character is followed by the next column of its line. -/
theorem next_of_ne {p : Position} {held? : Option Char} (h : held? ≠ some '\n') :
    p.next held? = p.nextColumn := by
  simp [next, h]

end Position
end MonkeyTokens
