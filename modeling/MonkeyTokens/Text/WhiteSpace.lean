import MonkeyTokens.Text.Ranges

/-!
# White space

The characters of Unicode's property `White_Space`: every space, tab and line end there is,
many more than the blanks between tokens.
-/

namespace MonkeyTokens.Text.WhiteSpace

/-- First and last code point of every range. -/
def ranges : List (Nat × Nat) :=
  [(0x09, 0x0D), (0x20, 0x20), (0x85, 0x85), (0xA0, 0xA0), (0x1680, 0x1680), (0x2000, 0x200A),
    (0x2028, 0x2029), (0x202F, 0x202F), (0x205F, 0x205F), (0x3000, 0x3000)]

end MonkeyTokens.Text.WhiteSpace

namespace MonkeyTokens.Text

/-- Whether a character is white space. -/
def isWhiteSpace (c : Char) : Bool := inRanges WhiteSpace.ranges c

end MonkeyTokens.Text
