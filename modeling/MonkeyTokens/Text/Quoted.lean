import MonkeyTokens.Text.DefaultIgnorable
import MonkeyTokens.Text.GraphemeExtend
import MonkeyTokens.Text.Unprintable

/-!
# Quoted text

A quoted text stands between double quotes. In it a double quote and a backslash follow a
backslash, four control characters have a letter of their own, and a character that could not
be seen by itself is written as its code point.
-/

namespace MonkeyTokens.Text.Quoted

/-- A code point in braces, in lower-case hexadecimal digits and no more of them than needed. -/
def codePoint (c : Char) : List Char :=
  '\\' :: 'u' :: '{' :: Nat.toDigits 16 c.toNat ++ ['}']

/-- Whether a character could not be seen by itself. -/
def isHidden (c : Char) : Bool := isUnprintable c || isDefaultIgnorable c || isCombining c

/-- One character of a text as it stands between the quotes. -/
def escape (c : Char) : List Char :=
  match c with
  | '\x00' => ['\\', '0']
  | '\t' => ['\\', 't']
  | '\n' => ['\\', 'n']
  | '\r' => ['\\', 'r']
  | '"' => ['\\', '"']
  | '\\' => ['\\', '\\']
  | c => if isHidden c then codePoint c else [c]

/-- A text between double quotes. -/
def quote (text : String) : String :=
  String.ofList ('"' :: text.toList.flatMap escape ++ ['"'])

end MonkeyTokens.Text.Quoted
