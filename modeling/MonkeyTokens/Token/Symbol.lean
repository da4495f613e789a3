/-!
# Operators and delimiters

Sixteen symbols: fourteen of one character, and two made of `=` or `!` followed by `=`.
-/

namespace MonkeyTokens

/-- An operator or a delimiter. -/
inductive Symbol where
  | assignment
  | plus
  | minus
  | bang
  | slash
  | asterisk
  | lessThan
  | greaterThan
  | equals
  | notEquals
  | comma
  | semicolon
  | openParen
  | closeParen
  | openCurly
  | closeCurly
  deriving DecidableEq, Repr

namespace Symbol

/-- How the symbol is written. -/
def text : Symbol → String
  | .assignment => "="
  | .plus => "+"
  | .minus => "-"
  | .bang => "!"
  | .slash => "/"
  | .asterisk => "*"
  | .lessThan => "<"
  | .greaterThan => ">"
  | .equals => "=="
  | .notEquals => "!="
  | .comma => ","
  | .semicolon => ";"
  | .openParen => "("
  | .closeParen => ")"
  | .openCurly => "\x7b"
  | .closeCurly => "\x7d"

/-- The symbol written as this one character. -/
def ofChar? : Char → Option Symbol
  | '=' => some .assignment
  | '+' => some .plus
  | '-' => some .minus
  | '!' => some .bang
  | '/' => some .slash
  | '*' => some .asterisk
  | '<' => some .lessThan
  | '>' => some .greaterThan
  | ',' => some .comma
  | ';' => some .semicolon
  | '(' => some .openParen
  | ')' => some .closeParen
  | '{' => some .openCurly
  | '}' => some .closeCurly
  | _ => none

/-- The symbol that an `=` right behind this one makes of the two. -/
def withEquals? : Symbol → Option Symbol
  | .assignment => some .equals
  | .bang => some .notEquals
  | _ => none

/-- A symbol of one character is written as that character. -/
theorem text_of_ofChar? {c : Char} {s : Symbol} (h : ofChar? c = some s) :
    s.text = String.singleton c := by
  unfold ofChar? at h
  split at h <;> cases h <;> rfl

/-- A symbol that takes an `=` is written as its own text and an `=`. -/
theorem text_of_withEquals? {s t : Symbol} (h : s.withEquals? = some t) :
    t.text = s.text ++ "=" := by
  cases s <;> cases h <;> rfl

end Symbol
end MonkeyTokens
