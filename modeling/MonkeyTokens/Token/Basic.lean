import MonkeyTokens.Position
import MonkeyTokens.Token.Kind

/-!
# Tokens

A token is a kind, the text it was read from, and a position.
-/

namespace MonkeyTokens

/-- A piece of a text with its kind and its place. -/
structure Token where
  kind : Kind
  literal : String
  position : Position
  deriving DecidableEq, Repr

namespace Token

/-- The token that marks the end of a text. -/
def endAt (p : Position) : Token := ⟨.endOfText, "", p⟩

/-- Whether the token marks the end of a text. -/
def isEnd (t : Token) : Bool := t.kind == .endOfText

/-- The printed form: type, literal, line and column in braces. -/
def render (t : Token) : String :=
  "\x7bType:" ++ t.kind.name ++ " Literal:" ++ t.literal ++ " Line:" ++ toString t.position.line ++
    " Column:" ++ toString t.position.column ++ "\x7d"

/-- The printed form on a line of its own. -/
def renderLine (t : Token) : String := t.render ++ "\n"

end Token
end MonkeyTokens
