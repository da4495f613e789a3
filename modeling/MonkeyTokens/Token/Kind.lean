import MonkeyTokens.Token.Keyword
import MonkeyTokens.Token.Symbol

/-!
# Kinds of token

A kind is an operator or delimiter, a keyword, or one of the classes whose text varies.
-/

namespace MonkeyTokens

/-- The class of a token. -/
inductive Kind where
  | illegal
  | endOfText
  | identifier
  | integer
  | float
  | symbol (s : Symbol)
  | keyword (k : Keyword)
  deriving DecidableEq, Repr

namespace Kind

/-- The printed name; a symbol is printed as its own text. -/
def name : Kind → String
  | .illegal => "ILLEGAL"
  | .endOfText => "EOF"
  | .identifier => "IDENT"
  | .integer => "INT"
  | .float => "FLOAT"
  | .symbol s => s.text
  | .keyword k => k.name

/-- Whether the kind belongs to a reserved word. -/
def isKeyword : Kind → Bool
  | .keyword _ => true
  | _ => false

/-- The kind of a word: that of its keyword if it is reserved, else an identifier. -/
def ofWord (word : String) : Kind := ((Keyword.ofWord? word).map keyword).getD identifier

/-- The kind of a character that starts neither a word nor a number. -/
def ofChar (c : Char) : Kind := ((Symbol.ofChar? c).map symbol).getD illegal

/-- A word is never the mark at the end of a text. -/
theorem ofWord_ne_endOfText (word : String) : ofWord word ≠ endOfText := by
  unfold ofWord
  cases Keyword.ofWord? word <;> simp

/-- A character is never the mark at the end of a text. -/
theorem ofChar_ne_endOfText (c : Char) : ofChar c ≠ endOfText := by
  unfold ofChar
  cases Symbol.ofChar? c <;> simp

end Kind
end MonkeyTokens
