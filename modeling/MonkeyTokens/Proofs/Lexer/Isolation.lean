import MonkeyTokens.Proofs.Lexer.Grammar
import MonkeyTokens.Source.Decoder

/-!
# A token by itself

The characters of a token make the same token wherever they stand by themselves: a text that is
one lexeme has just this token (`tokenize_of_isLexeme`). Every token that a lexer reads is a lexeme
(`Lexer.isLexeme_nextToken`), whatever its source and whatever comes before the token and behind
it, so that its literal, read again as a text of its own, is read as the same token
(`Lexer.tokenize_literal`).
-/

namespace MonkeyTokens

open Text

/-- A text that is one lexeme is read as this token and the mark at the end. -/
theorem tokenize_of_isLexeme {k : Kind} {text : String} (h : IsLexeme k text.toList) :
    ∃ p q, tokenize text = [⟨k, text, p⟩, .endAt q] := by
  have hchars : (View.ofChars text.toList).chars = [] ++ text.toList ++ [] := by
    rw [List.nil_append, List.append_nil]
    rfl
  have htokens := View.tokens_of_isLexeme hchars (by simp) h (by simp)
  have hrest : ((View.ofChars text.toList).skip
      (([] : List Char).length + text.toList.length)).tokens = [] := by
    apply View.tokens_of_blank
    rw [View.chars_skipBlanks, View.chars_skip, hchars]
    simp
  have htokenize := tokenize_eq text
  rw [htokens, hrest, String.ofList_toList] at htokenize
  exact ⟨_, _, htokenize⟩

private theorem View.isLexeme_token {v : View} (h : v.skipBlanks.chars ≠ []) :
    IsLexeme v.skipBlanks.token.kind v.skipBlanks.token.literal.toList := by
  obtain ⟨b, w, rest, k, hv, blank, lexeme, stops⟩ := exists_isLexeme h
  rw [token_of_isLexeme hv blank lexeme stops]
  simpa using lexeme

namespace Lexer

variable {σ : Type} [CharSource σ]

/-- Every token that is read is a lexeme. -/
theorem isLexeme_nextToken {l : Lexer σ} (h : l.nextToken.1.isEnd = false) :
    IsLexeme l.nextToken.1.kind l.nextToken.1.literal.toList := by
  have hchars : l.view.skipBlanks.chars ≠ [] := by
    intro hn
    rw [(isEnd_nextToken_iff l).mpr hn] at h
    cases h
  rw [(view_nextToken l).1]
  exact View.isLexeme_token hchars

/-- Wherever a lexer stands in whatever source, the literal of its next token, read as a text of
its own, has just this token in it, apart from the position, and the mark at the end. -/
theorem tokenize_literal (l : Lexer σ) (h : l.nextToken.1.isEnd = false) :
    ∃ p q, tokenize l.nextToken.1.literal = [{ l.nextToken.1 with position := p }, .endAt q] :=
  tokenize_of_isLexeme (isLexeme_nextToken h)

/-- A number that ends with its dot, in front of bytes that stand for no character. -/
theorem tokenize_literal_open_number :
    let l := ofSource ({ reader := .ofBytes [32, 51, 46, 226, 130] } : Decoder)
    l.nextToken.1.isEnd = false ∧
      ∃ p q, tokenize l.nextToken.1.literal =
        [{ l.nextToken.1 with position := p }, .endAt q] := by
  intro l
  have hsupplies : CharSource.Supplies
      ({ reader := .ofBytes [32, 51, 46, 226, 130] } : Decoder)
      [' ', '3', '.', Decoder.replacement, Decoder.replacement] :=
    .more rfl (.more rfl (.more rfl (.more rfl (.more rfl (.done rfl)))))
  have hview : l.view = View.ofChars _ := view_ofEnding hsupplies
  have h : l.nextToken.1.isEnd = false := by
    rw [(view_nextToken l).1, hview]
    rfl
  exact ⟨h, tokenize_literal l h⟩

end Lexer
end MonkeyTokens
