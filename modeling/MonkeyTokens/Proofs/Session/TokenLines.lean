import MonkeyTokens.Proofs.Lexer.Grammar
import MonkeyTokens.Proofs.Session.Output
import MonkeyTokens.Proofs.Text.OneLine

/-!
# The lines that tokens are written on

No token that is read from a text has a line feed in it (`View.feed_notMem_literal`), so that its
printed form has one at its end only. What is written for some tokens is then cut into just their
lines (`splitLines_renderLines`), and has as many lines as there are tokens.
-/

namespace MonkeyTokens

open Text

/-- No token has a line feed in it. -/
theorem View.feed_notMem_literal (v : View) : ∀ t ∈ v.tokens, '\n' ∉ t.literal.toList := by
  intro t ht hfeed
  have hlexeme := v.spells_tokens.isLexeme t.bare (List.mem_map_of_mem ht)
  have hblank := hlexeme.isBlank_eq_false '\n' hfeed
  cases hblank

/-- The name of a kind is in one line. -/
@[simp] theorem Kind.oneLine_name (k : Kind) : OneLine k.name := by
  cases k with
  | symbol s => cases s <;> decide
  | keyword k => cases k <;> decide
  | _ => decide

/-- A token with no line feed in it is printed without one. -/
theorem Token.feed_notMem_render {t : Token} (h : '\n' ∉ t.literal.toList) :
    '\n' ∉ t.render.toList := by
  have hliteral : OneLine t.literal := h
  change OneLine t.render
  unfold render
  simp +decide only [oneLine_append, hliteral, Kind.oneLine_name, Nat.toString_eq_repr,
    oneLine_repr]

namespace Session

/-- What is written for tokens without line feeds is cut into their lines. -/
theorem splitLines_renderLines {ts : List Token} (h : ∀ t ∈ ts, '\n' ∉ t.literal.toList) :
    splitLines (renderLines ts).toList = ts.map fun t ↦ t.renderLine.toList := by
  have hlines : renderLines ts = ofLines (ts.map Token.render) := by
    rw [renderLines, ofLines, List.map_map]
    rfl
  rw [hlines, splitLines_ofLines, List.map_map]
  · rfl
  · intro line hline
    obtain ⟨t, ht, rfl⟩ := List.mem_map.mp hline
    exact Token.feed_notMem_render (h t ht)

end Session
end MonkeyTokens
