import MonkeyTokens.Proofs.Session.TokenLines
import MonkeyTokens.Proofs.Source.Decoding
import MonkeyTokens.Proofs.Source.Outcome

/-!
# A whole input as one text

`allAtOnce` writes the tokens of the characters that the delivery of its reader stands for. It ends
well if the delivery does, and otherwise with the fault of the delivery (`allAtOnce_eq`).
-/

namespace MonkeyTokens

/-- Reading tokens does not change how the input of a decoder ends, and where a decoder has given
no character its input has ended. -/
theorem Ledger.Reads.outcome?_eq {g h : Ledger Decoder} {ts : List Token} (r : Reads g ts h) :
    h.source.outcome? = g.source.outcome? ∧
      ((g.exhausted = true → g.source.ended = true) →
        h.exhausted = true → h.source.ended = true) := by
  induction r with
  | refl => exact ⟨rfl, id⟩
  | @ask h ts _ ih =>
    unfold Ledger.ask
    by_cases hx : h.exhausted = true
    · rw [if_pos hx]
      exact ih
    · rw [if_neg hx]
      refine ⟨(Decoder.outcome?_next h.source).trans ih.1, ?_⟩
      intro _ hnone
      exact Decoder.ended_of_next (Option.isNone_iff_eq_none.mp hnone)
  | report _ _ ih => exact ih

/-- A lexer on a reader has the tokens of the characters that the delivery stands for, and behind
them the source has failed if the delivery ends with a fault. -/
theorem Lexer.drain_ofReader (r : Reader) {cs : List Char} (h : Decodes r.delivery.bytes cs) :
    (ofSource ({ reader := r } : Decoder)).drain.1 = (View.ofChars cs).tokens ∧
      (ofSource ({ reader := r } : Decoder)).drain.2.2.source.failure? =
        r.delivery.fault?.map .reading := by
  have hs : CharSource.Supplies ({ reader := r } : Decoder) cs := Decoder.supplies_of_decodes rfl h
  have hv : (ofSource ({ reader := r } : Decoder)).view = .ofChars cs := view_ofEnding hs
  have hstart := reads_ofSource ({ reader := r } : Decoder)
  generalize ofSource ({ reader := r } : Decoder) = l at hv hstart ⊢
  have houtcome := (hstart.trans l.reads_drain).outcome?_eq
  constructor
  · rw [l.drain_eq.1, hv]
  · have he : l.drain.2.2.source.ended = true := by
      apply houtcome.2 _ l.exhausted_drain
      simp [Ledger.ofSource]
    rw [Decoder.failure?_of_ended he, ← Decoder.outcome?_ofReader]
    exact houtcome.1

namespace Session

open MonkeyTokens.Action Text

/-- The whole input is written as the tokens of one text; its end decides how the session ends. -/
theorem allAtOnce_eq (r : Reader) {cs : List Char} (h : Decodes r.delivery.bytes cs) :
    written (allAtOnce r).actions = renderLines (View.ofChars cs).tokens ∧
      (allAtOnce r).result = match r.delivery.fault? with
        | none => .ok (View.ofChars cs).tokens.length
        | some f => .error (.source (.reading f)) := by
  have hdrain := Lexer.drain_ofReader r h
  have hwritten := written_follow_drain (Lexer.reads_ofSource ({ reader := r } : Decoder))
  rw [← hdrain.1, ← hwritten]
  unfold allAtOnce
  simp only
  generalize (Lexer.ofSource ({ reader := r } : Decoder)).drain = d at hdrain ⊢
  rw [hdrain.2]
  cases r.delivery.fault? with
  | none =>
    refine ⟨?_, rfl⟩
    simp only [Option.map_none]
    rw [written_append]
    exact String.append_empty
  | some f => exact ⟨rfl, rfl⟩

private theorem flush_notMem_allAtOnce (r : Reader) : .flush ∉ (allAtOnce r).actions := by
  have hfollow := flush_notMem_follow
    (Lexer.ofSource ({ reader := r } : Decoder)).drain.2.2.journal.toList
  unfold allAtOnce
  simp only
  split
  · simpa using hfollow
  · exact hfollow

/-- So the sink has no flush to remember. -/
theorem flushed_allAtOnce (r : Reader) :
    ((allAtOnce r).carryOut {}).progress.sink.flushed = #[] := by
  rw [(allAtOnce r).flushed_of_unfailing Sink.unfailing_default,
    flushMarks_of_notMem (flush_notMem_allAtOnce r)]
  rfl

end Session
end MonkeyTokens
