import MonkeyTokens.Proofs.Lexer.Ledger
import MonkeyTokens.Proofs.Session.Actions
import MonkeyTokens.Session

/-!
# What a session writes

On a sink that does not fail a plan ends as planned, and the sink ends up with just what the
actions write (`carryOut_of_unfailing`). A session writes a line for every token that its lexer
reports, but for the mark at the end (`written_follow_drain`), and flushes only where it asks for
a line (`flush_notMem_follow`).
-/

namespace MonkeyTokens

/-- Nothing that is written to the sink and no flush of it fails. -/
structure Sink.Unfailing (s : Sink) : Prop where
  unlimited : s.limit? = none
  flushes : s.failingFlush? = none

/-- The usual sink does not fail. -/
theorem Sink.unfailing_default : ({} : Sink).Unfailing := ⟨rfl, rfl⟩

/-- A sink that does not fail bears everything. -/
theorem Sink.Unfailing.bears {s : Sink} (h : s.Unfailing) (actions : List Action) :
    s.Bears actions := by
  constructor
  · simp [h.unlimited]
  · simp [h.flushes]

/-- On a sink that does not fail a plan ends as planned, and the sink stores what it writes. -/
theorem Plan.carryOut_of_unfailing {α : Type} (plan : Plan α) {sink : Sink} (h : sink.Unfailing) :
    (plan.carryOut sink).result = plan.result ∧
      (plan.carryOut sink).progress.sink.stored =
        sink.stored ++ (Action.written plan.actions).toUTF8 := by
  rw [plan.carryOut_of_bears (h.bears plan.actions)]
  exact ⟨rfl, rfl⟩

/-- On a sink that does not fail all flushes go well. -/
theorem Plan.flushed_of_unfailing {α : Type} (plan : Plan α) {sink : Sink} (h : sink.Unfailing) :
    (plan.carryOut sink).progress.sink.flushed =
      sink.flushed ++ (Action.flushMarks sink.stored.size plan.actions).toArray := by
  rw [plan.carryOut_of_bears (h.bears plan.actions)]
  rfl

namespace Lexer

variable {σ : Type} [CharSource σ]

/-- No token that is drained marks the end, but the last one does. -/
theorem isEnd_drain (l : Lexer σ) :
    (∀ t ∈ l.drain.1, t.isEnd = false) ∧ l.drain.2.1.isEnd = true := by
  rw [l.drain_eq.1, l.drain_eq.2]
  exact ⟨View.isEnd_of_mem_tokens _, rfl⟩

end Lexer

namespace Session

open MonkeyTokens.Action

/-- The lines of tokens, put together. -/
def renderLines (ts : List Token) : String := String.join (ts.map Token.renderLine)

/-- The lines of several groups of tokens are put together from those of each. -/
theorem renderLines_flatMap {α : Type} (f : α → List Token) (xs : List α) :
    renderLines (xs.flatMap f) = String.join (xs.map fun x ↦ renderLines (f x)) := by
  induction xs with
  | nil => rfl
  | cons x xs ih =>
    rw [List.flatMap_cons, renderLines, List.map_append, String.join_append, List.map_cons,
      String.join_cons, ← ih, renderLines, renderLines]

private theorem written_follow (events : List Event) :
    written (events.flatMap follow) =
      renderLines ((events.filterMap Event.token?).filter fun t ↦ !t.isEnd) := by
  induction events with
  | nil => rfl
  | cons e events ih =>
    rw [List.flatMap_cons, written_append, ih]
    cases e with
    | producedToken t =>
      have ht : (Event.producedToken t).token? = some t := rfl
      rw [List.filterMap_cons_some ht]
      by_cases h : t.isEnd = true
      · simp [follow, h, written, text]
      · simp [follow, h, written, text, renderLines]
    | _ =>
      rw [List.filterMap_cons_none rfl]
      simp [follow, written, text]

/-- Following events flushes nothing. -/
theorem flush_notMem_follow (events : List Event) : .flush ∉ events.flatMap follow := by
  intro h
  obtain ⟨e, -, he⟩ := List.mem_flatMap.mp h
  cases e with
  | producedToken t => by_cases ht : t.isEnd = true <;> simp [follow, ht] at he
  | _ => simp [follow] at he

/-- Following a lexer that was drained writes its tokens and not the mark at the end. -/
theorem written_follow_drain {σ : Type} [CharSource σ] {l : Lexer σ} {s : σ}
    (h : Ledger.Reads (.ofSource s) [] l.ledger) :
    written (l.drain.2.2.journal.toList.flatMap follow) = renderLines l.drain.1 := by
  have hread := (h.trans l.reads_drain).reported_eq
  have hj : l.drain.2.2.journal.toList.filterMap Event.token? = l.drain.1 ++ [l.drain.2.1] := hread
  have hend := l.isEnd_drain
  have hkeep : l.drain.1.filter (fun t ↦ !t.isEnd) = l.drain.1 := by
    rw [List.filter_eq_self]
    intro t ht
    rw [hend.1 t ht]
    rfl
  rw [written_follow, hj, List.filter_append, hkeep]
  simp [hend.2]

end Session
end MonkeyTokens
