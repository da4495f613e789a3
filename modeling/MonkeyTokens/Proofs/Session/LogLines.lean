import MonkeyTokens.Proofs.Log.Line
import MonkeyTokens.Proofs.Session.AllAtOnce
import MonkeyTokens.Proofs.Session.LineByLine

/-!
# What a session tells in one line

Whatever the characters of its input are, a session tells nothing that goes over more than one line:
the tokens are in one line, and so is every event and the failure at the end if the faults of the
reads are (`oneLineEvents_allAtOnce`, `oneLineEvents_lineByLine`).
-/

namespace MonkeyTokens

open Text

/-- Every fault that the reads meet is in one line. -/
def Reader.OneLineFaults (r : Reader) : Prop := ∀ f, .fault f ∈ r.reads → OneLine f.message

/-- What a plan records, and the fault that it ends with, is each in one line. -/
structure Plan.OneLineEvents {α : Type} (plan : Plan α) : Prop where
  event : ∀ e, .record e ∈ plan.actions → e.IsOneLine
  failure : ∀ failure, plan.result = .error failure → OneLine failure.fault.message

private theorem Lexer.oneLine_of_mem_drain {σ : Type} [CharSource σ] (l : Lexer σ) :
    ∀ t ∈ l.drain.1 ++ [l.drain.2.1], OneLine t.literal := by
  rw [l.drain_eq.1, l.drain_eq.2]
  intro t ht
  rcases List.mem_append.mp ht with ht | ht
  · exact View.feed_notMem_literal _ t ht
  · rw [List.mem_singleton.mp ht]
    simp [OneLine, Token.endAt]

private theorem Ledger.Reads.forall_mem_journal {P : Event → Prop} {g h : Ledger Decoder}
    {ts : List Token} (r : Reads g ts h) (before : ∀ e ∈ g.journal.toList, P e)
    (token : ∀ t ∈ ts, P (.producedToken t))
    (fault : ∀ f, g.source.outcome? = some (.reading f) → P (.readFailed f)) :
    ∀ e ∈ h.journal.toList, P e := by
  induction r with
  | refl => exact before
  | @ask h ts r ih =>
    have hold := ih token
    intro e he
    unfold Ledger.ask at he
    by_cases hx : h.exhausted = true
    · rw [if_pos hx] at he
      exact hold e he
    · rw [if_neg hx] at he
      simp only [Array.appendList_eq_append, Array.toList_appendList] at he
      rcases List.mem_append.mp he with he | he
      · exact hold e he
      · obtain ⟨f, hf, rfl⟩ := List.mem_map.mp he
        apply fault
        rw [← r.outcome?_eq.1]
        exact Decoder.outcome?_of_fault_next (Option.mem_toList.mp hf)
  | @report h ts r t ih =>
    rw [List.forall_mem_append] at token
    rw [Ledger.report, Array.toList_push, List.forall_mem_append]
    constructor
    · exact ih token.1
    · simpa using token.2

namespace Session

open MonkeyTokens.Action

private theorem mem_of_record_mem_follow {events : List Event} {e : Event}
    (h : .record e ∈ events.flatMap follow) : e ∈ events := by
  obtain ⟨d, hd, he⟩ := List.mem_flatMap.mp h
  cases d with
  | producedToken t => by_cases ht : t.isEnd = true <;> simp_all [follow]
  | _ => simp_all [follow]

private theorem isOneLine_of_mem_allAtOnce {r : Reader} (h : r.OneLineFaults) {e : Event}
    (he : .record e ∈ (allAtOnce r).actions) : e.IsOneLine := by
  have hreads := (Lexer.reads_ofSource ({ reader := r } : Decoder)).trans
    (Lexer.ofSource ({ reader := r } : Decoder)).reads_drain
  have hjournal : ∀ d ∈ (Lexer.ofSource ({ reader := r } : Decoder)).drain.2.2.journal.toList,
      d.IsOneLine := by
    apply hreads.forall_mem_journal (P := Event.IsOneLine)
    · intro d hd
      cases hd
    · intro t ht
      exact Event.isOneLine_producedToken (Lexer.oneLine_of_mem_drain _ t ht)
    · intro f hf
      have hdelivery : r.delivery.fault?.map SourceFailure.reading = some (.reading f) := by
        rw [← Decoder.outcome?_ofReader]
        exact hf
      obtain ⟨g, hg, hreading⟩ := Option.map_eq_some_iff.mp hdelivery
      cases hreading
      apply Event.isOneLine
      · simp [Event.token?]
      · simpa [Event.fault?] using h _ (Reader.fault_mem_reads hg)
  unfold allAtOnce at he
  simp only at he
  split at he
  · rcases List.mem_append.mp he with he | he
    · exact hjournal e (mem_of_record_mem_follow he)
    · rw [List.mem_singleton] at he
      cases he
      exact Event.isOneLine_of_none rfl rfl
  · exact hjournal e (mem_of_record_mem_follow he)

private theorem isOneLine_of_mem_answer {number : Nat} {line : String} {e : Event}
    (he : .record e ∈ answer number line) : e.IsOneLine := by
  unfold answer at he
  simp only at he
  rcases List.mem_append.mp he with he | he
  · have hmem := mem_of_record_mem_follow he
    rw [journal_drain_ofText] at hmem
    obtain ⟨t, ht, rfl⟩ := List.mem_map.mp hmem
    exact Event.isOneLine_producedToken (Lexer.oneLine_of_mem_drain _ t ht)
  · rw [List.mem_singleton] at he
    cases he
    exact Event.isOneLine_of_none rfl rfl

private theorem isOneLine_of_mem_lineByLine {prompt : String} {r : Reader} {e : Event}
    (he : .record e ∈ (lineByLine prompt r).actions) : e.IsOneLine := by
  rw [lineByLine_actions, List.append_assoc] at he
  rcases List.mem_append.mp he with he | he
  · obtain ⟨turn, -, he⟩ := List.mem_flatMap.mp he
    have hanswer : .record e ∈ answer turn.2 turn.1 := by
      simpa [ask] using he
    exact isOneLine_of_mem_answer hanswer
  · cases hf : r.lines.fault? with
    | some f => simp [hf, ask] at he
    | none =>
      have hclosed : e = .inputClosed r.lines.lines.length := by
        simpa [hf, ask, close] using he
      rw [hclosed]
      exact Event.isOneLine_of_none rfl rfl

private theorem oneLine_of_lines_fault {r : Reader} (h : r.OneLineFaults) :
    ∀ f ∈ r.lines.fault?, OneLine f.message := by
  intro f hf
  rcases (Reader.hasLines_iff.mpr rfl).fault_cases f hf with rfl | hanswer
  · simp [OneLine, Fault.message, Fault.invalidText]
  · exact h f (Reader.fault_mem_reads_of_answers hanswer)

/-- On a whole input everything is told in one line if the faults of the reads are. -/
theorem oneLineEvents_allAtOnce {r : Reader} (h : r.OneLineFaults) :
    (allAtOnce r).OneLineEvents := by
  constructor
  · intro e he
    exact isOneLine_of_mem_allAtOnce h he
  · intro failure hfailure
    obtain ⟨cs, hcs⟩ := Decodes.exists r.delivery.bytes
    rw [(allAtOnce_eq r hcs).2] at hfailure
    cases hf : r.delivery.fault? with
    | none => simp [hf] at hfailure
    | some f =>
      rw [hf] at hfailure
      cases hfailure
      exact h f (Reader.fault_mem_reads hf)

/-- Line by line everything is told in one line if the faults of the reads are. -/
theorem oneLineEvents_lineByLine (prompt : String) {r : Reader} (h : r.OneLineFaults) :
    (lineByLine prompt r).OneLineEvents := by
  constructor
  · intro e he
    exact isOneLine_of_mem_lineByLine he
  · intro failure hfailure
    rw [(lineByLine_eq prompt r).2] at hfailure
    cases hf : r.lines.fault? with
    | none => simp [hf] at hfailure
    | some f =>
      rw [hf] at hfailure
      cases hfailure
      exact oneLine_of_lines_fault h f hf

end Session
end MonkeyTokens
