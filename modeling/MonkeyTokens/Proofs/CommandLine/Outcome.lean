import MonkeyTokens.CommandLine.Launch
import MonkeyTokens.Proofs.Session.LogLines

/-!
# What the program shows of a session

An outcome shows how a session went if its output is that of the session and its exit code tells
whether the session failed (`Outcome.Shows`). It tells how the session ended if standard error has
one line for a failure, at its end, and otherwise none (`Outcome.Tells`). Beside a log that goes to
standard error, the outcome of a plan shows how the plan is carried out (`Outcome.ofPlan_eq`). If
the log is reliable (`Recorder.Reliable`) and everything is told in one line, the outcome also tells
how the plan ended (`Outcome.tells_ofPlan`): no line of the log is taken for a last word
(`IsAside`).
-/

namespace MonkeyTokens

open Text

/-- The failure that a run ended with, if it did. -/
def Run.failure? {α : Type} (run : Run α) : Option SessionFailure :=
  match run.result with
  | .ok _ => none
  | .error failure => some failure

private theorem Run.mem_failure?_iff {α : Type} {run : Run α} {failure : SessionFailure} :
    failure ∈ run.failure? ↔ run.result = .error failure := by
  unfold failure?
  cases run.result with
  | ok | error => simp

private theorem Plan.OneLineEvents.carryOut {α : Type} {plan : Plan α} (h : plan.OneLineEvents) :
    (∀ e ∈ (plan.carryOut {}).progress.log.toList, e.IsOneLine) ∧
      ∀ failure ∈ (plan.carryOut {}).failure?, OneLine failure.fault.message := by
  rw [plan.carryOut_of_bears (Sink.unfailing_default.bears plan.actions)]
  constructor
  · intro e he
    rw [Progress.log_after, List.mem_append] at he
    rcases he with he | he
    · cases he
    · obtain ⟨action, haction, hevent⟩ := List.mem_filterMap.mp he
      cases action with
      | record d =>
        cases hevent
        exact h.event _ haction
      | write | flush => cases hevent
  · intro failure hfailure
    exact h.failure failure (Run.mem_failure?_iff.mp hfailure)

/-- A plan leaves the same behind if its result is not told. -/
theorem Plan.carryOut_forget {α : Type} (plan : Plan α) (sink : Sink) :
    (plan.forget.carryOut sink).progress = (plan.carryOut sink).progress ∧
      (plan.forget.carryOut sink).failure? = (plan.carryOut sink).failure? := by
  unfold carryOut forget
  simp only
  split
  · cases plan.result with
    | ok | error => exact ⟨rfl, rfl⟩
  · exact ⟨rfl, rfl⟩

/-- Everything is told in one line where the result is not told. -/
theorem Plan.OneLineEvents.forget {α : Type} {plan : Plan α} (h : plan.OneLineEvents) :
    plan.forget.OneLineEvents := by
  constructor
  · exact h.event
  · intro failure hfailure
    apply h.failure
    cases hresult : plan.result with
    | ok => simp [Plan.forget, hresult, Except.map] at hfailure
    | error => simpa [Plan.forget, hresult, Except.map] using hfailure

namespace CommandLine

/-- The text is in one line, which does not start as the last word of a failed program does. -/
structure IsAside (line : String) : Prop where
  oneLine : OneLine line
  notLast : ¬ "Error: ".toList <+: line.toList

/-- What is told of a log that cannot be started is no last word. -/
theorem isAside_noLog {reason : String} (h : OneLine reason) : IsAside (noLog reason) := by
  unfold noLog
  constructor
  · rw [oneLine_append]
    exact ⟨by decide, h⟩
  · simp

/-- What is relied on of a log: it goes to its channel, and an event in one line is shown in lines
none of which is taken for the last word of a failed program. -/
structure Recorder.Reliable (recorder : Recorder) (channel : Channel) : Prop where
  routed : ∀ e, ∀ line ∈ recorder e, line.1 = channel
  shown : ∀ e : Event, e.IsOneLine → ∀ line ∈ recorder e, IsAside line.2

/-- A log without lines is reliable. -/
theorem Recorder.reliable_nil {channel : Channel} : Recorder.Reliable (fun _ ↦ []) channel where
  routed := by simp
  shown := by simp

/-- The lines that the log has for some events. -/
def Recorder.lines (recorder : Recorder) (events : List Event) : List String :=
  events.flatMap fun e ↦ (recorder e).map Prod.snd

namespace Streams

variable {recorder : Recorder} (routed : ∀ e, ∀ line ∈ recorder e, line.1 = .errors)

/-- What has been written after some progress if the log goes to standard error, behind what had
been told there. -/
def ofProgress (recorder : Recorder) (told : List String) (p : Progress) : Streams where
  output := p.sink.stored
  log := (told ++ recorder.lines p.log.toList).toArray

private theorem foldl_addLine {lines : List (Channel × String)}
    (h : ∀ line ∈ lines, line.1 = .errors) (s : Streams) :
    lines.foldl addLine s = { s with log := s.log ++ (lines.map Prod.snd).toArray } := by
  induction lines generalizing s with
  | nil => simp
  | cons line lines ih =>
    obtain ⟨channel, text⟩ := line
    obtain ⟨rfl, hlines⟩ := List.forall_mem_cons.mp h
    rw [List.foldl_cons, ih hlines]
    simp [addLine]

include routed

private theorem perform_ofProgress (told : List String) (p : Progress) (action : Action) :
    (ofProgress recorder told p).perform recorder action =
      ofProgress recorder told (p.after [action]) := by
  cases action with
  | record e =>
    rw [perform, foldl_addLine (routed e), Progress.after_record]
    simp [ofProgress, Recorder.lines]
  | write text =>
    rw [Progress.after_write]
    rfl
  | flush =>
    rw [Progress.after_flush]
    rfl

private theorem foldl_perform (told : List String) (p : Progress) (actions : List Action) :
    actions.foldl (perform recorder) (ofProgress recorder told p) =
      ofProgress recorder told (p.after actions) := by
  induction actions generalizing p with
  | nil => rw [Progress.after_nil, List.foldl_nil]
  | cons action actions ih =>
    rw [List.foldl_cons, perform_ofProgress routed, ih, Progress.after_append]
    rfl

end Streams

namespace Outcome

/-- The lines on standard error: those of the log, then the others. -/
def standardError (o : Outcome) : List String :=
  (splitLines (ofLines (o.log ++ o.errors)).toList).map String.ofList

/-- The lines on standard error that tell of a failure. -/
def lastWords (o : Outcome) : List String :=
  o.standardError.filter fun line ↦ "Error: ".toList <+: line.toList

/-- The outcome shows how a session went. -/
structure Shows {α : Type} (o : Outcome) (run : Run α) : Prop where
  output_eq : o.output = run.progress.sink.stored
  exitCode_eq : o.exitCode = if run.failure?.isSome then 1 else 0

/-- The outcome tells of the failure of a session on standard error. -/
structure Tells {α : Type} (o : Outcome) (run : Run α) : Prop where
  lastWords_eq : o.lastWords =
    (run.failure?.map fun failure ↦ "Error: " ++ failure.message ++ "\n").toList
  getLast?_eq : ∀ failure ∈ run.failure?,
    o.standardError.getLast? = some ("Error: " ++ failure.message ++ "\n")

/-- An outcome shows the same of sessions that leave the same behind. -/
theorem Shows.congr {α β : Type} {o : Outcome} {run : Run α} {other : Run β} (h : o.Shows run)
    (hstored : other.progress.sink.stored = run.progress.sink.stored)
    (hfailure : other.failure? = run.failure?) : o.Shows other where
  output_eq := by rw [hstored, h.output_eq]
  exitCode_eq := by rw [hfailure, h.exitCode_eq]

/-- An outcome tells the same of sessions that end with the same failure. -/
theorem Tells.congr {α β : Type} {o : Outcome} {run : Run α} {other : Run β} (h : o.Tells run)
    (hfailure : other.failure? = run.failure?) : o.Tells other where
  lastWords_eq := by rw [hfailure, h.lastWords_eq]
  getLast?_eq := by rw [hfailure]; exact h.getLast?_eq

private theorem standardError_eq {o : Outcome} (h : ∀ line ∈ o.log ++ o.errors, OneLine line) :
    o.standardError = (o.log ++ o.errors).map (· ++ "\n") := by
  rw [standardError, splitLines_ofLines h, List.map_map]
  apply List.map_congr_left
  intro line _
  exact String.ofList_toList

section

variable {recorder : Recorder} {told : List String}

/-- Beside a log on standard error, what is left behind is told by how the plan is carried out. -/
theorem ofPlan_eq (routed : ∀ e, ∀ line ∈ recorder e, line.1 = .errors) (told : List String)
    (plan : Plan Unit) :
    let run := plan.carryOut {}
    (ofPlan recorder told plan).Shows run ∧
      (ofPlan recorder told plan).errors = (run.failure?.map finalWord).toList ∧
      (ofPlan recorder told plan).log =
        told ++ recorder.lines (run.progress.log.toList ++ run.failure?.toList.map .gaveUp) := by
  intro run
  have hrun : run = ⟨Progress.after { sink := {} } plan.actions, plan.result⟩ :=
    plan.carryOut_of_bears (Sink.unfailing_default.bears plan.actions)
  have hstart : { log := told.toArray } = Streams.ofProgress recorder told { sink := {} } := by
    simp [Streams.ofProgress, Recorder.lines]
  rw [hrun, ofPlan, hstart, Streams.foldl_perform routed]
  cases plan.result with
  | ok =>
    refine ⟨⟨rfl, rfl⟩, rfl, ?_⟩
    simp [Streams.ofProgress, Run.failure?]
  | error failure =>
    simp only [Streams.perform_ofProgress routed, Progress.after_record]
    refine ⟨⟨rfl, rfl⟩, rfl, ?_⟩
    simp [Streams.ofProgress, Run.failure?]

private theorem log_ofPlan (reliable : recorder.Reliable .errors)
    (htold : ∀ line ∈ told, IsAside line) {plan : Plan Unit} (h : plan.OneLineEvents) :
    ∀ line ∈ (ofPlan recorder told plan).log, IsAside line := by
  obtain ⟨-, -, hlog⟩ := ofPlan_eq reliable.routed told plan
  obtain ⟨hevents, hfault⟩ := h.carryOut
  rw [hlog, List.forall_mem_append]
  refine ⟨htold, ?_⟩
  intro line hline
  obtain ⟨e, he, hmem⟩ := List.mem_flatMap.mp hline
  obtain ⟨entry, hentry, rfl⟩ := List.mem_map.mp hmem
  apply reliable.shown e _ entry hentry
  rcases List.mem_append.mp he with he | he
  · exact hevents e he
  · obtain ⟨failure, hfailure, rfl⟩ := List.mem_map.mp he
    apply Event.isOneLine
    · simp [Event.token?]
    · simpa [Event.fault?] using hfault failure (Option.mem_toList.mp hfailure)

private theorem errors_ofPlan (reliable : recorder.Reliable .errors) (told : List String)
    {plan : Plan Unit} (h : plan.OneLineEvents) :
    ∀ line ∈ (ofPlan recorder told plan).errors, OneLine line := by
  obtain ⟨-, herrors, -⟩ := ofPlan_eq reliable.routed told plan
  intro line hline
  rw [herrors] at hline
  obtain ⟨failure, hfailure, rfl⟩ := Option.map_eq_some_iff.mp (Option.mem_toList.mp hline)
  rw [finalWord, oneLine_append]
  exact ⟨by decide, SessionFailure.oneLine_message (h.carryOut.2 failure hfailure)⟩

private theorem filter_lines {lines : List String} (h : ∀ line ∈ lines, IsAside line) :
    (lines.map (· ++ "\n")).filter (fun line ↦ "Error: ".toList <+: line.toList) = [] := by
  rw [List.filter_eq_nil_iff]
  intro text htext
  obtain ⟨line, hline, rfl⟩ := List.mem_map.mp htext
  rw [decide_eq_true_eq, String.toList_append]
  intro hfound
  rcases List.prefix_concat_iff.mp hfound with heq | hprefix
  · -- what the last word starts with has no line feed
    have hfeed : '\n' ∈ "Error: ".toList := by
      rw [heq]
      exact List.mem_append_right _ List.mem_cons_self
    exact absurd hfeed (by decide)
  · exact (h line hline).notLast hprefix

/-- Beside a reliable log, the outcome of a plan tells how it ended if all is told in one line. -/
theorem tells_ofPlan (reliable : recorder.Reliable .errors) (htold : ∀ line ∈ told, IsAside line)
    {plan : Plan Unit} (h : plan.OneLineEvents) :
    (ofPlan recorder told plan).Tells (plan.carryOut {}) := by
  have hlog := log_ofPlan reliable htold h
  have herrors := errors_ofPlan reliable told h
  obtain ⟨-, hlast, -⟩ := ofPlan_eq reliable.routed told plan
  generalize ofPlan recorder told plan = o at hlog herrors hlast ⊢
  generalize plan.carryOut {} = run at hlast ⊢
  have hlines : ∀ line ∈ o.log ++ o.errors, OneLine line :=
    List.forall_mem_append.mpr ⟨fun line hline ↦ (hlog line hline).oneLine, herrors⟩
  have hstandard : o.standardError = o.log.map (· ++ "\n") ++
      (run.failure?.map fun failure ↦ "Error: " ++ failure.message ++ "\n").toList := by
    rw [standardError_eq hlines, List.map_append, hlast]
    cases run.failure? with
    | none | some => rfl
  constructor
  · rw [lastWords, hstandard, List.filter_append, filter_lines hlog, List.nil_append]
    cases run.failure? with
    | none => rfl
    | some failure =>
      have hprefix : "Error: ".toList <+: ("Error: " ++ failure.message ++ "\n").toList := by
        rw [String.append_assoc, String.toList_append]
        exact List.prefix_append _ _
      exact List.filter_cons_of_pos (decide_eq_true hprefix)
  · intro failure hfailure
    rw [hstandard, hfailure]
    exact List.getLast?_concat

end

end Outcome

end CommandLine
end MonkeyTokens
