import MonkeyTokens.Log.Line
import MonkeyTokens.Proofs.Lexer.Ledger
import MonkeyTokens.Proofs.Session.TokenLines

/-!
# What log lines look like

All that an event says is in one line if the token or the fault that it tells of is
(`Event.isOneLine`), and then the event is shown on one line (`Event.IsOneLine.line`): nothing that
was read can start a line of its own in the log. Every line starts with its level, so that none
looks like the last word of a program that failed (`Event.not_isPrefix_line`).
-/

namespace MonkeyTokens

open Text

/-- The fault that an event tells of. -/
def Event.fault? : Event → Option Fault
  | .readFailed f => some f
  | .gaveUp failure => some failure.fault
  | _ => none

/-- A failure is told in one line if its fault is, whatever path is in it. -/
theorem SessionFailure.oneLine_message {failure : SessionFailure}
    (h : OneLine failure.fault.message) : OneLine failure.message := by
  have hparts : OneLine "failed to read input: " ∧ OneLine "failed to write output: " ∧
      OneLine "failed to open " ∧ OneLine ": " ∧ OneLine "failed to read source: " := by
    simp [OneLine]
  unfold message
  cases failure with
  | input f | output f | opening path f =>
    have hf : OneLine f.message := h
    simp [hparts, hf]
  | source failure =>
    obtain ⟨f⟩ := failure
    have hf : OneLine f.message := h
    show OneLine ("failed to read source: " ++ f.message)
    simp [hparts, hf]

namespace Event

/-- What the event says and each of its values are in one line. -/
structure IsOneLine (e : Event) : Prop where
  message : OneLine e.message
  fields : ∀ field ∈ e.fields, OneLine field.2.render

/-- All that an event says is in one line if its token and its fault are. -/
theorem isOneLine {e : Event} (htoken : ∀ t ∈ e.token?, OneLine t.literal)
    (hfault : ∀ f ∈ e.fault?, OneLine f.message) : e.IsOneLine := by
  constructor
  · cases e with
    | gaveUp failure => exact SessionFailure.oneLine_message (hfault _ rfl)
    | _ => simp [OneLine, Event.message]
  · cases e with
    | producedToken t =>
      simp [Event.fields, FieldValue.render, htoken t rfl]
    | readFailed f =>
      simp [Event.fields, FieldValue.render, hfault f rfl]
    | inputClosed | lexedLine | lexedReader | gaveUp =>
      simp [Event.fields, FieldValue.render]

/-- A token in one line is reported in one line. -/
theorem isOneLine_producedToken {t : Token} (h : OneLine t.literal) :
    (producedToken t).IsOneLine := by
  apply isOneLine
  · simpa [token?] using h
  · simp [fault?]

/-- An event that tells neither of a token nor of a fault is in one line. -/
theorem isOneLine_of_none {e : Event} (ht : e.token? = none) (hf : e.fault? = none) :
    e.IsOneLine := by
  apply isOneLine
  · simp [ht]
  · simp [hf]

/-- An event that is in one line is shown on one line. -/
theorem IsOneLine.line {e : Event} (h : e.IsOneLine) : OneLine e.line := by
  have hlabel : OneLine e.level.label := by
    cases e <;> simp [OneLine, level, Level.label]
  have htarget : OneLine e.target := by
    cases e <;> simp [OneLine, target]
  have hnames : ∀ field ∈ e.fields, OneLine field.1 := by
    cases e <;> simp [OneLine, Event.fields]
  have hparts : OneLine " " ∧ OneLine ": " ∧ OneLine "=" := by decide
  rw [Event.line, oneLine_append, oneLine_join]
  constructor
  · simp [hlabel, htarget, h.message, hparts]
  · intro text htext
    obtain ⟨field, hfield, rfl⟩ := List.mem_map.mp htext
    simp [hparts, hnames field hfield, h.fields field hfield]

/-- No line of the log starts as the last word of a failed program does. -/
theorem not_isPrefix_line (e : Event) : ¬ "Error: ".toList <+: e.line.toList := by
  have hlabel (more : List Char) : ¬ "Error: ".toList <+: e.level.label.toList ++ more := by
    cases e <;> simp [level, Level.label]
  simp only [line, String.toList_append, List.append_assoc]
  exact hlabel _

end Event
end MonkeyTokens
