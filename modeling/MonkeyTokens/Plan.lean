import MonkeyTokens.Event
import MonkeyTokens.Sink

/-!
# Plans

A plan says what a session is going to do, action by action, and how it ends if every action
goes well. Carrying it out stops at the first action that fails, and the session then fails on
its output.
-/

namespace MonkeyTokens

/-- One thing that a session does. -/
inductive Action where
  | record (e : Event)
  | write (text : String)
  | flush
  deriving DecidableEq, Repr

/-- What a session is going to do, and its result if all goes well. -/
structure Plan (α : Type) where
  actions : List Action
  result : Except SessionFailure α

/-- What a session has done so far. -/
structure Progress where
  sink : Sink
  log : Array Event := #[]

/-- What a session has done, and its result. -/
structure Run (α : Type) where
  progress : Progress
  result : Except SessionFailure α

namespace Action

/-- Do one thing; the fault if it fails. -/
def perform : Action → Progress → Option Fault × Progress
  | .record e, p => (none, { p with log := p.log.push e })
  | .write text, p => (p.sink.write text.toUTF8).map id fun sink ↦ { p with sink }
  | .flush, p => p.sink.flush.map id fun sink ↦ { p with sink }

/-- Do one thing after the other until one fails. -/
def performAll : List Action → Progress → Option Fault × Progress
  | [], p => (none, p)
  | action :: actions, p =>
    match action.perform p with
    | (none, p) => performAll actions p
    | (some f, p) => (some f, p)

end Action

namespace Plan

variable {α : Type}

/-- The same plan with a result that says nothing. -/
def forget (plan : Plan α) : Plan Unit := { plan with result := plan.result.map fun _ ↦ () }

/-- Carry the plan out on a sink. -/
def carryOut (plan : Plan α) (sink : Sink) : Run α :=
  match Action.performAll plan.actions { sink } with
  | (none, progress) => ⟨progress, plan.result⟩
  | (some f, progress) => ⟨progress, .error (.output f)⟩

end Plan
end MonkeyTokens
