import MonkeyTokens.Fault
import MonkeyTokens.Text.Quoted

/-!
# Failures of sources and sessions

A source of characters fails when its bytes cannot be read. A session fails on its input, on
its output, on opening a file, or because its source failed. Every failure has a name, a
message, and the messages of what caused it, the nearest first.
-/

namespace MonkeyTokens

/-- Why a source of characters gave up. -/
inductive SourceFailure where
  | reading (f : Fault)
  deriving DecidableEq, Repr

namespace SourceFailure

/-- The fault behind the failure. -/
def fault : SourceFailure → Fault
  | .reading f => f

/-- The kind of failure in one word. -/
def name : SourceFailure → String
  | .reading _ => "Io"

/-- What went wrong. -/
def message : SourceFailure → String
  | .reading f => "failed to read source: " ++ f.message

/-- The messages of the causes, the nearest first. -/
def causes (failure : SourceFailure) : List String := [failure.fault.message]

end SourceFailure

/-- Why a session gave up. -/
inductive SessionFailure where
  | input (f : Fault)
  | output (f : Fault)
  | opening (path : String) (f : Fault)
  | source (failure : SourceFailure)
  deriving DecidableEq, Repr

namespace SessionFailure

/-- The fault behind the failure. -/
def fault : SessionFailure → Fault
  | .input f => f
  | .output f => f
  | .opening _ f => f
  | .source failure => failure.fault

/-- The kind of failure in one word. -/
def name : SessionFailure → String
  | .input _ => "Input"
  | .output _ => "Output"
  | .opening _ _ => "Open"
  | .source _ => "Source"

/-- What went wrong; a failed source speaks for itself. -/
def message : SessionFailure → String
  | .input f => "failed to read input: " ++ f.message
  | .output f => "failed to write output: " ++ f.message
  | .opening path f => "failed to open " ++ Text.Quoted.quote path ++ ": " ++ f.message
  | .source failure => failure.message

/-- The messages of the causes, the nearest first. -/
def causes (failure : SessionFailure) : List String := [failure.fault.message]

end SessionFailure
end MonkeyTokens
