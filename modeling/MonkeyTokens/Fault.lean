/-!
# Faults of input and output

A fault says why reading or writing failed. It is shown by a detail of its own if it has
one, else by the description of its cause.
-/

namespace MonkeyTokens

/-- What kind of thing went wrong. -/
inductive Fault.Cause where
  | notFound
  | permissionDenied
  | brokenPipe
  | connectionReset
  | wouldBlock
  | timedOut
  | invalidData
  | unexpectedEnd
  | writeZero
  | interrupted
  | other
  deriving DecidableEq, Repr

/-- The words for a cause that comes with no detail. -/
def Fault.Cause.description : Fault.Cause → String
  | .notFound => "entity not found"
  | .permissionDenied => "permission denied"
  | .brokenPipe => "broken pipe"
  | .connectionReset => "connection reset"
  | .wouldBlock => "operation would block"
  | .timedOut => "timed out"
  | .invalidData => "invalid data"
  | .unexpectedEnd => "unexpected end of file"
  | .writeZero => "write zero"
  | .interrupted => "operation interrupted"
  | .other => "other error"

/-- One failure to read or to write. -/
structure Fault where
  cause : Fault.Cause
  detail? : Option String := none
  deriving DecidableEq, Repr

namespace Fault

/-- The words that the fault is reported with. -/
def message (f : Fault) : String := f.detail?.getD f.cause.description

/-- Whether reading is to be tried again. -/
def isInterruption (f : Fault) : Bool := f.cause == .interrupted

/-- A line of input is not valid UTF-8. -/
def invalidText : Fault := ⟨.invalidData, some "stream did not contain valid UTF-8"⟩

/-- A writer took none of the bytes it was given. -/
def nothingWritten : Fault := ⟨.writeZero, some "failed to write whole buffer"⟩

/-- A writer did not pass on what it held. -/
def flushFailed : Fault := ⟨.other, some "flush failed"⟩

/-- No file has this path. -/
def noSuchFile : Fault := ⟨.notFound, some "No such file or directory (os error 2)"⟩

/-- A path goes on below something that is not a directory. -/
def notADirectory : Fault := ⟨.other, some "Not a directory (os error 20)"⟩

/-- A directory is read as if it were a file. -/
def isADirectory : Fault := ⟨.other, some "Is a directory (os error 21)"⟩

/-- A path or one of its names has too many bytes. -/
def nameTooLong : Fault := ⟨.other, some "File name too long (os error 36)"⟩

end Fault
end MonkeyTokens
