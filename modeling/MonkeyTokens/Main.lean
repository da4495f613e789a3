import MonkeyTokens.CommandLine.Program

/-!
# The command line program

Reads the words of the command line, the environment, files and standard input, and does on the
real streams what the plans of the library say.
-/

namespace MonkeyTokens.CommandLine

/-- The fault with the words and the number that the system gives. -/
def systemFault (cause : Fault.Cause) (number : UInt32) (words : String) : Fault :=
  ⟨cause, some s!"{words} (os error {number})"⟩

/-- The fault that an error of a stream stands for. -/
def faultOf : IO.Error → Fault
  | .noFileOrDirectory _ number words => systemFault .notFound number words
  | .noSuchThing _ number words => systemFault .notFound number words
  | .permissionDenied _ number words => systemFault .permissionDenied number words
  | .inappropriateType _ number words => systemFault .other number words
  | .invalidArgument _ number words => systemFault .other number words
  | .resourceExhausted _ number words => systemFault .other number words
  | .resourceVanished number words => systemFault .brokenPipe number words
  | .otherError number words => systemFault .other number words
  | e => ⟨.other, some (toString e)⟩

/-- The streams of the process and the filter of its log. -/
structure Console where
  input : IO.FS.Stream
  output : IO.FS.Stream
  errors : IO.FS.Stream
  filter : Log.Filter

namespace Console

/-- Show an event if the filter lets it through. -/
def record (c : Console) (e : Event) : IO Unit := do
  if c.filter.shows e then c.errors.putStrLn e.line

/-- Do one thing. -/
def perform (c : Console) : Action → IO Unit
  | .record e => c.record e
  | .write text => c.output.putStr text
  | .flush => c.output.flush

/-- Do one thing after the other; the failure if one of them fails. -/
def performAll (c : Console) (actions : List Action) : IO (Except SessionFailure Unit) := do
  try
    actions.forM c.perform
    return .ok ()
  catch e => return .error (.output (faultOf e))

/-- The next line of the input, or what there is of it, behind the bytes read so far. -/
partial def readLine (c : Console) (bytes : Array UInt8) : IO Intake := do
  let got ← try Except.ok <$> c.input.read 1 catch e => pure (Except.error (faultOf e))
  match got.map ByteArray.toList with
  | .error f => return ⟨bytes.toList, some (.failed f), ⟨[]⟩⟩
  | .ok [] => return ⟨bytes.toList, some .endOfInput, ⟨[]⟩⟩
  | .ok (b :: _) =>
    if b = 10 then return ⟨bytes.toList ++ [b], none, ⟨[]⟩⟩ else c.readLine (bytes.push b)

/-- Hold a session, of which so many lines are over. -/
partial def converse (c : Console) (prompt : String) (lines : Nat) :
    IO (Except SessionFailure Unit) := do
  match ← c.performAll (Session.ask prompt) with
  | .error failure => return .error failure
  | .ok () =>
    match (← c.readLine #[]).line? with
    | .error f => return .error (.input f)
    | .ok none => c.performAll (Session.close lines)
    | .ok (some line) =>
      match ← c.performAll (Session.answer (lines + 1) line) with
      | .error failure => return .error failure
      | .ok () => c.converse prompt (lines + 1)

/-- Carry out a plan. -/
def carryOut (c : Console) (plan : Plan Unit) : IO (Except SessionFailure Unit) := do
  match ← c.performAll plan.actions with
  | .error failure => return .error failure
  | .ok () => return plan.result

/-- A reader of an open file: all of its bytes, or the fault met in reading them. -/
def readerOf (file : IO.FS.Handle) : IO Reader := do
  try
    let bytes ← file.readBinToEnd
    return .ofBytes bytes.toList
  catch e => return ⟨[.fault (faultOf e)]⟩

/-- A reader of the file at a path, or the fault met in opening it. -/
def openFile (path : String) : IO (Except Fault Reader) := do
  try
    let file ← IO.FS.Handle.mk path .read
    return .ok (← readerOf file)
  catch e => return .error (faultOf e)

/-- Do what the options say; the exit code. -/
def run (c : Console) (options : Options) : IO UInt32 := do
  let result ← match options.file? with
    | none => c.converse options.prompt 0
    | some path => do c.carryOut (filePlan path (← openFile path))
  match result with
  | .ok () => return 0
  | .error failure =>
    c.record (.gaveUp failure)
    c.errors.putStrLn (finalWord failure)
    return 1

end Console
end MonkeyTokens.CommandLine

open MonkeyTokens.CommandLine in
/-- Run the program on the words of the command line. -/
def main (words : List String) : IO UInt32 := do
  let output ← IO.getStdout
  let errors ← IO.getStderr
  match Request.ofWords words with
  | .error e =>
    errors.putStr e.report
    return 2
  | .ok .help =>
    output.putStr (MonkeyTokens.Text.ofLines help)
    return 0
  | .ok (.run options) =>
    let filter := MonkeyTokens.Log.Filter.ofSetting options.verbose (← IO.getEnv "RUST_LOG")
    Console.run { input := ← IO.getStdin, output, errors, filter } options
