import MonkeyTokens.CommandLine.Options
import MonkeyTokens.Session

/-!
# Starting the program

With a file given, the program writes the tokens of that file; without one it holds a session on
its standard input. Tokens go to standard output; the log and the final error go to standard error.
The exit code is 0 if all went well, and 1 if the session failed.

It is not for the program to say how words are understood as options, what a filter of the log lets
through and how the log shows it, and what opening a path comes to. The program uses `Services` for
the first two, which may be anything here; the last one is part of what it is started with
(`Launch`). The program does say which filter to use and where the log goes (`Services.setUpLog`).
-/

namespace MonkeyTokens.CommandLine

/-- Where the program writes to. -/
inductive Channel where
  | output
  | errors
  deriving DecidableEq, Repr

/-- What a run of the program leaves behind. -/
structure Outcome where
  exitCode : Nat
  output : ByteArray := .empty
  /-- The lines on standard error that are the log's, or tell why there is no log. -/
  log : List String := []
  /-- The other lines on standard error. -/
  errors : List String := []

/-! ### Services -/

/-- The lines that are written for an event, each with where it goes. -/
abbrev Recorder := Event → List (Channel × String)

/-- What the program leaves to others. A filter decides which events are logged. -/
structure Services (Filter : Type) where
  /-- The options that the words of a command line choose, or the outcome of a program that these
  words do not start. -/
  understand : List String → Except Outcome Options
  /-- The filter that the environment sets, if it sets one that can be understood. -/
  filterOfSetting? : Option String → Option Filter
  /-- The filter that a text stands for, but for what cannot be understood. -/
  filterOf : String → Filter
  /-- Start a log that goes to a channel, or say why this cannot be done. -/
  startLog : Channel → Filter → Except String Recorder

/-- What is told if the log cannot be started. -/
def noLog (reason : String) : String := "Failed to initialize logging: " ++ reason

namespace Services

variable {Filter : Type} (services : Services Filter)

/-- The filter to use: the one that the environment sets, or else that of the program, which lets
more through if it is verbose. -/
def filter (verbose : Bool) (setting? : Option String) : Filter :=
  (services.filterOfSetting? setting?).getD
    (services.filterOf (if verbose then "debug" else "info"))

/-- Start the log of the program. It goes to standard error, where no tokens are. -/
def setUpLog (verbose : Bool) (setting? : Option String) : Except String Recorder :=
  (services.startLog .errors (services.filter verbose setting?)).mapError noLog

end Services

/-! ### What is written -/

/-- What has been written, but for the final error. -/
structure Streams where
  output : ByteArray := .empty
  log : Array String := #[]

namespace Streams

/-- Write a line of the log. -/
def addLine (s : Streams) : Channel × String → Streams
  | (.output, line) => { s with output := s.output ++ (line ++ "\n").toUTF8 }
  | (.errors, line) => { s with log := s.log.push line }

/-- Do one thing. -/
def perform (recorder : Recorder) (s : Streams) : Action → Streams
  | .record e => (recorder e).foldl addLine s
  | .write text => { s with output := s.output ++ text.toUTF8 }
  | .flush => s

end Streams

/-- What is told of a failure on standard error. -/
def finalWord (failure : SessionFailure) : String := "Error: " ++ failure.message

/-- The outcome of a plan behind some lines on standard error; a failure is logged and told. -/
def Outcome.ofPlan (recorder : Recorder) (told : List String) (plan : Plan Unit) : Outcome :=
  let streams := plan.actions.foldl (Streams.perform recorder) { log := told.toArray }
  match plan.result with
  | .ok () => { exitCode := 0, output := streams.output, log := streams.log.toList }
  | .error failure =>
    let last := streams.perform recorder (.record (.gaveUp failure))
    { exitCode := 1, output := last.output, log := last.log.toList, errors := [finalWord failure] }

/-! ### Runs -/

/-- What the program is started with. -/
structure Launch where
  words : List String
  input : Reader
  /-- A reader of the file at a path, or why there is none. -/
  openFile : String → Except Fault Reader
  /-- What shall be logged, if the environment says so. -/
  logSetting? : Option String

/-- The plan of a session that only fails. -/
def failing (failure : SessionFailure) : Plan Unit := ⟨[], .error failure⟩

/-- The prompt of a session with these options. -/
def Options.prompt (options : Options) : String := options.prompt?.getD Session.defaultPrompt

/-- The plan for a file that was opened, or that could not be. -/
def filePlan (path : String) : Except Fault Reader → Plan Unit
  | .error f => failing (.opening path f)
  | .ok file => (Session.allAtOnce file).forget

/-- The plan for these options: lex the file, or else hold a session on the input. -/
def Options.plan (options : Options) (l : Launch) : Plan Unit :=
  match options.file? with
  | none => Session.lineByLine options.prompt l.input
  | some path => filePlan path (l.openFile path)

/-- Run the program. If the log cannot be started, this is told first and nothing is logged. -/
def Launch.run {Filter : Type} (l : Launch) (services : Services Filter) : Outcome :=
  match services.understand l.words with
  | .error outcome => outcome
  | .ok options =>
    match services.setUpLog options.verbose l.logSetting? with
    | .ok recorder => .ofPlan recorder [] (options.plan l)
    | .error message => .ofPlan (fun _ ↦ []) [message] (options.plan l)

end MonkeyTokens.CommandLine
