import MonkeyTokens.CommandLine.Launch
import MonkeyTokens.CommandLine.Request
import MonkeyTokens.Directory
import MonkeyTokens.Log.Filter
import MonkeyTokens.Log.Line

/-!
# The program in a directory

Something for the program to be tried in: words are read from left to right (`Request`), a filter
chooses what is logged (`Log.Filter`), and all files are in one `Directory`. The exit code is 2 if
the words cannot be understood. None of this is the program's own; what holds of the program in
general is said of every `Launch` with any `Services`.
-/

namespace MonkeyTokens.CommandLine

/-- What the program is started with in a directory. -/
structure World where
  words : List String
  input : List UInt8
  directory : Directory
  /-- What shall be logged, if the environment says so. -/
  logSetting? : Option String

namespace World

/-- The services that the program has there. -/
def services : Services Log.Filter where
  understand words :=
    match Request.ofWords words with
    | .error e => .error { exitCode := 2, errors := Text.linesOf e.report }
    | .ok .help => .error { exitCode := 0, output := (Text.ofLines help).toUTF8 }
    | .ok (.run options) => .ok options
  filterOfSetting? setting? := setting? >>= Log.Filter.ofString?
  filterOf := Log.Filter.ofString
  startLog channel filter :=
    .ok fun e ↦ if filter.shows e then [(channel, e.line)] else []

/-- The start of the program in the directory. -/
def launch (w : World) : Launch where
  words := w.words
  input := .ofBytes w.input
  openFile := w.directory.openFile
  logSetting? := w.logSetting?

/-- Run the program. -/
def run (w : World) : Outcome := w.launch.run services

end World
end MonkeyTokens.CommandLine

namespace MonkeyTokens.Log

/-- The filter that the program uses there. -/
def Filter.ofSetting (verbose : Bool) (setting? : Option String) : Filter :=
  CommandLine.World.services.filter verbose setting?

/-- What is told there if the log is started once more. -/
def alreadySetUp : String :=
  CommandLine.noLog "a global default trace dispatcher has already been set"

end MonkeyTokens.Log
