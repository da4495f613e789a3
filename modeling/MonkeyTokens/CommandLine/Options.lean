import MonkeyTokens.Text.Lines
import MonkeyTokens.Text.Terminal

/-!
# Options of the command line

Two options take a value, and may be given once each: the file to read, and the prompt of a
session. A third makes the program verbose. What cannot be understood is a usage error, whose
message repeats the word that is at fault without what a terminal takes for commands.
-/

namespace MonkeyTokens.CommandLine

/-- An option that takes a value. -/
inductive ValueOption where
  | file
  | prompt
  deriving DecidableEq, Repr

/-- An option that takes none. -/
inductive Flag where
  | verbose
  | help
  deriving DecidableEq, Repr

/-- What was chosen on the command line. -/
structure Options where
  file? : Option String := none
  prompt? : Option String := none
  verbose : Bool := false
  deriving DecidableEq, Repr

/-- Why a command line cannot be understood. -/
inductive UsageError where
  /-- A word that is no option and no value of one. -/
  | unexpectedArgument (word : String)
  /-- An option at the end, or in front of another one, that takes a value. -/
  | missingValue (o : ValueOption)
  /-- An option with a value that was given before. -/
  | repeatedOption (o : ValueOption)
  /-- A flag that was given before. -/
  | repeatedFlag (flag : Flag)
  /-- A value for an option that takes none. -/
  | unexpectedValue (value : String) (flag : Flag)
  deriving DecidableEq, Repr

namespace ValueOption

/-- The option of this long name. -/
def ofName? : String → Option ValueOption
  | "file" => some .file
  | "prompt" => some .prompt
  | _ => none

/-- The option and its value as messages show them. -/
def label : ValueOption → String
  | .file => "--file <FILE>"
  | .prompt => "--prompt <PROMPT>"

end ValueOption

namespace Flag

/-- The flag of this long name. -/
def ofName? : String → Option Flag
  | "verbose" => some .verbose
  | "help" => some .help
  | _ => none

/-- The flag of this letter. -/
def ofLetter? : Char → Option Flag
  | 'v' => some .verbose
  | 'h' => some .help
  | _ => none

/-- The flag as messages show it. -/
def label : Flag → String
  | .verbose => "--verbose"
  | .help => "--help"

end Flag

/-- What is wrong with the command line. -/
def UsageError.message : UsageError → String
  | .unexpectedArgument word => "unexpected argument '" ++ Text.Terminal.plain word ++ "' found"
  | .missingValue o => "a value is required for '" ++ o.label ++ "' but none was supplied"
  | .repeatedOption o => "the argument '" ++ o.label ++ "' cannot be used multiple times"
  | .repeatedFlag flag => "the argument '" ++ flag.label ++ "' cannot be used multiple times"
  | .unexpectedValue value flag =>
    "unexpected value '" ++ Text.Terminal.plain value ++ "' for '" ++ flag.label ++
      "' found; no more were expected"

/-- How the program is used, line by line. -/
def usage : List String := ["Usage: monkey-lexer [OPTIONS]"]

/-- What is printed for a command line that cannot be understood. -/
def UsageError.report (e : UsageError) : String :=
  Text.ofLines
    (["error: " ++ e.message, ""] ++ usage ++ ["", "For more information, try '--help'."])

/-- The help text, line by line. -/
def help : List String :=
  ["Prints the tokens of Monkey source", ""] ++ usage ++
    ["",
      "Options:",
      "      --file <FILE>      Lex this file once instead of starting the REPL",
      "      --prompt <PROMPT>  Prompt printed before each REPL line [default: \">> \"]",
      "  -v, --verbose          Enable debug logging",
      "  -h, --help             Print help"]

namespace Options

/-- The value an option was given. -/
def value? (options : Options) : ValueOption → Option String
  | .file => options.file?
  | .prompt => options.prompt?

/-- The options with this value, in place of any that was given before. -/
def withValue (options : Options) (o : ValueOption) (value : String) : Options :=
  match o with
  | .file => { options with file? := some value }
  | .prompt => { options with prompt? := some value }

/-- Give an option a value, which can be done once. -/
def set (options : Options) (o : ValueOption) (value : String) : Except UsageError Options :=
  if (options.value? o).isSome then .error (.repeatedOption o) else .ok (options.withValue o value)

end Options
end MonkeyTokens.CommandLine
