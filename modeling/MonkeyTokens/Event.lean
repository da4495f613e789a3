import MonkeyTokens.Failure
import MonkeyTokens.Token.Basic

/-!
# Events

What happened, in the order it happened. Every event has a level, a target that says which
part of the program it comes from, a message, and named values.
-/

namespace MonkeyTokens

/-- How much an event matters, the gravest first. -/
inductive Level where
  | error
  | warn
  | info
  | debug
  | trace
  deriving DecidableEq, Repr

namespace Level

/-- The level's place, counted from the gravest. -/
def rank : Level → Nat
  | .error => 1
  | .warn => 2
  | .info => 3
  | .debug => 4
  | .trace => 5

/-- The level as log lines show it. -/
def label : Level → String
  | .error => "ERROR"
  | .warn => "WARN"
  | .info => "INFO"
  | .debug => "DEBUG"
  | .trace => "TRACE"

end Level

/-- The value of a named field of an event. -/
inductive FieldValue where
  | number (n : Nat)
  | plain (text : String)
  | quoted (text : String)
  deriving DecidableEq, Repr

/-- Something worth an entry in the log. -/
inductive Event where
  /-- The lexer produced a token. -/
  | producedToken (t : Token)
  /-- A source met a fault and will give no more characters than it holds. -/
  | readFailed (f : Fault)
  /-- A session's input ended after this many lines. -/
  | inputClosed (lines : Nat)
  /-- All tokens of a line were written. -/
  | lexedLine (line tokens : Nat)
  /-- All tokens of a reader were written. -/
  | lexedReader (tokens : Nat)
  /-- The program gave up. -/
  | gaveUp (failure : SessionFailure)
  deriving DecidableEq, Repr

namespace Event

/-- How much the event matters. -/
def level : Event → Level
  | .producedToken _ => .trace
  | .readFailed _ => .warn
  | .inputClosed _ => .info
  | .lexedLine _ _ => .debug
  | .lexedReader _ => .debug
  | .gaveUp _ => .error

/-- The part of the program that the event comes from. -/
def target : Event → String
  | .producedToken _ => "monkey::lexer"
  | .readFailed _ => "monkey::source"
  | .inputClosed _ => "monkey::repl"
  | .lexedLine _ _ => "monkey::repl"
  | .lexedReader _ => "monkey::repl"
  | .gaveUp _ => "monkey::cli"

/-- What the event says. -/
def message : Event → String
  | .producedToken _ => "produced token"
  | .readFailed _ => "read failed, ending input"
  | .inputClosed _ => "input closed"
  | .lexedLine _ _ => "lexed line"
  | .lexedReader _ => "lexed reader"
  | .gaveUp failure => failure.message

/-- The named values, in the order they are shown. -/
def fields : Event → List (String × FieldValue)
  | .producedToken t =>
    [("kind", .plain t.kind.name), ("literal", .plain t.literal),
      ("line", .number t.position.line), ("column", .number t.position.column)]
  | .readFailed f => [("error", .plain f.message)]
  | .inputClosed lines => [("lines", .number lines)]
  | .lexedLine line tokens => [("line", .number line), ("tokens", .number tokens)]
  | .lexedReader tokens => [("tokens", .number tokens)]
  | .gaveUp failure => [("kind", .quoted failure.name)]

end Event
end MonkeyTokens
