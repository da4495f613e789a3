import MonkeyTokens.CommandLine.Options

/-!
# Requests of the command line

Words are read from left to right. A word that starts with two dashes is a long option, with a
value behind an equals sign or in the next word; one that starts with a single dash is a list of
letters; `--` ends the options. There is no place for any other word, unless an option waits for
its value.

An option whose value is a word of its own is *held*: only when the next option is understood, or
at the end, is it seen that the value is missing or that the option was given before. A word that
cannot be understood is reported first. Help is given as soon as it is asked for.
-/

namespace MonkeyTokens.CommandLine

/-- What the command line asks for. -/
inductive Request where
  | help
  | run (options : Options)
  deriving DecidableEq, Repr

/-- The form of a word. -/
inductive Word where
  | endOfOptions
  | long (name : String) (value? : Option String)
  | letters (cs : List Char)
  | plain
  deriving DecidableEq, Repr

/-- The form of a word; a single dash and the empty word are plain. -/
def Word.ofString (text : String) : Word :=
  match text.toList with
  | ['-', '-'] => .endOfOptions
  | '-' :: '-' :: cs =>
    let name := String.ofList (cs.takeWhile (· != '='))
    match cs.dropWhile (· != '=') with
    | [] => .long name none
    | _ :: value => .long name (some (String.ofList value))
  | '-' :: c :: cs => .letters (c :: cs)
  | _ => .plain

/-- The option whose value is a word of its own, and that word once it is there. -/
structure Held where
  option : ValueOption
  value? : Option String
  deriving DecidableEq, Repr

/-- What is known of a command line after some of its words. -/
structure Reading where
  options : Options := {}
  held? : Option Held := none
  deriving DecidableEq, Repr

/-- Why the words behind this one are not looked at. -/
inductive Halt where
  | helpWanted
  | misused (e : UsageError)
  deriving DecidableEq, Repr

namespace Reading

/-- Enter the held option among the others. -/
def settle (r : Reading) : Except Halt Options :=
  match r.held? with
  | none => .ok r.options
  | some ⟨o, none⟩ => .error (.misused (.missingValue o))
  | some ⟨o, some value⟩ => (r.options.set o value).mapError .misused

/-- Understand a flag. -/
def flag (r : Reading) (f : Flag) : Except Halt Reading := do
  let options ← r.settle
  match f with
  | .help => .error .helpWanted
  | .verbose =>
    if options.verbose then .error (.misused (.repeatedFlag .verbose))
    else .ok { options := { options with verbose := true } }

/-- Understand a long option. -/
def long (r : Reading) (name : String) (value? : Option String) : Except Halt Reading :=
  match ValueOption.ofName? name, Flag.ofName? name, value? with
  | some o, _, some value => do
    let options ← r.settle
    return { options := ← (options.set o value).mapError .misused }
  | some o, _, none => do
    return { options := ← r.settle, held? := some ⟨o, none⟩ }
  | none, some f, some value => .error (.misused (.unexpectedValue value f))
  | none, some f, none => r.flag f
  | none, none, _ => .error (.misused (.unexpectedArgument ("--" ++ name)))

/-- Understand a list of letters. -/
def letters : List Char → Reading → Except Halt Reading
  | [], r => .ok r
  | c :: cs, r =>
    match Flag.ofLetter? c with
    | none => .error (.misused (.unexpectedArgument (String.ofList ['-', c])))
    | some f => r.flag f >>= letters cs

/-- Understand a plain word: the value that an option waits for. -/
def plain (r : Reading) (text : String) : Except Halt Reading :=
  match r.held? with
  | some ⟨o, none⟩ => .ok { r with held? := some ⟨o, some text⟩ }
  | _ => .error (.misused (.unexpectedArgument text))

/-- Understand all words. -/
def words : List String → Reading → Except Halt Options
  | [], r => r.settle
  | text :: texts, r =>
    match Word.ofString text with
    | .endOfOptions =>
      match texts with
      | [] => r.settle
      | text :: _ => .error (.misused (.unexpectedArgument text))
    | .long name value? => r.long name value? >>= words texts
    | .letters cs => r.letters cs >>= words texts
    | .plain => r.plain text >>= words texts

end Reading

/-- What the words of a command line ask for. -/
def Request.ofWords (texts : List String) : Except UsageError Request :=
  match Reading.words texts {} with
  | .ok options => .ok (.run options)
  | .error .helpWanted => .ok .help
  | .error (.misused e) => .error e

end MonkeyTokens.CommandLine
