import MonkeyTokens.Event
import MonkeyTokens.Text.Alphanumeric
import MonkeyTokens.Text.WhiteSpace

/-!
# Directives

A directive says down to which level events are shown. It may be for the targets that start
with a given text, or for all of them. It is written as a level, or as a target, an equals sign
and a level; a target with no level behind it shows everything.

Levels are words, in any case, or numbers from `0`, which is `off`, to `5`, which is `trace`.
-/

namespace MonkeyTokens.Log

/-- Down to which level the events of some targets are shown. -/
structure Directive where
  /-- How the targets start that the directive is for; all of them if there is none. -/
  target? : Option String
  /-- The last level that is shown; none if nothing is. -/
  level? : Option Level
  deriving DecidableEq, Repr

/-- Every threshold, with its word, in the order of the numbers that stand for them. -/
def thresholds : List (String × Option Level) :=
  [("off", none), ("error", some .error), ("warn", some .warn), ("info", some .info),
    ("debug", some .debug), ("trace", some .trace)]

/-- The number that decimal digits stand for; a plus sign may precede them. -/
def numberOf? (text : List Char) : Option Nat :=
  let digits := if text.head? = some '+' then text.tail else text
  if !digits.isEmpty && digits.all Char.isDigit then
    some (digits.foldl (fun n c ↦ 10 * n + (c.toNat - '0'.toNat)) 0)
  else none

/-- The threshold that a word or a number stands for. -/
def thresholdOf? (text : List Char) : Option (Option Level) :=
  match numberOf? text with
  | some n => thresholds[n]?.map Prod.snd
  | none => thresholds.lookup (String.ofList text).toLower

/-- The word for a threshold. -/
def thresholdWord : Option Level → String
  | none => "off"
  | some .error => "error"
  | some .warn => "warn"
  | some .info => "info"
  | some .debug => "debug"
  | some .trace => "trace"

/-- Whether a target may start with a character: a letter or number of any script, `-`, `:`
or `_`. -/
def startsTarget (c : Char) : Bool :=
  Text.isAlphanumeric c || c == '-' || c == ':' || c == '_'

/-- Whether a text may be a target. Square brackets are kept for what is no target. -/
def isTarget (text : List Char) : Bool := text.head?.any startsTarget && !text.contains '['

namespace Directive

/-- The directive that a text stands for. White space in front of a target without a level is
part of it. -/
def ofList? (text : List Char) : Option Directive :=
  let target := text.takeWhile (· != '=')
  match text.dropWhile (· != '=') with
  | [] =>
    if isTarget (text.dropWhile Text.isWhiteSpace) then
      match thresholdOf? text with
      | some level? => some ⟨none, level?⟩
      | none => some ⟨some (String.ofList text), some .trace⟩
    else none
  | _ :: level =>
    if isTarget target then
      if level.isEmpty then some ⟨some (String.ofList target), some .trace⟩
      else (thresholdOf? level).map fun level? ↦ ⟨some (String.ofList target), level?⟩
    else none

/-- The written form. -/
def render (d : Directive) : String :=
  match d.target? with
  | none => thresholdWord d.level?
  | some target => target ++ "=" ++ thresholdWord d.level?

/-- Whether the directive is about the events of this target. -/
def covers (d : Directive) (target : String) : Bool :=
  match d.target? with
  | none => true
  | some start => start.toList.isPrefixOf target.toList

/-- Whether the directive shows events of this level. -/
def shows (d : Directive) (level : Level) : Bool :=
  match d.level? with
  | none => false
  | some last => level.rank ≤ last.rank

/-- Whether the first directive is more specific: one with a target before one without, the
longer target before the shorter, and of two equally long ones the greater. -/
def isBefore (d e : Directive) : Bool :=
  match d.target?, e.target? with
  | none, _ => false
  | some _, none => true
  | some s, some t =>
    t.utf8ByteSize < s.utf8ByteSize || (s.utf8ByteSize == t.utf8ByteSize && decide (t < s))

end Directive
end MonkeyTokens.Log
