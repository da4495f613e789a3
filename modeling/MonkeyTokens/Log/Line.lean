import MonkeyTokens.Event

/-!
# Log lines

An event is shown on one line: its level, its target, a colon, its message, and its named values.
-/

namespace MonkeyTokens

/-- A value as log lines show it; a quoted text stands between quotes. -/
def FieldValue.render : FieldValue → String
  | .number n => toString n
  | .plain text => text
  | .quoted text => Text.Quoted.quote text

/-- The line that shows the event. -/
def Event.line (e : Event) : String :=
  e.level.label ++ " " ++ e.target ++ ": " ++ e.message ++
    String.join (e.fields.map fun field ↦ " " ++ field.1 ++ "=" ++ field.2.render)

end MonkeyTokens
