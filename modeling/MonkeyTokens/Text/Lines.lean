/-!
# Lines of a text

A line ends at a line feed, or at a carriage return and a line feed. What follows the last line
feed is a line too if it is not empty.
-/

namespace MonkeyTokens.Text

/-- The lines put together, each with a line feed behind it. -/
def ofLines (lines : List String) : String := String.join (lines.map (· ++ "\n"))

/-- A line without the carriage return that may be its last character. -/
def withoutReturn (line : List Char) : List Char :=
  if line.getLast? = some '\r' then line.dropLast else line

/-- The lines of a text, without what ends them. -/
def linesOf (text : String) : List String :=
  let parts := text.toList.splitOn '\n'
  let complete := parts.dropLast.map withoutReturn
  let rest := (parts.getLast?.filter (!·.isEmpty)).toList
  (complete ++ rest).map String.ofList

end MonkeyTokens.Text
