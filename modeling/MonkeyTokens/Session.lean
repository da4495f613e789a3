import MonkeyTokens.Lexer
import MonkeyTokens.Plan
import MonkeyTokens.Reader.Lines
import MonkeyTokens.Source.Decoder

/-!
# Sessions

A session writes the tokens of its input, each on a line of its own, and never the one at the
end. `lineByLine` asks for a line with a prompt, writes its tokens and asks for the next; every
line is a text by itself. `allAtOnce` takes the whole input as one text and never flushes.

Each event of the lexer goes into the log when it happens, and a token is written right after
the event that reports it: where a write fails, nothing behind it has happened.
-/

namespace MonkeyTokens.Session

/-- The prompt of a session that was given none. -/
def defaultPrompt : String := ">> "

/-- Record an event of the lexer, and write its token if it is not the one at the end. -/
def follow : Event → List Action
  | .producedToken t =>
    .record (.producedToken t) :: if t.isEnd then [] else [.write t.renderLine]
  | e => [.record e]

/-- Ask for a line. -/
def ask (prompt : String) : List Action := [.write prompt, .flush]

/-- Write the tokens of a line and report it under its number. -/
def answer (number : Nat) (line : String) : List Action :=
  let (tokens, _, lexer) := (Lexer.ofText line).drain
  lexer.journal.toList.flatMap follow ++ [.record (.lexedLine number tokens.length)]

/-- Report that the input ended after so many lines. -/
def close (lines : Nat) : List Action := [.record (.inputClosed lines)]

/-- Ask for every line of the input and write its tokens, until the input ends. -/
def lineByLine (prompt : String) (r : Reader) : Plan Unit :=
  let input := r.lines
  let turns := (input.lines.zipIdx 1).flatMap fun turn ↦ ask prompt ++ answer turn.2 turn.1
  match input.fault? with
  | none => ⟨turns ++ ask prompt ++ close input.lines.length, .ok ()⟩
  | some f => ⟨turns ++ ask prompt, .error (.input f)⟩

/-- Write the tokens of the whole input; the result is their number. -/
def allAtOnce (r : Reader) : Plan Nat :=
  let (tokens, _, lexer) := (Lexer.ofSource ({ reader := r } : Decoder)).drain
  let turns := lexer.journal.toList.flatMap follow
  match lexer.source.failure? with
  | none => ⟨turns ++ [.record (.lexedReader tokens.length)], .ok tokens.length⟩
  | some failure => ⟨turns, .error (.source failure)⟩

end MonkeyTokens.Session
