import MonkeyTokens.Reader.Basic
import MonkeyTokens.Text.Utf8

/-!
# Lines of a reader

A line goes up to and including the next line feed, or up to the next stop of the reader. A stop
behind some bytes only ends that line; an empty line is the end of the input. A line that cannot
be read, or that is not valid UTF-8 as a whole, ends the input with a fault, and none of it is
handed on.
-/

namespace MonkeyTokens

/-- The lines of an input, and the fault that ended it, if any. -/
structure LineInput where
  lines : List String
  fault? : Option Fault
  deriving DecidableEq, Repr

/-- The same input with one more line in front. -/
def LineInput.cons (line : String) (input : LineInput) : LineInput :=
  { input with lines := line :: input.lines }

/-- The line that was read, none at the end of the input, or why it cannot be had. -/
def Intake.line? (got : Intake) : Except Fault (Option String) :=
  match got.stop? with
  | some (.failed f) => .error f
  | _ =>
    if got.bytes = [] then .ok none
    else
      match Text.Utf8.decodeText? got.bytes with
      | none => .error .invalidText
      | some line => .ok (some line)

/-- There is no line without a byte in it. -/
theorem Intake.bytes_ne_nil_of_line? {got : Intake} {line : String}
    (h : got.line? = .ok (some line)) : got.bytes ≠ [] := by
  intro hb
  simp only [line?, hb] at h
  split at h <;> simp at h

namespace Reader

/-- The next bytes up to and including a line feed, or those before the first stop. -/
def readLine (r : Reader) : Intake :=
  match _h : r.ask with
  | (.error stop, rest) => ⟨[], some stop, rest⟩
  | (.ok b, rest) => if b = 10 then ⟨[b], none, rest⟩ else rest.readLine.cons b
termination_by r.size
decreasing_by simp [size_of_ask_eq_ok _h]

/-- Reading a line takes the bytes it delivers, and nothing else. -/
theorem size_readLine (r : Reader) : r.size = r.readLine.bytes.length + r.readLine.rest.size := by
  fun_induction readLine r with
  | case1 r stop rest h => rw [size_ask, h]; simp [Except.toOption]
  | case2 r rest h => rw [size_of_ask_eq_ok h]; simp; omega
  | case3 r b rest h _ ih => rw [size_of_ask_eq_ok h, ih]; simp [Intake.cons]; omega

/-- All lines of the input. -/
def lines (r : Reader) : LineInput :=
  let got := r.readLine
  match _h : got.line? with
  | .error f => ⟨[], some f⟩
  | .ok none => ⟨[], none⟩
  | .ok (some line) => got.rest.lines.cons line
termination_by r.size
decreasing_by
  have hs := r.size_readLine
  have hb : 0 < r.readLine.bytes.length :=
    List.length_pos_iff.mpr (Intake.bytes_ne_nil_of_line? _h)
  omega

end Reader
end MonkeyTokens
