import MonkeyTokens.Fault

/-!
# Readers of bytes

A reader is a list of reads still to be made. A read delivers a chunk of bytes or fails; one
that delivers no bytes says that the input has ended, though later reads may deliver more.
After the last read every further one delivers no bytes. A read that was interrupted is made
again.

Bytes are asked for one at a time (`ask`), and `readUpTo` asks until it has enough of them or
meets a stop. `Reader.size` counts the bytes a reader holds: `size_ask` and `size_readUpTo` say
that no byte is lost on the way.
-/

namespace MonkeyTokens

/-- One read. -/
inductive Read where
  | chunk (bytes : List UInt8)
  | fault (f : Fault)
  deriving DecidableEq, Repr

/-- The bytes that a read delivers. -/
def Read.bytes : Read → List UInt8
  | .chunk bytes => bytes
  | .fault _ => []

/-- Why a reader delivers no byte now. -/
inductive Stop where
  | endOfInput
  | failed (f : Fault)
  deriving DecidableEq, Repr

/-- The reads that are still to be made. -/
structure Reader where
  reads : List Read
  deriving DecidableEq, Repr

/-- What was read: some bytes, why there are no more of them, and the reader behind them. -/
structure Intake where
  bytes : List UInt8
  stop? : Option Stop
  rest : Reader
  deriving DecidableEq, Repr

/-- The same intake with one more byte in front. -/
def Intake.cons (b : UInt8) (got : Intake) : Intake := { got with bytes := b :: got.bytes }

namespace Reader

/-- A reader that delivers these bytes in one read. -/
def ofBytes (bytes : List UInt8) : Reader := ⟨[.chunk bytes]⟩

/-- The next byte of a list of reads, or why there is none now, and the reader behind it. -/
def askReads : List Read → Except Stop UInt8 × Reader
  | [] => (.error .endOfInput, ⟨[]⟩)
  | .chunk [] :: rest => (.error .endOfInput, ⟨rest⟩)
  | .chunk [b] :: rest => (.ok b, ⟨rest⟩)
  | .chunk (b :: c :: bytes) :: rest => (.ok b, ⟨.chunk (c :: bytes) :: rest⟩)
  | .fault f :: rest => if f.isInterruption then askReads rest else (.error (.failed f), ⟨rest⟩)

/-- The next byte, or why there is none now. -/
def ask (r : Reader) : Except Stop UInt8 × Reader := askReads r.reads

/-- The next bytes: so many, or those before the first stop. -/
def readUpTo : Nat → Reader → Intake
  | 0, r => ⟨[], none, r⟩
  | n + 1, r =>
    match r.ask with
    | (.error stop, rest) => ⟨[], some stop, rest⟩
    | (.ok b, rest) => (readUpTo n rest).cons b

/-- The number of bytes that the reader holds. -/
def size (r : Reader) : Nat := (r.reads.flatMap Read.bytes).length

private theorem size_askReads (reads : List Read) :
    (Reader.mk reads).size =
      (askReads reads).1.toOption.toList.length + (askReads reads).2.size := by
  fun_induction askReads reads with
  | case1 => rfl
  | case2 => simp [size, Read.bytes, Except.toOption]
  | case3 | case4 => simp [size, Read.bytes, Except.toOption]; omega
  | case5 f rest h ih => simpa [size, Read.bytes] using ih
  | case6 => simp [size, Read.bytes, Except.toOption]

/-- Asking takes the byte it delivers, and nothing else. -/
theorem size_ask (r : Reader) : r.size = r.ask.1.toOption.toList.length + r.ask.2.size :=
  size_askReads r.reads

/-- A reader that delivered a byte holds one less. -/
theorem size_of_ask_eq_ok {r rest : Reader} {b : UInt8} (h : r.ask = (.ok b, rest)) :
    r.size = rest.size + 1 := by
  rw [size_ask, h]
  simp [Except.toOption]
  omega

/-- Reading takes the bytes it delivers, and nothing else. -/
theorem size_readUpTo (n : Nat) (r : Reader) :
    r.size = (r.readUpTo n).bytes.length + (r.readUpTo n).rest.size := by
  fun_induction readUpTo n r with
  | case1 => simp
  | case2 n r stop rest h => rw [size_ask, h]; simp [Except.toOption]
  | case3 n r b rest h ih => rw [size_of_ask_eq_ok h, ih]; simp [Intake.cons]; omega

end Reader
end MonkeyTokens
