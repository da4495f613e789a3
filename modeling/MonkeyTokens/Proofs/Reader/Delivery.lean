import MonkeyTokens.Reader.Basic

/-!
# What a reader delivers

The delivery of a reader is told from the list of its reads alone: the bytes before the first
read that stops it, and the fault of that read, if it is one. An interruption stops nothing.
Asking for bytes one at a time takes them off the front of the delivery (`delivery_readUpTo`), so
that it does not matter how the bytes were cut into reads. What is behind the stop stays as it is
(`behindStop_readUpTo`).
-/

namespace MonkeyTokens

/-- The bytes before the first stop of a reader, and the fault that the stop is, if any. -/
structure Delivery where
  bytes : List UInt8
  fault? : Option Fault
  deriving DecidableEq, Repr

/-- The fault that a stop is; the end of the input is none. -/
def Stop.fault? : Stop → Option Fault
  | .endOfInput => none
  | .failed f => some f

/-- The stop that a read is, if it is one. -/
def Read.stop? : Read → Option Stop
  | .chunk [] => some .endOfInput
  | .chunk (_ :: _) => none
  | .fault f => if f.isInterruption then none else some (.failed f)

namespace Reader

/-- The delivery of a list of reads. -/
def deliveryOf : List Read → Delivery
  | [] => ⟨[], none⟩
  | .chunk [] :: _ => ⟨[], none⟩
  | .chunk (b :: bytes) :: rest =>
    ⟨b :: bytes ++ (deliveryOf rest).bytes, (deliveryOf rest).fault?⟩
  | .fault f :: rest => if f.isInterruption then deliveryOf rest else ⟨[], some f⟩

/-- What the reader will deliver. -/
def delivery (r : Reader) : Delivery := deliveryOf r.reads

private theorem delivery_askReads (reads : List Read) :
    (∀ b rest, askReads reads = (.ok b, rest) →
      deliveryOf reads = ⟨b :: rest.delivery.bytes, rest.delivery.fault?⟩) ∧
    ∀ stop rest, askReads reads = (.error stop, rest) → deliveryOf reads = ⟨[], stop.fault?⟩ := by
  fun_induction askReads reads with
  | case1 | case2 =>
    constructor
    · rintro b rest ⟨⟩
    · rintro stop rest ⟨⟩
      rfl
  | case3 | case4 =>
    constructor
    · rintro b rest ⟨⟩
      rfl
    · rintro stop rest ⟨⟩
  | case5 f rest h ih => rwa [deliveryOf, if_pos h]
  | case6 f rest h =>
    constructor
    · rintro b rest ⟨⟩
    · rintro stop rest ⟨⟩
      rw [deliveryOf, if_neg h, Stop.fault?]

private theorem delivery_of_ask_ok {r rest : Reader} {b : UInt8} (h : r.ask = (.ok b, rest)) :
    r.delivery = ⟨b :: rest.delivery.bytes, rest.delivery.fault?⟩ :=
  (delivery_askReads r.reads).1 b rest h

private theorem delivery_of_ask_error {r rest : Reader} {stop : Stop}
    (h : r.ask = (.error stop, rest)) : r.delivery = ⟨[], stop.fault?⟩ :=
  (delivery_askReads r.reads).2 stop rest h

/-- Reading takes as many bytes as asked for off the delivery, or all of them up to the stop. -/
theorem delivery_readUpTo (n : Nat) (r : Reader) :
    (r.readUpTo n).bytes = r.delivery.bytes.take n ∧
      match (r.readUpTo n).stop? with
      | none => n ≤ r.delivery.bytes.length ∧
          (r.readUpTo n).rest.delivery = ⟨r.delivery.bytes.drop n, r.delivery.fault?⟩
      | some stop => r.delivery.bytes.length < n ∧ stop.fault? = r.delivery.fault? := by
  fun_induction readUpTo n r with
  | case1 r => simp
  | case2 n r stop rest h => simp [delivery_of_ask_error h]
  | case3 n r b rest h ih =>
    rw [delivery_of_ask_ok h]
    simp only [Intake.cons, List.take_succ_cons, List.cons.injEq, true_and, List.length_cons,
      List.drop_succ_cons, Nat.succ_eq_add_one, Nat.add_le_add_iff_right,
      Nat.add_lt_add_iff_right]
    exact ih

/-- The fault that ends a delivery is that of a read. -/
theorem fault_mem_reads {r : Reader} {f : Fault} (h : r.delivery.fault? = some f) :
    .fault f ∈ r.reads := by
  have hreads (reads : List Read) (hf : (deliveryOf reads).fault? = some f) :
      .fault f ∈ reads := by
    fun_induction deliveryOf reads with
    | case1 | case2 => cases hf
    | case3 b bytes rest ih => exact List.mem_cons_of_mem _ (ih hf)
    | case4 g rest hg ih => exact List.mem_cons_of_mem _ (ih hf)
    | case5 g rest hg =>
      cases hf
      exact List.mem_cons_self
  exact hreads r.reads h

/-! ### Behind the stop -/

/-- What is left of a reader behind the first read that stops it. -/
def behindStop (r : Reader) : Reader := ⟨(r.reads.dropWhile fun x ↦ x.stop?.isNone).tail⟩

private theorem behindStop_cons {x : Read} (h : x.stop? = none) (rest : List Read) :
    behindStop ⟨x :: rest⟩ = behindStop ⟨rest⟩ := by
  rw [behindStop, List.dropWhile_cons_of_pos (by rw [h]; rfl), behindStop]

private theorem behindStop_askReads (reads : List Read) :
    (∀ b rest, askReads reads = (.ok b, rest) →
      behindStop ⟨reads⟩ = rest.behindStop) ∧
    ∀ stop rest, askReads reads = (.error stop, rest) → behindStop ⟨reads⟩ = rest := by
  fun_induction askReads reads with
  | case1 | case2 =>
    constructor
    · rintro b rest ⟨⟩
    · rintro stop rest ⟨⟩
      rfl
  | case3 | case4 =>
    constructor
    · rintro b rest ⟨⟩
      rfl
    · rintro stop rest ⟨⟩
  | case5 f rest h ih =>
    have hstop : (Read.fault f).stop? = none := by rw [Read.stop?, if_pos h]
    rwa [behindStop_cons hstop]
  | case6 f rest h =>
    constructor
    · rintro b rest ⟨⟩
    · rintro stop rest ⟨⟩
      simp [behindStop, Read.stop?, h]

/-- Reading up to the stop leaves what is behind it, and reading less leaves the stop where it
is. -/
theorem behindStop_readUpTo (n : Nat) (r : Reader) :
    match (r.readUpTo n).stop? with
    | none => (r.readUpTo n).rest.behindStop = r.behindStop
    | some _ => (r.readUpTo n).rest = r.behindStop := by
  fun_induction readUpTo n r with
  | case1 r => rfl
  | case2 n r stop rest h => exact ((behindStop_askReads r.reads).2 stop rest h).symm
  | case3 n r b rest h ih =>
    rw [(behindStop_askReads r.reads).1 b rest h]
    exact ih

/-- The fault that ends a delivery is that of the first read that stops the reader. -/
theorem exists_stop {r : Reader} {f : Fault} (h : r.delivery.fault? = some f) :
    ∃ front, r.reads = front ++ .fault f :: r.behindStop.reads ∧ ∀ x ∈ front, x.stop? = none := by
  have hreads (reads : List Read) (hf : (deliveryOf reads).fault? = some f) :
      ∃ front, reads = front ++ .fault f :: (behindStop ⟨reads⟩).reads ∧
        ∀ x ∈ front, x.stop? = none := by
    fun_induction deliveryOf reads with
    | case1 | case2 => cases hf
    | case3 b bytes rest ih =>
      obtain ⟨front, hfront, hgoes⟩ := ih hf
      have hstop : (Read.chunk (b :: bytes)).stop? = none := rfl
      refine ⟨.chunk (b :: bytes) :: front, ?_, List.forall_mem_cons.mpr ⟨hstop, hgoes⟩⟩
      rw [behindStop_cons hstop, List.cons_append, ← hfront]
    | case4 g rest hg ih =>
      obtain ⟨front, hfront, hgoes⟩ := ih hf
      have hstop : (Read.fault g).stop? = none := by rw [Read.stop?, if_pos hg]
      refine ⟨.fault g :: front, ?_, List.forall_mem_cons.mpr ⟨hstop, hgoes⟩⟩
      rw [behindStop_cons hstop, List.cons_append, ← hfront]
    | case5 g rest hg =>
      cases hf
      refine ⟨[], ?_, by simp⟩
      simp [behindStop, Read.stop?, hg]
  exact hreads r.reads h

end Reader
end MonkeyTokens
