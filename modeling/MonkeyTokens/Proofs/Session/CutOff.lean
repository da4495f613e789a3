import MonkeyTokens.Proofs.Session.AllAtOnce

/-!
# Sinks that fail

Where a write or a flush fails, a session has done a first part of what it does on a sink that
does not fail, and ends with the fault of its output. Which part that is can be told from the
unfailing run: a sink with room for so many bytes holds just the first ones (`Run.Limited`), and
where a flush fails all bytes written before it are there (`Run.FlushFailed`). Both hold of every
plan (`Plan.limited`, `Plan.flushFailed`), and so of both kinds of session (`sessions_cut_off`).
-/

namespace MonkeyTokens

namespace Run

variable {α : Type}

/-- Both runs do the same to the end. -/
structure Agrees (full run : Run α) : Prop where
  stored : run.progress.sink.stored = full.progress.sink.stored
  flushed : run.progress.sink.flushed = full.progress.sink.flushed
  log : run.progress.log = full.progress.log
  result : run.result = full.result

/-- The run does what the full one does on a sink with room for so many bytes, which fails where
they are not enough. -/
structure Limited (full : Run α) (limit : Nat) (f : Fault) (run : Run α) : Prop where
  stored : run.progress.sink.stored =
    full.progress.sink.stored.extract 0 (min limit full.progress.sink.stored.size)
  flushed : run.progress.sink.flushed = full.progress.sink.flushed.filter (· ≤ limit)
  result : run.result =
    if limit < full.progress.sink.stored.size then .error (.output f) else full.result

/-- The run does what the full one does on a sink that fails at the flush behind the first `n`. -/
def FlushFailed (full : Run α) (n : Nat) (f : Fault) (run : Run α) : Prop :=
  match full.progress.sink.flushed[n]? with
  | none => full.Agrees run
  | some size =>
    run.progress.sink.stored = full.progress.sink.stored.extract 0 size ∧
      run.progress.sink.flushed = full.progress.sink.flushed.take n ∧
      run.result = .error (.output f)

end Run

namespace Action

private theorem exists_overflow {limit n : Nat} {actions : List Action} (hn : n ≤ limit)
    (h : limit < n + (written actions).utf8ByteSize) :
    ∃ done text rest, actions = done ++ .write text :: rest ∧
      n + (written done).utf8ByteSize ≤ limit ∧
      limit < n + (written done).utf8ByteSize + text.utf8ByteSize := by
  induction actions generalizing n with
  | nil => exact absurd h (Nat.not_lt.mpr hn)
  | cons action actions ih =>
    rw [written_cons, String.utf8ByteSize_append, ← Nat.add_assoc] at h
    by_cases hfit : n + action.text.utf8ByteSize ≤ limit
    · obtain ⟨done, text, rest, rfl, hdone, hover⟩ := ih hfit h
      refine ⟨action :: done, text, rest, rfl, ?_, ?_⟩
      · rwa [written_cons, String.utf8ByteSize_append, ← Nat.add_assoc]
      · rwa [written_cons, String.utf8ByteSize_append, ← Nat.add_assoc]
    · cases action with
      | write text => exact ⟨[], text, actions, rfl, hn, Nat.lt_of_not_le hfit⟩
      | record | flush => exact absurd hn hfit

private theorem exists_flush {n k m : Nat} {actions : List Action}
    (h : (flushMarks n actions)[k]? = some m) :
    ∃ done rest, actions = done ++ .flush :: rest ∧ (flushMarks n done).length = k ∧
      m = n + (written done).utf8ByteSize := by
  induction actions generalizing n k with
  | nil => cases h
  | cons action actions ih =>
    rw [flushMarks_cons] at h
    rcases Nat.lt_or_ge k (flushMarks n [action]).length with hk | hk
    · rw [List.getElem?_append_left hk] at h
      cases action with
      | flush =>
        obtain rfl : k = 0 := Nat.lt_one_iff.mp hk
        exact ⟨[], actions, rfl, rfl, (Option.some.inj h).symm⟩
      | record | write => cases h
    · rw [List.getElem?_append_right hk] at h
      obtain ⟨done, rest, rfl, hlen, hm⟩ := ih h
      refine ⟨action :: done, rest, rfl, ?_, ?_⟩
      · rw [flushMarks_cons, List.length_append, hlen, Nat.add_sub_cancel' hk]
      · rw [hm, written_cons, String.utf8ByteSize_append, Nat.add_assoc]

private theorem filter_flushMarks_of_le {limit : Nat} {actions : List Action}
    (h : (written actions).utf8ByteSize ≤ limit) :
    (flushMarks 0 actions).filter (· ≤ limit) = flushMarks 0 actions := by
  rw [List.filter_eq_self]
  intro m hm
  have hbounds := flushMarks_bounds 0 actions m hm
  simp only [decide_eq_true_eq]
  omega

private theorem filter_flushMarks_of_overflow {limit : Nat} {done rest : List Action}
    {text : String} (hdone : (written done).utf8ByteSize ≤ limit)
    (hover : limit < (written done).utf8ByteSize + text.utf8ByteSize) :
    (flushMarks 0 (done ++ .write text :: rest)).filter (· ≤ limit) = flushMarks 0 done := by
  rw [flushMarks_append, List.filter_append, filter_flushMarks_of_le hdone, Nat.zero_add,
    flushMarks]
  have hnone : (flushMarks ((written done).utf8ByteSize + text.utf8ByteSize) rest).filter
      (· ≤ limit) = [] := by
    rw [List.filter_eq_nil_iff]
    intro m hm
    have hbounds := flushMarks_bounds _ rest m hm
    simp only [decide_eq_true_eq]
    omega
  rw [hnone, List.append_nil]

end Action

private theorem extract_append_append {a b c : ByteArray} {size : Nat} (ha : a.size ≤ size)
    (hb : size ≤ a.size + b.size) :
    (a ++ (b ++ c)).extract 0 size = a ++ b.extract 0 (size - a.size) := by
  have hwhole : a.extract 0 size = a := by
    rw [← Nat.max_eq_left ha, ByteArray.extract_zero_max_size]
  have hnone : c.extract 0 (size - a.size - b.size) = ByteArray.empty := by
    rw [ByteArray.extract_eq_empty_iff]
    omega
  rw [ByteArray.extract_append, ByteArray.extract_append, hwhole, Nat.zero_sub, Nat.zero_sub,
    hnone, ByteArray.append_empty]

namespace Plan

open MonkeyTokens.Action

variable {α : Type} (plan : Plan α)

private theorem carryOut_default :
    plan.carryOut {} = ⟨⟨{
      stored := (written plan.actions).toUTF8
      flushed := (flushMarks 0 plan.actions).toArray },
      (plan.actions.filterMap event?).toArray⟩, plan.result⟩ := by
  rw [plan.carryOut_of_bears (Sink.unfailing_default.bears plan.actions), Progress.after_empty]

private theorem bears_of_le {limit : Nat} {fault? : Option Fault} {actions : List Action}
    (h : (written actions).utf8ByteSize ≤ limit) :
    ({ limit? := some limit, fault? } : Sink).Bears actions := by
  constructor
  · rintro _ ⟨⟩
    rwa [ByteArray.size_empty, Nat.zero_add]
  · rintro _ ⟨⟩

private theorem bears_of_length_le {n : Nat} {fault? : Option Fault} {actions : List Action}
    (h : (flushMarks 0 actions).length ≤ n) :
    ({ failingFlush? := some (n + 1), fault? } : Sink).Bears actions := by
  constructor
  · rintro _ ⟨⟩
  · rintro _ ⟨⟩
    rw [length_flushMarks] at h
    exact Nat.lt_succ_of_le ((Nat.zero_add _).symm ▸ h)

private theorem carryOut_of_overflow {limit : Nat} {done rest : List Action} {text : String}
    (hsplit : plan.actions = done ++ .write text :: rest)
    (hdone : (written done).utf8ByteSize ≤ limit)
    (hover : limit < (written done).utf8ByteSize + text.utf8ByteSize) (fault? : Option Fault) :
    plan.carryOut { limit? := some limit, fault? } = ⟨⟨{
      limit? := some limit, fault?
      stored := (written done).toUTF8 ++
        text.toUTF8.extract 0 (limit - (written done).utf8ByteSize)
      flushed := (flushMarks 0 done).toArray },
      (done.filterMap event?).toArray⟩, .error (.output (fault?.getD .nothingWritten))⟩ := by
  apply plan.carryOut_of_fails hsplit (bears_of_le hdone)
  rw [Progress.after_empty, perform, Sink.write_of_overflow rfl hdone hover]
  rfl

private theorem carryOut_of_flush {n : Nat} {done rest : List Action}
    (hsplit : plan.actions = done ++ .flush :: rest) (hlen : (flushMarks 0 done).length = n)
    (fault? : Option Fault) :
    plan.carryOut { failingFlush? := some (n + 1), fault? } = ⟨⟨{
      failingFlush? := some (n + 1), fault?
      stored := (written done).toUTF8
      flushed := (flushMarks 0 done).toArray },
      (done.filterMap event?).toArray⟩, .error (.output (fault?.getD .flushFailed))⟩ := by
  apply plan.carryOut_of_fails hsplit (bears_of_length_le (Nat.le_of_eq hlen))
  have hnext : some (n + 1) = some ((flushMarks 0 done).toArray.size + 1) := by
    rw [List.size_toArray, hlen]
  rw [Progress.after_empty, perform, Sink.flush, if_pos hnext]
  rfl

/-- With room for so many bytes a plan does what it would do up to them, and fails if there are
more. -/
theorem limited (limit : Nat) (fault? : Option Fault) :
    (plan.carryOut {}).Limited limit (fault?.getD .nothingWritten)
      (plan.carryOut { limit? := some limit, fault? }) := by
  rw [plan.carryOut_default]
  by_cases h : limit < (written plan.actions).utf8ByteSize
  · obtain ⟨done, text, rest, hsplit, hdone, hover⟩ :=
      exists_overflow (Nat.zero_le limit) (by rwa [Nat.zero_add])
    rw [Nat.zero_add] at hdone hover
    rw [plan.carryOut_of_overflow hsplit hdone hover]
    refine ⟨?_, ?_, (if_pos h).symm⟩
    · have hmin : min limit (written plan.actions).toUTF8.size = limit :=
        Nat.min_eq_left (Nat.le_of_lt h)
      have hall : (written plan.actions).toUTF8 =
          (written done).toUTF8 ++ (text.toUTF8 ++ (written rest).toUTF8) := by
        rw [hsplit, written_append, written_cons]
        rfl
      simp only [hmin]
      rw [hall]
      exact (extract_append_append hdone (Nat.le_of_lt hover)).symm
    · rw [hsplit, List.filter_toArray, filter_flushMarks_of_overflow hdone hover]
  · have hle := Nat.le_of_not_lt h
    rw [plan.carryOut_of_bears (bears_of_le hle), Progress.after_empty]
    refine ⟨?_, ?_, (if_neg h).symm⟩
    · have hmin : min limit (written plan.actions).toUTF8.size =
          (written plan.actions).toUTF8.size := Nat.min_eq_right hle
      simp only [hmin, ByteArray.extract_zero_size]
    · rw [List.filter_toArray, filter_flushMarks_of_le hle]

/-- Where a flush fails, a plan has done what it would do before that flush. -/
theorem flushFailed (n : Nat) (fault? : Option Fault) :
    (plan.carryOut {}).FlushFailed n (fault?.getD .flushFailed)
      (plan.carryOut { failingFlush? := some (n + 1), fault? }) := by
  rw [plan.carryOut_default, Run.FlushFailed]
  simp only [List.getElem?_toArray]
  split
  · next hn =>
    rw [plan.carryOut_of_bears (bears_of_length_le (List.getElem?_eq_none_iff.mp hn)),
      Progress.after_empty]
    exact ⟨rfl, rfl, rfl, rfl⟩
  · next size hn =>
    obtain ⟨done, rest, hsplit, hlen, hsize⟩ := exists_flush hn
    rw [Nat.zero_add] at hsize
    have hall : (written plan.actions).toUTF8 =
        (written done).toUTF8 ++ (written (.flush :: rest)).toUTF8 := by
      rw [hsplit, written_append]
      rfl
    rw [plan.carryOut_of_flush hsplit hlen]
    refine ⟨?_, ?_, rfl⟩
    · simp only
      rw [hall, hsize]
      exact (ByteArray.extract_append_eq_left rfl).symm
    · simp only
      rw [hsplit, flushMarks_append, ← hlen]
      simp

end Plan

namespace Session

/-- A session on a sink with room for so many bytes stores just the first bytes of what it writes
without a limit, has just the flushes that are within them, and fails on its output if there are
more, however its input ends. If it reads line by line and a flush fails, it has stored all bytes
before that flush and no others, has done the flushes before it, and fails on its output; where
there is no such flush, nothing changes. If it reads all at once, it does not flush. -/
theorem sessions_cut_off (prompt : String) (r : Reader) :
    (∀ limit fault?, ((lineByLine prompt r).carryOut {}).Limited limit
        (fault?.getD .nothingWritten)
        ((lineByLine prompt r).carryOut { limit? := some limit, fault? })) ∧
      (∀ limit fault?, ((allAtOnce r).carryOut {}).Limited limit
        (fault?.getD .nothingWritten)
        ((allAtOnce r).carryOut { limit? := some limit, fault? })) ∧
      (∀ n fault?, ((lineByLine prompt r).carryOut {}).FlushFailed n
        (fault?.getD .flushFailed)
        ((lineByLine prompt r).carryOut { failingFlush? := some (n + 1), fault? })) ∧
      ∀ n fault?, ((allAtOnce r).carryOut {}).Agrees
        ((allAtOnce r).carryOut { failingFlush? := some (n + 1), fault? }) := by
  refine ⟨(lineByLine prompt r).limited, (allAtOnce r).limited, (lineByLine prompt r).flushFailed,
    ?_⟩
  intro n fault?
  have hfailed := (allAtOnce r).flushFailed n fault?
  have hnone : ((allAtOnce r).carryOut {}).progress.sink.flushed[n]? = none := by
    rw [flushed_allAtOnce]
    rfl
  rwa [Run.FlushFailed, hnone] at hfailed

end Session
end MonkeyTokens
