import MonkeyTokens.Plan

/-!
# What actions do

What actions write, at how many bytes they flush and what they record can be told from the actions
alone (`written`, `flushMarks`, `Action.event?`). A sink bears actions if it has room for all that
they write and if the flush that fails is none of theirs. Then they all go well and do just that
(`performAll_of_bears`). Any plan either ends so, or stops at the first action that fails
(`Plan.carryOut_cases`).
-/

namespace MonkeyTokens

namespace Action

/-- The text that an action writes. -/
def text : Action → String
  | .write text => text
  | .record _ | .flush => ""

/-- The event that an action records. -/
def event? : Action → Option Event
  | .record e => some e
  | .write _ | .flush => none

/-- All that actions write. -/
def written (actions : List Action) : String := String.join (actions.map text)

/-- How many bytes are written at each flush, if there are `n` of them before the first action. -/
def flushMarks (n : Nat) : List Action → List Nat
  | [] => []
  | .record _ :: actions => flushMarks n actions
  | .write text :: actions => flushMarks (n + text.utf8ByteSize) actions
  | .flush :: actions => n :: flushMarks n actions

/-- The first action writes first. -/
theorem written_cons (action : Action) (actions : List Action) :
    written (action :: actions) = action.text ++ written actions := by
  rw [written, List.map_cons, String.join_cons, written]

/-- Actions write one after the other. -/
theorem written_append (first rest : List Action) :
    written (first ++ rest) = written first ++ written rest := by
  rw [written, List.map_append, String.join_append, written, written]

private theorem size_written_append (first rest : List Action) :
    (written (first ++ rest)).utf8ByteSize =
      (written first).utf8ByteSize + (written rest).utf8ByteSize := by
  rw [written_append, String.utf8ByteSize_append]

/-- What one action flushes comes before what the others do. -/
theorem flushMarks_cons (n : Nat) (action : Action) (actions : List Action) :
    flushMarks n (action :: actions) =
      flushMarks n [action] ++ flushMarks (n + action.text.utf8ByteSize) actions := by
  cases action <;> rfl

/-- The flushes of the first actions come first. -/
theorem flushMarks_append (n : Nat) (first rest : List Action) :
    flushMarks n (first ++ rest) =
      flushMarks n first ++ flushMarks (n + (written first).utf8ByteSize) rest := by
  induction first generalizing n with
  | nil => rfl
  | cons action first ih =>
    rw [List.cons_append, flushMarks_cons, ih, flushMarks_cons n action first, written_cons,
      String.utf8ByteSize_append, List.append_assoc, Nat.add_assoc]

/-- Actions flush somewhere between their first byte and their last. -/
theorem flushMarks_bounds (n : Nat) (actions : List Action) :
    ∀ m ∈ flushMarks n actions, n ≤ m ∧ m ≤ n + (written actions).utf8ByteSize := by
  induction actions generalizing n with
  | nil => simp [flushMarks]
  | cons action actions ih =>
    rw [written_cons, String.utf8ByteSize_append, flushMarks_cons]
    intro m hm
    rcases List.mem_append.mp hm with hm | hm
    · have hself : m = n := by
        cases action <;> simp_all [flushMarks]
      omega
    · have hrest := ih _ m hm
      omega

/-- There is one mark for each flush. -/
theorem length_flushMarks (n : Nat) (actions : List Action) :
    (flushMarks n actions).length = actions.count .flush := by
  induction actions generalizing n with
  | nil => rfl
  | cons action actions ih =>
    rw [flushMarks_cons, List.length_append, ih, List.count_cons, Nat.add_comm]
    cases action <;> rfl

/-- Where there is no flush there is no mark. -/
theorem flushMarks_of_notMem {actions : List Action} (h : .flush ∉ actions) (n : Nat) :
    flushMarks n actions = [] := by
  rw [← List.length_eq_zero_iff, length_flushMarks, List.count_eq_zero]
  exact h

end Action

open MonkeyTokens.Action

/-- The same progress with these actions done. -/
def Progress.after (p : Progress) (actions : List Action) : Progress where
  sink := { p.sink with
    stored := p.sink.stored ++ (written actions).toUTF8
    flushed := p.sink.flushed ++ (flushMarks p.sink.stored.size actions).toArray }
  log := p.log ++ (actions.filterMap event?).toArray

/-- Doing nothing changes nothing. -/
@[simp] theorem Progress.after_nil (p : Progress) : p.after [] = p := by
  simp [Progress.after, written, flushMarks]

/-- An event is recorded behind the others. -/
theorem Progress.after_record (p : Progress) (e : Event) :
    p.after [.record e] = { p with log := p.log.push e } := by
  simp [Progress.after, written, text, flushMarks, event?]

/-- A text is stored behind the others. -/
theorem Progress.after_write (p : Progress) (text : String) :
    p.after [.write text] = { p with sink := p.sink.store text.toUTF8 } := by
  simp [Progress.after, written, Action.text, flushMarks, List.filterMap_cons, event?, Sink.store]

/-- A flush remembers how much is stored. -/
theorem Progress.after_flush (p : Progress) :
    p.after [.flush] =
      { p with sink := { p.sink with flushed := p.sink.flushed.push p.sink.stored.size } } := by
  simp [Progress.after, written, text, flushMarks, List.filterMap_cons, event?]

private theorem Progress.size_after (p : Progress) (actions : List Action) :
    (p.after actions).sink.stored.size =
      p.sink.stored.size + (written actions).utf8ByteSize := by
  rw [Progress.after, ByteArray.size_append]
  rfl

/-- The number of flushes grows by those that are done. -/
theorem Progress.size_flushed_after (p : Progress) (actions : List Action) :
    (p.after actions).sink.flushed.size = p.sink.flushed.size + actions.count .flush := by
  simp only [Progress.after, Array.size_append, List.size_toArray, length_flushMarks]

/-- The events of actions are recorded behind the others. -/
theorem Progress.log_after (p : Progress) (actions : List Action) :
    (p.after actions).log.toList = p.log.toList ++ actions.filterMap event? := by
  rw [Progress.after, Array.toList_append, List.toList_toArray]

/-- Actions are done one after the other. -/
theorem Progress.after_append (p : Progress) (first rest : List Action) :
    (p.after first).after rest = p.after (first ++ rest) := by
  have hstored : (p.after first).sink.stored ++ (written rest).toUTF8 =
      p.sink.stored ++ (written (first ++ rest)).toUTF8 := by
    rw [written_append, Progress.after, ByteArray.append_assoc]
    rfl
  have hflushed : (p.after first).sink.flushed ++
      (flushMarks (p.after first).sink.stored.size rest).toArray =
        p.sink.flushed ++ (flushMarks p.sink.stored.size (first ++ rest)).toArray := by
    rw [p.size_after, flushMarks_append]
    simp [Progress.after]
  have hlog : (p.after first).log ++ (rest.filterMap event?).toArray =
      p.log ++ ((first ++ rest).filterMap event?).toArray := by
    simp [Progress.after]
  rw [Progress.after, hstored, hflushed, hlog]
  rfl

/-- On an empty sink there is just what these actions do. -/
theorem Progress.after_empty (limit? failingFlush? : Option Nat) (fault? : Option Fault)
    (actions : List Action) :
    Progress.after { sink := { limit?, failingFlush?, fault? } } actions =
      { sink := {
          limit?, failingFlush?, fault?
          stored := (written actions).toUTF8
          flushed := (flushMarks 0 actions).toArray }
        log := (actions.filterMap event?).toArray } := by
  simp [Progress.after]

/-- The sink has room for all that the actions write, and the flush that fails is none of theirs. -/
structure Sink.Bears (s : Sink) (actions : List Action) : Prop where
  room : ∀ limit ∈ s.limit?, s.stored.size + (written actions).utf8ByteSize ≤ limit
  flushes : ∀ f ∈ s.failingFlush?, s.flushed.size + actions.count .flush < f

private theorem Sink.Bears.split {p : Progress} {first rest : List Action}
    (h : p.sink.Bears (first ++ rest)) :
    p.sink.Bears first ∧ (p.after first).sink.Bears rest := by
  obtain ⟨room, flushes⟩ := h
  rw [size_written_append, ← Nat.add_assoc] at room
  rw [List.count_append, ← Nat.add_assoc] at flushes
  refine ⟨⟨?_, ?_⟩, ?_, ?_⟩
  · intro limit hl
    exact Nat.le_of_add_right_le (room limit hl)
  · intro f hf
    exact Nat.lt_of_le_of_lt (Nat.le_add_right _ _) (flushes f hf)
  · rwa [p.size_after]
  · rwa [p.size_flushed_after]

namespace Action

private theorem perform_of_bears {p : Progress} {action : Action} (h : p.sink.Bears [action]) :
    action.perform p = (none, p.after [action]) := by
  cases action with
  | record e =>
    rw [p.after_record]
    rfl
  | write text =>
    have hwrite : p.sink.write text.toUTF8 = (none, p.sink.store text.toUTF8) := by
      apply Sink.write_of_room
      intro limit hl
      have hroom := h.room limit hl
      rwa [written_cons, String.utf8ByteSize_append] at hroom
    rw [perform, hwrite, p.after_write]
    rfl
  | flush =>
    have hflush : p.sink.failingFlush? ≠ some (p.sink.flushed.size + 1) := by
      intro hf
      exact Nat.lt_irrefl _ (h.flushes _ hf)
    rw [perform, Sink.flush, if_neg hflush, p.after_flush]
    rfl

/-- Actions that the sink bears all go well. -/
theorem performAll_of_bears {p : Progress} {actions : List Action} (h : p.sink.Bears actions) :
    performAll actions p = (none, p.after actions) := by
  induction actions generalizing p with
  | nil => rw [performAll, p.after_nil]
  | cons action actions ih =>
    have hsplit : action :: actions = [action] ++ actions := rfl
    rw [hsplit] at h ⊢
    obtain ⟨hfirst, hrest⟩ := h.split
    rw [← p.after_append, ← ih hrest, List.singleton_append, performAll, perform_of_bears hfirst]

private theorem performAll_of_fails {p q : Progress} {done rest : List Action} {action : Action}
    {f : Fault} (h : p.sink.Bears done) (hf : action.perform (p.after done) = (some f, q)) :
    performAll (done ++ action :: rest) p = (some f, q) := by
  induction done generalizing p with
  | nil =>
    rw [p.after_nil] at hf
    rw [List.nil_append, performAll, hf]
  | cons first done ih =>
    have hsplit : first :: done = [first] ++ done := rfl
    rw [hsplit] at h hf
    obtain ⟨hfirst, hdone⟩ := h.split
    rw [← p.after_append] at hf
    rw [List.cons_append, performAll, perform_of_bears hfirst]
    exact ih hdone hf

/-- An action fails, with this fault and this progress: a write of which only the first bytes are
stored, or the flush that is to fail. -/
inductive Fails (p : Progress) : Action → Fault → Progress → Prop where
  | write {text : String} {n : Nat} (part : n < text.utf8ByteSize) :
      Fails p (.write text) (p.sink.fault?.getD .nothingWritten)
        { p with sink := p.sink.store (text.toUTF8.extract 0 n) }
  | flush (last : p.sink.failingFlush? = some (p.sink.flushed.size + 1)) :
      Fails p .flush (p.sink.fault?.getD .flushFailed) p

private theorem perform_cases (action : Action) (p : Progress) :
    action.perform p = (none, p.after [action]) ∨
      ∃ f q, action.perform p = (some f, q) ∧ Fails p action f q := by
  cases action with
  | record e =>
    left
    rw [p.after_record]
    rfl
  | write text =>
    by_cases hroom : p.sink.room text.toUTF8.size = text.toUTF8.size
    · left
      rw [perform, Sink.write, if_pos hroom, p.after_write]
      rfl
    · right
      rw [perform, Sink.write, if_neg hroom]
      exact ⟨_, _, rfl, .write (Nat.lt_of_le_of_ne (p.sink.room_le _) hroom)⟩
  | flush =>
    by_cases hflush : p.sink.failingFlush? = some (p.sink.flushed.size + 1)
    · right
      rw [perform, Sink.flush, if_pos hflush]
      exact ⟨_, _, rfl, .flush hflush⟩
    · left
      rw [perform, Sink.flush, if_neg hflush, p.after_flush]
      rfl

private theorem performAll_cases (actions : List Action) (p : Progress) :
    performAll actions p = (none, p.after actions) ∨
      ∃ done action rest f q, actions = done ++ action :: rest ∧
        performAll actions p = (some f, q) ∧ Fails (p.after done) action f q := by
  induction actions generalizing p with
  | nil =>
    left
    rw [performAll, p.after_nil]
  | cons action actions ih =>
    rcases action.perform_cases p with hnext | ⟨f, q, hf, hfails⟩
    · have hall : performAll (action :: actions) p = performAll actions (p.after [action]) := by
        rw [performAll, hnext]
      rw [hall]
      rcases ih (p.after [action]) with hdone | ⟨done, next, rest, f, q, rfl, hf, hfails⟩
      · left
        rw [hdone, p.after_append]
        rfl
      · right
        rw [p.after_append] at hfails
        exact ⟨action :: done, next, rest, f, q, rfl, hf, hfails⟩
    · right
      refine ⟨[], action, actions, f, q, rfl, ?_, ?_⟩
      · rw [performAll, hf]
      · rwa [p.after_nil]

end Action

namespace Plan

variable {α : Type}

/-- On a sink that bears all of its actions a plan ends as planned. -/
theorem carryOut_of_bears (plan : Plan α) {sink : Sink} (h : sink.Bears plan.actions) :
    plan.carryOut sink = ⟨Progress.after { sink } plan.actions, plan.result⟩ := by
  rw [carryOut, performAll_of_bears h]

/-- A plan ends with the first action that fails. -/
theorem carryOut_of_fails (plan : Plan α) {sink : Sink} {done rest : List Action} {action : Action}
    (hsplit : plan.actions = done ++ action :: rest) (h : sink.Bears done) {f : Fault}
    {q : Progress} (hf : action.perform (Progress.after { sink } done) = (some f, q)) :
    plan.carryOut sink = ⟨q, .error (.output f)⟩ := by
  rw [carryOut, hsplit, performAll_of_fails h hf]

/-- A plan ends as planned, or with the first action that fails. -/
theorem carryOut_cases (plan : Plan α) (sink : Sink) :
    plan.carryOut sink = ⟨Progress.after { sink } plan.actions, plan.result⟩ ∨
      ∃ done action rest f q, plan.actions = done ++ action :: rest ∧
        plan.carryOut sink = ⟨q, .error (.output f)⟩ ∧
        Fails (Progress.after { sink } done) action f q := by
  rcases performAll_cases plan.actions { sink } with h | ⟨done, action, rest, f, q, hs, hf, hfails⟩
  · left
    rw [carryOut, h]
  · right
    refine ⟨done, action, rest, f, q, hs, ?_, hfails⟩
    rw [carryOut, hf]

end Plan
end MonkeyTokens
