import MonkeyTokens.Proofs.Reader.Delivery
import MonkeyTokens.Proofs.Text.Lines
import MonkeyTokens.Proofs.Text.Utf8
import MonkeyTokens.Reader.Lines

/-!
# The lines of a reader

A reader gives bytes if they are all it delivers, however they are cut into reads, and if nothing
goes wrong that is not tried again (`Gives`). From a reader that gives the bytes of a text just the
lines of that text are read (`Gives.lines_eq`).
-/

namespace MonkeyTokens

open Text

/-- Where reading failed, no line is had. -/
theorem Intake.line?_of_failed {got : Intake} {f : Fault} (h : got.stop? = some (.failed f)) :
    got.line? = .error f := by
  rw [line?, h]

/-- Where reading did not fail, the bytes decide about the line. -/
theorem Intake.line?_of_read (got : Intake) (h : ∀ f, got.stop? ≠ some (.failed f)) :
    got.line? =
      if got.bytes = [] then .ok none
      else match Utf8.decodeText? got.bytes with
        | none => .error .invalidText
        | some line => .ok (some line) := by
  unfold line?
  split
  · next f hf => exact absurd hf (h f)
  · rfl

namespace Reader

/-- The reads deliver these bytes and nothing else, and each that fails is made again. -/
inductive GivesReads : List Read → List UInt8 → Prop where
  | done : GivesReads [] []
  | ended {reads : List Read} (t : GivesReads reads []) : GivesReads (.chunk [] :: reads) []
  | chunk {b : UInt8} {bytes more : List UInt8} {reads : List Read} (t : GivesReads reads more) :
      GivesReads (.chunk (b :: bytes) :: reads) (b :: bytes ++ more)
  | again {f : Fault} {reads : List Read} {bytes : List UInt8} (h : f.isInterruption = true)
      (t : GivesReads reads bytes) : GivesReads (.fault f :: reads) bytes

/-- The reader delivers these bytes and nothing else, and each read that fails is made again. -/
def Gives (r : Reader) (bytes : List UInt8) : Prop := GivesReads r.reads bytes

/-- Bytes that are delivered in one read are given. -/
theorem gives_ofBytes (bytes : List UInt8) : (ofBytes bytes).Gives bytes := by
  cases bytes with
  | nil => exact .ended .done
  | cons b bytes =>
    have h : GivesReads [.chunk (b :: bytes)] (b :: bytes ++ []) := .chunk .done
    rwa [List.append_nil] at h

/-- What is given is delivered, and no fault follows. -/
theorem Gives.delivery_eq {r : Reader} {bytes : List UInt8} (h : r.Gives bytes) :
    r.delivery = ⟨bytes, none⟩ := by
  obtain ⟨reads⟩ := r
  change GivesReads reads bytes at h
  change deliveryOf reads = _
  induction h with
  | done => rfl
  | ended => rfl
  | chunk t ih => rw [deliveryOf, ih]
  | again h t ih => rw [deliveryOf, if_pos h, ih]

private theorem Gives.ask_cons {r : Reader} {b : UInt8} {bytes : List UInt8}
    (h : r.Gives (b :: bytes)) : ∃ rest, r.ask = (.ok b, rest) ∧ rest.Gives bytes := by
  obtain ⟨reads⟩ := r
  change GivesReads reads _ at h
  change ∃ rest, askReads reads = _ ∧ _
  generalize hall : b :: bytes = all at h
  induction h with
  | done => cases hall
  | ended => cases hall
  | @chunk c run more reads t =>
    cases hall
    cases run with
    | nil => exact ⟨_, rfl, t⟩
    | cons d run => exact ⟨_, rfl, .chunk t⟩
  | again h t ih =>
    obtain ⟨rest, ha, hr⟩ := ih hall
    rw [askReads, if_pos h]
    exact ⟨rest, ha, hr⟩

private theorem Gives.ask_nil {r : Reader} (h : r.Gives []) :
    ∃ rest, r.ask = (.error .endOfInput, rest) ∧ rest.Gives [] := by
  obtain ⟨reads⟩ := r
  change GivesReads reads _ at h
  change ∃ rest, askReads reads = _ ∧ _
  generalize hall : ([] : List UInt8) = all at h
  induction h with
  | done => exact ⟨_, rfl, .done⟩
  | ended t => exact ⟨_, rfl, t⟩
  | chunk => cases hall
  | again h t ih =>
    obtain ⟨rest, ha, hr⟩ := ih hall
    rw [askReads, if_pos h]
    exact ⟨rest, ha, hr⟩

/-- A byte that can be had starts the line, and ends it if it is a line feed. -/
theorem readLine_of_ask_ok {r rest : Reader} {b : UInt8} (h : r.ask = (.ok b, rest)) :
    r.readLine = if b = 10 then ⟨[b], none, rest⟩ else rest.readLine.cons b := by
  rw [readLine]
  split
  · next h' => rw [h] at h'; cases h'
  · next h' =>
    rw [h] at h'
    cases h'
    rfl

/-- Where no byte can be had, the line is over. -/
theorem readLine_of_ask_error {r rest : Reader} {stop : Stop} (h : r.ask = (.error stop, rest)) :
    r.readLine = ⟨[], some stop, rest⟩ := by
  rw [readLine]
  split
  · next h' =>
    rw [h] at h'
    cases h'
    rfl
  · next h' => rw [h] at h'; cases h'

private theorem Gives.readLine_of_feed {r : Reader} {u bytes : List UInt8}
    (h : r.Gives (u ++ 10 :: bytes)) (hu : 10 ∉ u) :
    ∃ rest, r.readLine = ⟨u ++ [10], none, rest⟩ ∧ rest.Gives bytes := by
  induction u generalizing r with
  | nil =>
    obtain ⟨rest, ha, hr⟩ := h.ask_cons
    rw [readLine_of_ask_ok ha, if_pos rfl]
    exact ⟨rest, rfl, hr⟩
  | cons b u ih =>
    rw [List.mem_cons, not_or] at hu
    obtain ⟨behind, ha, hb⟩ := h.ask_cons
    obtain ⟨rest, hl, hr⟩ := ih hb hu.2
    rw [readLine_of_ask_ok ha, if_neg (Ne.symm hu.1), hl]
    exact ⟨rest, rfl, hr⟩

private theorem Gives.readLine_of_notMem {r : Reader} {u : List UInt8} (h : r.Gives u)
    (hu : 10 ∉ u) : ∃ rest, r.readLine = ⟨u, some .endOfInput, rest⟩ ∧ rest.Gives [] := by
  induction u generalizing r with
  | nil =>
    obtain ⟨rest, ha, hr⟩ := h.ask_nil
    exact ⟨rest, readLine_of_ask_error ha, hr⟩
  | cons b u ih =>
    rw [List.mem_cons, not_or] at hu
    obtain ⟨behind, ha, hb⟩ := h.ask_cons
    obtain ⟨rest, hl, hr⟩ := ih hb hu.2
    rw [readLine_of_ask_ok ha, if_neg (Ne.symm hu.1), hl]
    exact ⟨rest, rfl, hr⟩

private theorem line?_of_encodeAll {got : Intake} {w : List Char} (ne : w ≠ [])
    (hb : got.bytes = Utf8.encodeAll w) (hs : ∀ f, got.stop? ≠ some (.failed f)) :
    got.line? = .ok (some (String.ofList w)) := by
  have hne : got.bytes ≠ [] := by
    obtain ⟨c, cs, rfl⟩ := List.exists_cons_of_ne_nil ne
    rw [hb, Utf8.encodeAll_cons]
    exact List.append_ne_nil_of_left_ne_nil (Utf8.encode_ne_nil c) _
  rw [got.line?_of_read hs, if_neg hne, hb, Utf8.decodeText?_encodeAll]

/-- The first line decides whether there are others. -/
theorem lines_eq (r : Reader) :
    r.lines = match r.readLine.line? with
      | .error f => ⟨[], some f⟩
      | .ok none => ⟨[], none⟩
      | .ok (some line) => r.readLine.rest.lines.cons line := by
  rw [lines]
  split
  · next h => rw [h]
  · next h => rw [h]
  · next h => rw [h]

private theorem Gives.lines_nil {r : Reader} (h : r.Gives []) : r.lines = ⟨[], none⟩ := by
  obtain ⟨rest, ha, -⟩ := h.ask_nil
  rw [r.lines_eq, readLine_of_ask_error ha]
  rfl

/-- The lines that are read from the bytes of a text are those of the text. -/
theorem Gives.lines_eq {r : Reader} {cs : List Char} (h : r.Gives (Utf8.encodeAll cs)) :
    r.lines = ⟨(splitLines cs).map String.ofList, none⟩ := by
  induction cs using splitLines_induction generalizing r with
  | nil => exact h.lines_nil
  | last w ne hw =>
    obtain ⟨rest, hl, hr⟩ := h.readLine_of_notMem (mt Utf8.feed_mem_encodeAll_iff.mp hw)
    have hline : r.readLine.line? = .ok (some (String.ofList w)) := by
      rw [hl]
      exact line?_of_encodeAll ne rfl (by simp)
    rw [r.lines_eq, hline, hl, hr.lines_nil, splitLines_of_notMem ne hw]
    rfl
  | line w behind hw ih =>
    have hcs : Utf8.encodeAll (w ++ '\n' :: behind) =
        Utf8.encodeAll w ++ 10 :: Utf8.encodeAll behind := Utf8.encodeAll_append w _
    rw [hcs] at h
    obtain ⟨rest, hl, hr⟩ := h.readLine_of_feed (mt Utf8.feed_mem_encodeAll_iff.mp hw)
    have hw' : Utf8.encodeAll w ++ [10] = Utf8.encodeAll (w ++ ['\n']) :=
      (Utf8.encodeAll_append w ['\n']).symm
    have hline : r.readLine.line? = .ok (some (String.ofList (w ++ ['\n']))) := by
      rw [hl]
      exact line?_of_encodeAll (by simp) hw' (by simp)
    rw [r.lines_eq, hline, hl, ih hr, splitLines_append_feed hw]
    rfl

end Reader
end MonkeyTokens
