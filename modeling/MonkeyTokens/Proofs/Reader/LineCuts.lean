import MonkeyTokens.Proofs.Reader.Lines

/-!
# Cutting an input into lines

All that a reader has to say can be put down without asking it: its bytes one by one, and between
them the stops (`Reader.answers`). A first line is cut from these answers (`CutsLine`), then the
next one, until the input ends or a line cannot be had (`HasLines`). The lines that are read from a
reader are just those that its answers have (`hasLines_iff`), so none of the bytes of one line are
left for the next.
-/

namespace MonkeyTokens

open Text

/-- What there is to say of one read, byte by byte. There is nothing to say of a read that is made
again. -/
def Read.answers : Read → List (Except Stop UInt8)
  | .chunk [] => [.error .endOfInput]
  | .chunk (b :: bytes) => (b :: bytes).map .ok
  | .fault f => if f.isInterruption then [] else [.error (.failed f)]

namespace Reader

/-- What the reader has to say up to its last read; behind it the input has ended for good. -/
def answers (r : Reader) : List (Except Stop UInt8) := r.reads.flatMap Read.answers

private theorem answers_askReads (reads : List Read) :
    (askReads reads).1 = (Reader.mk reads).answers.headD (.error .endOfInput) ∧
      (askReads reads).2.answers = (Reader.mk reads).answers.tail := by
  fun_induction askReads reads with
  | case1 | case2 | case3 | case4 => exact ⟨rfl, rfl⟩
  | case5 f rest h ih =>
    rw [answers, List.flatMap_cons, Read.answers, if_pos h]
    exact ih
  | case6 f rest h =>
    rw [answers, List.flatMap_cons, Read.answers, if_neg h]
    exact ⟨rfl, rfl⟩

private theorem answers_ask (r : Reader) :
    r.ask.1 = r.answers.headD (.error .endOfInput) ∧ r.ask.2.answers = r.answers.tail :=
  answers_askReads r.reads

private theorem ask_of_answers_cons {r : Reader} {a : Except Stop UInt8}
    {as : List (Except Stop UInt8)}
    (h : r.answers = a :: as) : ∃ rest, r.ask = (a, rest) ∧ rest.answers = as := by
  have hask := r.answers_ask
  rw [h] at hask
  exact ⟨_, Prod.ext hask.1 rfl, hask.2⟩

private theorem ask_of_answers_nil {r : Reader} (h : r.answers = []) :
    ∃ rest, r.ask = (.error .endOfInput, rest) ∧ rest.answers = [] := by
  have hask := r.answers_ask
  rw [h] at hask
  exact ⟨_, Prod.ext hask.1 rfl, hask.2⟩

end Reader

/-- The first line of some answers: its bytes, the stop that ends it if no line feed does, and the
answers behind it. -/
inductive CutsLine :
    List (Except Stop UInt8) → List UInt8 → Option Stop → List (Except Stop UInt8) → Prop where
  /-- A line goes up to and including its first line feed. -/
  | feed {u : List UInt8} {rest : List (Except Stop UInt8)} (hu : 10 ∉ u) :
    CutsLine (u.map .ok ++ .ok 10 :: rest) (u ++ [10]) none rest
  /-- A stop that comes first ends the line as well. -/
  | stop {u : List UInt8} {s : Stop} {rest : List (Except Stop UInt8)} (hu : 10 ∉ u) :
    CutsLine (u.map .ok ++ .error s :: rest) u (some s) rest
  /-- Behind the last answer the input has ended. -/
  | last {u : List UInt8} (hu : 10 ∉ u) : CutsLine (u.map .ok) u (some .endOfInput) []

section CutsLine

variable {as rest : List (Except Stop UInt8)} {bytes : List UInt8} {s? : Option Stop}

private theorem CutsLine.cons {b : UInt8} (hb : b ≠ 10) (h : CutsLine as bytes s? rest) :
    CutsLine (.ok b :: as) (b :: bytes) s? rest := by
  have hmem {u : List UInt8} (hu : 10 ∉ u) : 10 ∉ b :: u := by
    rw [List.mem_cons, not_or]
    exact ⟨Ne.symm hb, hu⟩
  cases h with
  | feed hu => exact .feed (hmem hu)
  | stop hu => exact .stop (hmem hu)
  | last hu => exact .last (hmem hu)

private theorem CutsLine.exists (as : List (Except Stop UInt8)) :
    ∃ bytes s? rest, CutsLine as bytes s? rest := by
  induction as with
  | nil => exact ⟨[], _, [], .last List.not_mem_nil⟩
  | cons a as ih =>
    cases a with
    | error s => exact ⟨[], _, as, .stop List.not_mem_nil⟩
    | ok b =>
      by_cases hb : b = 10
      · subst hb
        exact ⟨[10], _, as, .feed List.not_mem_nil⟩
      · obtain ⟨bytes, s?, rest, h⟩ := ih
        exact ⟨b :: bytes, s?, rest, h.cons hb⟩

private theorem CutsLine.length_add_le (h : CutsLine as bytes s? rest) :
    bytes.length + rest.length ≤ as.length := by
  cases h with
  | feed | stop | last =>
    simp only [List.length_append, List.length_map, List.length_cons, List.length_nil]
    omega

private theorem CutsLine.rest_subset (h : CutsLine as bytes s? rest) : rest ⊆ as := by
  cases h with
  | feed | stop =>
    apply List.subset_append_of_subset_right
    exact List.subset_cons_self _ _
  | last => exact List.nil_subset _

end CutsLine

namespace Reader

private theorem readLine_of_answers_append {r : Reader} {u : List UInt8}
    {tail : List (Except Stop UInt8)} (h : r.answers = u.map .ok ++ tail) (hu : 10 ∉ u) :
    ∃ behind : Reader, behind.answers = tail ∧
      r.readLine = { behind.readLine with bytes := u ++ behind.readLine.bytes } := by
  induction u generalizing r with
  | nil => exact ⟨r, h, rfl⟩
  | cons b u ih =>
    rw [List.mem_cons, not_or] at hu
    obtain ⟨rest, ha, hr⟩ := ask_of_answers_cons h
    obtain ⟨behind, hb, hl⟩ := ih hr hu.2
    refine ⟨behind, hb, ?_⟩
    rw [readLine_of_ask_ok ha, if_neg (Ne.symm hu.1), hl]
    rfl

private theorem readLine_of_cutsLine {r : Reader} {bytes : List UInt8} {s? : Option Stop}
    {rest : List (Except Stop UInt8)} (h : CutsLine r.answers bytes s? rest) :
    r.readLine.bytes = bytes ∧ r.readLine.stop? = s? ∧ r.readLine.rest.answers = rest := by
  generalize hr : r.answers = as at h
  cases h with
  | feed hu =>
    obtain ⟨behind, hb, hl⟩ := readLine_of_answers_append hr hu
    obtain ⟨last, ha, hlast⟩ := ask_of_answers_cons hb
    rw [hl, readLine_of_ask_ok ha, if_pos rfl]
    exact ⟨rfl, rfl, hlast⟩
  | stop hu =>
    obtain ⟨behind, hb, hl⟩ := readLine_of_answers_append hr hu
    obtain ⟨last, ha, hlast⟩ := ask_of_answers_cons hb
    rw [hl, readLine_of_ask_error ha]
    exact ⟨List.append_nil _, rfl, hlast⟩
  | last hu =>
    rw [← List.append_nil (List.map _ _)] at hr
    obtain ⟨behind, hb, hl⟩ := readLine_of_answers_append hr hu
    obtain ⟨last, ha, hlast⟩ := ask_of_answers_nil hb
    rw [hl, readLine_of_ask_error ha]
    exact ⟨List.append_nil _, rfl, hlast⟩

end Reader

/-- The lines of some answers that come before the first one that is empty, that cannot be read, or
that is no text, and the fault that ends them in the last two cases. -/
inductive HasLines : List (Except Stop UInt8) → LineInput → Prop where
  /-- A line without a byte is the end of the input. -/
  | ended {as rest : List (Except Stop UInt8)} {s? : Option Stop} (cut : CutsLine as [] s? rest)
      (read : ∀ f, s? ≠ some (.failed f)) :
    HasLines as ⟨[], none⟩
  /-- A line that could not be read to its end is not handed on, whatever its bytes are. -/
  | failed {as rest : List (Except Stop UInt8)} {bytes : List UInt8} {f : Fault}
      (cut : CutsLine as bytes (some (.failed f)) rest) :
    HasLines as ⟨[], some f⟩
  /-- Nor is one whose bytes are those of no text. -/
  | invalid {as rest : List (Except Stop UInt8)} {bytes : List UInt8} {s? : Option Stop}
      (cut : CutsLine as bytes s? rest) (read : ∀ f, s? ≠ some (.failed f))
      (h : ∀ line : String, line.toUTF8.data.toList ≠ bytes) :
    HasLines as ⟨[], some .invalidText⟩
  /-- A line that is not empty is handed on, and the others come behind it. -/
  | line {as rest : List (Except Stop UInt8)} {line : String} {s? : Option Stop}
      {input : LineInput} (cut : CutsLine as line.toUTF8.data.toList s? rest)
      (read : ∀ f, s? ≠ some (.failed f)) (ne : line.toUTF8.data.toList ≠ [])
      (behind : HasLines rest input) :
    HasLines as (input.cons line)

/-- All answers have lines. -/
theorem HasLines.exists (as : List (Except Stop UInt8)) : ∃ input, HasLines as input := by
  induction hn : as.length using Nat.strongRecOn generalizing as with
  | ind n ih =>
    obtain ⟨bytes, s?, rest, cut⟩ := CutsLine.exists as
    have hlen := cut.length_add_le
    by_cases hfailed : ∃ f, s? = some (.failed f)
    · obtain ⟨f, rfl⟩ := hfailed
      exact ⟨_, .failed cut⟩
    · have read := not_exists.mp hfailed
      by_cases hnil : bytes = []
      · subst hnil
        exact ⟨_, .ended cut read⟩
      · have hpos := List.length_pos_iff.mpr hnil
        by_cases hline : ∃ line : String, line.toUTF8.data.toList = bytes
        · obtain ⟨line, rfl⟩ := hline
          obtain ⟨input, behind⟩ := ih rest.length (by omega) rest rfl
          exact ⟨_, .line cut read hnil behind⟩
        · exact ⟨_, .invalid cut read (not_exists.mp hline)⟩

/-- What ends the lines is bytes that are those of no text, or the failure of an answer. -/
theorem HasLines.fault_cases {as : List (Except Stop UInt8)} {input : LineInput}
    (h : HasLines as input) :
    ∀ f ∈ input.fault?, f = .invalidText ∨ .error (.failed f) ∈ as := by
  induction h with
  | ended => rintro f ⟨⟩
  | failed cut =>
    rintro f ⟨⟩
    cases cut with
    | stop => exact .inr (by simp)
  | invalid =>
    rintro f ⟨⟩
    exact .inl rfl
  | line cut _ _ _ ih =>
    intro f hf
    exact (ih f hf).imp_right fun hrest ↦ cut.rest_subset hrest

namespace Reader

private theorem lines_of_hasLines {r : Reader} {input : LineInput} (h : HasLines r.answers input) :
    r.lines = input := by
  generalize hr : r.answers = as at h
  induction h generalizing r with
  | ended cut read =>
    subst hr
    obtain ⟨hbytes, rfl, -⟩ := readLine_of_cutsLine cut
    rw [r.lines_eq, r.readLine.line?_of_read read, if_pos hbytes]
  | failed cut =>
    subst hr
    obtain ⟨-, hstop, -⟩ := readLine_of_cutsLine cut
    rw [r.lines_eq, Intake.line?_of_failed hstop]
  | invalid cut read h =>
    subst hr
    obtain ⟨rfl, rfl, -⟩ := readLine_of_cutsLine cut
    have hne : r.readLine.bytes ≠ [] := by
      intro hnil
      exact h "" hnil.symm
    have hnone : Utf8.decodeText? r.readLine.bytes = none := by
      rw [Option.eq_none_iff_forall_ne_some]
      intro line hline
      exact h line (Utf8.decodeText?_eq_some_iff.mp hline)
    rw [r.lines_eq, r.readLine.line?_of_read read, if_neg hne, hnone]
  | line cut read ne behind ih =>
    subst hr
    obtain ⟨hbytes, rfl, hrest⟩ := readLine_of_cutsLine cut
    rw [← hbytes] at ne
    rw [r.lines_eq, r.readLine.line?_of_read read, if_neg ne,
      Utf8.decodeText?_eq_some_iff.mpr hbytes.symm, ih hrest]

/-- An answer fails only where a read does. -/
theorem fault_mem_reads_of_answers {r : Reader} {f : Fault}
    (h : .error (.failed f) ∈ r.answers) : .fault f ∈ r.reads := by
  obtain ⟨read, hread, hanswer⟩ := List.mem_flatMap.mp h
  cases read with
  | chunk bytes => cases bytes <;> simp [Read.answers] at hanswer
  | fault g =>
    by_cases hg : g.isInterruption = true
    · simp [Read.answers, hg] at hanswer
    · simp only [Read.answers, if_neg hg, List.mem_singleton, Except.error.injEq,
        Stop.failed.injEq] at hanswer
      rwa [hanswer]

/-- The answers of a reader have just the lines that are read. -/
theorem hasLines_iff {r : Reader} {input : LineInput} :
    HasLines r.answers input ↔ r.lines = input := by
  constructor
  · exact lines_of_hasLines
  · rintro rfl
    obtain ⟨input, h⟩ := HasLines.exists r.answers
    rwa [lines_of_hasLines h]

end Reader
end MonkeyTokens
