import MonkeyTokens.Directory
import MonkeyTokens.Proofs.Text.OneLine

/-!
# What opening a file comes to

A path leads to a file, whose bytes are delivered in one read, or to a directory, which fails to be
read (`Directory.reads_of_openFile`), or it cannot be opened, for one of three reasons. All of these
faults are in one line.
-/

namespace MonkeyTokens.Directory

open Text

private theorem eq_of_enter {d : Directory} {name : String} {f : Fault}
    (h : d.enter name = .error f) : f = .noSuchFile := by
  unfold enter at h
  split at h
  · cases h
  · cases h
  · cases h
    rfl

private theorem mem_of_follow {d : Directory} {place : Place} {part : String} {f : Fault}
    (h : d.follow place part = .error f) : f ∈ [.noSuchFile, .notADirectory, .nameTooLong] := by
  unfold follow at h
  split at h
  · -- a file has nothing below it
    cases h
    decide
  · by_cases hstay : part = "" ∨ part = "."
    · rw [if_pos hstay] at h
      cases h
    · rw [if_neg hstay] at h
      by_cases hup : part = ".."
      · rw [if_pos hup] at h
        split at h
        · cases h
        · cases h
      · rw [if_neg hup] at h
        by_cases hlong : nameLimit < part.utf8ByteSize
        · rw [if_pos hlong] at h
          cases h
          decide
        · rw [if_neg hlong] at h
          split at h
          · rw [eq_of_enter h]
            decide
          · cases h
            decide

private theorem mem_of_foldlM {d : Directory} {place : Place} {parts : List String} {f : Fault}
    (h : parts.foldlM d.follow place = .error f) :
    f ∈ [.noSuchFile, .notADirectory, .nameTooLong] := by
  induction parts generalizing place with
  | nil => cases h
  | cons part parts ih =>
    rw [List.foldlM_cons] at h
    cases hnext : d.follow place part with
    | error g =>
      rw [hnext] at h
      cases h
      exact mem_of_follow hnext
    | ok next =>
      rw [hnext] at h
      exact ih h

private theorem mem_of_resolve {d : Directory} {path : String} {f : Fault}
    (h : d.resolve path = .error f) : f ∈ [.noSuchFile, .notADirectory, .nameTooLong] := by
  unfold resolve at h
  by_cases hempty : path = ""
  · rw [if_pos hempty] at h
    cases h
    decide
  · rw [if_neg hempty] at h
    by_cases hlong : pathLimit < path.utf8ByteSize
    · rw [if_pos hlong] at h
      cases h
      decide
    · rw [if_neg hlong] at h
      exact mem_of_foldlM h

/-- A path that cannot be opened fails with a fault in one line. -/
theorem oneLine_of_openFile {d : Directory} {path : String} {f : Fault}
    (h : d.openFile path = .error f) : OneLine f.message := by
  have hfaults : ∀ g ∈ [Fault.noSuchFile, .notADirectory, .nameTooLong], OneLine g.message := by
    decide
  have hresolve : d.resolve path = .error f := by
    unfold openFile at h
    cases hr : d.resolve path with
    | error g =>
      rw [hr] at h
      cases h
      rfl
    | ok place =>
      rw [hr] at h
      cases place <;> cases h
  exact hfaults f (mem_of_resolve hresolve)

/-- What was opened is a file, or a directory that cannot be read. -/
theorem reads_of_openFile {d : Directory} {path : String} {file : Reader}
    (h : d.openFile path = .ok file) :
    file.reads = [.fault .isADirectory] ∨ ∃ bytes, file.reads = [.chunk bytes] := by
  unfold openFile at h
  cases hr : d.resolve path with
  | error g =>
    rw [hr] at h
    cases h
  | ok place =>
    rw [hr] at h
    cases place with
    | file bytes =>
      cases h
      exact .inr ⟨bytes, rfl⟩
    | above | top | below =>
      cases h
      exact .inl rfl

/-- A file is opened under its name. -/
theorem openFile_of_lookup {d : Directory} {name : String} {bytes : List UInt8}
    (plain : name ∉ ["", ".", ".."]) (part : '/' ∉ name.toList)
    (short : name.utf8ByteSize ≤ nameLimit) (h : d.entries.lookup name = some (.file bytes)) :
    d.openFile name = .ok (.ofBytes bytes) := by
  have hsplit : name.toList.splitOn '/' = [name.toList] := by
    apply List.splitOnP_eq_singleton
    intro c hc
    rw [beq_eq_false_iff_ne]
    rintro rfl
    exact part hc
  obtain ⟨hempty, hhere, habove⟩ : name ≠ "" ∧ name ≠ "." ∧ name ≠ ".." := by
    simpa using plain
  have hstart : name.toList.head? ≠ some '/' := by
    intro hhead
    exact part (List.mem_of_head? hhead)
  have hpath : ¬ pathLimit < name.utf8ByteSize := by
    have hlimits : nameLimit ≤ pathLimit := by decide
    omega
  have hfollow : d.follow .top name = .ok (.file bytes) := by
    simp only [follow, hempty, hhere, habove, or_self, if_false, if_neg (Nat.not_lt.mpr short),
      enter, h]
  have hresolve : d.resolve name = .ok (.file bytes) := by
    rw [resolve, if_neg hempty, if_neg hpath, if_neg hstart, hsplit, List.map_singleton,
      String.ofList_toList, List.foldlM_cons, hfollow]
    rfl
  rw [openFile, hresolve]
  rfl

end MonkeyTokens.Directory
