import Mathlib.Algebra.Group.Nat.Defs
import MonkeyTokens.Proofs.Session.AllAtOnce
import MonkeyTokens.Proofs.Session.LineByLine

/-!
# Line by line and all at once

Over the bytes of a text a session that reads its input line by line, each line as a text of its
own, writes the same tokens as a session that reads all of its input at once, which numbers the
lines (`lineByLine_agrees_allAtOnce`).
-/

namespace MonkeyTokens.Session

open MonkeyTokens.Action Text

/-- The tokens of every line of a text, each line read as a text of its own, with the number of the
line. -/
def numberedTokens (text : String) : List (Nat × Token) :=
  ((splitLines text.toList).zipIdx 1).flatMap fun line ↦
    (tokenize (String.ofList line.1)).dropLast.map fun t ↦ (line.2, t)

/-- What a session that reads line by line and one that reads all at once do with one text. -/
structure Agreement (text : String) (r s : Reader) : Prop where
  /-- The first one ends well. -/
  lines_result : ((lineByLine "" r).carryOut {}).result = .ok ()
  /-- So does the second one, and has as many tokens as there are in all lines. -/
  whole_result : ((allAtOnce s).carryOut {}).result = .ok (numberedTokens text).length
  /-- The first one writes the tokens of every line as they are. -/
  lines_stored : ((lineByLine "" r).carryOut {}).progress.sink.stored =
    (renderLines ((numberedTokens text).map Prod.snd)).toUTF8
  /-- The second one writes the same tokens, each with the number of its line. -/
  whole_stored : ((allAtOnce s).carryOut {}).progress.sink.stored =
    (renderLines ((numberedTokens text).map fun x ↦ x.2.onLine x.1)).toUTF8
  /-- As they are, all tokens are on the first line. -/
  first_line : ∀ x ∈ numberedTokens text, x.2.position.line = 1

private theorem dropLast_tokenize_ofList (cs : List Char) :
    (tokenize (String.ofList cs)).dropLast = (View.ofChars cs).tokens := by
  rw [dropLast_tokenize, String.toList_ofList]

private theorem map_snd_numberedTokens (text : String) :
    (numberedTokens text).map Prod.snd =
      (splitLines text.toList).flatMap fun line ↦ (View.ofChars line).tokens := by
  have hfst := List.zipIdx_map_fst 1 (splitLines text.toList)
  conv_rhs => rw [← hfst, List.flatMap_map]
  simp only [numberedTokens, dropLast_tokenize_ofList, List.map_flatMap, List.map_map]
  simp [Function.comp_def]

private theorem map_onLine_numberedTokens {text : String} (h : text.length < 2 ^ 32) :
    ((numberedTokens text).map fun x ↦ x.2.onLine x.1) = (View.ofChars text.toList).tokens := by
  have hlen : 1 + text.toList.length ≤ Position.limit + 1 := by
    rw [String.length_toList, Position.limit]
    omega
  have hstart : (View.ofChars text.toList).tokens = (View.mk text.toList ⟨1, 1⟩).tokens := by
    cases hcs : text.toList with
    | nil => rw [View.tokens_of_blank rfl, View.tokens_of_blank rfl]
    | cons c cs => rfl
  rw [hstart, View.tokens_eq_flatMap_splitLines hlen]
  simp only [numberedTokens, dropLast_tokenize_ofList, List.map_flatMap, List.map_map]
  rfl

private theorem line_of_mem_numberedTokens {text : String} :
    ∀ x ∈ numberedTokens text, x.2.position.line = 1 := by
  intro x hx
  rcases List.mem_flatMap.mp hx with ⟨line, hline, hx⟩
  rw [dropLast_tokenize_ofList] at hx
  rcases List.mem_map.mp hx with ⟨t, ht, rfl⟩
  have hmem : line.1 ∈ splitLines text.toList := by
    rw [← List.zipIdx_map_fst 1 (splitLines text.toList)]
    exact List.mem_map_of_mem hline
  exact View.line_of_mem_splitLines hmem t ht

/-- Over the bytes of one text, however they are delivered, a session that reads line by line and
one that reads all at once agree on the tokens but for the numbers of the lines. -/
theorem lineByLine_agrees_allAtOnce (text : String) (h : text.length < 2 ^ 32) (r s : Reader)
    (hr : r.Gives text.toUTF8.data.toList) (hs : s.Gives text.toUTF8.data.toList) :
    Agreement text r s := by
  rw [Utf8.toUTF8_eq_encodeAll] at hr hs
  have hdecodes : Decodes s.delivery.bytes text.toList := by
    rw [hs.delivery_eq]
    exact .encodeAll text.toList
  have hlines := lineByLine_eq "" r
  have hwhole := allAtOnce_eq s hdecodes
  have hnumbered := map_onLine_numberedTokens h
  have hlength : (View.ofChars text.toList).tokens.length = (numberedTokens text).length := by
    rw [← hnumbered, List.length_map]
  have hjoin : written (lineByLine "" r).actions =
      renderLines ((numberedTokens text).map Prod.snd) := by
    rw [hlines.1, hr.lines_eq, map_snd_numberedTokens, renderLines_flatMap, List.map_map]
    simp [Function.comp_def]
  have hrun := (lineByLine "" r).carryOut_of_unfailing Sink.unfailing_default
  have hrun' := (allAtOnce s).carryOut_of_unfailing Sink.unfailing_default
  rw [hjoin, hlines.2, hr.lines_eq] at hrun
  rw [hwhole.1, hwhole.2, hs.delivery_eq, hlength, ← hnumbered] at hrun'
  exact {
    lines_result := hrun.1
    whole_result := hrun'.1
    lines_stored := hrun.2.trans ByteArray.empty_append
    whole_stored := hrun'.2.trans ByteArray.empty_append
    first_line := line_of_mem_numberedTokens }

/-- A number that goes up to the end of its line, for one session all in one read, for the other
cut behind its first digit by an interruption. -/
theorem lineByLine_agrees_allAtOnce_two_lines :
    "1.\nx".length < 2 ^ 32 ∧
    (Reader.ofBytes [49, 46, 10, 120]).Gives "1.\nx".toUTF8.data.toList ∧
    (Reader.mk [.chunk [49], .fault ⟨.interrupted, none⟩, .chunk [46, 10, 120]]).Gives
      "1.\nx".toUTF8.data.toList ∧
    Agreement "1.\nx" (.ofBytes [49, 46, 10, 120])
      ⟨[.chunk [49], .fault ⟨.interrupted, none⟩, .chunk [46, 10, 120]]⟩ := by
  have hbytes : "1.\nx".toUTF8.data.toList = [49, 46, 10, 120] := by decide
  have hr : (Reader.ofBytes [49, 46, 10, 120]).Gives "1.\nx".toUTF8.data.toList := by
    rw [hbytes]
    exact Reader.gives_ofBytes _
  have hs : (Reader.mk [.chunk [49], .fault ⟨.interrupted, none⟩, .chunk [46, 10, 120]]).Gives
      "1.\nx".toUTF8.data.toList := by
    rw [hbytes]
    exact .chunk (.again rfl (.chunk .done))
  exact ⟨by decide, hr, hs, lineByLine_agrees_allAtOnce "1.\nx" (by decide) _ _ hr hs⟩

end MonkeyTokens.Session
