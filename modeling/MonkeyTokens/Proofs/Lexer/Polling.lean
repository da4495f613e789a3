import MonkeyTokens.Proofs.Lexer.Queue
import MonkeyTokens.Proofs.Source.Watched
import MonkeyTokens.Source.Answers

/-!
# How a lexer asks its source

A lexer takes no notice of what a source would give after it has first said that it has no more:
it never asks again. `Ledger.Told` says what a watched source has answered by then. Asking keeps
it, so that it holds behind any number of calls (`callAll_ofEnding`).
-/

namespace MonkeyTokens

open CharSource

namespace Ledger

variable {σ : Type} [CharSource σ]

/-- What a watched source that supplies these characters has answered: the first of them, and once
it has said that it has no more, all of them and this. -/
structure Told (cs : List Char) (g : Ledger (Watched σ)) : Prop where
  more : g.exhausted = false →
    ∃ rest, Supplies g.source rest ∧ g.source.answers ++ rest.map some = cs.map some
  ended : g.exhausted = true → g.source.answers = cs.map some ++ [none]

namespace Told

variable {cs : List Char} {g h : Ledger (Watched σ)}

/-- At first a source has answered nothing. -/
theorem ofSource {s : σ} (hs : Supplies s cs) : Told cs (.ofSource { source := s }) where
  more _ := ⟨cs, Watched.supplies_iff.mpr hs, rfl⟩
  ended hx := by cases hx

private theorem ask (told : g.Told cs) : g.ask.Told cs := by
  unfold Ledger.ask
  by_cases hx : g.exhausted = true
  · rwa [if_pos hx]
  · obtain ⟨rest, hs, hrest⟩ := told.more (Bool.eq_false_iff.mpr hx)
    rw [if_neg hx]
    cases hs with
    | done hn =>
      rw [List.map_nil, List.append_nil] at hrest
      constructor
      · intro (he : (pull g.source).char?.isNone = false)
        rw [hn] at he
        cases he
      · intro _
        change g.source.answers ++ [(pull g.source).char?] = _
        rw [hn, hrest]
    | @more _ c rest hc hs =>
      constructor
      · intro _
        refine ⟨rest, hs, ?_⟩
        change g.source.answers ++ [(pull g.source).char?] ++ rest.map some = _
        rw [hc, List.append_assoc]
        exact hrest
      · intro (he : (pull g.source).char?.isNone = true)
        rw [hc] at he
        cases he

/-- So do all steps of a lexer. -/
theorem reads {ts : List Token} (r : Reads g ts h) (told : g.Told cs) : h.Told cs := by
  induction r with
  | refl => exact told
  | ask _ ih => exact ih.ask
  | report _ t ih => exact ⟨ih.more, ih.ended⟩

private theorem isPrefix_answers (told : g.Told cs) :
    g.source.answers <+: cs.map some ++ [none] := by
  cases hx : g.exhausted with
  | true => exact ⟨[], by rw [List.append_nil, told.ended hx]⟩
  | false =>
    obtain ⟨rest, -, hrest⟩ := told.more hx
    rw [← hrest, List.append_assoc]
    exact List.prefix_append _ _

end Told
end Ledger

namespace Lexer

variable {σ : Type} [CharSource σ]

/-- However tokens are asked for, of a source only what it gives before it first says that it has no
more makes a difference: the replies are those for the text of these characters. The source is asked
for each of them once at most, in order, then once whether there are more, and never again. -/
theorem callAll_ofEnding {s : σ} {cs : List Char} (h : Supplies s cs) (calls : List TokenCall) :
    let replies := ((ofText (String.ofList cs)).callAll calls).1
    let watched := ofEnding ({ source := s } : Watched σ) ⟨cs, Watched.supplies_iff.mpr h⟩
    ((ofEnding s ⟨cs, h⟩).callAll calls).1 = replies ∧
      (watched.callAll calls).1 = replies ∧
      (watched.callAll calls).2.source.answers <+: cs.map some ++ [none] ∧
      (watched.callAll calls).2.source.answers.length ≤ cs.length + 1 := by
  intro replies watched
  have hsupplies : Supplies ({ source := s } : Watched σ) cs := Watched.supplies_iff.mpr h
  have htext := ((follows_ofText (String.ofList cs)).callAll calls).1
  have hbare := ((follows_ofEnding h).callAll calls).1
  obtain ⟨hwatched, hlast⟩ := (follows_ofEnding hsupplies).callAll calls
  have hanswers := (Ledger.Told.reads hlast.reads (.ofSource h)).isPrefix_answers
  refine ⟨hbare.trans htext.symm, hwatched.trans htext.symm, hanswers, ?_⟩
  have hlen := hanswers.length_le
  rwa [List.length_append, List.length_map] at hlen

/-- A source that goes on after a look ahead found that it has no more. -/
theorem callAll_ofEnding_resuming :
    let s : AnswerSource := ⟨[some 'a', some '=', none, some '=', some 'b']⟩
    let calls : List TokenCall := [.next, .nextToken, .nextToken, .next, .nextToken]
    ∃ h : Supplies s ['a', '='],
      let replies := ((ofText (String.ofList ['a', '='])).callAll calls).1
      let watched := ofEnding ({ source := s } : Watched AnswerSource)
        ⟨['a', '='], Watched.supplies_iff.mpr h⟩
      ((ofEnding s ⟨['a', '='], h⟩).callAll calls).1 = replies ∧
        (watched.callAll calls).1 = replies ∧
        (watched.callAll calls).2.source.answers <+: ['a', '='].map some ++ [none] ∧
        (watched.callAll calls).2.source.answers.length ≤ ['a', '='].length + 1 := by
  intro s calls
  have h : Supplies s ['a', '='] := .more rfl (.more rfl (.done rfl))
  exact ⟨h, callAll_ofEnding h calls⟩

end Lexer
end MonkeyTokens
