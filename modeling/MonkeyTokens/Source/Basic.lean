import MonkeyTokens.Event

/-!
# Sources of characters

A source is asked for one character at a time. It may say that it has no more, and may still
give characters if it is asked again; only what it gives before it first says so counts.
`Supplies s cs` says that `cs` is what `s` gives until then, and `Ends s` that there is such
a list. Both are about the source alone: whoever asks has no part in them.
-/

namespace MonkeyTokens

/-- The answer of a source that was asked for a character. -/
structure Pull (σ : Type) where
  /-- The character, or none if the source has no more. -/
  char? : Option Char
  /-- The fault that the source met on the way, if any. -/
  fault? : Option Fault := none
  /-- The source after the answer. -/
  source : σ

namespace Pull

variable {σ : Type}

/-- What goes into the log for this answer. -/
def events (p : Pull σ) : List Event := p.fault?.toList.map .readFailed

end Pull

/-- A type whose values can be asked for characters. -/
class CharSource (σ : Type) where
  /-- Ask once. -/
  pull : σ → Pull σ

namespace CharSource

variable {σ : Type} [CharSource σ]

/-- Asked again and again, the source gives these characters and then says it has no more. -/
inductive Supplies : σ → List Char → Prop where
  | done {s : σ} (h : (pull s).char? = none) : Supplies s []
  | more {s : σ} {c : Char} {cs : List Char} (h : (pull s).char? = some c)
      (t : Supplies (pull s).source cs) : Supplies s (c :: cs)

/-- Asked again and again, the source says at some point that it has no more. -/
def Ends (s : σ) : Prop := ∃ cs, Supplies s cs

/-- What a source supplies is unique. -/
theorem Supplies.unique {s : σ} {cs ds : List Char} (h : Supplies s cs) (k : Supplies s ds) :
    cs = ds := by
  induction h generalizing ds with
  | done hn => cases k with
    | done => rfl
    | more hs _ => simp [hn] at hs
  | more hs _ ih => cases k with
    | done hn => simp [hn] at hs
    | more hs' t =>
      obtain rfl := Option.some.inj (hs.symm.trans hs')
      rw [ih t]

/-- A source that has no more has ended. -/
theorem ends_of_pull_eq_none {s : σ} (h : (pull s).char? = none) : Ends s := ⟨[], .done h⟩

/-- A source ends as soon as what is left of it does. -/
theorem Ends.of_pull {s : σ} {c : Char} (h : (pull s).char? = some c)
    (t : Ends (pull s).source) : Ends s :=
  t.elim fun cs hc ↦ ⟨c :: cs, .more h hc⟩

/-- What is left of a source that ends, after a character, ends too. -/
theorem Ends.pull {s : σ} {c : Char} (h : Ends s) (hc : (pull s).char? = some c) :
    Ends (CharSource.pull s).source := by
  obtain ⟨cs, hs⟩ := h
  cases hs with
  | done hn => simp [hn] at hc
  | more _ t => exact ⟨_, t⟩

open Classical in
/-- The characters a source will give until it first says that it has no more, and none if it
never says so. -/
noncomputable def upcoming (s : σ) : List Char := if h : Ends s then h.choose else []

/-- What a source supplies is what is upcoming in it. -/
theorem Supplies.upcoming_eq {s : σ} {cs : List Char} (h : Supplies s cs) : upcoming s = cs := by
  have he : Ends s := ⟨cs, h⟩
  rw [upcoming, dif_pos he]
  exact he.choose_spec.unique h

/-- Nothing is upcoming in a source that has no more. -/
theorem upcoming_of_pull_eq_none {s : σ} (h : (pull s).char? = none) : upcoming s = [] :=
  (Supplies.done h).upcoming_eq

/-- In a source that ends, a character it gives was the first upcoming one. -/
theorem upcoming_of_pull_eq_some {s : σ} {c : Char} (he : Ends s)
    (h : (pull s).char? = some c) : upcoming s = c :: upcoming (pull s).source := by
  obtain ⟨cs, hs⟩ := he.pull h
  rw [hs.upcoming_eq, (Supplies.more h hs).upcoming_eq]

end CharSource

/-- A type of sources all of whose values end. -/
class FiniteSource (σ : Type) [CharSource σ] : Prop where
  /-- Every value ends. -/
  ends : ∀ s : σ, CharSource.Ends s

namespace FiniteSource

/-- Sources end if each character they give makes them smaller. -/
theorem of_measure {σ : Type} [CharSource σ] (size : σ → Nat)
    (h : ∀ (s : σ) (c : Char), (CharSource.pull s).char? = some c →
      size (CharSource.pull s).source < size s) : FiniteSource σ where
  ends s := by
    induction hn : size s using Nat.strongRecOn generalizing s with
    | ind n ih =>
      cases hc : (CharSource.pull s).char? with
      | none => exact CharSource.ends_of_pull_eq_none hc
      | some c => exact .of_pull hc (ih _ (hn ▸ h s c hc) _ rfl)

end FiniteSource
end MonkeyTokens
