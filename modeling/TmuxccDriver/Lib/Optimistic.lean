import Mathlib.Data.List.Basic

/-!
# Optimistic writes

A value has an owner, and a copy of it is shown elsewhere. A write is shown at once and sent to
the owner, who accepts or refuses the writes in the order they were sent. Each write keeps what
was shown before it, and a write that was refused is taken back by showing that again.

Results:
1. `Chain.send`, `Chain.lost`: the writes that wait for their answer lead from the value of the
   owner to the one that is shown.
2. `Converging.send`, `Converging.accept`, `Converging.refuse`, `Converging.takeBack`,
   `Converging.read`: the invariant with the writes that were refused and are not taken back; it
   ends in the value of the owner (`Converging.agrees`).
-/

namespace TmuxccDriver.Lib

variable {V : Type*}

/-- A write that waits for its answer, with what was shown before it, if the copy had anything to
show. -/
structure Write (V : Type*) where
  value : V
  before : Option V

/-- What is shown, if anything is, is the value. -/
def Agrees (shown : Option V) (value : V) : Prop := ∀ u, shown = some u → u = value

/-- If the owner holds `held`, then whatever it answers to the writes that wait, what is shown at
the end is what it holds then, once those it refused are taken back. -/
def Chain : V → List (Write V) → Option V → Prop
  | held, [], shown => Agrees shown held
  | held, write :: waiting, shown =>
    (match write.before with
      | some before => before = held
      | none => Chain held waiting shown) ∧
    Chain write.value waiting shown

namespace Chain

/-- A write is shown in place of what was shown before. -/
theorem send {held : V} {waiting : List (Write V)} {shown : Option V} (value : V)
    (h : Chain held waiting shown) :
    Chain held (waiting ++ [⟨value, shown⟩]) (shown.map fun _ => value) := by
  induction waiting generalizing held with
  | nil =>
    refine ⟨?_, ?_⟩
    · rcases shown with _ | before
      · exact fun _ hsome => by cases hsome
      · exact h before rfl
    · rintro u hu
      obtain ⟨_, -, rfl⟩ := Option.map_eq_some_iff.mp hu
      rfl
  | cons write waiting ih =>
    obtain ⟨hrefused, haccepted⟩ := h
    refine ⟨?_, ih haccepted⟩
    rcases hbefore : write.before with _ | before
    · simp only [hbefore] at hrefused
      exact ih hrefused
    · simpa only [hbefore] using hrefused

/-- The copy loses the thing. -/
theorem lost {held : V} {waiting : List (Write V)} {shown : Option V}
    (h : Chain held waiting shown) : Chain held waiting none := by
  induction waiting generalizing held with
  | nil => exact fun _ hsome => by cases hsome
  | cons write waiting ih =>
    obtain ⟨hrefused, haccepted⟩ := h
    refine ⟨?_, ih haccepted⟩
    rcases hbefore : write.before with _ | before
    · simp only [hbefore] at hrefused
      exact ih hrefused
    · simpa only [hbefore] using hrefused

end Chain

/-- `refused` is what is to be shown again, for each write that was refused and is not taken back;
those writes were sent before the ones that wait. What the first of them brings back is what the
owner holds. -/
def Converging (held : V) (refused : List V) (waiting : List (Write V)) (shown : Option V) : Prop :=
  match refused with
  | [] => Chain held waiting shown
  | before :: _ => before = held

namespace Converging

variable {held : V} {refused : List V} {waiting : List (Write V)} {shown : Option V}

theorem send (value : V) (h : Converging held refused waiting shown) :
    Converging held refused (waiting ++ [⟨value, shown⟩]) (shown.map fun _ => value) := by
  cases refused with
  | nil => exact Chain.send value h
  | cons before rest => exact h

theorem accept {write : Write V} (h : Converging held [] (write :: waiting) shown) :
    Converging write.value [] waiting shown :=
  h.2

/-- A write that is refused is taken back later, if anything was shown before it. -/
theorem refuse {write : Write V} (h : Converging held refused (write :: waiting) shown) :
    Converging held (refused ++ write.before.toList) waiting shown := by
  cases refused with
  | nil =>
    obtain ⟨hrefused, -⟩ := h
    rcases hbefore : write.before with _ | before
    · simp only [hbefore] at hrefused
      exact hrefused
    · simp only [hbefore] at hrefused
      exact hrefused
  | cons first rest => exact h

/-- The last write of all is taken back. -/
theorem takeBack {before : V} (h : Converging held (refused ++ [before]) [] shown) :
    Converging held refused [] (shown.map fun _ => before) := by
  cases refused with
  | nil =>
    obtain rfl : before = held := h
    intro u hu
    obtain ⟨_, -, rfl⟩ := Option.map_eq_some_iff.mp hu
    rfl
  | cons first rest => exact h

/-- Something else is shown: what the owner holds, with no write waiting, or nothing, or anything
at all while a refused write is to be taken back. -/
theorem read {shown' : Option V} (h : Converging held refused waiting shown)
    (hread : refused = [] → shown' ≠ shown → shown' ≠ none → waiting = [] ∧ Agrees shown' held) :
    Converging held refused waiting shown' := by
  cases refused with
  | cons first rest => exact h
  | nil =>
    by_cases hsame : shown' = shown
    · exact hsame ▸ h
    · by_cases hnone : shown' = none
      · exact hnone ▸ Chain.lost h
      · obtain ⟨rfl, hagrees⟩ := hread rfl hsame hnone
        exact hagrees

theorem agrees (h : Converging held [] [] shown) : Agrees shown held := h

end Converging

end TmuxccDriver.Lib
