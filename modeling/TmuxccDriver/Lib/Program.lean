import Mathlib.Data.List.Basic

/-!
# Programs that may stop

A program changes a state and returns a value, or stops with an error. The state that it has
reached stays either way.

Results:
1. `Triple.bind`, `Triple.forEach`: what holds after a sequence and after a loop.
2. `Triple.mono`, `Triple.of_state`: triples of one program.
-/

namespace TmuxccDriver.Lib

variable {σ ε α β : Type}

/-- A computation that goes on has not failed. -/
theorem except_bind_eq_ok {x : Except ε α} {f : α → Except ε β} {b : β} (h : x >>= f = .ok b) :
    ∃ a, x = .ok a ∧ f a = .ok b := by
  cases x with
  | error e => cases h
  | ok a => exact ⟨a, rfl, h⟩

def Program (σ ε α : Type) : Type := σ → Except ε α × σ

namespace Program

instance : Monad (Program σ ε) where
  pure a s := (.ok a, s)
  bind p f s :=
    match p s with
    | (.ok a, s') => f a s'
    | (.error e, s') => (.error e, s')

/-- The state. -/
def get : Program σ ε σ := fun s => (.ok s, s)

def modify (f : σ → σ) : Program σ ε Unit := fun s => (.ok (), f s)

def stop (e : ε) : Program σ ε α := fun s => (.error e, s)

/-- A loop over a list. -/
def forEach : List α → (α → Program σ ε Unit) → Program σ ε Unit
  | [], _ => pure ()
  | a :: as, f => do
    f a
    forEach as f

/-- From a state in `P` the program returns a value and a state in `Q`, or it stops with an
error and a state in `E`. -/
def Triple (P : σ → Prop) (p : Program σ ε α) (Q : α → σ → Prop) (E : ε → σ → Prop) : Prop :=
  ∀ s, P s → match p s with
    | (.ok a, s') => Q a s'
    | (.error e, s') => E e s'

namespace Triple

variable {P P' : σ → Prop} {Q Q' : α → σ → Prop} {R : β → σ → Prop} {E E' : ε → σ → Prop}
  {p : Program σ ε α}

theorem pure (a : α) : Triple (Q a) (Pure.pure a : Program σ ε α) Q E := fun _ h => h

theorem stop (e : ε) : Triple (E e) (Program.stop e : Program σ ε α) Q E := fun _ h => h

theorem modify {f : σ → σ} {Q : Unit → σ → Prop} (h : ∀ s, P s → Q () (f s)) :
    Triple P (Program.modify f : Program σ ε Unit) Q E := h

theorem get {Q : σ → σ → Prop} : Triple (fun s => Q s s) (Program.get : Program σ ε σ) Q E :=
  fun _ h => h

theorem bind {f : α → Program σ ε β} (hp : Triple P p Q E) (hf : ∀ a, Triple (Q a) (f a) R E) :
    Triple P (p >>= f) R E := by
  intro s hs
  have hfirst := hp s hs
  show match (match p s with
    | (.ok a, s') => f a s'
    | (.error e, s') => (.error e, s') : Except ε β × σ) with
    | (.ok b, s') => R b s'
    | (.error e, s') => E e s'
  cases hrun : p s with
  | mk result s' =>
    rw [hrun] at hfirst
    cases result with
    | ok a => exact hf a s' hfirst
    | error e => exact hfirst

theorem mono (h : Triple P p Q E) (hP : ∀ s, P' s → P s) (hQ : ∀ a s, Q a s → Q' a s)
    (hE : ∀ e s, E e s → E' e s) : Triple P' p Q' E' := by
  intro s hs
  have hrun := h s (hP s hs)
  cases heq : p s with
  | mk result s' =>
    rw [heq] at hrun
    cases result with
    | ok a => exact hQ a s' hrun
    | error e => exact hE e s' hrun

theorem errors (h : Triple P p Q E) (hE : ∀ e s, E e s → E' e s) : Triple P p Q E' :=
  h.mono (fun _ hs => hs) (fun _ _ hs => hs) hE

/-- A program may be looked at in each state by itself. -/
theorem of_state (h : ∀ s, P s → Triple (· = s) p Q E) : Triple P p Q E :=
  fun s hs => h s hs s rfl

theorem ite {c : Prop} [Decidable c] {q : Program σ ε α} (hp : c → Triple P p Q E)
    (hq : ¬c → Triple P q Q E) : Triple P (if c then p else q) Q E := by
  split
  · exact hp ‹c›
  · exact hq ‹¬c›

/-- A loop keeps what each of its turns keeps, as a fact about the part that is done. -/
theorem forEach {as : List α} {f : α → Program σ ε Unit} {I : List α → σ → Prop}
    (h : ∀ done a rest, as = done ++ a :: rest →
      Triple (I done) (f a) (fun _ => I (done ++ [a])) E) :
    Triple (I []) (Program.forEach as f) (fun _ => I as) E := by
  suffices hrest : ∀ rest done, as = done ++ rest →
      Triple (I done) (Program.forEach rest f) (fun _ => I as) E from hrest as [] rfl
  intro rest
  induction rest with
  | nil =>
    rintro done hdone s hs
    rw [List.append_nil] at hdone
    exact hdone ▸ hs
  | cons a rest ih =>
    intro done hdone
    refine bind (h done a rest hdone) fun _ => ih (done ++ [a]) ?_
    rw [hdone, List.append_assoc]
    rfl

end Triple

end Program

end TmuxccDriver.Lib
