import Mathlib.Data.List.Basic

/-!
# Runs of a guarded state machine

A system takes one action at a time; an action that is not enabled yields `none`. A
condition on steps may look at the state before the step and at the action.

Results:
1. `exec_append`, `along_append`: a run may be cut anywhere; `exec_map`: what a run of a
machine with more state tells of the machine without it.
2. `exec_invariant`: what holds at the start and is kept by every step that meets the
   condition holds after every run whose steps all meet it.
3. `along_of_invariant`, `along_iff_along`: what follows from a condition on a step and an
   invariant, and when two conditions are the same along a run.
4. `prefixes_iff_along_of`, `prefixes_iff_along`: a condition that a step needs to keep a fact
   is the one that a run needs to have it in every state.
5. `steps_iff_along`: what holds of every step of a run.
6. `suffixes_iff_along`: what no step changes any more, no run changes.
7. `foldl_done`: an invariant of a loop over a list, with the part of the list that is done;
   `foldl_along`: one that the steps keep that meet a condition.
-/

namespace TmuxccDriver.Lib

variable {σ α : Type*} (step : σ → α → Option σ)

/-- The state after a list of actions, if every one of them was enabled. -/
def exec : σ → List α → Option σ
  | s, [] => some s
  | s, a :: as => (step s a).bind fun s' => exec s' as

@[simp] theorem exec_nil (s : σ) : exec step s [] = some s := rfl

theorem exec_cons (s : σ) (a : α) (as : List α) :
    exec step s (a :: as) = (step s a).bind fun s' => exec step s' as := rfl

theorem exec_append (s : σ) (as bs : List α) :
    exec step s (as ++ bs) = (exec step s as).bind fun s' => exec step s' bs := by
  induction as generalizing s with
  | nil => rfl
  | cons a as ih =>
    rw [List.cons_append, exec_cons, exec_cons, Option.bind_assoc]
    exact congrArg _ (funext ih)

/-- Every step of the run meets `C`. -/
def Along (C : σ → α → Prop) : σ → List α → Prop
  | _, [] => True
  | s, a :: as => C s a ∧ ∀ s', step s a = some s' → Along C s' as

instance decidableAlong {C : σ → α → Prop} [∀ s a, Decidable (C s a)] :
    ∀ (s : σ) (as : List α), Decidable (Along step C s as)
  | _, [] => .isTrue trivial
  | s, a :: as =>
    match h : step s a with
    | none => decidable_of_iff (C s a) (by simp [Along, h])
    | some s' =>
      have : Decidable (Along step C s' as) := decidableAlong s' as
      decidable_of_iff (C s a ∧ Along step C s' as) (by simp [Along, h])

theorem along_append {C : σ → α → Prop} {as bs : List α} {s : σ} :
    Along step C s (as ++ bs) ↔
      Along step C s as ∧ ∀ s', exec step s as = some s' → Along step C s' bs := by
  induction as generalizing s with
  | nil => simp [Along]
  | cons a as ih =>
    simp only [List.cons_append, Along, exec_cons, Option.bind_eq_some_iff, ih]
    constructor
    · rintro ⟨ha, hrest⟩
      exact ⟨⟨ha, fun s' h => (hrest s' h).1⟩, fun s' ⟨t, ht, hs'⟩ => (hrest t ht).2 s' hs'⟩
    · rintro ⟨⟨ha, hrest⟩, hafter⟩
      exact ⟨ha, fun t ht => ⟨hrest t ht, fun s' hs' => hafter s' ⟨t, ht, hs'⟩⟩⟩

/-- A condition on actions alone holds along every run of such actions. -/
theorem along_of_forall {C : α → Prop} {as : List α} (h : ∀ a ∈ as, C a) (s : σ) :
    Along step (fun _ a => C a) s as := by
  induction as generalizing s with
  | nil => trivial
  | cons a as ih =>
    exact ⟨h a List.mem_cons_self, fun s' _ => ih (fun b hb => h b (List.mem_cons_of_mem _ hb)) s'⟩

variable {step}

/-- A machine that carries more state along runs as the machine without it. -/
theorem exec_map {τ : Type*} {step' : τ → α → Option τ} {proj : τ → σ}
    (hproj : ∀ t a, (step' t a).map proj = step (proj t) a) (t : τ) (as : List α) :
    (exec step' t as).map proj = exec step (proj t) as := by
  induction as generalizing t with
  | nil => rfl
  | cons a as ih =>
    rw [exec_cons, exec_cons, ← hproj, Option.map_bind, Option.bind_map]
    exact congrArg _ (funext ih)

theorem exec_invariant {P : σ → Prop} {C : σ → α → Prop}
    (hstep : ∀ s a s', P s → C s a → step s a = some s' → P s') {s s' : σ} {as : List α}
    (hs : P s) (halong : Along step C s as) (hrun : exec step s as = some s') : P s' := by
  induction as generalizing s with
  | nil =>
    cases hrun
    exact hs
  | cons a as ih =>
    rw [exec_cons] at hrun
    obtain ⟨s₁, h₁, hrest⟩ := Option.bind_eq_some_iff.mp hrun
    exact ih (hstep s a s₁ hs halong.1 h₁) (halong.2 s₁ h₁) hrest

/-- Along a run, a condition may be replaced by one that follows from it in every state
with an invariant. -/
theorem along_of_invariant {P : σ → Prop} {C D : σ → α → Prop}
    (hkeep : ∀ s a s', P s → step s a = some s' → P s') (hD : ∀ s a, P s → C s a → D s a) {s : σ}
    {as : List α} (hs : P s) (h : Along step C s as) : Along step D s as := by
  induction as generalizing s with
  | nil => trivial
  | cons a as ih =>
    exact ⟨hD s a hs h.1, fun s' hstep => ih (hkeep s a s' hs hstep) (h.2 s' hstep)⟩

theorem along_congr {P : σ → Prop} {C D : σ → α → Prop}
    (hkeep : ∀ s a s', P s → step s a = some s' → P s') (hCD : ∀ s a, P s → (C s a ↔ D s a)) {s : σ}
    {as : List α} (hs : P s) : Along step C s as ↔ Along step D s as :=
  ⟨along_of_invariant hkeep (fun s a h => (hCD s a h).mp) hs,
    along_of_invariant hkeep (fun s a h => (hCD s a h).mpr) hs⟩

/-- Two conditions that are the same in every state with an invariant, when a step that
meets them keeps the invariant. -/
theorem along_iff_along {I : σ → Prop} {C D : σ → α → Prop} (hCD : ∀ s a, I s → (C s a ↔ D s a))
    (hkeep : ∀ s a s', I s → D s a → step s a = some s' → I s') {s : σ} {as : List α} (hs : I s) :
    Along step C s as ↔ Along step D s as := by
  induction as generalizing s with
  | nil => exact Iff.rfl
  | cons a as ih =>
    rw [Along, Along, hCD s a hs]
    exact and_congr_right fun hD => forall_congr' fun s' => forall_congr' fun hstep =>
      ih (hkeep s a s' hs hD hstep)

theorem along_mono {C D : σ → α → Prop} (hD : ∀ s a, C s a → D s a) {s : σ} {as : List α}
    (h : Along step C s as) : Along step D s as :=
  along_of_invariant (P := fun _ => True) (fun _ _ _ _ _ => trivial) (fun s a _ => hD s a) trivial h

/-- A system that refuses what fails a test. -/
def checked (step : σ → α → Option σ) (ok : σ → α → Bool) (s : σ) (a : α) : Option σ :=
  if ok s a then step s a else none

/-- A run that passes a test at every step. -/
theorem exec_checked {ok : σ → α → Bool} {s s' : σ} {as : List α}
    (h : exec (checked step ok) s as = some s') :
    exec step s as = some s' ∧ Along step (fun s a => ok s a = true) s as := by
  induction as generalizing s with
  | nil => exact ⟨h, trivial⟩
  | cons a as ih =>
    obtain ⟨s₁, hchecked, hrest⟩ := Option.bind_eq_some_iff.mp h
    obtain ⟨hok, hstep⟩ := Option.ite_none_right_eq_some.mp hchecked
    obtain ⟨hexec, halong⟩ := ih hrest
    refine ⟨by rw [exec_cons, hstep]; exact hexec, hok, fun s₂ hs₂ => ?_⟩
    obtain rfl := Option.some.inj (hstep.symm.trans hs₂)
    exact halong

theorem along_and {C D : σ → α → Prop} {s : σ} {as : List α} (hC : Along step C s as)
    (hD : Along step D s as) : Along step (fun s a => C s a ∧ D s a) s as := by
  induction as generalizing s with
  | nil => trivial
  | cons a as ih =>
    exact ⟨⟨hC.1, hD.1⟩, fun s' hstep => ih (hC.2 s' hstep) (hD.2 s' hstep)⟩

/-- A step that meets `C` keeps an invariant from which `Q` follows, and one that does not
ends outside `Q`: then all states of a run are in `Q` exactly if all its steps meet `C`. -/
theorem prefixes_iff_along_of {I Q : σ → Prop} {C : σ → α → Prop} (hQ : ∀ s, I s → Q s)
    (hmeets : ∀ s a s', I s → C s a → step s a = some s' → I s')
    (hfails : ∀ s a, I s → ¬C s a → ∃ s', step s a = some s' ∧ ¬Q s') {s : σ} {as : List α}
    (hs : I s) :
    (∀ done s', done <+: as → exec step s done = some s' → Q s') ↔ Along step C s as := by
  constructor
  · intro hall
    induction as generalizing s with
    | nil => trivial
    | cons a as ih =>
      have hone : ∀ s', step s a = some s' → Q s' := by
        intro s' hstep
        refine hall [a] s' ⟨as, rfl⟩ ?_
        rw [exec_cons, hstep]
        rfl
      have hC : C s a := by
        by_contra hnot
        obtain ⟨s', hstep, hout⟩ := hfails s a hs hnot
        exact hout (hone s' hstep)
      refine ⟨hC, fun s' hstep => ih (hmeets s a s' hs hC hstep) fun done t hdone hrun => ?_⟩
      refine hall (a :: done) t (List.cons_prefix_cons.mpr ⟨rfl, hdone⟩) ?_
      rw [exec_cons, hstep]
      exact hrun
  · rintro halong done s' ⟨rest, rfl⟩ hrun
    exact hQ s' (exec_invariant hmeets hs ((along_append step).mp halong).1 hrun)

/-- If every step that starts in `Q` ends in `Q` exactly if it meets `C`, then all states of
a run are in `Q` exactly if all its steps meet `C`. -/
theorem prefixes_iff_along {P Q : σ → Prop} {C : σ → α → Prop}
    (hkeep : ∀ s a s', P s → step s a = some s' → P s')
    (hiff : ∀ s a, P s → Q s → ((∀ s', step s a = some s' → Q s') ↔ C s a)) {s : σ} {as : List α}
    (hs : P s) (hQ : Q s) :
    (∀ done s', done <+: as → exec step s done = some s' → Q s') ↔ Along step C s as := by
  refine prefixes_iff_along_of (I := fun s => P s ∧ Q s) (fun _ h => h.2)
    (fun s a s' h hC hstep => ⟨hkeep s a s' h.1 hstep, (hiff s a h.1 h.2).mpr hC s' hstep⟩)
    (fun s a h hC => ?_) ⟨hs, hQ⟩
  by_contra hnone
  refine hC ((hiff s a h.1 h.2).mp fun s' hstep => ?_)
  by_contra hout
  exact hnone ⟨s', hstep, hout⟩

/-- What holds of every step of a run, wherever it is in it. -/
theorem steps_iff_along {R : σ → α → σ → Prop} {s : σ} {as : List α} :
    (∀ done a s₁ s₂, done ++ [a] <+: as → exec step s done = some s₁ → step s₁ a = some s₂ →
        R s₁ a s₂) ↔
      Along step (fun s a => ∀ s', step s a = some s' → R s a s') s as := by
  constructor
  · intro hall
    induction as generalizing s with
    | nil => trivial
    | cons a as ih =>
      refine ⟨fun s' hstep => hall [] a s s' ⟨as, rfl⟩ rfl hstep, fun s' hstep => ih ?_⟩
      intro done b s₁ s₂ hpart hdone
      refine hall (a :: done) b s₁ s₂ (List.cons_prefix_cons.mpr ⟨rfl, hpart⟩) ?_
      rw [exec_cons, hstep]
      exact hdone
  · rintro halong done a s₁ s₂ ⟨rest, rfl⟩ hdone hstep
    rw [List.append_assoc, along_append] at halong
    exact (halong.2 s₁ hdone).1 s₂ hstep

/-- From a state in `T` on, every later state of a run is related to it, exactly if no step
from such a state breaks the relation. -/
theorem suffixes_iff_along {Same : σ → σ → Prop} {T : σ → Prop} (hrefl : ∀ s, Same s s)
    (htrans : ∀ s₁ s₂ s₃, Same s₁ s₂ → Same s₂ s₃ → Same s₁ s₃)
    (hT : ∀ s a s', T s → step s a = some s' → T s') {s : σ} {as : List α} :
    (∀ before later s₁ s₂, before ++ later <+: as → exec step s before = some s₁ → T s₁ →
        exec step s₁ later = some s₂ → Same s₁ s₂) ↔
      Along step (fun s a => T s → ∀ s', step s a = some s' → Same s s') s as := by
  constructor
  · intro hall
    induction as generalizing s with
    | nil => trivial
    | cons a as ih =>
      refine ⟨fun hs s' hstep => hall [] [a] s s' ⟨as, rfl⟩ rfl hs ?_, fun s' hstep => ih ?_⟩
      · rw [exec_cons, hstep]
        rfl
      · intro before later s₁ s₂ hpart hbefore
        refine hall (a :: before) later s₁ s₂ (List.cons_prefix_cons.mpr ⟨rfl, hpart⟩) ?_
        rw [exec_cons, hstep]
        exact hbefore
  · rintro halong before later s₁ s₂ ⟨rest, rfl⟩ hbefore hs₁ hlater
    rw [List.append_assoc, along_append] at halong
    have hlong := ((along_append step).mp (halong.2 s₁ hbefore)).1
    have hkept := exec_invariant (P := fun s => T s ∧ Same s₁ s)
      (fun s a s' hs hC hstep => ⟨hT s a s' hs.1 hstep, htrans _ _ _ hs.2 (hC hs.1 s' hstep)⟩)
      ⟨hs₁, hrefl s₁⟩ hlong hlater
    exact hkept.2

/-! ## Loops -/

/-- A loop over a list keeps a fact about the part that is done. -/
theorem foldl_done {f : σ → α → σ} {P : List α → σ → Prop} {as : List α} {s : σ} (h0 : P [] s)
    (hstep : ∀ done a s, a ∈ as → P done s → P (done ++ [a]) (f s a)) : P as (as.foldl f s) := by
  suffices h : ∀ rest done s, (∀ a ∈ rest, a ∈ as) → P done s →
      P (done ++ rest) (rest.foldl f s) from h as [] s (fun _ ha => ha) h0
  intro rest
  induction rest with
  | nil =>
    intro done s _ hdone
    rwa [List.append_nil]
  | cons a rest ih =>
    intro done s hmem hdone
    have hnext := ih (done ++ [a]) (f s a) (fun b hb => hmem b (List.mem_cons_of_mem _ hb))
      (hstep done a s (hmem a List.mem_cons_self) hdone)
    rwa [List.append_assoc, List.singleton_append] at hnext

/-- A loop over a list keeps a fact that each of its steps keeps. -/
theorem foldl_keeps {f : σ → α → σ} {P : σ → Prop} {as : List α} {s : σ} (h0 : P s)
    (hstep : ∀ a s, a ∈ as → P s → P (f s a)) : P (as.foldl f s) :=
  foldl_done (P := fun _ s => P s) h0 fun _ a s ha hs => hstep a s ha hs

/-- A loop whose steps all meet a condition keeps a fact that such a step keeps. -/
theorem foldl_along {f : σ → α → σ} {C : σ → α → Prop} {P : σ → Prop} {as : List α} {s : σ}
    (hstep : ∀ s a, a ∈ as → P s → C s a → P (f s a)) (h0 : P s)
    (halong : Along (fun s a => some (f s a)) C s as) : P (as.foldl f s) := by
  induction as generalizing s with
  | nil => exact h0
  | cons a as ih =>
    exact ih (fun s b hb => hstep s b (List.mem_cons_of_mem _ hb))
      (hstep s a List.mem_cons_self h0 halong.1) (halong.2 _ rfl)

end TmuxccDriver.Lib
