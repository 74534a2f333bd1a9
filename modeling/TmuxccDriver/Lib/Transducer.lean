import Mathlib.Data.List.Basic

/-!
# Transducers and chunked feeding

A streaming parser is specified one input symbol at a time (`Transducer`) and
implemented over chunks. An implementation that agrees with the transducer on
every single chunk (`Realises`) agrees with it on every sequence of chunks, so
how the input was cut does not matter (`Realises.out_pushAll`).

Results:
1. `Transducer.run_append`: a run over `xs ++ ys` is a run over `xs` followed by
   a run over `ys`.
2. `Realises.pushAll_eq`: pushing a list of chunks is running the transducer on
   their concatenation.
3. `Transducer.outputs_agree_iff`: two machines with related states emit the same at every
   point of an input exactly if they do at every step.
-/

namespace TmuxccDriver.Lib

/-- A deterministic machine that reads one symbol and emits finitely many. -/
structure Transducer (σ ι ο : Type*) where
  step : σ → ι → σ × List ο

namespace Transducer

variable {σ ι ο : Type*} (T : Transducer σ ι ο)

/-- Read a whole word, collecting the output of every step. -/
def run : σ → List ι → σ × List ο
  | s, [] => (s, [])
  | s, x :: xs =>
    let (s₁, o₁) := T.step s x
    let (s₂, o₂) := run s₁ xs
    (s₂, o₁ ++ o₂)

/-- The state after a word. -/
def final (s : σ) (xs : List ι) : σ := (T.run s xs).1

/-- The output of a word. -/
def output (s : σ) (xs : List ι) : List ο := (T.run s xs).2

@[simp] theorem run_nil (s : σ) : T.run s [] = (s, []) := rfl

theorem run_cons (s : σ) (x : ι) (xs : List ι) :
    T.run s (x :: xs) =
      ((T.run (T.step s x).1 xs).1, (T.step s x).2 ++ (T.run (T.step s x).1 xs).2) := rfl

/-- A symbol that is read silently. -/
theorem run_cons_silent {s s' : σ} {x : ι} (h : T.step s x = (s', [])) (xs : List ι) :
    T.run s (x :: xs) = T.run s' xs := by
  rw [run_cons, h]
  rfl

/-- Two states that treat the first symbol alike treat the whole word alike. -/
theorem run_cons_congr {s s' : σ} {x : ι} (h : T.step s x = T.step s' x) (xs : List ι) :
    T.run s (x :: xs) = T.run s' (x :: xs) := by
  rw [run_cons, run_cons, h]

@[simp] theorem final_nil (s : σ) : T.final s [] = s := rfl

@[simp] theorem output_nil (s : σ) : T.output s [] = [] := rfl

theorem final_cons (s : σ) (x : ι) (xs : List ι) :
    T.final s (x :: xs) = T.final (T.step s x).1 xs := rfl

theorem output_cons (s : σ) (x : ι) (xs : List ι) :
    T.output s (x :: xs) = (T.step s x).2 ++ T.output (T.step s x).1 xs := rfl

theorem run_append (s : σ) (xs ys : List ι) :
    T.run s (xs ++ ys) =
      (T.final (T.final s xs) ys, T.output s xs ++ T.output (T.final s xs) ys) := by
  induction xs generalizing s with
  | nil => rfl
  | cons x xs ih =>
    rw [List.cons_append, run_cons, ih]
    simp only [final_cons, output_cons, List.append_assoc]

/-- A word that is read silently. -/
theorem run_append_silent {s s' : σ} {xs : List ι} (h : T.run s xs = (s', [])) (ys : List ι) :
    T.run s (xs ++ ys) = T.run s' ys := by
  simp only [run_append, final, output, h, List.nil_append]

theorem final_append (s : σ) (xs ys : List ι) :
    T.final s (xs ++ ys) = T.final (T.final s xs) ys := by
  rw [final, run_append]

theorem output_append (s : σ) (xs ys : List ι) :
    T.output s (xs ++ ys) = T.output s xs ++ T.output (T.final s xs) ys := by
  rw [output, run_append]

theorem output_singleton (s : σ) (x : ι) : T.output s [x] = (T.step s x).2 := by
  simp [output_cons]

/-- Every step of reading a word meets `C`. -/
def Meets (C : σ → ι → Prop) : σ → List ι → Prop
  | _, [] => True
  | s, x :: xs => C s x ∧ Meets C (T.step s x).1 xs

instance decidableMeets {C : σ → ι → Prop} [∀ s x, Decidable (C s x)] :
    ∀ (s : σ) (xs : List ι), Decidable (T.Meets C s xs)
  | _, [] => .isTrue trivial
  | s, x :: xs =>
    have : Decidable (T.Meets C (T.step s x).1 xs) := decidableMeets (T.step s x).1 xs
    decidable_of_iff (C s x ∧ T.Meets C (T.step s x).1 xs) Iff.rfl

/-- Two machines whose states stay related emit the same on all prefixes of a word
exactly if they do at every step. -/
theorem outputs_agree_iff {τ : Type*} {T : Transducer σ ι ο} {U : Transducer τ ι ο}
    {R : σ → τ → Prop} {C : τ → ι → Prop}
    (hkeep : ∀ s t x, R s t → R (T.step s x).1 (U.step t x).1)
    (hiff : ∀ s t x, R s t → ((T.step s x).2 = (U.step t x).2 ↔ C t x)) {s : σ} {t : τ}
    (hst : R s t) (xs : List ι) :
    (∀ done, done <+: xs → T.output s done = U.output t done) ↔ U.Meets C t xs := by
  induction xs generalizing s t with
  | nil =>
    refine iff_of_true (fun done hdone => ?_) trivial
    rw [List.prefix_nil.mp hdone]
    rfl
  | cons x xs ih =>
    rw [Meets, ← hiff s t x hst, ← ih (hkeep s t x hst)]
    constructor
    · intro hall
      have hone : (T.step s x).2 = (U.step t x).2 := by
        have hfirst := hall [x] (List.cons_prefix_cons.mpr ⟨rfl, List.nil_prefix⟩)
        rwa [output_singleton, output_singleton] at hfirst
      refine ⟨hone, fun done hdone => ?_⟩
      have hnext := hall (x :: done) (List.cons_prefix_cons.mpr ⟨rfl, hdone⟩)
      rw [output_cons, output_cons, hone] at hnext
      exact List.append_cancel_left hnext
    · rintro ⟨hone, hrest⟩ done hdone
      cases done with
      | nil => rfl
      | cons y done =>
        obtain ⟨rfl, hprefix⟩ := List.cons_prefix_cons.mp hdone
        rw [output_cons, output_cons, hone, hrest done hprefix]

end Transducer

/-- Feed a list of chunks to a chunk-at-a-time implementation. -/
def pushAll {α ι ο : Type*} (push : α → List ι → α × List ο) : α → List (List ι) → α × List ο
  | a, [] => (a, [])
  | a, c :: cs =>
    let (a₁, o₁) := push a c
    let (a₂, o₂) := pushAll push a₁ cs
    (a₂, o₁ ++ o₂)

/-- `push` computes `T` on every chunk, up to the abstraction `abs` of its state. -/
def Realises {α σ ι ο : Type*} (abs : α → σ) (push : α → List ι → α × List ο)
    (T : Transducer σ ι ο) : Prop :=
  ∀ a c, (abs (push a c).1, (push a c).2) = T.run (abs a) c

namespace Realises

variable {α σ ι ο : Type*} {abs : α → σ} {push : α → List ι → α × List ο}
  {T : Transducer σ ι ο}

theorem abs_push (h : Realises abs push T) (a : α) (c : List ι) :
    abs (push a c).1 = T.final (abs a) c :=
  congrArg Prod.fst (h a c)

theorem out_push (h : Realises abs push T) (a : α) (c : List ι) :
    (push a c).2 = T.output (abs a) c :=
  congrArg Prod.snd (h a c)

/-- Pushing chunks one after the other is one run over their concatenation. -/
theorem pushAll_eq (h : Realises abs push T) (a : α) (cs : List (List ι)) :
    (abs (pushAll push a cs).1, (pushAll push a cs).2) = T.run (abs a) cs.flatten := by
  induction cs generalizing a with
  | nil => rfl
  | cons c cs ih =>
    have hrest := ih (push a c).1
    rw [h.abs_push] at hrest
    rw [List.flatten_cons, T.run_append]
    simp only [pushAll, Prod.mk.injEq]
    constructor
    · exact congrArg Prod.fst hrest
    · rw [h.out_push]
      exact congrArg (T.output (abs a) c ++ ·) (congrArg Prod.snd hrest)

/-- The output depends on the input only, not on how it was cut. -/
theorem out_pushAll (h : Realises abs push T) (a : α) (cs : List (List ι)) :
    (pushAll push a cs).2 = T.output (abs a) cs.flatten :=
  congrArg Prod.snd (h.pushAll_eq a cs)

end Realises

end TmuxccDriver.Lib
