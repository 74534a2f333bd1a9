import Mathlib.Algebra.Order.Field.Basic
import Mathlib.Data.List.Induction
import Mathlib.Tactic.Linarith
import Mathlib.Tactic.Ring

/-!
# Token buckets

A bucket is filled at a constant rate up to its capacity, and every signal that is let through
takes one token out of it. The first signal finds the bucket full.

Results:
1. `Level`: the tokens are the least room that any earlier start leaves under the bound.
2. `Level.draw`: a signal keeps it.
3. `within_le`: how many signals an interval lets through.
4. `dropped_of_run`: a signal that is dropped had no room.
-/

namespace TmuxccDriver.Lib.TokenBucket

/-! ## Signals -/

/-- A signal, and whether it was let through. -/
structure Signal (K : Type*) where
  time : K
  allowed : Bool

section Counting
variable {K : Type*} [LinearOrder K]

/-- How many signals were let through at or after a time. -/
def since (a : K) (history : List (Signal K)) : Nat :=
  history.countP fun s => s.allowed && decide (a ≤ s.time)

/-- How many signals were let through in an interval. -/
def within (a b : K) (history : List (Signal K)) : Nat :=
  history.countP fun s => s.allowed && decide (a ≤ s.time) && decide (s.time ≤ b)

variable {history : List (Signal K)} {a b now : K}

theorem since_concat (a now : K) (history : List (Signal K)) (allowed : Bool) :
    since a (history ++ [⟨now, allowed⟩]) =
      since a history + if allowed = true ∧ a ≤ now then 1 else 0 := by
  rw [since, since, List.countP_append, List.countP_singleton]
  simp

theorem since_eq_zero (h : ∀ s ∈ history, s.time < a) : since a history = 0 := by
  refine List.countP_eq_zero.mpr fun s hs => ?_
  simp [h s hs]

theorem within_eq_since (h : ∀ s ∈ history, s.time ≤ b) :
    within a b history = since a history := by
  refine List.countP_congr fun s hs => ?_
  simp [h s hs]

theorem within_concat_of_lt (h : b < now) (allowed : Bool) :
    within a b (history ++ [⟨now, allowed⟩]) = within a b history := by
  rw [within, within, List.countP_append, List.countP_singleton]
  simp [h]

end Counting

/-! ## Buckets -/

section Buckets
variable {K : Type*} [Field K] [LinearOrder K]

structure Budget (K : Type*) [Field K] [LinearOrder K] where
  rate : K
  capacity : K
  rate_nonneg : 0 ≤ rate
  one_le : 1 ≤ capacity

structure Bucket (K : Type*) where
  tokens : K
  last : K

variable (budget : Budget K)

def refill (bucket : Bucket K) (now : K) : Bucket K :=
  if 0 < now - bucket.last then
    { tokens := min budget.capacity (bucket.tokens + (now - bucket.last) * budget.rate)
      last := now }
  else bucket

/-- Whether a signal is let through, and the bucket after it. -/
def draw : Option (Bucket K) → K → Bool × Bucket K
  | none, now => (true, { tokens := budget.capacity - 1, last := now })
  | some bucket, now =>
    let refilled := refill budget bucket now
    if 1 ≤ refilled.tokens then (true, { refilled with tokens := refilled.tokens - 1 })
    else (false, refilled)

theorem draw_some (bucket : Bucket K) (now : K) :
    draw budget (some bucket) now =
      if 1 ≤ (refill budget bucket now).tokens then
        (true,
          { refill budget bucket now with tokens := (refill budget bucket now).tokens - 1 })
      else (false, refill budget bucket now) := rfl

/-- The signals of a run and the bucket after it. -/
def run (times : List K) : List (Signal K) × Option (Bucket K) :=
  times.foldl
    (fun s now => (s.1 ++ [⟨now, (draw budget s.2 now).1⟩], some (draw budget s.2 now).2))
    ([], none)

theorem run_concat (times : List K) (now : K) :
    run budget (times ++ [now]) =
      ((run budget times).1 ++ [⟨now, (draw budget (run budget times).2 now).1⟩],
        some (draw budget (run budget times).2 now).2) := by
  rw [run, List.foldl_append]
  rfl

end Buckets

variable {K : Type*} [Field K] [LinearOrder K] [IsStrictOrderedRing K] {budget : Budget K}
  {history : List (Signal K)} {a b now : K}

/-! ## The level -/

/-- The tokens are the least room under the bound that a start at or before the last signal
leaves, and some start leaves no more. -/
structure Level (budget : Budget K) (history : List (Signal K)) (bucket : Bucket K) : Prop where
  nonneg : 0 ≤ bucket.tokens
  full : bucket.tokens ≤ budget.capacity
  latest : ∀ s ∈ history, s.time ≤ bucket.last
  atMost : ∀ a ≤ bucket.last,
    bucket.tokens + since a history ≤ budget.capacity + (bucket.last - a) * budget.rate
  attained : bucket.tokens = budget.capacity ∨ ∃ s ∈ history,
    budget.capacity + (bucket.last - s.time) * budget.rate ≤ bucket.tokens + since s.time history

namespace Level
variable {bucket : Bucket K}

theorem refill (h : Level budget history bucket) (hnow : bucket.last ≤ now) :
    Level budget history (refill budget bucket now) ∧ (refill budget bucket now).last = now := by
  unfold TokenBucket.refill
  split
  · next hlater =>
    have hgain : 0 ≤ (now - bucket.last) * budget.rate :=
      mul_nonneg hlater.le budget.rate_nonneg
    refine ⟨⟨?_, min_le_left _ _, fun s hs => (h.latest s hs).trans hnow, fun a ha => ?_, ?_⟩, rfl⟩
    · exact le_min (zero_le_one.trans budget.one_le) (add_nonneg h.nonneg hgain)
    · rcases le_or_gt a bucket.last with hold | hnew
      · -- the start is old: what came in since the last signal is what the bound has gained
        have hbound := h.atMost a hold
        have hle := min_le_right budget.capacity
          (bucket.tokens + (now - bucket.last) * budget.rate)
        have hsplit : (now - a) * budget.rate =
            (now - bucket.last) * budget.rate + (bucket.last - a) * budget.rate := by ring
        simp only
        linarith
      · -- the start is after the last signal: there is nothing to count
        have hnone := since_eq_zero fun s hs => (h.latest s hs).trans_lt hnew
        have hle := min_le_left budget.capacity
          (bucket.tokens + (now - bucket.last) * budget.rate)
        have hroom : 0 ≤ (now - a) * budget.rate :=
          mul_nonneg (sub_nonneg.mpr ha) budget.rate_nonneg
        simp only [hnone, Nat.cast_zero, add_zero]
        linarith
    · rcases h.attained with hfull | ⟨s, hs, hstart⟩
      · exact Or.inl (min_eq_left (by linarith))
      · rcases le_total budget.capacity (bucket.tokens + (now - bucket.last) * budget.rate)
          with hover | hunder
        · exact Or.inl (min_eq_left hover)
        · refine Or.inr ⟨s, hs, ?_⟩
          have hsplit : (now - s.time) * budget.rate =
              (now - bucket.last) * budget.rate + (bucket.last - s.time) * budget.rate := by ring
          simp only [min_eq_right hunder]
          linarith
  · next hsame =>
    have heq : bucket.last = now := le_antisymm hnow (by linarith)
    exact ⟨h, heq⟩

/-- A signal that is let through. -/
theorem spend (h : Level budget history bucket) (htoken : 1 ≤ bucket.tokens) :
    Level budget (history ++ [⟨bucket.last, true⟩])
      { bucket with tokens := bucket.tokens - 1 } where
  nonneg := sub_nonneg.mpr htoken
  full := (sub_le_self _ zero_le_one).trans h.full
  latest s hs := by
    rcases List.mem_append.mp hs with hs | hs
    · exact h.latest s hs
    · rw [List.mem_singleton.mp hs]
  atMost a ha := by
    have hbound := h.atMost a ha
    rw [since_concat, if_pos ⟨rfl, ha⟩]
    push_cast
    linarith
  attained := by
    right
    rcases h.attained with hfull | ⟨s, hs, hstart⟩
    · -- from a full bucket on, this signal is the only one
      refine ⟨_, List.mem_append_right _ List.mem_cons_self, ?_⟩
      rw [since_concat, if_pos ⟨rfl, le_rfl⟩]
      have hcount : (0 : K) ≤ since bucket.last history := Nat.cast_nonneg _
      push_cast
      simp only [sub_self, zero_mul]
      linarith
    · refine ⟨s, List.mem_append_left _ hs, ?_⟩
      rw [since_concat, if_pos ⟨rfl, h.latest s hs⟩]
      push_cast
      linarith

omit [IsStrictOrderedRing K] in
/-- A signal that is dropped. -/
theorem drop (h : Level budget history bucket) :
    Level budget (history ++ [⟨bucket.last, false⟩]) bucket where
  nonneg := h.nonneg
  full := h.full
  latest s hs := by
    rcases List.mem_append.mp hs with hs | hs
    · exact h.latest s hs
    · rw [List.mem_singleton.mp hs]
  atMost a ha := by simpa [since_concat] using h.atMost a ha
  attained := by
    refine h.attained.imp_right fun ⟨s, hs, hstart⟩ => ⟨s, List.mem_append_left _ hs, ?_⟩
    simpa [since_concat] using hstart

theorem first (now : K) :
    Level budget [⟨now, true⟩] { tokens := budget.capacity - 1, last := now } where
  nonneg := sub_nonneg.mpr budget.one_le
  full := sub_le_self _ zero_le_one
  latest s hs := by rw [List.mem_singleton.mp hs]
  atMost a ha := by
    have hroom : 0 ≤ (now - a) * budget.rate :=
      mul_nonneg (sub_nonneg.mpr ha) budget.rate_nonneg
    simp [since, ha]
    linarith
  attained := Or.inr ⟨_, List.mem_cons_self, by simp [since]⟩

/-- Every signal keeps the level, and one that is dropped has no room. -/
theorem draw (h : Level budget history bucket) (hnow : bucket.last ≤ now) :
    Level budget (history ++ [⟨now, (draw budget (some bucket) now).1⟩])
        (draw budget (some bucket) now).2 ∧
      (draw budget (some bucket) now).2.last = now ∧
      ((draw budget (some bucket) now).1 = false → ∃ s ∈ history,
        budget.capacity + (now - s.time) * budget.rate < since s.time history + 1) := by
  obtain ⟨hrefilled, hlast⟩ := h.refill hnow
  rw [draw_some]
  split
  · next htoken =>
    have hspent := hrefilled.spend htoken
    refine ⟨?_, hlast, fun hno => absurd hno (by simp)⟩
    simpa only [hlast] using hspent
  · next hempty =>
    have hdropped := hrefilled.drop
    rw [hlast] at hdropped
    refine ⟨hdropped, hlast, fun _ => ?_⟩
    have hlow : (TokenBucket.refill budget bucket now).tokens < 1 := not_le.mp hempty
    rcases hrefilled.attained with hfull | ⟨s, hs, hstart⟩
    · exact absurd (hfull ▸ budget.one_le) hempty
    · refine ⟨s, hs, ?_⟩
      rw [hlast] at hstart
      linarith

end Level

/-! ## Runs -/

/-- The state of a run of signals in the order of time. -/
structure Sound (budget : Budget K) (times : List K) (s : List (Signal K) × Option (Bucket K)) :
    Prop where
  empty : s.2 = none → s.1 = []
  level : ∀ bucket, s.2 = some bucket →
    Level budget s.1 bucket ∧ times.getLast? = some bucket.last

theorem sound_run {times : List K} (h : times.Pairwise (· ≤ ·)) :
    Sound budget times (run budget times) := by
  induction times using List.reverseRecOn with
  | nil => exact ⟨fun _ => rfl, fun bucket hbucket => nomatch hbucket⟩
  | append_singleton times now ih =>
    obtain ⟨hold, -, hnow⟩ := List.pairwise_append.mp h
    have hsound := ih hold
    rw [run_concat]
    refine ⟨fun hnone => absurd hnone (by simp), fun bucket hbucket => ?_⟩
    cases hstate : (run budget times).2 with
    | none =>
      rw [hstate] at hbucket
      rw [hsound.empty hstate]
      cases hbucket
      exact ⟨.first now, List.getLast?_concat⟩
    | some before =>
      rw [hstate] at hbucket
      obtain ⟨hlevel, hlast⟩ := hsound.level before hstate
      have hordered := hnow _ (List.mem_of_getLast? hlast) now List.mem_cons_self
      obtain ⟨hdrawn, hdrawnLast, -⟩ := hlevel.draw hordered
      cases hbucket
      exact ⟨hdrawn, by rw [hdrawnLast, List.getLast?_concat]⟩

/-- In an interval at most the capacity and what the rate gives are let through. -/
theorem within_le {times : List K} (h : times.Pairwise (· ≤ ·)) (hab : a ≤ b) :
    (within a b (run budget times).1 : K) ≤ budget.capacity + (b - a) * budget.rate := by
  have hgain : 0 ≤ (b - a) * budget.rate := mul_nonneg (sub_nonneg.mpr hab) budget.rate_nonneg
  have hroom : 0 ≤ budget.capacity + (b - a) * budget.rate :=
    add_nonneg (zero_le_one.trans budget.one_le) hgain
  induction times using List.reverseRecOn with
  | nil => simpa [run, within] using hroom
  | append_singleton times now ih =>
    rcases lt_or_ge b now with hafter | hbefore
    · rw [run_concat, within_concat_of_lt hafter]
      exact ih (List.pairwise_append.mp h).1
    · have hsound : Sound budget (times ++ [now]) _ := sound_run h
      cases hstate : (run budget (times ++ [now])).2 with
      | none => simpa [within, hsound.empty hstate] using hroom
      | some bucket =>
        obtain ⟨hlevel, hlast⟩ := hsound.level bucket hstate
        have hnow : bucket.last = now := by
          rw [List.getLast?_concat] at hlast
          exact (Option.some.inj hlast).symm
        have hcount : within a b (run budget (times ++ [now])).1 =
            since a (run budget (times ++ [now])).1 :=
          within_eq_since fun s hs => (hlevel.latest s hs).trans (hnow ▸ hbefore)
        rw [hcount]
        rcases le_or_gt a now with hstart | hlater
        · have hbound := hlevel.atMost a (hnow ▸ hstart)
          have hmono : (now - a) * budget.rate ≤ (b - a) * budget.rate :=
            mul_le_mul_of_nonneg_right (sub_le_sub_right hbefore a) budget.rate_nonneg
          have htokens := hlevel.nonneg
          rw [hnow] at hbound
          linarith
        · rw [since_eq_zero fun s hs => (hlevel.latest s hs).trans_lt (hnow ▸ hlater)]
          exact_mod_cast hroom

/-- A signal that is dropped would have been one too many from some earlier signal on. -/
theorem dropped_of_run {times : List K} (h : times.Pairwise (· ≤ ·)) {done rest : List (Signal K)}
    {s : Signal K} (hrun : (run budget times).1 = done ++ s :: rest)
    (hdropped : s.allowed = false) :
    ∃ start ∈ done, budget.capacity + (s.time - start.time) * budget.rate <
      within start.time s.time done + 1 := by
  induction times using List.reverseRecOn generalizing rest with
  | nil => exact absurd hrun (by simp [run])
  | append_singleton times now ih =>
    obtain ⟨hold, -, hnow⟩ := List.pairwise_append.mp h
    rw [run_concat] at hrun
    rcases List.eq_nil_or_concat rest with rfl | ⟨rest, last, rfl⟩
    · -- it is the last signal of the run
      obtain ⟨hdone, hlast⟩ := List.append_inj' hrun rfl
      obtain rfl := List.singleton_inj.mp hlast
      have hsound : Sound budget times _ := sound_run hold
      cases hstate : (run budget times).2 with
      | none => simp [hstate, draw] at hdropped
      | some bucket =>
        obtain ⟨hlevel, hbucket⟩ := hsound.level bucket hstate
        have hordered := hnow _ (List.mem_of_getLast? hbucket) now List.mem_cons_self
        rw [hstate] at hdropped
        obtain ⟨-, -, hroom⟩ := hlevel.draw hordered
        obtain ⟨start, hstart, hless⟩ := hroom hdropped
        rw [hdone] at hstart hless
        have hle : since start.time done ≤ within start.time now done :=
          (within_eq_since fun s hs => (hlevel.latest s (hdone ▸ hs)).trans hordered).ge
        refine ⟨start, hstart, hless.trans_le ?_⟩
        exact_mod_cast Nat.succ_le_succ hle
    · have hcut : (run budget times).1 ++ [⟨now, (draw budget (run budget times).2 now).1⟩] =
          done ++ s :: rest ++ [last] := by simpa using hrun
      exact ih hold (List.append_inj' hcut rfl).1

end TmuxccDriver.Lib.TokenBucket
