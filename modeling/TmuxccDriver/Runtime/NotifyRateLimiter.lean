import Mathlib.Algebra.Order.Field.Rat
import Mathlib.Logic.Function.Basic
import Mathlib.Tactic.NormNum
import TmuxccDriver.Lib.TokenBucket
import TmuxccDriver.Parser.NotifyScanner

/-!
# The rate limiter of pane notifications

`PaneNotifyRateLimiter` of `runtime/notify-rate-limiter.ts`: a token bucket for each kind of
signal, which the first signal of the kind makes. Times and tokens are exact rationals.

Results:
1. `allow_own`, `allow_other`: a signal is one draw from the bucket of its kind.
2. `outcomes_kind`: the outcomes of a kind are a run of its bucket.
3. `rate_limited`: the bound, the separation of the kinds and the reason of every drop.
-/

namespace TmuxccDriver.Runtime.RateLimiter
open TmuxccDriver.Lib TmuxccDriver.Parser

structure Budget where
  ratePerSec : Rat
  capacity : Rat

def BUDGETS : PaneNotifyKind → Budget
  | .bell => { ratePerSec := 10, capacity := 10 }
  | .osc9 => { ratePerSec := 10, capacity := 10 }
  | .progress => { ratePerSec := 5, capacity := 3 }
  | .cmdExit => { ratePerSec := 20, capacity := 20 }

structure Bucket where
  tokens : Rat
  lastRefillMs : Rat

structure PaneNotifyRateLimiter where
  buckets : PaneNotifyKind → Option Bucket := fun _ => none

/-- The refill of `allow`, by the time since the last one. -/
def refill (budget : Budget) (bucket : Bucket) (nowMs : Rat) : Bucket :=
  let elapsedMs := nowMs - bucket.lastRefillMs
  if 0 < elapsedMs then
    { tokens := min budget.capacity (bucket.tokens + elapsedMs / 1000 * budget.ratePerSec)
      lastRefillMs := nowMs }
  else bucket

namespace PaneNotifyRateLimiter
variable (limiter : PaneNotifyRateLimiter)

def set (kind : PaneNotifyKind) (bucket : Bucket) : PaneNotifyRateLimiter :=
  ⟨Function.update limiter.buckets kind (some bucket)⟩

def allow (kind : PaneNotifyKind) (nowMs : Rat) : Bool × PaneNotifyRateLimiter :=
  let budget := BUDGETS kind
  match limiter.buckets kind with
  | none =>
    (true, limiter.set kind { tokens := budget.capacity - 1, lastRefillMs := nowMs })
  | some bucket =>
    let bucket := refill budget bucket nowMs
    if 1 ≤ bucket.tokens then
      (true, limiter.set kind { bucket with tokens := bucket.tokens - 1 })
    else (false, limiter.set kind bucket)

end PaneNotifyRateLimiter

/-! ## Runs -/

structure Signal where
  kind : PaneNotifyKind
  nowMs : Rat

structure Outcome where
  kind : PaneNotifyKind
  nowMs : Rat
  allowed : Bool
deriving DecidableEq

/-- The outcomes of signals so far and the limiter after them. -/
def run (signals : List Signal) : List Outcome × PaneNotifyRateLimiter :=
  signals.foldl
    (fun s signal =>
      (s.1 ++ [⟨signal.kind, signal.nowMs, (s.2.allow signal.kind signal.nowMs).1⟩],
        (s.2.allow signal.kind signal.nowMs).2))
    ([], {})

def outcomes (signals : List Signal) : List Outcome := (run signals).1

/-- How many signals of a kind were allowed in an interval. -/
def allowedWithin (kind : PaneNotifyKind) (a b : Rat) (outcomes : List Outcome) : Nat :=
  outcomes.countP fun o =>
    o.kind = kind && o.allowed && decide (a ≤ o.nowMs) && decide (o.nowMs ≤ b)

/-- What a kind may have in an interval. -/
def allowance (kind : PaneNotifyKind) (a b : Rat) : Rat :=
  (BUDGETS kind).capacity + (BUDGETS kind).ratePerSec * ((b - a) / 1000)

/-! ## The bucket of a kind -/

/-- The budget of a kind in tokens for each millisecond. -/
def budgetOf (kind : PaneNotifyKind) : TokenBucket.Budget Rat where
  rate := (BUDGETS kind).ratePerSec / 1000
  capacity := (BUDGETS kind).capacity
  rate_nonneg := by cases kind <;> norm_num [BUDGETS]
  one_le := by cases kind <;> norm_num [BUDGETS]

def Bucket.level (bucket : Bucket) : TokenBucket.Bucket Rat := ⟨bucket.tokens, bucket.lastRefillMs⟩

theorem level_refill (kind : PaneNotifyKind) (bucket : Bucket) (nowMs : Rat) :
    (refill (BUDGETS kind) bucket nowMs).level =
      TokenBucket.refill (budgetOf kind) bucket.level nowMs := by
  have hgain : (nowMs - bucket.lastRefillMs) / 1000 * (BUDGETS kind).ratePerSec =
      (nowMs - bucket.lastRefillMs) * ((BUDGETS kind).ratePerSec / 1000) := by ring
  rcases lt_or_ge 0 (nowMs - bucket.lastRefillMs) with hlater | hsame
  · simp [refill, TokenBucket.refill, Bucket.level, budgetOf, hlater, hgain]
  · simp [refill, TokenBucket.refill, Bucket.level, not_lt.mpr hsame]

section Allow
variable (limiter : PaneNotifyRateLimiter) (kind : PaneNotifyKind) (nowMs : Rat)

@[simp] theorem set_self (bucket : Bucket) :
    (limiter.set kind bucket).buckets kind = some bucket := Function.update_self ..

theorem set_other {k : PaneNotifyKind} (hk : k ≠ kind) (bucket : Bucket) :
    (limiter.set kind bucket).buckets k = limiter.buckets k := Function.update_of_ne hk ..

theorem allow_own :
    (limiter.allow kind nowMs).1 =
        (TokenBucket.draw (budgetOf kind) ((limiter.buckets kind).map Bucket.level) nowMs).1 ∧
      ((limiter.allow kind nowMs).2.buckets kind).map Bucket.level =
        some (TokenBucket.draw (budgetOf kind)
          ((limiter.buckets kind).map Bucket.level) nowMs).2 := by
  unfold PaneNotifyRateLimiter.allow
  cases hbucket : limiter.buckets kind with
  | none => simp [TokenBucket.draw, Bucket.level, budgetOf]
  | some bucket =>
    have hlevel := level_refill kind bucket nowMs
    rw [Option.map_some, TokenBucket.draw_some, ← hlevel]
    by_cases htoken : 1 ≤ (refill (BUDGETS kind) bucket nowMs).tokens
    · simp [Bucket.level, htoken]
    · simp [Bucket.level, htoken]

theorem allow_other {k : PaneNotifyKind} (hk : k ≠ kind) :
    (limiter.allow kind nowMs).2.buckets k = limiter.buckets k := by
  unfold PaneNotifyRateLimiter.allow
  cases limiter.buckets kind with
  | none => exact set_other limiter kind hk _
  | some bucket =>
    simp only
    split
    · exact set_other limiter kind hk _
    · exact set_other limiter kind hk _

end Allow

/-! ## Outcomes -/

theorem run_concat (signals : List Signal) (signal : Signal) :
    run (signals ++ [signal]) =
      ((run signals).1 ++
          [⟨signal.kind, signal.nowMs, ((run signals).2.allow signal.kind signal.nowMs).1⟩],
        ((run signals).2.allow signal.kind signal.nowMs).2) := by
  rw [run, List.foldl_append]
  rfl

/-- The times of the signals of a kind. -/
def timesOf (kind : PaneNotifyKind) (signals : List Signal) : List Rat :=
  (signals.filter (·.kind = kind)).map (·.nowMs)

/-- The outcomes of a kind as those of a bucket. -/
def ofKind (kind : PaneNotifyKind) (outcomes : List Outcome) : List (TokenBucket.Signal Rat) :=
  (outcomes.filter (·.kind = kind)).map fun o => ⟨o.nowMs, o.allowed⟩

/-- A kind has the run of its own bucket, whatever the other kinds do. -/
theorem run_kind (kind : PaneNotifyKind) (signals : List Signal) :
    ofKind kind (run signals).1 = (TokenBucket.run (budgetOf kind) (timesOf kind signals)).1 ∧
      ((run signals).2.buckets kind).map Bucket.level =
        (TokenBucket.run (budgetOf kind) (timesOf kind signals)).2 := by
  induction signals using List.reverseRecOn with
  | nil => exact ⟨rfl, rfl⟩
  | append_singleton signals signal ih =>
    obtain ⟨houtcomes, hbucket⟩ := ih
    rw [run_concat]
    rcases eq_or_ne signal.kind kind with hkind | hkind
    · obtain ⟨hallowed, hafter⟩ := allow_own (run signals).2 kind signal.nowMs
      have htimes :
          timesOf kind (signals ++ [signal]) = timesOf kind signals ++ [signal.nowMs] := by
        simp [timesOf, hkind]
      rw [htimes, TokenBucket.run_concat, ← houtcomes, ← hbucket, hkind]
      refine ⟨?_, hafter⟩
      simp [ofKind, hallowed]
    · have htimes : timesOf kind (signals ++ [signal]) = timesOf kind signals := by
        simp [timesOf, hkind]
      rw [htimes, ← houtcomes, ← hbucket]
      refine ⟨by simp [ofKind, hkind], ?_⟩
      rw [allow_other _ _ _ hkind.symm]

theorem ofKind_outcomes (kind : PaneNotifyKind) (signals : List Signal) :
    ofKind kind (outcomes signals) = (TokenBucket.run (budgetOf kind) (timesOf kind signals)).1 :=
  (run_kind kind signals).1

theorem allowedWithin_eq (kind : PaneNotifyKind) (a b : Rat) (outcomes : List Outcome) :
    allowedWithin kind a b outcomes = TokenBucket.within a b (ofKind kind outcomes) := by
  rw [TokenBucket.within, ofKind, List.countP_map, List.countP_filter]
  refine List.countP_congr fun o _ => ?_
  simp only [Function.comp_apply, Bool.and_eq_true, decide_eq_true_eq]
  tauto

theorem allowance_eq (kind : PaneNotifyKind) (a b : Rat) :
    allowance kind a b = (budgetOf kind).capacity + (b - a) * (budgetOf kind).rate := by
  simp only [allowance, budgetOf]
  ring

/-- The outcomes of a kind can be told from those of its bucket. -/
theorem filter_kind (kind : PaneNotifyKind) (outcomes : List Outcome) :
    outcomes.filter (·.kind = kind) =
      (ofKind kind outcomes).map fun s => ⟨kind, s.time, s.allowed⟩ := by
  rw [ofKind, List.map_map]
  refine (List.map_id _).symm.trans (List.map_congr_left fun o ho => ?_)
  have hkind : o.kind = kind := by simpa using (List.mem_filter.mp ho).2
  simp [← hkind]

theorem outcomes_kinds (signals : List Signal) :
    (outcomes signals).map (·.kind) = signals.map (·.kind) := by
  induction signals using List.reverseRecOn with
  | nil => rfl
  | append_singleton signals signal ih =>
    rw [outcomes, run_concat, List.map_append, List.map_append, ← ih]
    rfl

theorem timesOf_filter (kind : PaneNotifyKind) (signals : List Signal) :
    timesOf kind (signals.filter (·.kind = kind)) = timesOf kind signals := by
  rw [timesOf, timesOf, List.filter_filter]
  simp

/-- A kind has the outcomes that it has without the signals of the other kinds. -/
theorem outcomes_filter (kind : PaneNotifyKind) (signals : List Signal) :
    (outcomes signals).filter (·.kind = kind) = outcomes (signals.filter (·.kind = kind)) := by
  have hown : (outcomes (signals.filter (·.kind = kind))).filter (·.kind = kind) =
      outcomes (signals.filter (·.kind = kind)) := by
    refine List.filter_eq_self.mpr fun o ho => ?_
    have hkind := List.mem_map_of_mem (f := (·.kind)) ho
    rw [outcomes_kinds] at hkind
    obtain ⟨signal, hsignal, hsame⟩ := List.mem_map.mp hkind
    simpa [hsame] using (List.mem_filter.mp hsignal).2
  rw [← hown, filter_kind, filter_kind, ofKind_outcomes, ofKind_outcomes, timesOf_filter]

theorem sorted_timesOf {signals : List Signal} (h : signals.Pairwise (·.nowMs ≤ ·.nowMs))
    (kind : PaneNotifyKind) : (timesOf kind signals).Pairwise (· ≤ ·) :=
  List.pairwise_map.mpr (h.filter _)

/-- The outcome at a place of the history, in the history of its kind. -/
theorem ofKind_split (done rest : List Outcome) (o : Outcome) :
    ofKind o.kind (done ++ o :: rest) =
      ofKind o.kind done ++ ⟨o.nowMs, o.allowed⟩ :: ofKind o.kind rest := by
  simp [ofKind]

/-- For signals in the order of time: no interval has more of a kind than its allowance; the
outcomes of a kind are those that it has alone; and a signal that is dropped would have been one
too many for the interval from some earlier signal of its kind up to it. -/
theorem rate_limited (signals : List Signal) (h : signals.Pairwise (·.nowMs ≤ ·.nowMs)) :
    (∀ kind a b, a ≤ b → (allowedWithin kind a b (outcomes signals) : Rat) ≤ allowance kind a b) ∧
    (∀ kind, (outcomes signals).filter (·.kind = kind) =
      outcomes (signals.filter (·.kind = kind))) ∧
    (∀ done o rest, outcomes signals = done ++ o :: rest → o.allowed = false →
      ∃ start ∈ done, start.kind = o.kind ∧
        allowance o.kind start.nowMs o.nowMs <
          allowedWithin o.kind start.nowMs o.nowMs done + 1) := by
  refine ⟨fun kind a b hab => ?_, fun kind => outcomes_filter kind signals, ?_⟩
  · rw [allowedWithin_eq, ofKind_outcomes, allowance_eq]
    exact TokenBucket.within_le (sorted_timesOf h kind) hab
  · intro done o rest hsplit hdropped
    have hrun := ofKind_outcomes o.kind signals
    rw [hsplit, ofKind_split] at hrun
    obtain ⟨start, hstart, hless⟩ :=
      TokenBucket.dropped_of_run (sorted_timesOf h o.kind) hrun.symm hdropped
    obtain ⟨earlier, hearlier, rfl⟩ := List.mem_map.mp hstart
    obtain ⟨hdone, hkind⟩ := List.mem_filter.mp hearlier
    refine ⟨earlier, hdone, by simpa using hkind, ?_⟩
    rw [allowance_eq, allowedWithin_eq]
    exact hless

/-- Four progress signals at once with bells among them, and two more after a refill. -/
def burst : List Signal :=
  [⟨.progress, 0⟩, ⟨.progress, 0⟩, ⟨.bell, 0⟩, ⟨.progress, 0⟩, ⟨.progress, 0⟩, ⟨.bell, 100⟩,
    ⟨.progress, 300⟩, ⟨.progress, 350⟩]

/-- All of it but the last signal, of which the fourth at once was dropped. -/
def passed : List Outcome :=
  [⟨.progress, 0, true⟩, ⟨.progress, 0, true⟩, ⟨.bell, 0, true⟩, ⟨.progress, 0, true⟩,
    ⟨.progress, 0, false⟩, ⟨.bell, 100, true⟩, ⟨.progress, 300, true⟩]

/-- The last signal is dropped: the refill has made one token, and it is gone. -/
theorem rate_limited_burst :
    burst.Pairwise (·.nowMs ≤ ·.nowMs) ∧
    (allowedWithin .progress 0 350 (outcomes burst) : Rat) ≤ allowance .progress 0 350 ∧
    (outcomes burst).filter (·.kind = .bell) = outcomes (burst.filter (·.kind = .bell)) ∧
    ∃ start ∈ passed, start.kind = .progress ∧
      allowance .progress start.nowMs 350 <
        allowedWithin .progress start.nowMs 350 passed + 1 := by
  have hsorted : burst.Pairwise (·.nowMs ≤ ·.nowMs) := by decide +kernel
  obtain ⟨hbound, hown, hdrop⟩ := rate_limited burst hsorted
  have hrun : outcomes burst = passed ++ ⟨.progress, 350, false⟩ :: [] := by decide +kernel
  exact ⟨hsorted, hbound .progress 0 350 (by norm_num), hown .bell, hdrop _ _ _ hrun rfl⟩

end TmuxccDriver.Runtime.RateLimiter
