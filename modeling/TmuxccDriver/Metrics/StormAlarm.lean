import Mathlib.Algebra.BigOperators.Group.List.Basic
import Mathlib.Algebra.Order.Floor.Semiring
import Mathlib.Data.Rat.Floor
import TmuxccDriver.Lib.KeyedMap
import TmuxccDriver.Lib.Ring
import TmuxccDriver.Lib.Run

/-!
# The storm alarm

`StormAlarmImpl` of `metrics/storm-alarm.ts`: events are counted in a ring of buckets, a timer
moves the ring on, and the alarm trips when the buckets together reach the threshold. The clock
is read once at a tick. A threshold of `none` is `Infinity`.

The counts of the bucket intervals so far, the current one first, are kept beside the state of
the code.

Results:
1. `sum_add`, `sum_merge`: the counts of a map of kinds.
2. `Sound.step`: the ring holds the latest intervals, and every bucket its kinds.
3. `tick_exact_iff`: when a tick trips as it should.
4. `storm_alarm_iff`: in which runs every tick does.
-/

namespace TmuxccDriver.Metrics.StormAlarm
open TmuxccDriver.Lib

/-! ## Counts by kind -/

structure KindCount where
  kind : String
  count : Nat
deriving DecidableEq

abbrev KindBreakdown := KeyedMap KindCount.kind

namespace KindBreakdown

def count (m : KindBreakdown) (kind : String) : Nat := ((m.get? kind).map (·.count)).getD 0

/-- `m.set(k, (m.get(k) ?? 0) + n)`. -/
def add (m : KindBreakdown) (kind : String) (n : Nat) : KindBreakdown :=
  KeyedMap.set m ⟨kind, m.count kind + n⟩

def sum (m : KindBreakdown) : Nat := (m.values.map (·.count)).sum

/-- The inner loop of `windowBreakdown`. -/
def merge (merged m : KindBreakdown) : KindBreakdown :=
  m.values.foldl (fun merged entry => merged.add entry.kind entry.count) merged

end KindBreakdown

/-! ## The alarm -/

structure StormAlarmOptions where
  windowMs : Rat := 5000
  bucketMs : Rat := 1000
  threshold : Option Rat := some 2500
  resetMs : Rat := 10000

def StormAlarmOptions.bucketCount (opts : StormAlarmOptions) : Nat :=
  max 1 ⌈opts.windowMs / opts.bucketMs⌉₊

/-- What the alarm reports when it trips, and when. -/
structure Trip where
  time : Rat
  total : Nat
  breakdown : KindBreakdown

structure Alarm where
  opts : StormAlarmOptions
  bucketTotals : List Nat
  bucketKinds : List KindBreakdown
  currentBucket : Nat := 0
  running : Bool := false
  lastTripAt : Option Rat := none
  trips : List Trip := []
  intervals : List Nat := [0]

namespace Alarm

def new (opts : StormAlarmOptions) : Alarm :=
  { opts
    bucketTotals := List.replicate opts.bucketCount 0
    bucketKinds := List.replicate opts.bucketCount .empty }

variable (s : Alarm)

def record (kind : Option String) : Alarm :=
  { s with
    bucketTotals := s.bucketTotals.modify s.currentBucket (· + 1)
    bucketKinds := s.bucketKinds.modify s.currentBucket fun m => m.add (kind.getD "unknown") 1
    intervals := s.intervals.modifyHead (· + 1) }

def windowBreakdown : KindBreakdown := s.bucketKinds.foldl KindBreakdown.merge .empty

def windowTotal : Nat := s.bucketTotals.foldl (· + ·) 0

/-- `total >= this.threshold`. -/
def reaches (total : Nat) : Prop :=
  match s.opts.threshold with
  | some threshold => threshold ≤ total
  | none => False

instance (total : Nat) : Decidable (s.reaches total) := by
  unfold reaches
  split <;> infer_instance

/-- `now - this._lastTripAt >= this._resetMs`. -/
def resetPassed (now : Rat) : Prop :=
  match s.lastTripAt with
  | some lastTripAt => s.opts.resetMs ≤ now - lastTripAt
  | none => True

instance (now : Rat) : Decidable (s.resetPassed now) := by
  unfold resetPassed
  split <;> infer_instance

/-- The first half of `_tick`: the next bucket is cleared and becomes the current one. -/
def rotate : Alarm :=
  let currentBucket := (s.currentBucket + 1) % s.opts.bucketCount
  { s with
    currentBucket
    bucketTotals := s.bucketTotals.set currentBucket 0
    bucketKinds := s.bucketKinds.set currentBucket .empty
    intervals := 0 :: s.intervals }

/-- The second half of `_tick`, with `_fireTrip`. -/
def evaluate (now : Rat) : Alarm :=
  if s.reaches s.windowTotal ∧ s.resetPassed now then
    { s with
      lastTripAt := some now
      trips := s.trips ++ [⟨now, s.windowTotal, s.windowBreakdown⟩] }
  else s

end Alarm

/-! ## Runs -/

inductive Event
  | record (kind : Option String)
  | start
  | stop
  /-- The timer fires, which it can do while the alarm is running. -/
  | tick (now : Rat)

def step (s : Alarm) : Event → Option Alarm
  | .record kind => some (s.record kind)
  | .start => some { s with running := true }
  | .stop => some { s with running := false }
  | .tick now => if s.running then some (s.rotate.evaluate now) else none

/-- The events of the latest `n` bucket intervals, the current one included. -/
def Alarm.recorded (s : Alarm) (n : Nat) : Nat := (s.intervals.take n).sum

/-- The reset interval has passed since the last trip that was reported. -/
def Alarm.Rested (s : Alarm) (now : Rat) : Prop :=
  ∀ trip ∈ s.trips.getLast?, s.opts.resetMs ≤ now - trip.time

instance (s : Alarm) (now : Rat) : Decidable (s.Rested now) :=
  inferInstanceAs (Decidable (∀ trip ∈ s.trips.getLast?, _))

/-- A tick trips the alarm exactly if the intervals of the window that end with it have as many
events as the threshold and the reset interval has passed; and what it reports adds up. -/
structure Exact (s : Alarm) (now : Rat) (s' : Alarm) : Prop where
  trips : s'.trips.length = s.trips.length + 1 ↔
    s.reaches (s.recorded s.opts.bucketCount) ∧ s.Rested now
  otherwise : s'.trips = s.trips ∨ ∃ trip, trip.time = now ∧ s'.trips = s.trips ++ [trip]
  adds : ∀ trip ∈ s'.trips, trip.breakdown.sum = trip.total

/-- At a tick where the whole window reaches the threshold, so does the window without its oldest
interval. -/
def Covered (s : Alarm) : Event → Prop
  | .tick now =>
    s.running = true → s.Rested now → s.reaches (s.recorded s.opts.bucketCount) →
      s.reaches (s.recorded (s.opts.bucketCount - 1))
  | _ => True

/-! ## Counts -/

namespace KindBreakdown

@[simp] theorem sum_empty : sum .empty = 0 := rfl

theorem sum_add (m : KindBreakdown) (kind : String) (n : Nat) :
    (m.add kind n).sum = m.sum + n := by
  cases hget : m.get? kind with
  | none =>
    have hnew := KeyedMap.values_set_new (a := (⟨kind, n⟩ : KindCount))
      (KeyedMap.has_eq_false.mpr hget)
    have hcount : m.count kind = 0 := by rw [count, hget]; rfl
    rw [add, hcount, Nat.zero_add, sum, hnew, List.map_append, List.sum_append]
    simp [sum]
  | some entry =>
    have hcount : m.count kind = entry.count := by rw [count, hget]; rfl
    obtain ⟨before, after, hvalues, hset⟩ :=
      KeyedMap.values_set_old (a := (⟨kind, m.count kind + n⟩ : KindCount)) hget
    rw [add, sum, sum, hset, hvalues, hcount]
    simp only [List.map_append, List.map_cons, List.sum_append, List.sum_cons]
    omega

theorem sum_foldl_add (entries : List KindCount) (merged : KindBreakdown) :
    (entries.foldl (fun merged entry => merged.add entry.kind entry.count) merged).sum =
      merged.sum + (entries.map (·.count)).sum := by
  induction entries generalizing merged with
  | nil => rfl
  | cons entry entries ih =>
    rw [List.foldl_cons, ih, sum_add, List.map_cons, List.sum_cons, Nat.add_assoc]

theorem sum_merge (merged m : KindBreakdown) : (merged.merge m).sum = merged.sum + m.sum :=
  sum_foldl_add m.values merged

theorem sum_foldl_merge (ms : List KindBreakdown) (merged : KindBreakdown) :
    (ms.foldl merge merged).sum = merged.sum + (ms.map sum).sum := by
  induction ms generalizing merged with
  | nil => rfl
  | cons m ms ih =>
    rw [List.foldl_cons, ih, sum_merge, List.map_cons, List.sum_cons, Nat.add_assoc]

end KindBreakdown

/-! ## The ring -/

/-- The latest `n` intervals, with intervals of no events before the first one. -/
def padded (intervals : List Nat) (n : Nat) : List Nat :=
  (intervals ++ List.replicate n 0).take n

/-- The ring holds the latest intervals, every bucket has its kinds, every report adds up, and the
time that is kept is that of the last one. -/
structure Sound (s : Alarm) : Prop where
  current : s.currentBucket < s.bucketTotals.length
  size : s.bucketTotals.length = s.opts.bucketCount
  kinds : s.bucketKinds.map KindBreakdown.sum = s.bucketTotals
  recent : Ring.recent s.bucketTotals s.currentBucket = padded s.intervals s.opts.bucketCount
  started : s.intervals ≠ []
  adds : ∀ trip ∈ s.trips, trip.breakdown.sum = trip.total
  last : s.lastTripAt = s.trips.getLast?.map (·.time)

theorem bucketCount_pos (opts : StormAlarmOptions) : 0 < opts.bucketCount := by
  unfold StormAlarmOptions.bucketCount
  exact Nat.lt_of_lt_of_le Nat.one_pos (le_max_left _ _)

theorem sum_padded (xs : List Nat) (n : Nat) : (padded xs n).sum = (xs.take n).sum := by
  rw [padded, List.take_append, List.sum_append, List.take_replicate, List.sum_replicate]
  simp

theorem padded_modifyHead {xs : List Nat} {n : Nat} (hxs : xs ≠ []) (hn : 0 < n) (f : Nat → Nat) :
    padded (xs.modifyHead f) n = (padded xs n).modifyHead f := by
  obtain ⟨x, xs, rfl⟩ := List.exists_cons_of_ne_nil hxs
  obtain ⟨n, rfl⟩ := Nat.exists_eq_add_of_le' hn
  rfl

theorem padded_cons {xs : List Nat} {n : Nat} (hxs : xs ≠ []) (hn : 0 < n) :
    padded (0 :: xs) n = 0 :: (padded xs n).dropLast := by
  have hlen : n < (xs ++ List.replicate n 0).length := by
    rw [List.length_append, List.length_replicate]
    exact Nat.lt_add_of_pos_left (List.length_pos_of_ne_nil hxs)
  rw [padded, padded, List.dropLast_take hlen]
  obtain ⟨n, rfl⟩ := Nat.exists_eq_add_of_le' hn
  rfl

theorem modify_map_sum (ms : List KindBreakdown) (i : Nat) (kind : String) :
    (ms.modify i fun m => m.add kind 1).map KindBreakdown.sum =
      (ms.map KindBreakdown.sum).modify i (· + 1) := by
  induction ms generalizing i with
  | nil => simp
  | cons m ms ih =>
    cases i with
    | zero => simp [KindBreakdown.sum_add]
    | succ i => simpa using ih i

namespace Sound

theorem new (opts : StormAlarmOptions) : Sound (.new opts) where
  current := by
    rw [Alarm.new, List.length_replicate]
    exact bucketCount_pos opts
  size := List.length_replicate
  kinds := by simp [Alarm.new]
  recent := by
    obtain ⟨n, hn⟩ := Nat.exists_eq_add_of_le' (bucketCount_pos opts)
    simp [Alarm.new, Ring.recent, padded, hn]
  started := by simp [Alarm.new]
  adds := by simp [Alarm.new]
  last := rfl

variable {s : Alarm}

theorem resetPassed_iff (h : Sound s) (now : Rat) : s.resetPassed now ↔ s.Rested now := by
  unfold Alarm.resetPassed Alarm.Rested
  rw [h.last]
  cases s.trips.getLast? <;> simp

theorem windowTotal_eq (h : Sound s) : s.windowTotal = s.recorded s.opts.bucketCount := by
  have hsum : s.bucketTotals.sum = (Ring.recent s.bucketTotals s.currentBucket).sum :=
    (Ring.recent_perm _ _).sum_eq.symm
  rw [Alarm.windowTotal, ← List.sum_eq_foldl, hsum, h.recent, sum_padded, Alarm.recorded]

theorem windowBreakdown_sum (h : Sound s) : s.windowBreakdown.sum = s.windowTotal := by
  rw [Alarm.windowBreakdown, KindBreakdown.sum_foldl_merge, h.kinds, Alarm.windowTotal,
    ← List.sum_eq_foldl]
  exact Nat.zero_add _

theorem record (h : Sound s) (kind : Option String) : Sound (s.record kind) where
  current := by simpa [Alarm.record] using h.current
  size := by simpa [Alarm.record] using h.size
  kinds := by
    show (s.bucketKinds.modify _ _).map _ = s.bucketTotals.modify _ _
    rw [modify_map_sum, h.kinds]
  recent := by
    show Ring.recent (s.bucketTotals.modify s.currentBucket _) s.currentBucket = padded _ _
    rw [Ring.recent_modify h.current, h.recent]
    exact (padded_modifyHead h.started (bucketCount_pos s.opts) _).symm
  started := by
    obtain ⟨x, xs, hxs⟩ := List.exists_cons_of_ne_nil h.started
    simp [Alarm.record, hxs]
  adds := h.adds
  last := h.last

theorem rotate (h : Sound s) : Sound s.rotate where
  current := by
    show (s.currentBucket + 1) % s.opts.bucketCount < (s.bucketTotals.set _ 0).length
    rw [List.length_set, ← h.size]
    exact Ring.next_lt h.current
  size := by simpa [Alarm.rotate] using h.size
  kinds := by
    show (s.bucketKinds.set _ _).map _ = s.bucketTotals.set _ 0
    rw [List.map_set, h.kinds]
    rfl
  recent := by
    have hadvance := Ring.recent_advance h.current 0
    rw [h.recent, ← padded_cons h.started (bucketCount_pos s.opts), Ring.next, h.size] at hadvance
    exact hadvance
  started := List.cons_ne_nil _ _
  adds := h.adds
  last := h.last

theorem evaluate (h : Sound s) (now : Rat) : Sound (s.evaluate now) := by
  unfold Alarm.evaluate
  split
  · refine { h with adds := fun trip htrip => ?_, last := by simp }
    rcases List.mem_append.mp htrip with hold | hnew
    · exact h.adds trip hold
    · rw [List.mem_singleton.mp hnew]
      exact h.windowBreakdown_sum
  · exact h

theorem step (h : Sound s) {e : Event} {s' : Alarm} (hstep : step s e = some s') : Sound s' := by
  cases e with
  | record kind =>
    obtain rfl := Option.some.inj hstep
    exact h.record kind
  | start =>
    obtain rfl := Option.some.inj hstep
    exact { h with }
  | stop =>
    obtain rfl := Option.some.inj hstep
    exact { h with }
  | tick now =>
    simp only [StormAlarm.step] at hstep
    split at hstep
    · obtain rfl := Option.some.inj hstep
      exact h.rotate.evaluate now
    · cases hstep

end Sound

/-! ## Ticks -/

section Tick
variable {s : Alarm} {now : Rat}

/-- What the buckets count after the oldest one was cleared. -/
theorem windowTotal_rotate (h : Sound s) :
    s.rotate.windowTotal = s.recorded (s.opts.bucketCount - 1) := by
  obtain ⟨n, hn⟩ := Nat.exists_eq_add_of_le' (bucketCount_pos s.opts)
  rw [h.rotate.windowTotal_eq]
  show ((0 :: s.intervals).take s.opts.bucketCount).sum = (s.intervals.take _).sum
  rw [hn, List.take_succ_cons, List.sum_cons, Nat.zero_add, Nat.add_sub_cancel]

theorem recorded_mono (s : Alarm) {n k : Nat} (h : n ≤ k) : s.recorded n ≤ s.recorded k := by
  obtain ⟨d, rfl⟩ := Nat.exists_eq_add_of_le h
  rw [Alarm.recorded, Alarm.recorded, List.take_add, List.sum_append]
  exact Nat.le_add_right _ _

theorem reaches_mono (s : Alarm) {n k : Nat} (h : n ≤ k) (hn : s.reaches n) : s.reaches k := by
  unfold Alarm.reaches at hn ⊢
  split
  · next threshold hthreshold =>
    rw [hthreshold] at hn
    exact le_trans hn (Nat.cast_le.mpr h)
  · next hthreshold =>
    rw [hthreshold] at hn
    exact hn

/-- A tick trips exactly if the window without its oldest interval reaches the threshold and the
reset interval has passed. -/
theorem evaluate_rotate (h : Sound s) (now : Rat) :
    (s.reaches (s.recorded (s.opts.bucketCount - 1)) ∧ s.Rested now ∧
        ∃ trip, trip.time = now ∧ (s.rotate.evaluate now).trips = s.trips ++ [trip]) ∨
      ¬(s.reaches (s.recorded (s.opts.bucketCount - 1)) ∧ s.Rested now) ∧
        (s.rotate.evaluate now).trips = s.trips := by
  have hcond : s.rotate.reaches s.rotate.windowTotal ↔
      s.reaches (s.recorded (s.opts.bucketCount - 1)) := by
    rw [windowTotal_rotate h]
    rfl
  have hrested : s.rotate.resetPassed now ↔ s.Rested now := h.resetPassed_iff now
  unfold Alarm.evaluate
  split
  · next htrip => exact Or.inl ⟨hcond.mp htrip.1, hrested.mp htrip.2, _, rfl, rfl⟩
  · next hquiet =>
    exact Or.inr ⟨fun hno => hquiet ⟨hcond.mpr hno.1, hrested.mpr hno.2⟩, rfl⟩

theorem tick_exact_iff (h : Sound s) (hrunning : s.running = true) :
    Exact s now (s.rotate.evaluate now) ↔ Covered s (.tick now) := by
  have hwhole : s.reaches (s.recorded (s.opts.bucketCount - 1)) →
      s.reaches (s.recorded s.opts.bucketCount) :=
    reaches_mono s (recorded_mono s (Nat.sub_le _ _))
  have hadds := (h.rotate.evaluate now).adds
  rcases evaluate_rotate h now with ⟨hreaches, hpassed, trip, htime, htrips⟩ | ⟨hnot, htrips⟩
  · have hlength : (s.rotate.evaluate now).trips.length = s.trips.length + 1 := by
      rw [htrips, List.length_append, List.length_singleton]
    exact ⟨fun _ _ _ _ => hreaches,
      fun _ => ⟨iff_of_true hlength ⟨hwhole hreaches, hpassed⟩, Or.inr ⟨trip, htime, htrips⟩,
        hadds⟩⟩
  · have hlength : (s.rotate.evaluate now).trips.length ≠ s.trips.length + 1 := by
      rw [htrips]
      exact (Nat.lt_succ_self _).ne
    constructor
    · intro hexact _ hpassed hfull
      exact absurd (hexact.trips.mpr ⟨hfull, hpassed⟩) hlength
    · intro hcovered
      refine ⟨iff_of_false hlength fun hfull => ?_, Or.inl htrips, hadds⟩
      exact hnot ⟨hcovered hrunning hfull.2 hfull.1, hfull.2⟩

end Tick

/-- In a run from a new alarm every tick is exact, exactly if at every tick at which the reset
interval has passed and the window reaches the threshold, the window without its oldest interval
reaches it too. -/
theorem storm_alarm_iff (opts : StormAlarmOptions) (events : List Event) :
    (∀ done now s s', done ++ [.tick now] <+: events → exec step (.new opts) done = some s →
        step s (.tick now) = some s' → Exact s now s') ↔
      Along step Covered (.new opts) events := by
  have hlocal : Along step
        (fun s e => ∀ s', step s e = some s' → ∀ now, e = .tick now → Exact s now s')
        (.new opts) events ↔ Along step Covered (.new opts) events := by
    refine along_congr (fun s e s' hs hstep => hs.step hstep) (fun s e hs => ?_) (Sound.new opts)
    cases e with
    | tick now =>
      by_cases hrunning : s.running = true
      · rw [← tick_exact_iff hs hrunning]
        simp [step, hrunning]
      · exact iff_of_true (by simp [step, hrunning]) fun hno => absurd hno hrunning
    | record kind | start | stop => exact iff_of_true (fun _ _ _ hno => nomatch hno) trivial
  rw [← hlocal, ← steps_iff_along
    (R := fun s e s' => ∀ now, e = Event.tick now → Exact s now s')]
  constructor
  · rintro hall done e s s' hpart hdone hstep now rfl
    exact hall done now s s' hpart hdone hstep
  · intro hall done now s s' hpart hdone hstep
    exact hall done _ s s' hpart hdone hstep now rfl

/-- One event in each of five bucket intervals. -/
def steady : List Event :=
  .start :: (List.range 4).flatMap (fun i => [.record none, .tick (1000 * (i + 1))]) ++
    [.record none]

def steadyAlarm : Alarm := (exec step (.new { threshold := some 5 }) steady).getD (.new {})

/-- With a threshold of five events in five intervals, the tick that ends the fifth does not
trip: the event of the first one was cleared before the buckets were counted. -/
theorem steady_not_exact :
    ¬∀ done now s s', done ++ [.tick now] <+: steady ++ [.tick 5000] →
      exec step (.new { threshold := some 5 }) done = some s → step s (.tick now) = some s' →
        Exact s now s' := by
  intro hall
  have hsome : (exec step (.new { threshold := some 5 }) steady).isSome = true := by
    decide +kernel
  have hrun : exec step (.new { threshold := some 5 }) steady = some steadyAlarm := by
    obtain ⟨s, hs⟩ := Option.isSome_iff_exists.mp hsome
    rw [steadyAlarm, hs]
    rfl
  have hrunning : steadyAlarm.running = true := by decide +kernel
  have hexact := hall steady 5000 _ _ (List.prefix_refl _) hrun (if_pos hrunning)
  have hcalm : (steadyAlarm.rotate.evaluate 5000).trips.length ≠ steadyAlarm.trips.length + 1 := by
    decide +kernel
  exact hcalm (hexact.trips.mpr (by decide +kernel))

end TmuxccDriver.Metrics.StormAlarm
