import Mathlib.Algebra.Order.Ring.Rat
import Mathlib.Tactic.Linarith
import TmuxccDriver.State.Requery

/-!
# The coalescer

`state/coalescer.ts`: topology notifications mark the engine dirty, and requeries are
spaced by a ceiling: the first notification after a quiet period fires at once, the others
wait for one trailing timer. The clock is the injected one; a timer fires at its due time
or later, by an event.

Results:
1. `Paced`: the invariant of the coalescer, its timers and its callbacks.
2. `paced_of_run`: it holds after every run.
3. `coalescer_law_of_run`: the ceiling, one requery and one trailing timer at most, and a
   trailing timer whenever the engine is dirty and idle.
-/

namespace TmuxccDriver.State
open TmuxccDriver.Lib TmuxccDriver.Parser

/-! ## Clock -/

inductive TimerKind
  | trailing
  | heartbeat
deriving DecidableEq, Repr

/-- A timer that is armed: its handle, when it is due, and which callback it runs. -/
structure Timer where
  handle : Nat
  due : Rat
  kind : TimerKind

structure Clock where
  now : Rat
  timers : KeyedMap Timer.handle
  nextHandle : Nat

namespace Clock

/-- `setTimeout`, with the handle it returns. -/
def setTimeout (clock : Clock) (kind : TimerKind) (ms : Rat) : Clock × Nat :=
  ({ clock with
      timers := clock.timers.set ⟨clock.nextHandle, clock.now + ms, kind⟩
      nextHandle := clock.nextHandle + 1 }, clock.nextHandle)

def clearTimeout (clock : Clock) (handle : Nat) : Clock :=
  { clock with timers := clock.timers.delete handle }

end Clock

/-! ## Coalescer -/

inductive CycleEdge
  | leading
  | trailing
  | heartbeat
deriving DecidableEq, Repr

structure CycleMeta where
  edge : CycleEdge
  firstNotifyAt : Option Rat
deriving DecidableEq

/-- The fields of `CoalescerImpl`; `lastRequeryAt` is `none` for minus infinity. -/
structure Coalescer where
  ceilingMs : Rat
  heartbeatMs : Rat
  firstNotifyAt : Option Rat
  pendingEdge : CycleEdge
  heartbeatPending : Bool
  lastRequeryAt : Option Rat
  trailingHandle : Option Nat
  heartbeatHandle : Option Nat
  inFlight : Bool

def DEFAULT_CEILING_MS : Rat := 1000

def DEFAULT_HEARTBEAT_MS : Rat := 30000

def createCoalescer (ceilingMs heartbeatMs : Option Rat) : Coalescer where
  ceilingMs := ceilingMs.getD DEFAULT_CEILING_MS
  heartbeatMs := heartbeatMs.getD DEFAULT_HEARTBEAT_MS
  firstNotifyAt := none
  pendingEdge := .leading
  heartbeatPending := false
  lastRequeryAt := none
  trailingHandle := none
  heartbeatHandle := none
  inFlight := false

/-- The coalescer with its clock and its engine. `awaiting` are the callbacks of requery
promises that have not run, each with what it captured, and `inbox` is what the promise was
settled with. The last three fields are an observer's: when each requery was started, the
last one first, whether `stop` was called, and whether a fatal error was reported. -/
structure Scheduler where
  clock : Clock
  engine : RequeryEngine
  coalescer : Coalescer
  awaiting : List CycleMeta
  inbox : Option (Except RequeryError RequeryResult)
  starts : List Rat
  stopped : Bool
  fatal : Bool

namespace Scheduler

def markDirty (s : Scheduler) : Scheduler := { s with engine := s.engine.markDirty }

/-- `_runRequery`. -/
def runRequery (s : Scheduler) : Scheduler :=
  { s with
    engine := s.engine.requery
    coalescer := { s.coalescer with
      lastRequeryAt := some s.clock.now
      inFlight := true
      firstNotifyAt := none
      heartbeatPending := false }
    awaiting := s.awaiting ++ [⟨s.coalescer.pendingEdge, s.coalescer.firstNotifyAt⟩]
    starts := s.clock.now :: s.starts }

/-- The time since the last requery began; `none` is infinite. -/
def elapsed (s : Scheduler) : Option Rat := s.coalescer.lastRequeryAt.map (s.clock.now - ·)

/-- Arm the trailing timer. -/
def armTrailing (s : Scheduler) (wait : Rat) : Scheduler :=
  { s with
    clock := (s.clock.setTimeout .trailing wait).1
    coalescer := { s.coalescer with
      trailingHandle := some (s.clock.setTimeout .trailing wait).2 } }

def setPendingEdge (s : Scheduler) (edge : CycleEdge) : Scheduler :=
  { s with coalescer := { s.coalescer with
      pendingEdge := if s.coalescer.heartbeatPending then .heartbeat else edge } }

/-- `_maybeFire`. -/
def maybeFire (s : Scheduler) : Scheduler :=
  if s.coalescer.inFlight then s
  else if s.coalescer.trailingHandle ≠ none then s
  else
    match s.elapsed with
    | none => (s.setPendingEdge .leading).runRequery
    | some elapsed =>
      if s.coalescer.ceilingMs ≤ elapsed then (s.setPendingEdge .leading).runRequery
      else (s.setPendingEdge .trailing).armTrailing (s.coalescer.ceilingMs - elapsed)

/-- `notify`. -/
def notify (s : Scheduler) : Scheduler :=
  ({ s with coalescer := { s.coalescer with
      firstNotifyAt := s.coalescer.firstNotifyAt.or (some s.clock.now) } }.markDirty).maybeFire

/-- `_armHeartbeat`. -/
def armHeartbeat (s : Scheduler) : Scheduler :=
  if s.coalescer.heartbeatHandle ≠ none then s
  else
    { s with
      clock := (s.clock.setTimeout .heartbeat s.coalescer.heartbeatMs).1
      coalescer := { s.coalescer with
        heartbeatHandle := some (s.clock.setTimeout .heartbeat s.coalescer.heartbeatMs).2 } }

/-- `clearTimeout` of a handle that may be null. -/
def clearHandle (clock : Clock) (handle : Option Nat) : Clock :=
  match handle with
  | none => clock
  | some handle => clock.clearTimeout handle

/-- `stop`. -/
def stop (s : Scheduler) : Scheduler :=
  { s with
    clock := clearHandle (clearHandle s.clock s.coalescer.trailingHandle)
      s.coalescer.heartbeatHandle
    coalescer := { s.coalescer with trailingHandle := none, heartbeatHandle := none }
    stopped := true }

/-- `_scheduleRetryAfterFailure`. -/
def scheduleRetryAfterFailure (s : Scheduler) : Scheduler :=
  if s.coalescer.trailingHandle ≠ none then s
  else
    match s.elapsed with
    | none => s.armTrailing 0
    | some elapsed => s.armTrailing (max 0 (s.coalescer.ceilingMs - elapsed))

/-- A cycle that failed keeps the time of the notification that asked for it. -/
def restoreFirstNotifyAt (s : Scheduler) (firstNotifyAt : Option Rat) : Scheduler :=
  { s with coalescer := { s.coalescer with
      firstNotifyAt := s.coalescer.firstNotifyAt.or firstNotifyAt } }

def maybeFireIfDirty (s : Scheduler) : Scheduler := if s.engine.dirty then s.maybeFire else s

/-- `_onCycleSettled`, with what it hands to `onDeltas`. -/
def onCycleSettled (s : Scheduler) (outcome : Except RequeryError RequeryResult)
    (cycle : CycleMeta) : Scheduler × Option (RequeryResult × CycleMeta) :=
  let s := { s with coalescer := { s.coalescer with inFlight := false } }
  match outcome with
  | .error (.malformed _) => ({ s with fatal := true }, none)
  | .error (.submit _) =>
    ((s.restoreFirstNotifyAt cycle.firstNotifyAt).markDirty.scheduleRetryAfterFailure, none)
  | .ok result =>
    if result.failed then
      ((s.restoreFirstNotifyAt cycle.firstNotifyAt).scheduleRetryAfterFailure, none)
    else (s.maybeFireIfDirty, some (result, cycle))

/-- The callback of a trailing timer. -/
def onTrailing (s : Scheduler) : Scheduler :=
  { s with coalescer := { s.coalescer with trailingHandle := none } }.runRequery

/-- The callback of the heartbeat timer. -/
def onHeartbeat (s : Scheduler) : Scheduler :=
  let s := { s with coalescer := { s.coalescer with
    heartbeatHandle := none
    heartbeatPending := s.coalescer.heartbeatPending || s.coalescer.firstNotifyAt.isNone } }
  s.markDirty.maybeFire.armHeartbeat

end Scheduler

/-! ## Steps -/

namespace Coalescing

inductive Event
  /-- The clock goes on. -/
  | tick (ms : Rat)
  | notify
  | start
  | stop
  | timerFires (handle : Nat)
  /-- A reply of tmux, a patch of the model, or a microtask of the engine. -/
  | engine (event : Requery.Event)
  /-- The callback of the requery promise. -/
  | settled

/-- The engine's own events; its `requery` and `markDirty` are called by the coalescer. -/
def engineEvent (decode : Bytes → String) (s : Scheduler) (event : Requery.Event) :
    Option Scheduler :=
  match event with
  | .requery | .markDirty => none
  | .release =>
    match s.engine.flight with
    | .settled outcome =>
      (Requery.step decode s.engine .release).map fun engine =>
        { s with engine := engine, inbox := some outcome }
    | _ => none
  | event => (Requery.step decode s.engine event).map fun engine => { s with engine := engine }

def step (decode : Bytes → String) (s : Scheduler) : Event → Option Scheduler
  | .tick ms =>
    if 0 ≤ ms then some { s with clock := { s.clock with now := s.clock.now + ms } } else none
  | .notify => some s.notify
  | .start => some s.armHeartbeat
  | .stop => some s.stop
  | .timerFires handle =>
    match s.clock.timers.get? handle with
    | none => none
    | some timer =>
      if s.clock.now < timer.due then none
      else
        let s := { s with clock := s.clock.clearTimeout handle }
        match timer.kind with
        | .trailing => some s.onTrailing
        | .heartbeat => some s.onHeartbeat
  | .engine event => engineEvent decode s event
  | .settled =>
    match s.inbox, s.awaiting with
    | some outcome, cycle :: rest =>
      some ({ s with inbox := none, awaiting := rest }.onCycleSettled outcome cycle).1
    | _, _ => none

/-- A new coalescer over an idle engine that is clean. -/
def initial (engine : RequeryEngine) (now : Rat) (ceilingMs heartbeatMs : Option Rat) :
    Scheduler where
  clock := ⟨now, .empty, 0⟩
  engine := { engine with dirty := false, flight := .idle }
  coalescer := createCoalescer ceilingMs heartbeatMs
  awaiting := []
  inbox := none
  starts := []
  stopped := false
  fatal := false

end Coalescing

/-! ## The invariant -/

namespace Scheduler

/-- The coalescer, its timers, its callbacks and the engine agree. -/
structure Paced (s : Scheduler) : Prop where
  fresh : ∀ t ∈ s.clock.timers.values, t.handle < s.clock.nextHandle
  trailing_timer : ∀ t ∈ s.clock.timers.values, t.kind = .trailing →
    s.coalescer.trailingHandle = some t.handle
  timer_armed : ∀ handle, s.coalescer.trailingHandle = some handle →
    ∃ t ∈ s.clock.timers.values, t.handle = handle ∧ t.kind = .trailing
  idle_when_armed : s.coalescer.trailingHandle ≠ none → s.coalescer.inFlight = false
  due : ∀ t ∈ s.clock.timers.values, t.kind = .trailing → ∀ last ∈ s.coalescer.lastRequeryAt,
    last + s.coalescer.ceilingMs ≤ t.due
  awaiting : s.awaiting.length = if s.coalescer.inFlight then 1 else 0
  last_start : s.coalescer.lastRequeryAt = s.starts.head?
  spaced : s.starts.Pairwise fun later earlier => earlier + s.coalescer.ceilingMs ≤ later
  past : ∀ t ∈ s.starts, t ≤ s.clock.now
  engine_idle : s.coalescer.inFlight = false ∨ s.inbox ≠ none → s.engine.flight = .idle
  inbox_empty : s.coalescer.inFlight = false → s.inbox = none

/-- A requery is in flight or a trailing timer is armed. -/
def Covered (s : Scheduler) : Prop :=
  s.coalescer.inFlight = true ∨ s.coalescer.trailingHandle ≠ none

/-- A dirty engine is covered, until the coalescer is stopped or fatal. -/
def NoLostWakeUp (s : Scheduler) : Prop :=
  s.engine.dirty = true → s.stopped = false → s.fatal = false → s.Covered

variable {s : Scheduler}

theorem Paced.markDirty (h : s.Paced) : s.markDirty.Paced := { h with }

theorem Paced.setPendingEdge (h : s.Paced) (edge : CycleEdge) : (s.setPendingEdge edge).Paced :=
  { h with }

theorem Paced.restoreFirstNotifyAt (h : s.Paced) (firstNotifyAt : Option Rat) :
    (s.restoreFirstNotifyAt firstNotifyAt).Paced := { h with }

/-- A requery may start once the last start is the ceiling ago, if nothing is armed. -/
theorem Paced.runRequery (h : s.Paced) (hidle : s.coalescer.inFlight = false)
    (htrailing : s.coalescer.trailingHandle = none)
    (hquiet : ∀ last ∈ s.coalescer.lastRequeryAt, last + s.coalescer.ceilingMs ≤ s.clock.now) :
    s.runRequery.Paced where
  fresh := h.fresh
  trailing_timer := h.trailing_timer
  timer_armed := h.timer_armed
  idle_when_armed hne := absurd htrailing hne
  due t ht hkind := by
    have hhandle := h.trailing_timer t ht hkind
    rw [htrailing] at hhandle
    cases hhandle
  awaiting := by
    have hnone := h.awaiting
    rw [hidle] at hnone
    show (s.awaiting ++ [_]).length = 1
    rw [List.length_append, hnone]
    rfl
  last_start := rfl
  spaced := by
    refine List.pairwise_cons.mpr ⟨fun earlier hearlier => ?_, h.spaced⟩
    have hlast := h.last_start
    rcases hstarts : s.starts with _ | ⟨last, rest⟩
    · rw [hstarts] at hearlier
      cases hearlier
    · rw [hstarts] at hearlier hlast
      have hquietLast := hquiet last (by rw [hlast]; rfl)
      rcases List.mem_cons.mp hearlier with rfl | hrest
      · exact hquietLast
      · have hspaced := h.spaced
        rw [hstarts] at hspaced
        have hbefore := (List.pairwise_cons.mp hspaced).1 earlier hrest
        exact hbefore.trans (h.past last (by rw [hstarts]; exact List.mem_cons_self))
  past t ht := by
    rcases List.mem_cons.mp ht with rfl | hold
    · exact le_refl _
    · exact h.past t hold
  engine_idle hcase := by
    rcases hcase with hfalse | hsome
    · cases hfalse
    · exact absurd (h.inbox_empty hidle) hsome
  inbox_empty hfalse := by cases hfalse

/-- A trailing timer may be armed when no other one is, for a time past the ceiling. -/
theorem Paced.armTrailing (h : s.Paced) (hidle : s.coalescer.inFlight = false)
    (htrailing : s.coalescer.trailingHandle = none) {wait : Rat}
    (hwait : ∀ last ∈ s.coalescer.lastRequeryAt,
      last + s.coalescer.ceilingMs ≤ s.clock.now + wait) : (s.armTrailing wait).Paced where
  fresh t ht := by
    rcases KeyedMap.mem_set.mp ht with rfl | ⟨hold, -⟩
    · exact Nat.lt_succ_self _
    · exact (h.fresh t hold).trans (Nat.lt_succ_self _)
  trailing_timer t ht hkind := by
    rcases KeyedMap.mem_set.mp ht with rfl | ⟨hold, -⟩
    · rfl
    · have hhandle := h.trailing_timer t hold hkind
      rw [htrailing] at hhandle
      cases hhandle
  timer_armed handle hhandle := by
    cases hhandle
    exact ⟨_, KeyedMap.mem_set.mpr (.inl rfl), rfl, rfl⟩
  idle_when_armed _ := hidle
  due t ht hkind := by
    rcases KeyedMap.mem_set.mp ht with rfl | ⟨hold, -⟩
    · exact hwait
    · have hhandle := h.trailing_timer t hold hkind
      rw [htrailing] at hhandle
      cases hhandle
  awaiting := h.awaiting
  last_start := h.last_start
  spaced := h.spaced
  past := h.past
  engine_idle := h.engine_idle
  inbox_empty := h.inbox_empty

/-- An idle coalescer that is not armed: `_maybeFire` covers it, whatever the time. -/
theorem Paced.maybeFire (h : s.Paced) : s.maybeFire.Paced ∧ s.maybeFire.Covered := by
  unfold Scheduler.maybeFire
  split
  · next hflight => exact ⟨h, .inl hflight⟩
  · next hidle =>
    have hidle : s.coalescer.inFlight = false := Bool.not_eq_true _ ▸ hidle
    split
    · next harmed => exact ⟨h, .inr harmed⟩
    · next hnone =>
      have hnone := not_not.mp hnone
      split
      · next helapsed =>
        have hlast : s.coalescer.lastRequeryAt = none := Option.map_eq_none_iff.mp helapsed
        refine ⟨(h.setPendingEdge _).runRequery hidle hnone fun last hmem => ?_, .inl rfl⟩
        cases hlast.symm.trans hmem
      · next elapsed helapsed =>
        obtain ⟨last, hlast, rfl⟩ := Option.map_eq_some_iff.mp helapsed
        split
        · next hquiet =>
          refine ⟨(h.setPendingEdge _).runRequery hidle hnone fun last' hmem => ?_, .inl rfl⟩
          cases hlast.symm.trans hmem
          show last + s.coalescer.ceilingMs ≤ s.clock.now
          linarith
        · refine ⟨(h.setPendingEdge _).armTrailing hidle hnone fun last' hmem => ?_, .inr (by simp [
            Scheduler.armTrailing])⟩
          cases hlast.symm.trans hmem
          show last + s.coalescer.ceilingMs ≤
            s.clock.now + (s.coalescer.ceilingMs - (s.clock.now - last))
          linarith

theorem Paced.scheduleRetryAfterFailure (h : s.Paced) (hidle : s.coalescer.inFlight = false) :
    s.scheduleRetryAfterFailure.Paced ∧ s.scheduleRetryAfterFailure.Covered := by
  unfold Scheduler.scheduleRetryAfterFailure
  split
  · next harmed => exact ⟨h, .inr harmed⟩
  · next hnone =>
    have hnone := not_not.mp hnone
    split
    · next helapsed =>
      have hlast : s.coalescer.lastRequeryAt = none := Option.map_eq_none_iff.mp helapsed
      refine ⟨h.armTrailing hidle hnone fun last hmem => ?_, .inr (by simp [Scheduler.armTrailing])⟩
      cases hlast.symm.trans hmem
    · next elapsed helapsed =>
      obtain ⟨last, hlast, rfl⟩ := Option.map_eq_some_iff.mp helapsed
      refine ⟨h.armTrailing hidle hnone fun last' hmem => ?_,
        .inr (by simp [Scheduler.armTrailing])⟩
      cases hlast.symm.trans hmem
      have hmax := le_max_right 0 (s.coalescer.ceilingMs - (s.clock.now - last))
      linarith

theorem Paced.armHeartbeat (h : s.Paced) : s.armHeartbeat.Paced := by
  unfold Scheduler.armHeartbeat
  split
  · exact h
  · refine { h with fresh := fun t ht => ?_, trailing_timer := fun t ht hkind => ?_,
                    timer_armed := fun handle hhandle => ?_, due := fun t ht hkind => ?_ }
    · rcases KeyedMap.mem_set.mp ht with rfl | ⟨hold, -⟩
      · exact Nat.lt_succ_self _
      · exact (h.fresh t hold).trans (Nat.lt_succ_self _)
    · rcases KeyedMap.mem_set.mp ht with rfl | ⟨hold, -⟩
      · cases hkind
      · exact h.trailing_timer t hold hkind
    · obtain ⟨t, ht, hid, hkind⟩ := h.timer_armed handle hhandle
      exact ⟨t, KeyedMap.mem_set.mpr (.inr ⟨ht, (h.fresh t ht).ne⟩), hid, hkind⟩
    · rcases KeyedMap.mem_set.mp ht with rfl | ⟨hold, -⟩
      · cases hkind
      · exact h.due t hold hkind

/-- Taking away a timer that is not the trailing one. -/
theorem Paced.clearTimeout (h : s.Paced) {handle : Nat}
    (hne : s.coalescer.trailingHandle ≠ some handle) :
    { s with clock := s.clock.clearTimeout handle }.Paced := by
  refine { h with fresh := fun t ht => ?_, trailing_timer := fun t ht => ?_,
                  timer_armed := fun handle' hhandle => ?_, due := fun t ht => ?_ }
  · exact h.fresh t (KeyedMap.mem_delete.mp ht).1
  · exact h.trailing_timer t (KeyedMap.mem_delete.mp ht).1
  · obtain ⟨t, ht, hid, hkind⟩ := h.timer_armed handle' hhandle
    refine ⟨t, KeyedMap.mem_delete.mpr ⟨ht, fun hsame => hne ?_⟩, hid, hkind⟩
    rw [h.trailing_timer t ht hkind, hsame]
  · exact h.due t (KeyedMap.mem_delete.mp ht).1

/-- Taking away the trailing timer and its handle. -/
theorem Paced.clearTrailing (h : s.Paced) {clock : Clock} (hnow : clock.now = s.clock.now)
    (hnext : clock.nextHandle = s.clock.nextHandle)
    (htimers : ∀ t ∈ clock.timers.values,
      t ∈ s.clock.timers.values ∧ s.coalescer.trailingHandle ≠ some t.handle) :
    { s with clock := clock, coalescer := { s.coalescer with trailingHandle := none } }.Paced := by
  refine { h with fresh := fun t ht => ?_, trailing_timer := fun t ht hkind => ?_,
                  timer_armed := fun handle hhandle => ?_, idle_when_armed := fun hne => ?_,
                  due := fun t ht hkind => ?_, past := fun t ht => ?_ }
  · exact hnext ▸ h.fresh t (htimers t ht).1
  · exact absurd (h.trailing_timer t (htimers t ht).1 hkind) (htimers t ht).2
  · cases hhandle
  · exact absurd rfl hne
  · exact absurd (h.trailing_timer t (htimers t ht).1 hkind) (htimers t ht).2
  · exact hnow ▸ h.past t ht

theorem Paced.stop (h : s.Paced) : s.stop.Paced := by
  have hclear : { s with
      clock := clearHandle s.clock s.coalescer.trailingHandle
      coalescer := { s.coalescer with trailingHandle := none } }.Paced := by
    rcases htrailing : s.coalescer.trailingHandle with _ | handle
    · exact h.clearTrailing rfl rfl fun t ht => ⟨ht, by simp [htrailing]⟩
    · refine h.clearTrailing rfl rfl fun t ht => ?_
      obtain ⟨hmem, hne⟩ := KeyedMap.mem_delete.mp ht
      exact ⟨hmem, fun hsome => hne (Option.some.inj (htrailing.symm.trans hsome)).symm⟩
  unfold Scheduler.stop
  rcases s.coalescer.heartbeatHandle with _ | handle
  · exact { hclear with }
  · have hbeat := hclear.clearTimeout (by simp : (none : Option Nat) ≠ some handle)
    exact { hbeat with }

/-! ## One step -/

end Scheduler

namespace Coalescing

open Scheduler

variable {decode : Bytes → String} {s s' : Scheduler}

theorem paced_onTrailing (h : s.Paced) {timer : Timer}
    (hget : s.clock.timers.get? timer.handle = some timer)
    (hkind : timer.kind = .trailing) (hdue : timer.due ≤ s.clock.now) :
    { s with clock := s.clock.clearTimeout timer.handle }.onTrailing.Paced := by
  have htrailing := h.trailing_timer timer (KeyedMap.mem_of_get? hget) hkind
  have hidle := h.idle_when_armed (by simp [htrailing])
  have hclear : { s with
      clock := s.clock.clearTimeout timer.handle
      coalescer := { s.coalescer with trailingHandle := none } }.Paced :=
    h.clearTrailing rfl rfl fun t ht => ⟨(KeyedMap.mem_delete.mp ht).1, fun hsome =>
      (KeyedMap.mem_delete.mp ht).2 (Option.some.inj (htrailing.symm.trans hsome)).symm⟩
  exact hclear.runRequery hidle rfl fun last hlast =>
    (h.due timer (KeyedMap.mem_of_get? hget) hkind last hlast).trans hdue

theorem covered_armHeartbeat (h : s.Covered) : s.armHeartbeat.Covered := by
  unfold Scheduler.armHeartbeat
  split
  · exact h
  · exact h

theorem paced_onHeartbeat (h : s.Paced) : s.onHeartbeat.Paced ∧ s.onHeartbeat.Covered := by
  have hpending : { s with coalescer := { s.coalescer with
      heartbeatHandle := none
      heartbeatPending :=
        s.coalescer.heartbeatPending || s.coalescer.firstNotifyAt.isNone } }.Paced :=
    { h with }
  obtain ⟨hfire, hcovered⟩ := hpending.markDirty.maybeFire
  exact ⟨hfire.armHeartbeat, covered_armHeartbeat hcovered⟩

theorem paced_onCycleSettled (h : s.Paced) {outcome : Except RequeryError RequeryResult}
    {cycle : CycleMeta} {rest : List CycleMeta} (hinbox : s.inbox = some outcome)
    (hawaiting : s.awaiting = cycle :: rest) :
    let next := ({ s with inbox := none, awaiting := rest }.onCycleSettled outcome cycle).1
    next.Paced ∧ next.NoLostWakeUp := by
  have hflight : s.coalescer.inFlight = true := by
    rcases hfalse : s.coalescer.inFlight with _ | _
    · cases (h.inbox_empty hfalse).symm.trans hinbox
    · rfl
  have hunarmed : s.coalescer.trailingHandle = none := by
    by_contra hne
    cases hflight.symm.trans (h.idle_when_armed hne)
  have hrest : rest = [] := by
    have hlength := h.awaiting
    rw [hawaiting, hflight] at hlength
    exact List.length_eq_zero_iff.mp (Nat.succ.inj hlength)
  have hidle := h.engine_idle (.inr (by simp [hinbox]))
  have hsettled : { s with
      inbox := none, awaiting := rest
      coalescer := { s.coalescer with inFlight := false } }.Paced :=
    { h with
      idle_when_armed := fun _ => rfl
      awaiting := by rw [hrest]; rfl
      engine_idle := fun _ => hidle
      inbox_empty := fun _ => rfl }
  unfold Scheduler.onCycleSettled
  rcases outcome with (err | err) | result
  · obtain ⟨hpaced, hcovered⟩ :=
      (hsettled.restoreFirstNotifyAt cycle.firstNotifyAt).markDirty.scheduleRetryAfterFailure rfl
    exact ⟨hpaced, fun _ _ _ => hcovered⟩
  · exact ⟨{ hsettled with }, fun _ _ hfatal => by cases hfatal⟩
  · dsimp only
    split
    · obtain ⟨hpaced, hcovered⟩ :=
        (hsettled.restoreFirstNotifyAt cycle.firstNotifyAt).scheduleRetryAfterFailure rfl
      exact ⟨hpaced, fun _ _ _ => hcovered⟩
    · unfold Scheduler.maybeFireIfDirty
      split
      · exact ⟨hsettled.maybeFire.1, fun _ _ _ => hsettled.maybeFire.2⟩
      · next hclean => exact ⟨hsettled, fun hdirty => absurd hdirty hclean⟩

/-- While no requery is in flight, the engine's own events leave it idle and its dirty bit
as it is. -/
theorem requeryStep_of_idle {engine engine' : RequeryEngine} {event : Requery.Event}
    (hidle : engine.flight = .idle) (hrequery : event ≠ .requery) (hdirty : event ≠ .markDirty)
    (h : Requery.step decode engine event = some engine') :
    engine'.flight = .idle ∧ engine'.dirty = engine.dirty := by
  cases event with
  | requery => exact absurd rfl hrequery
  | markDirty => exact absurd rfl hdirty
  | setModel model =>
    cases h
    exact ⟨hidle, rfl⟩
  | windowsReply reply => simp [Requery.step, hidle] at h
  | panesReply reply => simp [Requery.step, hidle] at h
  | resume => simp [Requery.step, hidle] at h
  | release => simp [Requery.step, hidle] at h

/-- An event of the engine changes the engine and, when the promise is released, the inbox. -/
theorem engineEvent_cases {event : Requery.Event} (h : engineEvent decode s event = some s') :
    ∃ engine inbox, s' = { s with engine := engine, inbox := inbox } ∧
      (s.engine.flight = .idle →
        inbox = s.inbox ∧ engine.flight = .idle ∧ engine.dirty = s.engine.dirty) ∧
      (inbox = s.inbox ∨ engine.flight = .idle) := by
  unfold engineEvent at h
  split at h
  · cases h
  · cases h
  · split at h
    · next outcome hflight =>
      obtain ⟨engine, hstep, rfl⟩ := Option.map_eq_some_iff.mp h
      simp only [Requery.step, hflight, Option.some.injEq] at hstep
      refine ⟨engine, some outcome, rfl, fun hidle => ?_, .inr (hstep ▸ rfl)⟩
      cases hidle.symm.trans hflight
    · cases h
  · next hrequery hdirty _ =>
    obtain ⟨engine, hstep, rfl⟩ := Option.map_eq_some_iff.mp h
    exact ⟨engine, s.inbox, rfl,
      fun hidle => ⟨rfl, requeryStep_of_idle hidle hrequery hdirty hstep⟩, .inl rfl⟩

theorem paced_engineEvent (h : s.Paced) {event : Requery.Event}
    (hstep : engineEvent decode s event = some s') :
    s'.Paced ∧ (s.NoLostWakeUp → s'.NoLostWakeUp) := by
  obtain ⟨engine, inbox, rfl, hidle, hinbox⟩ := engineEvent_cases hstep
  refine ⟨{ h with engine_idle := fun hcase => ?_, inbox_empty := fun hflight => ?_ },
    fun hwake hdirty hstopped hfatal => ?_⟩
  · rcases hcase with hflight | hsome
    · exact (hidle (h.engine_idle (.inl hflight))).2.1
    · rcases hinbox with hsame | hengine
      · exact (hidle (h.engine_idle (.inr (hsame ▸ hsome)))).2.1
      · exact hengine
  · exact (hidle (h.engine_idle (.inl hflight))).1.trans (h.inbox_empty hflight)
  · rcases hflight : s.coalescer.inFlight with _ | _
    · have hsame := (hidle (h.engine_idle (.inl hflight))).2.2
      exact hwake (hsame ▸ hdirty) hstopped hfatal
    · exact .inl hflight

/-- Every event keeps the invariant and loses no wake-up. -/
theorem paced_step (h : s.Paced) {event : Event} (hstep : step decode s event = some s') :
    s'.Paced ∧ (s.NoLostWakeUp → s'.NoLostWakeUp) := by
  cases event with
  | tick ms =>
    simp only [step] at hstep
    split at hstep
    · next hms =>
      cases hstep
      refine ⟨{ h with past := fun t ht => ?_ }, id⟩
      have hpast := h.past t ht
      show t ≤ s.clock.now + ms
      linarith
    · cases hstep
  | notify =>
    cases hstep
    have hnotified : { s with coalescer := { s.coalescer with
        firstNotifyAt := s.coalescer.firstNotifyAt.or (some s.clock.now) } }.Paced := { h with }
    obtain ⟨hpaced, hcovered⟩ := hnotified.markDirty.maybeFire
    exact ⟨hpaced, fun _ _ _ _ => hcovered⟩
  | start =>
    cases hstep
    refine ⟨h.armHeartbeat, fun hwake hdirty hstopped hfatal => ?_⟩
    unfold Scheduler.armHeartbeat at hdirty hstopped hfatal
    refine covered_armHeartbeat (hwake ?_ ?_ ?_)
    · split at hdirty <;> exact hdirty
    · split at hstopped <;> exact hstopped
    · split at hfatal <;> exact hfatal
  | stop =>
    cases hstep
    exact ⟨h.stop, fun _ _ hstopped => by cases hstopped⟩
  | timerFires handle =>
    simp only [step] at hstep
    split at hstep
    · cases hstep
    · next timer hget =>
      split at hstep
      · cases hstep
      · next hdue =>
        obtain rfl := KeyedMap.key_of_get? hget
        split at hstep
        · next hkind =>
          cases hstep
          exact ⟨paced_onTrailing h hget hkind (not_lt.mp hdue), fun _ _ _ _ => .inl rfl⟩
        · next hkind =>
          cases hstep
          have hcleared : { s with clock := s.clock.clearTimeout timer.handle }.Paced := by
            refine h.clearTimeout fun hsome => ?_
            obtain ⟨t, ht, hid, htrailing⟩ := h.timer_armed timer.handle hsome
            obtain rfl := KeyedMap.eq_of_key ht (KeyedMap.mem_of_get? hget) hid
            cases htrailing.symm.trans hkind
          obtain ⟨hpaced, hcovered⟩ := paced_onHeartbeat hcleared
          exact ⟨hpaced, fun _ _ _ _ => hcovered⟩
  | engine event => exact paced_engineEvent h hstep
  | settled =>
    simp only [step] at hstep
    split at hstep
    · next outcome cycle rest hinbox hawaiting =>
      cases hstep
      obtain ⟨hpaced, hwake⟩ := paced_onCycleSettled h hinbox hawaiting
      exact ⟨hpaced, fun _ => hwake⟩
    · cases hstep

/-! ## Runs -/

theorem paced_initial (engine : RequeryEngine) (now : Rat) (ceilingMs heartbeatMs : Option Rat) :
    (initial engine now ceilingMs heartbeatMs).Paced ∧
      (initial engine now ceilingMs heartbeatMs).NoLostWakeUp where
  left :=
    { fresh := fun _ ht => absurd ht List.not_mem_nil
      trailing_timer := fun _ ht => absurd ht List.not_mem_nil
      timer_armed := fun _ hhandle => by cases hhandle
      idle_when_armed := fun hne => absurd rfl hne
      due := fun _ ht => absurd ht List.not_mem_nil
      awaiting := rfl
      last_start := rfl
      spaced := List.Pairwise.nil
      past := fun _ ht => absurd ht List.not_mem_nil
      engine_idle := fun _ => rfl
      inbox_empty := fun _ => rfl }
  right hdirty := by cases hdirty

/-- The invariant holds after every run. -/
theorem paced_of_run {engine : RequeryEngine} {now : Rat} {ceilingMs heartbeatMs : Option Rat}
    {events : List Event}
    (hrun : exec (step decode) (initial engine now ceilingMs heartbeatMs) events = some s) :
    s.Paced ∧ s.NoLostWakeUp := by
  refine exec_invariant (P := fun s => s.Paced ∧ s.NoLostWakeUp) (C := fun _ _ => True)
    (fun _ _ _ h _ hstep => ?_) (paced_initial engine now ceilingMs heartbeatMs)
    (along_of_forall _ (fun _ _ => trivial) _) hrun
  obtain ⟨hpaced, hwake⟩ := paced_step h.1 hstep
  exact ⟨hpaced, hwake h.2⟩

/-- The trailing timers that are armed. -/
def trailingTimers (s : Scheduler) : List Timer :=
  s.clock.timers.values.filter fun t => t.kind = .trailing

theorem trailingTimers_le_one (h : s.Paced) : (trailingTimers s).length ≤ 1 := by
  have hnodup : ((trailingTimers s).map Timer.handle).Nodup :=
    s.clock.timers.nodup.sublist (List.filter_sublist.map _)
  have hsame : ∀ t ∈ trailingTimers s, s.coalescer.trailingHandle = some t.handle := by
    intro t ht
    obtain ⟨hmem, hkind⟩ := List.mem_filter.mp ht
    exact h.trailing_timer t hmem (of_decide_eq_true hkind)
  rcases htimers : trailingTimers s with _ | ⟨first, _ | ⟨second, rest⟩⟩
  · exact Nat.zero_le _
  · exact le_refl _
  · rw [htimers] at hnodup hsame
    have hfirst := hsame first List.mem_cons_self
    have hsecond := hsame second (List.mem_cons_of_mem _ List.mem_cons_self)
    refine absurd (Option.some.inj (hfirst.symm.trans hsecond)) fun heq => ?_
    refine (List.nodup_cons.mp hnodup).1 ?_
    rw [heq]
    exact List.mem_cons_self

/-! The ceiling is read only. -/

theorem ceilingMs_maybeFire (s : Scheduler) :
    s.maybeFire.coalescer.ceilingMs = s.coalescer.ceilingMs := by
  unfold Scheduler.maybeFire
  repeat' split
  all_goals rfl

theorem ceilingMs_armHeartbeat (s : Scheduler) :
    s.armHeartbeat.coalescer.ceilingMs = s.coalescer.ceilingMs := by
  unfold Scheduler.armHeartbeat
  split <;> rfl

theorem ceilingMs_scheduleRetry (s : Scheduler) :
    s.scheduleRetryAfterFailure.coalescer.ceilingMs = s.coalescer.ceilingMs := by
  unfold Scheduler.scheduleRetryAfterFailure
  repeat' split
  all_goals rfl

theorem ceilingMs_onCycleSettled (s : Scheduler) (outcome : Except RequeryError RequeryResult)
    (cycle : CycleMeta) :
    (s.onCycleSettled outcome cycle).1.coalescer.ceilingMs = s.coalescer.ceilingMs := by
  unfold Scheduler.onCycleSettled
  rcases outcome with (err | err) | result
  · exact ceilingMs_scheduleRetry _
  · rfl
  · dsimp only
    split
    · exact ceilingMs_scheduleRetry _
    · unfold Scheduler.maybeFireIfDirty
      split
      · exact ceilingMs_maybeFire _
      · rfl

theorem ceilingMs_step {event : Event} (hstep : step decode s event = some s') :
    s'.coalescer.ceilingMs = s.coalescer.ceilingMs := by
  cases event with
  | tick ms =>
    simp only [step] at hstep
    split at hstep <;> cases hstep
    rfl
  | notify =>
    cases hstep
    exact ceilingMs_maybeFire _
  | start =>
    cases hstep
    exact ceilingMs_armHeartbeat s
  | stop =>
    cases hstep
    rfl
  | timerFires handle =>
    simp only [step] at hstep
    split at hstep
    · cases hstep
    · split at hstep
      · cases hstep
      · split at hstep <;> cases hstep
        · rfl
        · exact (ceilingMs_armHeartbeat _).trans (ceilingMs_maybeFire _)
  | engine event =>
    obtain ⟨engine, inbox, rfl, -, -⟩ := engineEvent_cases hstep
    rfl
  | settled =>
    simp only [step] at hstep
    split at hstep <;> cases hstep
    exact ceilingMs_onCycleSettled _ _ _

theorem ceilingMs_of_run {engine : RequeryEngine} {now : Rat} {ceilingMs heartbeatMs : Option Rat}
    {events : List Event}
    (hrun : exec (step decode) (initial engine now ceilingMs heartbeatMs) events = some s) :
    s.coalescer.ceilingMs = ceilingMs.getD DEFAULT_CEILING_MS :=
  exec_invariant (P := fun s => s.coalescer.ceilingMs = ceilingMs.getD DEFAULT_CEILING_MS)
    (C := fun _ _ => True) (fun _ _ _ h _ hstep => (ceilingMs_step hstep).trans h) rfl
    (along_of_forall _ (fun _ _ => trivial) _) hrun

/-- In every state of every run: any two requeries started at least the ceiling apart, at
most one is in flight and at most one trailing timer is armed, and while the engine is dirty
with none in flight a trailing timer is armed, unless the coalescer is stopped or fatal. -/
theorem coalescer_law_of_run (decode : Bytes → String) (engine : RequeryEngine) (now : Rat)
    (ceilingMs heartbeatMs : Option Rat) (events : List Event) (s : Scheduler)
    (hrun : exec (step decode) (initial engine now ceilingMs heartbeatMs) events = some s) :
    (s.starts.Pairwise fun later earlier => earlier + ceilingMs.getD DEFAULT_CEILING_MS ≤ later) ∧
      s.awaiting.length ≤ 1 ∧ (trailingTimers s).length ≤ 1 ∧
      (s.engine.dirty = true → s.awaiting = [] → s.stopped = false → s.fatal = false →
        trailingTimers s ≠ []) := by
  obtain ⟨hpaced, hwake⟩ := paced_of_run hrun
  refine ⟨ceilingMs_of_run hrun ▸ hpaced.spaced, ?_, trailingTimers_le_one hpaced,
    fun hdirty hnone hstopped hfatal => ?_⟩
  · rw [hpaced.awaiting]
    split <;> decide
  · rcases hwake hdirty hstopped hfatal with hflight | harmed
    · have hlength := hpaced.awaiting
      rw [hnone, hflight] at hlength
      cases hlength
    · obtain ⟨handle, hhandle⟩ := Option.ne_none_iff_exists'.mp harmed
      obtain ⟨t, ht, -, hkind⟩ := hpaced.timer_armed handle hhandle
      exact List.ne_nil_of_mem (List.mem_filter.mpr ⟨ht, decide_eq_true hkind⟩)

/-- A notification fires at once; its requery fails, and the retry is armed. -/
def failedBurst : List Event :=
  [.notify, .tick 300, .notify, .engine (.windowsReply (.resolved ⟨false, 1, []⟩)),
    .engine (.panesReply (.resolved ⟨false, 2, []⟩)), .engine .resume, .engine .release, .settled]

theorem coalescer_law_of_failed_burst :
    ∃ s, exec (step fromCharCodes) (initial (createRequeryEngine {}) 0 none none) failedBurst =
        some s ∧
      (s.starts.Pairwise fun later earlier => earlier + DEFAULT_CEILING_MS ≤ later) ∧
      s.awaiting.length ≤ 1 ∧ (trailingTimers s).length ≤ 1 ∧
      (s.engine.dirty = true → s.awaiting = [] → s.stopped = false → s.fatal = false →
        trailingTimers s ≠ []) :=
  ⟨_, rfl, coalescer_law_of_run fromCharCodes (createRequeryEngine {}) 0 none none failedBurst _
    rfl⟩

end Coalescing

end TmuxccDriver.State
