import TmuxccDriver.State.Coalescer

/-!
# Stopping the coalescer

`stop` takes away the timers that are armed and leaves no mark. A requery that is in flight
then settles through the code of a running coalescer: a failed one arms its retry, one that
left the engine dirty fires again. So do a notification and `start`.

Results:
1. `quiet_of_step`: what a stopped coalescer does on a quiet event.
2. `acts_of_not_quiet`: every other event starts a requery or arms a timer.
3. `stopFinal_iff`: `stop` is final in a run exactly if every event after it is quiet.
-/

namespace TmuxccDriver.State
open TmuxccDriver.Lib TmuxccDriver.Parser

namespace Scheduler

/-- A heartbeat timer is the one the coalescer has the handle of. -/
def OwnsHeartbeat (s : Scheduler) : Prop :=
  ∀ t ∈ s.clock.timers.values, t.kind = .heartbeat → s.coalescer.heartbeatHandle = some t.handle

/-- No timer is armed. -/
structure Disarmed (s : Scheduler) : Prop where
  timers : s.clock.timers.values = []
  trailing : s.coalescer.trailingHandle = none
  heartbeat : s.coalescer.heartbeatHandle = none

/-- No requery was started and no timer was armed between two states. -/
structure SameActivity (s s' : Scheduler) : Prop where
  starts : s'.starts = s.starts
  armed : s'.clock.nextHandle = s.clock.nextHandle

theorem SameActivity.refl (s : Scheduler) : SameActivity s s := ⟨rfl, rfl⟩

theorem SameActivity.trans {s₁ s₂ s₃ : Scheduler} (h : SameActivity s₁ s₂)
    (h' : SameActivity s₂ s₃) : SameActivity s₁ s₃ :=
  ⟨h'.starts.trans h.starts, h'.armed.trans h.armed⟩

variable {s s' : Scheduler}

/-! ## Heartbeat timers -/

theorem OwnsHeartbeat.armTrailing (h : s.OwnsHeartbeat) (wait : Rat) :
    (s.armTrailing wait).OwnsHeartbeat := by
  intro t ht hkind
  rcases KeyedMap.mem_set.mp ht with rfl | ⟨hold, -⟩
  · cases hkind
  · exact h t hold hkind

theorem OwnsHeartbeat.maybeFire (h : s.OwnsHeartbeat) : s.maybeFire.OwnsHeartbeat := by
  have hedge : ∀ edge, (s.setPendingEdge edge).OwnsHeartbeat := fun _ => h
  unfold Scheduler.maybeFire
  split
  · exact h
  · split
    · exact h
    · split
      · exact h
      · split
        · exact h
        · exact (hedge .trailing).armTrailing _

theorem OwnsHeartbeat.scheduleRetry (h : s.OwnsHeartbeat) :
    s.scheduleRetryAfterFailure.OwnsHeartbeat := by
  unfold Scheduler.scheduleRetryAfterFailure
  split
  · exact h
  · split <;> exact h.armTrailing _

theorem OwnsHeartbeat.armHeartbeat (h : s.OwnsHeartbeat) : s.armHeartbeat.OwnsHeartbeat := by
  unfold Scheduler.armHeartbeat
  split
  · exact h
  · next hnone =>
    intro t ht hkind
    rcases KeyedMap.mem_set.mp ht with rfl | ⟨hold, -⟩
    · rfl
    · exact absurd (h t hold hkind) (by rw [not_not.mp hnone]; simp)

theorem OwnsHeartbeat.onCycleSettled (h : s.OwnsHeartbeat)
    (outcome : Except RequeryError RequeryResult) (cycle : CycleMeta) :
    (s.onCycleSettled outcome cycle).1.OwnsHeartbeat := by
  have hidle : { s with coalescer := { s.coalescer with inFlight := false } }.OwnsHeartbeat := h
  have hrestored : ∀ s : Scheduler, s.OwnsHeartbeat → ∀ firstNotifyAt,
      (s.restoreFirstNotifyAt firstNotifyAt).OwnsHeartbeat := fun _ h _ => h
  have hdirty : ∀ s : Scheduler, s.OwnsHeartbeat → s.markDirty.OwnsHeartbeat := fun _ h => h
  unfold Scheduler.onCycleSettled
  rcases outcome with (err | err) | result
  · exact (hdirty _ (hrestored _ hidle _)).scheduleRetry
  · exact h
  · dsimp only
    split
    · exact (hrestored _ hidle _).scheduleRetry
    · unfold Scheduler.maybeFireIfDirty
      split
      · exact hidle.maybeFire
      · exact hidle

theorem OwnsHeartbeat.onHeartbeat (h : s.OwnsHeartbeat) {timer : Timer}
    (hget : s.clock.timers.get? timer.handle = some timer) (hkind : timer.kind = .heartbeat) :
    { s with clock := s.clock.clearTimeout timer.handle }.onHeartbeat.OwnsHeartbeat := by
  have hhandle := h timer (KeyedMap.mem_of_get? hget) hkind
  refine OwnsHeartbeat.armHeartbeat (OwnsHeartbeat.maybeFire fun t ht htkind => ?_)
  obtain ⟨hold, hne⟩ := KeyedMap.mem_delete.mp ht
  exact absurd (Option.some.inj (hhandle.symm.trans (h t hold htkind))).symm hne

theorem mem_clearHandle {clock : Clock} {handle : Option Nat} {t : Timer}
    (h : t ∈ (clearHandle clock handle).timers.values) :
    t ∈ clock.timers.values ∧ handle ≠ some t.handle := by
  cases handle with
  | none => exact ⟨h, by simp⟩
  | some handle =>
    obtain ⟨hold, hne⟩ := KeyedMap.mem_delete.mp h
    exact ⟨hold, fun heq => hne (Option.some.inj heq).symm⟩

theorem OwnsHeartbeat.stop (h : s.OwnsHeartbeat) : s.stop.OwnsHeartbeat := by
  intro t ht hkind
  obtain ⟨hkept, hne⟩ := mem_clearHandle ht
  exact absurd (h t (mem_clearHandle hkept).1 hkind) hne

/-- All timers go. -/
theorem disarmed_stop (hpaced : s.Paced) (hown : s.OwnsHeartbeat) : s.stop.Disarmed := by
  refine ⟨List.eq_nil_iff_forall_not_mem.mpr fun t ht => ?_, rfl, rfl⟩
  obtain ⟨hkept, hheartbeat⟩ := mem_clearHandle ht
  obtain ⟨hold, htrailing⟩ := mem_clearHandle hkept
  cases hkind : t.kind with
  | trailing => exact htrailing (hpaced.trailing_timer t hold hkind)
  | heartbeat => exact hheartbeat (hown t hold hkind)

end Scheduler

namespace Coalescing
open Scheduler

variable {decode : Bytes → String} {s s' : Scheduler}

theorem ownsHeartbeat_step (h : s.OwnsHeartbeat) {event : Event}
    (hstep : step decode s event = some s') : s'.OwnsHeartbeat := by
  cases event with
  | tick ms =>
    simp only [step] at hstep
    split at hstep <;> cases hstep
    exact h
  | notify =>
    cases hstep
    have hnotified : { s with coalescer := { s.coalescer with
        firstNotifyAt := s.coalescer.firstNotifyAt.or (some s.clock.now) }
          }.markDirty.OwnsHeartbeat :=
      h
    exact hnotified.maybeFire
  | start =>
    cases hstep
    exact h.armHeartbeat
  | stop =>
    cases hstep
    exact h.stop
  | timerFires handle =>
    simp only [step] at hstep
    split at hstep
    · cases hstep
    · next timer hget =>
      obtain rfl := KeyedMap.key_of_get? hget
      split at hstep
      · cases hstep
      · split at hstep
        · cases hstep
          exact fun t ht => h t (KeyedMap.mem_delete.mp ht).1
        · next hkind =>
          cases hstep
          exact h.onHeartbeat hget hkind
  | engine event =>
    obtain ⟨engine, inbox, rfl, -, -⟩ := engineEvent_cases hstep
    exact h
  | settled =>
    simp only [step] at hstep
    split at hstep
    · next outcome cycle rest hinbox hawaiting =>
      cases hstep
      have hrest : { s with inbox := none, awaiting := rest }.OwnsHeartbeat := h
      exact hrest.onCycleSettled outcome cycle
    · cases hstep

/-! ## After `stop` -/

/-- Only `stop` changes whether the coalescer is stopped. -/
theorem stopped_step {event : Event} (hstep : step decode s event = some s') :
    event = .stop ∧ s' = s.stop ∨ s'.stopped = s.stopped := by
  have hfire : ∀ s : Scheduler, s.maybeFire.stopped = s.stopped := by
    intro s
    unfold Scheduler.maybeFire
    repeat' split
    all_goals rfl
  have harm : ∀ s : Scheduler, s.armHeartbeat.stopped = s.stopped := by
    intro s
    unfold Scheduler.armHeartbeat
    split <;> rfl
  have hretry : ∀ s : Scheduler, s.scheduleRetryAfterFailure.stopped = s.stopped := by
    intro s
    unfold Scheduler.scheduleRetryAfterFailure
    repeat' split
    all_goals rfl
  cases event with
  | tick ms =>
    simp only [step] at hstep
    split at hstep <;> cases hstep
    exact .inr rfl
  | notify =>
    cases hstep
    exact .inr (hfire _)
  | start =>
    cases hstep
    exact .inr (harm s)
  | stop =>
    cases hstep
    exact .inl ⟨rfl, rfl⟩
  | timerFires handle =>
    simp only [step] at hstep
    split at hstep
    · cases hstep
    · split at hstep
      · cases hstep
      · split at hstep <;> cases hstep
        · exact .inr rfl
        · exact .inr ((harm _).trans (hfire _))
  | engine event =>
    obtain ⟨engine, inbox, rfl, -, -⟩ := engineEvent_cases hstep
    exact .inr rfl
  | settled =>
    simp only [step] at hstep
    split at hstep <;> cases hstep
    next outcome cycle rest hinbox hawaiting =>
    unfold Scheduler.onCycleSettled
    rcases outcome with (err | err) | result
    · exact .inr (hretry _)
    · exact .inr rfl
    · dsimp only
      split
      · exact .inr (hretry _)
      · unfold Scheduler.maybeFireIfDirty
        split
        · exact .inr (hfire _)
        · exact .inr rfl

/-- The callback of a requery that failed for good, or that succeeded and left the engine
clean. -/
def SettlesQuietly (s : Scheduler) : Prop :=
  ∀ outcome, s.inbox = some outcome →
    (∃ e, outcome = .error (.malformed e)) ∨
      ∃ result, outcome = .ok result ∧ result.failed = false ∧ s.engine.dirty = false

/-- An event that may follow `stop`. -/
def Quiet (s : Scheduler) (event : Event) : Prop :=
  s.stopped = true →
    match event with
    | .notify => s.coalescer.inFlight = true
    | .start => False
    | .settled => SettlesQuietly s
    | _ => True

/-- What holds of every run whose events after `stop` are quiet. -/
structure StopInv (s : Scheduler) : Prop where
  paced : s.Paced
  wake : s.NoLostWakeUp
  owns : s.OwnsHeartbeat
  disarmed : s.stopped = true → s.Disarmed

/-- A quiet event after `stop` starts nothing, arms nothing and leaves no timer. -/
theorem quiet_of_step (h : StopInv s) (hstopped : s.stopped = true) {event : Event}
    (hquiet : Quiet s event) (hstep : step decode s event = some s') :
    s.SameActivity s' ∧ s'.Disarmed := by
  have hquiet := hquiet hstopped
  have hdisarmed := h.disarmed hstopped
  cases event with
  | tick ms =>
    simp only [step] at hstep
    split at hstep <;> cases hstep
    exact ⟨⟨rfl, rfl⟩, { hdisarmed with }⟩
  | notify =>
    cases hstep
    unfold Scheduler.notify Scheduler.maybeFire
    split
    · exact ⟨⟨rfl, rfl⟩, { hdisarmed with }⟩
    · next hidle => exact absurd hquiet hidle
  | start => exact hquiet.elim
  | stop =>
    cases hstep
    refine ⟨⟨rfl, ?_⟩, disarmed_stop h.paced h.owns⟩
    rw [Scheduler.stop, hdisarmed.trailing, hdisarmed.heartbeat]
    rfl
  | timerFires handle =>
    have hnone : s.clock.timers.get? handle = none :=
      KeyedMap.get?_eq_none.mpr (by simp [hdisarmed.timers])
    simp only [step, hnone] at hstep
    cases hstep
  | engine event =>
    obtain ⟨engine, inbox, rfl, -, -⟩ := engineEvent_cases hstep
    exact ⟨⟨rfl, rfl⟩, { hdisarmed with }⟩
  | settled =>
    simp only [step] at hstep
    split at hstep
    · next outcome cycle rest hinbox hawaiting =>
      cases hstep
      rcases hquiet outcome hinbox with ⟨e, rfl⟩ | ⟨result, rfl, hok, hclean⟩
      · exact ⟨⟨rfl, rfl⟩, { hdisarmed with }⟩
      · simp only [Scheduler.onCycleSettled, hok, Scheduler.maybeFireIfDirty, hclean]
        exact ⟨⟨rfl, rfl⟩, { hdisarmed with }⟩
    · cases hstep

/-- An idle coalescer without a timer fires or arms one. -/
theorem maybeFire_acts {before : Scheduler} (hbefore : before.SameActivity s)
    (hidle : s.coalescer.inFlight = false) (hnone : s.coalescer.trailingHandle = none) :
    ¬before.SameActivity s.maybeFire := by
  intro hsame
  have hstarts := hsame.starts.trans hbefore.starts.symm
  have harmed := hsame.armed.trans hbefore.armed.symm
  unfold Scheduler.maybeFire at hstarts harmed
  rw [if_neg (by simp [hidle]), if_neg (not_not_intro hnone)] at hstarts harmed
  split at hstarts
  · exact absurd (congrArg List.length hstarts) (Nat.succ_ne_self _)
  · split at hstarts
    · exact absurd (congrArg List.length hstarts) (Nat.succ_ne_self _)
    · next elapsed helapsed hbusy =>
      simp only [helapsed, if_neg hbusy] at harmed
      exact absurd harmed (Nat.succ_ne_self _)

theorem scheduleRetry_acts {before : Scheduler} (hbefore : before.SameActivity s)
    (hnone : s.coalescer.trailingHandle = none) :
    ¬before.SameActivity s.scheduleRetryAfterFailure := by
  intro hsame
  have harmed := hsame.armed.trans hbefore.armed.symm
  unfold Scheduler.scheduleRetryAfterFailure at harmed
  rw [if_neg (not_not_intro hnone)] at harmed
  split at harmed <;> exact absurd harmed (Nat.succ_ne_self _)

theorem armHeartbeat_acts (hnone : s.coalescer.heartbeatHandle = none) :
    ¬s.SameActivity s.armHeartbeat := by
  intro hsame
  have harmed := hsame.armed
  unfold Scheduler.armHeartbeat at harmed
  rw [if_neg (not_not_intro hnone)] at harmed
  exact absurd harmed (Nat.succ_ne_self _)

/-- Every other event after `stop` starts a requery or arms a timer. -/
theorem acts_of_not_quiet (decode : Bytes → String) (h : StopInv s) {event : Event}
    (hloud : ¬Quiet s event) : ∃ s', step decode s event = some s' ∧ ¬s.SameActivity s' := by
  have hstopped : s.stopped = true := by
    by_contra hrunning
    exact hloud fun hstopped => absurd hstopped hrunning
  have hdisarmed := h.disarmed hstopped
  cases event with
  | notify =>
    have hidle : ¬s.coalescer.inFlight = true := fun hflight => hloud fun _ => hflight
    refine ⟨_, rfl, ?_⟩
    exact maybeFire_acts ⟨rfl, rfl⟩ (Bool.not_eq_true _ ▸ hidle) hdisarmed.trailing
  | start => exact ⟨_, rfl, armHeartbeat_acts hdisarmed.heartbeat⟩
  | settled =>
    have hnot : ¬SettlesQuietly s := fun hquiet => hloud fun _ => hquiet
    rw [SettlesQuietly] at hnot
    push Not at hnot
    obtain ⟨outcome, hinbox, hfatal, hclean⟩ := hnot
    have hflight : s.coalescer.inFlight = true := by
      by_contra hidle
      cases (h.paced.inbox_empty (Bool.not_eq_true _ ▸ hidle)).symm.trans hinbox
    obtain ⟨cycle, hawaiting⟩ : ∃ cycle, s.awaiting = [cycle] := by
      have hlength := h.paced.awaiting
      rw [if_pos hflight] at hlength
      exact List.length_eq_one_iff.mp hlength
    refine ⟨({ s with inbox := none, awaiting := [] }.onCycleSettled outcome cycle).1,
      by simp only [step, hinbox, hawaiting], ?_⟩
    rcases outcome with (err | err) | result
    · exact scheduleRetry_acts ⟨rfl, rfl⟩ hdisarmed.trailing
    · exact absurd rfl (hfatal err)
    · simp only [Scheduler.onCycleSettled]
      split
      · exact scheduleRetry_acts ⟨rfl, rfl⟩ hdisarmed.trailing
      · next hfailed =>
        have hdirty := hclean result rfl (Bool.not_eq_true _ ▸ hfailed)
        unfold Scheduler.maybeFireIfDirty
        rw [if_pos (Bool.not_eq_false _ ▸ hdirty)]
        dsimp only
        refine maybeFire_acts ⟨rfl, rfl⟩ ?_ ?_
        · rfl
        · exact hdisarmed.trailing
  | tick ms => exact absurd (fun _ => trivial) hloud
  | stop => exact absurd (fun _ => trivial) hloud
  | timerFires handle => exact absurd (fun _ => trivial) hloud
  | engine event => exact absurd (fun _ => trivial) hloud

theorem stopInv_step (h : StopInv s) {event : Event} (hquiet : Quiet s event)
    (hstep : step decode s event = some s') : StopInv s' := by
  obtain ⟨hpaced, hwake⟩ := paced_step h.paced hstep
  refine ⟨hpaced, hwake h.wake, ownsHeartbeat_step h.owns hstep, fun hstopped' => ?_⟩
  rcases stopped_step hstep with ⟨-, rfl⟩ | hsame
  · exact disarmed_stop h.paced h.owns
  · exact (quiet_of_step h (hsame ▸ hstopped') hquiet hstep).2

/-! ## Runs -/

/-- Between any two states of a run, the first of which is stopped, no requery was started
and no timer was armed. -/
def StopFinal (decode : Bytes → String) (s₀ : Scheduler) (events : List Event) : Prop :=
  ∀ before later s s', before ++ later <+: events → exec (step decode) s₀ before = some s →
    s.stopped = true → exec (step decode) s later = some s' → s.SameActivity s'

/-- `stop` is final in a run exactly if every event after it is quiet. -/
theorem stopFinal_iff (decode : Bytes → String) (engine : RequeryEngine) (now : Rat)
    (ceilingMs heartbeatMs : Option Rat) (events : List Event) :
    StopFinal decode (initial engine now ceilingMs heartbeatMs) events ↔
      Along (step decode) Quiet (initial engine now ceilingMs heartbeatMs) events := by
  obtain ⟨hpaced, hwake⟩ := paced_initial engine now ceilingMs heartbeatMs
  have hinit : StopInv (initial engine now ceilingMs heartbeatMs) :=
    ⟨hpaced, hwake, fun t ht => absurd ht List.not_mem_nil, fun hstopped => by cases hstopped⟩
  have hstays : ∀ s event s', s.stopped = true → step decode s event = some s' →
      s'.stopped = true := by
    intro s event s' hstopped hstep
    rcases stopped_step hstep with ⟨-, rfl⟩ | hsame
    · rfl
    · exact hsame.trans hstopped
  rw [StopFinal, suffixes_iff_along SameActivity.refl (fun _ _ _ => SameActivity.trans) hstays]
  refine along_iff_along (I := StopInv)
    (fun s event h => ⟨fun hsame => ?_, fun hquiet hstopped s' hstep => ?_⟩)
    (fun s event s' h hquiet hstep => stopInv_step h hquiet hstep) hinit
  · by_contra hloud
    obtain ⟨s', hstep, hacts⟩ := acts_of_not_quiet decode h hloud
    refine hacts (hsame ?_ s' hstep)
    by_contra hrunning
    exact hloud fun hstopped => absurd hstopped hrunning
  · exact (quiet_of_step h hstopped hquiet hstep).1

/-- A requery fails; its retry is armed and fires one second later. -/
def failsLate : List Event :=
  [.engine (.windowsReply (.resolved ⟨false, 1, []⟩)),
    .engine (.panesReply (.resolved ⟨false, 2, []⟩)), .engine .resume, .engine .release, .settled,
    .tick 1000, .timerFires 0]

/-- The requery was in flight when the coalescer was stopped. -/
theorem retry_after_stop :
    ¬StopFinal fromCharCodes (initial (createRequeryEngine {}) 0 none none)
      ([.notify, .stop] ++ failsLate) := by
  intro hfinal
  have hstarted : (exec (step fromCharCodes)
      (initial (createRequeryEngine {}) 0 none none).notify.stop failsLate).map
        (fun s => s.starts.length) = some 2 := by decide +kernel
  obtain ⟨s', hlater, hlength⟩ := Option.map_eq_some_iff.mp hstarted
  have hsame := hfinal [.notify, .stop] failsLate _ s' (List.prefix_refl _) rfl rfl hlater
  rw [hsame.starts] at hlength
  exact absurd hlength (by decide)

end Coalescing

end TmuxccDriver.State
