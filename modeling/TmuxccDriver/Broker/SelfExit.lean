import TmuxccDriver.Lib.Run
import Mathlib.Logic.Function.Basic

/-!
# The watcher and the exit of the broker

`server-proxy.ts`: the broker keeps a tmux client that watches the server (`createTmuxWatcher`
of `tmux-south.ts`). When that client ends, a probe asks whether tmux lives, and a timer spawns
the next watcher, or the broker exits by itself. It also exits after a time without clients.

A run begins at a call of `start`, and time passes in steps of its own, so that a timer may
fire at any moment from its due time on. The waits of a shutdown are one: nothing that is
modelled changes between the close of the metrics listener and that of the server.

Results:
1. `Sound`: which watcher lives, what waits for its successor, and how long there have been no
   clients.
2. `Sound.step`: every step keeps it, also those that come too late.
3. `step_adds`: a step spawns a watcher, announces an exit, or does neither.
4. `selfExit_iff`: in which runs every step is supervised, and nothing is spawned or announced
   after the begin of a shutdown.
-/

namespace TmuxccDriver.Broker.SelfExit
open TmuxccDriver.Lib

/-! ## The watcher -/

def POLL_INIT_MS : Nat := 250
def POLL_MAX_MS : Nat := 8000
def POLL_FACTOR : Nat := 2

/-- What a watcher waits for: the list of the sessions, its poll timer with its due time, or
the exit of its tmux client. -/
inductive Stage
  | listing
  | polling (due : Nat)
  | attached
  | ended
deriving DecidableEq, Repr

structure TmuxWatcher where
  stopped : Bool := false
  done : Bool := false
  pollMs : Nat := POLL_INIT_MS
  stage : Stage
deriving DecidableEq, Repr

namespace TmuxWatcher

/-- Its tmux client runs, or it has still to find a session to attach to. -/
def live (w : TmuxWatcher) : Bool :=
  match w.stage with
  | .listing | .polling _ => !w.stopped
  | .attached => true
  | .ended => false

/-- The rest of `connect` once the sessions are listed, and `schedulePoll`. -/
def listed (w : TmuxWatcher) (found : Bool) (now : Nat) : TmuxWatcher :=
  if w.stopped || w.done then { w with stage := .ended }
  else if found then { w with stage := .attached }
  else { w with stage := .polling (now + w.pollMs) }

/-- The poll timer fires. -/
def polled (w : TmuxWatcher) : TmuxWatcher :=
  { w with
    stage := if w.stopped || w.done then .ended else .listing
    pollMs := min (w.pollMs * POLL_FACTOR) POLL_MAX_MS }

/-- `fireEof`, up to the call of `onEof`. -/
def fireEof (w : TmuxWatcher) : TmuxWatcher :=
  { w with done := true, stage := .ended }

/-- `stop`: the tmux client is told to stop, and exits later. -/
def stop (w : TmuxWatcher) : TmuxWatcher :=
  { w with
    stopped := true
    stage := match w.stage with
      | .polling _ => .ended
      | stage => stage }

end TmuxWatcher

/-! ## The broker -/

def WATCHER_HEALTHY_MS : Nat := 10000
def WATCHER_RESPAWN_BACKOFF_INIT_MS : Nat := 250
def WATCHER_RESPAWN_BACKOFF_MAX_MS : Nat := 8000

inductive TmuxLiveness
  | alive
  | gone
  | inconclusive
deriving DecidableEq, Repr

inductive ServerProxySelfExitReason
  | tmuxGone
  | idle
deriving DecidableEq, Repr

/-- Where a self-exit is, after its announcement. -/
inductive ExitStage
  | draining
  | shuttingDown
  | notified
deriving DecidableEq, Repr

structure Exit where
  reason : ServerProxySelfExitReason
  stage : ExitStage
deriving DecidableEq, Repr

/-- The promise of `shutdown`. -/
inductive Shutdown
  | pending
  | resolved
  | rejected
deriving DecidableEq, Repr

structure ServerProxyOptions where
  persistThroughTmuxGone : Bool
  idleExitMs : Nat

/-- `watchers` are those spawned so far, `exits` the self-exits announced so far, and
`zeroSince` is when the last connection was closed, if there is none. A timer is due at the time
that `respawnTimer` has, and `idleExitMs` after the time that `idleTimer` has. -/
structure ServerProxy where
  now : Nat := 0
  starting : Bool := true
  started : Bool := false
  selfExited : Bool := false
  shutdownPromise : Option Shutdown := none
  watcher : Option Nat := none
  watchers : Nat → TmuxWatcher := fun _ => { stage := .ended }
  spawned : Nat := 0
  watcherSpawnedAt : Nat := 0
  watcherRespawnDelayMs : Nat := 0
  probeInFlight : Bool := false
  respawnTimer : Option Nat := none
  idleTimer : Option Nat := none
  ipcClientCount : Nat := 0
  zeroSince : Option Nat := some 0
  exits : List Exit := []

namespace ServerProxy

variable (opts : ServerProxyOptions) (s : ServerProxy)

def setWatcher (v : Nat) (w : TmuxWatcher) : ServerProxy :=
  { s with watchers := Function.update s.watchers v w }

/-- `this._watcher?.stop()`. -/
def stopWatcher : ServerProxy :=
  match s.watcher with
  | none => s
  | some v => s.setWatcher v (s.watchers v).stop

/-- `this._watcher = this._spawnWatcher()`. -/
def spawnWatcher : ServerProxy :=
  { s.setWatcher s.spawned { stage := .listing } with
    watcher := some s.spawned
    spawned := s.spawned + 1
    watcherSpawnedAt := s.now }

def startIdleTimer : ServerProxy := { s with idleTimer := some s.now }

def clearIdleTimer : ServerProxy := { s with idleTimer := none }

/-- `start`, after its waits. -/
def onStarted : ServerProxy :=
  startIdleTimer { s.spawnWatcher with starting := false, started := true }

/-- `shutdown`, and `_shutdownOnce` up to its waits. -/
def shutdown : ServerProxy :=
  if s.shutdownPromise ≠ none then s
  else
    { stopWatcher { s.clearIdleTimer with respawnTimer := none } with
      watcher := none
      shutdownPromise := some .pending }

/-- Those that wait for the promise of the shutdown go on once it is settled. -/
def awaitShutdown : ServerProxy :=
  if s.shutdownPromise = some .pending then s
  else
    { s with exits := s.exits.map fun exit =>
        if exit.stage = .shuttingDown then { exit with stage := .notified } else exit }

/-- The rest of `_shutdownOnce`: the server is closed, or that has failed. -/
def onClosed (ok : Bool) : ServerProxy :=
  awaitShutdown { s with
    shutdownPromise := some (if ok then .resolved else .rejected)
    started := s.started && !ok }

/-- `_selfExit`, up to its first wait. -/
def selfExit (reason : ServerProxySelfExitReason) : ServerProxy :=
  if s.selfExited || !s.started then s
  else
    match reason with
    | .tmuxGone =>
      { s with selfExited := true, exits := s.exits ++ [⟨reason, .draining⟩] }
    | .idle =>
      (shutdown { s with
        selfExited := true
        exits := s.exits ++ [⟨reason, .shuttingDown⟩] }).awaitShutdown

/-- The rest of `_selfExit` after `_awaitFarewellDrain`. -/
def onFarewellsSettled : ServerProxy :=
  (shutdown { s with
    exits := s.exits.map fun exit =>
      if exit.stage = .draining then { exit with stage := .shuttingDown } else exit }).awaitShutdown

def onWatcherEof : ServerProxy :=
  if !s.started || s.selfExited || s.probeInFlight then s
  else { s with probeInFlight := true }

def scheduleWatcherRespawn (delayMs : Nat) : ServerProxy :=
  match s.respawnTimer with
  | some _ => s
  | none => { s with respawnTimer := some (s.now + delayMs) }

/-- The backoff after a watcher that has lived for `aliveMs`. -/
def nextRespawnDelayMs (aliveMs : Nat) : Nat :=
  if WATCHER_HEALTHY_MS ≤ aliveMs then 0
  else
    min (max (s.watcherRespawnDelayMs * 2) WATCHER_RESPAWN_BACKOFF_INIT_MS)
      WATCHER_RESPAWN_BACKOFF_MAX_MS

/-- The probe of `_onWatcherEof` has its verdict. -/
def onProbed (liveness : TmuxLiveness) : ServerProxy :=
  let s := { s with probeInFlight := false }
  if !s.started || s.selfExited then s
  else
    match liveness with
    | .gone =>
      if opts.persistThroughTmuxGone then
        s.scheduleWatcherRespawn WATCHER_RESPAWN_BACKOFF_INIT_MS
      else s.selfExit .tmuxGone
    | .alive | .inconclusive =>
      let delayMs := s.nextRespawnDelayMs (s.now - s.watcherSpawnedAt)
      scheduleWatcherRespawn { s with watcherRespawnDelayMs := delayMs } delayMs

/-- The timer of `_scheduleWatcherRespawn` fires. -/
def onRespawnTimer : ServerProxy :=
  let s := { s with respawnTimer := none }
  if !s.started || s.selfExited then s else s.stopWatcher.spawnWatcher

/-- The timer of `_startIdleTimer` fires. -/
def onIdleTimer : ServerProxy :=
  let s := { s with idleTimer := none }
  if s.started && !s.selfExited && s.ipcClientCount == 0 then s.selfExit .idle else s

def onConnectionCountChange (count : Nat) : ServerProxy :=
  let s := { s with
    ipcClientCount := count
    zeroSince := if count = 0 then s.zeroSince <|> some s.now else none }
  if !s.started || s.selfExited then s
  else if count = 0 then s.clearIdleTimer.startIdleTimer else s.clearIdleTimer

end ServerProxy

inductive Event
  | elapse (ms : Nat)
  | started
  | listed (watcher : Nat) (found : Bool)
  | polled (watcher : Nat)
  | hostExited (watcher : Nat)
  | probed (liveness : TmuxLiveness)
  | respawnTimer
  | idleTimer
  | connectionCount (count : Nat)
  | shutdown
  | closed (ok : Bool)
  | farewellsSettled
deriving DecidableEq, Repr

/-- One step; what nobody waits for does not happen. -/
def step (opts : ServerProxyOptions) (s : ServerProxy) : Event → Option ServerProxy
  | .elapse ms => some { s with now := s.now + ms }
  | .started => if s.starting then some s.onStarted else none
  | .listed v found =>
    match (s.watchers v).stage with
    | .listing => some (s.setWatcher v ((s.watchers v).listed found s.now))
    | _ => none
  | .polled v =>
    match (s.watchers v).stage with
    | .polling due => if due ≤ s.now then some (s.setWatcher v (s.watchers v).polled) else none
    | _ => none
  | .hostExited v =>
    match (s.watchers v).stage with
    | .attached =>
      let s' := s.setWatcher v (s.watchers v).fireEof
      some (if (s.watchers v).stopped then s' else s'.onWatcherEof)
    | _ => none
  | .probed liveness => if s.probeInFlight then some (s.onProbed opts liveness) else none
  | .respawnTimer =>
    match s.respawnTimer with
    | some due => if due ≤ s.now then some s.onRespawnTimer else none
    | none => none
  | .idleTimer =>
    match s.idleTimer with
    | some since => if since + opts.idleExitMs ≤ s.now then some s.onIdleTimer else none
    | none => none
  | .connectionCount count => some (s.onConnectionCountChange count)
  | .shutdown => some s.shutdown
  | .closed ok => if s.shutdownPromise = some .pending then some (s.onClosed ok) else none
  | .farewellsSettled =>
    if s.exits.any (·.stage = .draining) then some s.onFarewellsSettled else none

/-! ## Supervision -/

/-- A shutdown has begun, or a self-exit, which ends in one. -/
def ServerProxy.Exiting (s : ServerProxy) : Prop :=
  s.selfExited = true ∨ s.shutdownPromise ≠ none

/-- While the broker serves there is a watcher, or something that brings the next one. -/
structure Supervised (s : ServerProxy) : Prop where
  watched : s.started = true → ¬s.Exiting →
    (∃ v, s.watcher = some v ∧ (s.watchers v).live = true) ∨ s.probeInFlight = true ∨
      s.respawnTimer ≠ none
  single : ∀ v w, (s.watchers v).live = true → (s.watchers w).live = true → v = w
  once : s.exits.length ≤ 1

/-- The reasons of the self-exits announced so far. -/
def ServerProxy.announced (s : ServerProxy) : List ServerProxySelfExitReason :=
  s.exits.map Exit.reason

/-- What a self-exit may be due to: tmux was found gone, or there have been no connections for
the whole time. -/
def Caused (opts : ServerProxyOptions) (s : ServerProxy) (event : Event) :
    ServerProxySelfExitReason → Prop
  | .tmuxGone => event = .probed .gone ∧ opts.persistThroughTmuxGone = false
  | .idle => ∃ since, s.zeroSince = some since ∧ since + opts.idleExitMs ≤ s.now

/-- A step that ends in a supervised state, spawns no watcher and announces no exit while the
broker is exiting, and announces an exit only if it is due. -/
structure Lawful (opts : ServerProxyOptions) (s : ServerProxy) (event : Event) : Prop where
  supervised : ∀ s', step opts s event = some s' → Supervised s'
  quiet : s.Exiting → ∀ s', step opts s event = some s' →
    s'.spawned = s.spawned ∧ s'.announced = s.announced
  caused : ∀ s', step opts s event = some s' → s'.announced ≠ s.announced →
    ∃ reason, s'.announced = s.announced ++ [reason] ∧ Caused opts s event reason

/-- The broker is shutting down on request: `started` is set, and `selfExited` is not. -/
def ServerProxy.ShuttingDown (s : ServerProxy) : Prop :=
  s.shutdownPromise ≠ none ∧ s.started = true ∧ s.selfExited = false

/-- What the guards let pass after the begin of a shutdown: the end of `start`, a probe that
finds tmux gone, the respawn timer, and the idle timer without connections. -/
inductive Late (opts : ServerProxyOptions) (s : ServerProxy) : Event → Prop
  | started (hstarting : s.starting = true) (hbegun : s.shutdownPromise ≠ none) :
      Late opts s .started
  | probed (hdown : s.ShuttingDown) (hprobe : s.probeInFlight = true)
      (hpersist : opts.persistThroughTmuxGone = false) : Late opts s (.probed .gone)
  | respawnTimer {due : Nat} (hdown : s.ShuttingDown) (htimer : s.respawnTimer = some due)
      (hdue : due ≤ s.now) : Late opts s .respawnTimer
  | idleTimer {since : Nat} (hdown : s.ShuttingDown) (htimer : s.idleTimer = some since)
      (hdue : since + opts.idleExitMs ≤ s.now) (hzero : s.ipcClientCount = 0) :
      Late opts s .idleTimer

/-! ## The invariant -/

/-- Only the last watcher lives, and none while a probe or the respawn timer is to bring the
next one. An idle timer that runs without clients was armed after the last of them left. -/
structure Sound (s : ServerProxy) : Prop where
  last : ∀ v, (s.watchers v).live = true → v + 1 = s.spawned
  running : ∀ v, (s.watchers v).live = true → (s.watchers v).done = false ∧
    (s.shutdownPromise = none → (s.watchers v).stopped = false)
  gap : s.probeInFlight = true ∨ s.respawnTimer ≠ none → ∀ v, (s.watchers v).live = false
  apart : s.probeInFlight = true → s.respawnTimer = none
  watched : s.started = true → ¬s.Exiting →
    (∃ v, s.watcher = some v ∧ (s.watchers v).live = true) ∨ s.probeInFlight = true ∨
      s.respawnTimer ≠ none
  starting : s.starting = true → s.started = false ∧ s.selfExited = false ∧ s.spawned = 0 ∧
    s.probeInFlight = false ∧ s.respawnTimer = none
  exits : s.exits.length = if s.selfExited then 1 else 0
  zero : ∀ since, s.zeroSince = some since → since ≤ s.now
  unconnected : s.ipcClientCount = 0 → s.zeroSince ≠ none
  idle : s.started = true → s.selfExited = false → ∀ armed, s.idleTimer = some armed →
    s.ipcClientCount = 0 → ∃ since, s.zeroSince = some since ∧ since ≤ armed

variable {opts : ServerProxyOptions} {s : ServerProxy}

theorem Sound.new : Sound {} where
  last v h := by simp [TmuxWatcher.live] at h
  running v h := by simp [TmuxWatcher.live] at h
  gap _ v := rfl
  apart h := by cases h
  watched h := by cases h
  starting _ := ⟨rfl, rfl, rfl, rfl, rfl⟩
  exits := rfl
  zero since h := by cases h; exact Nat.le_refl 0
  unconnected _ := by simp
  idle h := by cases h

theorem Sound.supervised (h : Sound s) : Supervised s where
  watched := h.watched
  single v w hv hw := by
    have hlast := (h.last v hv).trans (h.last w hw).symm
    exact Nat.succ.inj hlast
  once := by
    rw [h.exits]
    split <;> decide

namespace TmuxWatcher

variable {w : TmuxWatcher}

theorem live_of_stop (h : w.stop.live = true) :
    w.live = true ∧ w.stop.done = w.done := by
  cases hstage : w.stage <;> simp_all [TmuxWatcher.live, TmuxWatcher.stop]

/-- A watcher that lists the sessions goes on exactly if it lives. -/
theorem live_listed (hstage : w.stage = .listing) (found : Bool) (now : Nat)
    (hdone : w.live = true → w.done = false) :
    (w.listed found now).live = w.live ∧ (w.listed found now).stopped = w.stopped ∧
      (w.listed found now).done = w.done := by
  have hlive : w.live = !w.stopped := by simp [TmuxWatcher.live, hstage]
  rw [hlive] at hdone ⊢
  cases hstopped : w.stopped with
  | true => simp [TmuxWatcher.listed, TmuxWatcher.live, hstopped]
  | false =>
    have hnot : w.done = false := hdone (by simp [hstopped])
    cases found <;> simp [TmuxWatcher.listed, TmuxWatcher.live, hstopped, hnot]

theorem live_polled {due : Nat} (hstage : w.stage = .polling due)
    (hdone : w.live = true → w.done = false) :
    w.polled.live = w.live ∧ w.polled.stopped = w.stopped ∧ w.polled.done = w.done := by
  have hlive : w.live = !w.stopped := by simp [TmuxWatcher.live, hstage]
  rw [hlive] at hdone ⊢
  cases hstopped : w.stopped with
  | true => simp [TmuxWatcher.polled, TmuxWatcher.live, hstopped]
  | false =>
    have hnot : w.done = false := hdone (by simp [hstopped])
    simp [TmuxWatcher.polled, TmuxWatcher.live, hstopped, hnot]

end TmuxWatcher

namespace Sound

theorem elapse (h : Sound s) (ms : Nat) : Sound { s with now := s.now + ms } where
  last := h.last
  running := h.running
  gap := h.gap
  apart := h.apart
  watched := h.watched
  starting := h.starting
  exits := h.exits
  zero since hzero := Nat.le_trans (h.zero since hzero) (Nat.le_add_right _ _)
  unconnected := h.unconnected
  idle := h.idle

/-- A watcher goes on with its search for a session. -/
theorem setWatcher (h : Sound s) {v : Nat} {w : TmuxWatcher}
    (hw : w.live = (s.watchers v).live ∧ w.stopped = (s.watchers v).stopped ∧
      w.done = (s.watchers v).done) : Sound (s.setWatcher v w) := by
  obtain ⟨hlive, hstopped, hdone⟩ := hw
  have hall : ∀ u, (Function.update s.watchers v w u).live = (s.watchers u).live ∧
      (Function.update s.watchers v w u).stopped = (s.watchers u).stopped ∧
      (Function.update s.watchers v w u).done = (s.watchers u).done := by
    intro u
    rcases eq_or_ne u v with rfl | hne
    · simp [hlive, hstopped, hdone]
    · simp [Function.update_of_ne hne]
  exact {
    last := fun u hu => h.last u ((hall u).1 ▸ hu)
    running := fun u hu => by
      rw [ServerProxy.setWatcher, (hall u).2.1, (hall u).2.2]
      exact h.running u ((hall u).1 ▸ hu)
    gap := fun hgap u => (hall u).1.trans (h.gap hgap u)
    apart := h.apart
    watched := fun hstarted hnot => by
      rcases h.watched hstarted hnot with ⟨u, hu, hul⟩ | hrest
      · exact .inl ⟨u, hu, (hall u).1.trans hul⟩
      · exact .inr hrest
    starting := h.starting
    exits := h.exits
    zero := h.zero
    unconnected := h.unconnected
    idle := h.idle }

/-- The tmux client of a watcher exits. -/
theorem hostExited (h : Sound s) {v : Nat} (hstage : (s.watchers v).stage = .attached) :
    Sound (if (s.watchers v).stopped then s.setWatcher v (s.watchers v).fireEof
      else (s.setWatcher v (s.watchers v).fireEof).onWatcherEof) := by
  have hlive : (s.watchers v).live = true := by simp [TmuxWatcher.live, hstage]
  have hnone : ∀ u, (Function.update s.watchers v (s.watchers v).fireEof u).live = false := by
    intro u
    rcases eq_or_ne u v with rfl | hne
    · simp [TmuxWatcher.fireEof, TmuxWatcher.live]
    · rw [Function.update_of_ne hne, Bool.eq_false_iff]
      intro hu
      have heq := (h.last u hu).trans (h.last v hlive).symm
      exact hne (Nat.succ.inj heq)
  -- a probe or a respawn timer would mean that this watcher did not live
  have hprobe : s.probeInFlight = false ∧ s.respawnTimer = none := by
    constructor
    · by_contra hp
      rw [h.gap (.inl (by simpa using hp)) v] at hlive
      cases hlive
    · by_contra ht
      rw [h.gap (.inr ht) v] at hlive
      cases hlive
  have hquiet : ∀ b, (s.started = true → ¬s.Exiting → b = true) → (s.starting = true → b = false) →
      Sound { s.setWatcher v (s.watchers v).fireEof with probeInFlight := b } := by
    intro b hb hb'
    exact {
      last := fun u hu => by cases hu.symm.trans (hnone u)
      running := fun u hu => by cases hu.symm.trans (hnone u)
      gap := fun _ => hnone
      apart := fun _ => hprobe.2
      watched := fun hstarted hnot => .inr (.inl (hb hstarted hnot))
      starting := fun hs => by
        obtain ⟨h1, h2, h3, -, h5⟩ := h.starting hs
        exact ⟨h1, h2, h3, hb' hs, h5⟩
      exits := h.exits
      zero := h.zero
      unconnected := h.unconnected
      idle := h.idle }
  split
  · next hstopped =>
    have hbegun : s.shutdownPromise ≠ none := by
      intro hno
      rw [(h.running v hlive).2 hno] at hstopped
      cases hstopped
    have hs := hquiet false (fun _ hnot => absurd (.inr hbegun) hnot) fun _ => rfl
    rw [← hprobe.1] at hs
    exact hs
  · rw [ServerProxy.onWatcherEof]
    split
    · next hidle =>
      have hs := hquiet false (fun hstarted hnot => ?_) fun _ => rfl
      · rw [← hprobe.1] at hs
        exact hs
      · exfalso
        simp only [ServerProxy.setWatcher, Bool.or_eq_true, Bool.not_eq_true', hprobe.1, hstarted,
          Bool.false_eq_true, or_false, reduceCtorEq, false_or] at hidle
        exact hnot (.inl hidle)
    · next hidle =>
      refine hquiet true (fun _ _ => rfl) fun hs => ?_
      simp [ServerProxy.setWatcher, (h.starting hs).1] at hidle

/-- A watcher is stopped: it may live for a while, until its tmux client exits. -/
theorem live_stopWatcher {v : Nat} (hlive : (s.stopWatcher.watchers v).live = true) :
    (s.watchers v).live = true ∧ (s.stopWatcher.watchers v).done = (s.watchers v).done := by
  rw [ServerProxy.stopWatcher] at hlive ⊢
  split at hlive
  · exact ⟨hlive, rfl⟩
  · next u hwatcher =>
    simp only [ServerProxy.setWatcher] at hlive ⊢
    rcases eq_or_ne v u with rfl | hne
    · rw [Function.update_self] at hlive ⊢
      exact TmuxWatcher.live_of_stop hlive
    · rw [Function.update_of_ne hne] at hlive ⊢
      exact ⟨hlive, rfl⟩

theorem stopWatcher_eq (s : ServerProxy) :
    s.stopWatcher = { s with watchers := s.stopWatcher.watchers } := by
  rw [ServerProxy.stopWatcher]
  split <;> rfl

theorem shutdown (h : Sound s) : Sound s.shutdown := by
  rw [ServerProxy.shutdown]
  split
  · exact h
  · have hlive : ∀ v, ((ServerProxy.stopWatcher
        { s.clearIdleTimer with respawnTimer := none }).watchers v).live = true →
        (s.watchers v).live = true ∧ ((ServerProxy.stopWatcher
          { s.clearIdleTimer with respawnTimer := none }).watchers v).done =
            (s.watchers v).done := fun v hv => live_stopWatcher hv
    rw [stopWatcher_eq]
    generalize (ServerProxy.stopWatcher
      { s.clearIdleTimer with respawnTimer := none }).watchers = watchers at hlive
    exact {
      last := fun v hv => h.last v (hlive v hv).1
      running := fun v hv => ⟨(hlive v hv).2.trans (h.running v (hlive v hv).1).1, nofun⟩
      gap := fun hgap v => by
        rw [Bool.eq_false_iff]
        intro hv
        have hnone := h.gap (.inl (hgap.resolve_right fun hno => hno rfl)) v
        cases hnone.symm.trans (hlive v hv).1
      apart := fun _ => rfl
      watched := fun _ hnot => absurd (.inr (by simp)) hnot
      starting := fun hs => by
        obtain ⟨h1, h2, h3, h4, -⟩ := h.starting hs
        exact ⟨h1, h2, h3, h4, rfl⟩
      exits := h.exits
      zero := h.zero
      unconnected := h.unconnected
      idle := fun _ _ _ harmed => by cases harmed }

/-- The self-exits go on, and the broker may be marked as stopped. -/
theorem moveOn (h : Sound s) {shutdownPromise : Option Shutdown}
    (hbegun : shutdownPromise ≠ none) {started : Bool}
    (hstarted : started = true → s.started = true) (f : Exit → Exit) :
    Sound { s with
      shutdownPromise := shutdownPromise, started := started, exits := s.exits.map f } where
  last := h.last
  running v hv := ⟨(h.running v hv).1, fun hno => absurd hno hbegun⟩
  gap := h.gap
  apart := h.apart
  watched _ hnot := absurd (.inr hbegun) hnot
  starting hs := by
    obtain ⟨h1, h2, h3, h4, h5⟩ := h.starting hs
    refine ⟨?_, h2, h3, h4, h5⟩
    rw [Bool.eq_false_iff]
    intro hon
    rw [hstarted hon] at h1
    cases h1
  exits := by rw [List.length_map]; exact h.exits
  zero := h.zero
  unconnected := h.unconnected
  idle hon := h.idle (hstarted hon)

theorem awaitShutdown (h : Sound s) (hbegun : s.shutdownPromise ≠ none) :
    Sound s.awaitShutdown := by
  rw [ServerProxy.awaitShutdown]
  split
  · exact h
  · exact h.moveOn hbegun id _

theorem shutdown_begun (s : ServerProxy) : s.shutdown.shutdownPromise ≠ none := by
  rw [ServerProxy.shutdown]
  split
  · assumption
  · exact fun h => by cases h

theorem closed (h : Sound s) (ok : Bool) : Sound (s.onClosed ok) := by
  have hstarted : (s.started && !ok) = true → s.started = true :=
    fun hon => (Bool.and_eq_true_iff.mp hon).1
  have hbegun := Option.some_ne_none (if ok then Shutdown.resolved else .rejected)
  have hs := h.moveOn hbegun hstarted id
  rw [List.map_id] at hs
  exact hs.awaitShutdown (Option.some_ne_none _)

/-- A self-exit is announced: what the broker waits for does not matter any more. -/
theorem announce (h : Sound s) (hstarted : s.started = true) (hnot : s.selfExited = false)
    {p : Bool} (hp : p = true → s.probeInFlight = true) (exit : Exit) :
    Sound { s with probeInFlight := p, selfExited := true, exits := s.exits ++ [exit] } where
  last := h.last
  running := h.running
  gap hgap := h.gap (hgap.imp_left hp)
  apart hprobe := h.apart (hp hprobe)
  watched _ hserves := absurd (.inl rfl) hserves
  starting hs := by
    rw [(h.starting hs).1] at hstarted
    cases hstarted
  exits := by
    have hnone := h.exits
    rw [hnot] at hnone
    simp [hnone]
  zero := h.zero
  unconnected := h.unconnected
  idle _ hno := by cases hno

theorem selfExit (h : Sound s) (reason : ServerProxySelfExitReason) :
    Sound (s.selfExit reason) := by
  rw [ServerProxy.selfExit.eq_def]
  split
  · exact h
  · next hguard =>
    simp only [Bool.or_eq_true, Bool.not_eq_true', not_or, Bool.not_eq_true,
      Bool.not_eq_false] at hguard
    cases reason with
    | tmuxGone => exact h.announce hguard.2 hguard.1 id _
    | idle => exact (h.announce hguard.2 hguard.1 id _).shutdown.awaitShutdown (shutdown_begun _)

theorem farewellsSettled (h : Sound s) : Sound s.onFarewellsSettled := by
  rw [ServerProxy.onFarewellsSettled]
  refine Sound.awaitShutdown (Sound.shutdown ?_) (shutdown_begun _)
  exact {
    last := h.last
    running := h.running
    gap := h.gap
    apart := h.apart
    watched := h.watched
    starting := h.starting
    exits := by rw [List.length_map]; exact h.exits
    zero := h.zero
    unconnected := h.unconnected
    idle := h.idle }

theorem scheduled (h : Sound s) (hgap : ∀ v, (s.watchers v).live = false)
    (hstarted : s.started = true) (delayMs delayMs' : Nat) :
    Sound (ServerProxy.scheduleWatcherRespawn
      { s with probeInFlight := false, watcherRespawnDelayMs := delayMs } delayMs') := by
  have hnotStarting : s.starting = true → False := fun hs => by
    rw [(h.starting hs).1] at hstarted
    cases hstarted
  have hs : ∀ due, Sound { s with
      probeInFlight := false, watcherRespawnDelayMs := delayMs, respawnTimer := some due } := by
    intro due
    exact {
      last := h.last
      running := h.running
      gap := fun _ => hgap
      apart := fun hno => by cases hno
      watched := fun _ _ => .inr (.inr (Option.some_ne_none _))
      starting := fun hs => (hnotStarting hs).elim
      exits := h.exits
      zero := h.zero
      unconnected := h.unconnected
      idle := h.idle }
  rw [ServerProxy.scheduleWatcherRespawn]
  split
  · next due hdue =>
    have hsome := hs due
    rw [← hdue] at hsome
    exact hsome
  · exact hs _

/-- The probe has its verdict. -/
theorem probed (h : Sound s) (hprobe : s.probeInFlight = true) (liveness : TmuxLiveness) :
    Sound (s.onProbed opts liveness) := by
  have hgap := h.gap (.inl hprobe)
  have hidle : s.started = false ∨ s.selfExited = true → Sound { s with probeInFlight := false } :=
    fun hguard => {
      last := h.last
      running := h.running
      gap := fun _ => hgap
      apart := fun hno => by cases hno
      watched := fun hstarted hserves => by
        rcases hguard with hoff | hout
        · cases hoff.symm.trans hstarted
        · exact absurd (.inl hout) hserves
      starting := fun hs => by
        rw [(h.starting hs).2.2.2.1] at hprobe
        cases hprobe
      exits := h.exits
      zero := h.zero
      unconnected := h.unconnected
      idle := h.idle }
  simp only [ServerProxy.onProbed]
  split
  · next hguard =>
    refine hidle ?_
    simpa using hguard
  · next hguard =>
    simp only [Bool.or_eq_true, Bool.not_eq_true', not_or, Bool.not_eq_false,
      Bool.not_eq_true] at hguard
    cases liveness with
    | gone =>
      dsimp only
      split
      · exact h.scheduled hgap hguard.1 s.watcherRespawnDelayMs _
      · rw [ServerProxy.selfExit.eq_def, if_neg (by simp [hguard.1, hguard.2])]
        exact h.announce hguard.1 hguard.2 (fun hp => by cases hp) _
    | alive => exact h.scheduled hgap hguard.1 _ _
    | inconclusive => exact h.scheduled hgap hguard.1 _ _

/-- The next watcher is spawned when no other lives. -/
theorem spawnWatcher (h : Sound s) (hgap : ∀ v, (s.watchers v).live = false)
    (hprobe : s.probeInFlight = false) {starting : Bool} (hserves : starting = false)
    {watchers : Nat → TmuxWatcher}
    (hstopped : ∀ v, (watchers v).live = true → (s.watchers v).live = true)
    (started : Bool) (idleTimer : Option Nat)
    (hidle : started = true → s.selfExited = false → ∀ armed, idleTimer = some armed →
      s.ipcClientCount = 0 → ∃ since, s.zeroSince = some since ∧ since ≤ armed) :
    Sound (ServerProxy.spawnWatcher { s with
      starting := starting
      started := started
      respawnTimer := none
      watchers := watchers
      idleTimer := idleTimer }) := by
  have hlive : ∀ v, (Function.update watchers s.spawned { stage := .listing } v).live = true →
      v = s.spawned := by
    intro v hv
    by_contra hne
    rw [Function.update_of_ne hne] at hv
    cases (hgap v).symm.trans (hstopped v hv)
  exact {
    last := fun v hv => by rw [hlive v hv]; rfl
    running := fun v hv => by
      rw [hlive v hv]
      simp [ServerProxy.spawnWatcher, ServerProxy.setWatcher]
    gap := fun hno => by
      rcases hno with hp | ht
      · cases hprobe.symm.trans hp
      · exact absurd rfl ht
    apart := fun _ => rfl
    watched := fun _ _ => .inl ⟨s.spawned, rfl, by
      simp [ServerProxy.spawnWatcher, ServerProxy.setWatcher, TmuxWatcher.live]⟩
    starting := fun hs => by cases hserves.symm.trans hs
    exits := h.exits
    zero := h.zero
    unconnected := h.unconnected
    idle := hidle }

theorem onStarted (h : Sound s) (hstarting : s.starting = true) : Sound s.onStarted := by
  obtain ⟨-, -, hnone, hprobe, htimer⟩ := h.starting hstarting
  have hgap : ∀ v, (s.watchers v).live = false := by
    intro v
    rw [Bool.eq_false_iff]
    intro hv
    have := h.last v hv
    rw [hnone] at this
    cases this
  have hs := h.spawnWatcher hgap hprobe rfl (fun v (hv : (s.watchers v).live = true) => hv) true
    (some s.now) fun _ _ armed harmed hzero => by
      cases harmed
      obtain ⟨since, hsince⟩ := Option.ne_none_iff_exists'.mp (h.unconnected hzero)
      exact ⟨since, hsince, h.zero since hsince⟩
  rw [← htimer] at hs
  exact hs

/-- The respawn timer fires while the broker serves, or when it has ended. -/
theorem onRespawnTimer (h : Sound s) (htimer : s.respawnTimer ≠ none) :
    Sound s.onRespawnTimer := by
  have hgap := h.gap (.inr htimer)
  have hprobe : s.probeInFlight = false := by
    rw [Bool.eq_false_iff]
    exact fun hp => htimer (h.apart hp)
  have hstarting : s.starting = false := by
    rw [Bool.eq_false_iff]
    exact fun hs => htimer (h.starting hs).2.2.2.2
  simp only [ServerProxy.onRespawnTimer]
  split
  · next hguard =>
    exact {
      last := h.last
      running := h.running
      gap := fun _ => hgap
      apart := fun _ => rfl
      watched := fun hstarted hserves => by
        have hout : s.started = false ∨ s.selfExited = true := by simpa using hguard
        rcases hout with hoff | hout
        · cases hoff.symm.trans hstarted
        · exact absurd (.inl hout) hserves
      starting := fun hs => by cases hstarting.symm.trans hs
      exits := h.exits
      zero := h.zero
      unconnected := h.unconnected
      idle := h.idle }
  · rw [stopWatcher_eq]
    have hstopped : ∀ v,
        ((ServerProxy.stopWatcher { s with respawnTimer := none }).watchers v).live = true →
          (s.watchers v).live = true := fun v hv => (live_stopWatcher hv).1
    exact h.spawnWatcher hgap hprobe hstarting hstopped s.started s.idleTimer h.idle

/-- The idle timer fires. -/
theorem onIdleTimer (h : Sound s) : Sound s.onIdleTimer := by
  simp only [ServerProxy.onIdleTimer]
  have hs : Sound { s with idleTimer := none } := {
    last := h.last
    running := h.running
    gap := h.gap
    apart := h.apart
    watched := h.watched
    starting := h.starting
    exits := h.exits
    zero := h.zero
    unconnected := h.unconnected
    idle := fun _ _ _ hno => by cases hno }
  split
  · exact hs.selfExit .idle
  · exact hs

theorem onConnectionCountChange (h : Sound s) (count : Nat) :
    Sound (s.onConnectionCountChange count) := by
  have hzero : ∀ since, (if count = 0 then s.zeroSince <|> some s.now else none) = some since →
      since ≤ s.now := by
    intro since hsince
    split at hsince
    · cases hold : s.zeroSince with
      | none =>
        rw [hold] at hsince
        cases hsince
        exact Nat.le_refl _
      | some old =>
        rw [hold] at hsince
        cases hsince
        exact h.zero _ hold
    · cases hsince
  have hsome : count = 0 →
      (if count = 0 then s.zeroSince <|> some s.now else none) ≠ none := by
    intro hcount
    rw [if_pos hcount]
    cases s.zeroSince <;> exact Option.some_ne_none _
  have hs : ∀ zeroSince idleTimer : Option Nat,
      zeroSince = (if count = 0 then s.zeroSince <|> some s.now else none) →
      (s.started = true → s.selfExited = false → ∀ armed, idleTimer = some armed →
        armed = s.now) →
      Sound { s with
        ipcClientCount := count, zeroSince := zeroSince, idleTimer := idleTimer } := by
    intro zeroSince idleTimer hsince hidle
    subst hsince
    exact {
      last := h.last
      running := h.running
      gap := h.gap
      apart := h.apart
      watched := h.watched
      starting := h.starting
      exits := h.exits
      zero := hzero
      unconnected := hsome
      idle := fun hstarted hno armed harmed hcount => by
        rw [hidle hstarted hno armed harmed]
        obtain ⟨since, hsince⟩ := Option.ne_none_iff_exists'.mp (hsome hcount)
        exact ⟨since, hsince, hzero since hsince⟩ }
  simp only [ServerProxy.onConnectionCountChange]
  split
  · next hguard =>
    refine hs _ s.idleTimer rfl fun hstarted hno => ?_
    simp [hstarted, hno] at hguard
  · split
    · next hcount =>
      exact hs _ (some s.now) (if_pos hcount).symm fun _ _ armed harmed =>
        (Option.some.inj harmed).symm
    · next hcount =>
      exact hs _ none (if_neg hcount).symm fun _ _ armed harmed => by cases harmed

/-- Every step keeps the invariant, also while the broker is shutting down. -/
theorem step (h : Sound s) {event : Event} {s' : ServerProxy}
    (hstep : step opts s event = some s') : Sound s' := by
  cases event with
  | elapse ms =>
    cases hstep
    exact h.elapse ms
  | started =>
    rw [SelfExit.step, Option.ite_none_right_eq_some] at hstep
    obtain ⟨hstarting, heq⟩ := hstep
    cases heq
    exact h.onStarted hstarting
  | listed v found =>
    simp only [SelfExit.step] at hstep
    split at hstep
    · next hstage =>
      cases hstep
      exact h.setWatcher
        (TmuxWatcher.live_listed hstage found s.now fun hlive => (h.running v hlive).1)
    · cases hstep
  | polled v =>
    simp only [SelfExit.step] at hstep
    split at hstep
    · next due hstage =>
      rw [Option.ite_none_right_eq_some] at hstep
      cases hstep.2
      exact h.setWatcher (TmuxWatcher.live_polled hstage fun hlive => (h.running v hlive).1)
    · cases hstep
  | hostExited v =>
    simp only [SelfExit.step] at hstep
    split at hstep
    · next hstage =>
      cases hstep
      exact h.hostExited hstage
    · cases hstep
  | probed liveness =>
    rw [SelfExit.step, Option.ite_none_right_eq_some] at hstep
    obtain ⟨hprobe, heq⟩ := hstep
    cases heq
    exact h.probed hprobe liveness
  | respawnTimer =>
    simp only [SelfExit.step] at hstep
    split at hstep
    · next due htimer =>
      rw [Option.ite_none_right_eq_some] at hstep
      cases hstep.2
      exact h.onRespawnTimer (by rw [htimer]; exact Option.some_ne_none due)
    · cases hstep
  | idleTimer =>
    simp only [SelfExit.step] at hstep
    split at hstep
    · rw [Option.ite_none_right_eq_some] at hstep
      cases hstep.2
      exact h.onIdleTimer
    · cases hstep
  | connectionCount count =>
    cases hstep
    exact h.onConnectionCountChange count
  | shutdown =>
    cases hstep
    exact h.shutdown
  | closed ok =>
    rw [SelfExit.step, Option.ite_none_right_eq_some] at hstep
    cases hstep.2
    exact h.closed ok
  | farewellsSettled =>
    rw [SelfExit.step, Option.ite_none_right_eq_some] at hstep
    cases hstep.2
    exact h.farewellsSettled

end Sound

/-! ## What a step adds -/

section Added

/-- No watcher is spawned, and no self-exit announced. -/
def Same (s s' : ServerProxy) : Prop := s'.spawned = s.spawned ∧ s'.announced = s.announced

theorem Same.trans {s₁ s₂ s₃ : ServerProxy} (h : Same s₁ s₂) (h' : Same s₂ s₃) : Same s₁ s₃ :=
  ⟨h'.1.trans h.1, h'.2.trans h.2⟩

theorem same_stopWatcher (s : ServerProxy) : Same s s.stopWatcher := by
  rw [Sound.stopWatcher_eq]
  exact ⟨rfl, rfl⟩

theorem same_shutdown (s : ServerProxy) : Same s s.shutdown := by
  rw [ServerProxy.shutdown]
  split
  · exact ⟨rfl, rfl⟩
  · have hs := same_stopWatcher { s.clearIdleTimer with respawnTimer := none }
    exact ⟨hs.1, hs.2⟩

/-- A change of the stages leaves the reasons as they are. -/
theorem map_reason (exits : List Exit) {f : Exit → Exit}
    (hf : ∀ exit, (f exit).reason = exit.reason) :
    (exits.map f).map Exit.reason = exits.map Exit.reason := by
  rw [List.map_map]
  exact List.map_congr_left fun exit _ => hf exit

theorem same_awaitShutdown (s : ServerProxy) : Same s s.awaitShutdown := by
  rw [ServerProxy.awaitShutdown]
  split
  · exact ⟨rfl, rfl⟩
  · refine ⟨rfl, map_reason s.exits fun exit => ?_⟩
    split <;> rfl

theorem same_onFarewellsSettled (s : ServerProxy) : Same s s.onFarewellsSettled := by
  refine Same.trans ?_ ((same_shutdown _).trans (same_awaitShutdown _))
  refine ⟨rfl, map_reason s.exits fun exit => ?_⟩
  split <;> rfl

theorem same_scheduleWatcherRespawn (s : ServerProxy) (delayMs : Nat) :
    Same s (s.scheduleWatcherRespawn delayMs) := by
  rw [ServerProxy.scheduleWatcherRespawn]
  split <;> exact ⟨rfl, rfl⟩

theorem same_onConnectionCountChange (s : ServerProxy) (count : Nat) :
    Same s (s.onConnectionCountChange count) := by
  simp only [ServerProxy.onConnectionCountChange]
  split
  · exact ⟨rfl, rfl⟩
  · split <;> exact ⟨rfl, rfl⟩

theorem selfExit_adds (hstarted : s.started = true) (hnot : s.selfExited = false)
    (reason : ServerProxySelfExitReason) :
    (s.selfExit reason).spawned = s.spawned ∧
      (s.selfExit reason).announced = s.announced ++ [reason] := by
  rw [ServerProxy.selfExit.eq_def, if_neg (by simp [hstarted, hnot])]
  cases reason with
  | tmuxGone => exact ⟨rfl, by simp [ServerProxy.announced]⟩
  | idle =>
    obtain ⟨hspawned, hannounced⟩ := (same_shutdown _).trans (same_awaitShutdown
      (ServerProxy.shutdown { s with
        selfExited := true, exits := s.exits ++ [⟨.idle, .shuttingDown⟩] }))
    refine ⟨hspawned, hannounced.trans ?_⟩
    simp [ServerProxy.announced]

/-- When a step spawns a watcher. -/
inductive Spawns (s : ServerProxy) : Event → Prop
  | started (hstarting : s.starting = true) : Spawns s .started
  | respawnTimer {due : Nat} (hstarted : s.started = true) (hnot : s.selfExited = false)
      (htimer : s.respawnTimer = some due) (hdue : due ≤ s.now) : Spawns s .respawnTimer

/-- When a step announces a self-exit. -/
inductive Announces (opts : ServerProxyOptions) (s : ServerProxy) :
    Event → ServerProxySelfExitReason → Prop
  | tmuxGone (hstarted : s.started = true) (hnot : s.selfExited = false)
      (hprobe : s.probeInFlight = true) (hpersist : opts.persistThroughTmuxGone = false) :
      Announces opts s (.probed .gone) .tmuxGone
  | idle {since : Nat} (hstarted : s.started = true) (hnot : s.selfExited = false)
      (htimer : s.idleTimer = some since) (hdue : since + opts.idleExitMs ≤ s.now)
      (hzero : s.ipcClientCount = 0) : Announces opts s .idleTimer .idle

theorem probed_adds (hprobe : s.probeInFlight = true) (liveness : TmuxLiveness) :
    Same s (s.onProbed opts liveness) ∨
      ∃ reason, Announces opts s (.probed liveness) reason ∧
        (s.onProbed opts liveness).spawned = s.spawned ∧
        (s.onProbed opts liveness).announced = s.announced ++ [reason] := by
  simp only [ServerProxy.onProbed]
  split
  · exact .inl ⟨rfl, rfl⟩
  · next hguard =>
    simp only [Bool.or_eq_true, Bool.not_eq_true', not_or, Bool.not_eq_false,
      Bool.not_eq_true] at hguard
    cases liveness with
    | gone =>
      dsimp only
      split
      · exact .inl (same_scheduleWatcherRespawn _ _)
      · next hpersist =>
        refine .inr ⟨.tmuxGone, .tmuxGone hguard.1 hguard.2 hprobe (by simpa using hpersist), ?_⟩
        exact selfExit_adds (s := { s with probeInFlight := false }) hguard.1 hguard.2 _
    | alive => exact .inl (same_scheduleWatcherRespawn _ _)
    | inconclusive => exact .inl (same_scheduleWatcherRespawn _ _)

theorem respawnTimer_adds {due : Nat} (htimer : s.respawnTimer = some due) (hdue : due ≤ s.now) :
    Same s s.onRespawnTimer ∨ Spawns s .respawnTimer ∧
      s.onRespawnTimer.spawned = s.spawned + 1 ∧ s.onRespawnTimer.announced = s.announced := by
  simp only [ServerProxy.onRespawnTimer]
  split
  · exact .inl ⟨rfl, rfl⟩
  · next hguard =>
    simp only [Bool.or_eq_true, Bool.not_eq_true', not_or, Bool.not_eq_false,
      Bool.not_eq_true] at hguard
    obtain ⟨hspawned, hannounced⟩ := same_stopWatcher { s with respawnTimer := none }
    exact .inr ⟨.respawnTimer hguard.1 hguard.2 htimer hdue, congrArg Nat.succ hspawned,
      hannounced⟩

theorem idleTimer_adds {since : Nat} (htimer : s.idleTimer = some since)
    (hdue : since + opts.idleExitMs ≤ s.now) :
    Same s s.onIdleTimer ∨ Announces opts s .idleTimer .idle ∧
      s.onIdleTimer.spawned = s.spawned ∧ s.onIdleTimer.announced = s.announced ++ [.idle] := by
  simp only [ServerProxy.onIdleTimer]
  split
  · next hguard =>
    simp only [Bool.and_eq_true, Bool.not_eq_true', beq_iff_eq] at hguard
    obtain ⟨⟨hstarted, hnot⟩, hzero⟩ := hguard
    exact .inr ⟨.idle hstarted hnot htimer hdue hzero,
      selfExit_adds (s := { s with idleTimer := none }) hstarted hnot _⟩
  · exact .inl ⟨rfl, rfl⟩

/-- A step adds a watcher, a self-exit, or nothing. -/
theorem step_adds {event : Event} {s' : ServerProxy} (hstep : step opts s event = some s') :
    Same s s' ∨ (Spawns s event ∧ s'.announced = s.announced) ∨
      ∃ reason, Announces opts s event reason ∧ s'.spawned = s.spawned ∧
        s'.announced = s.announced ++ [reason] := by
  cases event with
  | elapse ms =>
    cases hstep
    exact .inl ⟨rfl, rfl⟩
  | started =>
    rw [SelfExit.step, Option.ite_none_right_eq_some] at hstep
    cases hstep.2
    exact .inr (.inl ⟨.started hstep.1, rfl⟩)
  | listed v found =>
    simp only [SelfExit.step] at hstep
    split at hstep
    · cases hstep
      exact .inl ⟨rfl, rfl⟩
    · cases hstep
  | polled v =>
    simp only [SelfExit.step] at hstep
    split at hstep
    · rw [Option.ite_none_right_eq_some] at hstep
      cases hstep.2
      exact .inl ⟨rfl, rfl⟩
    · cases hstep
  | hostExited v =>
    simp only [SelfExit.step, ServerProxy.onWatcherEof] at hstep
    split at hstep
    · cases hstep
      -- an exit starts a probe at most
      left
      split
      · exact ⟨rfl, rfl⟩
      · split <;> exact ⟨rfl, rfl⟩
    · cases hstep
  | probed liveness =>
    rw [SelfExit.step, Option.ite_none_right_eq_some] at hstep
    obtain ⟨hprobe, heq⟩ := hstep
    cases heq
    -- gone may be announced, and any other verdict only arms the respawn timer
    exact (probed_adds hprobe liveness).imp_right .inr
  | respawnTimer =>
    simp only [SelfExit.step] at hstep
    split at hstep
    · next due htimer =>
      rw [Option.ite_none_right_eq_some] at hstep
      cases hstep.2
      exact (respawnTimer_adds htimer hstep.1).imp_right fun h => .inl ⟨h.1, h.2.2⟩
    · cases hstep
  | idleTimer =>
    simp only [SelfExit.step] at hstep
    split at hstep
    · next since htimer =>
      rw [Option.ite_none_right_eq_some] at hstep
      cases hstep.2
      exact (idleTimer_adds htimer hstep.1).imp_right fun h => .inr ⟨_, h⟩
    · cases hstep
  | connectionCount count =>
    cases hstep
    exact .inl (same_onConnectionCountChange s count)
  | shutdown =>
    cases hstep
    exact .inl (same_shutdown s)
  | closed ok =>
    rw [SelfExit.step, Option.ite_none_right_eq_some] at hstep
    cases hstep.2
    exact .inl (same_awaitShutdown _)
  | farewellsSettled =>
    rw [SelfExit.step, Option.ite_none_right_eq_some] at hstep
    cases hstep.2
    exact .inl (same_onFarewellsSettled s)

end Added

/-! ## When the supervision holds -/

/-- What is announced is due, in a state with the invariant. -/
theorem Sound.caused (h : Sound s) {event : Event} {reason : ServerProxySelfExitReason}
    (hannounces : Announces opts s event reason) : Caused opts s event reason := by
  cases hannounces with
  | tmuxGone hstarted hnot hprobe hpersist => exact ⟨rfl, hpersist⟩
  | idle hstarted hnot htimer hdue hzero =>
    obtain ⟨since, hsince, hle⟩ := h.idle hstarted hnot _ htimer hzero
    exact ⟨since, hsince, Nat.le_trans (Nat.add_le_add_right hle _) hdue⟩

/-- A broker that exits and has not exited by itself is shutting down. -/
theorem shuttingDown_of_exiting (hexiting : s.Exiting) (hstarted : s.started = true)
    (hnot : s.selfExited = false) : s.ShuttingDown := by
  refine ⟨hexiting.resolve_left fun hout => ?_, hstarted, hnot⟩
  cases hnot.symm.trans hout

theorem Sound.not_spawns (h : Sound s) {event : Event} (hexiting : s.Exiting)
    (hlate : ¬Late opts s event) : ¬Spawns s event := by
  intro hspawns
  cases hspawns with
  | started hstarting =>
    refine hlate (.started hstarting (hexiting.resolve_left fun hout => ?_))
    cases (h.starting hstarting).2.1.symm.trans hout
  | respawnTimer hstarted hnot htimer hdue =>
    exact hlate (.respawnTimer (shuttingDown_of_exiting hexiting hstarted hnot) htimer hdue)

theorem not_announces {event : Event} (hexiting : s.Exiting) (hlate : ¬Late opts s event)
    (reason : ServerProxySelfExitReason) : ¬Announces opts s event reason := by
  intro hannounces
  cases hannounces with
  | tmuxGone hstarted hnot hprobe hpersist =>
    exact hlate (.probed (shuttingDown_of_exiting hexiting hstarted hnot) hprobe hpersist)
  | idle hstarted hnot htimer hdue hzero =>
    exact hlate (.idleTimer (shuttingDown_of_exiting hexiting hstarted hnot) htimer hdue hzero)

theorem Sound.lawful (h : Sound s) {event : Event} (hlate : ¬Late opts s event) :
    Lawful opts s event where
  supervised s' hstep := (h.step hstep).supervised
  quiet hexiting s' hstep := by
    rcases step_adds hstep with hsame | ⟨hspawns, -⟩ | ⟨reason, hannounces, -⟩
    · exact hsame
    · exact absurd hspawns (h.not_spawns hexiting hlate)
    · exact absurd hannounces (not_announces hexiting hlate reason)
  caused s' hstep hne := by
    rcases step_adds hstep with hsame | ⟨-, hsame⟩ | ⟨reason, hannounces, -, hmore⟩
    · exact absurd hsame.2 hne
    · exact absurd hsame hne
    · exact ⟨reason, hmore, h.caused hannounces⟩

/-- A step that comes too late spawns a watcher or announces an exit. -/
theorem not_lawful {event : Event} (hlate : Late opts s event) : ¬Lawful opts s event := by
  intro hlawful
  cases hlate with
  | started hstarting hbegun =>
    have hstep : step opts s .started = some s.onStarted := by rw [step, if_pos hstarting]
    have hsame := (hlawful.quiet (.inr hbegun) _ hstep).1
    exact absurd hsame (Nat.succ_ne_self s.spawned)
  | probed hdown hprobe hpersist =>
    have hstep : step opts s (.probed .gone) = some (s.onProbed opts .gone) := by
      rw [step, if_pos hprobe]
    have hsame := (hlawful.quiet (.inr hdown.1) _ hstep).2
    have hadds := (selfExit_adds (s := { s with probeInFlight := false }) hdown.2.1 hdown.2.2
      .tmuxGone).2
    have hprobed : s.onProbed opts .gone =
        ServerProxy.selfExit { s with probeInFlight := false } .tmuxGone := by
      simp [ServerProxy.onProbed, hdown.2.1, hdown.2.2, hpersist]
    rw [hprobed, hadds] at hsame
    simp [ServerProxy.announced] at hsame
  | respawnTimer hdown htimer hdue =>
    have hstep : step opts s .respawnTimer = some s.onRespawnTimer := by
      simp only [step, htimer]
      rw [if_pos hdue]
    have hsame := (hlawful.quiet (.inr hdown.1) _ hstep).1
    have hfires : s.onRespawnTimer =
        (ServerProxy.stopWatcher { s with respawnTimer := none }).spawnWatcher := by
      simp [ServerProxy.onRespawnTimer, hdown.2.1, hdown.2.2]
    have hspawned := (same_stopWatcher { s with respawnTimer := none }).1
    rw [hfires] at hsame
    exact absurd (hsame.trans hspawned.symm) (Nat.succ_ne_self _)
  | idleTimer hdown htimer hdue hzero =>
    have hstep : step opts s .idleTimer = some s.onIdleTimer := by
      simp only [step, htimer]
      rw [if_pos hdue]
    have hsame := (hlawful.quiet (.inr hdown.1) _ hstep).2
    have hadds := (selfExit_adds (s := { s with idleTimer := none }) hdown.2.1 hdown.2.2 .idle).2
    have hfires : s.onIdleTimer = ServerProxy.selfExit { s with idleTimer := none } .idle := by
      simp [ServerProxy.onIdleTimer, hdown.2.1, hdown.2.2, hzero]
    rw [hfires, hadds] at hsame
    simp [ServerProxy.announced] at hsame

/-- Every state of a run is supervised, and nothing is spawned or announced without a reason
or after the begin of a shutdown, exactly if no step comes too late. -/
theorem selfExit_iff (opts : ServerProxyOptions) (events : List Event) :
    Along (step opts) (Lawful opts) {} events ↔
      Along (step opts) (fun s event => ¬Late opts s event) {} events :=
  along_congr (fun _ _ _ h hstep => h.step hstep)
    (fun _ _ h => ⟨fun hlawful hlate => not_lawful hlate hlawful, h.lawful⟩) Sound.new

/-- The probe of a watcher that has died answers while the server is being closed. -/
def probedWhileClosing (liveness : TmuxLiveness) : List Event :=
  [.started, .listed 0 true, .elapse WATCHER_HEALTHY_MS, .hostExited 0, .shutdown, .probed liveness]

/-- A watcher is spawned after the begin of a shutdown, or a self-exit announced. -/
theorem late_watcher_late_exit :
    let opts : ServerProxyOptions := { persistThroughTmuxGone := false, idleExitMs := 300000 }
    (∃ s s', exec (step opts) {} (probedWhileClosing .alive) = some s ∧
      s.shutdownPromise = some .pending ∧ step opts s .respawnTimer = some s' ∧
      s'.spawned = s.spawned + 1) ∧
    ∃ s, exec (step opts) {} (probedWhileClosing .gone) = some s ∧
      s.shutdownPromise = some .pending ∧ s.announced = [.tmuxGone] :=
  ⟨⟨_, _, rfl, rfl, rfl, rfl⟩, _, rfl, rfl, rfl⟩

end TmuxccDriver.Broker.SelfExit
