import TmuxccDriver.Runtime.Dispatch

/-!
# tmux and the pipeline

tmux, its one stream to the driver, and the pipeline. tmux announces every change of its topology by
a topology notification, at once or later, and what it writes is read in order. A notification read
is a dirty bit, a requery lists tmux's windows and then its panes, and tmux may change between the
two.

The answers of a requery that was cancelled, as the bootstrap does when it stalls, come all the same
and are not heard.

Results:
1. `Moved`: what the coalescer does to the engine.
2. `resumed`, `replied`, `owned`: what a resumption, a reply and the pipeline's own events do.
-/

namespace TmuxccDriver.Runtime.CleanModel
open TmuxccDriver.Lib TmuxccDriver.State TmuxccDriver.Runtime.ModelChanges
open TmuxccDriver.Runtime.Dispatch
open TmuxccDriver.Parser (CommandResult Error Outcome)
open TmuxccDriver.Parser.Notifications (NotificationEvent)

/-! ## The world -/

inductive Listing
  | windows
  | panes
deriving DecidableEq

/-- A `list-*` command that tmux has not answered; it is live unless its slot was cancelled. -/
structure Request where
  listing : Listing
  live : Bool

/-- What tmux wrote and the driver has not read. -/
inductive Item
  | notification (event : NotificationEvent)
  | answer (request : Request) (result : CommandResult)

/-- tmux has the two row lists; `unannounced` says that it changed the topology and has written no
topology notification since. -/
structure World where
  pipeline : Pipeline
  bootstrapBuffer : List DispatchedEvent
  windowRows : List WindowsReplyRow
  paneRows : List PanesReplyRow
  unannounced : Bool
  requests : List Request
  stream : List Item

inductive Event
  /-- tmux changes. -/
  | changes (windowRows : List WindowsReplyRow) (paneRows : List PanesReplyRow)
  /-- tmux writes a notification. -/
  | writes (event : NotificationEvent)
  /-- tmux answers the first command. -/
  | answers (result : CommandResult)
  | reads
  /-- The slots of the commands that are out are cancelled. -/
  | cancels (err : Error)
  /-- `injectNotification` of the input path. -/
  | injects (event : SyntheticEvent)
  /-- The patch of `applyClientBinding`. -/
  | binds (clientId : String) (boundPanes : List Protocol.PaneId)
  /-- The clock, a timer or a microtask. -/
  | pipeline (event : ModelChanges.Event)

/-- The reply to a command of the running requery. -/
def replyEvent : Listing → Outcome → Requery.Event
  | .windows => .windowsReply
  | .panes => .panesReply

def reply (listing : Listing) (outcome : Outcome) : ModelChanges.Event :=
  .scheduler (.engine (replyEvent listing outcome))

/-- What happens in the pipeline without tmux or a client. -/
def own : ModelChanges.Event → Bool
  | .bootstrapRequery | .bootstrapSettled => true
  | .scheduler (.tick _) | .scheduler .start | .scheduler .stop => true
  | .scheduler (.timerFires _) | .scheduler .settled => true
  | .scheduler (.engine .resume) | .scheduler (.engine .release) => true
  | _ => false

/-- The replies that a requery waits for, in the order of its commands. -/
def awaited : Flight → List Listing
  | .cycling cycle =>
    (if cycle.winResult.isNone then [.windows] else []) ++
      if cycle.paneResult.isNone then [.panes] else []
  | _ => []

/-- A cycle began, so its two commands were sent. -/
def begins : Flight → Flight → Bool
  | .cycling old, .cycling new => decide (old.attempt ≠ new.attempt)
  | _, .cycling _ => true
  | _, _ => false

namespace Item

def isTopology : Item → Bool
  | notification event => isTopologyEvent event
  | answer _ _ => false

def cancelled : Item → Item
  | notification event => .notification event
  | answer request result => .answer { request with live := false } result

end Item

namespace World

variable (w : World)

def engine : RequeryEngine := w.pipeline.scheduler.engine

/-- The pipeline went on, and sent the commands of a cycle that began. -/
def settle (p : Pipeline) : World :=
  { w with
    pipeline := p
    requests := w.requests ++
      if begins w.engine.flight p.scheduler.engine.flight then
        [⟨.windows, true⟩, ⟨.panes, true⟩]
      else [] }

/-- `_dispatchEvent`. -/
def dispatch (event : DispatchedEvent) : World :=
  if w.pipeline.bootstrapping then { w with bootstrapBuffer := w.bootstrapBuffer ++ [event] }
  else w.settle (dispatchEvent w.pipeline event)

/-- The end of `start`: what was buffered is dispatched. -/
def drain : World :=
  if w.pipeline.bootstrapping then w
  else w.bootstrapBuffer.foldl dispatch { w with bootstrapBuffer := [] }

/-- An answer lists what tmux has, unless it is an error. -/
def answersTruly (decode : Bytes → String) (listing : Listing) (result : CommandResult) : Bool :=
  !result.ok ||
    match listing with
    | .windows =>
      match parseWindows decode result.body with
      | .ok rows => rows = w.windowRows
      | .error _ => false
    | .panes =>
      match parsePanes decode result.body with
      | .ok rows => rows = w.paneRows
      | .error _ => false

/-- The promises of the commands that are out are rejected, and their answers are not heard. -/
def cancel (decode : Bytes → String) (err : Error) : Option World :=
  let replies := (awaited w.engine.flight).map fun listing => reply listing (.rejected err)
  (exec (ModelChanges.step decode) w.pipeline replies).map fun pipeline =>
    { w with
      pipeline
      requests := w.requests.map fun request => { request with live := false }
      stream := w.stream.map Item.cancelled }

end World

/-- One event; `none` if it cannot happen now. -/
def step (decode : Bytes → String) (w : World) : Event → Option World
  | .changes windowRows paneRows =>
    some { w with
      windowRows
      paneRows
      unannounced := w.unannounced ||
        (windowRows.map (·.topology) ≠ w.windowRows.map (·.topology) ||
          paneRows.map (·.topology) ≠ w.paneRows.map (·.topology)) }
  | .writes event =>
    some { w with
      stream := w.stream ++ [.notification event]
      unannounced := w.unannounced && !isTopologyEvent event }
  | .answers result =>
    match w.requests with
    | [] => none
    | request :: requests =>
      if w.answersTruly decode request.listing result then
        some { w with requests, stream := w.stream ++ [.answer request result] }
      else none
  | .reads =>
    match w.stream with
    | [] => none
    | .notification event :: stream => some ({ w with stream }.dispatch (.parsed event))
    | .answer request result :: stream =>
      if request.live then
        (ModelChanges.step decode w.pipeline (reply request.listing (.resolved result))).map
          { w with stream }.settle
      else some { w with stream }
  | .cancels err => w.cancel decode err
  | .injects event => some (w.dispatch (.internal event))
  | .binds clientId boundPanes =>
    some (w.settle (w.pipeline.patchModel (reconcileBinding clientId boundPanes)))
  | .pipeline event =>
    if own event then
      (ModelChanges.step decode w.pipeline event).map fun p => (w.settle p).drain
    else none

/-- A driver that was just started, and a tmux. -/
def start (sessionName : Option String) (teardownThreshold : Option Rat) (now : Rat)
    (ceilingMs heartbeatMs : Option Rat) (windowRows : List WindowsReplyRow)
    (paneRows : List PanesReplyRow) : World where
  pipeline := ModelChanges.start sessionName teardownThreshold now ceilingMs heartbeatMs
  bootstrapBuffer := []
  windowRows := windowRows
  paneRows := paneRows
  unannounced := false
  requests := []
  stream := []

/-! ## What the coalescer does to the engine -/

/-- A cycle without replies. -/
structure Blank (cycle : Cycle) : Prop where
  winResult : cycle.winResult = none
  paneResult : cycle.paneResult = none
  rejection : cycle.rejection = none

/-- `markDirty` and `requery`, in any order. -/
inductive Moved (engine next : RequeryEngine) : Prop
  | kept (hmodel : next.model = engine.model) (hflight : next.flight = engine.flight)
      (hdirty : engine.dirty = true → next.dirty = true)
  | began (hmodel : next.model = engine.model) (hidle : engine.flight = .idle) (cycle : Cycle)
      (hflight : next.flight = .cycling cycle) (hblank : Blank cycle)

section Moved

variable {engine next last : RequeryEngine}

theorem Moved.refl (engine : RequeryEngine) : Moved engine engine := .kept rfl rfl id

theorem Moved.trans (h : Moved engine next) (h' : Moved next last) : Moved engine last := by
  rcases h with ⟨hmodel, hflight, hdirty⟩ | ⟨hmodel, hidle, cycle, hflight, hblank⟩
  · rcases h' with ⟨hmodel', hflight', hdirty'⟩ | ⟨hmodel', hidle, cycle, hcycle, hblank⟩
    · exact .kept (hmodel'.trans hmodel) (hflight'.trans hflight) (hdirty' ∘ hdirty)
    · exact .began (hmodel'.trans hmodel) (hflight.symm.trans hidle) cycle hcycle hblank
  · rcases h' with ⟨hmodel', hflight', -⟩ | ⟨-, hidle', -⟩
    · exact .began (hmodel'.trans hmodel) hidle cycle (hflight'.trans hflight) hblank
    · cases hflight.symm.trans hidle'

theorem moved_markDirty (engine : RequeryEngine) : Moved engine engine.markDirty :=
  .kept rfl rfl fun _ => rfl

theorem moved_requery (engine : RequeryEngine) : Moved engine engine.requery := by
  unfold RequeryEngine.requery
  split
  · next hidle => exact .began rfl hidle _ rfl ⟨rfl, rfl, rfl⟩
  · exact .refl engine

end Moved

section Scheduler

variable (s : Scheduler)

theorem Moved.maybeFire {engine : RequeryEngine} (h : Moved engine s.engine) :
    Moved engine s.maybeFire.engine := by
  unfold Scheduler.maybeFire
  split
  · exact h
  · split
    · exact h
    · split
      · exact h.trans (moved_requery _)
      · split
        · exact h.trans (moved_requery _)
        · exact h

theorem engine_armHeartbeat : s.armHeartbeat.engine = s.engine := by
  unfold Scheduler.armHeartbeat
  split <;> rfl

theorem engine_scheduleRetry : s.scheduleRetryAfterFailure.engine = s.engine := by
  unfold Scheduler.scheduleRetryAfterFailure
  split
  · rfl
  · split <;> rfl

theorem moved_onHeartbeat : Moved s.engine s.onHeartbeat.engine := by
  unfold Scheduler.onHeartbeat
  dsimp only
  rw [engine_armHeartbeat]
  exact Moved.maybeFire _ (moved_markDirty s.engine)

/-- A notification leaves the engine dirty, or in a requery. -/
theorem moved_notify : Moved s.engine.markDirty s.notify.engine := by
  unfold Scheduler.notify
  exact Moved.maybeFire _ (.refl _)

/-- The callback of a requery that went well. -/
theorem moved_onCycleSettled (result : RequeryResult) (cycle : CycleMeta) :
    Moved s.engine (s.onCycleSettled (.ok result) cycle).1.engine := by
  unfold Scheduler.onCycleSettled
  dsimp only
  split
  · rw [engine_scheduleRetry]
    exact .refl _
  · unfold Scheduler.maybeFireIfDirty
    split
    · exact Moved.maybeFire _ (.refl s.engine)
    · exact .refl _

/-- The callback of one whose commands could not be sent. -/
theorem engine_onCycleSettled_submit (err : Error) (cycle : CycleMeta) :
    (s.onCycleSettled (.error (.submit err)) cycle).1.engine = s.engine.markDirty :=
  engine_scheduleRetry _

theorem inbox_onCycleSettled (outcome : Except RequeryError RequeryResult) (cycle : CycleMeta) :
    (s.onCycleSettled outcome cycle).1.inbox = s.inbox :=
  (calm_onCycleSettled s outcome cycle).inbox

end Scheduler

/-! ## What the engine does -/

def replyTo (cycle : Cycle) : Listing → Option Outcome
  | .windows => cycle.winResult
  | .panes => cycle.paneResult

/-- A reply that is no error can be read. -/
def Legible (decode : Bytes → String) (listing : Listing) (result : CommandResult) : Prop :=
  result.ok = true →
    match listing with
    | .windows => ∃ rows, parseWindows decode result.body = .ok rows
    | .panes => ∃ rows, parsePanes decode result.body = .ok rows

/-- A clean cycle commits, unless the teardown guard wants a second cycle or the second one does not
confirm the first. -/
def guarded (engine : RequeryEngine) (cycle : Cycle) (candidate : SessionModel) : Bool :=
  wouldTeardown (teardownFractions cycle.startModel candidate) engine.teardownThreshold =
    cycle.pendingTeardown.isSome

/-- A resumption of the cycles, once both replies came or one was rejected. -/
inductive Resumed (decode : Bytes → String) (engine : RequeryEngine) (cycle : Cycle)
    (next : RequeryEngine) : Prop
  | rejected (err : Error) (hrejection : cycle.rejection = some err)
      (hmodel : next.model = engine.model) (hflight : next.flight = .settled (.error (.submit err)))
  | failed (result : RequeryResult) (hmodel : next.model = engine.model)
      (hdirty : next.dirty = true) (hflight : next.flight = .settled (.ok result))
  | malformed (listing : Listing) (result : CommandResult)
      (hreply : replyTo cycle listing = some (.resolved result))
      (hlegible : ¬Legible decode listing result)
  | again (cycle' : Cycle) (hmodel : next.model = engine.model)
      (hflight : next.flight = .cycling cycle') (hattempt : cycle'.attempt ≠ cycle.attempt)
      (hblank : Blank cycle')
  | committed (winResult paneResult : CommandResult) (windowRows : List WindowsReplyRow)
      (paneRows : List PanesReplyRow) (result : RequeryResult)
      (hwin : cycle.winResult = some (.resolved winResult)) (hwinOk : winResult.ok = true)
      (hwindows : parseWindows decode winResult.body = .ok windowRows)
      (hpane : cycle.paneResult = some (.resolved paneResult)) (hpaneOk : paneResult.ok = true)
      (hpanes : parsePanes decode paneResult.body = .ok paneRows)
      (hclean : engine.dirty = false)
      (hguard : guarded engine cycle
        (carryForwardOverlays cycle.startModel (buildInitialModel windowRows paneRows)) = true)
      (hmodel : next.model =
        carryForwardOverlays cycle.startModel (buildInitialModel windowRows paneRows))
      (hflight : next.flight = .settled (.ok result))

section Resumed

variable {decode : Bytes → String} {engine next : RequeryEngine} {cycle : Cycle}

theorem resumed_nextCycle (engine : RequeryEngine) (sessionId : Option Nat)
    (pending : Option (SessionModel × TeardownFractions)) :
    Resumed decode engine cycle ({ engine with sessionId }.nextCycle cycle pending) := by
  unfold RequeryEngine.nextCycle
  split
  · exact .again _ rfl rfl (Nat.succ_ne_self _) ⟨rfl, rfl, rfl⟩
  · exact .failed _ rfl rfl rfl

theorem resumed_afterReplies {winResult paneResult : CommandResult}
    (hwin : cycle.winResult = some (.resolved winResult))
    (hpane : cycle.paneResult = some (.resolved paneResult)) :
    Resumed decode engine cycle (engine.afterReplies decode cycle winResult paneResult) := by
  unfold RequeryEngine.afterReplies
  split
  · exact .failed _ rfl rfl rfl
  next hok =>
  simp only [Bool.or_eq_true, Bool.not_eq_true', not_or, Bool.not_eq_false] at hok
  split
  · next err hparse =>
    refine .malformed .windows winResult hwin fun hlegible => ?_
    obtain ⟨rows, hrows⟩ := hlegible hok.1
    cases hparse.symm.trans hrows
  next windowRows hwindows =>
  split
  · next err hparse =>
    refine .malformed .panes paneResult hpane fun hlegible => ?_
    obtain ⟨rows, hrows⟩ := hlegible hok.2
    cases hparse.symm.trans hrows
  next paneRows hpanes =>
  obtain ⟨sessionId, hcapture⟩ := Requery.captureSessionId_eq engine windowRows paneRows
  dsimp only
  rw [hcapture]
  split
  · exact resumed_nextCycle engine sessionId none
  next hclean =>
  have hcommitted : guarded engine cycle
      (carryForwardOverlays cycle.startModel (buildInitialModel windowRows paneRows)) = true →
      Resumed decode engine cycle ({ engine with sessionId }.commit cycle.startModel
        (carryForwardOverlays cycle.startModel (buildInitialModel windowRows paneRows))) :=
    fun hguard => .committed winResult paneResult windowRows paneRows _ hwin hok.1 hwindows hpane
      hok.2 hpanes (Bool.not_eq_true _ ▸ hclean) hguard rfl rfl
  unfold RequeryEngine.decideClean
  dsimp only
  split
  · next hpending =>
    split
    · exact resumed_nextCycle engine sessionId _
    · next hsafe => exact hcommitted (by simp [guarded, hpending, Bool.not_eq_true _ ▸ hsafe])
  · next pending hpending =>
    split
    · next htripped => exact hcommitted (by simp [guarded, hpending, htripped])
    · exact .failed _ rfl rfl rfl

theorem resumed (h : Requery.step decode engine .resume = some next) :
    ∃ cycle, engine.flight = .cycling cycle ∧
      (cycle.rejection = none → awaited engine.flight = []) ∧
      Resumed decode engine cycle next := by
  simp only [Requery.step] at h
  split at h
  · next cycle hflight =>
    refine ⟨cycle, hflight, ?_⟩
    split at h
    · next err hrejection =>
      cases h
      refine ⟨fun hnone => ?_, .rejected err hrejection rfl rfl⟩
      cases hrejection.symm.trans hnone
    · next winResult paneResult _ hwin hpane =>
      cases h
      exact ⟨fun _ => by simp [awaited, hflight, hwin, hpane], resumed_afterReplies hwin hpane⟩
    · cases h
  · cases h

end Resumed

/-- The cycle with one more reply. -/
def noted (cycle : Cycle) (listing : Listing) (outcome : Outcome) : Cycle :=
  let rejection := Requery.noteRejection cycle.rejection outcome
  match listing with
  | .windows => { cycle with winResult := some outcome, rejection }
  | .panes => { cycle with paneResult := some outcome, rejection }

theorem replied {decode : Bytes → String} {p p' : Pipeline} {listing : Listing} {outcome : Outcome}
    (h : ModelChanges.step decode p (reply listing outcome) = some p') :
    p'.bootstrapping = p.bootstrapping ∧ p'.scheduler.inbox = p.scheduler.inbox ∧
      p'.model = p.model ∧ p'.scheduler.engine.dirty = p.scheduler.engine.dirty ∧
      ∃ cycle, p.scheduler.engine.flight = .cycling cycle ∧ replyTo cycle listing = none ∧
        p'.scheduler.engine.flight = .cycling (noted cycle listing outcome) := by
  have hevent : Coalescing.Event.engine (replyEvent listing outcome) ≠ .settled := nofun
  obtain ⟨-, -, scheduler, hnext, rfl⟩ := schedulerStep_cases hevent h
  cases listing with
  | windows =>
    have hreply : (Requery.step decode p.scheduler.engine (.windowsReply outcome)).map
        (fun engine => { p.scheduler with engine }) = some scheduler := hnext
    obtain ⟨engine, hengine, rfl⟩ := Option.map_eq_some_iff.mp hreply
    simp only [Requery.step] at hengine
    split at hengine
    · next cycle hflight =>
      split at hengine <;> cases hengine
      next hnone => exact ⟨rfl, rfl, rfl, rfl, cycle, hflight, not_not.mp hnone, rfl⟩
    · cases hengine
  | panes =>
    have hreply : (Requery.step decode p.scheduler.engine (.panesReply outcome)).map
        (fun engine => { p.scheduler with engine }) = some scheduler := hnext
    obtain ⟨engine, hengine, rfl⟩ := Option.map_eq_some_iff.mp hreply
    simp only [Requery.step] at hengine
    split at hengine
    · next cycle hflight =>
      split at hengine <;> cases hengine
      next hnone => exact ⟨rfl, rfl, rfl, rfl, cycle, hflight, not_not.mp hnone, rfl⟩
    · cases hengine

/-- What the pipeline does on its own, as far as the model is concerned. -/
inductive Owned (decode : Bytes → String) (event : ModelChanges.Event) (p p' : Pipeline) : Prop
  | moved (hboot : p'.bootstrapping = p.bootstrapping)
      (hinbox : p'.scheduler.inbox = p.scheduler.inbox)
      (hmoved : Moved p.scheduler.engine p'.scheduler.engine)
  | resumed (hevent : event = .scheduler (.engine .resume))
      (hboot : p'.bootstrapping = p.bootstrapping)
      (hinbox : p'.scheduler.inbox = p.scheduler.inbox) (cycle : Cycle)
      (hflight : p.scheduler.engine.flight = .cycling cycle)
      (hreplies : cycle.rejection = none → awaited p.scheduler.engine.flight = [])
      (hresumed : Resumed decode p.scheduler.engine cycle p'.scheduler.engine)
  | released (hboot : p'.bootstrapping = p.bootstrapping)
      (outcome : Except RequeryError RequeryResult)
      (hflight : p.scheduler.engine.flight = .settled outcome)
      (hinbox : p'.scheduler.inbox = some outcome)
      (hengine : p'.scheduler.engine = { p.scheduler.engine with flight := .idle })
  /-- The callback of a requery, or the end of the bootstrap. -/
  | delivered (hboot : p'.bootstrapping = false) (result : RequeryResult)
      (hinbox : p.scheduler.inbox = some (.ok result)) (hinbox' : p'.scheduler.inbox = none)
      (hmoved : Moved p.scheduler.engine p'.scheduler.engine)
  | refused (hboot : p'.bootstrapping = p.bootstrapping) (err : Error)
      (hinbox : p.scheduler.inbox = some (.error (.submit err)))
      (hinbox' : p'.scheduler.inbox = none) (hmodel : p'.model = p.model)
      (hflight : p'.scheduler.engine.flight = p.scheduler.engine.flight)
      (hdirty : p.scheduler.engine.dirty = true ∨ p.bootstrapping = false →
        p'.scheduler.engine.dirty = true)
  | malformed (err : ReplyCodecError)
      (hinbox : p.scheduler.inbox = some (.error (.malformed err)))

section Owned

variable {decode : Bytes → String} {p p' : Pipeline}

theorem owned_bootstrapSettled (h : ModelChanges.step decode p .bootstrapSettled = some p') :
    Owned decode .bootstrapSettled p p' := by
  simp only [ModelChanges.step] at h
  split at h
  · next result hboot hinbox =>
    cases h
    unfold Pipeline.bootstrapped
    dsimp only
    split
    · exact .delivered rfl result hinbox rfl (.refl _)
    · exact .delivered rfl result hinbox rfl (.refl _)
  · next err hboot hinbox =>
    cases h
    rcases err with err | err
    · refine .refused rfl err hinbox rfl rfl rfl fun hdirty => ?_
      exact hdirty.resolve_right fun hlive => by cases hboot.symm.trans hlive
    · exact .malformed err hinbox
  · cases h

theorem owned_settled (h : ModelChanges.step decode p (.scheduler .settled) = some p') :
    Owned decode (.scheduler .settled) p p' := by
  simp only [ModelChanges.step] at h
  split at h
  · next outcome cycle rest hlive hinbox hawaiting =>
    have hnone := inbox_onCycleSettled { p.scheduler with inbox := none, awaiting := rest } outcome
      cycle
    rcases outcome with (err | err) | result
    · cases h
      have hengine := engine_onCycleSettled_submit
        { p.scheduler with inbox := none, awaiting := rest } err cycle
      refine .refused rfl err hinbox hnone ?_ ?_ fun _ => ?_
      · show (Scheduler.onCycleSettled _ _ _).1.engine.model = _
        rw [hengine]
        rfl
      · show (Scheduler.onCycleSettled _ _ _).1.engine.flight = _
        rw [hengine]
        rfl
      · show (Scheduler.onCycleSettled _ _ _).1.engine.dirty = _
        rw [hengine]
        rfl
    · exact .malformed err hinbox
    · have hmoved :=
        moved_onCycleSettled { p.scheduler with inbox := none, awaiting := rest } result cycle
      split at h
      · cases h
        exact .delivered hlive result hinbox hnone hmoved
      · next handed _ _ =>
        cases h
        unfold Pipeline.onDeltas
        split
        · exact .delivered hlive result hinbox hnone hmoved
        · exact .delivered hlive result hinbox hnone hmoved
  · cases h

theorem owned_timerFires {s s' : Scheduler} {handle : Nat}
    (h : Coalescing.step decode s (.timerFires handle) = some s') :
    s'.inbox = s.inbox ∧ Moved s.engine s'.engine := by
  simp only [Coalescing.step] at h
  split at h
  · cases h
  · split at h
    · cases h
    · split at h <;> cases h
      · exact ⟨rfl, moved_requery _⟩
      · exact ⟨(calm_onHeartbeat _).inbox,
          moved_onHeartbeat { s with clock := s.clock.clearTimeout handle }⟩

theorem owned {event : ModelChanges.Event} (hown : own event = true)
    (h : ModelChanges.step decode p event = some p') : Owned decode event p p' := by
  cases event with
  | bootstrapRequery =>
    simp only [ModelChanges.step] at h
    split at h
    · cases h
      exact .moved rfl rfl (moved_requery _)
    · cases h
  | bootstrapSettled => exact owned_bootstrapSettled h
  | patch updater => cases hown
  | scheduler event =>
    by_cases hsettled : event = .settled
    · subst hsettled
      exact owned_settled h
    obtain ⟨-, -, scheduler, hnext, rfl⟩ := schedulerStep_cases hsettled h
    cases event with
    | tick ms =>
      simp only [Coalescing.step] at hnext
      split at hnext <;> cases hnext
      exact .moved rfl rfl (.refl _)
    | notify => cases hown
    | start =>
      cases hnext
      refine .moved rfl (calm_armHeartbeat _).inbox ?_
      show Moved _ (p.scheduler.armHeartbeat).engine
      rw [engine_armHeartbeat]
      exact .refl _
    | stop =>
      cases hnext
      exact .moved rfl rfl (.refl _)
    | timerFires handle =>
      obtain ⟨hinbox, hmoved⟩ := owned_timerFires hnext
      exact .moved rfl hinbox hmoved
    | engine event =>
      cases event with
      | resume =>
        obtain ⟨engine, hresume, rfl⟩ := Option.map_eq_some_iff.mp hnext
        obtain ⟨cycle, hflight, hreplies, hresumed⟩ := resumed hresume
        exact .resumed rfl rfl rfl cycle hflight hreplies hresumed
      | release =>
        simp only [Coalescing.step, Coalescing.engineEvent] at hnext
        split at hnext
        · next outcome hflight =>
          obtain ⟨engine, hrelease, rfl⟩ := Option.map_eq_some_iff.mp hnext
          simp only [Requery.step, hflight, Option.some.injEq] at hrelease
          exact .released rfl outcome hflight rfl hrelease.symm
        · cases hnext
      | _ => cases hown
    | settled => exact absurd rfl hsettled

end Owned

end TmuxccDriver.Runtime.CleanModel
