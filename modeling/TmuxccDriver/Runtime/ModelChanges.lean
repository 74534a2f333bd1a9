import TmuxccDriver.State.Coalescer
import TmuxccDriver.State.RequeryRuns

/-!
# Model changes

`patchModel`, `onDeltas` and the end of `start` in `runtime/pipeline.ts`: what the handlers of
`onModelChange` are given, as pairs of the model before and the model after.

A requery commits in one microtask and is broadcast in a later one, against the model that was
broadcast last. A patch commits and is broadcast at once, against the engine's model; it does not
count as a broadcast.

Results:
1. `stepped`: what a step does to the pairs, to the model and to what is still to be broadcast.
2. `Telling.after`, `Telling.broken`: which steps keep the pairs in a chain, and that every other
   step breaks it.
3. `modelChanges_iff`: when the pairs of a run lead from each model to the later ones.
-/

namespace TmuxccDriver.Runtime.ModelChanges
open TmuxccDriver.Lib TmuxccDriver.State

/-! ## Chains of pairs -/

section Leads

variable {α : Type*}

/-- Each pair begins where the one before ended, from `a` on, and the last one ends at `b`. -/
def Leads : α → List (α × α) → α → Prop
  | a, [], b => a = b
  | a, (prev, next) :: pairs, b => prev = a ∧ Leads next pairs b

theorem leads_append {a c : α} {xs ys : List (α × α)} :
    Leads a (xs ++ ys) c ↔ ∃ b, Leads a xs b ∧ Leads b ys c := by
  induction xs generalizing a with
  | nil =>
    constructor
    · exact fun h => ⟨a, rfl, h⟩
    · rintro ⟨b, rfl, h⟩
      exact h
  | cons pair xs ih =>
    obtain ⟨prev, next⟩ := pair
    rw [List.cons_append, Leads, ih]
    constructor
    · rintro ⟨rfl, b, hxs, hys⟩
      exact ⟨b, ⟨rfl, hxs⟩, hys⟩
    · rintro ⟨b, ⟨rfl, hxs⟩, hys⟩
      exact ⟨rfl, b, hxs, hys⟩

/-- Where the pairs end, if they begin at `a`. -/
def endOf (a : α) (pairs : List (α × α)) : α := (pairs.getLast?.map Prod.snd).getD a

theorem Leads.map {β : Type*} (f : α → β) {a b : α} {pairs : List (α × α)}
    (h : Leads a pairs b) : Leads (f a) (pairs.map fun pair => (f pair.1, f pair.2)) (f b) := by
  induction pairs generalizing a with
  | nil => exact congrArg f h
  | cons pair pairs ih => exact ⟨congrArg f h.1, ih h.2⟩

theorem endOf_concat (a : α) (pairs : List (α × α)) (pair : α × α) :
    endOf a (pairs ++ [pair]) = pair.2 := by
  rw [endOf, List.getLast?_concat]
  rfl

theorem Leads.end_eq {a b : α} {pairs : List (α × α)} (h : Leads a pairs b) :
    b = endOf a pairs := by
  rcases pairs.eq_nil_or_concat' with rfl | ⟨front, pair, rfl⟩
  · exact h.symm
  · obtain ⟨c, -, -, hend⟩ := leads_append.mp h
    rw [endOf_concat]
    exact hend.symm

end Leads

/-! ## The pipeline -/

/-- The pipeline after `start` was called. Until the bootstrap requery is over, notifications are
buffered, and the coalescer is idle. The last two fields are an observer's: the model that the
engine had when a requery was resumed last, and the pairs that the handlers were given, `prev`
first. -/
structure Pipeline where
  scheduler : Scheduler
  bootstrapping : Bool
  lastBroadcastModel : SessionModel
  modelBeforeCommit : SessionModel
  modelChanges : List (SessionModel × SessionModel)

namespace Pipeline

def model (p : Pipeline) : SessionModel := p.scheduler.engine.model

/-- `_emitModelChange`. -/
def emitModelChange (p : Pipeline) (next prev : SessionModel) : Pipeline :=
  { p with modelChanges := p.modelChanges ++ [(prev, next)] }

/-- `engine.setModel`. -/
def setModel (p : Pipeline) (model : SessionModel) : Pipeline :=
  { p with scheduler := { p.scheduler with engine := p.scheduler.engine.setModel model } }

/-- `patchModel`; an updater that gives its argument back is one that gives `none`. -/
def patchModel (p : Pipeline) (updater : SessionModel → Option SessionModel) : Pipeline :=
  match updater p.model with
  | none => p
  | some next => (p.setModel next).emitModelChange next p.model

/-- `onDeltas`. A candidate that was committed is a new object, so it is never the one that was
broadcast last. -/
def onDeltas (p : Pipeline) (result : RequeryResult) : Pipeline :=
  if result.failed then p
  else
    { p with lastBroadcastModel := result.next }.emitModelChange result.next p.lastBroadcastModel

/-- The end of `start`, with the result of the bootstrap requery. -/
def bootstrapped (p : Pipeline) (initialResult : RequeryResult) : Pipeline :=
  let p := { p with bootstrapping := false }
  if initialResult.failed then p
  else
    let next := initialResult.next
    { p.emitModelChange next emptyModel with
      lastBroadcastModel := next }.emitModelChange next next

end Pipeline

/-- `createRuntimePipeline` and `start`, with a new engine. -/
def start (sessionName : Option String) (teardownThreshold : Option Rat) (now : Rat)
    (ceilingMs heartbeatMs : Option Rat) : Pipeline where
  scheduler := Coalescing.initial (createRequeryEngine { sessionName, teardownThreshold }) now
    ceilingMs heartbeatMs
  bootstrapping := true
  lastBroadcastModel := emptyModel
  modelBeforeCommit := emptyModel
  modelChanges := []

/-! ## Steps -/

inductive Event
  /-- `engine.requery()` of the bootstrap, once or for a further attempt. -/
  | bootstrapRequery
  /-- The promise of the bootstrap requery is settled. -/
  | bootstrapSettled
  | patch (updater : SessionModel → Option SessionModel)
  /-- The clock, a notification, a timer, a reply or a microtask. -/
  | scheduler (event : Coalescing.Event)

/-- What may happen to the coalescer and the engine while notifications are buffered. -/
def duringBootstrap : Coalescing.Event → Bool
  | .tick _ | .stop | .engine _ => true
  | _ => false

/-- The observer's part of an event of the coalescer. -/
def observe (p : Pipeline) : Coalescing.Event → SessionModel
  | .engine .resume => p.model
  | _ => p.modelBeforeCommit

/-- One event; `none` if it cannot happen now. -/
def step (decode : Bytes → String) (p : Pipeline) : Event → Option Pipeline
  | .bootstrapRequery =>
    match p.bootstrapping, p.scheduler.engine.flight, p.scheduler.inbox with
    | true, .idle, none =>
      some { p with scheduler := { p.scheduler with engine := p.scheduler.engine.requery } }
    | _, _, _ => none
  | .bootstrapSettled =>
    match p.bootstrapping, p.scheduler.inbox with
    | true, some (.ok result) =>
      some ({ p with scheduler := { p.scheduler with inbox := none } }.bootstrapped result)
    -- A stalled attempt was cancelled, or `start` rejects.
    | true, some (.error _) => some { p with scheduler := { p.scheduler with inbox := none } }
    | _, _ => none
  | .patch updater => some (p.patchModel updater)
  | .scheduler event =>
    match event with
    | .engine (.setModel _) => none
    | .settled =>
      match p.bootstrapping, p.scheduler.inbox, p.scheduler.awaiting with
      | false, some outcome, cycle :: rest =>
        let (scheduler, handed) :=
          { p.scheduler with inbox := none, awaiting := rest }.onCycleSettled outcome cycle
        match handed with
        | none => some { p with scheduler }
        | some (result, _) => some ({ p with scheduler }.onDeltas result)
      | _, _, _ => none
    | event =>
      if p.bootstrapping && !duringBootstrap event then none
      else
        (Coalescing.step decode p.scheduler event).map fun scheduler =>
          { p with scheduler, modelBeforeCommit := observe p event }

/-! ## What is committed and not broadcast -/

/-- A requery committed this result, and its callback has not run. -/
def Pending (s : Scheduler) (result : RequeryResult) : Prop :=
  result.failed = false ∧
    (s.engine.flight = .settled (.ok result) ∨ s.inbox = some (.ok result))

def Undelivered (s : Scheduler) : Prop := ∃ result, Pending s result

/-- The pairs that were given after `p`. -/
def since (p p' : Pipeline) : List (SessionModel × SessionModel) :=
  p'.modelChanges.drop p.modelChanges.length

/-- A subscriber that has the model of `p` follows the pairs given since, to the model of `p'`, or
to the one before a commit that is still to be broadcast. If `p` itself has such a commit, the
subscriber has seen it already, and its pair may come first. From the start on, this says that all
pairs chain, and where the last one ends. -/
def Follows (p p' : Pipeline) : Prop :=
  ∃ model,
    (Leads p.model (since p p') model ∨
      Undelivered p.scheduler ∧
        ∃ prev rest, since p p' = (prev, p.model) :: rest ∧ Leads p.model rest model) ∧
    (¬Undelivered p'.scheduler → model = p'.model)

/-! ## What the coalescer leaves as it is -/

/-- No commit, no settled promise: at most a requery that begins. -/
structure Calm (s s' : Scheduler) : Prop where
  inbox : s'.inbox = s.inbox
  model : s'.engine.model = s.engine.model
  flight : s'.engine.flight = s.engine.flight ∨
    s.engine.flight = .idle ∧ ∃ cycle, s'.engine.flight = .cycling cycle

theorem Calm.refl (s : Scheduler) : Calm s s := ⟨rfl, rfl, .inl rfl⟩

theorem Calm.trans {s₁ s₂ s₃ : Scheduler} (h : Calm s₁ s₂) (h' : Calm s₂ s₃) : Calm s₁ s₃ where
  inbox := h'.inbox.trans h.inbox
  model := h'.model.trans h.model
  flight := by
    rcases h'.flight with hsame | ⟨hidle, cycle, hcycle⟩
    · rw [hsame]
      exact h.flight
    · rcases h.flight with hsame | ⟨-, other, hother⟩
      · exact .inr ⟨hsame ▸ hidle, cycle, hcycle⟩
      · cases hidle.symm.trans hother

theorem Calm.pending_iff {s s' : Scheduler} (h : Calm s s') (result : RequeryResult) :
    Pending s' result ↔ Pending s result := by
  unfold Pending
  rw [h.inbox]
  refine and_congr_right fun _ => or_congr_left ?_
  rcases h.flight with hsame | ⟨hidle, cycle, hcycle⟩
  · rw [hsame]
  · rw [hidle, hcycle]
    constructor
    · intro hsettled
      cases hsettled
    · intro hsettled
      cases hsettled

section Calm

variable (s : Scheduler)

theorem calm_markDirty : Calm s s.markDirty := ⟨rfl, rfl, .inl rfl⟩

theorem calm_armTrailing (wait : Rat) : Calm s (s.armTrailing wait) := ⟨rfl, rfl, .inl rfl⟩

theorem calm_requery : Calm s { s with engine := s.engine.requery } := by
  refine ⟨rfl, ?_, ?_⟩
  · show (s.engine.requery).model = s.engine.model
    unfold RequeryEngine.requery
    split <;> rfl
  · show (s.engine.requery).flight = s.engine.flight ∨
      s.engine.flight = .idle ∧ ∃ cycle, (s.engine.requery).flight = .cycling cycle
    unfold RequeryEngine.requery
    split
    · next hidle => exact .inr ⟨hidle, _, rfl⟩
    · exact .inl rfl

theorem calm_runRequery : Calm s s.runRequery :=
  (calm_requery s).trans ⟨rfl, rfl, .inl rfl⟩

theorem calm_maybeFire : Calm s s.maybeFire := by
  have hedge : ∀ edge, Calm s (s.setPendingEdge edge) := fun _ => ⟨rfl, rfl, .inl rfl⟩
  unfold Scheduler.maybeFire
  split
  · exact .refl s
  · split
    · exact .refl s
    · split
      · exact (hedge .leading).trans (calm_runRequery _)
      · split
        · exact (hedge .leading).trans (calm_runRequery _)
        · exact (hedge .trailing).trans (calm_armTrailing _ _)

theorem calm_armHeartbeat : Calm s s.armHeartbeat := by
  unfold Scheduler.armHeartbeat
  split
  · exact .refl s
  · exact ⟨rfl, rfl, .inl rfl⟩

theorem calm_scheduleRetry : Calm s s.scheduleRetryAfterFailure := by
  unfold Scheduler.scheduleRetryAfterFailure
  split
  · exact .refl s
  · split
    · exact calm_armTrailing s _
    · exact calm_armTrailing s _

theorem calm_onHeartbeat : Calm s s.onHeartbeat := by
  have hpending : Calm s { s with coalescer := { s.coalescer with
      heartbeatHandle := none
      heartbeatPending := s.coalescer.heartbeatPending || s.coalescer.firstNotifyAt.isNone } } :=
    ⟨rfl, rfl, .inl rfl⟩
  exact ((hpending.trans (calm_markDirty _)).trans (calm_maybeFire _)).trans (calm_armHeartbeat _)

theorem calm_onCycleSettled (outcome : Except RequeryError RequeryResult) (cycle : CycleMeta) :
    Calm s (s.onCycleSettled outcome cycle).1 := by
  have hsettled : Calm s { s with coalescer := { s.coalescer with inFlight := false } } :=
    ⟨rfl, rfl, .inl rfl⟩
  have hrestored : Calm s ({ s with coalescer := { s.coalescer with
      inFlight := false } }.restoreFirstNotifyAt cycle.firstNotifyAt) := ⟨rfl, rfl, .inl rfl⟩
  unfold Scheduler.onCycleSettled
  rcases outcome with (err | err) | result
  · exact (hrestored.trans (calm_markDirty _)).trans (calm_scheduleRetry _)
  · exact ⟨rfl, rfl, .inl rfl⟩
  · dsimp only
    split
    · exact hrestored.trans (calm_scheduleRetry _)
    · unfold Scheduler.maybeFireIfDirty
      split
      · exact hsettled.trans (calm_maybeFire _)
      · exact hsettled

end Calm

/-- A further cycle commits nothing, and neither does the end of the budget. -/
theorem nextCycle_kept (engine : RequeryEngine) (cycle : Cycle)
    (pending : Option (SessionModel × TeardownFractions)) :
    (engine.nextCycle cycle pending).model = engine.model ∧
      ∀ result, (engine.nextCycle cycle pending).flight = .settled (.ok result) →
        result.failed = true := by
  unfold RequeryEngine.nextCycle
  split
  · exact ⟨rfl, fun _ hsettled => by cases hsettled⟩
  · exact ⟨rfl, fun _ hsettled => by cases hsettled; rfl⟩

/-- A reply and a resumption are for a requery in flight; a resumption may commit. -/
theorem engineStep_cases {decode : Bytes → String} {engine next : RequeryEngine}
    {event : Requery.Event} (hrequery : event ≠ .requery) (hdirty : event ≠ .markDirty)
    (hpatch : ∀ model, event ≠ .setModel model) (hrelease : event ≠ .release)
    (h : Requery.step decode engine event = some next) :
    (∃ cycle, engine.flight = .cycling cycle) ∧
      (next.model = engine.model ∧
          (∀ result, next.flight = .settled (.ok result) → result.failed = true) ∨
        event = .resume ∧ ∃ result, next.flight = .settled (.ok result) ∧
          result.failed = false ∧ next.model = result.next) := by
  cases event with
  | requery => exact absurd rfl hrequery
  | markDirty => exact absurd rfl hdirty
  | setModel model => exact absurd rfl (hpatch model)
  | release => exact absurd rfl hrelease
  | windowsReply reply =>
    simp only [Requery.step] at h
    split at h
    · next cycle hflight =>
      split at h <;> cases h
      exact ⟨⟨cycle, hflight⟩, .inl ⟨rfl, fun _ hsettled => by cases hsettled⟩⟩
    · cases h
  | panesReply reply =>
    simp only [Requery.step] at h
    split at h
    · next cycle hflight =>
      split at h <;> cases h
      exact ⟨⟨cycle, hflight⟩, .inl ⟨rfl, fun _ hsettled => by cases hsettled⟩⟩
    · cases h
  | resume =>
    rcases hflight : engine.flight with _ | cycle | outcome
    · simp [Requery.step, hflight] at h
    · refine ⟨⟨cycle, rfl⟩, ?_⟩
      have hlog : cycle.startModel = (⟨cycle.startModel, []⟩ : Requery.Log).start := rfl
      rcases Requery.resumed_of_step hflight hlog h with
        ⟨err, -⟩ | - | ⟨err, -⟩ | ⟨sessionId, -⟩ | ⟨sessionId, candidate, -⟩
      · exact .inl ⟨rfl, fun _ hsettled => by cases hsettled⟩
      · exact .inl ⟨rfl, fun _ hsettled => by cases hsettled; rfl⟩
      · exact .inl ⟨rfl, fun _ hsettled => by cases hsettled⟩
      · exact .inl (nextCycle_kept _ cycle none)
      · unfold RequeryEngine.decideClean
        dsimp only
        split
        · split
          · exact .inl (nextCycle_kept _ cycle _)
          · exact .inr ⟨rfl, _, rfl, rfl, rfl⟩
        · split
          · exact .inr ⟨rfl, _, rfl, rfl, rfl⟩
          · exact .inl ⟨rfl, fun _ hsettled => by cases hsettled; rfl⟩
    · simp [Requery.step, hflight] at h

/-! ## The invariant -/

/-- A requery that is settled leaves the engine idle until its callback runs; the coalescer is
idle during the bootstrap. -/
structure Sound (p : Pipeline) : Prop where
  live : p.bootstrapping = false → p.scheduler.Paced
  bootstrap : p.bootstrapping = true → p.scheduler.coalescer.inFlight = false ∧
    p.lastBroadcastModel = emptyModel ∧
    { p.scheduler with
      engine := { p.scheduler.engine with flight := .idle }, inbox := none }.Paced
  inbox : p.scheduler.inbox ≠ none → p.scheduler.engine.flight = .idle

variable {decode : Bytes → String} {p p' : Pipeline}

theorem Sound.of_live {scheduler : Scheduler} (h : scheduler.Paced)
    {lastBroadcast beforeCommit : SessionModel} {changes : List (SessionModel × SessionModel)} :
    Sound ⟨scheduler, false, lastBroadcast, beforeCommit, changes⟩ where
  live _ := h
  bootstrap hfalse := by cases hfalse
  inbox hne := h.engine_idle (.inr hne)

theorem sound_start (sessionName : Option String) (teardownThreshold : Option Rat) (now : Rat)
    (ceilingMs heartbeatMs : Option Rat) :
    Sound (start sessionName teardownThreshold now ceilingMs heartbeatMs) where
  live hfalse := by cases hfalse
  bootstrap _ := ⟨rfl, rfl, (Coalescing.paced_initial _ now ceilingMs heartbeatMs).1⟩
  inbox hne := absurd rfl hne

theorem Sound.setModel (h : Sound p) (model : SessionModel) : Sound (p.setModel model) where
  live hlive := { h.live hlive with }
  bootstrap hboot := by
    obtain ⟨hidle, hlast, hpaced⟩ := h.bootstrap hboot
    exact ⟨hidle, hlast, { hpaced with }⟩
  inbox := h.inbox

/-- The requery of the bootstrap is over. -/
theorem Sound.go_live (h : Sound p) (hboot : p.bootstrapping = true)
    (hinbox : p.scheduler.inbox ≠ none) : { p.scheduler with inbox := none }.Paced := by
  obtain ⟨hidle, -, hpaced⟩ := h.bootstrap hboot
  exact { hpaced with
    engine_idle := fun _ => h.inbox hinbox
    inbox_empty := fun _ => rfl }

/-! ## One step -/

/-- The model that the handlers were told last. -/
def told (p : Pipeline) : SessionModel := endOf emptyModel p.modelChanges

/-- The result that is broadcast in this step. -/
def broadcasts (p : Pipeline) : Event → Option RequeryResult
  | .bootstrapSettled =>
    match p.bootstrapping, p.scheduler.inbox with
    | true, some (.ok result) => if result.failed then none else some result
    | _, _ => none
  | .scheduler .settled =>
    match p.bootstrapping, p.scheduler.inbox, p.scheduler.awaiting with
    | false, some (.ok result), _ :: _ => if result.failed then none else some result
    | _, _, _ => none
  | _ => none

/-- The model that a patch makes in this step. -/
def patches (p : Pipeline) : Event → Option SessionModel
  | .patch updater => updater p.model
  | _ => none

/-- What a step does to the pairs, to the model and to what is still to be broadcast. -/
inductive Stepped (p : Pipeline) (event : Event) (p' : Pipeline) : Prop
  | quiet (hbroadcasts : broadcasts p event = none) (hpatches : patches p event = none)
      (hchanges : p'.modelChanges = p.modelChanges) (hmodel : p'.model = p.model)
      (hpending : ∀ result, Pending p'.scheduler result ↔ Pending p.scheduler result)
      (hbefore : Undelivered p.scheduler → p'.modelBeforeCommit = p.modelBeforeCommit)
  | committed (result : RequeryResult) (hbroadcasts : broadcasts p event = none)
      (hpatches : patches p event = none) (hchanges : p'.modelChanges = p.modelChanges)
      (hmodel : p'.model = result.next) (hdelivered : ¬Undelivered p.scheduler)
      (hpending : ∀ other, Pending p'.scheduler other ↔ other = result)
      (hbefore : p'.modelBeforeCommit = p.model)
  | broadcast (result : RequeryResult) (hbroadcasts : broadcasts p event = some result)
      (hpatches : patches p event = none) (rest : List (SessionModel × SessionModel))
      (hrest : rest = [] ∨ rest = [(result.next, result.next)])
      (hchanges : p'.modelChanges =
        p.modelChanges ++ (p.lastBroadcastModel, result.next) :: rest)
      (hmodel : p'.model = p.model) (hpending : Pending p.scheduler result)
      (hdelivered : ¬Undelivered p'.scheduler)
  | patched (next : SessionModel) (hbroadcasts : broadcasts p event = none)
      (hpatches : patches p event = some next)
      (hchanges : p'.modelChanges = p.modelChanges ++ [(p.model, next)]) (hmodel : p'.model = next)
      (hpending : ∀ result, Pending p'.scheduler result ↔ Pending p.scheduler result)
      (hbefore : p'.modelBeforeCommit = p.modelBeforeCommit)

section Pending

variable {s s' : Scheduler}

theorem not_undelivered_of_idle (hinbox : s.inbox = none)
    (hflight : ∀ outcome, s.engine.flight ≠ .settled outcome) : ¬Undelivered s := by
  rintro ⟨result, -, hsettled | hreleased⟩
  · exact hflight _ hsettled
  · cases hinbox.symm.trans hreleased

/-- A promise that was released with no commit. -/
theorem not_undelivered_of_inbox {outcome : Except RequeryError RequeryResult}
    (hinbox : s.inbox = some outcome) (hidle : s.engine.flight = .idle)
    (hfailed : ∀ result, outcome = .ok result → result.failed = true) : ¬Undelivered s := by
  rintro ⟨result, hok, hsettled | hreleased⟩
  · cases hidle.symm.trans hsettled
  · have hresult := hfailed result (Option.some.inj (hinbox.symm.trans hreleased))
    cases hok.symm.trans hresult

theorem pending_iff_of_not (h : ¬Undelivered s) (h' : ¬Undelivered s') (result : RequeryResult) :
    Pending s' result ↔ Pending s result :=
  ⟨fun hresult => absurd ⟨result, hresult⟩ h', fun hresult => absurd ⟨result, hresult⟩ h⟩

theorem Calm.not_undelivered (h : Calm s s') (hinbox : s.inbox = none)
    (hidle : s.engine.flight = .idle) : ¬Undelivered s' := by
  rintro ⟨result, hresult⟩
  refine not_undelivered_of_idle hinbox (fun outcome hsettled => ?_)
    ⟨result, (h.pending_iff result).mp hresult⟩
  cases hidle.symm.trans hsettled

end Pending

theorem stepped_patch (h : Sound p) (updater : SessionModel → Option SessionModel) :
    Stepped p (.patch updater) (p.patchModel updater) ∧ Sound (p.patchModel updater) := by
  unfold Pipeline.patchModel
  split
  · next hnone => exact ⟨.quiet rfl hnone rfl rfl (fun _ => Iff.rfl) fun _ => rfl, h⟩
  · next next hnext =>
    have hset := h.setModel next
    exact ⟨.patched next rfl hnext rfl rfl (fun _ => Iff.rfl) rfl,
      ⟨hset.live, hset.bootstrap, hset.inbox⟩⟩

theorem stepped_bootstrapRequery (h : Sound p)
    (hstep : step decode p .bootstrapRequery = some p') :
    Stepped p .bootstrapRequery p' ∧ Sound p' := by
  simp only [step] at hstep
  split at hstep
  · next hboot hidle hinbox =>
    cases hstep
    have hcalm : Calm p.scheduler { p.scheduler with engine := p.scheduler.engine.requery } :=
      calm_requery p.scheduler
    refine ⟨.quiet rfl rfl rfl hcalm.model hcalm.pending_iff fun _ => rfl, ?_, fun _ => ?_,
      fun hne => ?_⟩
    · exact fun hlive => by cases hboot.symm.trans hlive
    · obtain ⟨hflight, hlast, hpaced⟩ := h.bootstrap hboot
      exact ⟨hflight, hlast, { hpaced with }⟩
    · exact absurd hinbox hne
  · cases hstep

theorem stepped_bootstrapSettled (h : Sound p)
    (hstep : step decode p .bootstrapSettled = some p') :
    Stepped p .bootstrapSettled p' ∧ Sound p' := by
  simp only [step] at hstep
  split at hstep
  · next result hboot hinbox =>
    cases hstep
    have hpaced := h.go_live hboot (by simp [hinbox])
    have hidle := h.inbox (by simp [hinbox])
    have hdone : ¬Undelivered { p.scheduler with inbox := none } :=
      (Calm.refl { p.scheduler with inbox := none }).not_undelivered rfl hidle
    have hlast := (h.bootstrap hboot).2.1
    unfold Pipeline.bootstrapped
    dsimp only
    split
    · next hfailed =>
      have hbroadcasts : broadcasts p .bootstrapSettled = none := by
        simp only [broadcasts, hboot, hinbox, hfailed, if_true]
      have hnone : ¬Undelivered p.scheduler :=
        not_undelivered_of_inbox hinbox hidle fun other hother => by cases hother; exact hfailed
      exact ⟨.quiet hbroadcasts rfl rfl rfl (pending_iff_of_not hnone hdone) fun _ => rfl,
        .of_live hpaced⟩
    · next hok =>
      have hbroadcasts : broadcasts p .bootstrapSettled = some result := by
        simp only [broadcasts, hboot, hinbox, hok]
        rfl
      refine ⟨.broadcast result hbroadcasts rfl [(result.next, result.next)] (.inr rfl) ?_ rfl
        ⟨Bool.not_eq_true _ ▸ hok, .inr hinbox⟩ hdone, .of_live hpaced⟩
      rw [hlast]
      exact List.append_assoc _ _ _
  · next err hboot hinbox =>
    cases hstep
    have hbroadcasts : broadcasts p .bootstrapSettled = none := by
      simp only [broadcasts, hboot, hinbox]
    have hidle := h.inbox (by simp [hinbox])
    have hdone : ¬Undelivered { p.scheduler with inbox := none } :=
      (Calm.refl { p.scheduler with inbox := none }).not_undelivered rfl hidle
    have hnone : ¬Undelivered p.scheduler :=
      not_undelivered_of_inbox hinbox hidle fun other hother => by cases hother
    refine ⟨.quiet hbroadcasts rfl rfl rfl (pending_iff_of_not hnone hdone) fun _ => rfl, ?_,
      fun _ => h.bootstrap hboot, fun hne => absurd rfl hne⟩
    exact fun hlive => by cases hboot.symm.trans hlive
  · cases hstep

/-- What the coalescer hands to `onDeltas`: a result that is not failed. -/
theorem handed_onCycleSettled (s : Scheduler) (outcome : Except RequeryError RequeryResult)
    (cycle : CycleMeta) :
    (s.onCycleSettled outcome cycle).2 = none ∧
        (∀ result, outcome = .ok result → result.failed = true) ∨
      ∃ result, outcome = .ok result ∧ result.failed = false ∧
        (s.onCycleSettled outcome cycle).2 = some (result, cycle) := by
  rcases outcome with (err | err) | result
  · exact .inl ⟨rfl, fun _ h => by cases h⟩
  · exact .inl ⟨rfl, fun _ h => by cases h⟩
  · rcases hfailed : result.failed with _ | _
    · exact .inr ⟨result, rfl, hfailed, by simp [Scheduler.onCycleSettled, hfailed]⟩
    · refine .inl ⟨by simp [Scheduler.onCycleSettled, hfailed], fun other hother => ?_⟩
      cases hother
      exact hfailed

theorem stepped_settled (h : Sound p) (hstep : step decode p (.scheduler .settled) = some p') :
    Stepped p (.scheduler .settled) p' ∧ Sound p' := by
  simp only [step] at hstep
  split at hstep
  · next outcome cycle rest hlive hinbox hawaiting =>
    have hpaced := (Coalescing.paced_onCycleSettled (h.live hlive) hinbox hawaiting).1
    have hidle := h.inbox (by simp [hinbox])
    have hcalm :=
      calm_onCycleSettled { p.scheduler with inbox := none, awaiting := rest } outcome cycle
    have hdone := hcalm.not_undelivered rfl hidle
    have hbroadcasts : broadcasts p (.scheduler .settled) =
        match outcome with
        | .ok result => if result.failed then none else some result
        | .error _ => none := by
      rcases outcome with err | result
      · simp only [broadcasts, hlive, hinbox, hawaiting]
      · simp only [broadcasts, hlive, hinbox, hawaiting]
    obtain ⟨scheduler, lives, last, before, changes⟩ := p
    cases hlive
    rcases handed_onCycleSettled { scheduler with inbox := none, awaiting := rest } outcome cycle
      with ⟨hnone, hfailed⟩ | ⟨result, rfl, hok, hsome⟩
    · simp only [hnone, Option.some.injEq] at hstep
      subst hstep
      have hbefore := not_undelivered_of_inbox hinbox hidle hfailed
      refine ⟨.quiet ?_ rfl rfl hcalm.model (pending_iff_of_not hbefore hdone) fun _ => rfl,
        .of_live hpaced⟩
      rw [hbroadcasts]
      rcases outcome with err | result
      · rfl
      · exact if_pos (hfailed result rfl)
    · simp only [hsome, Option.some.injEq] at hstep
      subst hstep
      simp only [Pipeline.onDeltas, hok, Bool.false_eq_true, if_false]
      refine ⟨.broadcast result ?_ rfl [] (.inl rfl) rfl hcalm.model ⟨hok, .inr hinbox⟩ hdone,
        .of_live hpaced⟩
      rw [hbroadcasts]
      exact if_neg (by simp [hok])
  · cases hstep

/-- The other events of the coalescer are its own steps. -/
theorem schedulerStep_cases {event : Coalescing.Event} (hsettled : event ≠ .settled)
    (hstep : step decode p (.scheduler event) = some p') :
    (∀ model, event ≠ .engine (.setModel model)) ∧
      (p.bootstrapping = true → duringBootstrap event = true) ∧
      ∃ scheduler, Coalescing.step decode p.scheduler event = some scheduler ∧
        p' = { p with scheduler, modelBeforeCommit := observe p event } := by
  simp only [step] at hstep
  split at hstep
  · cases hstep
  · exact absurd rfl hsettled
  · next hpatch _ =>
    split at hstep
    · cases hstep
    · next hguard =>
      obtain ⟨scheduler, hnext, rfl⟩ := Option.map_eq_some_iff.mp hstep
      refine ⟨hpatch, fun hboot => ?_, scheduler, hnext, rfl⟩
      simpa [hboot] using hguard

/-- What an event of the coalescer does, but for the callback of a requery. -/
inductive Settling (s s' : Scheduler) (event : Coalescing.Event) : Prop
  | same (hmodel : s'.engine.model = s.engine.model)
      (hpending : ∀ result, Pending s' result ↔ Pending s result)
      (hresume : event = .engine .resume → ¬Undelivered s)
  | committed (result : RequeryResult) (hresume : event = .engine .resume)
      (hmodel : s'.engine.model = result.next) (hdelivered : ¬Undelivered s)
      (hpending : ∀ other, Pending s' other ↔ other = result)

theorem Calm.settling {s s' : Scheduler} {event : Coalescing.Event} (h : Calm s s')
    (hresume : event ≠ .engine .resume) : Settling s s' event :=
  .same h.model h.pending_iff fun heq => absurd heq hresume

/-- A promise that is released: its callback runs later. -/
theorem settling_of_release {s : Scheduler} {outcome : Except RequeryError RequeryResult}
    (hflight : s.engine.flight = .settled outcome) (hinbox : s.inbox = none) :
    Settling s { s with engine := { s.engine with flight := .idle }, inbox := some outcome }
      (.engine .release) := by
  refine .same rfl (fun result => and_congr_right fun _ => ?_) fun heq => by cases heq
  show Flight.idle = .settled (.ok result) ∨ some outcome = some (.ok result) ↔
    s.engine.flight = .settled (.ok result) ∨ s.inbox = some (.ok result)
  rw [hflight, hinbox]
  constructor
  · rintro (hidle | hsome)
    · cases hidle
    · exact .inl (congrArg Flight.settled (Option.some.inj hsome))
  · rintro (hsettled | hnone)
    · exact .inr (congrArg some (Flight.settled.inj hsettled))
    · cases hnone

theorem settling_of_engineEvent {s s' : Scheduler} {event : Requery.Event}
    (hinbox : s.inbox ≠ none → s.engine.flight = .idle) (hpatch : ∀ model, event ≠ .setModel model)
    (h : Coalescing.engineEvent decode s event = some s') : Settling s s' (.engine event) := by
  unfold Coalescing.engineEvent at h
  split at h
  · cases h
  · cases h
  · split at h
    · next outcome hflight =>
      obtain ⟨engine, hstep, rfl⟩ := Option.map_eq_some_iff.mp h
      simp only [Requery.step, hflight, Option.some.injEq] at hstep
      subst hstep
      refine settling_of_release hflight ?_
      by_contra hne
      cases hflight.symm.trans (hinbox hne)
    · cases h
  · next hrequery hdirty hrelease =>
    obtain ⟨engine, hstep, rfl⟩ := Option.map_eq_some_iff.mp h
    obtain ⟨⟨cycle, hflight⟩, hkept⟩ := engineStep_cases hrequery hdirty hpatch hrelease hstep
    have hnone : s.inbox = none := by
      by_contra hne
      cases hflight.symm.trans (hinbox hne)
    have hbefore : ¬Undelivered s := not_undelivered_of_idle hnone fun outcome hsettled => by
      cases hflight.symm.trans hsettled
    rcases hkept with ⟨hmodel, hfailed⟩ | ⟨rfl, result, hsettled, hok, hmodel⟩
    · refine .same hmodel (pending_iff_of_not hbefore ?_) fun _ => hbefore
      rintro ⟨result, hok, hsettled | hreleased⟩
      · cases hok.symm.trans (hfailed result hsettled)
      · cases hnone.symm.trans hreleased
    · refine .committed result rfl hmodel hbefore fun other => ?_
      constructor
      · rintro ⟨-, hother | hreleased⟩
        · cases hsettled.symm.trans hother
          rfl
        · cases hnone.symm.trans hreleased
      · rintro rfl
        exact ⟨hok, .inl hsettled⟩

theorem settling_of_step {s s' : Scheduler} {event : Coalescing.Event}
    (hinbox : s.inbox ≠ none → s.engine.flight = .idle) (hsettled : event ≠ .settled)
    (hpatch : ∀ model, event ≠ .engine (.setModel model))
    (h : Coalescing.step decode s event = some s') : Settling s s' event := by
  cases event with
  | tick ms =>
    simp only [Coalescing.step] at h
    split at h <;> cases h
    have hcalm : Calm s { s with clock := { s.clock with now := s.clock.now + ms } } :=
      ⟨rfl, rfl, .inl rfl⟩
    exact hcalm.settling (by simp)
  | notify =>
    cases h
    have hnotified : Calm s { s with coalescer := { s.coalescer with
        firstNotifyAt := s.coalescer.firstNotifyAt.or (some s.clock.now) } } :=
      ⟨rfl, rfl, .inl rfl⟩
    exact ((hnotified.trans (calm_markDirty _)).trans (calm_maybeFire _)).settling (by simp)
  | start =>
    cases h
    exact (calm_armHeartbeat s).settling (by simp)
  | stop =>
    cases h
    have hcalm : Calm s s.stop := ⟨rfl, rfl, .inl rfl⟩
    exact hcalm.settling (by simp)
  | timerFires handle =>
    have hcleared : Calm s { s with clock := s.clock.clearTimeout handle } :=
      ⟨rfl, rfl, .inl rfl⟩
    simp only [Coalescing.step] at h
    split at h
    · cases h
    · split at h
      · cases h
      · split at h <;> cases h
        · have hdisarmed : Calm s { s with
              clock := s.clock.clearTimeout handle
              coalescer := { s.coalescer with trailingHandle := none } } := ⟨rfl, rfl, .inl rfl⟩
          exact (hdisarmed.trans (calm_runRequery _)).settling (by simp)
        · exact (hcleared.trans (calm_onHeartbeat _)).settling (by simp)
  | engine event =>
    exact settling_of_engineEvent hinbox (fun model heq => hpatch model (congrArg _ heq)) h
  | settled => exact absurd rfl hsettled

/-- The coalescer stays idle during the bootstrap. -/
theorem Sound.of_bootstrap (h : Sound p) (hboot : p.bootstrapping = true)
    {event : Coalescing.Event} (hevent : duringBootstrap event = true) {scheduler : Scheduler}
    (hstep : Coalescing.step decode p.scheduler event = some scheduler) (before : SessionModel) :
    Sound { p with scheduler, modelBeforeCommit := before } := by
  obtain ⟨hidle, hlast, hpaced⟩ := h.bootstrap hboot
  have hlive : p.bootstrapping = false → scheduler.Paced := fun hlive => by
    cases hboot.symm.trans hlive
  cases event with
  | tick ms =>
    simp only [Coalescing.step] at hstep
    split at hstep <;> cases hstep
    next hms =>
    have htick : Coalescing.step decode { p.scheduler with
        engine := { p.scheduler.engine with flight := .idle }, inbox := none } (.tick ms) =
        some _ := if_pos hms
    exact ⟨hlive, fun _ => ⟨hidle, hlast, (Coalescing.paced_step hpaced htick).1⟩, h.inbox⟩
  | stop =>
    cases hstep
    exact ⟨hlive, fun _ => ⟨hidle, hlast, hpaced.stop⟩, h.inbox⟩
  | engine event =>
    obtain ⟨engine, inbox, rfl, hsame, hreleased⟩ := Coalescing.engineEvent_cases hstep
    refine ⟨hlive, fun _ => ⟨hidle, hlast, { hpaced with }⟩, fun hne => ?_⟩
    rcases hreleased with rfl | hreleased
    · exact (hsame (h.inbox hne)).2.1
    · exact hreleased
  | notify => cases hevent
  | start => cases hevent
  | timerFires handle => cases hevent
  | settled => cases hevent

theorem stepped_scheduler (h : Sound p) (event : Coalescing.Event)
    (hstep : step decode p (.scheduler event) = some p') :
    Stepped p (.scheduler event) p' ∧ Sound p' := by
  by_cases hsettled : event = .settled
  · subst hsettled
    exact stepped_settled h hstep
  · obtain ⟨hpatch, hevent, scheduler, hnext, rfl⟩ := schedulerStep_cases hsettled hstep
    have hbroadcasts : broadcasts p (.scheduler event) = none := by
      cases event with
      | settled => exact absurd rfl hsettled
      | _ => rfl
    constructor
    · rcases settling_of_step h.inbox hsettled hpatch hnext with
        ⟨hmodel, hpending, hresume⟩ | ⟨result, rfl, hmodel, hdelivered, hpending⟩
      · refine .quiet hbroadcasts rfl rfl hmodel hpending fun hundelivered => ?_
        show observe p event = p.modelBeforeCommit
        unfold observe
        split
        · exact absurd hundelivered (hresume rfl)
        · rfl
      · exact .committed result hbroadcasts rfl rfl hmodel hdelivered hpending rfl
    · obtain ⟨before, bootstrapping, last, beforeCommit, changes⟩ := p
      cases bootstrapping with
      | false => exact .of_live (Coalescing.paced_step (h.live rfl) hnext).1
      | true => exact h.of_bootstrap rfl (hevent rfl) hnext _

theorem stepped (h : Sound p) {event : Event} (hstep : step decode p event = some p') :
    Stepped p event p' ∧ Sound p' := by
  cases event with
  | bootstrapRequery => exact stepped_bootstrapRequery h hstep
  | bootstrapSettled => exact stepped_bootstrapSettled h hstep
  | patch updater =>
    cases hstep
    exact stepped_patch h updater
  | scheduler event => exact stepped_scheduler h event hstep

/-! ## Runs -/

/-- The commit that is broadcast replaced the model that was broadcast last, and no patch has
changed the model since; the model is patched over no commit that is still to be broadcast, unless
that commit changed nothing. -/
def KeepsChain (p : Pipeline) (event : Event) : Prop :=
  (∀ result, broadcasts p event = some result →
    p.modelBeforeCommit = p.lastBroadcastModel ∧ p.model = result.next) ∧
  ∀ next, patches p event = some next →
    ∀ result, Pending p.scheduler result → result.next = p.modelBeforeCommit

theorem keepsChain_of_none {event : Event} (hbroadcasts : broadcasts p event = none)
    (hpatches : patches p event = none) : KeepsChain p event := by
  constructor
  · intro result hsome
    cases hbroadcasts.symm.trans hsome
  · intro next hsome
    cases hpatches.symm.trans hsome

/-- The pairs are a chain, to the model or to the one before a commit that is still to be
broadcast. -/
structure Telling (p : Pipeline) : Prop where
  sound : Sound p
  chain : Leads emptyModel p.modelChanges (told p)
  delivered : ¬Undelivered p.scheduler → told p = p.model
  pending : ∀ result, Pending p.scheduler result →
    told p = p.modelBeforeCommit ∧ p.model = result.next ∨
      result.next = p.modelBeforeCommit ∧ told p = p.model

theorem not_undelivered_start {sessionName : Option String} {teardownThreshold : Option Rat}
    {now : Rat} {ceilingMs heartbeatMs : Option Rat} :
    ¬Undelivered (start sessionName teardownThreshold now ceilingMs heartbeatMs).scheduler :=
  not_undelivered_of_idle rfl fun _ hsettled => by cases hsettled

theorem telling_start (sessionName : Option String) (teardownThreshold : Option Rat) (now : Rat)
    (ceilingMs heartbeatMs : Option Rat) :
    Telling (start sessionName teardownThreshold now ceilingMs heartbeatMs) where
  sound := sound_start sessionName teardownThreshold now ceilingMs heartbeatMs
  chain := rfl
  delivered _ := rfl
  pending result hpending := absurd ⟨result, hpending⟩ not_undelivered_start

theorem told_of_changes_eq (h : p'.modelChanges = p.modelChanges) : told p' = told p :=
  congrArg (endOf emptyModel) h

theorem told_concat {pair : SessionModel × SessionModel}
    (h : p'.modelChanges = p.modelChanges ++ [pair]) : told p' = pair.2 := by
  unfold told
  rw [h]
  exact endOf_concat _ _ _

/-- After a broadcast the handlers were told its result. -/
theorem told_of_broadcast {prev next : SessionModel} {rest : List (SessionModel × SessionModel)}
    (hrest : rest = [] ∨ rest = [(next, next)])
    (h : p'.modelChanges = p.modelChanges ++ (prev, next) :: rest) :
    told p' = next ∧ Leads next rest next := by
  rcases hrest with rfl | rfl
  · exact ⟨told_concat h, rfl⟩
  · refine ⟨?_, rfl, rfl⟩
    unfold told
    rw [h, List.append_cons]
    exact endOf_concat _ _ _

/-- A patch that meets the condition finds the handlers told of the model. -/
theorem Telling.told_eq_model (h : Telling p) {event : Event} {next : SessionModel}
    (hpatches : patches p event = some next) (hkeeps : KeepsChain p event) :
    told p = p.model := by
  by_cases hundelivered : Undelivered p.scheduler
  · obtain ⟨result, hpending⟩ := hundelivered
    rcases h.pending result hpending with ⟨hbefore, hmodel⟩ | ⟨-, htold⟩
    · rw [hbefore, hmodel, hkeeps.2 next hpatches result hpending]
    · exact htold
  · exact h.delivered hundelivered

/-- A broadcast that meets the condition begins where the handlers are. -/
theorem Telling.told_eq_last (h : Telling p) {event : Event} {result : RequeryResult}
    (hbroadcasts : broadcasts p event = some result) (hpending : Pending p.scheduler result)
    (hkeeps : KeepsChain p event) : told p = p.lastBroadcastModel ∧ p.model = result.next := by
  obtain ⟨hlast, hmodel⟩ := hkeeps.1 result hbroadcasts
  refine ⟨?_, hmodel⟩
  rcases h.pending result hpending with ⟨hbefore, -⟩ | ⟨hnext, htold⟩
  · exact hbefore.trans hlast
  · rw [htold, hmodel, hnext, hlast]

/-- A step that meets the condition adds pairs that lead on from what the handlers were told. -/
theorem Telling.leads (h : Telling p) {event : Event} (hkeeps : KeepsChain p event)
    (hstepped : Stepped p event p') :
    ∃ pairs, p'.modelChanges = p.modelChanges ++ pairs ∧ Leads (told p) pairs (told p') := by
  rcases hstepped with
    ⟨-, -, hchanges⟩ | ⟨result, -, -, hchanges⟩ |
    ⟨result, hbroadcasts, -, rest, hrest, hchanges, -, hpending⟩ | ⟨next, -, hpatches, hchanges⟩
  · exact ⟨[], by rw [hchanges, List.append_nil], (told_of_changes_eq hchanges).symm⟩
  · exact ⟨[], by rw [hchanges, List.append_nil], (told_of_changes_eq hchanges).symm⟩
  · obtain ⟨htold, hleads⟩ := told_of_broadcast hrest hchanges
    refine ⟨_, hchanges, (h.told_eq_last hbroadcasts hpending hkeeps).1.symm, ?_⟩
    rw [htold]
    exact hleads
  · exact ⟨_, hchanges, (h.told_eq_model hpatches hkeeps).symm, (told_concat hchanges).symm⟩

theorem Telling.after (h : Telling p) {event : Event} (hkeeps : KeepsChain p event)
    (hstep : step decode p event = some p') : Telling p' := by
  obtain ⟨hstepped, hsound⟩ := stepped h.sound hstep
  obtain ⟨pairs, hpairs, hleads⟩ := h.leads hkeeps hstepped
  have hchain : Leads emptyModel p'.modelChanges (told p') := by
    rw [hpairs]
    exact leads_append.mpr ⟨_, h.chain, hleads⟩
  rcases hstepped with
    ⟨-, -, hchanges, hmodel, hpending, hbefore⟩ |
    ⟨result, -, -, hchanges, hmodel, hdelivered, hpending, hbefore⟩ |
    ⟨result, hbroadcasts, -, rest, hrest, hchanges, hmodel, hpending, hdelivered⟩ |
    ⟨next, -, hpatches, hchanges, hmodel, hpending, hbefore⟩
  · refine ⟨hsound, hchain, fun hdone => ?_, fun result hresult => ?_⟩
    · rw [told_of_changes_eq hchanges, hmodel]
      exact h.delivered fun ⟨result, hresult⟩ => hdone ⟨result, (hpending result).mpr hresult⟩
    · have hold := (hpending result).mp hresult
      rw [told_of_changes_eq hchanges, hmodel, hbefore ⟨result, hold⟩]
      exact h.pending result hold
  · refine ⟨hsound, hchain, fun hdone => absurd ⟨result, (hpending result).mpr rfl⟩ hdone,
      fun other hother => .inl ⟨?_, ?_⟩⟩
    · rw [told_of_changes_eq hchanges, hbefore]
      exact h.delivered hdelivered
    · rw [hmodel, (hpending other).mp hother]
  · refine ⟨hsound, hchain, fun _ => ?_, fun other hother => absurd ⟨other, hother⟩ hdelivered⟩
    rw [(told_of_broadcast hrest hchanges).1, hmodel,
      (h.told_eq_last hbroadcasts hpending hkeeps).2]
  · have htold : told p' = p'.model := (told_concat hchanges).trans hmodel.symm
    refine ⟨hsound, hchain, fun _ => htold, fun result hresult => .inr ⟨?_, htold⟩⟩
    rw [hbefore]
    exact hkeeps.2 next hpatches result ((hpending result).mp hresult)

/-- Since `p₁` the pairs lead from its model to what the handlers were told, but for the pair of
a commit that `p₁` has already. -/
structure Continues (p₁ p : Pipeline) : Prop where
  telling : Telling p
  pairs : ∃ pairs, p.modelChanges = p₁.modelChanges ++ pairs ∧
    (pairs = [] ∧ p.model = p₁.model ∧ Undelivered p₁.scheduler ∧ Undelivered p.scheduler ∨
      Leads p₁.model pairs (told p) ∨
      Undelivered p₁.scheduler ∧
        ∃ prev rest, pairs = (prev, p₁.model) :: rest ∧ Leads p₁.model rest (told p))

theorem Telling.continues (h : Telling p) : Continues p p where
  telling := h
  pairs := by
    refine ⟨[], (List.append_nil _).symm, ?_⟩
    by_cases hundelivered : Undelivered p.scheduler
    · exact .inl ⟨rfl, rfl, hundelivered, hundelivered⟩
    · exact .inr (.inl (h.delivered hundelivered).symm)

theorem Continues.after {p₁ : Pipeline} (h : Continues p₁ p) {event : Event}
    (hkeeps : KeepsChain p event) (hstep : step decode p event = some p') : Continues p₁ p' := by
  have hstepped := (stepped h.telling.sound hstep).1
  obtain ⟨more, hmore, hleads⟩ := h.telling.leads hkeeps hstepped
  obtain ⟨pairs, hpairs, hcases⟩ := h.pairs
  refine ⟨h.telling.after hkeeps hstep, pairs ++ more, ?_, ?_⟩
  · rw [hmore, hpairs, List.append_assoc]
  rcases hcases with ⟨rfl, hsame, hfirst, hundelivered⟩ | hold | ⟨hfirst, prev, rest, rfl, hold⟩
  · have hchanges : ∀ {ext}, p'.modelChanges = p.modelChanges ++ ext → [] ++ more = ext :=
      fun hext => List.append_cancel_left (hmore.symm.trans hext)
    rcases hstepped with
      ⟨-, -, hnone, hmodel, hpending, -⟩ | ⟨-, -, -, -, -, hdelivered, -⟩ |
      ⟨result, hbroadcasts, -, others, hothers, hbroadcast, hmodel, hpending, -⟩ |
      ⟨next, -, hpatches, hpatched, -⟩
    · refine .inl ⟨hchanges (hnone.trans (List.append_nil _).symm), hmodel.trans hsame, hfirst, ?_⟩
      exact hundelivered.imp fun result => (hpending result).mpr
    · exact absurd hundelivered hdelivered
    · obtain ⟨htold, hnext⟩ := told_of_broadcast hothers hbroadcast
      have hresult := (h.telling.told_eq_last hbroadcasts hpending hkeeps).2
      refine .inr (.inr ⟨hfirst, p.lastBroadcastModel, others, ?_, ?_⟩)
      · rw [hchanges hbroadcast, ← hsame, hresult]
      · rw [← hsame, hresult, htold]
        exact hnext
    · refine .inr (.inl ?_)
      rw [hchanges hpatched, ← hsame, told_concat hpatched]
      exact ⟨rfl, rfl⟩
  · exact .inr (.inl (leads_append.mpr ⟨_, hold, hleads⟩))
  · exact .inr (.inr ⟨hfirst, prev, rest ++ more, rfl, leads_append.mpr ⟨_, hold, hleads⟩⟩)

theorem Continues.follows {p₁ : Pipeline} (h : Continues p₁ p) : Follows p₁ p := by
  obtain ⟨pairs, hpairs, hcases⟩ := h.pairs
  have hsince : since p₁ p = pairs := by
    unfold since
    rw [hpairs, List.drop_left]
  unfold Follows
  rw [hsince]
  rcases hcases with ⟨rfl, -, -, hundelivered⟩ | hleads | hcommitted
  · exact ⟨p₁.model, .inl rfl, fun hdone => absurd hundelivered hdone⟩
  · exact ⟨told p, .inl hleads, h.telling.delivered⟩
  · exact ⟨told p, .inr hcommitted, h.telling.delivered⟩

/-- A pipeline that was just started follows all pairs. -/
theorem follows_of_start {p₁ : Pipeline} (hnone : p₁.modelChanges = [])
    (hmodel : p₁.model = emptyModel) (hdelivered : ¬Undelivered p₁.scheduler)
    (h : Follows p₁ p) : Leads emptyModel p.modelChanges (told p) ∧
      (¬Undelivered p.scheduler → told p = p.model) := by
  obtain ⟨model, hleads | ⟨hundelivered, -⟩, hlast⟩ := h
  · have hsince : since p₁ p = p.modelChanges := by
      unfold since
      rw [hnone]
      rfl
    rw [hsince, hmodel] at hleads
    obtain rfl : model = told p := hleads.end_eq
    exact ⟨hleads, hlast⟩
  · exact absurd hundelivered hdelivered

theorem step_of_broadcast {event : Event} {result : RequeryResult}
    (h : broadcasts p event = some result) : ∃ p', step decode p event = some p' := by
  cases event with
  | bootstrapRequery => cases h
  | bootstrapSettled =>
    simp only [broadcasts] at h
    split at h
    · next result hboot hinbox =>
      simp only [step, hboot, hinbox]
      exact ⟨_, rfl⟩
    · cases h
  | patch updater => cases h
  | scheduler event =>
    cases event with
    | settled =>
      simp only [broadcasts] at h
      split at h
      · next result cycle rest hlive hinbox hawaiting =>
        simp only [step, hlive, hinbox, hawaiting]
        split <;> exact ⟨_, rfl⟩
      · cases h
    | _ => cases h

/-- A step that does not meet the condition breaks the chain at once. -/
theorem Telling.broken (h : Telling p) {event : Event} (hkeeps : ¬KeepsChain p event) :
    ∃ p', step decode p event = some p' ∧
      ¬(Leads emptyModel p'.modelChanges (told p') ∧
        (¬Undelivered p'.scheduler → told p' = p'.model)) := by
  have hevent : ∃ p', step decode p event = some p' := by
    rcases hresult : broadcasts p event with _ | result
    · rcases hnext : patches p event with _ | next
      · exact absurd (keepsChain_of_none hresult hnext) hkeeps
      · cases event with
        | patch updater => exact ⟨_, rfl⟩
        | _ => cases hnext
    · exact step_of_broadcast hresult
  obtain ⟨p', hstep⟩ := hevent
  refine ⟨p', hstep, fun ⟨hleads, hmodelTold⟩ => hkeeps ?_⟩
  rcases (stepped h.sound hstep).1 with
    ⟨hbroadcasts, hpatches, -⟩ | ⟨-, hbroadcasts, hpatches, -⟩ |
    ⟨result, hbroadcasts, hpatches, rest, hrest, hchanges, hmodel, hpending, hdelivered⟩ |
    ⟨next, hbroadcasts, hpatches, hchanges, -⟩
  · exact keepsChain_of_none hbroadcasts hpatches
  · exact keepsChain_of_none hbroadcasts hpatches
  · -- The model is the result's, since it was told last, and the pair begins at what was told.
    have hnext : p.model = result.next := by
      rw [← hmodel, ← hmodelTold hdelivered, (told_of_broadcast hrest hchanges).1]
    rw [hchanges] at hleads
    obtain ⟨middle, hold, hlast, -⟩ := leads_append.mp hleads
    obtain rfl : middle = told p := hold.end_eq
    refine ⟨fun other hother => ?_, fun _ hsome => by cases hpatches.symm.trans hsome⟩
    cases hbroadcasts.symm.trans hother
    refine ⟨?_, hnext⟩
    rw [hlast]
    rcases h.pending result hpending with ⟨hbefore, -⟩ | ⟨hsame, htold⟩
    · exact hbefore.symm
    · rw [← hsame, ← hnext, htold]
  · rw [hchanges] at hleads
    obtain ⟨middle, hold, htold, -⟩ := leads_append.mp hleads
    obtain rfl : middle = told p := hold.end_eq
    refine ⟨fun other hother => ?_, fun _ _ result hpending => ?_⟩
    · cases hbroadcasts.symm.trans hother
    rcases h.pending result hpending with ⟨hbefore, hmodel⟩ | ⟨hsame, -⟩
    · rw [← hmodel, htold, hbefore]
    · exact hsame

/-- A subscriber that has the model of any state of a run follows every later one by the pairs given
since, exactly if every commit that is broadcast replaced the model that was broadcast last, and
no patch comes between a commit that changes the model and its broadcast. -/
theorem modelChanges_iff (decode : Bytes → String) (sessionName : Option String)
    (teardownThreshold : Option Rat) (now : Rat) (ceilingMs heartbeatMs : Option Rat)
    (events : List Event) :
    (∀ before later p₁ p₂, before ++ later <+: events →
        exec (step decode) (start sessionName teardownThreshold now ceilingMs heartbeatMs) before =
          some p₁ →
        exec (step decode) p₁ later = some p₂ → Follows p₁ p₂) ↔
      Along (step decode) KeepsChain
        (start sessionName teardownThreshold now ceilingMs heartbeatMs) events := by
  have hstart := telling_start sessionName teardownThreshold now ceilingMs heartbeatMs
  constructor
  · intro hall
    refine (prefixes_iff_along_of (I := Telling)
      (Q := fun p => Leads emptyModel p.modelChanges (told p) ∧
        (¬Undelivered p.scheduler → told p = p.model))
      (fun _ h => ⟨h.chain, h.delivered⟩) (fun _ _ _ h hkeeps hstep => h.after hkeeps hstep)
      (fun _ _ h hkeeps => h.broken hkeeps) hstart).mp fun done p hdone hrun => ?_
    exact follows_of_start rfl rfl not_undelivered_start (hall [] done _ p hdone rfl hrun)
  · rintro halong before later p₁ p₂ ⟨rest, rfl⟩ hbefore hlater
    have hparts := (along_append _).mp ((along_append _).mp halong).1
    have htelling := exec_invariant (P := Telling)
      (fun _ _ _ h hkeeps hstep => h.after hkeeps hstep) hstart hparts.1 hbefore
    have hcontinues := exec_invariant (P := Continues p₁)
      (fun _ _ _ h hkeeps hstep => h.after hkeeps hstep) htelling.continues (hparts.2 p₁ hbefore)
      hlater
    exact hcontinues.follows

/-- Synchronize-panes is patched on after the bootstrap, and the next requery has it off. -/
def patchThenRequery : List Event :=
  let replies := (Requery.sampleReplies ++ [Requery.Event.resume, .release]).map fun event =>
    Event.scheduler (.engine event)
  .bootstrapRequery :: replies ++
    [.bootstrapSettled,
      .patch fun model => some (updateWindow model ⟨"w0"⟩ { synchronizePanes := some true }),
      .scheduler .notify] ++
    replies ++ [.scheduler .settled]

/-- Synchronize-panes of the window `w0`. -/
def synchronized (model : SessionModel) : Option Bool :=
  (model.windows.get? ⟨"w0"⟩).map Window.synchronizePanes

/-- The option is taken back in a pair that has it off before and after. -/
theorem modelChanges_break_patchThenRequery :
    ¬∀ before later p₁ p₂, before ++ later <+: patchThenRequery →
      exec (step fromCharCodes) (start (some "main") none 0 none none) before = some p₁ →
      exec (step fromCharCodes) p₁ later = some p₂ → Follows p₁ p₂ := by
  intro hall
  have hrun : (exec (step fromCharCodes) (start (some "main") none 0 none none)
      patchThenRequery).map (fun p => p.modelChanges.map fun pair =>
        (synchronized pair.1, synchronized pair.2)) =
      some [(none, some false), (some false, some false), (some false, some true),
        (some false, some false)] := by decide +kernel
  obtain ⟨p, hp, hpairs⟩ := Option.map_eq_some_iff.mp hrun
  have hfollows := hall [] patchThenRequery _ p List.prefix_rfl rfl hp
  have hleads := (follows_of_start rfl rfl not_undelivered_start hfollows).1.map synchronized
  rw [hpairs] at hleads
  cases hleads.2.2.2.1

end TmuxccDriver.Runtime.ModelChanges
