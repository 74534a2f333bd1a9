import TmuxccDriver.State.Requery

/-!
# What a run of the requery engine does

A `Log` writes down, for the requery in flight, the model it began with and how each of
its cycles ended, from the events alone. `CommitDiscipline` says what one step may do,
given the log.

Results:
1. `Logged.step`: the engine's own bookkeeping agrees with the log.
2. `commit_discipline_of_run`: every step of every run keeps the discipline, if no cycle
   commits over a model that a `setModel` in flight made different.
-/

namespace TmuxccDriver.State.Requery
open TmuxccDriver.Lib TmuxccDriver.Parser TmuxccDriver.Protocol

/-! ## The log -/

/-- How a cycle ended. -/
inductive CycleEnd
  /-- A reply never came. -/
  | rejected
  /-- A reply was `%error`. -/
  | error
  | malformed
  /-- The engine was marked dirty in between. -/
  | dirty
  | clean (candidate : SessionModel)

/-- The requery in flight: its start model, and its cycles so far, the last one first. -/
structure Log where
  start : SessionModel
  cycles : List CycleEnd

namespace Log

/-- How the running cycle ends if it is resumed now. -/
def cycleEnd (decode : Bytes → String) (log : Log) (engine : RequeryEngine) : Option CycleEnd :=
  match engine.flight with
  | .cycling cycle =>
    match cycle.rejection, cycle.winResult, cycle.paneResult with
    | some _, _, _ => some .rejected
    | none, some (.resolved winResult), some (.resolved paneResult) =>
      if !winResult.ok || !paneResult.ok then some .error
      else
        match parseWindows decode winResult.body, parsePanes decode paneResult.body with
        | .ok windowRows, .ok paneRows =>
          if engine.dirty then some .dirty
          else some (.clean
            (carryForwardOverlays log.start (buildInitialModel windowRows paneRows)))
        | _, _ => some .malformed
    | _, _, _ => none
  | _ => none

/-- The log after one event. -/
def observe (decode : Bytes → String) (log : Log) (engine : RequeryEngine) : Event → Log
  | .requery =>
    match engine.flight with
    | .idle => ⟨engine.model, []⟩
    | _ => log
  | .resume =>
    match log.cycleEnd decode engine with
    | none => log
    | some ended => { log with cycles := ended :: log.cycles }
  | _ => log

/-- The candidate loses panes or windows past the teardown threshold. -/
def Crosses (log : Log) (engine : RequeryEngine) (candidate : SessionModel) : Prop :=
  wouldTeardown (teardownFractions log.start candidate) engine.teardownThreshold = true

/-- The cycle before was clean and crossed the threshold. -/
def Confirming (log : Log) (engine : RequeryEngine) : Prop :=
  ∃ previous, log.cycles.head? = some (.clean previous) ∧ log.Crosses engine previous

/-- The running cycle is clean, and crosses the threshold exactly if the one before did. -/
def Commits (decode : Bytes → String) (log : Log) (engine : RequeryEngine)
    (candidate : SessionModel) : Prop :=
  log.cycleEnd decode engine = some (.clean candidate) ∧
    (log.Crosses engine candidate ↔ log.Confirming engine)

/-- An error reply, a refuted teardown, or a fifth cycle that decides nothing. -/
inductive Fails (decode : Bytes → String) (log : Log) (engine : RequeryEngine) : Prop
  | error (h : log.cycleEnd decode engine = some .error)
  | refuted (candidate : SessionModel) (h : log.cycleEnd decode engine = some (.clean candidate))
      (hconfirming : log.Confirming engine) (hcrosses : ¬log.Crosses engine candidate)
  | exhaustedDirty (h : log.cycleEnd decode engine = some .dirty)
      (hlast : log.cycles.length + 1 = CYCLE_BUDGET)
  | exhaustedTeardown (candidate : SessionModel)
      (h : log.cycleEnd decode engine = some (.clean candidate))
      (hlast : log.cycles.length + 1 = CYCLE_BUDGET) (hconfirming : ¬log.Confirming engine)
      (hcrosses : log.Crosses engine candidate)

end Log

/-- The engine together with its log. -/
def loggedStep (decode : Bytes → String) (state : RequeryEngine × Log) (event : Event) :
    Option (RequeryEngine × Log) :=
  (step decode state.1 event).map fun next => (next, state.2.observe decode state.1 event)

/-- A new engine, and the log of no requery. -/
def start (opts : RequeryEngineOptions) : RequeryEngine × Log :=
  (createRequeryEngine opts, ⟨emptyModel, []⟩)

/-! ## The discipline -/

/-- The promise of the requery is settled in this step. -/
def Settles (event : Event) (next : RequeryEngine)
    (outcome : Except RequeryError RequeryResult) : Prop :=
  event = .resume ∧ next.flight = .settled outcome

/-- What one step may do, but for the deltas it serves. -/
structure CommitDiscipline (decode : Bytes → String) (log : Log) (engine : RequeryEngine)
    (event : Event) (next : RequeryEngine) : Prop where
  /-- The model changes by `setModel` or at the end of a clean cycle only. -/
  model_changes : next.model ≠ engine.model → event = .setModel next.model ∨
    event = .resume ∧ log.Commits decode engine next.model
  /-- A requery that fails gives back the start model without deltas and stays dirty. -/
  fails : event = .resume → log.Fails decode engine →
    Settles event next (.ok ⟨log.start, [], true⟩)
  failed : ∀ result, Settles event next (.ok result) → result.failed = true →
    result.next = log.start ∧ result.deltas = [] ∧ next.model = engine.model ∧ next.dirty = true
  /-- A malformed reply rejects the requery, and so does a reply that never comes. -/
  malformed : event = .resume → log.cycleEnd decode engine = some .malformed →
    ∃ err, Settles event next (.error err)
  rejected : ∀ err, Settles event next (.error err) → next.model = engine.model
  /-- Any other result is the candidate of a clean cycle; one that crosses the threshold
  comes after another clean cycle that does. The deltas lead there from the start model. -/
  served : ∀ result, Settles event next (.ok result) → result.failed = false →
    log.Commits decode engine result.next ∧ next.model = result.next ∧
      result.deltas = diffModel log.start result.next {}
  commits : ∀ candidate, event = .resume → log.Commits decode engine candidate →
    ∃ result, Settles event next (.ok result) ∧ result.failed = false
  /-- No sixth cycle begins. -/
  budget : ∀ cycle, next.flight = .cycling cycle →
    (log.observe decode engine event).cycles.length < CYCLE_BUDGET

/-- The deltas that are served lead from the model committed before to the one after. -/
def ServesExactDeltas (engine : RequeryEngine) (event : Event) (next : RequeryEngine) : Prop :=
  ∀ result, Settles event next (.ok result) → result.failed = false →
    result.deltas = diffModel engine.model next.model {}

/-! ## One resumption -/

/-- The cycle the engine is suspended in, as the log has it. -/
structure Tracks (log : Log) (engine : RequeryEngine) (cycle : Cycle) : Prop where
  start : cycle.startModel = log.start
  attempt : cycle.attempt = log.cycles.length
  budget : cycle.attempt < CYCLE_BUDGET
  pending : cycle.pendingTeardown.isSome = true ↔ log.Confirming engine

/-- Between two events: the suspended cycle agrees with the log. -/
def Agree (state : RequeryEngine × Log) : Prop :=
  ∀ cycle, state.1.flight = .cycling cycle → Tracks state.2 state.1 cycle

/-- What `resume` does, by the end of the cycle. -/
inductive Resumed (decode : Bytes → String) (log : Log) (engine : RequeryEngine) (cycle : Cycle) :
    RequeryEngine → Prop
  | rejected (err : Error) (h : log.cycleEnd decode engine = some .rejected) :
      Resumed decode log engine cycle (engine.reject (.submit err))
  | error (h : log.cycleEnd decode engine = some .error) :
      Resumed decode log engine cycle (engine.fail cycle.startModel)
  | malformed (err : ReplyCodecError) (h : log.cycleEnd decode engine = some .malformed) :
      Resumed decode log engine cycle (engine.reject (.malformed err))
  | dirty (sessionId : Option Nat) (h : log.cycleEnd decode engine = some .dirty) :
      Resumed decode log engine cycle
        ({ engine with sessionId := sessionId }.nextCycle cycle none)
  | clean (sessionId : Option Nat) (candidate : SessionModel)
      (h : log.cycleEnd decode engine = some (.clean candidate)) :
      Resumed decode log engine cycle
        ({ engine with sessionId := sessionId }.decideClean cycle candidate)

theorem captureSessionId_eq (engine : RequeryEngine) (windowRows : List WindowsReplyRow)
    (paneRows : List PanesReplyRow) :
    ∃ sessionId, engine.captureSessionId windowRows paneRows =
      { engine with sessionId := sessionId } := by
  unfold RequeryEngine.captureSessionId
  split
  · exact ⟨engine.sessionId, rfl⟩
  · exact ⟨_, rfl⟩

theorem cycleEnd_of_rejection {decode : Bytes → String} {log : Log} {engine : RequeryEngine}
    {cycle : Cycle} {err : Error} (hflight : engine.flight = .cycling cycle)
    (hrejection : cycle.rejection = some err) : log.cycleEnd decode engine = some .rejected := by
  simp only [Log.cycleEnd, hflight, hrejection]

theorem cycleEnd_of_replies {decode : Bytes → String} {log : Log} {engine : RequeryEngine}
    {cycle : Cycle} {winResult paneResult : CommandResult}
    (hflight : engine.flight = .cycling cycle)
    (hrejection : cycle.rejection = none) (hwin : cycle.winResult = some (.resolved winResult))
    (hpane : cycle.paneResult = some (.resolved paneResult)) :
    log.cycleEnd decode engine =
      if !winResult.ok || !paneResult.ok then some .error
      else
        match parseWindows decode winResult.body, parsePanes decode paneResult.body with
        | .ok windowRows, .ok paneRows =>
          if engine.dirty then some .dirty
          else some (.clean
            (carryForwardOverlays log.start (buildInitialModel windowRows paneRows)))
        | _, _ => some .malformed := by
  simp only [Log.cycleEnd, hflight, hrejection, hwin, hpane]

theorem resumed_of_step {decode : Bytes → String} {log : Log} {engine next : RequeryEngine}
    {cycle : Cycle} (hflight : engine.flight = .cycling cycle)
    (hstart : cycle.startModel = log.start)
    (h : step decode engine .resume = some next) : Resumed decode log engine cycle next := by
  unfold step at h
  simp only [hflight] at h
  rcases hrejection : cycle.rejection with _ | err
  · rcases hwin : cycle.winResult with _ | winResult | err
    · simp [hrejection, hwin] at h
    · rcases hpane : cycle.paneResult with _ | paneResult | err
      · simp [hrejection, hwin, hpane] at h
      · have hend : log.cycleEnd decode engine = _ :=
          cycleEnd_of_replies hflight hrejection hwin hpane
        simp only [hrejection, hwin, hpane, Option.some.injEq] at h
        subst h
        unfold RequeryEngine.afterReplies
        split
        · next hfailed => exact .error (hend.trans (if_pos hfailed))
        · next hok =>
          rw [if_neg hok] at hend
          split
          · next err hparse => exact .malformed err (by simpa [hparse] using hend)
          · next windowRows hwindows =>
            split
            · next err hparse => exact .malformed err (by simpa [hwindows, hparse] using hend)
            · next paneRows hpanes =>
              obtain ⟨sessionId, hcapture⟩ := captureSessionId_eq engine windowRows paneRows
              simp only [hwindows, hpanes] at hend
              dsimp only
              rw [hcapture]
              split
              · next hdirty => exact .dirty sessionId (hend.trans (if_pos hdirty))
              · next hclean =>
                refine .clean sessionId _ ?_
                rw [hend, if_neg hclean, hstart]
      · simp [hrejection, hwin, hpane] at h
    · simp [hrejection, hwin] at h
  · simp only [hrejection, Option.some.injEq] at h
    subst h
    exact .rejected err (cycleEnd_of_rejection hflight hrejection)

/-! ## The shapes of a resumption keep the discipline -/

section Shapes

variable {decode : Bytes → String} {log : Log} {engine next : RequeryEngine}

theorem discipline_of_fail (hmodel : next.model = engine.model) (hdirty : next.dirty = true)
    (hflight : next.flight = .settled (.ok ⟨log.start, [], true⟩))
    (hend : log.cycleEnd decode engine ≠ some .malformed)
    (hcommits : ∀ candidate, ¬log.Commits decode engine candidate) :
    CommitDiscipline decode log engine .resume next where
  model_changes hne := absurd hmodel hne
  fails _ _ := ⟨rfl, hflight⟩
  failed result hsettles _ := by
    cases hflight.symm.trans hsettles.2
    exact ⟨rfl, rfl, hmodel, hdirty⟩
  malformed _ h := absurd h hend
  rejected _ hsettles := by cases hflight.symm.trans hsettles.2
  served result hsettles hfailed := by
    cases hflight.symm.trans hsettles.2
    cases hfailed
  commits candidate _ h := absurd h (hcommits candidate)
  budget _ hcycling := by cases hflight.symm.trans hcycling

theorem discipline_of_reject {err : RequeryError} (hmodel : next.model = engine.model)
    (hflight : next.flight = .settled (.error err)) (hfails : ¬log.Fails decode engine)
    (hcommits : ∀ candidate, ¬log.Commits decode engine candidate) :
    CommitDiscipline decode log engine .resume next where
  model_changes hne := absurd hmodel hne
  fails _ h := absurd h hfails
  failed result hsettles _ := by cases hflight.symm.trans hsettles.2
  malformed _ _ := ⟨err, rfl, hflight⟩
  rejected _ _ := hmodel
  served result hsettles _ := by cases hflight.symm.trans hsettles.2
  commits candidate _ h := absurd h (hcommits candidate)
  budget _ hcycling := by cases hflight.symm.trans hcycling

theorem discipline_of_commit {candidate : SessionModel}
    (hcommits : log.Commits decode engine candidate) (hmodel : next.model = candidate)
    (hflight : next.flight =
      .settled (.ok ⟨candidate, diffModel log.start candidate {}, false⟩))
    (hfails : ¬log.Fails decode engine) : CommitDiscipline decode log engine .resume next where
  model_changes _ := .inr ⟨rfl, hmodel ▸ hcommits⟩
  fails _ h := absurd h hfails
  failed result hsettles hfailed := by
    cases hflight.symm.trans hsettles.2
    cases hfailed
  malformed _ h := by cases hcommits.1.symm.trans h
  rejected _ hsettles := by cases hflight.symm.trans hsettles.2
  served result hsettles _ := by
    cases hflight.symm.trans hsettles.2
    exact ⟨hcommits, hmodel, rfl⟩
  commits _ _ _ := ⟨_, ⟨rfl, hflight⟩, rfl⟩
  budget _ hcycling := by cases hflight.symm.trans hcycling

theorem discipline_of_begin {cycle : Cycle} {ended : CycleEnd} (hmodel : next.model = engine.model)
    (hflight : next.flight = .cycling cycle) (hfails : ¬log.Fails decode engine)
    (hend : log.cycleEnd decode engine = some ended) (hmalformed : ended ≠ .malformed)
    (hbudget : log.cycles.length + 1 < CYCLE_BUDGET)
    (hcommits : ∀ candidate, ¬log.Commits decode engine candidate) :
    CommitDiscipline decode log engine .resume next where
  model_changes hne := absurd hmodel hne
  fails _ h := absurd h hfails
  failed result hsettles _ := by cases hflight.symm.trans hsettles.2
  malformed _ h := absurd (Option.some.inj (hend.symm.trans h)) hmalformed
  rejected _ hsettles := by cases hflight.symm.trans hsettles.2
  served result hsettles _ := by cases hflight.symm.trans hsettles.2
  commits candidate _ h := absurd h (hcommits candidate)
  budget _ _ := by
    rw [Log.observe, hend]
    exact hbudget

/-- An event that resumes nothing settles nothing. -/
theorem discipline_of_other {event : Event} (hresume : event ≠ .resume)
    (hmodel : next.model ≠ engine.model → event = .setModel next.model)
    (hbudget : ∀ cycle, next.flight = .cycling cycle →
      (log.observe decode engine event).cycles.length < CYCLE_BUDGET) :
    CommitDiscipline decode log engine event next where
  model_changes hne := .inl (hmodel hne)
  fails h _ := absurd h hresume
  failed _ hsettles _ := absurd hsettles.1 hresume
  malformed h _ := absurd h hresume
  rejected _ hsettles := absurd hsettles.1 hresume
  served _ hsettles _ := absurd hsettles.1 hresume
  commits _ h := absurd h hresume
  budget := hbudget

end Shapes

/-! ## One step -/

section Steps

variable {decode : Bytes → String} {log : Log} {engine next : RequeryEngine} {cycle : Cycle}

theorem CYCLE_BUDGET_pos : 0 < CYCLE_BUDGET := by decide

theorem observe_resume {ended : CycleEnd} (hend : log.cycleEnd decode engine = some ended) :
    log.observe decode engine .resume = { log with cycles := ended :: log.cycles } := by
  rw [Log.observe, hend]

/-- Nothing is suspended once the promise is settled. -/
theorem agree_of_settled {outcome : Except RequeryError RequeryResult} {log' : Log}
    (h : next.flight = .settled outcome) : Agree (next, log') := by
  intro c hc
  cases h.symm.trans hc

/-- A resumption keeps the discipline and the agreement of engine and log. -/
def ResumesWell (decode : Bytes → String) (log : Log) (engine next : RequeryEngine) : Prop :=
  CommitDiscipline decode log engine .resume next ∧
    Agree (next, log.observe decode engine .resume)

/-- The loop goes on, or the budget is exhausted. -/
theorem resumesWell_nextCycle (htracks : Tracks log engine cycle) (sessionId : Option Nat)
    (pending : Option (SessionModel × TeardownFractions)) {ended : CycleEnd}
    (hend : log.cycleEnd decode engine = some ended) (hmalformed : ended ≠ .malformed)
    (hfails : log.cycles.length + 1 < CYCLE_BUDGET → ¬log.Fails decode engine)
    (hcommits : ∀ candidate, ¬log.Commits decode engine candidate)
    (hpending : pending.isSome = true ↔
      { log with cycles := ended :: log.cycles : Log }.Confirming engine) :
    ResumesWell decode log engine
      ({ engine with sessionId := sessionId }.nextCycle cycle pending) := by
  unfold RequeryEngine.nextCycle
  split
  · next hbudget =>
    rw [htracks.attempt] at hbudget
    refine ⟨discipline_of_begin rfl rfl (hfails hbudget) hend hmalformed hbudget hcommits,
      fun c hc => ?_⟩
    rw [observe_resume hend]
    cases hc
    exact ⟨htracks.start, congrArg (· + 1) htracks.attempt, htracks.attempt ▸ hbudget, hpending⟩
  · refine ⟨discipline_of_fail rfl rfl ?_ (fun h => ?_) hcommits, agree_of_settled rfl⟩
    · rw [← htracks.start]
      rfl
    · exact hmalformed (Option.some.inj (hend.symm.trans h))

/-- A clean cycle fails its requery only in the two ways that name it. -/
theorem fails_of_clean {candidate : SessionModel}
    (hend : log.cycleEnd decode engine = some (.clean candidate)) (h : log.Fails decode engine) :
    (log.Confirming engine ∧ ¬log.Crosses engine candidate) ∨
      log.cycles.length + 1 = CYCLE_BUDGET ∧ ¬log.Confirming engine ∧
        log.Crosses engine candidate := by
  rcases h with h | ⟨c, h, hconfirming, hnot⟩ | ⟨h, -⟩ | ⟨c, h, hlast, hconfirming, hcross⟩
  · cases hend.symm.trans h
  · cases hend.symm.trans h
    exact .inl ⟨hconfirming, hnot⟩
  · cases hend.symm.trans h
  · cases hend.symm.trans h
    exact .inr ⟨hlast, hconfirming, hcross⟩

theorem resumesWell_decideClean (htracks : Tracks log engine cycle) (sessionId : Option Nat)
    {candidate : SessionModel} (hend : log.cycleEnd decode engine = some (.clean candidate)) :
    ResumesWell decode log engine
      ({ engine with sessionId := sessionId }.decideClean cycle candidate) := by
  have hcrosses : log.Crosses engine candidate ↔ wouldTeardown
      (teardownFractions cycle.startModel candidate) engine.teardownThreshold = true := by
    rw [htracks.start, Log.Crosses]
  have hpending := htracks.pending
  unfold RequeryEngine.decideClean
  dsimp only
  split
  · next hnone =>
    have hconfirming : ¬log.Confirming engine := fun h => by
      have hsome := hpending.mpr h
      rw [hnone] at hsome
      cases hsome
    split
    · next htripped =>
      refine resumesWell_nextCycle htracks sessionId _ hend (by simp) (fun hbudget h => ?_)
        (fun c hcommits => ?_) ?_
      · rcases fails_of_clean hend h with ⟨hc, -⟩ | ⟨hlast, -, -⟩
        · exact hconfirming hc
        · exact absurd hlast hbudget.ne
      · cases hend.symm.trans hcommits.1
        exact hconfirming (hcommits.2.mp (hcrosses.mpr htripped))
      · exact ⟨fun _ => ⟨candidate, rfl, hcrosses.mpr htripped⟩, fun _ => rfl⟩
    · next htripped =>
      refine ⟨discipline_of_commit ⟨hend, ?_⟩ rfl (by rw [← htracks.start]; rfl) fun h => ?_,
        agree_of_settled rfl⟩
      · exact ⟨fun h => absurd (hcrosses.mp h) htripped, fun h => absurd h hconfirming⟩
      · rcases fails_of_clean hend h with ⟨hc, -⟩ | ⟨-, -, hc⟩
        · exact hconfirming hc
        · exact htripped (hcrosses.mp hc)
  · next first hsome =>
    have hconfirming : log.Confirming engine := hpending.mp (by rw [hsome]; rfl)
    split
    · next htripped =>
      refine ⟨discipline_of_commit ⟨hend, ?_⟩ rfl (by rw [← htracks.start]; rfl) fun h => ?_,
        agree_of_settled rfl⟩
      · exact ⟨fun _ => hconfirming, fun _ => hcrosses.mpr htripped⟩
      · rcases fails_of_clean hend h with ⟨-, hc⟩ | ⟨-, hc, -⟩
        · exact hc (hcrosses.mpr htripped)
        · exact hc hconfirming
    · next htripped =>
      refine ⟨discipline_of_fail rfl rfl ?_ (fun h => ?_) fun c hcommits => ?_,
        agree_of_settled rfl⟩
      · rw [← htracks.start]
        rfl
      · cases hend.symm.trans h
      · cases hend.symm.trans hcommits.1
        exact htripped (hcrosses.mp (hcommits.2.mpr hconfirming))

theorem resumesWell_of_step (hagree : Agree (engine, log))
    (h : step decode engine .resume = some next) : ResumesWell decode log engine next := by
  obtain ⟨cycle, hflight⟩ : ∃ cycle, engine.flight = .cycling cycle := by
    rcases hflight : engine.flight with _ | cycle | outcome
    · simp [step, hflight] at h
    · exact ⟨cycle, rfl⟩
    · simp [step, hflight] at h
  have htracks := hagree cycle hflight
  rcases resumed_of_step hflight htracks.start h with
    ⟨err, hend⟩ | hend | ⟨err, hend⟩ | ⟨sessionId, hend⟩ | ⟨sessionId, candidate, hend⟩
  · refine ⟨discipline_of_reject rfl rfl (fun h => ?_) fun c hcommits => ?_, agree_of_settled rfl⟩
    · rcases h with h | ⟨c, h⟩ | ⟨h⟩ | ⟨c, h⟩ <;> cases hend.symm.trans h
    · cases hend.symm.trans hcommits.1
  · refine ⟨discipline_of_fail rfl rfl ?_ (fun h => ?_) fun c hcommits => ?_, agree_of_settled rfl⟩
    · rw [← htracks.start]
      rfl
    · cases hend.symm.trans h
    · cases hend.symm.trans hcommits.1
  · refine ⟨discipline_of_reject rfl rfl (fun h => ?_) fun c hcommits => ?_, agree_of_settled rfl⟩
    · rcases h with h | ⟨c, h⟩ | ⟨h⟩ | ⟨c, h⟩ <;> cases hend.symm.trans h
    · cases hend.symm.trans hcommits.1
  · refine resumesWell_nextCycle htracks sessionId none hend (by simp) (fun hbudget h => ?_)
      (fun c hcommits => by cases hend.symm.trans hcommits.1) ?_
    · rcases h with h | ⟨c, h⟩ | ⟨-, hlast⟩ | ⟨c, h⟩
      · cases hend.symm.trans h
      · cases hend.symm.trans h
      · exact absurd hlast hbudget.ne
      · cases hend.symm.trans h
    · refine ⟨fun h => absurd h (by simp), ?_⟩
      rintro ⟨previous, hhead, -⟩
      cases hhead
  · exact resumesWell_decideClean htracks sessionId hend

/-- The cycle in flight once a reply was noted is the one before, but for the replies. -/
theorem tracks_noteReply (hagree : Agree (engine, log)) (hflight : engine.flight = .cycling cycle)
    (winResult paneResult : Option Outcome) (rejection : Option Error) {c : Cycle}
    (hc : Flight.cycling { cycle with
      winResult := winResult, paneResult := paneResult, rejection := rejection } = .cycling c) :
    Tracks log { engine with flight := .cycling c } c := by
  obtain ⟨hstart, hattempt, hbudget, hpending⟩ := hagree cycle hflight
  cases hc
  exact ⟨hstart, hattempt, hbudget, hpending⟩

theorem loggedStep_keeps {state state' : RequeryEngine × Log} {event : Event}
    (hagree : Agree state) (h : loggedStep decode state event = some state') :
    CommitDiscipline decode state.2 state.1 event state'.1 ∧ Agree state' := by
  obtain ⟨engine, log⟩ := state
  obtain ⟨next, hnext, rfl⟩ := Option.map_eq_some_iff.mp h
  have hcycles : ∀ c, engine.flight = .cycling c → log.cycles.length < CYCLE_BUDGET :=
    fun c hc => (hagree c hc).attempt ▸ (hagree c hc).budget
  cases event with
  | requery =>
    cases hnext
    by_cases hidle : engine.flight = .idle
    · have hlog : log.observe decode engine .requery = ⟨engine.model, []⟩ := by
        simp only [Log.observe, hidle]
      have hbegin : engine.requery = engine.beginCycle engine.model 0 none := by
        simp only [RequeryEngine.requery, hidle]
      rw [hlog, hbegin]
      refine ⟨discipline_of_other (by simp) (fun hne => absurd rfl hne) fun _ _ => ?_,
        fun c hc => ?_⟩
      · rw [hlog]
        exact CYCLE_BUDGET_pos
      · cases hc
        refine ⟨rfl, rfl, CYCLE_BUDGET_pos, fun h => absurd h (by simp), ?_⟩
        rintro ⟨previous, hhead, -⟩
        cases hhead
    · -- a call that latches onto the requery in flight
      have hlog : log.observe decode engine .requery = log := by
        unfold Log.observe
        split <;> simp_all
      have hlatch : engine.requery = engine := by
        unfold RequeryEngine.requery
        split <;> simp_all
      rw [hlog, hlatch]
      refine ⟨discipline_of_other (by simp) (fun hne => absurd rfl hne) fun c hc => ?_, hagree⟩
      rw [hlog]
      exact hcycles c hc
  | markDirty =>
    cases hnext
    exact ⟨discipline_of_other (by simp) (fun hne => absurd rfl hne) hcycles,
      fun c hc => ⟨(hagree c hc).start, (hagree c hc).attempt, (hagree c hc).budget,
        (hagree c hc).pending⟩⟩
  | setModel model =>
    cases hnext
    exact ⟨discipline_of_other (by simp) (fun _ => rfl) hcycles,
      fun c hc => ⟨(hagree c hc).start, (hagree c hc).attempt, (hagree c hc).budget,
        (hagree c hc).pending⟩⟩
  | windowsReply reply =>
    rcases hflight : engine.flight with _ | cycle | outcome
    · simp [step, hflight] at hnext
    · simp only [step, hflight] at hnext
      split at hnext
      · cases hnext
      · cases hnext
        exact ⟨discipline_of_other (by simp) (fun hne => absurd rfl hne)
          fun _ _ => hcycles cycle hflight, fun c hc => by
            have htracks := tracks_noteReply hagree hflight _ _ _ hc
            cases hc
            exact htracks⟩
    · simp [step, hflight] at hnext
  | panesReply reply =>
    rcases hflight : engine.flight with _ | cycle | outcome
    · simp [step, hflight] at hnext
    · simp only [step, hflight] at hnext
      split at hnext
      · cases hnext
      · cases hnext
        exact ⟨discipline_of_other (by simp) (fun hne => absurd rfl hne)
          fun _ _ => hcycles cycle hflight, fun c hc => by
            have htracks := tracks_noteReply hagree hflight _ _ _ hc
            cases hc
            exact htracks⟩
    · simp [step, hflight] at hnext
  | resume => exact resumesWell_of_step hagree hnext
  | release =>
    rcases hflight : engine.flight with _ | cycle | outcome
    · simp [step, hflight] at hnext
    · simp [step, hflight] at hnext
    · simp only [step, hflight, Option.some.injEq] at hnext
      subst hnext
      refine ⟨discipline_of_other (by simp) (fun hne => absurd rfl hne) fun _ hc => ?_,
        fun _ hc => ?_⟩
      · cases hc
      · cases hc

end Steps

/-! ## Runs -/

/-- Between two models no diff tells a difference. -/
def SameDeltas (start model : SessionModel) : Prop :=
  ∀ next, diffModel start next {} = diffModel model next {}

/-- A cycle that commits, commits over the model the requery began with, as far as a diff
can see: no `setModel` in flight made it different. -/
def CommitsOverStart (decode : Bytes → String) (state : RequeryEngine × Log) (event : Event) :
    Prop :=
  event = .resume → ∀ candidate, state.2.Commits decode state.1 candidate →
    SameDeltas state.2.start state.1.model

/-- Every clause of the commit discipline, and exact deltas. -/
def CommitLaw (decode : Bytes → String) (state : RequeryEngine × Log) (event : Event) : Prop :=
  ∀ next, step decode state.1 event = some next →
    CommitDiscipline decode state.2 state.1 event next ∧ ServesExactDeltas state.1 event next

theorem commitLaw_of_agree {decode : Bytes → String} {state : RequeryEngine × Log} {event : Event}
    (hagree : Agree state) (hcond : CommitsOverStart decode state event) :
    CommitLaw decode state event := by
  intro next hnext
  have hlogged : loggedStep decode state event =
      some (next, state.2.observe decode state.1 event) := by
    rw [loggedStep, hnext]
    rfl
  obtain ⟨hdiscipline, -⟩ := loggedStep_keeps hagree hlogged
  refine ⟨hdiscipline, fun result hsettles hfailed => ?_⟩
  obtain ⟨hcommits, hmodel, hdeltas⟩ := hdiscipline.served result hsettles hfailed
  rw [hdeltas, hmodel]
  exact hcond hsettles.1 _ hcommits _

theorem agree_start (opts : RequeryEngineOptions) : Agree (start opts) := by
  intro cycle hcycle
  cases hcycle

/-- In every run in which each commit is over a model that diffs like the start model of
its requery, every step keeps the commit law. -/
theorem commit_discipline_of_run (decode : Bytes → String) (opts : RequeryEngineOptions)
    (events : List Event)
    (hcond : Along (loggedStep decode) (CommitsOverStart decode) (start opts) events) :
    Along (loggedStep decode) (CommitLaw decode) (start opts) events :=
  along_of_invariant (fun _ _ _ hagree hstep => (loggedStep_keeps hagree hstep).2)
    (fun _ _ hagree => commitLaw_of_agree hagree) (agree_start opts) hcond

/-- The replies of a session `main` with one window and one pane. -/
def sampleReplies : List Event :=
  [.windowsReply (.resolved ⟨true, 1, ascii "$0\tmain\t@0\tsh\tb25d,80x24,0,0,0\t1\t0\t1\t0"⟩),
    .panesReply (.resolved ⟨true, 2, ascii "%0\t@0\t$0\t80\t24\t1\t\t0\t\t\t\t\t"⟩)]

/-- The sample session with synchronize-panes on. -/
def synchronizedSample : SessionModel :=
  updateWindow
    (buildInitialModel [⟨0, "main", 0, "sh", "b25d,80x24,0,0,0", true, false, true, 0⟩]
      [⟨0, 0, 0, 80, 24, true, "normal", false, none, none, none, none, none⟩])
    ⟨"w0"⟩ { synchronizePanes := some true }

/-- A requery that fails, one that is dirty once, and one over a patch that came in between. -/
def coldRequery : List Event :=
  [.requery, .windowsReply (.resolved ⟨false, 1, []⟩), .panesReply (.resolved ⟨true, 2, []⟩),
    .resume, .release, .requery] ++ sampleReplies ++ [.markDirty, .resume] ++ sampleReplies ++
    [.resume, .release, .setModel synchronizedSample, .requery] ++ sampleReplies ++ [.resume]

/-- The engine has the model that its requery began with. -/
def atStart (state : RequeryEngine × Log) (event : Event) : Bool :=
  match event with
  | .resume => decide (state.2.start.sessions.values = state.1.model.sessions.values ∧
      state.2.start.windows.values = state.1.model.windows.values ∧
      state.2.start.panes.values = state.1.model.panes.values ∧
      state.2.start.focus = state.1.model.focus)
  | _ => true

theorem commitsOverStart_of_atStart {decode : Bytes → String} {state : RequeryEngine × Log}
    {event : Event} (h : atStart state event = true) : CommitsOverStart decode state event := by
  rintro rfl _ _ next
  rw [SessionModel.eq_of_values (of_decide_eq_true h)]

theorem commit_discipline_of_cold_requery :
    (exec (loggedStep fromCharCodes) (start { sessionName := some "main" }) coldRequery).isSome =
        true ∧
      Along (loggedStep fromCharCodes) (CommitLaw fromCharCodes)
        (start { sessionName := some "main" }) coldRequery := by
  have hrun : (exec (checked (loggedStep fromCharCodes) atStart)
      (start { sessionName := some "main" }) coldRequery).isSome = true := by decide +kernel
  obtain ⟨state, hchecked⟩ := Option.isSome_iff_exists.mp hrun
  obtain ⟨hexec, hstart⟩ := exec_checked hchecked
  refine ⟨Option.isSome_iff_exists.mpr ⟨state, hexec⟩, ?_⟩
  exact commit_discipline_of_run fromCharCodes _ _
    (along_mono (fun _ _ => commitsOverStart_of_atStart) hstart)

/-- The test of `ServesExactDeltas` at a resumption. -/
def servesExactDeltas (decode : Bytes → String) (state : RequeryEngine × Log) : Bool :=
  match step decode state.1 .resume with
  | none => true
  | some next =>
    match next.flight with
    | .settled (.ok result) =>
      result.failed || decide (result.deltas = diffModel state.1.model next.model {})
    | _ => true

theorem servesExactDeltas_of_law {decode : Bytes → String} {state : RequeryEngine × Log}
    (h : CommitLaw decode state .resume) : servesExactDeltas decode state = true := by
  unfold servesExactDeltas
  split
  · rfl
  · next next hnext =>
    split
    · next result hflight =>
      rcases hfailed : result.failed with _ | _
      · rw [Bool.false_or, decide_eq_true_eq]
        exact (h next hnext).2 result ⟨rfl, hflight⟩ hfailed
      · rfl
    · rfl

/-- The second requery is in flight when synchronize-panes is patched on; the reply, from
before, has it off. -/
def patchInFlight : List Event :=
  .requery :: sampleReplies ++
    [.resume, .release, .requery, .setModel synchronizedSample] ++ sampleReplies

/-- The commit takes the option back and serves no delta that says so. -/
theorem commit_law_fails_patch_in_flight :
    ¬Along (loggedStep fromCharCodes) (CommitLaw fromCharCodes)
      (start { sessionName := some "main" }) (patchInFlight ++ [.resume]) := by
  intro h
  have hrun : (exec (loggedStep fromCharCodes) (start { sessionName := some "main" })
      patchInFlight).map (servesExactDeltas fromCharCodes) = some false := by decide +kernel
  obtain ⟨state, hstate, hfalse⟩ := Option.map_eq_some_iff.mp hrun
  have hlaw := (((along_append _).mp h).2 state hstate).1
  rw [servesExactDeltas_of_law hlaw] at hfalse
  cases hfalse

end TmuxccDriver.State.Requery
