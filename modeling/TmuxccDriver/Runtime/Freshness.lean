import TmuxccDriver.Runtime.TopologyStream

/-!
# Freshness

What a listing told stays true of tmux until it writes otherwise. A `View` says what of tmux is
watched: which events tell of a change, what an answer tells and when a model agrees. From that
follows what each step of the pipeline and of its stream keeps, whatever is watched.

Results:
1. `Fresh`: what was listed and what was committed agrees with tmux, unless the engine is dirty or a
change is still to be told.
2. `Fresh.owned`, `Fresh.answer`, `Fresh.of_world`, `Fresh.cancel`: the steps that keep it.
-/

namespace TmuxccDriver.Runtime.CleanModel
open TmuxccDriver.Lib TmuxccDriver.State TmuxccDriver.Runtime.ModelChanges
open TmuxccDriver.Runtime.Dispatch
open TmuxccDriver.Parser (CommandResult Error Outcome)
open TmuxccDriver.Parser.Notifications (NotificationEvent)

/-! ## Views -/

/-- What of tmux is watched. An answer in the stream tells of it, and so does one that a requery
holds, unless something newer was applied since. -/
structure View where
  /-- tmux changed, and has written nothing of it. -/
  unsaid : Bool
  /-- An event that tells of a change. -/
  news : DispatchedEvent → Bool
  tells : Listing → CommandResult → Prop
  holds : Listing → CommandResult → Prop
  agrees : SessionModel → Prop

def View.inItem (v : View) : Item → Bool
  | .notification event => v.news (.parsed event)
  | .answer _ _ => false

/-- A change is still to be told. -/
def View.coming (v : View) (w : World) : Bool :=
  v.unsaid || w.bootstrapBuffer.any v.news || w.stream.any v.inItem

/-! ## The invariant -/

def Request.owed (request : Request) : Option Listing :=
  if request.live then some request.listing else none

def Item.owed : Item → Option Listing
  | .notification _ => none
  | .answer request _ => request.owed

/-- The answers that will be heard, in their order. -/
def World.owed (w : World) : List Listing :=
  w.stream.filterMap (·.owed) ++ w.requests.filterMap (·.owed)

/-- The dirty bit is set. -/
def World.dirtied (w : World) : World :=
  { w with pipeline := { w.pipeline with scheduler := w.pipeline.scheduler.markDirty } }

/-- A requery is in flight, or it was rejected, or the bootstrap has not asked yet. -/
def Waiting (p : Pipeline) : Prop :=
  (∃ cycle, p.scheduler.engine.flight = .cycling cycle) ∨
    (∃ err, p.scheduler.engine.flight = .settled (.error err)) ∨
    (∃ err, p.scheduler.inbox = some (.error err)) ∨
    p.bootstrapping = true ∧ p.scheduler.engine.flight = .idle ∧ p.scheduler.inbox = none

theorem Waiting.of_same {p p' : Pipeline} (h : Waiting p)
    (hflight : p'.scheduler.engine.flight = p.scheduler.engine.flight)
    (hinbox : p'.scheduler.inbox = p.scheduler.inbox)
    (hboot : p'.bootstrapping = p.bootstrapping) : Waiting p' := by
  unfold Waiting
  rw [hflight, hinbox, hboot]
  exact h

/-- A live answer that is not read yet tells what tmux has, unless news comes after it. -/
def Answered (decode : Bytes → String) (v : View) (w : World) : Prop :=
  ∀ before after request result, w.stream = before ++ .answer request result :: after →
    request.live = true →
    Legible decode request.listing result ∧
      (v.tells request.listing result ∨ v.unsaid = true ∨ after.any v.inItem = true)

/-- What was listed, and what was committed, agrees with tmux, unless the engine is dirty or will
be. -/
structure Fresh (decode : Bytes → String) (v : View) (w : World) : Prop where
  owed : w.owed = awaited w.engine.flight
  rejected : ∀ cycle err, w.engine.flight = .cycling cycle → cycle.rejection = some err →
    awaited w.engine.flight = []
  answered : Answered decode v w
  held : ∀ cycle listing result, w.engine.flight = .cycling cycle →
    replyTo cycle listing = some (.resolved result) →
    Legible decode listing result ∧
      (v.holds listing result ∨ w.engine.dirty = true ∨ v.coming w = true)
  well_formed : ∀ err, w.engine.flight ≠ .settled (.error (.malformed err)) ∧
    w.pipeline.scheduler.inbox ≠ some (.error (.malformed err))
  current : Waiting w.pipeline ∨ w.engine.dirty = true ∨ v.coming w = true ∨
    v.agrees w.pipeline.model

section Fresh

variable {decode : Bytes → String} {v v' : View} {w : World} {p : Pipeline}

theorem owed_settle : (w.settle p).owed =
    w.owed ++ if begins w.engine.flight p.scheduler.engine.flight then [.windows, .panes]
      else [] := by
  unfold World.owed World.settle
  rw [List.filterMap_append, List.append_assoc]
  split <;> rfl

/-- A step of the pipeline alone. -/
theorem Answered.settle (hanswered : Answered decode v w)
    (howed : (w.settle p).owed = awaited p.scheduler.engine.flight)
    (hrejected : ∀ cycle err, p.scheduler.engine.flight = .cycling cycle →
      cycle.rejection = some err → awaited p.scheduler.engine.flight = [])
    (hheld : ∀ cycle listing result, p.scheduler.engine.flight = .cycling cycle →
      replyTo cycle listing = some (.resolved result) →
      Legible decode listing result ∧ (v.holds listing result ∨
        p.scheduler.engine.dirty = true ∨ v.coming w = true))
    (hwell : ∀ err, p.scheduler.engine.flight ≠ .settled (.error (.malformed err)) ∧
      p.scheduler.inbox ≠ some (.error (.malformed err)))
    (hcurrent : Waiting p ∨ p.scheduler.engine.dirty = true ∨ v.coming w = true ∨
      v.agrees p.model) : Fresh decode v (w.settle p) :=
  ⟨howed, hrejected, hanswered, hheld, hwell, hcurrent⟩

theorem owed_kept (h : Fresh decode v w) (hflight : p.scheduler.engine.flight = w.engine.flight) :
    (w.settle p).owed = awaited p.scheduler.engine.flight := by
  have hbegins : begins w.engine.flight p.scheduler.engine.flight = false := by
    rw [hflight]
    cases w.engine.flight with
    | cycling cycle => simp [begins]
    | _ => rfl
  rw [owed_settle, hbegins, h.owed, hflight]
  exact List.append_nil _

/-- A step that leaves the flight and the dirty bit as they are. -/
theorem Fresh.kept (h : Fresh decode v w) (hflight : p.scheduler.engine.flight = w.engine.flight)
    (hdirty : w.engine.dirty = true → p.scheduler.engine.dirty = true)
    (hinbox : ∀ err, p.scheduler.inbox ≠ some (.error (.malformed err)))
    (hcurrent : Waiting p ∨ p.scheduler.engine.dirty = true ∨ v.coming w = true ∨
      v.agrees p.model) : Fresh decode v (w.settle p) := by
  refine h.answered.settle (owed_kept h hflight) ?_ ?_ (fun err => ⟨?_, hinbox err⟩) hcurrent
  · intro cycle err hcycle
    rw [hflight] at hcycle ⊢
    exact h.rejected cycle err hcycle
  · intro cycle listing result hcycle hreply
    obtain ⟨hlegible, htells⟩ := h.held cycle listing result (hflight ▸ hcycle) hreply
    exact ⟨hlegible, htells.imp_right (Or.imp_left hdirty)⟩
  · rw [hflight]
    exact (h.well_formed err).1

/-- A step that begins a cycle. -/
theorem Fresh.began (h : Fresh decode v w) (hnone : awaited w.engine.flight = []) {cycle : Cycle}
    (hflight : p.scheduler.engine.flight = .cycling cycle) (hblank : Blank cycle)
    (hbegins : begins w.engine.flight (.cycling cycle) = true)
    (hinbox : ∀ err, p.scheduler.inbox ≠ some (.error (.malformed err))) :
    Fresh decode v (w.settle p) := by
  refine h.answered.settle ?_ ?_ ?_ (fun err => ⟨?_, hinbox err⟩) (.inl (.inl ⟨cycle, hflight⟩))
  · rw [owed_settle, hflight, hbegins, h.owed, hnone]
    simp [awaited, hblank.winResult, hblank.paneResult]
  · intro cycle' err hcycle hrejection
    cases hflight.symm.trans hcycle
    cases hblank.rejection.symm.trans hrejection
  · intro cycle' listing result hcycle hreply
    cases hflight.symm.trans hcycle
    cases listing
    · cases hblank.winResult.symm.trans hreply
    · cases hblank.paneResult.symm.trans hreply
  · rw [hflight]
    exact fun heq => by cases heq

theorem Fresh.moved (h : Fresh decode v w) (hmoved : Moved w.engine p.scheduler.engine)
    (hinbox : ∀ err, p.scheduler.inbox ≠ some (.error (.malformed err)))
    (hcurrent : Waiting w.pipeline → p.scheduler.engine.flight = w.engine.flight → Waiting p) :
    Fresh decode v (w.settle p) := by
  rcases hmoved with ⟨hmodel, hflight, hdirty⟩ | ⟨-, hidle, cycle, hflight, hblank⟩
  · refine h.kept hflight hdirty hinbox ?_
    rcases h.current with hwaiting | hold | hcoming | hsame
    · exact .inl (hcurrent hwaiting hflight)
    · exact .inr (.inl (hdirty hold))
    · exact .inr (.inr (.inl hcoming))
    · refine .inr (.inr (.inr ?_))
      show v.agrees p.scheduler.engine.model
      rw [hmodel]
      exact hsame
  · refine h.began ?_ hflight hblank ?_ hinbox
    · rw [hidle]
      rfl
    · rw [hidle]
      rfl

/-- A requery is settled: nothing is awaited, and nothing begins. -/
theorem Fresh.settled (h : Fresh decode v w) (hnone : awaited w.engine.flight = [])
    {outcome : Except RequeryError RequeryResult}
    (hflight : p.scheduler.engine.flight = .settled outcome)
    (houtcome : ∀ err, outcome ≠ .error (.malformed err))
    (hinbox : ∀ err, p.scheduler.inbox ≠ some (.error (.malformed err)))
    (hcurrent : Waiting p ∨ p.scheduler.engine.dirty = true ∨ v.coming w = true ∨
      v.agrees p.model) : Fresh decode v (w.settle p) := by
  refine h.answered.settle ?_ ?_ ?_ (fun err => ⟨?_, hinbox err⟩) hcurrent
  · have hbegins : begins w.engine.flight (.settled outcome) = false := by
      cases w.engine.flight <;> rfl
    rw [owed_settle, hflight, hbegins, h.owed, hnone]
    rfl
  · intro cycle err hcycle
    cases hflight.symm.trans hcycle
  · intro cycle listing result hcycle
    cases hflight.symm.trans hcycle
  · rw [hflight]
    exact fun heq => houtcome err (Flight.settled.inj heq)

/-- What a clean cycle commits agrees with tmux. -/
def Commits (decode : Bytes → String) (v : View) (w : World) (cycle : Cycle) : Prop :=
  ∀ winResult paneResult windowRows paneRows,
    cycle.winResult = some (.resolved winResult) → winResult.ok = true →
    parseWindows decode winResult.body = .ok windowRows →
    cycle.paneResult = some (.resolved paneResult) → paneResult.ok = true →
    parsePanes decode paneResult.body = .ok paneRows →
    w.engine.dirty = false →
    guarded w.engine cycle
      (carryForwardOverlays cycle.startModel (buildInitialModel windowRows paneRows)) = true →
    v.coming w = false → v.holds .windows winResult → v.holds .panes paneResult →
      v.agrees (carryForwardOverlays cycle.startModel (buildInitialModel windowRows paneRows))

theorem Fresh.resumed (h : Fresh decode v w) {cycle : Cycle}
    (hflight : w.engine.flight = .cycling cycle)
    (hreplies : cycle.rejection = none → awaited w.engine.flight = [])
    (hresumed : Resumed decode w.engine cycle p.scheduler.engine)
    (hinbox : ∀ err, p.scheduler.inbox ≠ some (.error (.malformed err)))
    (hcommit : Commits decode v w cycle) : Fresh decode v (w.settle p) := by
  have hnone : awaited w.engine.flight = [] := by
    rcases hrejection : cycle.rejection with _ | err
    · exact hreplies hrejection
    · exact h.rejected cycle err hflight hrejection
  rcases hresumed with
    ⟨err, -, -, hsettled⟩ | ⟨result, -, hdirty, hsettled⟩ | ⟨listing, result, hreply, hlegible⟩ |
    ⟨next, -, hagain, hattempt, hblank⟩ |
    ⟨winResult, paneResult, windowRows, paneRows, result, hwin, hwinOk, hwindows, hpane, hpaneOk,
      hpanes, hclean, hguard, hmodel, hsettled⟩
  · exact h.settled hnone hsettled (fun _ heq => by cases heq) hinbox
      (.inl (.inr (.inl ⟨_, hsettled⟩)))
  · exact h.settled hnone hsettled (fun _ heq => by cases heq) hinbox (.inr (.inl hdirty))
  · exact absurd (h.held cycle listing result hflight hreply).1 hlegible
  · refine h.began hnone hagain hblank ?_ hinbox
    rw [hflight]
    exact decide_eq_true hattempt.symm
  · refine h.settled hnone hsettled (fun _ heq => by cases heq) hinbox (.inr (.inr ?_))
    by_cases hcoming : v.coming w = true
    · exact .inl hcoming
    have hholds : ∀ listing result, replyTo cycle listing = some (.resolved result) →
        v.holds listing result := by
      intro listing result hreply
      rcases (h.held cycle listing result hflight hreply).2 with hholds | hdirty | hcome
      · exact hholds
      · cases hclean.symm.trans hdirty
      · exact absurd hcome hcoming
    refine .inr ?_
    show v.agrees p.scheduler.engine.model
    rw [hmodel]
    exact hcommit winResult paneResult windowRows paneRows hwin hwinOk hwindows hpane hpaneOk hpanes
      hclean hguard (Bool.not_eq_true _ ▸ hcoming) (hholds .windows winResult hwin)
      (hholds .panes paneResult hpane)

theorem Fresh.owned (h : Fresh decode v w)
    (hidle : w.pipeline.scheduler.inbox ≠ none → w.engine.flight = .idle)
    {event : ModelChanges.Event} (howned : Owned decode event w.pipeline p)
    (hcommit : event = .scheduler (.engine .resume) → ∀ cycle, w.engine.flight = .cycling cycle →
      Commits decode v w cycle) :
    Fresh decode v (w.settle p) := by
  have hwell := fun err => (h.well_formed err).2
  rcases howned with
    ⟨hboot, hinbox, hmoved⟩ | ⟨hevent, hboot, hinbox, cycle, hflight, hreplies, hresumed⟩ |
    ⟨hboot, outcome, hflight, hinbox, hengine⟩ | ⟨hboot, result, hinbox, hinbox', hmoved⟩ |
    ⟨hboot, err, hinbox, hinbox', hmodel, hflight, hdirty⟩ | ⟨err, hinbox⟩
  · exact h.moved hmoved (fun err => by rw [hinbox]; exact hwell err) fun hwaiting hflight =>
      hwaiting.of_same hflight hinbox hboot
  · exact h.resumed hflight hreplies hresumed (fun err => by rw [hinbox]; exact hwell err)
      (hcommit hevent cycle hflight)
  · -- The promise is settled, and its callback has still to run.
    have hnone : w.pipeline.scheduler.inbox = none := by
      by_contra hne
      cases hflight.symm.trans (hidle hne)
    have hreleased : p.scheduler.engine.flight = .idle := congrArg RequeryEngine.flight hengine
    refine h.answered.settle ?_ ?_ ?_ (fun err => ⟨?_, ?_⟩) ?_
    · have hawaited : w.owed = [] := h.owed.trans (congrArg awaited hflight)
      have hbegins : begins w.engine.flight .idle = false := by
        cases w.engine.flight <;> rfl
      rw [owed_settle, hreleased, hbegins, hawaited]
      rfl
    · intro cycle err hcycle
      cases hreleased.symm.trans hcycle
    · intro cycle listing result hcycle
      cases hreleased.symm.trans hcycle
    · rw [hreleased]
      exact fun heq => by cases heq
    · rw [hinbox]
      exact fun heq => (h.well_formed err).1 (hflight.trans (congrArg _ (Option.some.inj heq)))
    · rcases h.current with hwaiting | hdirty | hcoming | hsame
      · rcases hwaiting with ⟨cycle, hcycle⟩ | ⟨err, herr⟩ | ⟨err, herr⟩ | ⟨-, hwasIdle, -⟩
        · cases hflight.symm.trans hcycle
        · cases hflight.symm.trans herr
          exact .inl (.inr (.inr (.inl ⟨err, hinbox⟩)))
        · cases hnone.symm.trans herr
        · cases hflight.symm.trans hwasIdle
      · exact .inr (.inl ((congrArg RequeryEngine.dirty hengine).trans hdirty))
      · exact .inr (.inr (.inl hcoming))
      · refine .inr (.inr (.inr ?_))
        show v.agrees p.scheduler.engine.model
        rw [hengine]
        exact hsame
  · refine h.moved hmoved (fun err => by rw [hinbox']; exact nofun) fun hwaiting _ => ?_
    have hflight := hidle (by rw [hinbox]; exact nofun)
    rcases hwaiting with ⟨cycle, hcycle⟩ | ⟨err, herr⟩ | ⟨err, herr⟩ | ⟨-, -, hnone⟩
    · cases hflight.symm.trans hcycle
    · cases hflight.symm.trans herr
    · cases hinbox.symm.trans herr
    · cases hinbox.symm.trans hnone
  · have hwasIdle := hidle (by rw [hinbox]; exact nofun)
    refine h.kept hflight (fun hold => hdirty (.inl hold))
      (fun err => by rw [hinbox']; exact nofun) ?_
    rcases hlive : w.pipeline.bootstrapping with _ | _
    · exact .inr (.inl (hdirty (.inr hlive)))
    · exact .inl (.inr (.inr (.inr ⟨hboot.trans hlive, hflight.trans hwasIdle, hinbox'⟩)))
  · exact absurd hinbox (hwell err)

/-! ### Replies -/

/-- A reply that was awaited is awaited no more. -/
theorem awaited_noted {cycle : Cycle} {listing : Listing} {outcome : Outcome} {rest : List Listing}
    (hnone : replyTo cycle listing = none) (h : awaited (.cycling cycle) = listing :: rest) :
    awaited (.cycling (noted cycle listing outcome)) = rest := by
  cases listing with
  | windows =>
    have hwin : cycle.winResult = none := hnone
    simp only [awaited, hwin, Option.isNone_none, if_true, List.singleton_append,
      List.cons.injEq] at h
    exact h.2
  | panes =>
    have hpane : cycle.paneResult = none := hnone
    rcases hwin : cycle.winResult with _ | reply
    · simp [awaited, hwin, hpane] at h
    · simp only [awaited, hwin, hpane, Option.isNone_none, Option.isNone_some, if_true,
        Bool.false_eq_true, if_false, List.nil_append, List.cons.injEq] at h
      simpa [awaited, noted, hwin] using h.2

theorem begins_noted (cycle : Cycle) (listing : Listing) (outcome : Outcome) :
    begins (.cycling cycle) (.cycling (noted cycle listing outcome)) = false := by
  cases listing <;> exact decide_eq_false (not_not.mpr rfl)

theorem replyTo_noted {cycle : Cycle} {listing other : Listing} {outcome outcome' : Outcome}
    (h : replyTo (noted cycle listing outcome) other = some outcome') :
    other = listing ∧ outcome' = outcome ∨ replyTo cycle other = some outcome' := by
  cases listing <;> cases other
  case windows.windows => exact .inl ⟨rfl, (Option.some.inj h).symm⟩
  case panes.panes => exact .inl ⟨rfl, (Option.some.inj h).symm⟩
  case windows.panes => exact .inr h
  case panes.windows => exact .inr h

theorem Answered.tail (h : Answered decode v w) {item : Item} {stream : List Item}
    (hstream : w.stream = item :: stream) : Answered decode v { w with stream } := by
  rintro before after request result rfl hlive
  exact h (item :: before) after request result hstream hlive

theorem coming_tail {item : Item} {stream : List Item} (hstream : w.stream = item :: stream)
    (hitem : v.inItem item = false) : v.coming { w with stream } = v.coming w := by
  unfold View.coming
  rw [hstream, List.any_cons, hitem, Bool.false_or]

/-- A live answer is read, and what is held after it is what it tells. -/
theorem Fresh.answer (h : Fresh decode v w) {request : Request} {result : CommandResult}
    {stream : List Item} (hstream : w.stream = .answer request result :: stream)
    (hlive : request.live = true)
    (hreplied : ModelChanges.step decode w.pipeline
      (reply request.listing (.resolved result)) = some p) {holds : Listing → CommandResult → Prop}
    (htells : v.tells request.listing result → holds request.listing result)
    (hholds : ∀ listing result, listing ≠ request.listing → v.holds listing result →
      holds listing result) :
    Fresh decode { v with holds } ({ w with stream }.settle p) := by
  obtain ⟨hboot, hinbox, hmodel, hdirty, cycle, hflight, hnone, hnoted⟩ := replied hreplied
  have hcoming : v.coming { w with stream } = v.coming w := coming_tail hstream rfl
  have hawaited : awaited w.engine.flight =
      request.listing :: ({ w with stream } : World).owed := by
    rw [← h.owed, World.owed, hstream, List.filterMap_cons_some]
    · rfl
    · exact if_pos hlive
  have hanswered : Answered decode { v with holds } { w with stream } := h.answered.tail hstream
  refine hanswered.settle ?_ ?_ ?_ (fun err => ⟨?_, ?_⟩) (.inl (.inl ⟨_, hnoted⟩))
  · have hbegins : begins w.engine.flight p.scheduler.engine.flight = false := by
      rw [hnoted]
      exact hflight ▸ begins_noted cycle request.listing (.resolved result)
    rw [owed_settle, hnoted]
    show _ ++ (if begins w.engine.flight _ = true then _ else _) = _
    rw [← hnoted, hbegins, hnoted,
      awaited_noted hnone ((congrArg awaited hflight).symm.trans hawaited)]
    exact List.append_nil _
  · intro cycle' err hcycle hrejection
    cases hnoted.symm.trans hcycle
    have hold : cycle.rejection = some err := by
      cases hlisting : request.listing <;> rw [hlisting] at hrejection <;> exact hrejection
    cases hawaited.symm.trans (h.rejected cycle err hflight hold)
  · intro cycle' listing other hcycle hreply
    cases hnoted.symm.trans hcycle
    rcases replyTo_noted hreply with ⟨rfl, hsame⟩ | hold
    · cases hsame
      obtain ⟨hlegible, htold⟩ := h.answered [] stream request result hstream hlive
      refine ⟨hlegible, htold.imp htells fun hcome => .inr ?_⟩
      show v.coming { w with stream } = true
      unfold View.coming
      rcases hcome with hunsaid | hafter
      · simp [hunsaid]
      · simp [hafter]
    · have hne : listing ≠ request.listing := by
        rintro rfl
        cases hnone.symm.trans hold
      obtain ⟨hlegible, hheld⟩ := h.held cycle listing other hflight hold
      refine ⟨hlegible, hheld.imp (hholds listing other hne) ?_⟩
      rw [hdirty]
      exact Or.imp_right hcoming.trans
  · rw [hnoted]
    exact nofun
  · rw [hinbox]
    exact (h.well_formed err).2

/-! ### Notifications -/

/-- What is not the pipeline's: tmux, what it wrote, and what is buffered. -/
theorem Fresh.of_world (h : Fresh decode v w) {w' : World} (hpipeline : w'.pipeline = w.pipeline)
    (howed : w'.owed = w.owed) (hanswered : Answered decode v' w')
    (hcoming : v.coming w = true → v'.coming w' = true)
    (hholds : ∀ listing result, v.holds listing result →
      v'.holds listing result ∨ v'.coming w' = true)
    (hagrees : ∀ model, v.agrees model → v'.agrees model ∨ v'.coming w' = true) :
    Fresh decode v' w' := by
  have hengine : w'.engine = w.engine := congrArg (fun p : Pipeline => p.scheduler.engine) hpipeline
  refine ⟨?_, ?_, hanswered, ?_, ?_, ?_⟩
  · rw [howed, hengine]
    exact h.owed
  · rw [hengine]
    exact h.rejected
  · rw [hengine]
    intro cycle listing result hflight hreply
    obtain ⟨hlegible, hheld | hdirty | hcome⟩ := h.held cycle listing result hflight hreply
    · exact ⟨hlegible, (hholds listing result hheld).imp_right .inr⟩
    · exact ⟨hlegible, .inr (.inl hdirty)⟩
    · exact ⟨hlegible, .inr (.inr (hcoming hcome))⟩
  · rw [hengine, hpipeline]
    exact h.well_formed
  · rw [hengine, hpipeline]
    rcases h.current with hwaiting | hdirty | hcome | hsame
    · exact .inl hwaiting
    · exact .inr (.inl hdirty)
    · exact .inr (.inr (.inl (hcoming hcome)))
    · exact .inr (.inr ((hagrees _ hsame).symm))

/-- An answer is read whose slot was cancelled. -/
theorem Fresh.unheard (h : Fresh decode v w) {request : Request} {result : CommandResult}
    {stream : List Item} (hstream : w.stream = .answer request result :: stream)
    (hdead : request.live = false) : Fresh decode v { w with stream } := by
  refine h.of_world rfl ?_ (h.answered.tail hstream) ?_ (fun _ _ hholds => .inl hholds)
    fun _ hagrees => .inl hagrees
  · have hnone : (Item.answer request result).owed = none := by
      simp [Item.owed, Request.owed, hdead]
    unfold World.owed
    rw [hstream, List.filterMap_cons_none hnone]
  · rw [coming_tail hstream rfl]
    exact id

/-- Once the engine is dirty, no news needs to come. -/
theorem Fresh.dirtied (h : Fresh decode v w) {w' : World} (hpipeline : w'.pipeline = w.pipeline)
    (howed : w'.owed = w.owed) (hanswered : Answered decode v' w') :
    Fresh decode v' w'.dirtied := by
  have hflight : w'.dirtied.engine.flight = w.engine.flight := by
    show w'.pipeline.scheduler.engine.flight = _
    rw [hpipeline]
    rfl
  refine ⟨?_, ?_, hanswered, ?_, ?_, .inr (.inl rfl)⟩
  · rw [hflight]
    exact howed.trans h.owed
  · rw [hflight]
    exact h.rejected
  · rw [hflight]
    intro cycle listing result hcycle hreply
    exact ⟨(h.held cycle listing result hcycle hreply).1, .inr (.inl rfl)⟩
  · intro err
    rw [hflight]
    refine ⟨(h.well_formed err).1, ?_⟩
    show w'.pipeline.scheduler.inbox ≠ _
    rw [hpipeline]
    exact (h.well_formed err).2

/-- A patch that leaves alone what is watched. -/
theorem Fresh.patched (h : Fresh decode v w) {updater : SessionModel → Option SessionModel}
    (hagrees : ∀ next, updater w.pipeline.model = some next → v.agrees w.pipeline.model →
      v.agrees next) :
    Fresh decode v (w.settle (w.pipeline.patchModel updater)) := by
  unfold Pipeline.patchModel
  split
  · exact h.moved (.refl _) (fun err => (h.well_formed err).2) fun hwaiting _ => hwaiting
  · next next hnext =>
    refine h.kept rfl id (fun err => (h.well_formed err).2) ?_
    exact h.current.imp_right (Or.imp_right (Or.imp_right (hagrees next hnext)))

theorem bootstrapping_patchModel (updater : SessionModel → Option SessionModel) :
    (p.patchModel updater).bootstrapping = p.bootstrapping := by
  unfold Pipeline.patchModel
  split <;> rfl

theorem model_patchModel (updater : SessionModel → Option SessionModel) :
    (p.patchModel updater).model = (updater p.model).getD p.model := by
  unfold Pipeline.patchModel
  split
  · next hnext => rw [hnext]; rfl
  · next next hnext => rw [hnext]; rfl

/-- A patch of what is watched: it agrees with tmux, or news comes. -/
theorem Fresh.replaced (h : Fresh decode v w) {w' : World} (hpipeline : w'.pipeline = w.pipeline)
    (howed : w'.owed = w.owed) (hanswered : Answered decode v' w')
    {updater : SessionModel → Option SessionModel}
    (hheld : ∀ cycle listing result, w.engine.flight = .cycling cycle →
      replyTo cycle listing = some (.resolved result) →
      v'.holds listing result ∨ v'.coming w' = true)
    (hagrees : v'.coming w' = true ∨
      v'.agrees ((updater w'.pipeline.model).getD w'.pipeline.model)) :
    Fresh decode v' (w'.settle (w'.pipeline.patchModel updater)) := by
  have hengine : w'.engine = w.engine := congrArg (fun p : Pipeline => p.scheduler.engine) hpipeline
  have hflight : (w'.pipeline.patchModel updater).scheduler.engine.flight = w'.engine.flight := by
    unfold Pipeline.patchModel
    split <;> rfl
  have hinbox : (w'.pipeline.patchModel updater).scheduler.inbox = w'.pipeline.scheduler.inbox := by
    unfold Pipeline.patchModel
    split <;> rfl
  have howes : (w'.settle (w'.pipeline.patchModel updater)).owed =
      awaited (w'.pipeline.patchModel updater).scheduler.engine.flight := by
    have hbegins : begins w'.engine.flight
        (w'.pipeline.patchModel updater).scheduler.engine.flight = false := by
      rw [hflight]
      cases w'.engine.flight with
      | cycling cycle => simp [begins]
      | _ => rfl
    rw [owed_settle, hbegins, howed, h.owed, hflight, hengine]
    exact List.append_nil _
  refine hanswered.settle howes ?_ ?_ (fun err => ⟨?_, ?_⟩)
    (.inr (.inr (hagrees.imp_right fun hsame => ?_)))
  · rw [hflight, hengine]
    exact h.rejected
  · rw [hflight, hengine]
    intro cycle listing result hcycle hreply
    refine ⟨(h.held cycle listing result hcycle hreply).1, ?_⟩
    exact (hheld cycle listing result hcycle hreply).imp_right .inr
  · rw [hflight, hengine]
    exact (h.well_formed err).1
  · rw [hinbox, hpipeline]
    exact (h.well_formed err).2
  · rw [model_patchModel]
    exact hsame

/-- A topology notification that was taken from the stream or from the buffer is dispatched. -/
theorem Fresh.notified (h : Fresh decode v w.dirtied) :
    Fresh decode v (w.settle (notify w.pipeline)) := by
  have hinbox : w.pipeline.scheduler.notify.inbox = w.pipeline.scheduler.inbox :=
    (calm_maybeFire _).inbox
  show Fresh decode v (w.dirtied.settle (notify w.pipeline))
  refine h.moved (moved_notify _) (fun err => ?_) fun hwaiting hflight => ?_
  · show w.pipeline.scheduler.notify.inbox ≠ _
    rw [hinbox]
    exact (h.well_formed err).2
  · exact hwaiting.of_same hflight hinbox rfl

theorem Fresh.pop (h : Fresh decode v w) {event : NotificationEvent} {stream : List Item}
    (hstream : w.stream = .notification event :: stream) :
    (v.news (.parsed event) = false → Fresh decode v { w with stream }) ∧
      Fresh decode v ({ w with stream } : World).dirtied := by
  have howed : ({ w with stream } : World).owed = w.owed := by
    unfold World.owed
    rw [hstream]
    rfl
  refine ⟨fun hother => ?_, h.dirtied rfl howed (h.answered.tail hstream)⟩
  refine h.of_world rfl howed (h.answered.tail hstream) ?_ (fun _ _ hholds => .inl hholds)
    fun _ hagrees => .inl hagrees
  rw [coming_tail hstream hother]
  exact id

theorem Fresh.pop_buffer {event : DispatchedEvent} {events : List DispatchedEvent}
    (h : Fresh decode v w) (hbuffer : w.bootstrapBuffer = event :: events) :
    (v.news event = false → Fresh decode v { w with bootstrapBuffer := events }) ∧
      Fresh decode v ({ w with bootstrapBuffer := events } : World).dirtied := by
  refine ⟨fun hother => ?_, h.dirtied rfl rfl h.answered⟩
  refine h.of_world rfl rfl h.answered ?_ (fun _ _ hholds => .inl hholds)
    fun _ hagrees => .inl hagrees
  unfold View.coming
  rw [hbuffer, List.any_cons, hother, Bool.false_or]
  exact id

/-- What is dispatched during the bootstrap is buffered. -/
theorem Fresh.buffer (h : Fresh decode v w) (event : DispatchedEvent) :
    Fresh decode v { w with bootstrapBuffer := w.bootstrapBuffer ++ [event] } := by
  refine h.of_world rfl rfl h.answered (fun hcoming => ?_) (fun _ _ hholds => .inl hholds)
    fun _ hagrees => .inl hagrees
  unfold View.coming at hcoming ⊢
  rw [List.any_append]
  simp only [Bool.or_eq_true] at hcoming ⊢
  exact hcoming.imp_left (Or.imp_right .inl)

theorem Fresh.buffered {event : NotificationEvent} {stream : List Item} (h : Fresh decode v w)
    (hstream : w.stream = .notification event :: stream) :
    Fresh decode v { w with
      stream, bootstrapBuffer := w.bootstrapBuffer ++ [.parsed event] } := by
  refine h.of_world rfl ?_ (h.answered.tail hstream) (fun hcoming => ?_)
    (fun _ _ hholds => .inl hholds) fun _ hagrees => .inl hagrees
  · unfold World.owed
    rw [hstream]
    rfl
  · unfold View.coming at hcoming ⊢
    rw [hstream] at hcoming
    simp only [List.any_append, List.any_cons, List.any_nil, Bool.or_false, Bool.or_eq_true]
      at hcoming ⊢
    rcases hcoming with (hunsaid | hbuffer) | hevent | hstream
    · exact .inl (.inl hunsaid)
    · exact .inl (.inr (.inl hbuffer))
    · exact .inl (.inr (.inr hevent))
    · exact .inr hstream

/-! ### tmux -/

/-- tmux changes. -/
theorem Fresh.world_changed (h : Fresh decode v w) {w' : World}
    (hpipeline : w'.pipeline = w.pipeline) (hrequests : w'.requests = w.requests)
    (hstream : w'.stream = w.stream) (hbuffer : w'.bootstrapBuffer = w.bootstrapBuffer)
    (hnews : v'.news = v.news) (hunsaid : v.unsaid = true → v'.unsaid = true)
    (hkeep : v'.unsaid = true ∨
      (∀ listing result, v.tells listing result → v'.tells listing result) ∧
      (∀ listing result, v.holds listing result → v'.holds listing result) ∧
      ∀ model, v.agrees model → v'.agrees model) : Fresh decode v' w' := by
  have hitem : v'.inItem = v.inItem := by
    funext item
    cases item with
    | notification event => exact congrFun hnews _
    | answer request result => rfl
  have hall : v'.unsaid = true → v'.coming w' = true := fun hnow => by simp [View.coming, hnow]
  refine h.of_world hpipeline ?_ ?_ ?_ ?_ ?_
  · unfold World.owed
    rw [hrequests, hstream]
  · intro before after request result hsplit hlive
    obtain ⟨hlegible, hcases⟩ := h.answered before after request result (hstream ▸ hsplit) hlive
    refine ⟨hlegible, ?_⟩
    rw [hitem]
    rcases hkeep with hnow | ⟨htells, -, -⟩
    · exact .inr (.inl hnow)
    · exact hcases.imp (htells _ _) (Or.imp_left hunsaid)
  · unfold View.coming
    rw [hbuffer, hstream, hnews, hitem]
    simp only [Bool.or_eq_true]
    exact Or.imp_left (Or.imp_left hunsaid)
  · intro listing result hholds
    rcases hkeep with hnow | ⟨-, hkept, -⟩
    · exact .inr (hall hnow)
    · exact .inl (hkept listing result hholds)
  · intro model hagrees
    rcases hkeep with hnow | ⟨-, -, hkept⟩
    · exact .inr (hall hnow)
    · exact .inl (hkept model hagrees)

/-- tmux writes a notification. It may tell of a change that was not said. -/
theorem Fresh.writes (h : Fresh decode v w) {event : NotificationEvent} {unsaid unannounced : Bool}
    (hunsaid : v.unsaid = true → unsaid = true ∨ v.news (.parsed event) = true) :
    Fresh decode { v with unsaid } { w with
      stream := w.stream ++ [.notification event]
      unannounced } := by
  refine h.of_world rfl ?_ ?_ ?_ (fun _ _ hholds => .inl hholds) fun _ hagrees => .inl hagrees
  · unfold World.owed
    rw [List.filterMap_append]
    show (_ ++ []) ++ _ = _
    rw [List.append_nil]
  · intro before after request result hstream hlive
    obtain ⟨front, rfl⟩ : ∃ front, after = front ++ [.notification event] := by
      rcases after.eq_nil_or_concat' with rfl | ⟨front, last, rfl⟩
      · cases (List.append_inj' hstream rfl).2
      · refine ⟨front, ?_⟩
        rw [← List.cons_append, ← List.append_assoc] at hstream
        rw [List.singleton_inj.mp (List.append_inj' hstream rfl).2]
    rw [← List.cons_append, ← List.append_assoc] at hstream
    have hold := (List.append_inj' hstream rfl).1
    obtain ⟨hlegible, htells⟩ := h.answered before front request result hold hlive
    refine ⟨hlegible, htells.imp_right ?_⟩
    show _ → unsaid = true ∨ (front ++ [Item.notification event]).any v.inItem = true
    rw [List.any_append]
    rintro (hchanged | hafter)
    · exact (hunsaid hchanged).imp_right fun hnews => by simp [View.inItem, hnews]
    · exact .inr (by rw [hafter]; rfl)
  · intro hcoming
    show (unsaid || w.bootstrapBuffer.any v.news ||
      (w.stream ++ [Item.notification event]).any v.inItem) = true
    unfold View.coming at hcoming
    simp only [List.any_append, List.any_cons, List.any_nil, Bool.or_false, Bool.or_eq_true]
      at hcoming ⊢
    rcases hcoming with (hchanged | hbuffer) | hstream
    · exact (hunsaid hchanged).elim (fun hstill => .inl (.inl hstill))
        fun hnews => .inr (.inr hnews)
    · exact .inl (.inr hbuffer)
    · exact .inr (.inl hstream)

/-- tmux answers a command. -/
theorem Fresh.answers (h : Fresh decode v w) {request : Request} {requests : List Request}
    {result : CommandResult} (hrequests : w.requests = request :: requests)
    (hlegible : Legible decode request.listing result) (htells : v.tells request.listing result) :
    Fresh decode v { w with requests, stream := w.stream ++ [.answer request result] } := by
  refine h.of_world rfl ?_ ?_ ?_ (fun _ _ hholds => .inl hholds) fun _ hagrees => .inl hagrees
  · unfold World.owed
    have hone : [Item.answer request result].filterMap (·.owed) =
        [request].filterMap (·.owed) := rfl
    have hsplit : (request :: requests).filterMap (·.owed) =
        [request].filterMap (·.owed) ++ requests.filterMap (·.owed) := by
      show ([request] ++ requests).filterMap _ = _
      exact List.filterMap_append
    rw [hrequests, List.filterMap_append, List.append_assoc, hone, hsplit]
  · intro before after request' result' hstream hlive
    rcases after.eq_nil_or_concat' with rfl | ⟨front, last, rfl⟩
    · cases (List.append_inj' hstream rfl).2
      exact ⟨hlegible, .inl htells⟩
    · rw [← List.cons_append, ← List.append_assoc] at hstream
      obtain ⟨hold, hlast⟩ := List.append_inj' hstream rfl
      obtain ⟨hlegible', hcases⟩ := h.answered before front request' result' hold hlive
      refine ⟨hlegible', hcases.imp_right (Or.imp_right fun hafter => ?_)⟩
      rw [List.any_append, hafter]
      rfl
  · unfold View.coming
    rw [List.any_append]
    show _ → (_ || (_ || false)) = true
    rw [Bool.or_false]
    exact id

/-! ### Cancellation -/

/-- Every reply that was awaited is a rejection. -/
theorem cancelled (listings : List Listing) {err : Error} {p p' : Pipeline}
    (hawaited : awaited p.scheduler.engine.flight = listings)
    (h : exec (ModelChanges.step decode) p
      (listings.map fun listing => reply listing (.rejected err)) = some p') :
    p'.bootstrapping = p.bootstrapping ∧ p'.scheduler.inbox = p.scheduler.inbox ∧
      p'.model = p.model ∧ p'.scheduler.engine.dirty = p.scheduler.engine.dirty ∧
      awaited p'.scheduler.engine.flight = [] ∧
      (p'.scheduler.engine.flight = p.scheduler.engine.flight ∨
        ∃ cycle cycle', p.scheduler.engine.flight = .cycling cycle ∧
          p'.scheduler.engine.flight = .cycling cycle' ∧ ∀ listing result,
            replyTo cycle' listing = some (.resolved result) →
              replyTo cycle listing = some (.resolved result)) := by
  induction listings generalizing p with
  | nil =>
    cases h
    exact ⟨rfl, rfl, rfl, rfl, hawaited, .inl rfl⟩
  | cons listing listings ih =>
    obtain ⟨p₁, hfirst, hrest⟩ := Option.bind_eq_some_iff.mp h
    obtain ⟨hboot, hinbox, hmodel, hdirty, cycle, hflight, hnone, hnoted⟩ := replied hfirst
    rw [hflight] at hawaited
    have hrest' := (congrArg awaited hnoted).trans (awaited_noted hnone hawaited)
    obtain ⟨hboot', hinbox', hmodel', hdirty', hdone, hcycle⟩ := ih hrest' hrest
    refine ⟨hboot'.trans hboot, hinbox'.trans hinbox, hmodel'.trans hmodel, hdirty'.trans hdirty,
      hdone, .inr ?_⟩
    have hresolved : ∀ other result, replyTo (noted cycle listing (.rejected err)) other =
        some (.resolved result) → replyTo cycle other = some (.resolved result) := by
      intro other result hreply
      rcases replyTo_noted hreply with ⟨-, hsame⟩ | hold
      · cases hsame
      · exact hold
    rcases hcycle with hsame | ⟨cycle₁, cycle', hcycle₁, hcycle', hreplies⟩
    · exact ⟨cycle, _, hflight, hsame.trans hnoted, hresolved⟩
    · cases hnoted.symm.trans hcycle₁
      exact ⟨cycle, cycle', hflight, hcycle', fun other result hreply =>
        hresolved other result (hreplies other result hreply)⟩

theorem owed_cancelled (item : Item) : item.cancelled.owed = none := by
  cases item <;> rfl

theorem inItem_cancelled (item : Item) : v.inItem item.cancelled = v.inItem item := by
  cases item <;> rfl

theorem Fresh.cancel {w' : World} (h : Fresh decode v w) {err : Error}
    (hcancel : w.cancel decode err = some w') : Fresh decode v w' := by
  obtain ⟨p, hexec, rfl⟩ := Option.map_eq_some_iff.mp hcancel
  obtain ⟨hboot, hinbox, hmodel, hdirty, hdone, hflight⟩ := cancelled _ rfl hexec
  have hcoming : v.coming { w with
      pipeline := p
      requests := w.requests.map fun request => { request with live := false }
      stream := w.stream.map Item.cancelled } = v.coming w := by
    unfold View.coming
    rw [List.any_map, show v.inItem ∘ Item.cancelled = v.inItem from funext inItem_cancelled]
  refine ⟨?_, fun _ _ _ _ => hdone, ?_, ?_, fun err => ⟨?_, ?_⟩, ?_⟩
  · refine Eq.trans ?_ hdone.symm
    refine List.append_eq_nil_iff.mpr ⟨?_, ?_⟩
    · refine List.filterMap_eq_nil_iff.mpr fun item hitem => ?_
      obtain ⟨original, -, rfl⟩ := List.mem_map.mp hitem
      exact owed_cancelled original
    · refine List.filterMap_eq_nil_iff.mpr fun request hrequest => ?_
      obtain ⟨original, -, rfl⟩ := List.mem_map.mp hrequest
      rfl
  · intro before after request result hstream hlive
    have hmem : Item.answer request result ∈ w.stream.map Item.cancelled := by
      rw [show w.stream.map Item.cancelled = _ from hstream]
      exact List.mem_append_right _ List.mem_cons_self
    obtain ⟨original, -, heq⟩ := List.mem_map.mp hmem
    cases original with
    | notification event => cases heq
    | answer old oldResult =>
      cases heq
      cases hlive
  · intro cycle listing result hcycle hreply
    have hheld : ∃ cycle, w.engine.flight = .cycling cycle ∧
        replyTo cycle listing = some (.resolved result) := by
      rcases hflight with hsame | ⟨old, new, hold, hnew, hreplies⟩
      · exact ⟨cycle, hsame.symm.trans hcycle, hreply⟩
      · cases hnew.symm.trans hcycle
        exact ⟨old, hold, hreplies listing result hreply⟩
    obtain ⟨old, hold, hreplied⟩ := hheld
    obtain ⟨hlegible, htells⟩ := h.held old listing result hold hreplied
    refine ⟨hlegible, htells.imp_right ?_⟩
    rw [hcoming]
    exact Or.imp_left hdirty.trans
  · rcases hflight with hsame | ⟨old, new, -, hnew, -⟩
    · exact fun heq => (h.well_formed err).1 (hsame.symm.trans heq)
    · exact fun heq => by cases hnew.symm.trans heq
  · exact fun heq => (h.well_formed err).2 (hinbox.symm.trans heq)
  · rw [hcoming]
    rcases hflight with hsame | ⟨old, new, -, hnew, -⟩
    · rcases h.current with hwaiting | hold | hcome | hcurrent
      · exact .inl (hwaiting.of_same hsame hinbox hboot)
      · exact .inr (.inl (hdirty.trans hold))
      · exact .inr (.inr (.inl hcome))
      · exact .inr (.inr (.inr (hmodel.symm ▸ hcurrent)))
    · exact .inl (.inl ⟨new, hnew⟩)

theorem bootstrapping_dispatchEvent (p : Pipeline) (event : DispatchedEvent) :
    (dispatchEvent p event).bootstrapping = p.bootstrapping := by
  have hdispatched := dispatched p event
  generalize dispatchEvent p event = p' at hdispatched ⊢
  rcases hdispatched with ⟨patch, -⟩ | - | -
  · exact bootstrapping_patchModel _
  · rfl
  · rfl

/-! ### The end of the bootstrap -/

/-- The drain dispatches one event after the other. -/
theorem drain_keeps {J : World → Prop} (hlive : w.pipeline.bootstrapping = false)
    (hstep : ∀ w event events, w.pipeline.bootstrapping = false →
      w.bootstrapBuffer = event :: events → J w →
        J ({ w with bootstrapBuffer := events }.dispatch event)) (h : J w) : J w.drain := by
  suffices hfold : ∀ (events : List DispatchedEvent) (w : World),
      w.pipeline.bootstrapping = false → w.bootstrapBuffer = [] →
      J { w with bootstrapBuffer := events } → J (events.foldl World.dispatch w) by
    unfold World.drain
    rw [hlive]
    exact hfold w.bootstrapBuffer { w with bootstrapBuffer := [] } hlive rfl h
  intro events
  induction events with
  | nil =>
    intro w _ hempty h
    rwa [← hempty] at h
  | cons event events ih =>
    intro w hlive hempty h
    have hdispatch : ({ w with bootstrapBuffer := events } : World).dispatch event =
        { w.dispatch event with bootstrapBuffer := events } := by
      unfold World.dispatch
      dsimp only
      rw [hlive]
      rfl
    have hnext : (w.dispatch event).bootstrapBuffer = w.bootstrapBuffer := by
      unfold World.dispatch
      rw [hlive]
      rfl
    have hstill : (w.dispatch event).pipeline.bootstrapping = false := by
      unfold World.dispatch
      rw [hlive]
      exact (bootstrapping_dispatchEvent w.pipeline event).trans hlive
    refine ih (w.dispatch event) hstill (hnext.trans hempty) ?_
    rw [← hdispatch]
    exact hstep { w with bootstrapBuffer := event :: events } event events hlive rfl h

end Fresh

end TmuxccDriver.Runtime.CleanModel
