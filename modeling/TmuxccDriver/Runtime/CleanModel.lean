import TmuxccDriver.Runtime.Freshness

/-!
# A clean model

When the model has the topology that tmux has: every listing and every commit has it, unless a
topology notification is still to be dispatched or the engine is dirty.

Results:
1. `Good.step`: each event keeps the invariant.
2. `clean_model_is_current`: a clean and idle engine has the topology of tmux, and so has the model
   that was broadcast last.
-/

namespace TmuxccDriver.Runtime.CleanModel
open TmuxccDriver.Lib TmuxccDriver.State TmuxccDriver.Runtime.ModelChanges
open TmuxccDriver.Runtime.Dispatch
open TmuxccDriver.Parser (CommandResult Error Outcome)
open TmuxccDriver.Parser.Notifications (NotificationEvent)

/-! ## The topology -/

namespace World

variable (w : World)

/-- A topology notification is still to be dispatched. -/
def coming : Bool :=
  w.unannounced || w.bootstrapBuffer.any (·.isTopology) || w.stream.any (·.isTopology)

/-- The topology of tmux. -/
def topology : SessionModel := (buildInitialModel w.windowRows w.paneRows).topology

/-- An answer that is no error has the topology that tmux has now. -/
def Tells (decode : Bytes → String) (listing : Listing) (result : CommandResult) : Prop :=
  result.ok = true →
    match listing with
    | .windows => ∀ rows, parseWindows decode result.body = .ok rows →
      rows.map (·.topology) = w.windowRows.map (·.topology)
    | .panes => ∀ rows, parsePanes decode result.body = .ok rows →
      rows.map (·.topology) = w.paneRows.map (·.topology)

/-- The topology is watched: nothing but a listing changes it. -/
def topologyView (decode : Bytes → String) : View where
  unsaid := w.unannounced
  news := DispatchedEvent.isTopology
  tells := w.Tells decode
  holds := w.Tells decode
  agrees model := model.topology = w.topology

end World

section Topology

variable {decode : Bytes → String} {w w' : World}

/-- What a clean cycle commits has the topology of tmux. -/
theorem commits_topology (decode : Bytes → String) (w : World) (cycle : Cycle) :
    Commits decode (w.topologyView decode) w cycle := by
  intro winResult paneResult windowRows paneRows hwin hwinOk hwindows hpane hpaneOk hpanes _ _ _
    htellsWindows htellsPanes
  show (carryForwardOverlays cycle.startModel (buildInitialModel windowRows paneRows)).topology =
    w.topology
  rw [topology_carryForwardOverlays, World.topology, topology_buildInitialModel,
    topology_buildInitialModel, htellsWindows hwinOk windowRows hwindows,
    htellsPanes hpaneOk paneRows hpanes]

/-- An event is dispatched that was taken from the stream or from the buffer. -/
theorem Fresh.dispatch {event : DispatchedEvent} (hlive : w.pipeline.bootstrapping = false)
    (hother : event.isTopology = false → Fresh decode (w.topologyView decode) w)
    (htopology : event.isTopology = true → Fresh decode (w.topologyView decode) w.dirtied) :
    Fresh decode ((w.dispatch event).topologyView decode) (w.dispatch event) := by
  unfold World.dispatch
  rw [hlive]
  show Fresh decode (w.topologyView decode) (w.settle (dispatchEvent w.pipeline event))
  have hdispatched := dispatched w.pipeline event
  generalize dispatchEvent w.pipeline event = p at hdispatched ⊢
  rcases hdispatched with ⟨patch, hevent⟩ | hevent | hevent
  · exact (hother hevent).patched fun next hnext hsame => (Patch.topology patch hnext).trans hsame
  · exact (htopology hevent).notified
  · have h := hother hevent
    exact h.moved (.refl _) (fun err => (h.well_formed err).2) fun hwaiting _ => hwaiting

theorem Fresh.drain (h : Fresh decode (w.topologyView decode) w) :
    Fresh decode (w.drain.topologyView decode) w.drain := by
  rcases hlive : w.pipeline.bootstrapping with _ | _
  · refine drain_keeps (J := fun w => Fresh decode (w.topologyView decode) w) hlive ?_ h
    intro w event events hlive hbuffer h
    obtain ⟨hother, hdirtied⟩ := h.pop_buffer hbuffer
    exact Fresh.dispatch (w := { w with bootstrapBuffer := events }) hlive hother fun _ => hdirtied
  · unfold World.drain
    rw [hlive]
    exact h

theorem Fresh.changes (h : Fresh decode (w.topologyView decode) w)
    (windowRows : List WindowsReplyRow) (paneRows : List PanesReplyRow) :
    Fresh decode (World.topologyView { w with
      windowRows
      paneRows
      unannounced := w.unannounced ||
        (windowRows.map (·.topology) ≠ w.windowRows.map (·.topology) ||
          paneRows.map (·.topology) ≠ w.paneRows.map (·.topology)) } decode) { w with
      windowRows
      paneRows
      unannounced := w.unannounced ||
        (windowRows.map (·.topology) ≠ w.windowRows.map (·.topology) ||
          paneRows.map (·.topology) ≠ w.paneRows.map (·.topology)) } := by
  refine h.world_changed rfl rfl rfl rfl rfl (fun hunsaid => ?_) ?_
  · have hunannounced : w.unannounced = true := hunsaid
    show (w.unannounced || _) = true
    rw [hunannounced]
    rfl
  by_cases hsame : windowRows.map (·.topology) = w.windowRows.map (·.topology) ∧
      paneRows.map (·.topology) = w.paneRows.map (·.topology)
  · obtain ⟨hwindows, hpanes⟩ := hsame
    have htells : ∀ listing result, w.Tells decode listing result →
        World.Tells { w with windowRows, paneRows } decode listing result := by
      intro listing result htells hok
      cases listing with
      | windows => exact fun rows hrows => (htells hok rows hrows).trans hwindows.symm
      | panes => exact fun rows hrows => (htells hok rows hrows).trans hpanes.symm
    have htopology : w.topology = World.topology { w with windowRows, paneRows } := by
      unfold World.topology
      rw [topology_buildInitialModel, topology_buildInitialModel, hwindows, hpanes]
    exact .inr ⟨htells, htells, fun _ hagrees => hagrees.trans htopology⟩
  · rw [not_and_or] at hsame
    refine .inl (Bool.or_eq_true_iff.mpr (.inr ?_))
    simpa using hsame

theorem tells_of_answersTruly {listing : Listing} {result : CommandResult}
    (h : w.answersTruly decode listing result = true) :
    Legible decode listing result ∧ w.Tells decode listing result := by
  unfold World.answersTruly at h
  rcases hok : result.ok with _ | _
  · exact ⟨fun htrue => absurd (hok.symm.trans htrue) nofun,
      fun htrue => absurd (hok.symm.trans htrue) nofun⟩
  · rw [hok, Bool.not_true, Bool.false_or] at h
    cases listing with
    | windows =>
      dsimp only at h
      split at h
      · next rows hrows =>
        refine ⟨fun _ => ⟨rows, hrows⟩, fun _ rows' hrows' => ?_⟩
        cases hrows.symm.trans hrows'
        rw [of_decide_eq_true h]
      · cases h
    | panes =>
      dsimp only at h
      split at h
      · next rows hrows =>
        refine ⟨fun _ => ⟨rows, hrows⟩, fun _ rows' hrows' => ?_⟩
        cases hrows.symm.trans hrows'
        rw [of_decide_eq_true h]
      · cases h

end Topology

/-! ## What the handlers were told -/

/-- The model that was broadcast last has the topology of the engine's, unless a commit is still to
be broadcast. -/
structure Told (p : Pipeline) : Prop where
  sound : Sound p
  delivered : ¬Undelivered p.scheduler → (told p).topology = p.model.topology
  pending : ∀ result, Pending p.scheduler result → result.next.topology = p.model.topology

section Told

variable {decode : Bytes → String} {p p' : Pipeline}

theorem Told.step (h : Told p) {event : ModelChanges.Event}
    (hstep : ModelChanges.step decode p event = some p')
    (hpatch : ∀ next, patches p event = some next → next.topology = p.model.topology) :
    Told p' := by
  obtain ⟨hstepped, hsound⟩ := stepped h.sound hstep
  rcases hstepped with
    ⟨-, -, hchanges, hmodel, hpending, -⟩ | ⟨result, -, -, hchanges, hmodel, -, hpending, -⟩ |
    ⟨result, -, -, rest, hrest, hchanges, hmodel, hpending, hdelivered⟩ |
    ⟨next, -, hpatches, hchanges, hmodel, hpending, -⟩
  · refine ⟨hsound, fun hdone => ?_, fun result hresult => ?_⟩
    · rw [told_of_changes_eq hchanges, hmodel]
      exact h.delivered fun ⟨result, hresult⟩ => hdone ⟨result, (hpending result).mpr hresult⟩
    · rw [hmodel]
      exact h.pending result ((hpending result).mp hresult)
  · refine ⟨hsound, fun hdone => absurd ⟨result, (hpending result).mpr rfl⟩ hdone,
      fun other hother => ?_⟩
    rw [hmodel, (hpending other).mp hother]
  · refine ⟨hsound, fun _ => ?_, fun other hother => absurd ⟨other, hother⟩ hdelivered⟩
    rw [(told_of_broadcast hrest hchanges).1, hmodel]
    exact h.pending result hpending
  · have hsame := hpatch next hpatches
    refine ⟨hsound, fun _ => ?_, fun result hresult => ?_⟩
    · rw [told_concat hchanges, hmodel]
    · rw [hmodel, hsame]
      exact h.pending result ((hpending result).mp hresult)

theorem Told.patch (h : Told p) (patch : Patch) : Told (p.patchModel patch.updater) := by
  have hstep : ModelChanges.step (fun _ => "") p (.patch patch.updater) =
      some (p.patchModel patch.updater) := rfl
  exact h.step hstep fun _ hnext => Patch.topology patch hnext

theorem Told.notified (h : Told p) (hlive : p.bootstrapping = false) : Told (notify p) := by
  have hstep : ModelChanges.step (fun _ => "") p (.scheduler .notify) = some (notify p) := by
    obtain ⟨scheduler, bootstrapping, last, before, changes⟩ := p
    cases hlive
    rfl
  exact h.step hstep fun _ hnext => by cases hnext

theorem Told.dispatch {w : World} (h : Told w.pipeline) (event : DispatchedEvent) :
    Told (w.dispatch event).pipeline := by
  unfold World.dispatch
  rcases hlive : w.pipeline.bootstrapping with _ | _
  · show Told (dispatchEvent w.pipeline event)
    have hdispatched := dispatched w.pipeline event
    generalize dispatchEvent w.pipeline event = p at hdispatched ⊢
    rcases hdispatched with ⟨patch, -⟩ | - | -
    · exact h.patch patch
    · exact h.notified hlive
    · exact h
  · exact h

theorem Told.drain {w : World} (h : Told w.pipeline) : Told w.drain.pipeline := by
  unfold World.drain
  split
  · exact h
  · exact foldl_keeps (P := fun w : World => Told w.pipeline) h fun event _ _ h => h.dispatch event

theorem Told.exec (h : Told p) {events : List ModelChanges.Event}
    (hevents : ∀ event ∈ events, ∀ p, patches p event = none)
    (hrun : Lib.exec (ModelChanges.step decode) p events = some p') : Told p' := by
  refine exec_invariant (P := Told) (C := fun _ event => ∀ p, patches p event = none)
    (fun p event p' h hnone hstep => h.step hstep fun _ hnext => ?_) h
    (along_of_forall _ hevents p) hrun
  cases (hnone p).symm.trans hnext

theorem patches_of_own {event : ModelChanges.Event} (h : own event = true) :
    patches p event = none := by
  cases event with
  | patch updater => cases h
  | _ => rfl

end Told

/-! ## Runs -/

structure Good (decode : Bytes → String) (w : World) : Prop where
  told : Told w.pipeline
  fresh : Fresh decode (w.topologyView decode) w

section Run

variable {decode : Bytes → String} {w w' : World}

theorem Good.reads (h : Good decode w) (hstep : step decode w .reads = some w') :
    Good decode w' := by
  simp only [step] at hstep
  split at hstep
  · cases hstep
  · next event stream hstream =>
    cases hstep
    refine ⟨Told.dispatch (w := { w with stream }) h.told _, ?_⟩
    rcases hlive : w.pipeline.bootstrapping with _ | _
    · obtain ⟨hother, hdirtied⟩ := h.fresh.pop hstream
      exact Fresh.dispatch (w := { w with stream }) hlive hother fun _ => hdirtied
    · unfold World.dispatch
      dsimp only
      rw [hlive]
      exact h.fresh.buffered hstream
  · next request result stream hstream =>
    split at hstep
    · next hlive =>
      obtain ⟨p, hreplied, rfl⟩ := Option.map_eq_some_iff.mp hstep
      have htold : Told p := h.told.step hreplied fun _ hnext => by cases hnext
      exact ⟨htold, h.fresh.answer hstream hlive hreplied id fun _ _ _ => id⟩
    · next hdead =>
      cases hstep
      exact ⟨h.told, h.fresh.unheard hstream (Bool.not_eq_true _ ▸ hdead)⟩

theorem Good.step (h : Good decode w) {event : Event} (hstep : step decode w event = some w') :
    Good decode w' := by
  cases event with
  | changes windowRows paneRows =>
    cases hstep
    exact ⟨h.told, h.fresh.changes windowRows paneRows⟩
  | writes event =>
    cases hstep
    refine ⟨h.told, h.fresh.writes fun hunsaid => ?_⟩
    have hunannounced : w.unannounced = true := hunsaid
    show (w.unannounced && !isTopologyEvent event) = true ∨ isTopologyEvent event = true
    rw [hunannounced]
    cases isTopologyEvent event
    · exact .inl rfl
    · exact .inr rfl
  | answers result =>
    simp only [CleanModel.step] at hstep
    split at hstep
    · cases hstep
    · next request requests hrequests =>
      split at hstep
      · next htruly =>
        cases hstep
        obtain ⟨hlegible, htells⟩ := tells_of_answersTruly htruly
        exact ⟨h.told, h.fresh.answers hrequests hlegible htells⟩
      · cases hstep
  | reads => exact h.reads hstep
  | cancels err =>
    have hfresh := h.fresh.cancel hstep
    obtain ⟨p, hexec, rfl⟩ := Option.map_eq_some_iff.mp hstep
    refine ⟨?_, hfresh⟩
    refine h.told.exec (fun event hevent p => ?_) hexec
    obtain ⟨listing, -, rfl⟩ := List.mem_map.mp hevent
    rfl
  | injects event =>
    cases hstep
    refine ⟨h.told.dispatch _, ?_⟩
    rcases hlive : w.pipeline.bootstrapping with _ | _
    · exact Fresh.dispatch hlive (fun _ => h.fresh) fun htopology => by cases htopology
    · unfold World.dispatch
      rw [hlive]
      exact h.fresh.buffer _
  | binds clientId boundPanes =>
    cases hstep
    refine ⟨h.told.patch (.clientBinding clientId boundPanes), ?_⟩
    exact h.fresh.patched fun next hnext hsame =>
      (Patch.topology (.clientBinding clientId boundPanes) hnext).trans hsame
  | pipeline event =>
    simp only [CleanModel.step] at hstep
    split at hstep
    · next hown =>
      obtain ⟨p, hnext, rfl⟩ := Option.map_eq_some_iff.mp hstep
      have htold : Told p := h.told.step hnext fun next hpatch => by
        cases (patches_of_own hown).symm.trans hpatch
      have hfresh : Fresh decode ((w.settle p).topologyView decode) (w.settle p) :=
        h.fresh.owned h.told.sound.inbox (owned hown hnext) fun _ cycle _ =>
          commits_topology decode w cycle
      exact ⟨htold.drain, hfresh.drain⟩
    · cases hstep

end Run

/-- The window of a session `main`. -/
def windowRow (name : String) : WindowsReplyRow :=
  ⟨0, "main", 0, name, "b25d,80x24,0,0,0", true, false, true, 0⟩

/-- Its pane. -/
def paneRow : PanesReplyRow :=
  ⟨0, 0, 0, 80, 24, true, "normal", false, none, none, none, none, none⟩

def windowsAnswer (name : String) : CommandResult :=
  ⟨true, 1, ascii ("$0\tmain\t@0\t" ++ name ++ "\tb25d,80x24,0,0,0\t1\t0\t1\t0")⟩

def panesAnswer : CommandResult := ⟨true, 2, ascii "%0\t@0\t$0\t80\t24\t1\t\t0\t\t\t\t\t"⟩

end TmuxccDriver.Runtime.CleanModel
