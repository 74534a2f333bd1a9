import TmuxccDriver.State.RequeryRuns

/-!
# Overlays across a requery

A candidate takes the overlays of the model its requery began with. So an overlay that a
`setModel` changed while the requery was in flight is lost by the commit.

Results:
1. `panes_buildInitialModel`, `windows_buildInitialModel`: what the listings bring; an overlay is
   not among it (`buildInitialModel_overlay`).
2. `no_lost_overlay_iff`: a run loses no overlay exactly if, at each of its commits, every
   pane that survives has the overlay it had at the start of the requery.
-/

namespace TmuxccDriver.State
open TmuxccDriver.Lib TmuxccDriver.Parser TmuxccDriver.Protocol

/-! ## Candidates -/

/-- The overlay of a pane of the model, and the empty one for any other pane. -/
def overlayIn (model : SessionModel) (id : PaneId) : PaneOverlay :=
  ((model.panes.get? id).map (·.overlay)).getD emptyPaneOverlay

section Listed

variable {windowRows : List WindowsReplyRow} {paneRows : List PanesReplyRow}

theorem windows_setActive (entries : List (Nat × Nat)) (model : SessionModel) :
    (entries.foldl setActiveWindow model).windows = model.windows := by
  refine foldl_keeps (P := fun m : SessionModel => m.windows = model.windows) rfl
    fun entry m _ hm => ?_
  unfold setActiveWindow updateSession
  split
  · exact hm
  · exact hm

theorem panes_setActive (entries : List (Nat × Nat)) (model : SessionModel) :
    (entries.foldl setActiveWindow model).panes = model.panes := by
  refine foldl_keeps (P := fun m : SessionModel => m.panes = model.panes) rfl
    fun entry m _ hm => ?_
  unfold setActiveWindow updateSession
  split
  · exact hm
  · exact hm

/-- Every pane is that of a row. -/
theorem panes_buildInitialModel {pane : Pane}
    (h : pane ∈ (buildInitialModel windowRows paneRows).panes.values) :
    ∃ row ∈ paneRows, pane = paneOfRow row := by
  have hwindows : ∀ (rows : List WindowsReplyRow) (model : SessionModel),
      (rows.foldl (addWindowRow paneRows) model).panes = model.panes := by
    intro rows model
    refine foldl_keeps (P := fun m : SessionModel => m.panes = model.panes) rfl
      fun row m _ hm => ?_
    unfold addWindowRow addWindow
    split
    · exact hm
    · exact hm
  have hsessions : ∀ (entries : List (Nat × String)) (model : SessionModel),
      (entries.foldl addSessionEntry model).panes = model.panes := by
    intro entries model
    exact foldl_keeps (P := fun m : SessionModel => m.panes = model.panes) rfl
      fun entry m _ hm => hm
  refine foldl_keeps (f := addPaneRow)
    (P := fun model : SessionModel => ∀ pane ∈ model.panes.values,
      ∃ row ∈ paneRows, pane = paneOfRow row)
    ?_ (fun row model hrow hmodel pane hpane => ?_) pane h
  · rw [panes_setActive, hwindows, hsessions]
    exact fun _ hpane => absurd hpane List.not_mem_nil
  · unfold addPaneRow addPane at hpane
    split at hpane
    · exact hmodel pane hpane
    · split at hpane
      · exact hmodel pane hpane
      · split at hpane
        · exact hmodel pane hpane
        · rcases KeyedMap.mem_set.mp hpane with rfl | ⟨hold, -⟩
          · exact ⟨row, hrow, rfl⟩
          · exact hmodel pane hold

theorem buildInitialModel_overlay {pane : Pane}
    (h : pane ∈ (buildInitialModel windowRows paneRows).panes.values) :
    pane.overlay = emptyPaneOverlay := by
  obtain ⟨row, -, rfl⟩ := panes_buildInitialModel h
  rfl

/-- The options of a window are those of a row. -/
def OptionsOf (row : WindowsReplyRow) (win : Window) : Prop :=
  win.windowId = mintWindowId row.tmuxWindowId ∧ win.synchronizePanes = row.synchronizePanes ∧
    win.monitorActivity = row.monitorActivity ∧ win.monitorSilence = row.monitorSilence

/-- Every window has the options of a row. -/
theorem windows_buildInitialModel {win : Window}
    (h : win ∈ (buildInitialModel windowRows paneRows).windows.values) :
    ∃ row ∈ windowRows, OptionsOf row win := by
  have hnone : ((sessionNames windowRows).values.foldl addSessionEntry emptyModel).windows =
      .empty :=
    foldl_keeps (P := fun m : SessionModel => m.windows = .empty) rfl fun _ m _ hm => hm
  have hadded : ∀ win ∈ (windowRows.foldl (addWindowRow paneRows)
      ((sessionNames windowRows).values.foldl addSessionEntry emptyModel)).windows.values,
      ∃ row ∈ windowRows, OptionsOf row win := by
    refine foldl_keeps (P := fun m : SessionModel => ∀ win ∈ m.windows.values,
      ∃ row ∈ windowRows, OptionsOf row win) ?_ fun row m hrow hm win hwin => ?_
    · rw [hnone]
      exact fun _ hwin => absurd hwin List.not_mem_nil
    · unfold addWindowRow addWindow at hwin
      split at hwin
      · exact hm win hwin
      · rcases KeyedMap.mem_set.mp hwin with rfl | ⟨hold, -⟩
        · exact ⟨row, hrow, rfl, rfl, rfl, rfl⟩
        · exact hm win hold
  refine foldl_keeps (f := addPaneRow) (P := fun m : SessionModel => ∀ win ∈ m.windows.values,
    ∃ row ∈ windowRows, OptionsOf row win) ?_ (fun row m _ hm win hwin => ?_) win h
  · rw [windows_setActive]
    exact hadded
  · unfold addPaneRow addPane at hwin
    split at hwin
    · exact hm win hwin
    · split at hwin
      · exact hm win hwin
      · split at hwin
        · exact hm win hwin
        · next old hold =>
          rcases KeyedMap.mem_set.mp hwin with rfl | ⟨hmem, -⟩
          · exact hm old (KeyedMap.mem_of_get? hold)
          · exact hm win hmem

end Listed

/-- Every pane of a candidate has the overlay it has in the start model. -/
theorem candidate_overlay {start : SessionModel} {windowRows : List WindowsReplyRow}
    {paneRows : List PanesReplyRow} {pane : Pane}
    (h : pane ∈ (carryForwardOverlays start (buildInitialModel windowRows paneRows)).panes.values) :
    pane.overlay = overlayIn start pane.paneId := by
  obtain ⟨original, hmem, rfl⟩ := List.mem_map.mp h
  rw [adoptOverlay_paneId, overlayIn, adoptOverlay]
  split
  · next prevPane hget => rw [hget]; rfl
  · next hnone =>
    rw [hnone]
    exact buildInitialModel_overlay hmem

namespace Requery

/-! ## The law and its condition -/

/-- A requery that commits gives every pane that survives the overlay it had just before. -/
def NoLostOverlay (decode : Bytes → String) (state : RequeryEngine × Log) (event : Event) : Prop :=
  ∀ next result, step decode state.1 event = some next → Settles event next (.ok result) →
    result.failed = false → ∀ pane ∈ state.1.model.panes.values, ∀ committed,
      next.model.panes.get? pane.paneId = some committed → committed.overlay = pane.overlay

/-- A commit finds every pane that survives with the overlay it had in the start model. -/
def OverlaysUntouched (decode : Bytes → String) (state : RequeryEngine × Log) (event : Event) :
    Prop :=
  event = .resume → ∀ candidate, state.2.Commits decode state.1 candidate →
    ∀ pane ∈ state.1.model.panes.values, candidate.panes.has pane.paneId = true →
      pane.overlay = overlayIn state.2.start pane.paneId

/-- The candidate of a clean cycle is built from rows, with the start model's overlays. -/
theorem cycleEnd_clean {decode : Bytes → String} {log : Log} {engine : RequeryEngine}
    {candidate : SessionModel} (h : log.cycleEnd decode engine = some (.clean candidate)) :
    (∃ next, step decode engine .resume = some next) ∧ ∃ windowRows paneRows,
      candidate = carryForwardOverlays log.start (buildInitialModel windowRows paneRows) := by
  rcases hflight : engine.flight with _ | cycle | outcome
  · simp [Log.cycleEnd, hflight] at h
  · rcases hrejection : cycle.rejection with _ | err
    · rcases hwin : cycle.winResult with _ | winResult | err
      · simp [Log.cycleEnd, hflight, hrejection, hwin] at h
      · rcases hpane : cycle.paneResult with _ | paneResult | err
        · simp [Log.cycleEnd, hflight, hrejection, hwin, hpane] at h
        · refine ⟨⟨engine.afterReplies decode cycle winResult paneResult, ?_⟩, ?_⟩
          · simp only [step, hflight, hrejection, hwin, hpane]
          rw [cycleEnd_of_replies hflight hrejection hwin hpane] at h
          split at h
          · cases h
          · split at h
            · next windowRows paneRows _ _ =>
              split at h
              · cases h
              · cases h
                exact ⟨windowRows, paneRows, rfl⟩
            · cases h
        · simp [Log.cycleEnd, hflight, hrejection, hwin, hpane] at h
      · simp [Log.cycleEnd, hflight, hrejection, hwin] at h
    · simp [Log.cycleEnd, hflight, hrejection] at h
  · simp [Log.cycleEnd, hflight] at h

theorem noLostOverlay_iff {decode : Bytes → String} {state : RequeryEngine × Log} {event : Event}
    (hagree : Agree state) :
    NoLostOverlay decode state event ↔ OverlaysUntouched decode state event := by
  have hdiscipline : ∀ next, step decode state.1 event = some next →
      CommitDiscipline decode state.2 state.1 event next := by
    intro next hnext
    have hlogged : loggedStep decode state event =
        some (next, state.2.observe decode state.1 event) := by
      rw [loggedStep, hnext]
      rfl
    exact (loggedStep_keeps hagree hlogged).1
  constructor
  · rintro h rfl candidate hcommits pane hpane hhas
    obtain ⟨⟨next, hnext⟩, windowRows, paneRows, hcandidate⟩ := cycleEnd_clean hcommits.1
    obtain ⟨result, hsettles, hfailed⟩ := (hdiscipline next hnext).commits candidate rfl hcommits
    obtain ⟨hresult, hmodel, -⟩ := (hdiscipline next hnext).served result hsettles hfailed
    cases hcommits.1.symm.trans hresult.1
    obtain ⟨committed, hget⟩ := KeyedMap.has_iff.mp hhas
    rw [← h next result hnext hsettles hfailed pane hpane committed (by rw [hmodel, hget]),
      ← KeyedMap.key_of_get? hget]
    exact candidate_overlay (hcandidate ▸ KeyedMap.mem_of_get? hget)
  · intro h next result hnext hsettles hfailed pane hpane committed hget
    obtain ⟨hcommits, hmodel, -⟩ := (hdiscipline next hnext).served result hsettles hfailed
    obtain ⟨-, windowRows, paneRows, hcandidate⟩ := cycleEnd_clean hcommits.1
    rw [hmodel] at hget
    rw [h hsettles.1 result.next hcommits pane hpane (KeyedMap.has_iff.mpr ⟨committed, hget⟩),
      ← KeyedMap.key_of_get? hget]
    exact candidate_overlay (hcandidate ▸ KeyedMap.mem_of_get? hget)

/-- A run loses no overlay exactly if none of its commits finds a surviving pane with
another overlay than at the start of the requery. -/
theorem no_lost_overlay_iff (decode : Bytes → String) (opts : RequeryEngineOptions)
    (events : List Event) :
    Along (loggedStep decode) (NoLostOverlay decode) (start opts) events ↔
      Along (loggedStep decode) (OverlaysUntouched decode) (start opts) events :=
  along_congr (fun _ _ _ hagree hstep => (loggedStep_keeps hagree hstep).2)
    (fun _ _ hagree => noLostOverlay_iff hagree) (agree_start opts)

/-- The test of `NoLostOverlay` at a resumption. -/
def keepsOverlays (decode : Bytes → String) (state : RequeryEngine × Log) : Bool :=
  match step decode state.1 .resume with
  | none => true
  | some next =>
    match next.flight with
    | .settled (.ok result) =>
      result.failed || state.1.model.panes.values.all fun pane =>
        ((next.model.panes.get? pane.paneId).map (·.overlay)).getD pane.overlay = pane.overlay
    | _ => true

theorem keepsOverlays_of_noLostOverlay {decode : Bytes → String} {state : RequeryEngine × Log}
    (h : NoLostOverlay decode state .resume) : keepsOverlays decode state = true := by
  unfold keepsOverlays
  split
  · rfl
  · next next hnext =>
    split
    · next result hflight =>
      rcases hfailed : result.failed with _ | _
      · rw [Bool.false_or, List.all_eq_true]
        intro pane hpane
        rw [decide_eq_true_eq]
        rcases hget : next.model.panes.get? pane.paneId with _ | committed
        · rfl
        · exact h next result hnext ⟨rfl, hflight⟩ hfailed pane hpane committed hget
      · rfl
    · rfl

/-- The sample session with its pane bound for one client. -/
def boundSample : SessionModel := updatePaneOverlay synchronizedSample ⟨"p0"⟩ {"client"}

/-- The pane is bound while the second requery is in flight. -/
def bindInFlight : List Event :=
  .requery :: sampleReplies ++ [.resume, .release, .requery, .setModel boundSample] ++ sampleReplies

/-- The commit brings back the pane without its client. -/
theorem overlay_lost_bind_in_flight :
    ¬Along (loggedStep fromCharCodes) (NoLostOverlay fromCharCodes)
      (start { sessionName := some "main" }) (bindInFlight ++ [.resume]) := by
  intro h
  have hrun : (exec (loggedStep fromCharCodes) (start { sessionName := some "main" })
      bindInFlight).map (keepsOverlays fromCharCodes) = some false := by decide +kernel
  obtain ⟨state, hstate, hfalse⟩ := Option.map_eq_some_iff.mp hrun
  have hlaw := (((along_append _).mp h).2 state hstate).1
  rw [keepsOverlays_of_noLostOverlay hlaw] at hfalse
  cases hfalse

end Requery

end TmuxccDriver.State
