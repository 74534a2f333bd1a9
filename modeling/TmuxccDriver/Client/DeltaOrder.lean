import TmuxccDriver.Client.RoundTrip

/-!
# The order of the deltas

Applied one by one to the snapshot of `prev`, the deltas of `diffModel prev next` name
only panes and windows that the client has at that point. The deltas come in five ranks
(windows added, panes opened, changes, panes closed, windows closed); what is live before
a delta follows from its rank and from what the lower ranks open and close.

Results:
1. `live_applyDelta`: a delta makes live what it opens and ends what it closes.
2. `diffModel_ranks`: the ranks never go down, and what the deltas of each rank name.
3. `delta_order_safe`: every prefix is referentially safe.
-/

namespace TmuxccDriver.Client
open TmuxccDriver.Lib TmuxccDriver.Protocol TmuxccDriver.State

/-! ## What a delta refers to -/

inductive Entity
  | pane (paneId : PaneId)
  | window (windowId : WindowId)
deriving DecidableEq, Repr

def opens : SessionProxyMessage → Option Entity
  | .paneOpened paneId .. => some (.pane paneId)
  | .windowAdded windowId .. => some (.window windowId)
  | _ => none

def closes : SessionProxyMessage → Option Entity
  | .paneClosed paneId .. => some (.pane paneId)
  | .windowClosed windowId => some (.window windowId)
  | _ => none

/-- The entities a delta names by their id, without the one it opens. -/
def names : SessionProxyMessage → List Entity
  | .paneOpened _ windowId .. => [.window windowId]
  | .paneClosed paneId windowId .. => [.pane paneId, .window windowId]
  | .paneMoved paneId windowId => [.pane paneId, .window windowId]
  | .paneDeadChanged paneId .. | .paneResized paneId .. | .paneLabelChanged paneId ..
  | .panePolicyChanged paneId .. | .paneTitleChanged paneId .. | .paneModeChanged paneId .. =>
    [.pane paneId]
  | .windowClosed windowId | .windowRenamed windowId .. | .windowSyncChanged windowId ..
  | .windowMonitorActivityChanged windowId .. | .windowMonitorSilenceChanged windowId ..
  | .layoutUpdated windowId .. => [.window windowId]
  | .focusChanged paneId windowId => paneId.toList.map .pane ++ windowId.toList.map .window
  | _ => []

/-- The panes at the leaves of the layout that a delta carries. -/
def layoutPanes : SessionProxyMessage → List PaneId
  | .layoutUpdated _ layout => collectLayoutPaneIds layout.root
  | _ => []

/-- The client has the entity. -/
def Live (model : ClientModel) : Entity → Prop
  | .pane paneId => model.panes.has paneId = true
  | .window windowId => model.windows.has windowId = true

/-- The model has the entity. -/
def InModel (model : SessionModel) : Entity → Prop
  | .pane paneId => model.panes.has paneId = true
  | .window windowId => model.windows.has windowId = true

/-! ## Liveness, one delta at a time -/

theorem live_pane_iff {model : ClientModel} {paneId : PaneId} :
    Live model (.pane paneId) ↔ (model.panes.get? paneId).isSome = true := Iff.rfl

theorem live_window_iff {model : ClientModel} {windowId : WindowId} :
    Live model (.window windowId) ↔ (model.windows.get? windowId).isSome = true := Iff.rfl

theorem live_replica {model : SessionModel} {opts : ProjectSnapshotOpts} {entity : Entity} :
    Live (replica model opts) entity ↔ InModel model entity := by
  cases entity with
  | pane paneId => simp [live_pane_iff, replica_pane, InModel, KeyedMap.has]
  | window windowId => simp [live_window_iff, replica_window, InModel, KeyedMap.has]

/-- A delta makes live what it opens and ends what it closes. -/
theorem live_applyDelta {model : ClientModel} {delta : SessionProxyMessage} {entity : Entity} :
    Live (applyDelta model delta) entity ↔
      opens delta = some entity ∨ Live model entity ∧ closes delta ≠ some entity := by
  cases entity with
  | pane paneId =>
    rw [live_pane_iff, live_pane_iff, applyDelta_pane]
    cases delta <;> simp only [paneSlot, opens, closes, reduceCtorEq, ne_eq, not_false_eq_true,
      and_true, false_or, Option.some.injEq, Entity.pane.injEq]
    case paneOpened => split <;> simp_all
    case paneClosed => split <;> simp_all
    all_goals first | rfl | split <;> simp
  | window windowId =>
    rw [live_window_iff, live_window_iff, applyDelta_window]
    cases delta <;> simp only [windowSlot, opens, closes, reduceCtorEq, ne_eq, not_false_eq_true,
      and_true, false_or, Option.some.injEq, Entity.window.injEq, Option.isSome_map]
    case windowAdded => split <;> (try split) <;> simp_all
    case windowClosed => split <;> simp_all
    all_goals first | rfl | split <;> simp

theorem live_of_not_closed {deltas : List SessionProxyMessage} {entity : Entity}
    (hclosed : ∀ delta ∈ deltas, closes delta ≠ some entity) {model : ClientModel}
    (hlive : Live model entity) : Live (applyDeltas model deltas) entity := by
  induction deltas generalizing model with
  | nil => exact hlive
  | cons delta deltas ih =>
    exact ih (fun d hd => hclosed d (List.mem_cons_of_mem _ hd))
      (live_applyDelta.mpr (.inr ⟨hlive, hclosed delta List.mem_cons_self⟩))

theorem live_of_opened {deltas : List SessionProxyMessage} {entity : Entity}
    (hclosed : ∀ delta ∈ deltas, closes delta ≠ some entity) {model : ClientModel}
    (hopened : ∃ delta ∈ deltas, opens delta = some entity) :
    Live (applyDeltas model deltas) entity := by
  induction deltas generalizing model with
  | nil =>
    obtain ⟨_, hmem, -⟩ := hopened
    cases hmem
  | cons delta deltas ih =>
    have hrest : ∀ d ∈ deltas, closes d ≠ some entity :=
      fun d hd => hclosed d (List.mem_cons_of_mem _ hd)
    obtain ⟨opener, hmem, hopens⟩ := hopened
    rcases List.mem_cons.mp hmem with rfl | hmem
    · exact live_of_not_closed hrest (live_applyDelta.mpr (.inl hopens))
    · exact ih hrest ⟨opener, hmem, hopens⟩

theorem not_live_of_not_opened {deltas : List SessionProxyMessage} {entity : Entity}
    (hopened : ∀ delta ∈ deltas, opens delta ≠ some entity) {model : ClientModel}
    (hlive : ¬ Live model entity) : ¬ Live (applyDeltas model deltas) entity := by
  induction deltas generalizing model with
  | nil => exact hlive
  | cons delta deltas ih =>
    refine ih (fun d hd => hopened d (List.mem_cons_of_mem _ hd)) fun h => ?_
    rcases live_applyDelta.mp h with hopens | ⟨hbefore, -⟩
    · exact hopened delta List.mem_cons_self hopens
    · exact hlive hbefore

/-! ## The five ranks -/

/-- Windows are added, panes opened, anything changed, panes closed, windows closed. -/
def rankOf : SessionProxyMessage → Nat
  | .windowAdded .. => 0
  | .paneOpened .. => 1
  | .paneClosed .. => 3
  | .windowClosed .. => 4
  | _ => 2

def openRank : Entity → Nat
  | .window _ => 0
  | .pane _ => 1

def closeRank : Entity → Nat
  | .pane _ => 3
  | .window _ => 4

theorem rankOf_of_opens {delta : SessionProxyMessage} {entity : Entity}
    (h : opens delta = some entity) : rankOf delta = openRank entity := by
  cases delta <;> cases h <;> rfl

theorem rankOf_of_closes {delta : SessionProxyMessage} {entity : Entity}
    (h : closes delta = some entity) : rankOf delta = closeRank entity := by
  cases delta <;> cases h <;> rfl

theorem rankOf_of_layoutPanes {delta : SessionProxyMessage} {paneId : PaneId}
    (h : paneId ∈ layoutPanes delta) : rankOf delta = 2 := by
  cases delta <;> first | rfl | cases h

/-- What a delta from `prev` to `next` may open, close and name: a named entity is the
one it closes, or one of `next` opened at a lower rank, or one of `prev` closed at a
higher rank. -/
structure Grounded (prev next : SessionModel) (delta : SessionProxyMessage) : Prop where
  opened : ∀ entity, opens delta = some entity → ¬ InModel prev entity ∧ InModel next entity
  closed : ∀ entity, closes delta = some entity → InModel prev entity ∧ ¬ InModel next entity
  named : ∀ entity ∈ names delta, closes delta = some entity ∨
    InModel next entity ∧ openRank entity < rankOf delta ∨
    InModel prev entity ∧ rankOf delta < closeRank entity
  laidOut : ∀ paneId ∈ layoutPanes delta, ∃ win ∈ next.windows.values, ∃ layout,
    delta = .layoutUpdated win.windowId layout ∧ win.layout = some layout

/-- Of two deltas in this order, the later has no lower rank, and they do not open, or
close, the same entity. -/
structure Ordered (delta later : SessionProxyMessage) : Prop where
  rank : rankOf delta ≤ rankOf later
  opens : ∀ entity, opens delta = some entity → opens later ≠ some entity
  closes : ∀ entity, closes delta = some entity → closes later ≠ some entity

theorem ordered_of_lt {delta later : SessionProxyMessage} (h : rankOf delta < rankOf later) :
    Ordered delta later := by
  refine ⟨h.le, fun entity hd hl => ?_, fun entity hd hl => ?_⟩
  · exact absurd (rankOf_of_opens hl) (by rw [← rankOf_of_opens hd]; exact h.ne')
  · exact absurd (rankOf_of_closes hl) (by rw [← rankOf_of_closes hd]; exact h.ne')

theorem ordered_of_middle {delta later : SessionProxyMessage} (hd : rankOf delta = 2)
    (hl : rankOf later = 2) : Ordered delta later := by
  refine ⟨by rw [hd, hl], fun entity h => ?_, fun entity h => ?_⟩
  · have hrank := (rankOf_of_opens h).symm.trans hd
    cases entity <;> cases hrank
  · have hrank := (rankOf_of_closes h).symm.trans hd
    cases entity <;> cases hrank

section Ranks
variable {prev next : SessionModel} {opts : DiffOptions}

theorem eq_of_ite {α : Type} {cond : Prop} [Decidable cond] {a b : α}
    (h : (if cond then some a else none) = some b) : cond ∧ b = a := by
  split at h
  · next hc => exact ⟨hc, (Option.some.inj h).symm⟩
  · cases h

theorem eq_of_ite_not {α : Type} {cond : Prop} [Decidable cond] {a b : α}
    (h : (if cond then none else some a) = some b) : ¬ cond ∧ b = a := by
  split at h
  · cases h
  · next hc => exact ⟨hc, (Option.some.inj h).symm⟩

theorem change_of_ite {cond : Prop} [Decidable cond] {message delta : SessionProxyMessage}
    {allowed : List Entity} (h : (if cond then some message else none) = some delta)
    (hrank : rankOf message = 2) (hlayout : layoutPanes message = [])
    (hnames : ∀ entity ∈ names message, entity ∈ allowed) :
    rankOf delta = 2 ∧ layoutPanes delta = [] ∧ ∀ entity ∈ names delta, entity ∈ allowed := by
  obtain ⟨-, rfl⟩ := eq_of_ite h
  exact ⟨hrank, hlayout, hnames⟩

/-! The deltas of each phase are grounded. -/

theorem grounded_added {delta : SessionProxyMessage}
    (h : delta ∈ next.windows.values.filterMap (windowAddedOf prev next opts)) :
    Grounded prev next delta ∧ rankOf delta = 0 := by
  obtain ⟨win, hmem, hwin⟩ := List.mem_filterMap.mp h
  obtain ⟨hnew, rfl⟩ := windowAddedOf_eq prev next opts hwin
  refine ⟨⟨?_, nofun, nofun, nofun⟩, rfl⟩
  rintro _ ⟨⟩
  exact ⟨by simp [InModel, hnew], KeyedMap.has_of_mem hmem⟩

theorem grounded_opened (hnext : Invariants next) {delta : SessionProxyMessage}
    (h : delta ∈ next.panes.values.filterMap (paneOpenedOf prev next opts)) :
    Grounded prev next delta ∧ rankOf delta = 1 := by
  obtain ⟨pane, hmem, hpane⟩ := List.mem_filterMap.mp h
  obtain ⟨hnew, rfl⟩ := eq_of_ite_not hpane
  refine ⟨⟨?_, nofun, ?_, nofun⟩, rfl⟩
  · rintro _ ⟨⟩
    exact ⟨hnew, KeyedMap.has_of_mem hmem⟩
  · intro entity hentity
    rw [List.mem_singleton.mp hentity]
    exact .inr (.inl ⟨hnext.pane_window pane hmem, Nat.zero_lt_one⟩)

theorem grounded_paneClosed (hprev : Invariants prev) {delta : SessionProxyMessage}
    (h : delta ∈ prev.panes.values.filterMap (paneClosedOf next opts)) :
    Grounded prev next delta ∧ rankOf delta = 3 := by
  obtain ⟨pane, hmem, hpane⟩ := List.mem_filterMap.mp h
  obtain ⟨hgone, rfl⟩ := eq_of_ite_not hpane
  refine ⟨⟨nofun, ?_, ?_, nofun⟩, rfl⟩
  · rintro _ ⟨⟩
    exact ⟨KeyedMap.has_of_mem hmem, hgone⟩
  · intro entity hentity
    rcases List.mem_pair.mp hentity with rfl | rfl
    · exact .inl rfl
    · exact .inr (.inr ⟨hprev.pane_window pane hmem, Nat.lt_succ_self 3⟩)

theorem grounded_windowClosed {delta : SessionProxyMessage}
    (h : delta ∈ prev.windows.values.filterMap (windowClosedOf next)) :
    Grounded prev next delta ∧ rankOf delta = 4 := by
  obtain ⟨win, hmem, hwin⟩ := List.mem_filterMap.mp h
  obtain ⟨hgone, rfl⟩ := eq_of_ite_not hwin
  refine ⟨⟨nofun, ?_, ?_, nofun⟩, rfl⟩
  · rintro _ ⟨⟩
    exact ⟨KeyedMap.has_of_mem hmem, hgone⟩
  · intro entity hentity
    rw [List.mem_singleton.mp hentity]
    exact .inl rfl

/-- A change that names only entities of `next`. -/
theorem grounded_of_names {delta : SessionProxyMessage} (hrank : rankOf delta = 2)
    (hnames : ∀ entity ∈ names delta, InModel next entity)
    (hlayout : ∀ paneId ∈ layoutPanes delta, ∃ win ∈ next.windows.values, ∃ layout,
      delta = .layoutUpdated win.windowId layout ∧ win.layout = some layout) :
    Grounded prev next delta ∧ rankOf delta = 2 := by
  refine ⟨⟨fun entity h => ?_, fun entity h => ?_, fun entity h => ?_, hlayout⟩, hrank⟩
  · have hopen := (rankOf_of_opens h).symm.trans hrank
    cases entity <;> cases hopen
  · have hclose := (rankOf_of_closes h).symm.trans hrank
    cases entity <;> cases hclose
  · refine .inr (.inl ⟨hnames entity h, ?_⟩)
    rw [hrank]
    cases entity with
    | pane _ => exact Nat.lt_succ_self 1
    | window _ => exact Nat.zero_lt_two

theorem grounded_kept_pane {message : Pane → Pane → Option SessionProxyMessage}
    (hmessage : ∀ prevPane pane delta, message prevPane pane = some delta →
      rankOf delta = 2 ∧ layoutPanes delta = [] ∧
      ∀ entity ∈ names delta, entity ∈ [.pane pane.paneId, .window pane.windowId])
    (hnext : Invariants next) {delta : SessionProxyMessage}
    (h : delta ∈ next.panes.values.filterMap (onKeptPane prev message)) :
    Grounded prev next delta ∧ rankOf delta = 2 := by
  obtain ⟨pane, hmem, hpane⟩ := List.mem_filterMap.mp h
  obtain ⟨prevPane, -, hdelta⟩ := Option.bind_eq_some_iff.mp hpane
  obtain ⟨hrank, hlayout, hnames⟩ := hmessage prevPane pane delta hdelta
  refine grounded_of_names hrank (fun entity hentity => ?_) (by simp [hlayout])
  rcases List.mem_pair.mp (hnames entity hentity) with rfl | rfl
  · exact KeyedMap.has_of_mem hmem
  · exact hnext.pane_window pane hmem

theorem grounded_kept_window {message : Window → Window → Option SessionProxyMessage}
    (hmessage : ∀ prevWin win delta, message prevWin win = some delta →
      rankOf delta = 2 ∧ layoutPanes delta = [] ∧
      ∀ entity ∈ names delta, entity ∈ [.window win.windowId])
    {delta : SessionProxyMessage}
    (h : delta ∈ next.windows.values.filterMap (onKeptWindow prev message)) :
    Grounded prev next delta ∧ rankOf delta = 2 := by
  obtain ⟨win, hmem, hwin⟩ := List.mem_filterMap.mp h
  obtain ⟨prevWin, -, hdelta⟩ := Option.bind_eq_some_iff.mp hwin
  obtain ⟨hrank, hlayout, hnames⟩ := hmessage prevWin win delta hdelta
  refine grounded_of_names hrank (fun entity hentity => ?_) (by simp [hlayout])
  rw [List.mem_singleton.mp (hnames entity hentity)]
  exact KeyedMap.has_of_mem hmem

theorem grounded_layout {delta : SessionProxyMessage}
    (h : delta ∈ next.windows.values.filterMap (layoutUpdatedOf prev)) :
    Grounded prev next delta ∧ rankOf delta = 2 := by
  obtain ⟨win, hmem, hwin⟩ := List.mem_filterMap.mp h
  simp only [layoutUpdatedOf] at hwin
  split at hwin
  · cases hwin
  · obtain ⟨layout, hlayout, rfl⟩ := Option.map_eq_some_iff.mp hwin
    refine grounded_of_names rfl (fun entity hentity => ?_)
      fun _ _ => ⟨win, hmem, layout, rfl, hlayout⟩
    rw [List.mem_singleton.mp hentity]
    exact KeyedMap.has_of_mem hmem

theorem grounded_session {delta : SessionProxyMessage} (h : delta ∈ sessionRenamed prev next) :
    Grounded prev next delta ∧ rankOf delta = 2 := by
  unfold sessionRenamed at h
  split at h
  · split at h
    · rw [List.mem_singleton.mp h]
      exact grounded_of_names rfl nofun nofun
    · cases h
  · cases h

theorem grounded_focus (hnext : Invariants next) {delta : SessionProxyMessage}
    (h : delta ∈ focusChanged prev next) : Grounded prev next delta ∧ rankOf delta = 2 := by
  rw [focusChanged_eq] at h
  split at h
  · rw [List.mem_singleton.mp h]
    refine grounded_of_names rfl (fun entity hentity => ?_) nofun
    simp only [names, List.mem_append, List.mem_map, Option.mem_toList] at hentity
    rcases hentity with ⟨paneId, hpane, rfl⟩ | ⟨windowId, hwin, rfl⟩
    · exact hnext.focus.has_pane hpane
    · exact hnext.focus.has_window hwin
  · cases h

/-- The changes between the openings and the closings. -/
def changes (prev next : SessionModel) (opts : DiffOptions) : List SessionProxyMessage :=
  next.windows.values.filterMap (layoutUpdatedOf prev) ++
  next.panes.values.filterMap (onKeptPane prev paneMovedOf) ++
  next.panes.values.filterMap (onKeptPane prev paneResizedOf) ++
  next.panes.values.filterMap (onKeptPane prev paneModeChangedOf) ++
  next.panes.values.filterMap (onKeptPane prev paneLabelChangedOf) ++
  next.panes.values.filterMap (onKeptPane prev (panePolicyChangedOf opts)) ++
  next.panes.values.filterMap (onKeptPane prev paneDeadChangedOf) ++
  next.panes.values.filterMap (onKeptPane prev paneTitleChangedOf) ++
  next.windows.values.filterMap (onKeptWindow prev windowRenamedOf) ++
  next.windows.values.filterMap (onKeptWindow prev windowSyncChangedOf) ++
  next.windows.values.filterMap (onKeptWindow prev windowMonitorActivityChangedOf) ++
  next.windows.values.filterMap (onKeptWindow prev windowMonitorSilenceChangedOf) ++
  sessionRenamed prev next ++
  focusChanged prev next

theorem diffModel_eq :
    diffModel prev next opts =
      next.windows.values.filterMap (windowAddedOf prev next opts) ++
      (next.panes.values.filterMap (paneOpenedOf prev next opts) ++
      (changes prev next opts ++
      (prev.panes.values.filterMap (paneClosedOf next opts) ++
      prev.windows.values.filterMap (windowClosedOf next)))) := by
  simp only [diffModel, changes, List.append_assoc]

theorem grounded_change (hnext : Invariants next) {delta : SessionProxyMessage}
    (h : delta ∈ changes prev next opts) : Grounded prev next delta ∧ rankOf delta = 2 := by
  simp only [changes, List.mem_append] at h
  rcases h with (((((((((((((h | h) | h) | h) | h) | h) | h) | h) | h) | h) | h) | h) | h) | h)
  · exact grounded_layout h
  · exact grounded_kept_pane (fun _ _ _ h => change_of_ite h rfl rfl (by simp [names])) hnext h
  · exact grounded_kept_pane (fun _ _ _ h => change_of_ite h rfl rfl (by simp [names])) hnext h
  · exact grounded_kept_pane (fun _ _ _ h => change_of_ite h rfl rfl (by simp [names])) hnext h
  · exact grounded_kept_pane (fun _ _ _ h => change_of_ite h rfl rfl (by simp [names])) hnext h
  · exact grounded_kept_pane (fun _ _ _ h => change_of_ite h rfl rfl (by simp [names])) hnext h
  · exact grounded_kept_pane (fun _ _ _ h => change_of_ite h rfl rfl (by simp [names])) hnext h
  · exact grounded_kept_pane (fun _ _ _ h => change_of_ite h rfl rfl (by simp [names])) hnext h
  · exact grounded_kept_window (fun _ _ _ h => change_of_ite h rfl rfl (by simp [names])) h
  · exact grounded_kept_window (fun _ _ _ h => change_of_ite h rfl rfl (by simp [names])) h
  · exact grounded_kept_window (fun _ _ _ h => change_of_ite h rfl rfl (by simp [names])) h
  · exact grounded_kept_window (fun _ _ _ h => change_of_ite h rfl rfl (by simp [names])) h
  · exact grounded_session h
  · exact grounded_focus hnext h

theorem grounded_diffModel (hprev : Invariants prev) (hnext : Invariants next)
    {delta : SessionProxyMessage} (h : delta ∈ diffModel prev next opts) :
    Grounded prev next delta := by
  rw [diffModel_eq] at h
  simp only [List.mem_append] at h
  rcases h with h | h | h | h | h
  · exact (grounded_added h).1
  · exact (grounded_opened hnext h).1
  · exact (grounded_change hnext h).1
  · exact (grounded_paneClosed hprev h).1
  · exact (grounded_windowClosed h).1

/-- Two deltas of one phase open, or close, entities with different keys. -/
theorem pairwise_phase {α κ : Type} {key : α → κ} (m : KeyedMap key)
    {phase : α → Option SessionProxyMessage} (entityOf : κ → Entity) (rank : Nat)
    (hinj : ∀ k k', entityOf k = entityOf k' → k = k')
    (hphase : ∀ a delta, phase a = some delta → rankOf delta = rank ∧
      (∀ entity, opens delta = some entity → entity = entityOf (key a)) ∧
      ∀ entity, closes delta = some entity → entity = entityOf (key a)) :
    (m.values.filterMap phase).Pairwise Ordered := by
  rw [List.pairwise_filterMap]
  refine (List.pairwise_map.mp m.nodup).imp fun {a b} hne => ?_
  intro delta hdelta later hlater
  obtain ⟨hrank, hopens, hcloses⟩ := hphase a delta hdelta
  obtain ⟨hrank', hopens', hcloses'⟩ := hphase b later hlater
  refine ⟨by rw [hrank, hrank'], fun entity hd hl => hne (hinj _ _ ?_),
    fun entity hd hl => hne (hinj _ _ ?_)⟩
  · rw [← hopens entity hd, ← hopens' entity hl]
  · rw [← hcloses entity hd, ← hcloses' entity hl]

/-- The ranks of the deltas never go down. -/
theorem diffModel_ranks (hprev : Invariants prev) (hnext : Invariants next) :
    (diffModel prev next opts).Pairwise Ordered := by
  have hadded : ∀ d ∈ next.windows.values.filterMap (windowAddedOf prev next opts),
      rankOf d = 0 := fun d hd => (grounded_added hd).2
  have hopened : ∀ d ∈ next.panes.values.filterMap (paneOpenedOf prev next opts),
      rankOf d = 1 := fun d hd => (grounded_opened hnext hd).2
  have hchanged : ∀ d ∈ changes prev next opts, rankOf d = 2 :=
    fun d hd => (grounded_change hnext hd).2
  have hpaneClosed : ∀ d ∈ prev.panes.values.filterMap (paneClosedOf next opts), rankOf d = 3 :=
    fun d hd => (grounded_paneClosed hprev hd).2
  have hwindowClosed : ∀ d ∈ prev.windows.values.filterMap (windowClosedOf next), rankOf d = 4 :=
    fun d hd => (grounded_windowClosed hd).2
  rw [diffModel_eq]
  simp only [List.pairwise_append, List.mem_append]
  refine ⟨?_, ⟨?_, ⟨?_, ⟨?_, ?_, ?_⟩, ?_⟩, ?_⟩, ?_⟩
  · refine pairwise_phase next.windows .window 0 (by simp) fun win delta h => ?_
    obtain ⟨-, rfl⟩ := eq_of_ite_not h
    exact ⟨rfl, by rintro _ ⟨⟩; rfl, nofun⟩
  · refine pairwise_phase next.panes .pane 1 (by simp) fun pane delta h => ?_
    obtain ⟨-, rfl⟩ := eq_of_ite_not h
    exact ⟨rfl, by rintro _ ⟨⟩; rfl, nofun⟩
  · exact List.pairwise_of_forall_mem_list fun d hd l hl =>
      ordered_of_middle (hchanged d hd) (hchanged l hl)
  · refine pairwise_phase prev.panes .pane 3 (by simp) fun pane delta h => ?_
    obtain ⟨-, rfl⟩ := eq_of_ite_not h
    exact ⟨rfl, nofun, by rintro _ ⟨⟩; rfl⟩
  · refine pairwise_phase prev.windows .window 4 (by simp) fun win delta h => ?_
    obtain ⟨-, rfl⟩ := eq_of_ite_not h
    exact ⟨rfl, nofun, by rintro _ ⟨⟩; rfl⟩
  -- across phases the rank goes up
  · intro d hd l hl
    exact ordered_of_lt (by rw [hpaneClosed d hd, hwindowClosed l hl]; decide)
  · rintro d hd l (hl | hl)
    · exact ordered_of_lt (by rw [hchanged d hd, hpaneClosed l hl]; decide)
    · exact ordered_of_lt (by rw [hchanged d hd, hwindowClosed l hl]; decide)
  · rintro d hd l (hl | hl | hl)
    · exact ordered_of_lt (by rw [hopened d hd, hchanged l hl]; decide)
    · exact ordered_of_lt (by rw [hopened d hd, hpaneClosed l hl]; decide)
    · exact ordered_of_lt (by rw [hopened d hd, hwindowClosed l hl]; decide)
  · rintro d hd l (hl | hl | hl | hl)
    · exact ordered_of_lt (by rw [hadded d hd, hopened l hl]; decide)
    · exact ordered_of_lt (by rw [hadded d hd, hchanged l hl]; decide)
    · exact ordered_of_lt (by rw [hadded d hd, hpaneClosed l hl]; decide)
    · exact ordered_of_lt (by rw [hadded d hd, hwindowClosed l hl]; decide)

/-- Every entity that is new in `next` is opened by some delta. -/
theorem opened_of_new {entity : Entity} (hnew : ¬ InModel prev entity)
    (hnext : InModel next entity) :
    ∃ delta ∈ diffModel prev next opts, opens delta = some entity := by
  rw [diffModel_eq]
  simp only [List.mem_append, List.mem_filterMap]
  cases entity with
  | pane paneId =>
    obtain ⟨pane, hmem, rfl⟩ := KeyedMap.has_iff_mem.mp hnext
    exact ⟨_, .inr (.inl ⟨pane, hmem, if_neg hnew⟩), rfl⟩
  | window windowId =>
    obtain ⟨win, hmem, rfl⟩ := KeyedMap.has_iff_mem.mp hnext
    exact ⟨_, .inl ⟨win, hmem, if_neg hnew⟩, rfl⟩

end Ranks

/-! ## Every prefix is safe -/

/-- Referential safety of a list of deltas applied to a client's model. `Consistent`
says of which layouts the leaves are promised. -/
structure OrderSafe (model : ClientModel) (deltas : List SessionProxyMessage)
    (Consistent : WindowId → Prop) : Prop where
  /-- A delta names live entities only. -/
  named_live : ∀ before delta after, deltas = before ++ delta :: after →
    ∀ entity ∈ names delta, Live (applyDeltas model before) entity
  /-- The leaves of a layout are live panes. -/
  layout_live : ∀ before windowId layout after,
    deltas = before ++ .layoutUpdated windowId layout :: after → Consistent windowId →
      ∀ paneId ∈ collectLayoutPaneIds layout.root, Live (applyDeltas model before) (.pane paneId)
  /-- What is opened is not there yet. -/
  opened_new : ∀ before delta after, deltas = before ++ delta :: after →
    ∀ entity, opens delta = some entity → ¬ Live (applyDeltas model before) entity
  /-- After a close nothing names, lays out or opens the closed entity. -/
  closed_unnamed : ∀ before delta after, deltas = before ++ delta :: after →
    ∀ entity, closes delta = some entity → ∀ later ∈ after,
      entity ∉ names later ∧ opens later ≠ some entity ∧
      ∀ paneId ∈ layoutPanes later, entity ≠ .pane paneId
  /-- Nothing is opened twice. -/
  opened_once : deltas.Pairwise fun delta later =>
    ∀ entity, opens delta = some entity → opens later ≠ some entity
  /-- Nothing is closed twice. -/
  closed_once : deltas.Pairwise fun delta later =>
    ∀ entity, closes delta = some entity → closes later ≠ some entity
  /-- No live pane is in a window that was closed. -/
  no_orphan : ∀ before after, deltas = before ++ after → ∀ delta ∈ before, ∀ windowId,
    closes delta = some (.window windowId) →
      ∀ pane ∈ (applyDeltas model before).panes.values, pane.windowId ≠ windowId

section Safe
variable {prev next : SessionModel} {opts : DiffOptions} {snapshotOpts : ProjectSnapshotOpts}

/-- What is live before a delta: everything of `next` that is opened at a lower rank, and
everything of `prev` that is not closed yet. -/
theorem live_before (hprev : Invariants prev) (hnext : Invariants next)
    {before after : List SessionProxyMessage} {delta : SessionProxyMessage}
    (hsplit : diffModel prev next opts = before ++ delta :: after) {entity : Entity}
    (h : closes delta = some entity ∨ InModel next entity ∧ openRank entity < rankOf delta ∨
      InModel prev entity ∧ rankOf delta < closeRank entity) :
    Live (applyDeltas (replica prev snapshotOpts) before) entity := by
  have hranks := hsplit ▸ @diffModel_ranks prev next opts hprev hnext
  rw [List.pairwise_append, List.pairwise_cons] at hranks
  obtain ⟨-, ⟨hafter, -⟩, hacross⟩ := hranks
  have hgrounded : ∀ d ∈ before ++ delta :: after, Grounded prev next d := fun d hd =>
    @grounded_diffModel prev next opts hprev hnext d (hsplit ▸ hd)
  have hbefore : ∀ d ∈ before, Ordered d delta := fun d hd => hacross d hd delta List.mem_cons_self
  rcases h with hcloses | ⟨hin, hrank⟩ | ⟨hin, hrank⟩
  · refine live_of_not_closed (fun d hd hd' => (hbefore d hd).closes entity hd' hcloses) ?_
    exact live_replica.mpr ((hgrounded delta (by simp)).closed entity hcloses).1
  · have hopen : ∀ d ∈ before, closes d ≠ some entity := fun d hd hd' =>
      ((hgrounded d (by simp [hd])).closed entity hd').2 hin
    by_cases hold : InModel prev entity
    · exact live_of_not_closed hopen (live_replica.mpr hold)
    · obtain ⟨opener, hmem, hopens⟩ := @opened_of_new prev next opts entity hold hin
      refine live_of_opened hopen ⟨opener, ?_, hopens⟩
      -- the opening delta has a lower rank, so it is not `delta` and not after it
      rw [hsplit] at hmem
      rw [← rankOf_of_opens hopens] at hrank
      rcases List.mem_append.mp hmem with hmem | hmem
      · exact hmem
      · rcases List.mem_cons.mp hmem with rfl | hmem
        · exact absurd hrank (lt_irrefl _)
        · exact absurd hrank (not_lt.mpr (hafter opener hmem).rank)
  · refine live_of_not_closed (fun d hd hd' => ?_) (live_replica.mpr hin)
    have hle := (hbefore d hd).rank
    rw [rankOf_of_closes hd'] at hle
    exact absurd hrank (not_lt.mpr hle)

theorem changedPane_of_last {delta : SessionProxyMessage} (h : 4 ≤ rankOf delta) :
    changedPane delta = none := by
  cases delta <;> first | rfl | (simp [rankOf] at h)

/-- After all deltas a mirrored pane is in the window that `next` has for it. -/
theorem pane_window_after (hclient : opts.clientId = snapshotOpts.clientId) {k : PaneId}
    {c : ClientPane}
    (h : (applyDeltas (replica prev snapshotOpts) (diffModel prev next opts)).panes.get? k =
      some c) :
    ∃ pane ∈ next.panes.values, pane.windowId = c.windowId := by
  rw [applyDeltas_pane, replica_pane, ← hclient] at h
  cases hnext : next.panes.get? k with
  | none =>
    rw [absent_pane hnext] at h
    cases h
  | some pane =>
    refine ⟨pane, KeyedMap.mem_of_get? hnext, ?_⟩
    cases hprev : prev.panes.get? k with
    | none =>
      rw [hprev, Option.map_none, opened_pane hprev hnext] at h
      cases h
      rfl
    | some prevPane =>
      obtain ⟨mode, hslot⟩ := @kept_pane prev next opts k prevPane pane hprev hnext
      rw [hprev, Option.map_some, hslot] at h
      cases h
      rfl

/-- Every prefix of the deltas is referentially safe; the leaves of a layout are promised
for the windows whose layout and pane list agree. -/
theorem delta_order_safe (hprev : Invariants prev) (hnext : Invariants next) :
    OrderSafe (replica prev snapshotOpts) (deltasFor prev next snapshotOpts opts) fun windowId =>
      ∀ win ∈ next.windows.values, win.windowId = windowId → LayoutConsistent win := by
  unfold deltasFor
  generalize hopts : { opts with clientId := snapshotOpts.clientId } = opts'
  have hclient : opts'.clientId = snapshotOpts.clientId := by rw [← hopts]
  have hranks := @diffModel_ranks prev next opts' hprev hnext
  have hgrounded : ∀ d ∈ diffModel prev next opts', Grounded prev next d :=
    fun _ hd => grounded_diffModel hprev hnext hd
  have hafter : ∀ {before delta after}, diffModel prev next opts' = before ++ delta :: after →
      ∀ later ∈ after, Ordered delta later := by
    intro before delta after hsplit later hlater
    rw [hsplit, List.pairwise_append, List.pairwise_cons] at hranks
    exact hranks.2.1.1 later hlater
  refine
    { named_live := ?_, layout_live := ?_, opened_new := ?_, closed_unnamed := ?_
      opened_once := hranks.imp fun hordered => hordered.opens
      closed_once := hranks.imp fun hordered => hordered.closes
      no_orphan := ?_ }
  · intro before delta after hsplit entity hentity
    exact live_before hprev hnext hsplit ((hgrounded delta (by simp [hsplit])).named entity hentity)
  · intro before windowId layout after hsplit hconsistent paneId hleaf
    obtain ⟨win, hmem, layout', hdelta, hlayout⟩ :=
      (hgrounded (.layoutUpdated windowId layout) (by simp [hsplit])).laidOut paneId hleaf
    cases hdelta
    have hpane := (hconsistent win hmem rfl layout hlayout paneId).mp hleaf
    refine live_before hprev hnext hsplit (.inr (.inl ⟨?_, Nat.lt_succ_self 1⟩))
    exact hnext.window_panes win hmem paneId hpane
  · intro before delta after hsplit entity hopens
    rw [hsplit, List.pairwise_append] at hranks
    refine not_live_of_not_opened (fun d hd hd' => ?_) fun hlive => ?_
    · exact (hranks.2.2 d hd delta List.mem_cons_self).opens entity hd' hopens
    · exact ((hgrounded delta (by simp [hsplit])).opened entity hopens).1 (live_replica.mp hlive)
  · intro before delta after hsplit entity hcloses later hlater
    have hordered := hafter hsplit later hlater
    have hgone := ((hgrounded delta (by simp [hsplit])).closed entity hcloses).2
    have hlaterGrounded := hgrounded later (by simp [hsplit, hlater])
    have hrank : closeRank entity ≤ rankOf later := rankOf_of_closes hcloses ▸ hordered.rank
    refine ⟨fun hnamed => ?_, fun hopens => ?_, fun paneId hleaf hpane => ?_⟩
    · rcases hlaterGrounded.named entity hnamed with hcloses' | ⟨hin, -⟩ | ⟨-, hlt⟩
      · exact hordered.closes entity hcloses hcloses'
      · exact hgone hin
      · exact absurd hlt (not_lt.mpr hrank)
    · exact hgone (hlaterGrounded.opened entity hopens).2
    · rw [hpane, rankOf_of_layoutPanes hleaf] at hrank
      exact absurd hrank (by simp [closeRank])
  · intro before after hsplit delta hdelta windowId hcloses pane hpane hwindow
    -- only `window.closed` follows, so the panes are those after all deltas
    have hlast : ∀ later ∈ after, changedPane later ≠ some pane.paneId := by
      intro later hlater
      rw [hsplit, List.pairwise_append] at hranks
      have hrank := (hranks.2.2 delta hdelta later hlater).rank
      rw [rankOf_of_closes hcloses] at hrank
      rw [changedPane_of_last hrank]
      exact nofun
    have hfinal : (applyDeltas (replica prev snapshotOpts) (diffModel prev next opts')).panes.get?
        pane.paneId = some pane := by
      rw [hsplit, applyDeltas_append, applyDeltas_pane, foldl_paneSlot_of_ne hlast]
      exact KeyedMap.get?_self hpane
    obtain ⟨nextPane, hmem, hsame⟩ := pane_window_after hclient hfinal
    have hgone := ((hgrounded delta (by simp [hsplit, hdelta])).closed _ hcloses).2
    refine hgone ?_
    rw [← hwindow, ← hsame]
    exact hnext.pane_window nextPane hmem

/-- Breaking a pane out into a new window is announced in a safe order. -/
theorem delta_order_safe_break_pane :
    OrderSafe (replica twoPanes {}) (deltasFor twoPanes brokenOut {} {}) fun windowId =>
      ∀ win ∈ brokenOut.windows.values, win.windowId = windowId → LayoutConsistent win :=
  delta_order_safe (checkInvariants_eq_nil.mp (by decide)) (checkInvariants_eq_nil.mp (by decide))

/-- The layout of the window names a pane that the pane listing did not have. -/
def layoutAhead : SessionModel :=
  { twoPanes with
    windows := ⟨[{ shellWindow "w0" "bash" [⟨"p0"⟩, ⟨"p1"⟩] with
      layout := some ⟨80, 24, .pane ⟨"p2"⟩ ⟨0, 0, 80, 24⟩⟩ }], by decide⟩ }

theorem delta_order_unsafe_layout_ahead :
    checkInvariants twoPanes false = [] ∧ checkInvariants layoutAhead false = [] ∧
      ¬ OrderSafe (replica twoPanes {}) (deltasFor twoPanes layoutAhead {} {}) fun _ => True := by
  refine ⟨by decide, by decide, fun h => ?_⟩
  have hlive := h.layout_live [] ⟨"w0"⟩ ⟨80, 24, .pane ⟨"p2"⟩ ⟨0, 0, 80, 24⟩⟩ [] (by decide) trivial
    ⟨"p2"⟩ (by decide)
  have hpane : (replica twoPanes {}).panes.has ⟨"p2"⟩ = true := hlive
  exact absurd hpane (by decide)

end Safe

end TmuxccDriver.Client
