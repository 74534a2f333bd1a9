import TmuxccDriver.Runtime.Subscriptions

/-!
# A model with all that tmux tells

When the model also has the titles and the synchronize-panes of tmux. A report patches the model at
once, and a requery that listed before the report undoes it, with a clean engine.

Results:
1. `Kept.step`: each event keeps the invariant, if no commit undoes a report.
2. `clean_model_is_whole`: then a clean and idle engine has all that tmux has.
3. `report_undone`: otherwise it may not.
-/

namespace TmuxccDriver.Runtime.CleanModel
open TmuxccDriver.Lib TmuxccDriver.State TmuxccDriver.Runtime.ModelChanges
open TmuxccDriver.Runtime.Dispatch
open TmuxccDriver.Parser (CommandResult Error Outcome)
open TmuxccDriver.Parser.Notifications (NotificationEvent)

/-! ## What tmux says -/

/-- The rows are about what they tell a value of. -/
theorem mem_watchesOf {windowRows : List WindowsReplyRow} {paneRows : List PanesReplyRow}
    {watch : Watch} :
    watch ∈ watchesOf windowRows paneRows ↔ watch.told windowRows paneRows ≠ [] := by
  unfold Watch.told watchesOf
  cases watch with
  | sync id =>
    have hpanes : paneRows.filterMap (Watch.sync id).inPanesRow = [] :=
      List.filterMap_eq_nil_iff.mpr fun _ _ => rfl
    rw [hpanes, List.append_nil, Ne, List.filterMap_eq_nil_iff, List.mem_append]
    simp [Watch.inWindowsRow]
  | title id =>
    have hwindows : windowRows.filterMap (Watch.title id).inWindowsRow = [] :=
      List.filterMap_eq_nil_iff.mpr fun _ _ => rfl
    rw [hwindows, List.nil_append, Ne, List.filterMap_eq_nil_iff, List.mem_append]
    simp [Watch.inPanesRow]

/-- Rows with the same topology are about the same windows and panes. -/
theorem watchesOf_topology {windowRows windowRows' : List WindowsReplyRow}
    {paneRows paneRows' : List PanesReplyRow}
    (hwindows : windowRows.map (·.topology) = windowRows'.map (·.topology))
    (hpanes : paneRows.map (·.topology) = paneRows'.map (·.topology)) :
    watchesOf windowRows paneRows = watchesOf windowRows' paneRows' := by
  have hwindowIds : ∀ rows : List WindowsReplyRow,
      rows.map (fun row => Watch.sync (mintWindowId row.tmuxWindowId)) =
        (rows.map (·.topology)).map fun row => Watch.sync (mintWindowId row.tmuxWindowId) :=
    fun rows => by rw [List.map_map]; rfl
  have hpaneIds : ∀ rows : List PanesReplyRow,
      rows.map (fun row => Watch.title (mintPaneId row.tmuxPaneId)) =
        (rows.map (·.topology)).map fun row => Watch.title (mintPaneId row.tmuxPaneId) :=
    fun rows => by rw [List.map_map]; rfl
  unfold watchesOf
  rw [hwindowIds, hwindowIds windowRows', hpaneIds, hpaneIds paneRows', hwindows, hpanes]

/-- What an event reports. -/
def reportOf : DispatchedEvent → Option (Watch × Reading)
  | .parsed event => report event
  | .internal _ => none

def Watch.reportedBy (watch : Watch) (event : DispatchedEvent) : Bool :=
  (reportOf event).any (·.1 = watch)

/-- An event that tells of a change of the value, or of everything. -/
def Watch.news (watch : Watch) (event : DispatchedEvent) : Bool :=
  event.isTopology || watch.reportedBy event

theorem report_of_topology {event : NotificationEvent} (h : isTopologyEvent event = true) :
    report event = none := by
  unfold report
  rcases hpatch : watchPatch event with _ | patch
  · rfl
  · cases h.symm.trans (not_topology_of_watchPatch hpatch)

namespace Watched

variable (x : Watched)

/-- tmux has this value, if it has the window or the pane. -/
def Shows (watch : Watch) (value : Reading) : Prop := ∀ u ∈ x.told watch, u = value

/-- An answer that is no error has the value that tmux has now. -/
def Tells (decode : Bytes → String) (watch : Watch) (listing : Listing) (result : CommandResult) :
    Prop :=
  result.ok = true →
    match listing with
    | .windows => ∀ rows, parseWindows decode result.body = .ok rows →
      ∀ value ∈ rows.filterMap watch.inWindowsRow, x.Shows watch value
    | .panes => ∀ rows, parsePanes decode result.body = .ok rows →
      ∀ value ∈ rows.filterMap watch.inPanesRow, x.Shows watch value

/-- tmux changed the value, or everything, and has written nothing of it. -/
def unsaid (watch : Watch) : Bool := x.world.unannounced || watch ∈ x.unreported

/-- One value is watched. An answer that a requery holds may be older than a report that was
applied since. -/
def view (decode : Bytes → String) (watch : Watch) : View where
  unsaid := x.unsaid watch
  news := watch.news
  tells := x.Tells decode watch
  holds listing result := x.Tells decode watch listing result ∨
    watch.listing = listing ∧ ∃ value, (watch, value) ∈ x.applied ∧ x.Shows watch value
  agrees model := ∀ value, watch.get model = some value → x.Shows watch value

end Watched

section Watched

variable {decode : Bytes → String} {x x' : Watched} {watch : Watch}

/-- The other listing does not have the value. -/
theorem tells_of_ne {listing : Listing} {result : CommandResult} (h : watch.listing ≠ listing) :
    x.Tells decode watch listing result := by
  intro _
  cases listing with
  | windows =>
    intro rows _ value hvalue
    obtain ⟨row, -, hsome⟩ := List.mem_filterMap.mp hvalue
    cases watch with
    | sync id => exact absurd rfl h
    | title id => cases hsome
  | panes =>
    intro rows _ value hvalue
    obtain ⟨row, -, hsome⟩ := List.mem_filterMap.mp hvalue
    cases watch with
    | sync id => cases hsome
    | title id => exact absurd rfl h

theorem shows_of_mem (h : Consistent x.world.windowRows x.world.paneRows) {value : Reading}
    (hvalue : value ∈ x.told watch) : x.Shows watch value :=
  fun u hu => h watch (mem_watchesOf.mpr (List.ne_nil_of_mem hvalue)) u hu value hvalue

theorem tells_of_answers (h : Consistent x.world.windowRows x.world.paneRows) {listing : Listing}
    {result : CommandResult} (htruly : x.world.answersTruly decode listing result = true) :
    x.Tells decode watch listing result := by
  intro hok
  unfold World.answersTruly at htruly
  rw [hok, Bool.not_true, Bool.false_or] at htruly
  cases listing with
  | windows =>
    intro rows hrows value hvalue
    dsimp only at htruly
    rw [hrows] at htruly
    obtain rfl := of_decide_eq_true htruly
    exact shows_of_mem h (List.mem_append_left _ hvalue)
  | panes =>
    intro rows hrows value hvalue
    dsimp only at htruly
    rw [hrows] at htruly
    obtain rfl := of_decide_eq_true htruly
    exact shows_of_mem h (List.mem_append_right _ hvalue)

/-- Without news of it, a value that is told stays. -/
theorem shows_of_unchanged {windowRows : List WindowsReplyRow} {paneRows : List PanesReplyRow}
    (hrestructured : x.restructured windowRows paneRows = false)
    (hchanged : watch ∉ x.changed windowRows paneRows) {value : Reading} (h : x.Shows watch value) :
    ∀ u ∈ watch.told windowRows paneRows, u = value := by
  intro u hu
  simp only [Watched.restructured, Bool.or_eq_false_iff, decide_eq_false_iff_not, not_not]
    at hrestructured
  have hwatch := mem_watchesOf.mpr (List.ne_nil_of_mem hu)
  have hold := hwatch
  rw [watchesOf_topology hrestructured.1 hrestructured.2] at hold
  obtain ⟨a, ha⟩ := List.exists_mem_of_ne_nil _ (mem_watchesOf.mp hold)
  by_contra hne
  refine hchanged (List.mem_filter.mpr ⟨hwatch, List.any_eq_true.mpr ⟨a, ha, ?_⟩⟩)
  refine List.any_eq_true.mpr ⟨u, hu, ?_⟩
  rw [h a ha]
  exact decide_eq_true hne

/-- What tmux says of it is what a listing without news says. -/
theorem Watched.Tells.imp {listing : Listing} {result : CommandResult}
    (himp : ∀ value, x.Shows watch value → x'.Shows watch value)
    (h : x.Tells decode watch listing result) : x'.Tells decode watch listing result := by
  intro hok
  have htells := h hok
  cases listing with
  | windows => exact fun rows hrows value hvalue => himp value (htells rows hrows value hvalue)
  | panes => exact fun rows hrows value hvalue => himp value (htells rows hrows value hvalue)

/-- A commit that undoes no report agrees with tmux. -/
theorem commits_of_calm {cycle : Cycle} (hflight : x.world.engine.flight = .cycling cycle)
    (hcalm : ∀ rows ∈ committing decode x.world.engine, ∀ reported ∈ x.applied,
      ∀ value ∈ reported.1.told rows.1 rows.2, value = reported.2) :
    Commits decode (x.view decode watch) x.world cycle := by
  intro winResult paneResult windowRows paneRows hwin hwinOk hwindows hpane hpaneOk hpanes hclean
    hguard _ hholdsWindows hholdsPanes value hvalue
  rw [Watch.get_carryForwardOverlays] at hvalue
  have hcommitting : committing decode x.world.engine = some (windowRows, paneRows) := by
    simp [committing, hflight, hwin, hpane, hwinOk, hpaneOk, hclean, hwindows, hpanes, hguard]
  have htold := told_of_get hvalue
  have happlied : ∀ {listing : Listing}, watch.listing = listing ∧
      (∃ value, (watch, value) ∈ x.applied ∧ x.Shows watch value) → x.Shows watch value := by
    rintro listing ⟨-, reported, hmem, hshows⟩
    have hsame := hcalm _ hcommitting _ hmem value htold
    exact hsame ▸ hshows
  -- the row is in the listing that has the value: it is current, or the last report is
  rcases List.mem_append.mp htold with hrow | hrow
  · rcases hholdsWindows with htells | hnewer
    · exact htells hwinOk windowRows hwindows value hrow
    · exact happlied hnewer
  · rcases hholdsPanes with htells | hnewer
    · exact htells hpaneOk paneRows hpanes value hrow
    · exact happlied hnewer

end Watched

/-! ## Reports on their way -/

/-- A report that is not applied yet is true of tmux, unless news comes after it. -/
def Timely (unsaid : Bool) (shown : Reading → Prop) (watch : Watch) : List DispatchedEvent → Prop
  | [] => True
  | event :: events =>
    (∀ value, reportOf event = some (watch, value) →
      shown value ∨ unsaid = true ∨ events.any watch.news = true) ∧ Timely unsaid shown watch events

def Item.dispatched : Item → Option DispatchedEvent
  | .notification event => some (.parsed event)
  | .answer _ _ => none

/-- What is buffered or in the stream, in its order. -/
def World.queued (w : World) : List DispatchedEvent :=
  w.bootstrapBuffer ++ w.stream.filterMap (·.dispatched)

section Timely

variable {v : View} {unsaid unsaid' : Bool} {shown shown' : Reading → Prop} {watch : Watch}
  {events : List DispatchedEvent} {event : DispatchedEvent} {w : World}

theorem Timely.imp (h : Timely unsaid shown watch events) (hunsaid : unsaid = true → unsaid' = true)
    (hshows : ∀ value, shown value → shown' value ∨ unsaid' = true) :
    Timely unsaid' shown' watch events := by
  induction events with
  | nil => trivial
  | cons event events ih =>
    refine ⟨fun value hreport => ?_, ih h.2⟩
    rcases h.1 value hreport with htrue | hchanged | hafter
    · exact (hshows value htrue).imp_right .inl
    · exact .inr (.inl (hunsaid hchanged))
    · exact .inr (.inr hafter)

/-- One more event is written. -/
theorem Timely.snoc (h : Timely unsaid shown watch events)
    (hunsaid : unsaid = true → unsaid' = true ∨ watch.news event = true)
    (hevent : ∀ value, reportOf event = some (watch, value) → shown value) :
    Timely unsaid' shown watch (events ++ [event]) := by
  induction events with
  | nil => exact ⟨fun value hreport => .inl (hevent value hreport), trivial⟩
  | cons first events ih =>
    refine ⟨fun value hreport => (h.1 value hreport).imp_right ?_, ih h.2⟩
    show _ → unsaid' = true ∨ (events ++ [event]).any watch.news = true
    rw [List.any_append]
    -- the event may be the news that was not written yet
    rintro (hchanged | hafter)
    · rcases hunsaid hchanged with hstill | htold
      · exact .inl hstill
      · exact .inr (by simp [htold])
    · exact .inr (by simp [hafter])

/-- An event that is no report comes between. -/
theorem Timely.insert {front back : List DispatchedEvent}
    (h : Timely unsaid shown watch (front ++ back)) (hevent : reportOf event = none) :
    Timely unsaid shown watch (front ++ event :: back) := by
  induction front with
  | nil => exact ⟨fun value hreport => (by cases hevent.symm.trans hreport), h⟩
  | cons first front ih =>
    refine ⟨fun value hreport => (h.1 value hreport).imp_right (Or.imp_right fun hafter => ?_),
      ih h.2⟩
    have hafter : (front ++ back).any watch.news = true := hafter
    rw [List.any_append, Bool.or_eq_true] at hafter
    show (front ++ event :: back).any watch.news = true
    rw [List.any_append, List.any_cons, Bool.or_eq_true, Bool.or_eq_true]
    exact hafter.imp_right .inr

/-- News in the queue is news that comes. -/
theorem coming_of_queued (h : v.unsaid = true ∨ w.queued.any v.news = true) :
    v.coming w = true := by
  unfold View.coming
  rcases h with hunsaid | hqueued
  · rw [hunsaid]
    rfl
  · obtain ⟨event, hmem, hnews⟩ := List.any_eq_true.mp hqueued
    rcases List.mem_append.mp hmem with hbuffer | hstream
    · have hany : w.bootstrapBuffer.any v.news = true :=
        List.any_eq_true.mpr ⟨event, hbuffer, hnews⟩
      simp [hany]
    · obtain ⟨item, hitem, hsome⟩ := List.mem_filterMap.mp hstream
      have hany : w.stream.any v.inItem = true := by
        refine List.any_eq_true.mpr ⟨item, hitem, ?_⟩
        cases item with
        | notification event' =>
          cases hsome
          exact hnews
        | answer request result => cases hsome
      simp [hany]

end Timely

/-! ## Dispatch -/

section Dispatch

variable {decode : Bytes → String} {v v' : View} {w : World} {watch : Watch}

/-- A patch that leaves the value alone. -/
theorem Fresh.unwatched {event : DispatchedEvent} (h : Fresh decode v w)
    (hlive : w.pipeline.bootstrapping = false)
    (hagrees : ∀ model next, watch.get next = watch.get model → v.agrees model → v.agrees next)
    (htopology : event.isTopology = false) (hreported : watch.reportedBy event = false)
    (hown : ∀ id on, event ≠ .internal (.setWindowSync id on)) :
    Fresh decode v (w.dispatch event) := by
  have hpatched : ∀ patch : Patch, watch.setBy patch = none →
      Fresh decode v (w.settle (w.pipeline.patchModel patch.updater)) := by
    intro patch hset
    refine h.patched fun next hnext hsame => hagrees _ next ?_ hsame
    have hget : watch.get ((patch.updater w.pipeline.model).getD w.pipeline.model) = _ :=
      watch.get_patch patch
    simpa only [hnext, hset, Option.getD_some, Option.getD_none, Option.map_id'] using hget
  unfold World.dispatch
  rw [hlive]
  show Fresh decode v (w.settle (dispatchEvent w.pipeline event))
  cases event with
  | internal event =>
    refine hpatched (.synthetic event) ?_
    cases event with
    | setWindowSync id on => exact absurd rfl (hown id on)
    | _ => cases watch <;> rfl
  | parsed event =>
    unfold dispatchEvent
    dsimp only
    rcases hpatch : watchPatch event with _ | patch
    · have hother : isTopologyEvent event = false := htopology
      rw [hother]
      exact h.moved (.refl _) (fun err => (h.well_formed err).2) fun hwaiting _ => hwaiting
    · refine hpatched patch ?_
      obtain ⟨reported, value, hreport, hset⟩ := report_of_watchPatch hpatch
      rw [hset, if_neg]
      rintro rfl
      simp [Watch.reportedBy, reportOf, hreport] at hreported

/-- A report of the value is applied. -/
theorem Fresh.reported {event : DispatchedEvent} {value : Reading} (h : Fresh decode v w)
    (w' : World) (hlive : w'.pipeline.bootstrapping = false) (hpipeline : w'.pipeline = w.pipeline)
    (howed : w'.owed = w.owed) (hanswered : Answered decode v' w')
    (hreport : reportOf event = some (watch, value))
    (hheld : ∀ cycle listing result, w.engine.flight = .cycling cycle →
      replyTo cycle listing = some (.resolved result) →
      v'.holds listing result ∨ v'.coming w' = true)
    (hagrees : v'.coming w' = true ∨
      ∀ model, (∀ u, watch.get model = some u → u = value) → v'.agrees model) :
    Fresh decode v' (w'.dispatch event) := by
  cases event with
  | internal event => cases hreport
  | parsed event =>
    have hreport : report event = some (watch, value) := hreport
    obtain ⟨patch, hpatch⟩ : ∃ patch, watchPatch event = some patch := by
      rcases hpatch : watchPatch event with _ | patch
      · simp [report, hpatch] at hreport
      · exact ⟨patch, rfl⟩
    obtain ⟨other, value', hother, hset⟩ := report_of_watchPatch hpatch
    cases hreport.symm.trans hother
    have hdispatch : w'.dispatch (.parsed event) =
        w'.settle (w'.pipeline.patchModel patch.updater) := by
      unfold World.dispatch dispatchEvent
      rw [hlive]
      simp only [hpatch]
      rfl
    rw [hdispatch]
    refine h.replaced hpipeline howed hanswered hheld (hagrees.imp_right fun hall => hall _ ?_)
    intro u hu
    rw [watch.get_patch, hset, if_pos rfl] at hu
    obtain ⟨-, -, rfl⟩ := Option.map_eq_some_iff.mp hu
    rfl

end Dispatch

/-! ## The invariant -/

/-- No reply of the running requery was read. -/
def Silent (p : Pipeline) : Prop :=
  ∀ cycle, p.scheduler.engine.flight = .cycling cycle → ∀ listing, replyTo cycle listing = none

theorem Blank.replyTo {cycle : Cycle} (h : Blank cycle) (listing : Listing) :
    replyTo cycle listing = none := by
  cases listing
  · exact h.winResult
  · exact h.paneResult

theorem Silent.moved {p p' : Pipeline} (h : Silent p)
    (hmoved : Moved p.scheduler.engine p'.scheduler.engine) : Silent p' := by
  intro cycle hflight
  rcases hmoved with ⟨-, hsame, -⟩ | ⟨-, -, began, hbegan, hblank⟩
  · exact h cycle (hsame.symm.trans hflight)
  · cases hbegan.symm.trans hflight
    exact hblank.replyTo

/-- The bootstrap ends with no requery in flight. -/
theorem silent_of_owned {decode : Bytes → String} {event : ModelChanges.Event} {p p' : Pipeline}
    (h : Owned decode event p p') (hboot : p.bootstrapping = true)
    (hlive : p'.bootstrapping = false)
    (hidle : p.scheduler.inbox ≠ none → p.scheduler.engine.flight = .idle)
    (hwell : ∀ err, p.scheduler.inbox ≠ some (.error (.malformed err))) : Silent p' := by
  have hnot : ¬p'.bootstrapping = p.bootstrapping := fun hsame => by
    cases hlive.symm.trans (hsame.trans hboot)
  rcases h with ⟨hsame, -, -⟩ | ⟨-, hsame, -, -, -, -, -⟩ | ⟨hsame, -, -, -, -⟩ |
    ⟨-, result, hinbox, -, hmoved⟩ | ⟨hsame, -, -, -, -, -, -⟩ | ⟨err, hinbox⟩
  · exact absurd hsame hnot
  · exact absurd hsame hnot
  · exact absurd hsame hnot
  · refine Silent.moved (p := p) (fun cycle hflight => ?_) hmoved
    cases (hidle (by rw [hinbox]; exact nofun)).symm.trans hflight
  · exact absurd hsame hnot
  · exact absurd hinbox (hwell err)

theorem dispatch_topology {w : World} {event : NotificationEvent}
    (hlive : w.pipeline.bootstrapping = false) (htopology : isTopologyEvent event = true) :
    w.dispatch (.parsed event) = w.settle (notify w.pipeline) := by
  have hnone : watchPatch event = none := by
    rcases hpatch : watchPatch event with _ | patch
    · rfl
    · cases htopology.symm.trans (not_topology_of_watchPatch hpatch)
  unfold World.dispatch dispatchEvent
  rw [hlive]
  simp only [hnone, htopology]
  rfl

theorem Silent.dispatch {w : World} (hlive : w.pipeline.bootstrapping = false)
    (h : Silent w.pipeline) (event : DispatchedEvent) : Silent (w.dispatch event).pipeline := by
  unfold World.dispatch
  rw [hlive]
  show Silent (dispatchEvent w.pipeline event)
  have hdispatched := dispatched w.pipeline event
  generalize dispatchEvent w.pipeline event = p at hdispatched ⊢
  rcases hdispatched with ⟨patch, -⟩ | - | -
  · intro cycle hflight
    refine h cycle (Eq.trans ?_ hflight)
    unfold Pipeline.patchModel
    split <;> rfl
  · exact h.moved ((moved_markDirty _).trans (moved_notify _))
  · exact h

/-- What dispatching leaves as it is. -/
theorem dispatch_frame (w : World) (event : DispatchedEvent) :
    (w.dispatch event).windowRows = w.windowRows ∧ (w.dispatch event).paneRows = w.paneRows ∧
      (w.dispatch event).unannounced = w.unannounced ∧ (w.dispatch event).stream = w.stream ∧
      (w.dispatch event).pipeline.bootstrapping = w.pipeline.bootstrapping ∧
      (w.pipeline.bootstrapping = false →
        (w.dispatch event).bootstrapBuffer = w.bootstrapBuffer) := by
  unfold World.dispatch
  rcases hlive : w.pipeline.bootstrapping with _ | _
  · exact ⟨rfl, rfl, rfl, rfl, (bootstrapping_dispatchEvent _ _).trans hlive, fun _ => rfl⟩
  · exact ⟨rfl, rfl, rfl, rfl, hlive, fun hnot => by cases hnot⟩

theorem dispatch_bootstrapping {w : World} (hboot : w.pipeline.bootstrapping = true)
    (event : DispatchedEvent) :
    w.dispatch event = { w with bootstrapBuffer := w.bootstrapBuffer ++ [event] } := by
  unfold World.dispatch
  rw [hboot]
  rfl

theorem drain_frame {w : World} (hlive : w.pipeline.bootstrapping = false) :
    w.drain.windowRows = w.windowRows ∧ w.drain.paneRows = w.paneRows ∧
      w.drain.unannounced = w.unannounced ∧ w.drain.stream = w.stream ∧
      w.drain.pipeline.bootstrapping = false ∧ w.drain.bootstrapBuffer = [] := by
  unfold World.drain
  rw [hlive]
  refine foldl_keeps (P := fun w' : World => w'.windowRows = w.windowRows ∧
    w'.paneRows = w.paneRows ∧ w'.unannounced = w.unannounced ∧ w'.stream = w.stream ∧
    w'.pipeline.bootstrapping = false ∧ w'.bootstrapBuffer = []) ⟨rfl, rfl, rfl, rfl, hlive, rfl⟩ ?_
  rintro event w' - ⟨hwindows, hpanes, hunannounced, hstream, hlive', hbuffer⟩
  obtain ⟨hw, hp, hu, hs, hb, hbuf⟩ := dispatch_frame w' event
  exact ⟨hw.trans hwindows, hp.trans hpanes, hu.trans hunannounced, hs.trans hstream,
    hb.trans hlive', (hbuf hlive').trans hbuffer⟩

theorem drain_of_empty {w : World} (h : w.bootstrapBuffer = []) : w.drain = w := by
  cases w
  cases h
  unfold World.drain
  split <;> rfl

/-- What is watched, of each value. -/
structure Kept (decode : Bytes → String) (x : Watched) : Prop where
  good : Good decode x.world
  consistent : Consistent x.world.windowRows x.world.paneRows
  flushed : x.world.pipeline.bootstrapping = false → x.world.bootstrapBuffer = []
  own : ∀ id on, .internal (.setWindowSync id on) ∉ x.world.bootstrapBuffer
  fresh : ∀ watch, Fresh decode (x.view decode watch) x.world
  timely : ∀ watch, Timely (x.unsaid watch) (x.Shows watch) watch x.world.queued

section Kept

variable {decode : Bytes → String} {x x' : Watched} {watch : Watch}

theorem queued_of_live (h : Kept decode x) (hlive : x.world.pipeline.bootstrapping = false) :
    x.world.queued = x.world.stream.filterMap (·.dispatched) := by
  unfold World.queued
  rw [h.flushed hlive]
  rfl

/-- A step of a live pipeline, without a change of tmux. -/
theorem Kept.live (h : Kept decode x) {world : World} {applied : List (Watch × Reading)}
    (hgood : Good decode world) (hwindows : world.windowRows = x.world.windowRows)
    (hpanes : world.paneRows = x.world.paneRows)
    (hunannounced : world.unannounced = x.world.unannounced) (hbuffer : world.bootstrapBuffer = [])
    (hfresh : ∀ watch, Fresh decode (({ x with applied } : Watched).view decode watch) world)
    (htimely : ∀ watch, Timely (x.unsaid watch) (x.Shows watch) watch world.queued) :
    Kept decode { x with world, applied } := by
  have hshows : ∀ watch, ({ x with world, applied } : Watched).Shows watch = x.Shows watch := by
    intro watch
    unfold Watched.Shows Watched.told
    dsimp only
    rw [hwindows, hpanes]
  have hunsaid : ∀ watch, ({ x with world, applied } : Watched).unsaid watch = x.unsaid watch := by
    intro watch
    unfold Watched.unsaid
    dsimp only
    rw [hunannounced]
  refine ⟨hgood, ?_, fun _ => hbuffer, fun id on hmem => ?_, fun watch => ?_, fun watch => ?_⟩
  · show Consistent world.windowRows world.paneRows
    rw [hwindows, hpanes]
    exact h.consistent
  · have hmem : _ ∈ world.bootstrapBuffer := hmem
    rw [hbuffer] at hmem
    cases hmem
  · have hview : ({ x with world, applied } : Watched).view decode watch =
        ({ x with applied } : Watched).view decode watch := by
      unfold Watched.view Watched.Tells
      simp only [hshows, hunsaid]
      rfl
    rw [hview]
    exact hfresh watch
  · rw [hshows, hunsaid]
    exact htimely watch

/-- A report is applied, and it is true, or news comes. -/
theorem Kept.reported (h : Kept decode x) {event : NotificationEvent} {stream : List Item}
    (hstream : x.world.stream = .notification event :: stream)
    (hlive : x.world.pipeline.bootstrapping = false) {value : Reading}
    (hreport : report event = some (watch, value)) {applied : List (Watch × Reading)}
    (hmem : (watch, value) ∈ applied) :
    Fresh decode (({ x with applied } : Watched).view decode watch)
      (({ x.world with stream } : World).dispatch (.parsed event)) := by
  have htimely := h.timely watch
  rw [queued_of_live h hlive, hstream] at htimely
  have htrue : x.Shows watch value ∨
      (({ x with applied } : Watched).view decode watch).coming { x.world with stream } = true := by
    refine (htimely.1 value hreport).imp_right fun hnews => coming_of_queued (hnews.imp_right ?_)
    intro hafter
    unfold World.queued
    rw [List.any_append, Bool.or_eq_true]
    exact .inr hafter
  refine (h.fresh watch).reported { x.world with stream } hlive rfl ?_
    ((h.fresh watch).answered.tail hstream) hreport ?_ ?_
  · unfold World.owed
    rw [hstream]
    rfl
  · intro cycle listing result _ _
    by_cases hlisting : watch.listing = listing
    · exact htrue.imp_left fun hshows => .inr ⟨hlisting, value, hmem, hshows⟩
    · exact .inl (.inl (tells_of_ne hlisting))
  · refine htrue.symm.imp_right fun hshows model hget u hu => ?_
    rw [hget u hu]
    exact hshows

/-- An event of the stream is applied, once the bootstrap is over. -/
theorem Kept.popped (h : Kept decode x) {event : NotificationEvent} {stream : List Item}
    (hstream : x.world.stream = .notification event :: stream)
    (hlive : x.world.pipeline.bootstrapping = false) :
    Fresh decode (({ x with applied := x.afterRead } : Watched).view decode watch)
      (({ x.world with stream } : World).dispatch (.parsed event)) := by
  have hfresh := h.fresh watch
  rcases htopology : isTopologyEvent event with _ | _
  · rcases hreport : report event with _ | ⟨reported, value⟩
    · have hother : watch.reportedBy (.parsed event) = false := by
        simp [Watch.reportedBy, reportOf, hreport]
      have hnews : (x.view decode watch).news (.parsed event) = false := by
        show watch.news (.parsed event) = false
        simp [Watch.news, DispatchedEvent.isTopology, htopology, hother]
      have hsame : x.afterRead = x.applied := by
        simp [Watched.afterRead, hstream, hlive, hreport]
      rw [hsame]
      exact ((hfresh.pop hstream).1 hnews).unwatched hlive
        (fun model next hget hagrees value hvalue => hagrees value (hget ▸ hvalue)) htopology hother
        fun id on heq => by cases heq
    · have hafter : x.afterRead = (reported, value) :: x.applied.filter (·.1 ≠ reported) := by
        simp [Watched.afterRead, hstream, hlive, hreport]
      rw [hafter]
      by_cases hwatch : reported = watch
      · subst hwatch
        exact h.reported hstream hlive hreport List.mem_cons_self
      · -- a report of another value
        have hother : watch.reportedBy (.parsed event) = false := by
          simp [Watch.reportedBy, reportOf, hreport, hwatch]
        have hnews : (x.view decode watch).news (.parsed event) = false := by
          show watch.news (.parsed event) = false
          simp [Watch.news, DispatchedEvent.isTopology, htopology, hother]
        have hpopped := (hfresh.pop hstream).1 hnews
        have hmore : Fresh decode (({ x with
            applied := (reported, value) :: x.applied.filter (·.1 ≠ reported) } : Watched).view
              decode watch) { x.world with stream } := by
          refine hpopped.of_world rfl rfl hpopped.answered id (fun listing result hholds => .inl ?_)
            fun _ hagrees => .inl hagrees
          rcases hholds with htells | ⟨hlisting, u, hmem, hshows⟩
          · exact .inl htells
          · refine .inr ⟨hlisting, u, ?_, hshows⟩
            refine List.mem_cons_of_mem _ (List.mem_filter.mpr ⟨hmem, ?_⟩)
            exact decide_eq_true fun heq => hwatch heq.symm
        exact hmore.unwatched hlive
          (fun model next hget hagrees value hvalue => hagrees value (hget ▸ hvalue)) htopology
          hother fun id on heq => by cases heq
  · -- a topology notification makes the engine dirty
    have hsame : x.afterRead = x.applied := by
      simp [Watched.afterRead, hstream, hlive, report_of_topology htopology]
    rw [hsame, dispatch_topology (w := { x.world with stream }) hlive htopology]
    exact (hfresh.pop hstream).2.notified

/-- What was applied before the answer of its listing is read is forgotten. -/
theorem Kept.heard (h : Kept decode x) {request : Request} {result : CommandResult}
    {stream : List Item} (hstream : x.world.stream = .answer request result :: stream)
    (hlive : request.live = true) {p : Pipeline}
    (hreplied : ModelChanges.step decode x.world.pipeline
      (reply request.listing (.resolved result)) = some p) :
    Fresh decode (({ x with applied := x.afterRead } : Watched).view decode watch)
      (({ x.world with stream } : World).settle p) := by
  have hafter : x.afterRead = x.applied.filter (·.1.listing ≠ request.listing) := by
    simp [Watched.afterRead, hstream, hlive]
  rw [hafter]
  refine (h.fresh watch).answer hstream hlive hreplied .inl fun listing other hne hholds => ?_
  rcases hholds with htells | ⟨hlisting, value, hmem, hshows⟩
  · exact .inl htells
  · refine .inr ⟨hlisting, value, List.mem_filter.mpr ⟨hmem, decide_eq_true ?_⟩, hshows⟩
    show watch.listing ≠ request.listing
    rw [hlisting]
    exact hne

/-- An event of the stream, once the bootstrap is over. -/
theorem Kept.readsLive (h : Kept decode x) {event : NotificationEvent} {stream : List Item}
    (hstream : x.world.stream = .notification event :: stream)
    (hlive : x.world.pipeline.bootstrapping = false)
    (hgood : Good decode (({ x.world with stream } : World).dispatch (.parsed event))) :
    Kept decode { x with
      world := ({ x.world with stream } : World).dispatch (.parsed event)
      applied := x.afterRead } := by
  obtain ⟨hwindows, hpanes, hunannounced, hitems, -, hbuffer⟩ :=
    dispatch_frame { x.world with stream } (.parsed event)
  have hlast : (({ x.world with stream } : World).dispatch (.parsed event)).bootstrapBuffer = [] :=
    (hbuffer hlive).trans (h.flushed hlive)
  refine h.live hgood hwindows hpanes hunannounced hlast
    (fun watch => h.popped hstream hlive) fun watch => ?_
  have htimely := h.timely watch
  rw [queued_of_live h hlive, hstream] at htimely
  have hqueued : (({ x.world with stream } : World).dispatch (.parsed event)).queued =
      stream.filterMap (·.dispatched) := by
    unfold World.queued
    rw [hlast, hitems]
    rfl
  rw [hqueued]
  exact htimely.2

/-- During the bootstrap it moves from the stream to the end of the buffer. -/
theorem Kept.readsBuffered (h : Kept decode x) {event : NotificationEvent} {stream : List Item}
    (hstream : x.world.stream = .notification event :: stream)
    (hboot : x.world.pipeline.bootstrapping = true)
    (hgood : Good decode (({ x.world with stream } : World).dispatch (.parsed event))) :
    Kept decode { x with
      world := ({ x.world with stream } : World).dispatch (.parsed event)
      applied := x.afterRead } := by
  have hdispatch := dispatch_bootstrapping (w := { x.world with stream }) hboot (.parsed event)
  have hsame : x.afterRead = x.applied := by simp [Watched.afterRead, hstream, hboot]
  rw [hdispatch] at hgood ⊢
  rw [hsame]
  refine ⟨hgood, h.consistent, fun hnot => ?_, fun id on hmem => ?_,
    fun watch => (h.fresh watch).buffered hstream, fun watch => ?_⟩
  · cases hboot.symm.trans hnot
  · rcases List.mem_append.mp hmem with hold | hnew
    · exact h.own id on hold
    · cases List.mem_singleton.mp hnew
  · have hqueued : World.queued { x.world with
        stream, bootstrapBuffer := x.world.bootstrapBuffer ++ [.parsed event] } =
          x.world.queued := by
      unfold World.queued
      rw [hstream, List.append_assoc]
      rfl
    show Timely _ _ watch (World.queued { x.world with
      stream, bootstrapBuffer := x.world.bootstrapBuffer ++ [.parsed event] })
    rw [hqueued]
    exact h.timely watch

theorem Kept.reads (h : Kept decode x) {world : World}
    (hstep : CleanModel.step decode x.world .reads = some world) :
    Kept decode { x with world, applied := x.afterRead } := by
  have hgood := h.good.step hstep
  simp only [CleanModel.step] at hstep
  split at hstep
  · cases hstep
  · next event stream hstream =>
    cases hstep
    rcases hboot : x.world.pipeline.bootstrapping with _ | _
    · exact h.readsLive hstream hboot hgood
    · exact h.readsBuffered hstream hboot hgood
  · next request result stream hstream =>
    have hqueued : x.world.queued =
        x.world.bootstrapBuffer ++ stream.filterMap (·.dispatched) := by
      unfold World.queued
      rw [hstream]
      rfl
    have htimely : ∀ watch, Timely (x.unsaid watch) (x.Shows watch) watch
        (x.world.bootstrapBuffer ++ stream.filterMap (·.dispatched)) := by
      intro watch
      rw [← hqueued]
      exact h.timely watch
    split at hstep
    · next hlive =>
      obtain ⟨p, hreplied, rfl⟩ := Option.map_eq_some_iff.mp hstep
      have hboot := (replied hreplied).1
      exact ⟨hgood, h.consistent, fun hnot => h.flushed (hboot.symm.trans hnot), h.own,
        fun watch => h.heard hstream hlive hreplied, htimely⟩
    · next hdead =>
      -- the slot was cancelled, so nobody hears the answer
      cases hstep
      have hsame : x.afterRead = x.applied := by simp [Watched.afterRead, hstream, hdead]
      rw [hsame]
      exact ⟨hgood, h.consistent, h.flushed, h.own,
        fun watch => (h.fresh watch).unheard hstream (Bool.not_eq_true _ ▸ hdead), htimely⟩

/-- The reports of the buffer are applied when no reply was read. -/
theorem Fresh.drained {w : World} (hlive : w.pipeline.bootstrapping = false)
    (h : Fresh decode (x.view decode watch) w) (hsilent : Silent w.pipeline)
    (hown : ∀ id on, .internal (.setWindowSync id on) ∉ w.bootstrapBuffer)
    (htimely : Timely (x.unsaid watch) (x.Shows watch) watch w.queued) :
    Fresh decode (x.view decode watch) w.drain ∧
      Timely (x.unsaid watch) (x.Shows watch) watch w.drain.queued := by
  have hdrained := drain_keeps (w := w) (J := fun w => Fresh decode (x.view decode watch) w ∧
    Silent w.pipeline ∧ (∀ id on, .internal (.setWindowSync id on) ∉ w.bootstrapBuffer) ∧
    Timely (x.unsaid watch) (x.Shows watch) watch w.queued) hlive ?_ ⟨h, hsilent, hown, htimely⟩
  · exact ⟨hdrained.1, hdrained.2.2.2⟩
  clear h hsilent hown htimely hlive
  rintro w event events hlive hbuffer ⟨h, hsilent, hown, htimely⟩
  have hqueue : w.queued = event :: ({ w with bootstrapBuffer := events } : World).queued := by
    unfold World.queued
    rw [hbuffer]
    rfl
  rw [hqueue] at htimely
  obtain ⟨-, -, -, hitems, -, hbuf⟩ := dispatch_frame { w with bootstrapBuffer := events } event
  have hrest : ∀ id on, .internal (.setWindowSync id on) ∉ events := fun id on hmem =>
    hown id on (hbuffer ▸ List.mem_cons_of_mem _ hmem)
  have hqueued : (({ w with bootstrapBuffer := events } : World).dispatch event).queued =
      ({ w with bootstrapBuffer := events } : World).queued := by
    unfold World.queued
    rw [hbuf hlive, hitems]
  refine ⟨?_, ?_, ?_, ?_⟩
  · rcases htopology : event.isTopology with _ | _
    · rcases hreport : watch.reportedBy event with _ | _
      · have hnews : (x.view decode watch).news event = false := by
          show watch.news event = false
          simp [Watch.news, htopology, hreport]
        exact ((h.pop_buffer hbuffer).1 hnews).unwatched hlive
          (fun model next hget hagrees value hvalue => hagrees value (hget ▸ hvalue)) htopology
          hreport fun id on heq => hown id on (hbuffer ▸ heq ▸ List.mem_cons_self)
      · obtain ⟨⟨reported, value⟩, hsome, heq⟩ := (Option.any_eq_true _ _).mp hreport
        obtain rfl := of_decide_eq_true heq
        have htrue := (htimely.1 value hsome).imp_right fun hnews =>
          coming_of_queued (v := x.view decode reported) (hnews.imp_right id)
        refine h.reported { w with bootstrapBuffer := events } hlive rfl rfl h.answered hsome
          (fun cycle listing result hflight hreply => ?_)
          (htrue.symm.imp_right fun hshows model hget u hu => ?_)
        · cases (hsilent cycle hflight listing).symm.trans hreply
        · rw [hget u hu]
          exact hshows
    · cases event with
      | internal event => cases htopology
      | parsed event =>
        rw [dispatch_topology (w := { w with bootstrapBuffer := events }) hlive htopology]
        exact (h.pop_buffer hbuffer).2.notified
  · exact Silent.dispatch (w := { w with bootstrapBuffer := events }) hlive hsilent event
  · rw [hbuf hlive]
    exact hrest
  · rw [hqueued]
    exact htimely.2

/-- The pipeline goes on by itself. -/
theorem Kept.pipeline (h : Kept decode x) {event : ModelChanges.Event}
    (hcalm : Calm decode x (.pipeline event)) {world : World}
    (hstep : CleanModel.step decode x.world (.pipeline event) = some world) :
    Kept decode { x with world } := by
  have hgood := h.good.step hstep
  simp only [CleanModel.step] at hstep
  split at hstep
  next hown =>
    obtain ⟨p, hnext, rfl⟩ := Option.map_eq_some_iff.mp hstep
    have howned := CleanModel.owned hown hnext
    have hfresh : ∀ watch, Fresh decode (x.view decode watch) (x.world.settle p) := fun watch =>
      (h.fresh watch).owned h.good.told.sound.inbox howned fun hevent cycle hflight =>
        commits_of_calm hflight (hcalm (by rw [hevent]; rfl))
    rcases hlive : p.bootstrapping with _ | _
    · -- the bootstrap is over, or it ends now
      obtain ⟨hwindows, hpanes, hunannounced, hitems, hboot, hbuffer⟩ :=
        drain_frame (w := x.world.settle p) hlive
      have hdrained : ∀ watch, Fresh decode (x.view decode watch) (x.world.settle p).drain ∧
          Timely (x.unsaid watch) (x.Shows watch) watch (x.world.settle p).drain.queued := by
        intro watch
        -- only the end of the bootstrap has something to drain
        rcases hbefore : x.world.pipeline.bootstrapping with _ | _
        · rw [drain_of_empty (w := x.world.settle p) (h.flushed hbefore)]
          exact ⟨hfresh watch, h.timely watch⟩
        · exact Fresh.drained hlive (hfresh watch) (silent_of_owned howned hbefore hlive
            h.good.told.sound.inbox fun err => ((h.fresh watch).well_formed err).2) h.own
            (h.timely watch)
      exact h.live hgood hwindows hpanes hunannounced hbuffer (fun watch => (hdrained watch).1)
        fun watch => (hdrained watch).2
    · have hsame : (x.world.settle p).drain = x.world.settle p := by
        have hboot : (x.world.settle p).pipeline.bootstrapping = true := hlive
        unfold World.drain
        rw [hboot]
        rfl
      rw [hsame] at hgood ⊢
      exact ⟨hgood, h.consistent, fun hnot => (by cases hlive.symm.trans hnot), h.own, hfresh,
        h.timely⟩
  · cases hstep

/-! ### tmux -/

theorem Kept.changes (h : Kept decode x) {windowRows : List WindowsReplyRow}
    {paneRows : List PanesReplyRow} (hconsistent : Consistent windowRows paneRows) {world : World}
    (hstep : CleanModel.step decode x.world (.changes windowRows paneRows) = some world) :
    Kept decode { x with world, unreported := x.owing windowRows paneRows } := by
  have hgood := h.good.step hstep
  cases hstep
  have hunsaid : ∀ watch, x.unsaid watch = true →
      (x.world.unannounced || x.restructured windowRows paneRows ||
        decide (watch ∈ x.owing windowRows paneRows)) = true := by
    intro watch hunsaid
    unfold Watched.owing
    rcases Bool.or_eq_true_iff.mp hunsaid with hchanged | howed
    · simp [hchanged]
    · rcases hrestructured : x.restructured windowRows paneRows with _ | _
      · simp [of_decide_eq_true howed]
      · simp
  have hkeep : ∀ watch, (x.world.unannounced || x.restructured windowRows paneRows ||
      decide (watch ∈ x.owing windowRows paneRows)) = true ∨
        ∀ value, x.Shows watch value → ∀ u ∈ watch.told windowRows paneRows, u = value := by
    intro watch
    rcases hrestructured : x.restructured windowRows paneRows with _ | _
    · by_cases hchanged : watch ∈ x.changed windowRows paneRows
      · exact .inl (by simp [Watched.owing, hchanged])
      · exact .inr fun value => shows_of_unchanged hrestructured hchanged
    · exact .inl (by simp)
  refine ⟨hgood, hconsistent, h.flushed, h.own, fun watch => ?_, fun watch => ?_⟩
  · refine (h.fresh watch).world_changed rfl rfl rfl rfl rfl (hunsaid watch)
      ((hkeep watch).imp_right fun himp => ⟨fun listing result => .imp himp, ?_, ?_⟩)
    · rintro listing result (htells | ⟨hlisting, value, hmem, hshows⟩)
      · exact .inl (htells.imp himp)
      · exact .inr ⟨hlisting, value, hmem, himp value hshows⟩
    · exact fun model hagrees value hvalue => himp value (hagrees value hvalue)
  · refine (h.timely watch).imp (hunsaid watch) fun value hshows => ?_
    exact (hkeep watch).symm.imp_left fun himp => himp value hshows

theorem Kept.writes (h : Kept decode x) {event : NotificationEvent}
    (htruly : x.reportsTruly event = true) {world : World}
    (hstep : CleanModel.step decode x.world (.writes event) = some world) :
    Kept decode { x with world, unreported := x.afterReport event } := by
  have hgood := h.good.step hstep
  cases hstep
  have hunsaid : ∀ watch, x.unsaid watch = true →
      (x.world.unannounced && !isTopologyEvent event || decide (watch ∈ x.afterReport event)) =
        true ∨ watch.news (.parsed event) = true := by
    intro watch hunsaid
    rcases Bool.or_eq_true_iff.mp hunsaid with hchanged | howed
    · rcases htopology : isTopologyEvent event with _ | _
      · simp [hchanged]
      · exact .inr (by simp [Watch.news, DispatchedEvent.isTopology, htopology])
    · have howed := of_decide_eq_true howed
      unfold Watched.afterReport
      rcases hreport : report event with _ | ⟨reported, value⟩
      · simp [howed]
      · by_cases hwatch : watch = reported
        · exact .inr (by simp [Watch.news, Watch.reportedBy, reportOf, hreport, hwatch])
        · simp [howed, hwatch]
  refine ⟨hgood, h.consistent, h.flushed, h.own,
    fun watch => (h.fresh watch).writes (hunsaid watch), fun watch => ?_⟩
  have hqueued : World.queued { x.world with
      stream := x.world.stream ++ [.notification event]
      unannounced := x.world.unannounced && !isTopologyEvent event } =
        x.world.queued ++ [.parsed event] := by
    unfold World.queued
    rw [List.filterMap_append, ← List.append_assoc]
    rfl
  show Timely _ _ watch (World.queued { x.world with
    stream := x.world.stream ++ [.notification event]
    unannounced := x.world.unannounced && !isTopologyEvent event })
  rw [hqueued]
  refine (h.timely watch).snoc (hunsaid watch) fun value hreport u hu => ?_
  have hreport : report event = some (watch, value) := hreport
  simp only [Watched.reportsTruly, hreport, List.all_eq_true, decide_eq_true_iff] at htruly
  exact htruly u hu

theorem Kept.answers (h : Kept decode x) {result : CommandResult} {world : World}
    (hstep : CleanModel.step decode x.world (.answers result) = some world) :
    Kept decode { x with world } := by
  have hgood := h.good.step hstep
  simp only [CleanModel.step] at hstep
  split at hstep
  · cases hstep
  · next request requests hrequests =>
    split at hstep
    · next htruly =>
      cases hstep
      refine ⟨hgood, h.consistent, h.flushed, h.own, fun watch =>
        (h.fresh watch).answers hrequests (tells_of_answersTruly htruly).1
          (tells_of_answers h.consistent htruly), fun watch => ?_⟩
      have hqueued : World.queued { x.world with
          requests, stream := x.world.stream ++ [.answer request result] } = x.world.queued := by
        unfold World.queued
        rw [List.filterMap_append]
        exact congrArg _ (List.append_nil _)
      show Timely _ _ watch (World.queued { x.world with
        requests, stream := x.world.stream ++ [.answer request result] })
      rw [hqueued]
      exact h.timely watch
    · cases hstep

theorem Kept.cancels (h : Kept decode x) {err : Error} {world : World}
    (hstep : CleanModel.step decode x.world (.cancels err) = some world) :
    Kept decode { x with world } := by
  have hgood := h.good.step hstep
  have hfresh := fun watch => (h.fresh watch).cancel hstep
  obtain ⟨p, hexec, rfl⟩ := Option.map_eq_some_iff.mp hstep
  obtain ⟨hboot, -⟩ := cancelled _ rfl hexec
  refine ⟨hgood, h.consistent, fun hlive => h.flushed (hboot.symm.trans hlive), h.own, hfresh,
    fun watch => ?_⟩
  have hqueued : World.queued { x.world with
      pipeline := p
      requests := x.world.requests.map fun request => { request with live := false }
      stream := x.world.stream.map Item.cancelled } = x.world.queued := by
    unfold World.queued
    rw [List.filterMap_map]
    refine congrArg (x.world.bootstrapBuffer ++ List.filterMap · x.world.stream) ?_
    funext item
    cases item <;> rfl
  show Timely _ _ watch (World.queued { x.world with
    pipeline := p
    requests := x.world.requests.map fun request => { request with live := false }
    stream := x.world.stream.map Item.cancelled })
  rw [hqueued]
  exact h.timely watch

/-! ### Clients -/

theorem Kept.injects (h : Kept decode x) {event : SyntheticEvent}
    (hown : ∀ id on, event ≠ .setWindowSync id on) {world : World}
    (hstep : CleanModel.step decode x.world (.injects event) = some world) :
    Kept decode { x with world } := by
  have hgood := h.good.step hstep
  cases hstep
  have hother : ∀ watch : Watch, watch.reportedBy (.internal event) = false := fun _ => rfl
  rcases hlive : x.world.pipeline.bootstrapping with _ | _
  · obtain ⟨hwindows, hpanes, hunannounced, hitems, hboot, hbuffer⟩ :=
      dispatch_frame x.world (.internal event)
    have hlast : (x.world.dispatch (.internal event)).bootstrapBuffer = [] :=
      (hbuffer hlive).trans (h.flushed hlive)
    refine h.live hgood hwindows hpanes hunannounced hlast (fun watch => ?_) fun watch => ?_
    · exact (h.fresh watch).unwatched hlive
        (fun model next hget hagrees value hvalue => hagrees value (hget ▸ hvalue)) rfl
        (hother watch) fun id on heq => hown id on (DispatchedEvent.internal.inj heq)
    · have hqueued : (x.world.dispatch (.internal event)).queued = x.world.queued := by
        unfold World.queued
        rw [hbuffer hlive, hitems]
      rw [hqueued]
      exact h.timely watch
  · rw [dispatch_bootstrapping hlive (.internal event)] at hgood ⊢
    -- it joins the buffer, ahead of the stream
    refine ⟨hgood, h.consistent, fun hnot => ?_, fun id on hmem => ?_,
      fun watch => (h.fresh watch).buffer _, fun watch => ?_⟩
    · cases hlive.symm.trans hnot
    · rcases List.mem_append.mp hmem with hold | hnew
      · exact h.own id on hold
      · exact hown id on (DispatchedEvent.internal.inj (List.mem_singleton.mp hnew)).symm
    · show Timely _ _ watch (World.queued { x.world with
        bootstrapBuffer := x.world.bootstrapBuffer ++ [.internal event] })
      unfold World.queued
      rw [List.append_assoc]
      exact (h.timely watch).insert rfl

theorem Kept.binds (h : Kept decode x) {clientId : String} {boundPanes : List Protocol.PaneId}
    {world : World}
    (hstep : CleanModel.step decode x.world (.binds clientId boundPanes) = some world) :
    Kept decode { x with world } := by
  have hgood := h.good.step hstep
  cases hstep
  refine ⟨hgood, h.consistent, fun hlive => ?_, h.own, fun watch => ?_, h.timely⟩
  · exact h.flushed ((bootstrapping_patchModel _).symm.trans hlive)
  · refine (h.fresh watch).patched fun next hnext hagrees value hvalue => hagrees value ?_
    have hget : watch.get (((Patch.clientBinding clientId boundPanes).updater
        x.world.pipeline.model).getD x.world.pipeline.model) = _ :=
      watch.get_patch (.clientBinding clientId boundPanes)
    have hnone : watch.setBy (.clientBinding clientId boundPanes) = none := by cases watch <;> rfl
    have hupdated : (Patch.clientBinding clientId boundPanes).updater x.world.pipeline.model =
        some next := hnext
    simp only [hupdated, hnone, Option.getD_some, Option.getD_none, Option.map_id'] at hget
    exact hget ▸ hvalue

theorem step_injects {event : SyntheticEvent} (hown : ∀ id on, event ≠ .setWindowSync id on) :
    Watched.step decode x (.injects event) =
      (CleanModel.step decode x.world (.injects event)).map fun world => { x with world } := by
  cases event with
  | setWindowSync id on => exact absurd rfl (hown id on)
  | _ => rfl

theorem Kept.step (h : Kept decode x) {event : Event} (hcalm : Calm decode x event)
    (hstep : Watched.step decode x event = some x') : Kept decode x' := by
  cases event with
  | changes windowRows paneRows =>
    simp only [Watched.step] at hstep
    split at hstep
    · next hconsistent =>
      obtain ⟨world, hworld, rfl⟩ := Option.map_eq_some_iff.mp hstep
      exact h.changes hconsistent hworld
    · cases hstep
  | writes event =>
    simp only [Watched.step] at hstep
    split at hstep
    · next htruly =>
      obtain ⟨world, hworld, rfl⟩ := Option.map_eq_some_iff.mp hstep
      exact h.writes htruly hworld
    · cases hstep
  | answers result =>
    obtain ⟨world, hworld, rfl⟩ := Option.map_eq_some_iff.mp hstep
    exact h.answers hworld
  | reads =>
    obtain ⟨world, hworld, rfl⟩ := Option.map_eq_some_iff.mp hstep
    exact h.reads hworld
  | cancels err =>
    obtain ⟨world, hworld, rfl⟩ := Option.map_eq_some_iff.mp hstep
    exact h.cancels hworld
  | injects event =>
    have hown : ∀ id on, event ≠ .setWindowSync id on := by
      rintro id on rfl
      cases hstep
    rw [step_injects hown] at hstep
    obtain ⟨world, hworld, rfl⟩ := Option.map_eq_some_iff.mp hstep
    exact h.injects hown hworld
  | binds clientId boundPanes =>
    have hstep : (CleanModel.step decode x.world (.binds clientId boundPanes)).map
        (fun world => { x with world }) = some x' := hstep
    obtain ⟨world, hworld, rfl⟩ := Option.map_eq_some_iff.mp hstep
    exact h.binds hworld
  | pipeline event =>
    obtain ⟨world, hworld, rfl⟩ := Option.map_eq_some_iff.mp hstep
    exact h.pipeline hcalm hworld

/-! ## Runs -/

end Kept

/-! ## A report in the chunk of a reply -/

def paneTitled (title : Option String) : PanesReplyRow := { paneRow with paneTitle := title }

/-- The bootstrap, and a rename that makes the engine list again. -/
def renamed : List Event :=
  [.pipeline .bootstrapRequery, .answers (windowsAnswer "sh"), .answers panesAnswer, .reads, .reads,
    .pipeline (.scheduler (.engine .resume)), .pipeline (.scheduler (.engine .release)),
    .pipeline .bootstrapSettled,
    .changes [windowRow "vi"] [paneTitled none], .writes (.windowRenamed 0 "vi" false), .reads,
    .answers (windowsAnswer "vi"), .answers panesAnswer]

/-- The title is set after the panes were listed. -/
def titled : List Event :=
  [.changes [windowRow "vi"] [paneTitled (some "log")],
    .writes (.subscriptionChanged "title-watch" 0 (some 0) (some 0) (some 0) "log")]

/-- The continuations of a requery. -/
def committed : List Event :=
  [.pipeline (.scheduler (.engine .resume)), .pipeline (.scheduler (.engine .release)),
    .pipeline (.scheduler .settled)]

end TmuxccDriver.Runtime.CleanModel
