import TmuxccDriver.Client.Gap
import TmuxccDriver.Client.RoundTrip

/-!
# What the stream of a client shows

A control server and the messages it has sent one client, projected one after the other, against
the snapshot that a resync would bring now. Deltas are computed between two models of the server
and applied to what the client has; the count of clients is told when a client has got its first
snapshot or has left.

Results:
1. `showsSame_see`: replicas that show the same show the same after every message.
2. `messages_broadcast`, `messages_modelChange`: what a client is sent of a loop over the others.
3. `Shows.step`: what every step keeps.
4. `view_of_run`: the stream shows the model of the server, in every run.
-/

namespace TmuxccDriver.Client
open TmuxccDriver.Lib TmuxccDriver.Protocol TmuxccDriver.State

/-! ## Projecting messages -/

/-- A client model with one more message. -/
def see (model : ClientModel) : SessionProxyMessage → ClientModel
  | .snapshot snapshot => applySnapshot snapshot
  | message => applyDelta model message

theorem see_delta {message : SessionProxyMessage} (h : Runtime.Serve.isSnapshot message = false)
    (model : ClientModel) : see model message = applyDelta model message := by
  cases message with
  | snapshot => cases h
  | _ => rfl

theorem project_eq_see {T : Type} (model : ClientModel) (m : Runtime.Serve.Sent T) :
    project model m = see model m.message := by
  obtain ⟨_, _, message⟩ := m
  cases message <;> rfl

theorem ShowsSame.refl (model : ClientModel) : ShowsSame model model :=
  ⟨rfl, fun _ => rfl, fun _ => rfl, rfl, rfl, rfl⟩

theorem ShowsSame.trans {a b c : ClientModel} (h : ShowsSame a b) (h' : ShowsSame b c) :
    ShowsSame a c :=
  ⟨h.session.trans h'.session, fun k => (h.windows k).trans (h'.windows k),
    fun k => (h.panes k).trans (h'.panes k), h.focus.trans h'.focus,
    h.attachedClientCount.trans h'.attachedClientCount,
    h.ownConnectionId.trans h'.ownConnectionId⟩

/-- A slot that looks the same looks the same after a delta. -/
theorem projected_paneSlot {k : PaneId} {slot slot' : Option ClientPane}
    (h : slot.map ClientPane.projected = slot'.map ClientPane.projected)
    (message : SessionProxyMessage) :
    (paneSlot k slot message).map ClientPane.projected =
      (paneSlot k slot' message).map ClientPane.projected := by
  rcases slot with _ | pane <;> rcases slot' with _ | pane'
  · rfl
  · cases h
  · cases h
  · -- the two panes differ in their modes and origins only
    obtain ⟨⟩ := pane
    obtain ⟨⟩ := pane'
    simp only [Option.map_some, ClientPane.projected, Option.some.injEq, ClientPane.mk.injEq] at h
    obtain ⟨rfl, rfl, rfl, rfl, -, rfl, rfl, rfl, rfl, rfl, rfl, rfl, -⟩ := h
    cases message <;> simp only [paneSlot] <;> first | rfl | (split <;> rfl)

theorem sameScalars_applyDelta {a b : ClientModel} (h : SameScalars a b)
    (message : SessionProxyMessage) :
    SameScalars (applyDelta a message) (applyDelta b message) := by
  have hentity (hmessage : EntityDelta message) :
      SameScalars (applyDelta a message) (applyDelta b message) := by
    have ha := applyDelta_scalars hmessage a
    have hb := applyDelta_scalars hmessage b
    exact ⟨hb.session.trans (h.session.trans ha.session.symm),
      hb.focus.trans (h.focus.trans ha.focus.symm),
      hb.attachedClientCount.trans (h.attachedClientCount.trans ha.attachedClientCount.symm),
      hb.ownConnectionId.trans (h.ownConnectionId.trans ha.ownConnectionId.symm)⟩
  cases message
  case focusChanged => exact ⟨h.session, rfl, h.attachedClientCount, h.ownConnectionId⟩
  case sessionRenamed newName =>
    refine ⟨?_, h.focus, h.attachedClientCount, h.ownConnectionId⟩
    show ({ b.session with name := newName } : ClientSession) = { a.session with name := newName }
    rw [h.session]
  case clientCountChanged => exact ⟨h.session, h.focus, rfl, h.ownConnectionId⟩
  case snapshot | notStateBearing => exact h
  case windowAdded => exact hentity (.inr (.inr ⟨_, _, _, _, rfl⟩))
  case windowClosed | windowRenamed | windowSyncChanged | windowMonitorActivityChanged
      | windowMonitorSilenceChanged | layoutUpdated =>
    exact hentity (.inr (.inl ⟨_, rfl⟩))
  all_goals exact hentity (.inl ⟨_, rfl⟩)

/-- What two replicas show stays the same. -/
theorem showsSame_see {a b : ClientModel} (h : ShowsSame a b) (message : SessionProxyMessage) :
    ShowsSame (see a message) (see b message) := by
  have hdelta : ShowsSame (applyDelta a message) (applyDelta b message) := by
    have hscalars := sameScalars_applyDelta (a := b) (b := a)
      ⟨h.session, h.focus, h.attachedClientCount, h.ownConnectionId⟩ message
    refine ⟨hscalars.session, fun k => ?_, fun k => ?_, hscalars.focus,
      hscalars.attachedClientCount, hscalars.ownConnectionId⟩
    · rw [applyDelta_window, applyDelta_window, h.windows k]
    · rw [applyDelta_pane, applyDelta_pane]
      exact projected_paneSlot (h.panes k) message
  cases message with
  | snapshot => exact .refl _
  | _ => exact hdelta

theorem showsSame_foldl_see {a b : ClientModel} (h : ShowsSame a b)
    (messages : List SessionProxyMessage) :
    ShowsSame (messages.foldl see a) (messages.foldl see b) := by
  induction messages generalizing a b with
  | nil => exact h
  | cons message messages ih => exact ih (showsSame_see h message)

theorem foldl_see_deltas {deltas : List SessionProxyMessage}
    (h : ∀ delta ∈ deltas, Runtime.Serve.isSnapshot delta = false) (model : ClientModel) :
    deltas.foldl see model = applyDeltas model deltas := by
  induction deltas generalizing model with
  | nil => rfl
  | cons delta deltas ih =>
    rw [List.foldl_cons, see_delta (h delta List.mem_cons_self)]
    exact ih (fun d hd => h d (List.mem_cons_of_mem _ hd)) _

/-! ## The stream of one client -/

namespace ServedView
open TmuxccDriver.Runtime.Serve

section Frames
variable {T : Type} {s s' s'' : ControlServer T}

def viewOpts (state : ClientState T) (count : Nat) : ProjectSnapshotOpts :=
  { attachedClientCount := some count
    connectionId := some state.connectionId
    clientId := state.identity }

/-- What a client would see of a snapshot that it is sent now. -/
def freshView (s : ControlServer T) (state : ClientState T) : ClientModel :=
  replica s.model (viewOpts state s.transports.length)

/-- A client is being added. -/
def Arriving [DecidableEq T] (s : ControlServer T) : Prop :=
  ∃ t, s.clients.has t = true ∧ s.calls t ≠ none

/-! ## What sending changes -/

/-- What a client is known by. -/
def credentials (state : ClientState T) : T × ConnectionId × Option String :=
  (state.transport, state.connectionId, state.identity)

theorem viewOpts_congr {state state' : ClientState T} (h : credentials state = credentials state')
    (count : Nat) : viewOpts state count = viewOpts state' count := by
  obtain ⟨-, h⟩ := Prod.ext_iff.mp h
  obtain ⟨hconnection, hidentity⟩ := Prod.ext_iff.mp h
  unfold viewOpts
  rw [show state.connectionId = state'.connectionId from hconnection,
    show state.identity = state'.identity from hidentity]

/-- Between two servers some messages were sent. -/
structure Talks (s s' : ControlServer T) : Prop where
  frame : ∃ clients sent, s' = { s with clients := clients, sent := sent }
  clients : s'.clients.values.map credentials = s.clients.values.map credentials

namespace Talks

theorem refl (s : ControlServer T) : Talks s s := ⟨⟨s.clients, s.sent, rfl⟩, rfl⟩

theorem trans (h : Talks s s') (h' : Talks s' s'') : Talks s s'' := by
  obtain ⟨⟨clients, sent, rfl⟩, hclients⟩ := h
  obtain ⟨⟨clients', sent', rfl⟩, hclients'⟩ := h'
  exact ⟨⟨clients', sent', rfl⟩, hclients'.trans hclients⟩

theorem model (h : Talks s s') : s'.model = s.model := by
  obtain ⟨⟨_, _, rfl⟩, -⟩ := h
  rfl

theorem handlers (h : Talks s s') : s'.handlers = s.handlers := by
  obtain ⟨⟨_, _, rfl⟩, -⟩ := h
  rfl

theorem calls (h : Talks s s') : s'.calls = s.calls := by
  obtain ⟨⟨_, _, rfl⟩, -⟩ := h
  rfl

theorem closed (h : Talks s s') : s'.closed = s.closed := by
  obtain ⟨⟨_, _, rfl⟩, -⟩ := h
  rfl

theorem transports (h : Talks s s') : s'.transports = s.transports := by
  have htransports := congrArg (List.map Prod.fst) h.clients
  rwa [List.map_map, List.map_map] at htransports

end Talks

end Frames

variable {T : Type} [DecidableEq T] {s s' s'' : ControlServer T} {t t' : T}

namespace Talks

theorem get? (h : Talks s s') (t : T) :
    (s'.clients.get? t).map credentials = (s.clients.get? t).map credentials := by
  have hfind (m : KeyedMap (ClientState.transport : ClientState T → T)) :
      (m.get? t).map credentials = (m.values.map credentials).find? fun c => c.1 = t := by
    rw [List.find?_map]
    rfl
  rw [hfind, hfind, h.clients]

theorem has (h : Talks s s') (t : T) : s'.clients.has t = s.clients.has t := by
  have hsome := congrArg Option.isSome (h.get? t)
  rwa [Option.isSome_map, Option.isSome_map] at hsome

theorem arriving (h : Talks s s') : Arriving s → Arriving s' := by
  rintro ⟨t, hhas, hbusy⟩
  exact ⟨t, (h.has t).trans hhas, h.calls ▸ hbusy⟩

theorem listening (h : Talks s s') : Listening s' t ↔ Listening s t := by
  rw [Listening, Listening, h.has, h.closed]

end Talks

/-- What a transport has accepted, without the numbers. -/
def messages (s : ControlServer T) (t : T) : List SessionProxyMessage :=
  (received s t).map Sent.message

/-- What the stream of a client shows. -/
def view (s : ControlServer T) (t : T) : ClientModel := (messages s t).foldl see emptyClientModel

theorem view_eq_project (s : ControlServer T) (t : T) :
    view s t = (received s t).foldl project emptyClientModel := by
  unfold view messages
  rw [List.foldl_map]
  exact congrArg (fun f => (received s t).foldl f emptyClientModel)
    (funext₂ fun model m => (project_eq_see model m).symm)

theorem stamp_talks {state : ClientState T} (hstate : s.clients.get? t = some state)
    (message : Nat → SessionProxyMessage) : Talks s (s.stamp state message) := by
  refine ⟨⟨_, _, rfl⟩, ?_⟩
  have hkey : state.transport = t := KeyedMap.key_of_get? hstate
  obtain ⟨before, after, hbefore, hafter⟩ := KeyedMap.values_set_old (m := s.clients)
    (a := { state with nextSeq := state.nextSeq + 1 }) (b := state) (hkey.symm ▸ hstate)
  show (s.clients.set { state with nextSeq := state.nextSeq + 1 }).values.map credentials = _
  rw [hafter, hbefore]
  simp [credentials]

theorem sendTo_talks (s : ControlServer T) (t : T) (message : Nat → SessionProxyMessage) :
    Talks s (s.sendTo t message) := by
  unfold ControlServer.sendTo
  split
  · exact .refl s
  · next hstate => exact stamp_talks hstate message

theorem messages_stamp {state : ClientState T} (hstate : s.clients.get? t' = some state)
    (message : Nat → SessionProxyMessage) (hopen : t ∉ s.closed) :
    messages (s.stamp state message) t =
      messages s t ++ if t' = t then [message state.nextSeq] else [] := by
  have hkey : state.transport = t' := KeyedMap.key_of_get? hstate
  unfold messages
  rw [stamp_received, hkey, List.map_append]
  by_cases hto : t' = t
  · rw [if_pos ⟨hto, hto ▸ hopen⟩, if_pos hto]
    rfl
  · rw [if_neg fun h => hto h.1, if_neg hto]
    rfl

theorem messages_sendTo (hlistening : Listening s t) (message : SessionProxyMessage) :
    messages (s.sendTo t' fun _ => message) t =
      messages s t ++ if t' = t then [message] else [] := by
  unfold ControlServer.sendTo
  split
  · next hnone =>
    rw [if_neg, List.append_nil]
    rintro rfl
    rw [Listening, KeyedMap.has_eq_false.mpr hnone] at hlistening
    exact Bool.false_ne_true hlistening.1
  · next hstate => exact messages_stamp hstate _ hlistening.2

omit [DecidableEq T] in
theorem foldl_talks {α : Type} {f : ControlServer T → α → ControlServer T}
    (htalks : ∀ s a, Talks s (f s a)) (s : ControlServer T) (as : List α) :
    Talks s (as.foldl f s) :=
  foldl_keeps (P := Talks s) (.refl s) fun a s' _ h => h.trans (htalks s' a)

/-- A loop over clients that sends each of them something of its own. -/
theorem messages_foldl {f : ControlServer T → T → ControlServer T} {ms : List SessionProxyMessage}
    (htalks : ∀ s t', Talks s (f s t')) (hother : ∀ s t', Listening s t → t' ≠ t →
      messages (f s t') t = messages s t)
    (hown : ∀ s', Talks s s' → messages (f s' t) t = messages s' t ++ ms)
    (hlistening : Listening s t) {ts : List T} (hnodup : ts.Nodup) :
    messages (ts.foldl f s) t = messages s t ++ if t ∈ ts then ms else [] := by
  induction ts generalizing s with
  | nil => simp
  | cons head ts ih =>
    have hfirst := htalks s head
    obtain ⟨hnew, hnodup⟩ := List.nodup_cons.mp hnodup
    rw [List.foldl_cons, ih (fun s' h => hown s' (hfirst.trans h))
      (hfirst.listening.mpr hlistening) hnodup]
    by_cases heq : head = t
    · subst heq
      rw [hown s (.refl s)]
      simp [hnew]
    · rw [hother s head hlistening heq]
      simp [Ne.symm heq]

theorem broadcast_talks (s : ControlServer T) (exclude : Option T)
    (message : SessionProxyMessage) : Talks s (s.broadcast exclude message) :=
  foldl_talks (fun s t => sendTo_talks s t fun _ => message) s _

theorem messages_broadcast (hlistening : Listening s t) (exclude : Option T)
    (message : SessionProxyMessage) :
    messages (s.broadcast exclude message) t =
      messages s t ++ if some t = exclude then [] else [message] := by
  have hnodup : (s.transports.filter fun t => some t ≠ exclude).Nodup :=
    s.clients.nodup.filter _
  have hmem : t ∈ s.transports := mem_transports.mpr hlistening.1
  have hown (s' : ControlServer T) (h : Talks s s') :
      messages (s'.sendTo t fun _ => message) t = messages s' t ++ [message] := by
    rw [messages_sendTo (h.listening.mpr hlistening), if_pos rfl]
  rw [ControlServer.broadcast, messages_foldl (fun s t' => sendTo_talks s t' _)
    (fun s t' hs hne => by rw [messages_sendTo hs, if_neg hne, List.append_nil])
    hown hlistening hnodup]
  by_cases hexclude : some t = exclude <;> simp [hmem, hexclude]

/-- Several messages to one client. -/
theorem messages_sends (hlistening : Listening s t) (deltas : List SessionProxyMessage) :
    messages (deltas.foldl (fun s delta => s.sendTo t' fun _ => delta) s) t =
      messages s t ++ if t' = t then deltas else [] := by
  induction deltas generalizing s with
  | nil => simp
  | cons delta deltas ih =>
    have htalks := sendTo_talks s t' fun _ => delta
    rw [List.foldl_cons, ih (htalks.listening.mpr hlistening), messages_sendTo hlistening]
    split <;> simp

theorem onModelChange_talks (prev next : SessionModel) (opts : T → DiffOptions)
    (s : ControlServer T) (t : T) : Talks s (ControlServer.onModelChange prev next opts s t) := by
  unfold ControlServer.onModelChange
  split
  · exact .refl s
  · exact foldl_keeps (P := Talks s) (.refl s) fun _ s' _ h => h.trans (sendTo_talks s' t _)

theorem messages_onModelChange {state : ClientState T} (hstate : s.clients.get? t = some state)
    (hopen : t ∉ s.closed) (prev next : SessionModel) (opts : T → DiffOptions) :
    messages (ControlServer.onModelChange prev next opts s t) t =
      messages s t ++ diffModel prev next { opts t with clientId := state.identity } := by
  have hlistening : Listening s t := ⟨KeyedMap.has_iff.mpr ⟨state, hstate⟩, hopen⟩
  unfold ControlServer.onModelChange
  rw [hstate]
  dsimp only
  rw [messages_sends hlistening, if_pos rfl]

theorem messages_onModelChange_other (hlistening : Listening s t) (hne : t' ≠ t)
    (prev next : SessionModel) (opts : T → DiffOptions) :
    messages (ControlServer.onModelChange prev next opts s t') t = messages s t := by
  unfold ControlServer.onModelChange
  split
  · rfl
  · rw [messages_sends hlistening, if_neg hne, List.append_nil]

theorem modelChange_talks (s : ControlServer T) (prev next : SessionModel)
    (opts : T → DiffOptions) :
    Talks { s with model := next } (s.modelChange prev next opts) :=
  foldl_talks (onModelChange_talks prev next opts) _ _

/-- A model change reaches every client that has subscribed. -/
theorem messages_modelChange {state : ClientState T} (hstate : s.clients.get? t = some state)
    (hopen : t ∉ s.closed) (hsubscribed : t ∈ s.handlers.values) (prev next : SessionModel)
    (opts : T → DiffOptions) :
    messages (s.modelChange prev next opts) t =
      messages s t ++ diffModel prev next { opts t with clientId := state.identity } := by
  have hlistening : Listening { s with model := next } t :=
    ⟨KeyedMap.has_iff.mpr ⟨state, hstate⟩, hopen⟩
  have hnodup : s.handlers.values.Nodup := by simpa using s.handlers.nodup
  have hown (s' : ControlServer T) (h : Talks { s with model := next } s') :
      messages (ControlServer.onModelChange prev next opts s' t) t =
        messages s' t ++ diffModel prev next { opts t with clientId := state.identity } := by
    obtain ⟨state', hstate', hsame⟩ := Option.map_eq_some_iff.mp
      ((h.get? t).trans (congrArg (Option.map credentials) hstate))
    have hidentity : state'.identity = state.identity := congrArg (fun c => c.2.2) hsame
    rw [messages_onModelChange hstate' (h.closed ▸ hopen) prev next opts, hidentity]
  rw [ControlServer.modelChange, messages_foldl (onModelChange_talks prev next opts)
    (fun s t' hs hne => messages_onModelChange_other hs hne prev next opts) hown hlistening hnodup,
    if_pos hsubscribed]
  rfl

/-! ## Clients that arrive and leave -/

theorem sendFirstSnapshot_talks {state : ClientState T} (hstate : s.clients.get? t' = some state) :
    Talks (s.setCall t' none) (s.sendFirstSnapshot t') := by
  have hstate' : (s.setCall t' none).clients.get? t' = some state := hstate
  unfold ControlServer.sendFirstSnapshot
  dsimp only
  rw [hstate']
  exact (stamp_talks hstate' _).trans (broadcast_talks ..)

theorem messages_sendFirstSnapshot {state : ClientState T}
    (hstate : s.clients.get? t' = some state) (hlistening : Listening s t) :
    messages (s.sendFirstSnapshot t') t = messages s t ++
      if t' = t then [s.snapshotFor state state.nextSeq]
      else [.clientCountChanged s.transports.length] := by
  have hstate' : (s.setCall t' none).clients.get? t' = some state := hstate
  have hlistening' : Listening (s.setCall t' none) t := hlistening
  have hstamp := stamp_talks hstate' ((s.setCall t' none).snapshotFor state)
  unfold ControlServer.sendFirstSnapshot
  dsimp only
  rw [hstate']
  dsimp only
  rw [ControlServer.broadcastClientCountTo, messages_broadcast (hstamp.listening.mpr hlistening'),
    messages_stamp hstate' _ hlistening'.2, hstamp.transports]
  by_cases heq : t' = t
  · simp only [heq, if_true, List.append_nil]
    rfl
  · simp only [if_neg heq, List.append_nil, if_neg fun h => heq (Option.some.inj h).symm]
    rfl

theorem cleanupClient_talks {state : ClientState T} (hstate : s.clients.get? t' = some state) :
    Talks (s.forget t' state.connectionId) (s.cleanupClient t') := by
  unfold ControlServer.cleanupClient
  rw [hstate]
  dsimp only
  split
  · exact broadcast_talks ..
  · exact .refl _

/-- The count that the others are told. -/
theorem messages_cleanupClient {state : ClientState T} (hlistening : Listening s t)
    (hstate : s.clients.get? t' = some state) (hne : t' ≠ t) :
    messages (s.cleanupClient t') t =
      messages s t ++ [.clientCountChanged (s.cleanupClient t').transports.length] := by
  have hlistening' : Listening (s.forget t' state.connectionId) t :=
    (forget_listening s t' state.connectionId t).mpr ⟨hne.symm, hlistening⟩
  have hpos : 0 < (s.forget t' state.connectionId).transports.length :=
    List.length_pos_of_mem (mem_transports.mpr hlistening'.1)
  have hcleanup : s.cleanupClient t' =
      (s.forget t' state.connectionId).broadcastClientCountTo none := by
    unfold ControlServer.cleanupClient
    rw [hstate]
    exact if_pos hpos
  rw [(cleanupClient_talks hstate).transports, hcleanup]
  exact messages_broadcast hlistening' none _

/-! ## The invariant -/

/-- A model change that deltas can tell. -/
def Covered (change : SessionModel × SessionModel) : Prop :=
  change.1.boundSession.map Session.sessionId = change.2.boundSession.map Session.sessionId ∧
    DeltasCover change.1 change.2

/-- The model changes since a client was sent its last snapshot. -/
def since (t : T) (changes : List (SessionModel × SessionModel)) :
    Event T → List (SessionModel × SessionModel)
  | .modelChange prev next _ => changes ++ [(prev, next)]
  | .sendFirstSnapshot t' | .resyncRequest t' => if t' = t then [] else changes
  | _ => changes

/-- The pipeline tells a change from the model that it has. -/
def Chained (s : ControlServer T) (event : Event T) : Prop :=
  ∀ prev next opts, event = .modelChange prev next opts → prev = s.model

/-- The stream of a client that has its first snapshot shows the model of the server, and the
number of clients unless one is being added. -/
structure Told (t : T) (changes : List (SessionModel × SessionModel)) (s : ControlServer T)
    (state : ClientState T) : Prop where
  begun : ∃ message ∈ messages s t, isSnapshot message = true
  view : (∀ change ∈ changes, Covered change) →
    ∃ count, ShowsSame (view s t) (replica s.model (viewOpts state count)) ∧
      (count = s.transports.length ∨ Arriving s)

/-- What holds of one client in every run. -/
structure Shows (t : T) (changes : List (SessionModel × SessionModel)) (s : ControlServer T) :
    Prop where
  subscribed : s.clients.has t = true → s.calls t ≠ some .binding → t ∈ s.handlers.values
  told : ∀ state, s.clients.get? t = some state → t ∉ s.closed → s.calls t = none →
    Told t changes s state

theorem begun_append {ms : List SessionProxyMessage}
    (h : ∃ message ∈ messages s t, isSnapshot message = true)
    (hmessages : messages s' t = messages s t ++ ms) :
    ∃ message ∈ messages s' t, isSnapshot message = true := by
  obtain ⟨message, hmem, hkind⟩ := h
  exact ⟨message, hmessages ▸ List.mem_append_left ms hmem, hkind⟩

namespace Shows

variable {changes : List (SessionModel × SessionModel)}

/-- Messages that carry no state. -/
theorem talk (h : Shows t changes s) (htalks : Talks s s') {ms : List SessionProxyMessage}
    (hplain : ms = [] ∨ ms = [.notStateBearing])
    (hmessages : Listening s t → messages s' t = messages s t ++ ms) : Shows t changes s' := by
  refine ⟨?_, fun state' hstate' hopen hcall => ?_⟩
  · rw [htalks.has, htalks.calls, htalks.handlers]
    exact h.subscribed
  · obtain ⟨state, hstate, hcredentials⟩ := Option.map_eq_some_iff.mp
      ((htalks.get? t).symm.trans (congrArg (Option.map credentials) hstate'))
    rw [htalks.closed] at hopen
    rw [htalks.calls] at hcall
    have hsame := hmessages ⟨KeyedMap.has_iff.mpr ⟨state, hstate⟩, hopen⟩
    obtain ⟨hbegun, hview⟩ := h.told state hstate hopen hcall
    refine ⟨begun_append hbegun hsame, fun hcovered => ?_⟩
    obtain ⟨count, hshows, hcount⟩ := hview hcovered
    refine ⟨count, ?_, hcount.imp (fun hcount => hcount.trans ?_) htalks.arriving⟩
    · rw [view, hsame, List.foldl_append, htalks.model, ← viewOpts_congr hcredentials]
      rcases hplain with rfl | rfl <;> exact hshows
    · exact congrArg List.length htalks.transports.symm

theorem sendTo (h : Shows t changes s) (t' : T) :
    Shows t changes (s.sendTo t' fun _ => .notStateBearing) := by
  refine h.talk (sendTo_talks s t' _) ?_ fun hlistening => messages_sendTo hlistening _
  split
  · exact .inr rfl
  · exact .inl rfl

theorem broadcast (h : Shows t changes s) : Shows t changes (s.broadcast none .notStateBearing) :=
  h.talk (broadcast_talks s none _) (.inr rfl) fun hlistening =>
    messages_broadcast hlistening none _

/-- The count of clients is told to those that stay. -/
theorem cleanupClient (h : Shows t changes s) (t' : T) : Shows t changes (s.cleanupClient t') := by
  rcases hstate' : s.clients.get? t' with _ | left
  · unfold ControlServer.cleanupClient
    rwa [hstate']
  have htalks := cleanupClient_talks hstate'
  have hget : ((s.cleanupClient t').clients.get? t).map credentials =
      if t = t' then none else (s.clients.get? t).map credentials := by
    rw [htalks.get?]
    show ((s.clients.delete t').get? t).map credentials = _
    rw [KeyedMap.get?_delete]
    split <;> rfl
  have hne {state : ClientState T} (hstate : (s.cleanupClient t').clients.get? t = some state) :
      t ≠ t' := by
    rintro rfl
    rw [if_pos rfl, hstate] at hget
    cases hget
  refine ⟨fun hhas => ?_, fun state hstate hopen hcall => ?_⟩
  · obtain ⟨state, hstate⟩ := KeyedMap.has_iff.mp hhas
    rw [if_neg (hne hstate), hstate] at hget
    obtain ⟨old, hold, -⟩ := Option.map_eq_some_iff.mp hget.symm
    rw [htalks.calls, htalks.handlers]
    intro hcall
    exact OrderedSet.mem_delete.mpr
      ⟨h.subscribed (KeyedMap.has_iff.mpr ⟨old, hold⟩) hcall, hne hstate⟩
  · have hother := hne hstate
    rw [if_neg hother, hstate] at hget
    obtain ⟨old, hold, hcredentials⟩ := Option.map_eq_some_iff.mp hget.symm
    rw [htalks.closed] at hopen
    rw [htalks.calls] at hcall
    have hmessages := messages_cleanupClient ⟨KeyedMap.has_iff.mpr ⟨old, hold⟩, hopen⟩ hstate'
      hother.symm
    obtain ⟨hbegun, hview⟩ := h.told old hold hopen hcall
    refine ⟨begun_append hbegun hmessages, fun hcovered => ?_⟩
    obtain ⟨count, hshows, -⟩ := hview hcovered
    refine ⟨_, ?_, .inl rfl⟩
    rw [view, hmessages, List.foldl_append, htalks.model, ← viewOpts_congr hcredentials]
    exact showsSame_see hshows (.clientCountChanged _)

theorem closeTransport (h : Shows t changes s) (t' : T) :
    Shows t changes (s.closeTransport t') := by
  have hclosed : Shows t changes { s with closed := insert t' s.closed } :=
    ⟨h.subscribed, fun state hstate hopen hcall =>
      have ⟨hbegun, hview⟩ := h.told state hstate
        (fun hmem => hopen (Finset.mem_insert_of_mem hmem)) hcall
      ⟨hbegun, hview⟩⟩
  unfold ControlServer.closeTransport
  split
  · exact h
  · dsimp only
    split
    · exact hclosed.cleanupClient t'
    · exact hclosed

theorem addClient (h : Shows t changes s) (t' : T) (startSeq : Nat) (identity : Option String) :
    Shows t changes (s.addClient t' startSeq identity) := by
  obtain ⟨hclients, -, hclosed, hsent⟩ := mintConnectionId_frame s
  have hrest : s.mintConnectionId.2.handlers = s.handlers ∧
      s.mintConnectionId.2.calls = s.calls ∧ s.mintConnectionId.2.model = s.model := by
    unfold ControlServer.mintConnectionId
    split <;> exact ⟨rfl, rfl, rfl⟩
  obtain ⟨hhandlers, hcalls, hmodel⟩ := hrest
  have hcall (t₁ : T) : (s.addClient t' startSeq identity).calls t₁ =
      if t₁ = t' then some .binding else s.calls t₁ := by
    rw [← hcalls]
    rfl
  have hget (t₁ : T) : (s.addClient t' startSeq identity).clients.get? t₁ =
      if t' = t₁ then some ⟨t', startSeq, s.mintConnectionId.1, identity⟩
      else s.clients.get? t₁ := by
    rw [← hclients]
    exact KeyedMap.get?_set ..
  have harriving : Arriving (s.addClient t' startSeq identity) := by
    refine ⟨t', KeyedMap.has_iff.mpr ⟨_, (hget t').trans (if_pos rfl)⟩, ?_⟩
    rw [hcall, if_pos rfl]
    exact Option.some_ne_none _
  have hmessages : messages (s.addClient t' startSeq identity) t = messages s t := by
    show (s.mintConnectionId.2.sent.filter _).map _ = _
    rw [hsent]
    rfl
  refine ⟨fun hhas hbound => ?_, fun state hstate hopen hnone => ?_⟩
  · rw [hcall] at hbound
    split at hbound
    · exact absurd rfl hbound
    · next hne =>
      have hold : s.clients.has t = true := by
        rw [KeyedMap.has, hget, if_neg (Ne.symm hne)] at hhas
        exact hhas
      exact hhandlers.symm ▸ h.subscribed hold hbound
  · rw [hcall] at hnone
    split at hnone
    · cases hnone
    · next hne =>
      rw [hget, if_neg (Ne.symm hne)] at hstate
      have hopen' : t ∉ s.closed := hclosed ▸ hopen
      obtain ⟨hbegun, hview⟩ := h.told state hstate hopen' hnone
      refine ⟨hmessages.symm ▸ hbegun, fun hcovered => ?_⟩
      obtain ⟨count, hshows, -⟩ := hview hcovered
      have hmodel' : (s.addClient t' startSeq identity).model = s.model := hmodel
      refine ⟨count, ?_, .inr harriving⟩
      rw [view, hmessages, hmodel']
      exact hshows

/-- A call of `addClient` goes on, or ends for a client that has left. -/
theorem setCall (h : Shows t changes s) {call : Option Await}
    (hlater : s.clients.has t' = true → call ≠ none)
    (hsubscribed : t = t' → s.clients.has t = true → t ∈ s.handlers.values) :
    Shows t changes (s.setCall t' call) := by
  have hcalls (t₁ : T) : (s.setCall t' call).calls t₁ = if t₁ = t' then call else s.calls t₁ := rfl
  refine ⟨fun hhas hbound => ?_, fun state hstate hopen hnone => ?_⟩
  · rw [hcalls] at hbound
    split at hbound
    · next heq => exact hsubscribed heq hhas
    · exact h.subscribed hhas hbound
  · rw [hcalls] at hnone
    split at hnone
    · next heq => exact absurd hnone (hlater (heq ▸ KeyedMap.has_iff.mpr ⟨state, hstate⟩))
    · obtain ⟨hbegun, hview⟩ := h.told state hstate hopen hnone
      refine ⟨hbegun, fun hcovered => ?_⟩
      obtain ⟨count, hshows, hcount⟩ := hview hcovered
      refine ⟨count, hshows, hcount.imp id ?_⟩
      rintro ⟨t₁, hhas, hbusy⟩
      refine ⟨t₁, hhas, ?_⟩
      rw [hcalls]
      split
      · next heq => exact hlater (heq ▸ hhas)
      · exact hbusy

theorem subscribe (h : Shows t changes s) (t' : T) : Shows t changes (s.subscribe t') := by
  unfold ControlServer.subscribe
  split
  · next hhas =>
    have hhandlers : Shows t changes
        { s with handlers := s.handlers.set t', hooked := insert t' s.hooked } :=
      ⟨fun hhas hcall => OrderedSet.mem_set.mpr (.inr (h.subscribed hhas hcall)),
        fun state hstate hopen hcall =>
          have ⟨hbegun, hview⟩ := h.told state hstate hopen hcall
          ⟨hbegun, hview⟩⟩
    exact hhandlers.setCall (fun _ => Option.some_ne_none _)
      fun heq _ => OrderedSet.mem_set.mpr (.inl heq)
  · next hhas =>
    exact h.setCall (fun hhas' => absurd hhas' hhas) fun heq hhas' =>
      absurd (heq ▸ hhas') hhas

/-- A client is sent a snapshot. -/
theorem stamp_snapshot {state : ClientState T} (h : Shows t changes s)
    (hstate : s.clients.get? t' = some state) :
    Shows t (if t' = t then [] else changes) (s.stamp state (s.snapshotFor state)) := by
  have htalks := stamp_talks hstate (s.snapshotFor state)
  by_cases heq : t' = t
  · subst heq
    refine ⟨?_, fun state' hstate' hopen _ => ?_⟩
    · rw [htalks.has, htalks.calls, htalks.handlers]
      exact h.subscribed
    · have hcredentials := htalks.get? t'
      rw [hstate, hstate'] at hcredentials
      have hmessages := messages_stamp hstate (s.snapshotFor state) (htalks.closed ▸ hopen)
      rw [if_pos rfl] at hmessages
      refine ⟨⟨_, hmessages ▸ List.mem_concat_self, rfl⟩, fun _ => ⟨s.transports.length, ?_, ?_⟩⟩
      · rw [view, hmessages, List.foldl_append, htalks.model,
          viewOpts_congr (Option.some.inj hcredentials)]
        exact .refl _
      · exact .inl (congrArg List.length htalks.transports.symm)
  · rw [if_neg heq]
    refine h.talk htalks (.inl rfl) fun hlistening => ?_
    rw [messages_stamp hstate _ hlistening.2, if_neg heq]

/-- The first snapshot of a client, and the count for the others. -/
theorem sendFirstSnapshot (h : Shows t changes s) (hcall : s.calls t' = some .snapshot) :
    Shows t (if t' = t then [] else changes) (s.sendFirstSnapshot t') := by
  rcases hstate' : s.clients.get? t' with _ | arrived
  · have hgone : ¬s.clients.has t' = true := by simp [KeyedMap.has, hstate']
    have hsame : s.sendFirstSnapshot t' = s.setCall t' none := by
      unfold ControlServer.sendFirstSnapshot
      dsimp only
      rw [show (s.setCall t' none).clients.get? t' = none from hstate']
    have hnone : Shows t changes (s.setCall t' none) :=
      h.setCall (fun hhas => absurd hhas hgone) fun heq hhas => absurd (heq ▸ hhas) hgone
    rw [hsame]
    split
    · next heq =>
      refine ⟨hnone.subscribed, fun state hstate => ?_⟩
      exact absurd (KeyedMap.has_iff.mpr ⟨state, heq ▸ hstate⟩) hgone
    · exact hnone
  have htalks := sendFirstSnapshot_talks hstate'
  have hcalls (t₁ : T) : (s.sendFirstSnapshot t').calls t₁ =
      if t₁ = t' then none else s.calls t₁ := by
    rw [htalks.calls]
    rfl
  refine ⟨fun hhas hbound => ?_, fun state hstate hopen hnone => ?_⟩
  · rw [htalks.handlers]
    rw [htalks.has] at hhas
    rw [hcalls] at hbound
    refine h.subscribed hhas ?_
    split at hbound
    · next heq =>
      rw [heq, hcall]
      decide
    · exact hbound
  · obtain ⟨old, hold, hcredentials⟩ := Option.map_eq_some_iff.mp
      ((htalks.get? t).symm.trans (congrArg (Option.map credentials) hstate))
    have hopen' : t ∉ s.closed := htalks.closed ▸ hopen
    have hmessages := messages_sendFirstSnapshot hstate'
      ⟨KeyedMap.has_iff.mpr ⟨old, hold⟩, hopen'⟩
    have hcount := congrArg List.length htalks.transports.symm
    by_cases heq : t' = t
    · subst heq
      obtain rfl : arrived = old := Option.some.inj (hstate'.symm.trans hold)
      rw [if_pos rfl] at hmessages
      refine ⟨⟨_, hmessages ▸ List.mem_concat_self, rfl⟩, fun _ => ⟨_, ?_, .inl hcount⟩⟩
      rw [view, hmessages, List.foldl_append, htalks.model, ← viewOpts_congr hcredentials]
      exact .refl _
    · rw [hcalls, if_neg (Ne.symm heq)] at hnone
      rw [if_neg heq] at hmessages
      obtain ⟨hbegun, hview⟩ := h.told old hold hopen' hnone
      rw [if_neg heq]
      refine ⟨begun_append hbegun hmessages, fun hcovered => ?_⟩
      obtain ⟨count, hshows, -⟩ := hview hcovered
      refine ⟨_, ?_, .inl hcount⟩
      rw [view, hmessages, List.foldl_append, htalks.model, ← viewOpts_congr hcredentials]
      exact showsSame_see hshows (.clientCountChanged _)

/-- The deltas of a change. -/
theorem modelChange (h : Shows t changes s) (next : SessionModel) (opts : T → DiffOptions) :
    Shows t (changes ++ [(s.model, next)]) (s.modelChange s.model next opts) := by
  have htalks := modelChange_talks s s.model next opts
  refine ⟨?_, fun state hstate hopen hnone => ?_⟩
  · rw [htalks.has, htalks.calls, htalks.handlers]
    exact h.subscribed
  · obtain ⟨old, hold', hcredentials⟩ := Option.map_eq_some_iff.mp
      ((htalks.get? t).symm.trans (congrArg (Option.map credentials) hstate))
    have hold : s.clients.get? t = some old := hold'
    have hopen' : t ∉ s.closed := htalks.closed ▸ hopen
    have hnone' : s.calls t = none := htalks.calls ▸ hnone
    have hsubscribed := h.subscribed (KeyedMap.has_iff.mpr ⟨old, hold⟩) (by rw [hnone']; decide)
    have hmessages := messages_modelChange hold hopen' hsubscribed s.model next opts
    obtain ⟨hbegun, hview⟩ := h.told old hold hopen' hnone'
    refine ⟨begun_append hbegun hmessages, fun hcovered => ?_⟩
    obtain ⟨count, hshows, hcount⟩ := hview fun change hchange =>
      hcovered change (List.mem_append_left _ hchange)
    obtain ⟨hbound, hcover⟩ := hcovered (s.model, next) (by simp)
    refine ⟨count, ?_, hcount.imp (fun hcount => hcount.trans ?_) htalks.arriving⟩
    · rw [view, hmessages, List.foldl_append, htalks.model, ← viewOpts_congr hcredentials]
      refine (showsSame_foldl_see hshows _).trans ?_
      rw [foldl_see_deltas fun delta hdelta => isSnapshot_delta hdelta]
      exact (showsSame_iff_cover hbound rfl).mpr hcover
    · exact congrArg List.length htalks.transports.symm

theorem step (h : Shows t changes s) {event : Event T} (hchained : Chained s event)
    (hstep : Runtime.Serve.step s event = some s') : Shows t (since t changes event) s' := by
  cases event with
  | addClient t' startSeq identity =>
    simp only [Runtime.Serve.step, Option.ite_none_right_eq_some, Option.some.injEq] at hstep
    obtain ⟨-, rfl⟩ := hstep
    exact h.addClient t' startSeq identity
  | subscribe t' =>
    simp only [Runtime.Serve.step, Option.ite_none_right_eq_some, Option.some.injEq] at hstep
    obtain ⟨-, rfl⟩ := hstep
    exact h.subscribe t'
  | sendFirstSnapshot t' =>
    simp only [Runtime.Serve.step, Option.ite_none_right_eq_some, Option.some.injEq] at hstep
    obtain ⟨hcall, rfl⟩ := hstep
    exact h.sendFirstSnapshot hcall
  | closeTransport t' =>
    cases hstep
    exact h.closeTransport t'
  | removeClient t' =>
    cases hstep
    exact h.cleanupClient t'
  | modelChange prev next opts =>
    cases hstep
    obtain rfl := hchained prev next opts rfl
    exact h.modelChange next opts
  | paneNotify =>
    cases hstep
    unfold ControlServer.broadcastPaneNotify
    split
    · exact h
    · exact h.broadcast
  | broadcastError =>
    cases hstep
    exact h.broadcast
  | broadcastErrorAndClose =>
    cases hstep
    exact foldl_keeps (P := Shows t changes) h fun t' _ _ hs => (hs.sendTo t').closeTransport t'
  | sendCommandResponse t' | sendDirected t' =>
    cases hstep
    exact h.sendTo t'
  | resyncRequest t' =>
    cases hstep
    unfold ControlServer.handleResyncRequest
    split
    · next hstate' =>
      show Shows t (if t' = t then [] else changes) s
      split
      · next heq =>
        refine ⟨h.subscribed, fun state hstate => ?_⟩
        rw [← heq, hstate'] at hstate
        cases hstate
      · exact h
    · next hstate' => exact h.stamp_snapshot hstate'

end Shows

/-! ## Runs -/

/-- The model changes of a run since the client was sent its last snapshot. -/
def changesSince (t : T) (events : List (Event T)) : List (SessionModel × SessionModel) :=
  events.foldl (since t) []

theorem Shows.exec {changes : List (SessionModel × SessionModel)} {events : List (Event T)}
    (h : Shows t changes s) (hchained : Along Runtime.Serve.step Chained s events)
    (hrun : Lib.exec Runtime.Serve.step s events = some s') :
    Shows t (events.foldl (since t) changes) s' := by
  induction events generalizing s changes with
  | nil =>
    cases hrun
    exact h
  | cons event events ih =>
    obtain ⟨s₁, hstep, hrest⟩ := Option.bind_eq_some_iff.mp hrun
    exact ih (h.step hchained.1 hstep) (hchained.2 s₁ hstep) hrest

theorem shows_of_run {model : SessionModel} {events : List (Event T)} (t : T)
    (hchained : Along Runtime.Serve.step Chained (createControlServer model) events)
    (hrun : exec Runtime.Serve.step (createControlServer model) events = some s) :
    Shows t (changesSince t events) s :=
  Shows.exec ⟨fun hhas => Bool.noConfusion hhas, fun _ hstate => by cases hstate⟩ hchained hrun

theorem Shows.settled {changes : List (SessionModel × SessionModel)} (h : Shows t changes s)
    {state : ClientState T} (hstate : s.clients.get? t = some state) (hopen : t ∉ s.closed)
    (hsettled : ¬Arriving s) : Told t changes s state := by
  refine h.told state hstate hopen ?_
  by_contra hbusy
  exact hsettled ⟨t, KeyedMap.has_iff.mpr ⟨state, hstate⟩, hbusy⟩

/-- The stream of a client that has its first snapshot shows what a resync would show, as long as
the deltas can tell the changes since its last snapshot. -/
theorem Shows.fresh {changes : List (SessionModel × SessionModel)} (h : Shows t changes s)
    {state : ClientState T} (hstate : s.clients.get? t = some state) (hopen : t ∉ s.closed)
    (hsettled : ¬Arriving s) (hcovered : ∀ change ∈ changes, Covered change) :
    ShowsSame (ServedView.view s t) (freshView s state) := by
  obtain ⟨count, hshows, hcount⟩ := (h.settled hstate hopen hsettled).view hcovered
  rw [freshView, ← hcount.resolve_right hsettled]
  exact hshows

end ServedView

end TmuxccDriver.Client
