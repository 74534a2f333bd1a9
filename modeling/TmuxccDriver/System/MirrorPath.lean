import TmuxccDriver.Client.ServedView
import TmuxccDriver.System.OutputPath

/-!
# The way of the model to a client's mirror

The control server, the path of one client's transport and the client's mirror. What the server
stamps for the client goes the way of the panes' output: the same socket, and the same connection
up to its control handler, which is the mirror's. Panes print, other clients come and go, and the
driver's model changes meanwhile.

Nothing is lost on this way, so the mirror sees no gap; and once everything on the way has come,
what its deltas have made of the snapshot is what a new snapshot would be.

Results:
1. `run_first`: a mirror that is given the first messages of a stream sees no gap.
2. `control_step`: what a step of the path does to the control plane.
3. `Inv.step`: what every step keeps that meets `Orderly`.
4. `mirror_is_current`: the mirror at rest shows what a resync would show.
-/

namespace TmuxccDriver.System.MirrorPath
open TmuxccDriver.Lib TmuxccDriver.Protocol TmuxccDriver.State TmuxccDriver.Runtime.Serve
open TmuxccDriver.Client TmuxccDriver.Client.ServedView
open TmuxccDriver.Client.Connection (SessionProxyConnection Plane Arrival)
open TmuxccDriver.Transport (Item)
open TmuxccDriver.System.OutputPath (Setup Handler Sendable plane_step arriving dispatched_step
  planeOf filterMap_numbered)

/-! ## A mirror that misses nothing -/

section Mirror

variable {T : Type} {history done : List (Sent T)}

/-- A mirror that is given the first messages of a stream sees no gap. -/
theorem run_first (h : Numbered history) (hfirst : done <+: history) :
    (Mirror.run done).effects = [] ∧
      ∀ k, (Mirror.run done).lastSeq = some k → ∃ m ∈ done.getLast?, m.seq = k := by
  have hchain : history.IsChain fun m m' => m'.seq = m.seq + 1 := by
    obtain ⟨start, hseqs⟩ := h.seqs
    have hrange := List.isChain_range' start history.length 1
    rwa [← hseqs, List.isChain_map] at hrange
  induction done using List.reverseRecOn with
  | nil => exact ⟨rfl, fun k hk => by cases hk⟩
  | append_singleton done m ih =>
    obtain ⟨heffects, hlast⟩ := ih ((List.prefix_append done [m]).trans hfirst)
    have hmem : m ∈ history := hfirst.subset (List.mem_append_right _ List.mem_cons_self)
    rw [run_append, List.getLast?_concat]
    cases hkind : isSnapshot m.message with
    | true =>
      obtain ⟨snapshot, hsnapshot⟩ : ∃ snapshot, m.message = .snapshot snapshot := by
        revert hkind
        cases m.message <;> simp [isSnapshot]
      rw [receive_snapshot hsnapshot]
      refine ⟨heffects, fun k hk => ⟨m, rfl, ?_⟩⟩
      rw [← h.stamped m hmem snapshot hsnapshot]
      exact Option.some.inj hk
    | false =>
      rcases hseq : (Mirror.run done).lastSeq with _ | k
      · rw [receive_unstarted hkind hseq]
        exact ⟨heffects, fun k hk => by simp [hseq] at hk⟩
      · -- the number it waits for is the one after the last it was given
        have hsub := ((List.prefix_append done [m]).trans hfirst).sublist
        have hstarted : (Mirror.run done).initialized = true := by
          rw [(Tracks.run h hsub).started, hseq]
          rfl
        obtain ⟨x, hx, hxk⟩ := hlast k hseq
        have hgiven := List.IsChain.prefix hchain hfirst
        have hnext : m.seq = k + 1 := by
          rw [← hxk]
          exact (List.isChain_append.mp hgiven).2.2 x hx m rfl
        rw [receive_expected hkind hseq hstarted hnext]
        exact ⟨heffects, fun k' hk' => ⟨m, rfl, Option.some.inj hk'⟩⟩

end Mirror

/-! ## The world -/

/-- A control message: one of the handshake, or one of the server with its number. -/
inductive WireMessage
  | handshake (text : String)
  | stamped (seq : Nat) (message : SessionProxyMessage)
deriving DecidableEq

section World

variable {T : Type}

def outgoing (m : Sent T) : OutputPath.Sent WireMessage := .control (.stamped m.seq m.message)

/-- The message of the server that this is, if it is one. -/
def WireMessage.stamped? (transport : T) : WireMessage → Option (Sent T)
  | .stamped seq message => some ⟨transport, seq, message⟩
  | .handshake _ => none

def stampedOf (transport : T) : Item WireMessage → Option (Sent T)
  | .control msg => msg.stamped? transport
  | .data .. => none

/-- The handler that `connectTo` installs. -/
def hear (transport : T) (mirror : Mirror) (item : Item WireMessage) : Mirror :=
  match stampedOf transport item with
  | some m => mirror.receive m
  | none => mirror

/-- `taken` counts the calls of the mirror's handler. -/
structure World (T η : Type) where
  server : ControlServer T
  path : OutputPath.World T WireMessage η
  mirror : Mirror
  taken : Nat

inductive Event (T η : Type)
  | serve (event : Runtime.Serve.Event T)
  | path (event : OutputPath.Event T WireMessage η)
  /-- The mirror takes what the connection has delivered. -/
  | take

def Event.serve? {η : Type} : Event T η → Option (Runtime.Serve.Event T)
  | .serve event => some event
  | _ => none

def start (T η : Type) (dcs : Bool) (model : SessionModel) : World T η where
  server := createControlServer model
  path := OutputPath.start T WireMessage η dcs
  mirror := {}
  taken := 0

end World

section Steps

variable {T η : Type} [DecidableEq T] [DecidableEq η] (S : Setup T WireMessage)

/-- What a step of the server sends to a transport. -/
def accepted (server server' : ControlServer T) (transport : T) : List (Sent T) :=
  (received server' transport).drop (received server transport).length

/-- One event; `none` if it cannot happen now. -/
def step (w : World T η) (event : Event T η) : Option (World T η) :=
  match event with
  | .serve event =>
    (Runtime.Serve.step w.server event).map fun server =>
      { w with
        server
        path := w.path.transmit S ((accepted w.server server S.transport).map outgoing) }
  | .path (.control (.stamped ..)) => none
  | .path event => (OutputPath.step S w.path event).map fun path => { w with path }
  | .take =>
    ((w.path.connection.deliveries .control)[w.taken]?).map fun arrival =>
      { w with
        mirror := hear S.transport w.mirror arrival.message
        taken := w.taken + 1 }

/-- The pipeline tells its changes one after the other, the stages of the path handle what they are
given as they say, and the handshake is over when the first message of the server comes. -/
structure Orderly (w : World T η) (event : Event T η) : Prop where
  serve : ∀ e, event = .serve e → Chained w.server e
  path : ∀ e, event = .path e → OutputPath.Orderly S w.path e
  handshake : event = .path .hand → ∀ seq message,
    w.path.socket.dispatched[w.path.handed]? ≠ some (.handshake, .control (.stamped seq message))

end Steps

/-! ## The server's stream -/

section Stream

variable {T : Type} [DecidableEq T] {server server' : ControlServer T}

/-- What a transport has accepted it keeps. -/
theorem sent_stamp (server : ControlServer T) (state : ClientState T)
    (message : Nat → SessionProxyMessage) : server.sent <+: (server.stamp state message).sent := by
  unfold ControlServer.stamp
  dsimp only
  split
  · exact List.prefix_refl _
  · exact List.prefix_append _ _

theorem sent_sendTo (server : ControlServer T) (t : T) (message : Nat → SessionProxyMessage) :
    server.sent <+: (server.sendTo t message).sent := by
  unfold ControlServer.sendTo
  split
  · exact List.prefix_refl _
  · exact sent_stamp ..

omit [DecidableEq T] in
theorem sent_foldl {α : Type} {f : ControlServer T → α → ControlServer T}
    (hf : ∀ server a, server.sent <+: (f server a).sent) (server : ControlServer T) (as : List α) :
    server.sent <+: (as.foldl f server).sent :=
  foldl_keeps (P := fun s => server.sent <+: s.sent) (List.prefix_refl _)
    fun a s _ hs => hs.trans (hf s a)

theorem sent_broadcast (server : ControlServer T) (exclude : Option T)
    (message : SessionProxyMessage) : server.sent <+: (server.broadcast exclude message).sent :=
  sent_foldl (fun server t => sent_sendTo server t _) server _

theorem sent_cleanupClient (server : ControlServer T) (t : T) :
    server.sent <+: (server.cleanupClient t).sent := by
  unfold ControlServer.cleanupClient
  split
  · exact List.prefix_refl _
  · dsimp only
    split
    · exact sent_broadcast (server.forget t _) none _
    · exact List.prefix_refl _

theorem sent_closeTransport (server : ControlServer T) (t : T) :
    server.sent <+: (server.closeTransport t).sent := by
  unfold ControlServer.closeTransport
  split
  · exact List.prefix_refl _
  · dsimp only
    split
    · exact sent_cleanupClient { server with closed := insert t server.closed } t
    · exact List.prefix_refl _

theorem sent_onModelChange (prev next : SessionModel) (opts : T → DiffOptions)
    (server : ControlServer T) (t : T) :
    server.sent <+: (ControlServer.onModelChange prev next opts server t).sent := by
  unfold ControlServer.onModelChange
  split
  · exact List.prefix_refl _
  · exact sent_foldl (fun server delta => sent_sendTo server t _) server _

theorem sent_step {event : Runtime.Serve.Event T}
    (hstep : Runtime.Serve.step server event = some server') : server.sent <+: server'.sent := by
  cases event with
  | addClient t startSeq identity =>
    simp only [Runtime.Serve.step, Option.ite_none_right_eq_some, Option.some.injEq] at hstep
    obtain ⟨-, rfl⟩ := hstep
    have hsent : (server.addClient t startSeq identity).sent = server.sent :=
      (mintConnectionId_frame server).2.2.2
    exact hsent ▸ List.prefix_refl _
  | subscribe t =>
    simp only [Runtime.Serve.step, Option.ite_none_right_eq_some, Option.some.injEq] at hstep
    obtain ⟨-, rfl⟩ := hstep
    unfold ControlServer.subscribe
    split <;> exact List.prefix_refl _
  | sendFirstSnapshot t =>
    simp only [Runtime.Serve.step, Option.ite_none_right_eq_some, Option.some.injEq] at hstep
    obtain ⟨-, rfl⟩ := hstep
    unfold ControlServer.sendFirstSnapshot
    dsimp only
    split
    · exact List.prefix_refl _
    · exact (sent_stamp (server.setCall t none) _ _).trans (sent_broadcast ..)
  | closeTransport t =>
    cases hstep
    exact sent_closeTransport server t
  | removeClient t =>
    cases hstep
    exact sent_cleanupClient server t
  | modelChange prev next opts =>
    cases hstep
    exact sent_foldl (sent_onModelChange prev next opts) { server with model := next } _
  | paneNotify =>
    cases hstep
    unfold ControlServer.broadcastPaneNotify
    split
    · exact List.prefix_refl _
    · exact sent_broadcast ..
  | broadcastError =>
    cases hstep
    exact sent_broadcast ..
  | broadcastErrorAndClose =>
    cases hstep
    exact sent_foldl (fun s t => (sent_sendTo s t _).trans (sent_closeTransport ..)) server _
  | sendCommandResponse t | sendDirected t =>
    cases hstep
    exact sent_sendTo ..
  | resyncRequest t =>
    cases hstep
    unfold ControlServer.handleResyncRequest
    split
    · exact List.prefix_refl _
    · exact sent_stamp ..

/-- The stream of a transport goes on with what it accepts. -/
theorem received_step {event : Runtime.Serve.Event T}
    (hstep : Runtime.Serve.step server event = some server') (t : T) :
    received server' t = received server t ++ accepted server server' t := by
  obtain ⟨more, hmore⟩ := (sent_step hstep).filter fun m => m.transport = t
  have hreceived : received server' t = received server t ++ more := hmore.symm
  rw [accepted, hreceived, List.drop_left]

end Stream

/-! ## The control plane of the path -/

section Path

variable {T Msg η : Type} {S : Setup T Msg} {w w' : OutputPath.World T Msg η}
  {event : OutputPath.Event T Msg η}

/-- The control message that is sent, if it is one. -/
def controlOf : OutputPath.Sent Msg → Option Msg
  | .control msg => some msg
  | _ => none

/-- The control messages of a step. -/
def said : OutputPath.Event T Msg η → List Msg
  | .control msg => [msg]
  | _ => []

/-- What the handler of the handshake does not take. -/
def Passes (entry : Handler × Item Msg) : Prop :=
  planeOf entry.2 = .control ∧ entry.1 ≠ .handshake

instance : DecidablePred (Passes : Handler × Item Msg → Prop) := fun entry =>
  inferInstanceAs (Decidable (planeOf entry.2 = .control ∧ entry.1 ≠ .handshake))

/-- What a step does to the control plane: what it sends, what of the client's dispatched items
reaches the connection, and what the connection has delivered. -/
structure ControlStep (w w' : OutputPath.World T Msg η) (event : OutputPath.Event T Msg η) :
    Prop where
  sent : w'.sent.filterMap controlOf = w.sent.filterMap controlOf ++ said event
  handed : ∃ entries, w'.socket.dispatched.take w'.handed =
      w.socket.dispatched.take w.handed ++ entries ∧
    w'.connection.control.arrived =
      w.connection.control.arrived ++ (entries.filter fun entry => Passes entry).map Prod.snd ∧
    (∀ entry ∈ entries, event = .hand ∧ w.socket.dispatched[w.handed]? = some entry)
  delivered : w.connection.control.delivered <+: w'.connection.control.delivered

/-- A step that leaves the client alone. -/
theorem ControlStep.driver {sent : List (OutputPath.Sent Msg)} (hsent : w'.sent = w.sent ++ sent)
    (hsaid : sent.filterMap controlOf = said event) (hsocket : w'.socket = w.socket)
    (hhanded : w'.handed = w.handed) (hconnection : w'.connection = w.connection) :
    ControlStep w w' event where
  sent := by rw [hsent, List.filterMap_append, hsaid]
  handed := ⟨[], by rw [hsocket, hhanded, List.append_nil], by rw [hconnection]; simp,
    fun _ h => absurd h List.not_mem_nil⟩
  delivered := hconnection ▸ List.prefix_refl _

/-- The frames of the demux are no control messages. -/
theorem ControlStep.demux [DecidableEq T] {e : Runtime.Demux.Event T}
    {fed : OutputPath.World T Msg η}
    (hstep : fed.stepDemux S e = some w') (hfed : fed.sent = w.sent) (hsaid : said event = [])
    (hsocket : fed.socket = w.socket) (hhanded : fed.handed = w.handed)
    (hconnection : fed.connection = w.connection) : ControlStep w w' event := by
  obtain ⟨demux, -, rfl⟩ := Option.map_eq_some_iff.mp hstep
  refine .driver (congrArg (· ++ _) hfed) ?_ hsocket hhanded hconnection
  rw [hsaid, List.filterMap_filterMap]
  refine List.filterMap_eq_nil_iff.mpr fun frame _ => ?_
  unfold OutputPath.liveFor
  split <;> rfl

/-- The client's transport reads. -/
theorem ControlStep.socket {onWire : Bytes} {socket : Transport.Socket Handler Msg}
    {e : Transport.Event} (hhanded : w.handed ≤ w.socket.dispatched.length)
    (hstep : Transport.step S.codec S.react w.socket e = some socket) (hsaid : said event = []) :
    ControlStep w { w with socket, onWire } event where
  sent := by rw [hsaid, List.append_nil]
  handed := by
    obtain ⟨more, hmore⟩ := dispatched_step S.codec S.react hstep
    refine ⟨[], ?_, (List.append_nil _).symm, fun _ h => absurd h List.not_mem_nil⟩
    show socket.dispatched.take w.handed = _
    rw [← hmore, List.take_append_of_le_length hhanded, List.append_nil]
  delivered := List.prefix_refl _

/-- The connection moves and takes nothing. -/
theorem ControlStep.connection {e : Client.Connection.Event Unit (Item Msg)}
    (hstep : w.stepConnection e = some w') (harriving : arriving .control e = [])
    (hsaid : said event = []) : ControlStep w w' event := by
  obtain ⟨connection, hconnection, rfl⟩ := Option.map_eq_some_iff.mp hstep
  obtain ⟨hdelivered, harrived⟩ := plane_step .control hconnection
  rw [harriving] at harrived
  exact {
    sent := by rw [hsaid, List.append_nil]
    handed := ⟨[], (List.append_nil _).symm, harrived, fun _ h => absurd h List.not_mem_nil⟩
    delivered := hdelivered }

/-- The pane streams move. -/
theorem ControlStep.panes [DecidableEq η] {e : Client.PaneStream.Event PaneId η}
    (hstep : w.stepPanes S e = some w') (hsaid : said event = []) : ControlStep w w' event := by
  obtain ⟨_, -, rfl⟩ := Option.map_eq_some_iff.mp hstep
  exact .driver (List.append_nil _).symm hsaid.symm rfl rfl rfl

variable [DecidableEq T] [DecidableEq η]

/-- The connection, or the handshake, takes the next item. -/
theorem ControlStep.hand (hstep : OutputPath.step S w .hand = some w') :
    ControlStep w w' (.hand : OutputPath.Event T Msg η) := by
  simp only [OutputPath.step] at hstep
  split at hstep
  · next hlt =>
    have hitem := List.getElem?_eq_getElem hlt
    have hentry : ∀ entry ∈ [w.socket.dispatched[w.handed]], (.hand : OutputPath.Event T Msg η) =
        .hand ∧ w.socket.dispatched[w.handed]? = some entry := by
      intro entry hmem
      rw [List.mem_singleton.mp hmem]
      exact ⟨rfl, hitem⟩
    have htake : w.socket.dispatched.take (w.handed + 1) =
        w.socket.dispatched.take w.handed ++ [w.socket.dispatched[w.handed]] := by
      rw [List.take_add_one, hitem]
      rfl
    rcases hevent : w.connectionEvent (.hand : OutputPath.Event T Msg η) with _ | arrives
    · rw [hevent] at hstep
      cases hstep
      -- the handshake has taken a control message
      refine ⟨(List.append_nil _).symm, ⟨_, htake, ?_, hentry⟩, List.prefix_refl _⟩
      rw [OutputPath.World.connectionEvent, hitem] at hevent
      split at hevent
      · next msg hmsg =>
        rw [Option.some.inj hmsg]
        exact (List.append_nil _).symm
      · cases hevent
      · next hnone => cases hnone
    · rw [hevent] at hstep
      obtain ⟨connection, hconnection, rfl⟩ := Option.map_eq_some_iff.mp hstep
      obtain ⟨hdelivered, harrived⟩ := plane_step .control hconnection
      refine ⟨(List.append_nil _).symm, ⟨_, htake, harrived.trans ?_, hentry⟩, hdelivered⟩
      rw [OutputPath.World.connectionEvent, hitem] at hevent
      split at hevent
      · cases hevent
      · next handler item hother heq =>
        rw [Option.some.inj heq, ← Option.some.inj hevent]
        cases item with
        | data => rfl
        | control msg =>
          have hpasses : Passes (handler, Item.control msg) := by
            refine ⟨rfl, ?_⟩
            rintro rfl
            exact hother msg rfl rfl
          have hfilter : [(handler, Item.control msg)].filter (fun entry => Passes entry) =
              [(handler, Item.control msg)] := List.filter_cons_of_pos (decide_eq_true hpasses)
          rw [hfilter]
          rfl
      · cases hevent
  · cases hstep

theorem control_step (hhanded : w.handed ≤ w.socket.dispatched.length)
    (hstep : OutputPath.step S w event = some w') : ControlStep w w' event := by
  cases event with
  | tmux action =>
    obtain ⟨_, -, rfl⟩ := Option.map_eq_some_iff.mp hstep
    exact .driver (List.append_nil _).symm rfl rfl rfl rfl
  | dispatch =>
    simp only [OutputPath.step] at hstep
    split at hstep
    · rcases houtput : w.nextOutput S with _ | output
      · rw [houtput] at hstep
        cases hstep
        exact .driver (List.append_nil _).symm rfl rfl rfl rfl
      · rw [houtput] at hstep
        exact .demux hstep rfl rfl rfl rfl rfl
    · cases hstep
  | forget =>
    cases hstep
    exact .driver (List.append_nil _).symm rfl rfl rfl rfl
  | demux e =>
    cases e with
    | append => cases hstep
    | _ => exact .demux hstep rfl rfl rfl rfl rfl
  | replay | control =>
    cases hstep
    exact .driver rfl rfl rfl rfl rfl
  | read n =>
    have hread : (Transport.step S.codec S.react w.socket (.chunk (w.onWire.take n))).map
      (fun socket => { w with socket, onWire := w.onWire.drop n }) = some w' := hstep
    obtain ⟨socket, hsocket, rfl⟩ := Option.map_eq_some_iff.mp hread
    exact .socket hhanded hsocket rfl
  | immediate =>
    obtain ⟨socket, hsocket, rfl⟩ := Option.map_eq_some_iff.mp hstep
    exact .socket hhanded hsocket rfl
  | hand => exact .hand hstep
  | connection e =>
    cases e with
    | arrives => cases hstep
    | _ => exact .connection hstep rfl rfl
  | push =>
    simp only [OutputPath.step] at hstep
    split at hstep
    · cases hstep
    · exact .panes hstep rfl
  | panes e =>
    cases e with
    | push => cases hstep
    | _ => exact .panes hstep rfl

end Path

/-! ## The invariant -/

section Invariant

variable {T η : Type} [DecidableEq T] [DecidableEq η]

/-- The server's messages that the mirror has been called with. -/
def World.heard (S : Setup T WireMessage) (w : World T η) : List (Sent T) :=
  ((w.path.connection.deliveries .control).take w.taken).filterMap fun arrival =>
    stampedOf S.transport arrival.message

/-- The stream of the client is what was sent, and each stage has taken the first of it. -/
structure Inv (S : Setup T WireMessage) (w : World T η) : Prop where
  path : OutputPath.Inv S w.path
  counted : Counted w.server
  sent : (w.path.sent.filterMap controlOf).filterMap (WireMessage.stamped? S.transport) =
    received w.server S.transport
  arrived : w.path.connection.control.arrived.filterMap (stampedOf S.transport) =
    ((w.path.socket.dispatched.take w.path.handed).map Prod.snd).filterMap (stampedOf S.transport)
  mirror : w.mirror = Mirror.run (w.heard S)
  taken : w.taken ≤ (w.path.connection.deliveries .control).length

variable {S : Setup T WireMessage} {w w' : World T η}

omit [DecidableEq T] [DecidableEq η] in
theorem stamped_outgoing {ms : List (Sent T)} (hms : ∀ m ∈ ms, m.transport = S.transport) :
    ((ms.map outgoing).filterMap controlOf).filterMap (WireMessage.stamped? S.transport) = ms := by
  rw [List.filterMap_filterMap, List.filterMap_map]
  refine (List.filterMap_congr fun m hm => ?_).trans List.filterMap_some
  show some (⟨S.transport, m.seq, m.message⟩ : Sent T) = some m
  rw [← hms m hm]

/-- A step of the server. -/
theorem Inv.serve (h : Inv S w) {event : Runtime.Serve.Event T}
    (hstep : step S w (.serve event) = some w') : Inv S w' := by
  obtain ⟨server, hserver, rfl⟩ := Option.map_eq_some_iff.mp hstep
  have hreceived := received_step hserver S.transport
  have htransport : ∀ m ∈ accepted w.server server S.transport, m.transport = S.transport := by
    intro m hm
    have hmem : m ∈ received server S.transport := List.mem_of_mem_drop hm
    exact of_decide_eq_true (List.mem_filter.mp hmem).2
  refine { h with
    path := h.path.transmit ?_
    counted := h.counted.step hserver
    sent := ?_ }
  · rw [List.filterMap_map]
    exact List.filterMap_eq_nil_iff.mpr fun _ _ => rfl
  · show ((w.path.sent ++ _).filterMap controlOf).filterMap _ = received server S.transport
    rw [List.filterMap_append, List.filterMap_append, h.sent, stamped_outgoing htransport,
      hreceived]

/-- A step of the path. -/
theorem Inv.stepPath (h : Inv S w) {event : OutputPath.Event T WireMessage η}
    (hok : Orderly S w (.path event))
    (hsaid : said event = [] ∨ ∃ text, said event = [.handshake text])
    {path : OutputPath.World T WireMessage η}
    (hstep : OutputPath.step S w.path event = some path) : Inv S { w with path } := by
  obtain ⟨hsent, ⟨entries, htake, harrived, hentries⟩, hdelivered⟩ :=
    control_step h.path.handed hstep
  have hprefix : w.path.connection.deliveries .control <+: path.connection.deliveries .control :=
    hdelivered.map Prod.snd
  -- the handshake takes no message of the server
  have hpass : (entries.filter fun entry => Passes entry).filterMap
      (fun entry => stampedOf S.transport entry.2) =
        entries.filterMap fun entry => stampedOf S.transport entry.2 := by
    rw [List.filterMap_filter]
    refine List.filterMap_congr fun entry hentry => ?_
    split
    · rfl
    · next hnot =>
      obtain ⟨rfl, hitem⟩ := hentries entry hentry
      obtain ⟨handler, item⟩ := entry
      rcases item with (text | ⟨seq, message⟩) | _
      · rfl
      · refine absurd (decide_eq_true ?_) hnot
        refine ⟨rfl, ?_⟩
        rintro rfl
        exact hok.handshake rfl seq message hitem
      · rfl
  refine { h with
    path := h.path.step (hok.path event rfl) hstep
    sent := ?_
    arrived := ?_
    mirror := ?_
    taken := h.taken.trans hprefix.length_le }
  · rw [hsent, List.filterMap_append, h.sent]
    rcases hsaid with hnone | ⟨text, htext⟩
    · rw [hnone]
      exact List.append_nil _
    · rw [htext]
      exact List.append_nil _
  · rw [htake, harrived, List.filterMap_append, h.arrived, List.map_append, List.filterMap_append,
      List.filterMap_map, List.filterMap_map, List.filterMap_map]
    exact congrArg _ hpass
  · obtain ⟨more, hmore⟩ := hprefix
    show w.mirror = Mirror.run (((path.connection.deliveries .control).take w.taken).filterMap _)
    rw [← hmore, List.take_append_of_le_length h.taken]
    exact h.mirror

/-- The mirror takes the next message. -/
theorem Inv.take (h : Inv S w) (hstep : step S w .take = some w') : Inv S w' := by
  obtain ⟨arrival, harrival, rfl⟩ := Option.map_eq_some_iff.mp hstep
  refine { h with
    mirror := ?_
    taken := (List.getElem?_eq_some_iff.mp harrival).1 }
  show hear S.transport w.mirror arrival.message =
    Mirror.run (((w.path.connection.deliveries .control).take (w.taken + 1)).filterMap _)
  rw [List.take_add_one, List.filterMap_append, harrival, h.mirror]
  unfold hear
  split
  · next m hm =>
    rw [Option.toList_some, List.filterMap_cons, hm]
    exact (run_append m (w.heard S)).symm
  · next hnone =>
    rw [Option.toList_some, List.filterMap_cons, hnone]
    exact congrArg Mirror.run (List.append_nil _).symm

theorem Inv.step {event : Event T η} (h : Inv S w) (hok : Orderly S w event)
    (hstep : step S w event = some w') : Inv S w' := by
  cases event with
  | serve event => exact h.serve hstep
  | path event =>
    have hmoved
        (hsame : (OutputPath.step S w.path event).map (fun path => { w with path }) = some w')
        (hsaid : said event = [] ∨ ∃ text, said event = [.handshake text]) : Inv S w' := by
      obtain ⟨path, hpath, rfl⟩ := Option.map_eq_some_iff.mp hsame
      exact h.stepPath hok hsaid hpath
    cases event with
    | control msg =>
      cases msg with
      | handshake text => exact hmoved hstep (.inr ⟨text, rfl⟩)
      | stamped => cases hstep
    | _ => exact hmoved hstep (.inl rfl)
  | take => exact h.take hstep

theorem inv_start (dcs : Bool) (model : SessionModel) : Inv S (start T η dcs model) where
  path := OutputPath.inv_start dcs
  counted := Counted.create model
  sent := rfl
  arrived := rfl
  mirror := rfl
  taken := le_rfl

theorem inv_of_run {dcs : Bool} {model : SessionModel} {events : List (Event T η)}
    (hok : Along (MirrorPath.step S) (Orderly S) (start T η dcs model) events)
    (hrun : exec (MirrorPath.step S) (start T η dcs model) events = some w) : Inv S w :=
  exec_invariant (fun _ _ _ h horderly hstep => h.step horderly hstep) (inv_start dcs model) hok
    hrun

end Invariant

/-! ## What the mirror has -/

section Results

variable {T η : Type} [DecidableEq T] [DecidableEq η] {S : Setup T WireMessage} {w : World T η}

omit [DecidableEq T] in
theorem stampedOf_item (transport : T) (sent : List (OutputPath.Sent WireMessage)) :
    (sent.map OutputPath.Sent.item).filterMap (stampedOf transport) =
      (sent.filterMap controlOf).filterMap (WireMessage.stamped? transport) := by
  rw [List.filterMap_map, List.filterMap_filterMap]
  refine List.filterMap_congr fun s _ => ?_
  cases s <;> rfl

/-- The mirror has been given the first messages of its stream. -/
theorem Inv.heard_first (h : Inv S w) (hsendable : Sendable S.codec w.path.sent) :
    w.heard S <+: received w.server S.transport := by
  obtain ⟨units, hitems, -, hdelivering, -⟩ := h.path.carries hsendable
  obtain ⟨done, todo, rfl, hdone, -⟩ := hdelivering.progress
  have hdispatched : w.path.socket.dispatched.map Prod.snd <+:
      w.path.sent.map OutputPath.Sent.item := by
    rw [hdone, ← hitems, List.map_append]
    exact List.prefix_append _ _
  have harrived : w.path.connection.control.arrived.filterMap (stampedOf S.transport) <+:
      received w.server S.transport := by
    rw [h.arrived, ← h.sent, ← stampedOf_item]
    exact (((List.take_prefix _ _).map _).trans hdispatched).filterMap _
  have hdelivered := (h.path.good.delivered .control).1.filterMap fun arrival =>
    stampedOf S.transport arrival.message
  rw [filterMap_numbered (stampedOf S.transport)] at hdelivered
  exact (((List.take_prefix _ _).filterMap _).trans hdelivered).trans harrived

/-- The mirror has no gap, never asks for a resync, and has what the messages up to its number
say. -/
structure Follows (S : Setup T WireMessage) (w : World T η) : Prop where
  mirror : ∃ count, w.mirror = Mirror.run ((received w.server S.transport).take count)
  effects : w.mirror.effects = []
  model : ∀ k, w.mirror.lastSeq = some k → w.mirror.model = asOf (received w.server S.transport) k

theorem Inv.follows (h : Inv S w) (hsendable : Sendable S.codec w.path.sent) : Follows S w := by
  have hnumbered := numbered_received h.counted S.transport
  have hfirst := h.heard_first hsendable
  refine ⟨⟨_, h.mirror.trans (congrArg Mirror.run (List.prefix_iff_eq_take.mp hfirst))⟩, ?_, ?_⟩
  · rw [h.mirror]
    exact (run_first hnumbered hfirst).1
  · rw [h.mirror]
    exact (Tracks.run hnumbered hfirst.sublist).model

/-- Nothing of the control plane is on its way to the mirror. -/
structure AtRest (w : World T η) : Prop where
  wire : w.path.onWire = []
  socket : w.path.socket.closed = false ∧ w.path.socket.scheduled = 0
  handed : w.path.handed = w.path.socket.dispatched.length
  connection : w.path.connection.control.handler ≠ none ∧ w.path.connection.frames = []
  taken : w.taken = (w.path.connection.deliveries .control).length

theorem Inv.heard_all (h : Inv S w) (hsendable : Sendable S.codec w.path.sent) (hrest : AtRest w) :
    w.heard S = received w.server S.transport := by
  obtain ⟨units, hitems, hencodes, hdelivering, hsettled⟩ := h.path.carries hsendable
  rw [hrest.wire] at hdelivering
  have hdispatched : w.path.socket.dispatched.map Prod.snd =
      w.path.sent.map OutputPath.Sent.item := by
    rw [hdelivering.all_dispatched hencodes hsettled hrest.socket.1 hrest.socket.2, hitems]
  have hdelivered := (h.path.good.delivered .control).2 hrest.connection.1 hrest.connection.2
  rw [World.heard, hrest.taken, List.take_length, hdelivered,
    filterMap_numbered (stampedOf S.transport)]
  show w.path.connection.control.arrived.filterMap _ = _
  rw [h.arrived, hrest.handed, List.take_length, hdispatched, stampedOf_item, h.sent]

/-- A client that follows its server to the end: it shows what a new snapshot would show, and
expects the number that the server gives next. -/
structure Current (w : World T η) (state : ClientState T) : Prop where
  shows : ShowsSame w.mirror.model (freshView w.server state)
  expects : w.mirror.lastSeq.map (· + 1) = some state.nextSeq

theorem Inv.current (h : Inv S w) (hsendable : Sendable S.codec w.path.sent) (hrest : AtRest w)
    {changes : List (SessionModel × SessionModel)} (hshows : Shows S.transport changes w.server)
    {state : ClientState T} (hstate : w.server.clients.get? S.transport = some state)
    (hopen : S.transport ∉ w.server.closed) (hsettled : ¬Arriving w.server)
    (hcovered : ∀ change ∈ changes, Covered change) : Current w state := by
  have hnumbered := numbered_received h.counted S.transport
  have hmirror : w.mirror = Mirror.run (received w.server S.transport) :=
    h.mirror.trans (congrArg Mirror.run (h.heard_all hsendable hrest))
  obtain ⟨snapshot, hsnapshot, hkind⟩ := (hshows.settled hstate hopen hsettled).begun
  obtain ⟨x, hx, rfl⟩ := List.mem_map.mp hsnapshot
  have htracks := Tracks.run hnumbered (List.Sublist.refl (received w.server S.transport))
  have hstarted := htracks.started
  rw [run_initialized hx hkind] at hstarted
  obtain ⟨k, hk⟩ := Option.isSome_iff_exists.mp hstarted.symm
  obtain ⟨m, hm, rfl⟩ := (run_first hnumbered (List.prefix_refl _)).2 k hk
  obtain ⟨init, hinit⟩ := List.getLast?_eq_some_iff.mp hm
  refine ⟨?_, ?_⟩
  · have hall : asOf (received w.server S.transport) m.seq = view w.server S.transport := by
      have hle : ∀ y ∈ received w.server S.transport, decide (y.seq ≤ m.seq) = true := by
        have hsorted := hnumbered.sorted
        rw [hinit] at hsorted ⊢
        intro y hy
        rcases List.mem_append.mp hy with hy | hy
        · exact decide_eq_true ((List.pairwise_append.mp hsorted).2.2 y hy m (by simp)).le
        · rw [List.mem_singleton.mp hy]
          exact decide_eq_true le_rfl
      rw [asOf, List.filter_eq_self.mpr hle, view_eq_project]
    rw [hmirror, htracks.model m.seq hk, hall]
    exact hshows.fresh hstate hopen hsettled hcovered
  · have hnotfresh : w.server.startSeq S.transport ≠ none := by
      intro hnone
      have hhas := (h.counted.fresh S.transport hnone).2
      rw [KeyedMap.has_iff.mpr ⟨state, hstate⟩] at hhas
      cases hhas
    obtain ⟨start, hstart⟩ := Option.ne_none_iff_exists'.mp hnotfresh
    have hseqs := h.counted.seqs S.transport start hstart
    have hnext := h.counted.next S.transport start state hstart hstate hopen
    rw [hinit, List.map_append, List.length_append, List.length_singleton, List.range'_1_concat]
      at hseqs
    have hseq : m.seq = start + init.length := by
      have hlast := (List.append_inj' hseqs rfl).2
      exact (List.cons.inj hlast).1
    rw [hinit, List.length_append, List.length_singleton] at hnext
    rw [hmirror, hk, hnext, hseq]
    rfl

/-! ## The server's part of a run -/

theorem server_path {w w' : World T η} {e : OutputPath.Event T WireMessage η}
    (hstep : step S w (.path e) = some w') : w'.server = w.server := by
  have hmoved (hsame : (OutputPath.step S w.path e).map (fun path => { w with path }) = some w') :
      w'.server = w.server := by
    obtain ⟨_, -, rfl⟩ := Option.map_eq_some_iff.mp hsame
    rfl
  cases e with
  | control msg =>
    cases msg with
    | handshake text => exact hmoved hstep
    | stamped => cases hstep
  | _ => exact hmoved hstep

/-- The server takes its steps of a run. -/
theorem serve_run {w w' : World T η} {events : List (Event T η)}
    (hrun : exec (step S) w events = some w') :
    exec Runtime.Serve.step w.server (events.filterMap Event.serve?) = some w'.server := by
  induction events generalizing w with
  | nil =>
    cases hrun
    rfl
  | cons event events ih =>
    obtain ⟨w₁, hstep, hrest⟩ := Option.bind_eq_some_iff.mp hrun
    have hih := ih hrest
    cases event with
    | serve e =>
      obtain ⟨server, hserver, rfl⟩ := Option.map_eq_some_iff.mp hstep
      show exec Runtime.Serve.step w.server (e :: events.filterMap Event.serve?) = _
      rw [exec_cons, hserver]
      exact hih
    | path e => exact server_path hstep ▸ hih
    | take =>
      obtain ⟨_, -, rfl⟩ := Option.map_eq_some_iff.mp hstep
      exact hih

theorem chained_run {w : World T η} {events : List (Event T η)}
    (hok : Along (step S) (Orderly S) w events) {w' : World T η}
    (hrun : exec (step S) w events = some w') :
    Along Runtime.Serve.step Chained w.server (events.filterMap Event.serve?) := by
  induction events generalizing w with
  | nil => trivial
  | cons event events ih =>
    obtain ⟨w₁, hstep, hrest⟩ := Option.bind_eq_some_iff.mp hrun
    have hih := ih (hok.2 w₁ hstep) hrest
    cases event with
    | serve e =>
      obtain ⟨server, hserver, rfl⟩ := Option.map_eq_some_iff.mp hstep
      refine ⟨hok.1.serve e rfl, fun server' hserver' => ?_⟩
      rw [← Option.some.inj (hserver.symm.trans hserver')]
      exact hih
    | path e => exact server_path hstep ▸ hih
    | take =>
      obtain ⟨_, -, rfl⟩ := Option.map_eq_some_iff.mp hstep
      exact hih

/-- The driver's model on its way to the mirror of a client, in every run in which the pipeline
tells its changes one after the other and the stages are called as they must be. The mirror never
sees a gap, and it has what the messages up to its number say. And when no client is being added
and nothing is on its way, it shows what a snapshot would show that was made now, provided the
deltas can tell the changes since the client's last snapshot. -/
theorem mirror_is_current (S : Setup T WireMessage) (dcs : Bool) (model : SessionModel)
    (events : List (Event T η)) (w : World T η)
    (hok : Along (step S) (Orderly S) (start T η dcs model) events)
    (hrun : exec (step S) (start T η dcs model) events = some w)
    (hsendable : Sendable S.codec w.path.sent) :
    Follows S w ∧
      ∀ state, w.server.clients.get? S.transport = some state → S.transport ∉ w.server.closed →
        ¬Arriving w.server → AtRest w →
        (∀ change ∈ changesSince S.transport (events.filterMap Event.serve?), Covered change) →
        Current w state := by
  have hinv := inv_of_run hok hrun
  refine ⟨hinv.follows hsendable, fun state hstate hopen hsettled hrest hcovered => ?_⟩
  have hshows := shows_of_run S.transport (chained_run hok hrun) (serve_run hrun)
  exact hinv.current hsendable hrest hshows hstate hopen hsettled hcovered

end Results

/-! ## A session is renamed among the output of a pane -/

section Steady

variable {T η : Type} [DecidableEq T] [DecidableEq η] {S : Setup T WireMessage} {w : World T η}

/-- A step that finds the stages at rest which it concerns. -/
def steady (w : World T η) (event : Event T η) : Bool :=
  match event with
  | .serve (.modelChange prev _ _) =>
    decide (prev.sessions.values = w.server.model.sessions.values ∧
      prev.windows.values = w.server.model.windows.values ∧
      prev.panes.values = w.server.model.panes.values ∧ prev.focus = w.server.model.focus)
  | .path event => OutputPath.steady w.path event &&
    match w.path.socket.dispatched[w.path.handed]? with
    | some (.handshake, .control (.stamped ..)) => false
    | _ => true
  | _ => true

/-- Such a step is orderly. -/
theorem orderly_of_steady {event : Event T η} (h : steady w event = true) : Orderly S w event := by
  cases event with
  | serve e =>
    refine ⟨?_, fun _ h => (by cases h), fun h => by cases h⟩
    rintro _ ⟨⟩ prev next opts rfl
    exact SessionModel.eq_of_values (of_decide_eq_true h)
  | path e =>
    obtain ⟨hpath, hpast⟩ := Bool.and_eq_true_iff.mp h
    refine ⟨fun _ h => (by cases h), ?_, fun _ seq message hitem => ?_⟩
    · rintro _ ⟨⟩
      exact OutputPath.orderly_of_steady hpath
    · rw [hitem] at hpast
      cases hpast
  | take => exact ⟨fun _ h => (by cases h), fun _ h => (by cases h), fun h => by cases h⟩

end Steady

/-- A session without windows. -/
def oneSession (name : String) : SessionModel :=
  { emptyModel with sessions := ⟨[⟨⟨"s1"⟩, name, [], none⟩], by simp⟩ }

/-- What the driver writes, and its JSON. -/
def written : List (WireMessage × String) :=
  [(.handshake "\x7b\x7d", "\x7b\x7d"),
    (.stamped 2 (.snapshot (projectSnapshot (oneSession "work")
        { seq := 2, attachedClientCount := some 1, connectionId := some ⟨"conn1"⟩ })),
      "\x7b\"type\":\"snapshot\",\"seq\":2,\"session\":\x7b\"sessionId\":\"s1\"," ++
        "\"name\":\"work\"\x7d,\"windows\":[],\"panes\":[],\"focus\":\x7b\"paneId\":null," ++
        "\"windowId\":null\x7d,\"attachedClientCount\":1,\"connectionId\":\"conn1\"\x7d"),
    (.stamped 3 (.clientCountChanged 2),
      "\x7b\"type\":\"client-count.changed\",\"seq\":3,\"count\":2\x7d"),
    (.stamped 4 (.sessionRenamed "play"),
      "\x7b\"type\":\"session.renamed\",\"seq\":4,\"newName\":\"play\"\x7d"),
    (.stamped 5 (.clientCountChanged 1),
      "\x7b\"type\":\"client-count.changed\",\"seq\":5,\"count\":1\x7d")]

/-- The handshake leaves the control plane to the connection after its first message. -/
def afterWelcome (dispatched : List (Handler × Item WireMessage)) : Transport.Reaction Handler :=
  if dispatched.length = 1 then { onControl := some .connection } else {}

def editor : Setup String WireMessage where
  transport := "editor"
  codec :=
    { stringify := fun msg => ((written.find? fun entry => entry.1 = msg).map Prod.snd).getD ""
      parse := fun text => (written.find? fun entry => entry.2 = text).map Prod.fst
      bufferToString := fromCharCodes
      decode := fromCharCodes }
  react := afterWelcome
  utf8Slice := fromCharCodes
  titleDecode := fromCharCodes
  capBytes := 16

/-- The shell prints a prompt. -/
def prompt : Parser.Notifications.Notification := .output 1 (ascii "$ ")

/-- A client attaches and shows a pane, and tmux writes the line. -/
def attaching : List (Event String String) :=
  [.path (.control (.handshake "\x7b\x7d")), .path (.read 100), .path .hand,
    .path (.connection .connect), .path (.connection .ready), .path (.connection .returns),
    .path (.connection (.onControl ())), .path (.connection (.onData ())),
    .path (.panes (.onPaneOutput ⟨"p1"⟩ "view")), .path (.demux (.attachTransport "editor")),
    .path (.demux (.notifyPaneBound ⟨"p1"⟩)), .serve (.addClient "editor" 2 none),
    .serve (.subscribe "editor"), .serve (.sendFirstSnapshot "editor"),
    .path (.tmux (.notify (prompt.asLine trivial)))]

/-- The session is renamed while another client is there. -/
def changing : List (Event String String) :=
  [.path (.tmux .token), .path .dispatch, .serve (.addClient "viewer" 0 none),
    .serve (.subscribe "viewer"), .serve (.sendFirstSnapshot "viewer"),
    .serve (.modelChange (oneSession "work") (oneSession "play") fun _ => {}),
    .serve (.removeClient "viewer"), .path (.read 100), .path (.read 900), .path .hand, .take,
    .path .hand, .path .push, .path (.panes .returns), .path .hand, .path .hand, .take, .path .hand,
    .take, .take]

/-- The line is read in between. -/
def attachAndRename : List (Event String String) :=
  attaching ++ .path (.tmux (.chunk 100)) :: changing

def attached : World String String :=
  (exec (checked (step editor) steady) (start String String false (oneSession "work"))
    attaching).get (by decide +kernel)

/-- The driver has read the line. -/
def lineRead : World String String :=
  { attached with
    path := { attached.path with
      channel := { attached.path.channel with
        tok := (attached.path.channel.tok.push (attached.path.channel.wire.take 100)).1
        queue := [.notification "output" prompt.line]
        wire := [] } } }

theorem step_attached : step editor attached (.path (.tmux (.chunk 100))) = some lineRead := by
  have hread : (attached.path.channel.tok.push (attached.path.channel.wire.take 100)).2 =
      [.notification "output" prompt.line] := by
    rw [Parser.push_realises.out_push]
    decide +kernel
  have hqueue : attached.path.channel.queue = [] := by decide +kernel
  have hwire : attached.path.channel.wire.drop 100 = [] := by decide +kernel
  rw [step, OutputPath.step_chunk hread, hqueue, hwire]
  · rfl
  · intro _ _ hcontrol
    cases hcontrol

/-- What has become of it. -/
structure Renamed (w : World String String) : Prop where
  rest : AtRest w
  client : w.server.clients.values.map credentials = [("editor", ⟨"conn1"⟩, none)]
  calls : w.server.calls "editor" = none
  closed : "editor" ∉ w.server.closed
  model : w.server.model.sessions.values = [⟨⟨"s1"⟩, "play", [], none⟩]
  sendable : Sendable editor.codec w.path.sent

/-- An item goes through the codec. -/
def Sends (item : Item WireMessage) : Prop :=
  item.Fits editor.codec ∧ item.ReadsBack editor.codec

instance : DecidablePred Sends
  | .control msg => inferInstanceAs (Decidable
      ((utf8 (editor.codec.stringify msg ++ "\n")).length < FRAME_MAGIC.toNat * 2 ^ 24 ∧
        editor.codec.parse (String.ofList (trim (editor.codec.bufferToString
          (utf8 (editor.codec.stringify msg ++ "\n"))).toList)) = some msg ∧
        Item.control msg = Item.control msg))
  | .data paneId payload => inferInstanceAs (Decidable
      ((payload.length ≤ MAX_FRAME ∧ (utf8 paneId.raw).length ≤ 0xffff) ∧ True ∧
        Item.data ⟨editor.codec.decode (utf8 paneId.raw)⟩ payload = Item.data paneId payload))

theorem exec_changing : ∃ w,
    exec (checked (step editor) steady) lineRead changing = some w ∧ Renamed w := by
  have hrun : (exec (checked (step editor) steady) lineRead changing).any
      (fun w => decide ((w.path.onWire = [] ∧
        (w.path.socket.closed = false ∧ w.path.socket.scheduled = 0) ∧
        w.path.handed = w.path.socket.dispatched.length ∧
        (w.path.connection.control.handler ≠ none ∧ w.path.connection.frames = []) ∧
        w.taken = (w.path.connection.deliveries .control).length) ∧
      w.server.clients.values.map credentials = [("editor", ⟨"conn1"⟩, none)] ∧
      w.server.calls "editor" = none ∧ "editor" ∉ w.server.closed ∧
      w.server.model.sessions.values = [⟨⟨"s1"⟩, "play", [], none⟩] ∧
      ∀ s ∈ w.path.sent, Sends s.item)) = true := by
    decide +kernel
  obtain ⟨w, hw, hfacts⟩ := (Option.any_eq_true _ _).mp hrun
  obtain ⟨⟨hwire, hsocket, hhanded, hconnection, htaken⟩, hclient, hcalls, hclosed, hmodel,
    hsendable⟩ := of_decide_eq_true hfacts
  exact ⟨w, hw, ⟨hwire, hsocket, hhanded, hconnection, htaken⟩, hclient, hcalls, hclosed, hmodel,
    hsendable⟩

theorem exec_attachAndRename : ∃ w,
    exec (checked (step editor) steady) (start String String false (oneSession "work"))
      attachAndRename = some w ∧ Renamed w := by
  obtain ⟨w, hchanging, hrenamed⟩ := exec_changing
  have hattaching : exec (checked (step editor) steady)
      (start String String false (oneSession "work")) attaching = some attached :=
    (Option.some_get _).symm
  have hsteady : steady attached (.path (.tmux (.chunk 100))) = true := by decide +kernel
  have hchunk : checked (step editor) steady attached (.path (.tmux (.chunk 100))) =
      some lineRead := (if_pos hsteady).trans step_attached
  refine ⟨w, ?_, hrenamed⟩
  rw [attachAndRename, exec_append, hattaching, Option.bind_some, exec_cons, hchunk,
    Option.bind_some]
  exact hchanging

theorem covered_rename : Covered (oneSession "work", oneSession "play") := by
  refine ⟨rfl, ⟨fun _ h => (by cases h), fun _ h => (by cases h), fun _ h => (by cases h),
    fun _ h => (by cases h), fun _ _ h => (by cases h), fun _ _ h => (by cases h),
    fun _ _ _ h => by cases h⟩⟩

/-- The mirror shows the new name, and the one client that is left. -/
theorem mirror_is_current_renamed :
    ∃ w, exec (step editor) (start String String false (oneSession "work")) attachAndRename =
      some w ∧ w.mirror.model.session = ⟨⟨"s1"⟩, "play"⟩ ∧
      w.mirror.model.attachedClientCount = some 1 := by
  obtain ⟨w, hchecked, hrenamed⟩ := exec_attachAndRename
  obtain ⟨hrun, hsteady⟩ := exec_checked hchecked
  have hok : Along (step editor) (Orderly editor) _ attachAndRename :=
    along_mono (fun _ _ => orderly_of_steady) hsteady
  have hnames : w.server.transports = ["editor"] := by
    have hnames := congrArg (List.map Prod.fst) hrenamed.client
    rwa [List.map_map] at hnames
  have hsettled : ¬Arriving w.server := by
    rintro ⟨t, hhas, hbusy⟩
    have hmem := mem_transports.mpr hhas
    rw [hnames, List.mem_singleton] at hmem
    exact hbusy (hmem ▸ hrenamed.calls)
  obtain ⟨state, hstate⟩ := KeyedMap.has_iff.mp
    (mem_transports.mp (hnames ▸ List.mem_singleton_self "editor"))
  have hcovered : ∀ change ∈ changesSince "editor" (attachAndRename.filterMap Event.serve?),
      Covered change := by
    intro change hchange
    rw [List.mem_singleton.mp hchange]
    exact covered_rename
  have hcurrent := (mirror_is_current editor false (oneSession "work") attachAndRename w hok hrun
    hrenamed.sendable).2 state hstate hrenamed.closed hsettled hrenamed.rest hcovered
  refine ⟨w, hrun, hcurrent.shows.session.trans ?_, hcurrent.shows.attachedClientCount.trans ?_⟩
  · show (⟨(snapshotSession w.server.model).sessionId, (snapshotSession w.server.model).name⟩ :
      ClientSession) = _
    rw [snapshotSession, SessionModel.boundSession, hrenamed.model]
    rfl
  · show some w.server.transports.length = _
    rw [hnames]
    rfl

end TmuxccDriver.System.MirrorPath
