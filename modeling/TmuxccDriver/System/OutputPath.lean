import TmuxccDriver.Client.Connection
import TmuxccDriver.Client.PaneStream
import TmuxccDriver.Parser.NotificationRuns
import TmuxccDriver.Parser.OscTitleSniffer
import TmuxccDriver.Runtime.DemuxOrder
import TmuxccDriver.State.Bootstrap
import TmuxccDriver.Transport.SocketTransport

/-!
# The way of a pane's output

From the lines that tmux writes to the handlers of one client: the control channel, the output
branch of `_dispatchEvent` with the title sniffer of each pane, the demux, the socket of one of its
transports, and at the client the connection and its pane streams.

Every stage takes what the one before it has handed on, in that order and at any time after it:
what the code does in one call is the case that the next stage takes it at once. The other
transports of the demux are only counted as its own.

Results:
1. `Inv.step`: what every step keeps that meets `Orderly`.
2. `Inv.relays`: a handler is called with the frames of its pane, in the order of the printing.
-/

namespace TmuxccDriver.System.OutputPath
open TmuxccDriver.Lib TmuxccDriver.Protocol TmuxccDriver.Transport
open TmuxccDriver.Parser (Channel ChannelAction NotificationLine NotificationToken OscTitleSniffer
  decodeOutputPayload)
open TmuxccDriver.Parser.Notifications
open TmuxccDriver.Runtime (framesTo)
open TmuxccDriver.State (mintPaneId)
open TmuxccDriver.Client.Connection (SessionProxyConnection Plane Arrival Route)
open TmuxccDriver.Client.PaneStream (PaneStreamConsumer bytesOf)

/-! ## The world -/

/-- Whom the client's transport calls with control messages. -/
inductive Handler
  | handshake
  | connection
deriving DecidableEq

/-- One client of the driver and the decoders on both sides. -/
structure Setup (T Msg : Type) where
  transport : T
  codec : Codec Msg
  react : List (Handler × Item Msg) → Reaction Handler
  utf8Slice : Bytes → String
  titleDecode : Bytes → String
  capBytes : Nat

/-- What a pane's sniffer is given, or that the pane has left the model and its sniffer is
dropped. -/
inductive Feed
  | output (paneId : PaneId) (decoded : Bytes)
  | forget (paneId : PaneId)
deriving DecidableEq

/-- What is written to the client's transport: frames of the demux, frames of a hydration and
control messages. -/
inductive Sent (Msg : Type)
  | live (paneId : PaneId) (chunk : Runtime.Chunk)
  | replay (paneId : PaneId) (bytes : Bytes)
  | control (msg : Msg)
deriving DecidableEq

def Sent.item {Msg : Type} : Sent Msg → Item Msg
  | .live paneId chunk => .data paneId chunk.bytes
  | .replay paneId bytes => .data paneId bytes
  | .control msg => .control msg

/-- `written`, `heard`, `feeds` and `sent` are logs. Of the heard tokens `read` were dispatched,
and of the client's dispatched items `handed` have reached the connection. -/
structure World (T Msg η : Type) where
  channel : Channel
  written : List NotificationLine
  heard : List NotificationToken
  read : Nat
  sniffers : PaneId → OscTitleSniffer
  feeds : List Feed
  demux : Runtime.Demux.Run T
  sender : Sender
  sent : List (Sent Msg)
  onWire : Bytes
  socket : Socket Handler Msg
  handed : Nat
  connection : SessionProxyConnection Unit (Item Msg)
  consumer : PaneStreamConsumer PaneId η

inductive Event (T Msg η : Type)
  | tmux (action : ChannelAction)
  /-- `_dispatchEvent` for the oldest token that was heard. -/
  | dispatch
  | forget (paneId : PaneId)
  | demux (event : Runtime.Demux.Event T)
  /-- A hydration's own call of `sendData`. -/
  | replay (paneId : PaneId) (bytes : Bytes)
  | control (msg : Msg)
  /-- The client reads the next `n` bytes. -/
  | read (n : Nat)
  | immediate
  /-- The connection takes what the client's transport has dispatched. -/
  | hand
  | connection (event : Client.Connection.Event Unit (Item Msg))
  /-- The pane streams take what the connection has delivered. -/
  | push
  | panes (event : Client.PaneStream.Event PaneId η)

def start (T Msg η : Type) (dcs : Bool) : World T Msg η where
  channel := Channel.start dcs
  written := []
  heard := []
  read := 0
  sniffers := fun _ => OscTitleSniffer.init
  feeds := []
  demux := Runtime.Demux.start
  sender := Sender.new
  sent := []
  onWire := []
  socket := Socket.new .handshake .connection
  handed := 0
  connection := {}
  consumer := {}

/-- The output branch's reading of an event. -/
def outputOf : NotificationEvent → Option (PaneId × Bytes)
  | .output paneId rawPayload | .extendedOutput paneId _ rawPayload =>
    some (mintPaneId paneId, decodeOutputPayload rawPayload)
  | _ => none

/-- The frame of the demux, if it is one for this transport. -/
def liveFor {T Msg : Type} [DecidableEq T] (transport : T) (frame : Runtime.DataFrame T) :
    Option (Sent Msg) :=
  if frame.transport = transport then some (.live frame.paneId frame.chunk) else none

def planeOf {Msg : Type} : Item Msg → Plane
  | .control _ => .control
  | .data .. => .data

section Steps

variable {T Msg η : Type} [DecidableEq T] [DecidableEq η] (S : Setup T Msg)

namespace World

variable (w : World T Msg η)

/-- The calls of `sendControl` and `sendData`. -/
def transmit (outgoing : List (Sent Msg)) : World T Msg η :=
  let items := outgoing.map Sent.item
  { w with
    sender := items.foldl (fun sender item => (sender.send S.codec item).1) w.sender
    sent := w.sent ++ outgoing
    onWire := w.onWire ++ Transport.written (w.sender.sendAll S.codec items) }

/-- What the next token says that a pane has printed. -/
def nextOutput : Option (PaneId × Bytes) :=
  (w.heard[w.read]?).bind fun token => outputOf (parseNotification S.utf8Slice token)

/-- The sniffer of a pane with the next chunk. -/
def sniff (output : PaneId × Bytes) : OscTitleSniffer × Parser.OscSniffResult :=
  (w.sniffers output.1).feed S.titleDecode output.2

/-- One event of the demux, and its frames on the client's socket. -/
def stepDemux (event : Runtime.Demux.Event T) : Option (World T Msg η) :=
  (Runtime.Demux.step w.demux event).map fun demux =>
    { w with demux }.transmit S
      ((demux.sent.drop w.demux.sent.length).filterMap (liveFor S.transport))

/-- What a step does to the demux. -/
def demuxEvent : Event T Msg η → Option (Runtime.Demux.Event T)
  | .dispatch => (w.nextOutput S).map fun output =>
    .append output.1 (w.sniff S output).2.passthrough
  | .demux event => some event
  | _ => none

/-- What a step does to the connection. While the handshake has the control handler it takes the
control messages. -/
def connectionEvent : Event T Msg η → Option (Client.Connection.Event Unit (Item Msg))
  | .hand =>
    match w.socket.dispatched[w.handed]? with
    | some (.handshake, .control _) => none
    | some (_, item) => some (.arrives (planeOf item) item)
    | none => none
  | .connection event => some event
  | _ => none

/-- What a step does to the pane streams. -/
def panesEvent : Event T Msg η → Option (Client.PaneStream.Event PaneId η)
  | .push => ((w.connection.deliveries .data)[w.consumer.pushes.length]?).bind fun arrival =>
    arrival.message.frame.map fun frame => .push frame.1 frame.2
  | .panes event => some event
  | _ => none

def stepConnection (event : Client.Connection.Event Unit (Item Msg)) : Option (World T Msg η) :=
  (w.connection.step event).map fun connection => { w with connection }

def stepPanes (event : Client.PaneStream.Event PaneId η) : Option (World T Msg η) :=
  (w.consumer.step S.capBytes event).map fun consumer => { w with consumer }

end World

/-- One event; `none` if it cannot happen now. -/
def step (w : World T Msg η) (event : Event T Msg η) : Option (World T Msg η) :=
  match event with
  | .tmux action =>
    (w.channel.step action).map fun channel =>
      { w with
        channel
        written := w.written ++ (noteOf action).toList
        heard := w.heard ++ Parser.Notifications.heard w.channel action }
  | .dispatch =>
    if w.read < w.heard.length then
      match w.nextOutput S with
      | none => some { w with read := w.read + 1 }
      | some output =>
        let fed : World T Msg η :=
          { w with
            read := w.read + 1
            sniffers := Function.update w.sniffers output.1 (w.sniff S output).1
            feeds := w.feeds ++ [.output output.1 output.2] }
        fed.stepDemux S (.append output.1 (w.sniff S output).2.passthrough)
    else none
  | .forget paneId =>
    some { w with
      sniffers := Function.update w.sniffers paneId OscTitleSniffer.init
      feeds := w.feeds ++ [.forget paneId] }
  | .demux (.append ..) => none
  | .demux event => w.stepDemux S event
  | .replay paneId bytes => some (w.transmit S [.replay paneId bytes])
  | .control msg => some (w.transmit S [.control msg])
  | .read n =>
    (Transport.step S.codec S.react w.socket (.chunk (w.onWire.take n))).map fun socket =>
      { w with socket, onWire := w.onWire.drop n }
  | .immediate =>
    (Transport.step S.codec S.react w.socket .immediate).map fun socket => { w with socket }
  | .hand =>
    if w.handed < w.socket.dispatched.length then
      match w.connectionEvent (.hand : Event T Msg η) with
      | none => some { w with handed := w.handed + 1 }
      | some arrives => { w with handed := w.handed + 1 }.stepConnection arrives
    else none
  | .connection (.arrives ..) => none
  | .connection event => w.stepConnection event
  | .push =>
    match w.panesEvent .push with
    | none => none
    | some event => w.stepPanes S event
  | .panes (.push ..) => none
  | .panes event => w.stepPanes S event

/-- The steps that every stage handles as it says: the replies of tmux are whole blocks, no append
overtakes a flush of its pane, and the connection and the pane streams are called as they must
be. -/
structure Orderly (w : World T Msg η) (event : Event T Msg η) : Prop where
  tmux : ∀ action, event = .tmux action → action.Admissible
  demux : ∀ e ∈ w.demuxEvent S event, ¬Runtime.Demux.Overtakes w.demux e
  connection : ∀ e ∈ w.connectionEvent event, w.connection.Orderly e
  panes : ∀ e ∈ w.panesEvent event, w.consumer.Calm e

end Steps

/-! ## What a stage has handed on stays handed on -/

section Connection

variable {η α : Type} {c c' : SessionProxyConnection η α}

open Client.Connection.SessionProxyConnection

theorem delivered_dataLoop (c : SessionProxyConnection η α) (handler : η)
    (rest : List (Arrival α)) (p : Plane) :
    (c.route p).delivered <+: ((c.dataLoop handler rest).route p).delivered := by
  cases rest with
  | nil => exact List.prefix_refl _
  | cons a rest =>
    cases p with
    | control => exact List.prefix_refl _
    | data => exact List.prefix_append _ _

theorem delivered_update (c : SessionProxyConnection η α) {f : Route η α → Route η α}
    (hf : ∀ r, (f r).delivered = r.delivered) (q p : Plane) :
    ((c.update f q).route p).delivered = (c.route p).delivered := by
  rw [route_update]
  split
  · next h => rw [hf, h]
  · rfl

theorem delivered_drainData (c : SessionProxyConnection η α) (p : Plane) :
    (c.route p).delivered <+: (c.drainData.route p).delivered := by
  unfold drainData
  split
  · exact List.prefix_refl _
  · rw [← delivered_update c (f := fun r => { r with pending := [] }) (fun _ => rfl) .data p]
    exact delivered_dataLoop _ _ _ p

theorem delivered_controlLoop (c : SessionProxyConnection η α) (handler : η)
    (rest : List (Arrival α)) (p : Plane) :
    (c.route p).delivered <+: ((c.controlLoop handler rest).route p).delivered := by
  cases rest with
  | nil => exact delivered_drainData c p
  | cons a rest =>
    cases p with
    | control => exact List.prefix_append _ _
    | data => exact List.prefix_refl _

theorem delivered_drainBuffers (c : SessionProxyConnection η α) (p : Plane) :
    (c.route p).delivered <+: (c.drainBuffers.route p).delivered := by
  unfold drainBuffers
  split
  · exact delivered_drainData c p
  · rw [← delivered_update c (f := fun r => { r with pending := [] }) (fun _ => rfl) .control p]
    exact delivered_controlLoop _ _ _ p

theorem delivered_resume (c : SessionProxyConnection η α) (frame : Client.Connection.Frame η α)
    (p : Plane) : (c.route p).delivered <+: ((c.resume frame).route p).delivered := by
  cases frame with
  | drainBuffers => exact delivered_drainBuffers c p
  | control handler rest => exact delivered_controlLoop c handler rest p
  | data handler rest => exact delivered_dataLoop c handler rest p

theorem delivered_receive (c : SessionProxyConnection η α) (plane : Plane) (message : α)
    (p : Plane) : (c.route p).delivered <+: ((c.receive plane message).route p).delivered := by
  by_cases hplane : p = plane
  · subst hplane
    unfold receive
    split
    · split
      · cases p <;> exact List.prefix_append _ _
      · cases p <;> exact List.prefix_refl _
    · cases p <;> exact List.prefix_refl _
  · rw [receive_other hplane]

theorem filterMap_numbered {β : Type} (f : α → Option β) (messages : List α) :
    (Client.Connection.numbered messages).filterMap (fun arrival => f arrival.message) =
      messages.filterMap f := by
  have hmessages : (Client.Connection.numbered messages).map (·.message) = messages := by
    refine List.ext_getElem? fun n => ?_
    rw [Client.Connection.numbered, List.getElem?_map, List.getElem?_mapIdx, Option.map_map]
    exact Option.map_id'
  conv_rhs => rw [← hmessages, List.filterMap_map]
  rfl

/-- The messages of a plane that a step brings. -/
def arriving (p : Plane) : Client.Connection.Event η α → List α
  | .arrives plane message => if plane = p then [message] else []
  | _ => []

/-- What a step of the connection does to a plane. -/
theorem plane_step {event : Client.Connection.Event η α} (p : Plane)
    (hstep : c.step event = some c') :
    (c.route p).delivered <+: (c'.route p).delivered ∧
      (c'.route p).arrived = (c.route p).arrived ++ arriving p event := by
  have hsilent (hroute : c'.route p = c.route p) :
      (c.route p).delivered <+: (c'.route p).delivered ∧
        (c'.route p).arrived = (c.route p).arrived ++ [] := by
    rw [hroute, List.append_nil]
    exact ⟨List.prefix_refl _, rfl⟩
  cases event with
  | connect =>
    simp only [SessionProxyConnection.step, Option.ite_none_left_eq_some, Option.some.injEq]
      at hstep
    obtain ⟨-, rfl⟩ := hstep
    exact hsilent (by cases p <;> rfl)
  | ready | failed =>
    simp only [SessionProxyConnection.step, Option.ite_none_right_eq_some, Option.some.injEq]
      at hstep
    obtain ⟨-, rfl⟩ := hstep
    exact hsilent (by cases p <;> rfl)
  | onControl handler =>
    cases hstep
    have hnone := delivered_update c (f := fun r => { r with handler := some handler })
      (fun _ => rfl) .control p
    have harrived : ((c.update (fun r => { r with handler := some handler }) .control).route
        p).arrived = (c.route p).arrived := by cases p <;> rfl
    refine ⟨hnone ▸ delivered_drainBuffers _ p, ?_⟩
    exact ((drained_drainBuffers).arrived p).trans (harrived.trans (List.append_nil _).symm)
  | onData handler =>
    cases hstep
    have hnone := delivered_update c (f := fun r => { r with handler := some handler })
      (fun _ => rfl) .data p
    refine ⟨hnone ▸ List.prefix_refl _, ?_⟩
    cases p <;> exact (List.append_nil _).symm
  | arrives plane message =>
    simp only [SessionProxyConnection.step, Option.ite_none_right_eq_some, Option.some.injEq]
      at hstep
    obtain ⟨-, rfl⟩ := hstep
    refine ⟨delivered_receive c plane message p, ?_⟩
    show _ = (c.route p).arrived ++ if plane = p then [message] else []
    split
    · next hplane =>
      subst hplane
      exact arrived_receive
    · next hplane => rw [receive_other (Ne.symm hplane), List.append_nil]
  | returns =>
    simp only [SessionProxyConnection.step] at hstep
    split at hstep
    · cases hstep
    · next frame frames hframes =>
      cases hstep
      have hroute : ({ c with frames := frames } : SessionProxyConnection η α).route p =
          c.route p := by cases p <;> rfl
      refine ⟨hroute ▸ delivered_resume { c with frames := frames } frame p, ?_⟩
      exact ((drained_resume (c := { c with frames := frames }) frame).arrived p).trans
        ((congrArg _ hroute).trans (List.append_nil _).symm)
  | closed =>
    simp only [SessionProxyConnection.step, Option.ite_none_left_eq_some, Option.some.injEq]
      at hstep
    obtain ⟨-, rfl⟩ := hstep
    exact hsilent (by cases p <;> rfl)

end Connection

section Socket

variable {H Msg : Type} [DecidableEq H] (codec : Codec Msg)
  (react : List (H × Item Msg) → Reaction H)

omit [DecidableEq H] in
theorem dispatched_dispatch (socket : Socket H Msg) (handler : Option H) (item : Item Msg) :
    socket.dispatched <+: (socket.dispatch react handler item).dispatched := by
  unfold Socket.dispatch
  split
  · exact List.prefix_refl _
  · exact List.prefix_append _ _

omit [DecidableEq H] in
theorem dispatched_receiveControl (socket : Socket H Msg) (payload : Bytes) :
    socket.dispatched <+: (socket.receiveControl codec react payload).dispatched := by
  unfold Socket.receiveControl
  split
  · exact List.prefix_refl _
  · exact dispatched_dispatch react socket _ _

theorem dispatched_processLoop (fuel : Nat) (socket : Socket H Msg) :
    socket.dispatched <+: (socket.processLoop codec react fuel).dispatched := by
  induction fuel generalizing socket with
  | zero => exact List.prefix_refl _
  | succ fuel ih =>
    rw [Socket.processLoop]
    split
    · exact List.prefix_refl _
    · split
      · exact List.prefix_refl _
      · exact List.prefix_refl _
      · next frame rest _ =>
        exact (dispatched_dispatch react { socket with buf := rest } _ _).trans (ih _)
      · next payload rest _ =>
        have hcalled := dispatched_receiveControl codec react { socket with buf := rest } payload
        dsimp only
        split
        · exact hcalled
        · exact hcalled.trans (ih _)

theorem dispatched_step {socket next : Socket H Msg} {event : Transport.Event}
    (hstep : Transport.step codec react socket event = some next) :
    socket.dispatched <+: next.dispatched := by
  cases event with
  | chunk bytes =>
    cases hstep
    exact dispatched_processLoop codec react _ { socket with buf := socket.buf ++ bytes }
  | immediate =>
    simp only [Transport.step, Option.ite_none_left_eq_some, Option.some.injEq] at hstep
    obtain ⟨-, rfl⟩ := hstep
    exact dispatched_processLoop codec react _ { socket with scheduled := socket.scheduled - 1 }

end Socket

section Consumer

variable {P η : Type} [DecidableEq P] {c c' : PaneStreamConsumer P η}

open Client.PaneStream.PaneStreamConsumer

/-- What the pane streams were given. -/
def pushLog (c : PaneStreamConsumer P η) : List (P × Bytes) :=
  c.pushes.map fun push => (push.pane, push.bytes)

def pushing : Client.PaneStream.Event P η → List (P × Bytes)
  | .push pane bytes => [(pane, bytes)]
  | _ => []

omit [DecidableEq P] in
theorem pushes_visitGlobals (c : PaneStreamConsumer P η) (pane : P)
    (chunk : Client.PaneStream.Chunk) (index : Nat) :
    (c.visitGlobals pane chunk index).pushes = c.pushes := by
  unfold visitGlobals
  split <;> rfl

theorem pushes_visit (c : PaneStreamConsumer P η) (pane : P) (chunk : Client.PaneStream.Chunk)
    (index : Nat) : (c.visit pane chunk index).pushes = c.pushes := by
  unfold visit
  split
  · rfl
  · exact pushes_visitGlobals c pane chunk 0

theorem pushes_flush (c : PaneStreamConsumer P η) (pane : P) (handler : η)
    (chunks : List Client.PaneStream.Chunk) : (c.flush pane handler chunks).pushes = c.pushes := by
  cases chunks <;> rfl

theorem pushed_step [DecidableEq η] {capBytes : Nat} {event : Client.PaneStream.Event P η}
    (hstep : c.step capBytes event = some c') : pushLog c' = pushLog c ++ pushing event := by
  have hsame (hpushes : c'.pushes = c.pushes) : pushLog c' = pushLog c ++ [] := by
    rw [pushLog, hpushes, List.append_nil, pushLog]
  cases event with
  | push pane bytes =>
    cases hstep
    unfold PaneStreamConsumer.push
    dsimp only
    split
    · rw [pushLog, pushes_visitGlobals]
      exact List.map_append
    · rw [pushLog, pushes_visit]
      exact List.map_append
  | onPaneOutput pane handler =>
    cases hstep
    refine hsame ?_
    unfold onPaneOutput
    dsimp only
    split
    · rfl
    · rw [pushes_flush]
      rfl
  | onOutput handler =>
    cases hstep
    exact hsame rfl
  | unsubscribe index =>
    obtain ⟨closure, -, rfl⟩ := Option.map_eq_some_iff.mp hstep
    cases closure <;> exact hsame rfl
  | returns =>
    simp only [PaneStreamConsumer.step] at hstep
    split at hstep
    · cases hstep
    · next frame frames _ =>
      cases hstep
      cases frame with
      | handlers => exact hsame (pushes_visit _ _ _ _)
      | globals => exact hsame (pushes_visitGlobals _ _ _ _)
      | flush => exact hsame (pushes_flush _ _ _ _)

end Consumer

/-! ## What was said of each pane -/

/-- The entries of a pane. -/
def ofPane {β : Type} (paneId : PaneId) (entries : List (PaneId × β)) : List β :=
  (entries.filter fun entry => entry.1 = paneId).map Prod.snd

/-- What tokens say that panes have printed. -/
def printedIn (utf8Slice : Bytes → String) (tokens : List NotificationToken) :
    List (PaneId × Bytes) :=
  tokens.filterMap fun token => outputOf (parseNotification utf8Slice token)

def Feed.output? : Feed → Option (PaneId × Bytes)
  | .output paneId decoded => some (paneId, decoded)
  | .forget _ => none

/-- One feed of a pane's sniffer. -/
def stripFeed (titleDecode : Bytes → String) (paneId : PaneId)
    (acc : OscTitleSniffer × List Bytes) : Feed → OscTitleSniffer × List Bytes
  | .output q decoded =>
    if q = paneId then
      let result := acc.1.feed titleDecode decoded
      (result.1, acc.2 ++ [result.2.passthrough])
    else acc
  | .forget q => if q = paneId then (OscTitleSniffer.init, acc.2) else acc

/-- The sniffer of a pane and what it has let through, chunk by chunk. -/
def strip (titleDecode : Bytes → String) (paneId : PaneId) (feeds : List Feed) :
    OscTitleSniffer × List Bytes :=
  feeds.foldl (stripFeed titleDecode paneId) (OscTitleSniffer.init, [])

/-- The chunk of a frame, if it is one for this transport. -/
def liveOf {T : Type} [DecidableEq T] (transport : T) (frame : Runtime.DataFrame T) :
    Option (PaneId × Runtime.Chunk) :=
  if frame.transport = transport then some (frame.paneId, frame.chunk) else none

def Sent.live? {Msg : Type} : Sent Msg → Option (PaneId × Runtime.Chunk)
  | .live paneId chunk => some (paneId, chunk)
  | _ => none

section Panes

variable {β : Type}

@[simp] theorem ofPane_append (p : PaneId) (xs ys : List (PaneId × β)) :
    ofPane p (xs ++ ys) = ofPane p xs ++ ofPane p ys := by
  simp [ofPane]

theorem ofPane_cons (p : PaneId) (entry : PaneId × β) (entries : List (PaneId × β)) :
    ofPane p (entry :: entries) = (if entry.1 = p then [entry.2] else []) ++ ofPane p entries := by
  by_cases h : entry.1 = p <;> simp [ofPane, h]

theorem ofPane_sublist (p : PaneId) {xs ys : List (PaneId × β)} (h : xs.Sublist ys) :
    (ofPane p xs).Sublist (ofPane p ys) :=
  (h.filter _).map _

theorem ofPane_mono (p : PaneId) {xs ys : List (PaneId × β)} (h : xs <+: ys) :
    ofPane p xs <+: ofPane p ys :=
  (h.filter _).map _

theorem ofPane_liveOf {T : Type} [DecidableEq T] (transport : T) (p : PaneId)
    (frames : List (Runtime.DataFrame T)) :
    ofPane p (frames.filterMap (liveOf transport)) = framesTo transport p frames := by
  induction frames with
  | nil => rfl
  | cons frame frames ih =>
    rw [← List.singleton_append, List.filterMap_append, ofPane_append, Runtime.framesTo_append, ih]
    congr 1
    obtain ⟨t, q, chunk⟩ := frame
    rw [Runtime.framesTo_singleton]
    by_cases ht : t = transport
    · by_cases hq : q = p <;> simp [liveOf, ofPane, ht, hq]
    · simp [liveOf, ofPane, ht]

theorem live?_liveFor {T Msg : Type} [DecidableEq T] (transport : T)
    (frames : List (Runtime.DataFrame T)) :
    (frames.filterMap fun frame => (liveFor transport frame : Option (Sent Msg))).filterMap
        Sent.live? =
      frames.filterMap (liveOf transport) := by
  rw [List.filterMap_filterMap]
  refine List.filterMap_congr fun frame _ => ?_
  unfold liveFor liveOf
  split <;> rfl

end Panes

/-! ## The invariant -/

section Invariant

variable {T Msg η : Type} [DecidableEq T] [DecidableEq η]

/-- What is sent can be framed and read back. -/
def Sendable (codec : Codec Msg) (sent : List (Sent Msg)) : Prop :=
  ∀ s ∈ sent, s.item.Fits codec ∧ s.item.ReadsBack codec

/-- The socket has dispatched the first of the items that were sent, and the bytes of the others
are in its buffer or on the wire. -/
def Carries (S : Setup T Msg) (sent : List (Sent Msg)) (onWire : Bytes)
    (socket : Socket Handler Msg) : Prop :=
  Sendable S.codec sent → ∃ units : List (Bytes × Item Msg),
    units.map Prod.snd = sent.map Sent.item ∧
    (∀ unit ∈ units, Encodes S.codec unit.1 unit.2) ∧
    Delivering S.codec S.react units onWire socket ∧ Settled S.codec socket

/-- Each stage has taken the first of what the one before it handed on. -/
structure Inv (S : Setup T Msg) (w : World T Msg η) : Prop where
  channel : Parser.Inv w.channel
  heard : w.heard ++ notesIn w.channel.ahead = w.written.flatMap tokensOf
  read : w.read ≤ w.heard.length
  feeds : w.feeds.filterMap Feed.output? = printedIn S.utf8Slice (w.heard.take w.read)
  stripped : ∀ p, strip S.titleDecode p w.feeds = (w.sniffers p,
    (Runtime.Demux.chunksOf p w.demux.appended).map (·.bytes))
  demux : Runtime.Demux.InLine w.demux
  live : w.sent.filterMap Sent.live? = w.demux.sent.filterMap (liveOf S.transport)
  carries : Carries S w.sent w.onWire w.socket
  handed : w.handed ≤ w.socket.dispatched.length
  arrived : w.connection.data.arrived =
    ((w.socket.dispatched.take w.handed).map Prod.snd).filter fun item => planeOf item = .data
  split : w.connection.Split
  good : w.connection.Good
  pushed : pushLog w.consumer = ((w.connection.deliveries .data).take
    w.consumer.pushes.length).filterMap fun arrival => arrival.message.frame
  taken : w.consumer.pushes.length ≤ (w.connection.deliveries .data).length
  sound : w.consumer.Sound S.capBytes
  entered : w.consumer.Entered

variable {S : Setup T Msg} {w w' : World T Msg η}

/-! ## The socket -/

theorem delivering_append_all {codec : Codec Msg}
    {react : List (Handler × Item Msg) → Reaction Handler} {units : List (Bytes × Item Msg)}
    {unread : Bytes} {socket : Socket Handler Msg} (h : Delivering codec react units unread socket)
    (more : List (Bytes × Item Msg)) :
    Delivering codec react (units ++ more) (unread ++ more.flatMap Prod.fst) socket := by
  induction more generalizing units unread with
  | nil => simpa using h
  | cons unit more ih =>
    have hmore := ih (h.append unit)
    rwa [List.append_assoc, List.singleton_append, List.append_assoc,
      ← List.flatMap_cons] at hmore

omit [DecidableEq T] [DecidableEq η] in
theorem Carries.transmit (h : Carries S w.sent w.onWire w.socket) (outgoing : List (Sent Msg)) :
    Carries S (w.transmit S outgoing).sent (w.transmit S outgoing).onWire w.socket := by
  intro hsendable
  obtain ⟨units, hitems, hencodes, hdelivering, hsettled⟩ :=
    h fun s hs => hsendable s (List.mem_append_left _ hs)
  have hout : ∀ item ∈ outgoing.map Sent.item, item.Fits S.codec ∧ item.ReadsBack S.codec := by
    intro item hitem
    obtain ⟨s, hs, rfl⟩ := List.mem_map.mp hitem
    exact hsendable s (List.mem_append_right _ hs)
  obtain ⟨more, hmore, hencodes', hwritten⟩ := units_of_sendAll (fun item hi => (hout item hi).1)
    (fun item hi => (hout item hi).2) w.sender
  refine ⟨units ++ more, ?_, ?_, ?_, hsettled⟩
  · rw [List.map_append, hitems, hmore, ← List.map_append]
    rfl
  · intro unit hunit
    exact (List.mem_append.mp hunit).elim (hencodes unit) (hencodes' unit)
  · show Delivering _ _ _ (w.onWire ++ Transport.written _) _
    rw [hwritten]
    exact delivering_append_all hdelivering more

omit [DecidableEq T] in
/-- The client's transport reads, or runs its callback. -/
theorem Carries.step {sent : List (Sent Msg)} {onWire later : Bytes}
    {socket next : Socket Handler Msg} {event : Transport.Event}
    (h : Carries S sent onWire socket) (hlater : received [event] ++ later = onWire)
    (hstep : Transport.step S.codec S.react socket event = some next) :
    Carries S sent later next := by
  intro hsendable
  obtain ⟨units, hitems, hencodes, hdelivering, -⟩ := h hsendable
  exact ⟨units, hitems, hencodes, step_keeps hencodes (hlater ▸ hdelivering) hstep⟩

theorem Inv.transmit (h : Inv S w) {outgoing : List (Sent Msg)}
    (hlive : outgoing.filterMap Sent.live? = []) : Inv S (w.transmit S outgoing) :=
  { h with
    live := by
      show (w.sent ++ outgoing).filterMap Sent.live? = _
      rw [List.filterMap_append, hlive, List.append_nil]
      exact h.live
    carries := h.carries.transmit outgoing }

theorem Inv.readSocket (h : Inv S w) {event : Transport.Event} {later : Bytes}
    {next : Socket Handler Msg} (hlater : received [event] ++ later = w.onWire)
    (hstep : Transport.step S.codec S.react w.socket event = some next) :
    Inv S { w with socket := next, onWire := later } := by
  have hdispatched := dispatched_step S.codec S.react hstep
  refine { h with
    carries := h.carries.step hlater hstep
    handed := h.handed.trans hdispatched.length_le
    arrived := ?_ }
  obtain ⟨more, hmore⟩ := hdispatched
  show w.connection.data.arrived = ((next.dispatched.take w.handed).map Prod.snd).filter _
  rw [← hmore, List.take_append_of_le_length h.handed]
  exact h.arrived

/-! ## The demux -/

/-- A step of the demux, with what feeds it. -/
theorem Inv.stepDemux (h : Inv S w) {read : Nat} {sniffers : PaneId → OscTitleSniffer}
    {feeds : List Feed} {event : Runtime.Demux.Event T} (hread : read ≤ w.heard.length)
    (hfeeds : feeds.filterMap Feed.output? = printedIn S.utf8Slice (w.heard.take read))
    (hstripped : ∀ p, strip S.titleDecode p feeds = (sniffers p, (Runtime.Demux.chunksOf p
      (w.demux.appended ++ Runtime.Demux.given w.demux.appended.length event)).map (·.bytes)))
    (hok : ¬Runtime.Demux.Overtakes w.demux event)
    (hstep : World.stepDemux S { w with read, sniffers, feeds } event = some w') : Inv S w' := by
  obtain ⟨demux, hdemux, rfl⟩ := Option.map_eq_some_iff.mp hstep
  have hline := h.demux.step hok hdemux
  obtain ⟨⟨d, frames⟩, -, rfl⟩ := Option.map_eq_some_iff.mp hdemux
  refine { h with
    read := hread
    feeds := hfeeds
    stripped := hstripped
    demux := hline
    live := ?_
    carries := Carries.transmit (w := { w with read, sniffers, feeds }) h.carries _ }
  show (w.sent ++ ((w.demux.sent ++ frames).drop w.demux.sent.length).filterMap
    (liveFor S.transport)).filterMap Sent.live? = (w.demux.sent ++ frames).filterMap _
  rw [List.drop_left, List.filterMap_append, live?_liveFor, h.live, List.filterMap_append]

theorem strip_concat (titleDecode : Bytes → String) (p : PaneId) (feeds : List Feed)
    (feed : Feed) : strip titleDecode p (feeds ++ [feed]) =
      stripFeed titleDecode p (strip titleDecode p feeds) feed := by
  rw [strip, List.foldl_append]
  rfl

/-- The next chunk of a pane goes through its sniffer. -/
theorem strip_output (h : Inv S w) (output : PaneId × Bytes) (count : Nat) (p : PaneId) :
    strip S.titleDecode p (w.feeds ++ [.output output.1 output.2]) =
      (Function.update w.sniffers output.1 (w.sniff S output).1 p,
        (Runtime.Demux.chunksOf p (w.demux.appended ++ [(output.1,
          ⟨count, (w.sniff S output).2.passthrough⟩)])).map (·.bytes)) := by
  rw [strip_concat, h.stripped, Runtime.Demux.chunksOf_append, Runtime.Demux.chunksOf_singleton]
  unfold stripFeed
  by_cases hp : output.1 = p
  · subst hp
    simp only [if_true, Function.update_self, List.map_append]
    rfl
  · simp only [if_neg hp, Function.update_of_ne (Ne.symm hp), List.append_nil]

theorem strip_forget (h : Inv S w) (paneId p : PaneId) :
    strip S.titleDecode p (w.feeds ++ [.forget paneId]) =
      (Function.update w.sniffers paneId OscTitleSniffer.init p,
        (Runtime.Demux.chunksOf p w.demux.appended).map (·.bytes)) := by
  rw [strip_concat, h.stripped]
  unfold stripFeed
  by_cases hp : paneId = p
  · subst hp
    simp only [if_true, Function.update_self]
  · simp only [if_neg hp, Function.update_of_ne (Ne.symm hp)]

omit [DecidableEq T] [DecidableEq η] in
/-- What the next token adds to what panes have printed. -/
theorem printedIn_next (hlt : w.read < w.heard.length) :
    printedIn S.utf8Slice (w.heard.take (w.read + 1)) =
      printedIn S.utf8Slice (w.heard.take w.read) ++ (w.nextOutput S).toList := by
  rw [World.nextOutput, List.take_add_one, printedIn, List.filterMap_append, ← printedIn,
    List.getElem?_eq_getElem hlt]
  cases h : outputOf (parseNotification S.utf8Slice w.heard[w.read]) <;> simp [h]

theorem Inv.dispatch (h : Inv S w) (hok : Orderly S w (.dispatch : Event T Msg η))
    (hstep : step S w .dispatch = some w') : Inv S w' := by
  simp only [step] at hstep
  split at hstep
  · next hlt =>
    have hnext := printedIn_next (S := S) hlt
    rcases houtput : w.nextOutput S with _ | output
    · rw [houtput] at hstep hnext
      cases hstep
      exact { h with read := hlt, feeds := by rw [h.feeds, hnext]; simp }
    · rw [houtput] at hstep hnext
      have hkeeps := hok.demux _ (by rw [World.demuxEvent, houtput]; rfl)
      refine h.stepDemux hlt ?_ (fun p => strip_output h output _ p) hkeeps hstep
      rw [List.filterMap_append, h.feeds, hnext]
      rfl
  · cases hstep

/-! ## The client -/

/-- A step of the connection, with what it takes from the transport. -/
theorem Inv.stepConnection (h : Inv S w) {handed : Nat}
    {event : Client.Connection.Event Unit (Item Msg)}
    (hhanded : handed ≤ w.socket.dispatched.length)
    (harrived : ((w.socket.dispatched.take handed).map Prod.snd).filter
        (fun item => planeOf item = .data) = w.connection.data.arrived ++ arriving .data event)
    (hok : w.connection.Orderly event)
    (hstep : World.stepConnection { w with handed } event = some w') : Inv S w' := by
  obtain ⟨connection, hconnection, rfl⟩ := Option.map_eq_some_iff.mp hstep
  obtain ⟨hdelivered, hdata⟩ := plane_step .data hconnection
  have hprefix : w.connection.deliveries .data <+: connection.deliveries .data :=
    hdelivered.map Prod.snd
  refine { h with
    handed := hhanded
    arrived := hdata.trans harrived.symm
    split := Client.Connection.SessionProxyConnection.split_step h.split hconnection
    good := Client.Connection.SessionProxyConnection.good_step h.split h.good hok hconnection
    pushed := ?_
    taken := h.taken.trans hprefix.length_le }
  obtain ⟨more, hmore⟩ := hprefix
  show pushLog w.consumer = ((connection.deliveries .data).take _).filterMap _
  rw [← hmore, List.take_append_of_le_length h.taken]
  exact h.pushed

theorem Inv.hand (h : Inv S w) (hok : Orderly S w (.hand : Event T Msg η))
    (hstep : step S w .hand = some w') : Inv S w' := by
  simp only [step] at hstep
  split at hstep
  · next hlt =>
    have hitem := List.getElem?_eq_getElem hlt
    have htake : (w.socket.dispatched.take (w.handed + 1)).map Prod.snd =
        (w.socket.dispatched.take w.handed).map Prod.snd ++ [w.socket.dispatched[w.handed].2] := by
      rw [List.take_add_one, hitem, List.map_append]
      rfl
    rcases hevent : w.connectionEvent (.hand : Event T Msg η) with _ | arrives
    · rw [hevent] at hstep
      cases hstep
      -- The handshake has taken a control message.
      refine { h with handed := hlt, arrived := ?_ }
      rw [htake, List.filter_append, ← h.arrived]
      rw [World.connectionEvent, hitem] at hevent
      split at hevent
      · next msg hmsg =>
        rw [Option.some.inj hmsg]
        exact (List.append_nil _).symm
      · cases hevent
      · next hnone => cases hnone
    · rw [hevent] at hstep
      refine h.stepConnection hlt ?_ (hok.connection arrives hevent) hstep
      rw [htake, List.filter_append, ← h.arrived]
      rw [World.connectionEvent, hitem] at hevent
      split at hevent
      · cases hevent
      · next handler item _ heq =>
        rw [Option.some.inj heq, ← Option.some.inj hevent]
        cases item <;> rfl
      · cases hevent
  · cases hstep

/-- A step of the pane streams. -/
theorem Inv.stepPanes (h : Inv S w) {event : Client.PaneStream.Event PaneId η}
    (htaken : (pushLog w.consumer ++ pushing event) = ((w.connection.deliveries .data).take
      (pushLog w.consumer ++ pushing event).length).filterMap fun arrival => arrival.message.frame)
    (hle : (pushLog w.consumer ++ pushing event).length ≤ (w.connection.deliveries .data).length)
    (hok : w.consumer.Calm event) (hstep : w.stepPanes S event = some w') : Inv S w' := by
  obtain ⟨consumer, hconsumer, rfl⟩ := Option.map_eq_some_iff.mp hstep
  have hpushed := pushed_step hconsumer
  have hlength : consumer.pushes.length = (pushLog w.consumer ++ pushing event).length := by
    rw [← hpushed, pushLog, List.length_map]
  exact { h with
    pushed := by rw [hpushed, hlength]; exact htaken
    taken := hlength ▸ hle
    sound := Client.PaneStream.PaneStreamConsumer.sound_step h.sound h.entered hok hconsumer
    entered := Client.PaneStream.PaneStreamConsumer.entered_step h.entered hconsumer }

theorem Inv.push (h : Inv S w) (hok : Orderly S w (.push : Event T Msg η))
    (hstep : step S w .push = some w') : Inv S w' := by
  simp only [step] at hstep
  split at hstep
  · cases hstep
  · next event hevent =>
    obtain ⟨arrival, harrival, hread⟩ := Option.bind_eq_some_iff.mp hevent
    obtain ⟨frame, hframe, rfl⟩ := Option.map_eq_some_iff.mp hread
    have hlt := (List.getElem?_eq_some_iff.mp harrival).1
    have hlength : (pushLog w.consumer ++ pushing
        (.push frame.1 frame.2 : Client.PaneStream.Event PaneId η)).length =
          w.consumer.pushes.length + 1 := by
      rw [List.length_append, pushLog, List.length_map]
      rfl
    refine h.stepPanes ?_ (hlength ▸ hlt) (hok.panes _ hevent) hstep
    rw [hlength, List.take_add_one, List.filterMap_append, ← h.pushed, harrival]
    simp [hframe, pushing]

/-! ## Every step -/

theorem Inv.step {event : Event T Msg η} (h : Inv S w) (hok : Orderly S w event)
    (hstep : step S w event = some w') : Inv S w' := by
  cases event with
  | tmux action =>
    obtain ⟨channel, hchannel, rfl⟩ := Option.map_eq_some_iff.mp hstep
    have haction := hok.tmux action rfl
    have hheard := heard_step h.channel haction hchannel
    refine { h with
      channel := Parser.Channel.step_inv _ action _ h.channel haction hchannel
      heard := ?_
      read := h.read.trans (List.length_append ▸ Nat.le_add_right _ _)
      feeds := ?_ }
    · show (w.heard ++ Parser.Notifications.heard w.channel action) ++ notesIn channel.ahead =
        (w.written ++ (noteOf action).toList).flatMap tokensOf
      rw [List.append_assoc, hheard, ← List.append_assoc, h.heard, List.flatMap_append]
    · show w.feeds.filterMap Feed.output? = printedIn S.utf8Slice ((w.heard ++ _).take w.read)
      -- what was dispatched is a prefix of what was heard, and it does not change
      rw [List.take_append_of_le_length h.read]
      exact h.feeds
  | dispatch => exact h.dispatch hok hstep
  | forget paneId =>
    cases hstep
    exact { h with
      feeds := by rw [List.filterMap_append, h.feeds]; exact List.append_nil _
      stripped := fun p => strip_forget h paneId p }
  | demux event =>
    have hkeeps := hok.demux event rfl
    cases event with
    | append => cases hstep
    | _ =>
      refine h.stepDemux h.read h.feeds (fun p => ?_) hkeeps hstep
      show _ = (_, (Runtime.Demux.chunksOf p (w.demux.appended ++ [])).map (·.bytes))
      rw [List.append_nil]
      exact h.stripped p
  | replay paneId bytes =>
    cases hstep
    exact h.transmit rfl
  | control msg =>
    cases hstep
    exact h.transmit rfl
  | read n =>
    have hread : (Transport.step S.codec S.react w.socket (.chunk (w.onWire.take n))).map
      (fun socket => { w with socket, onWire := w.onWire.drop n }) = some w' := hstep
    obtain ⟨socket, hsocket, rfl⟩ := Option.map_eq_some_iff.mp hread
    refine h.readSocket ?_ hsocket
    show (w.onWire.take n ++ []) ++ w.onWire.drop n = w.onWire
    rw [List.append_nil, List.take_append_drop]
  | immediate =>
    obtain ⟨socket, hsocket, rfl⟩ := Option.map_eq_some_iff.mp hstep
    have hlater : received [.immediate] ++ w.onWire = w.onWire := rfl
    exact h.readSocket hlater hsocket
  | hand => exact h.hand hok hstep
  | connection event =>
    have horderly := hok.connection event rfl
    have hnone : ((w.socket.dispatched.take w.handed).map Prod.snd).filter
        (fun item => planeOf item = .data) = w.connection.data.arrived ++ [] :=
      h.arrived.symm.trans (List.append_nil _).symm
    cases event with
    | arrives => cases hstep
    | _ =>
      refine h.stepConnection h.handed ?_ horderly hstep
      exact hnone
  | push => exact h.push hok hstep
  | panes event =>
    have hcalm := hok.panes event rfl
    have hlength : (pushLog w.consumer ++ []).length = w.consumer.pushes.length := by
      rw [List.append_nil, pushLog, List.length_map]
    have hnone : pushLog w.consumer ++ [] = ((w.connection.deliveries .data).take
        (pushLog w.consumer ++ []).length).filterMap fun arrival => arrival.message.frame := by
      rw [hlength, List.append_nil]
      exact h.pushed
    cases event with
    | push => cases hstep
    | _ =>
      refine h.stepPanes ?_ (hlength ▸ h.taken) hcalm hstep
      exact hnone

theorem inv_start (dcs : Bool) : Inv S (start T Msg η dcs) where
  channel := Parser.Channel.inv_start dcs
  heard := by cases dcs <;> rfl
  read := le_rfl
  feeds := rfl
  stripped _ := rfl
  demux := Runtime.Demux.inLine_start
  live := rfl
  carries _ := ⟨[], rfl, fun _ h => (by cases h), ⟨rfl, rfl, ⟨[], [], rfl, rfl, fun _ => rfl⟩,
    fun h => by cases h⟩, .inr (.inr rfl)⟩
  handed := le_rfl
  arrived := rfl
  split := Client.Connection.SessionProxyConnection.split_new
  good := Client.Connection.SessionProxyConnection.good_new
  pushed := rfl
  taken := le_rfl
  sound := Client.PaneStream.PaneStreamConsumer.sound_new
  entered _ _ _ hframe := by cases hframe

theorem inv_of_run {dcs : Bool} {events : List (Event T Msg η)}
    (hok : Along (OutputPath.step S) (Orderly S) (start T Msg η dcs) events)
    (hrun : exec (OutputPath.step S) (start T Msg η dcs) events = some w) : Inv S w :=
  exec_invariant (fun _ _ _ h horderly hstep => h.step horderly hstep) (inv_start dcs) hok hrun

end Invariant

/-! ## One call at a time -/

section Steady

variable {T Msg η : Type} [DecidableEq η]

/-- The driver reads the next bytes of tmux, which are these tokens. -/
theorem step_chunk [DecidableEq T] {S : Setup T Msg} {w : World T Msg η} {n : Nat}
    {tokens : List Parser.ControlToken}
    (htokens : (w.channel.tok.push (w.channel.wire.take n)).2 = tokens) :
    step S w (.tmux (.chunk n)) = some { w with
      channel := { w.channel with
        tok := (w.channel.tok.push (w.channel.wire.take n)).1
        queue := w.channel.queue ++ tokens
        wire := w.channel.wire.drop n } } := by
  subst htokens
  have hchunk : w.channel.step (.chunk n) = some { w.channel with
      tok := (w.channel.tok.push (w.channel.wire.take n)).1
      queue := w.channel.queue ++ (w.channel.tok.push (w.channel.wire.take n)).2
      wire := w.channel.wire.drop n } := rfl
  rw [step, hchunk]
  simp [noteOf, Parser.Notifications.heard]

/-- A step that finds the stages at rest which it concerns. -/
def steady (w : World T Msg η) (event : Event T Msg η) : Bool :=
  match event with
  | .tmux action => action.Admissible
  | .dispatch => w.demux.demux.microtasks.isEmpty
  | .hand => (w.connectionEvent event).isNone ||
    w.connection.state = .ready && w.connection.frames.isEmpty &&
      w.connection.control.pending.isEmpty && w.connection.data.pending.isEmpty
  | .connection (.onData _) => w.connection.data.pending.isEmpty
  | .push =>
    w.consumer.frames.isEmpty &&
      match w.panesEvent event with
      | some (.push paneId _) => decide (w.consumer.panes paneId).handlers.Nodup
      | _ => true
  | .panes (.onPaneOutput ..) | .panes (.unsubscribe _) => w.consumer.frames.isEmpty
  | .demux (.append ..) | .connection (.arrives ..) | .panes (.push ..) => false
  | _ => true

/-- Such a step is orderly. -/
theorem orderly_of_steady [DecidableEq T] {S : Setup T Msg} {w : World T Msg η}
    {event : Event T Msg η} (h : steady w event = true) : Orderly S w event := by
  have hframes (hnone : w.consumer.frames.isEmpty = true) {frame}
      (hframe : frame ∈ w.consumer.frames) : False := by
    rw [List.isEmpty_iff.mp hnone] at hframe
    cases hframe
  cases event with
  | tmux action =>
    refine ⟨?_, fun _ h => (by cases h), fun _ h => (by cases h), fun _ h => by cases h⟩
    rintro _ ⟨⟩
    exact of_decide_eq_true h
  | dispatch =>
    refine ⟨fun _ h => (by cases h), fun e he => ?_, fun _ h => (by cases h), fun _ h => by cases h⟩
    obtain ⟨output, -, rfl⟩ := Option.map_eq_some_iff.mp he
    rintro ⟨-, -, -, -, hflushing⟩
    refine hflushing ?_
    -- no microtask is queued, so no flush of the pane can be overtaken
    rw [Runtime.OutputDemux.flushing, List.isEmpty_iff.mp h]
    rfl
  | forget | replay | control | read | immediate =>
    exact ⟨fun _ h => (by cases h), fun _ h => (by cases h), fun _ h => (by cases h),
      fun _ h => by cases h⟩
  | demux e =>
    refine ⟨fun _ h => (by cases h), ?_, fun _ h => (by cases h), fun _ h => by cases h⟩
    rintro _ ⟨⟩ hovertakes
    cases e with
    | append => cases h
    | _ => exact hovertakes
  | hand =>
    refine ⟨fun _ h => (by cases h), fun _ h => (by cases h), fun e he => ?_, fun _ h => by cases h⟩
    rw [steady, Bool.or_eq_true, Option.isNone_iff_eq_none, Bool.and_eq_true, Bool.and_eq_true,
      Bool.and_eq_true] at h
    rcases h with hnone | ⟨⟨⟨hready, hcalls⟩, hcontrol⟩, hdata⟩
    · rw [hnone] at he
      cases he
    · have hready : w.connection.state = .ready := of_decide_eq_true hready
      -- nothing waits in either buffer, so the message is the next one for its handler
      have hwaiting (plane : Client.Connection.Plane) : w.connection.waiting plane = [] := by
        rw [Client.Connection.SessionProxyConnection.waiting,
          Client.Connection.SessionProxyConnection.underway, List.isEmpty_iff.mp hcalls]
        cases plane with
        | control => exact List.isEmpty_iff.mp hcontrol
        | data => exact List.isEmpty_iff.mp hdata
      rw [World.connectionEvent] at he
      split at he
      · cases he
      · cases he
        exact ⟨fun hconnecting => (by cases hready.symm.trans hconnecting), fun _ _ => hwaiting _⟩
      · cases he
  | connection e =>
    refine ⟨fun _ h => (by cases h), fun _ h => (by cases h), ?_, fun _ h => by cases h⟩
    rintro _ ⟨⟩
    cases e with
    | arrives => cases h
    | onData => exact .inl (List.isEmpty_iff.mp h)
    | _ => trivial
  | push =>
    refine ⟨fun _ h => (by cases h), fun _ h => (by cases h), fun _ h => (by cases h),
      fun e he => ?_⟩
    rw [steady, Bool.and_eq_true] at h
    obtain ⟨hnone, hnodup⟩ := h
    obtain ⟨arrival, -, hpush⟩ := Option.bind_eq_some_iff.mp he
    obtain ⟨frame, -, rfl⟩ := Option.map_eq_some_iff.mp hpush
    rw [show w.panesEvent .push = _ from he] at hnodup
    refine ⟨of_decide_eq_true hnodup, fun handler _ => ?_, fun _ hflushing => ?_⟩
    · rw [Client.PaneStream.PaneStreamConsumer.owed, List.isEmpty_iff.mp hnone]
      rfl
    · obtain ⟨_, _, hframe⟩ := hflushing
      exact hframes hnone hframe
  | panes e =>
    refine ⟨fun _ h => (by cases h), fun _ h => (by cases h), fun _ h => (by cases h), ?_⟩
    rintro _ ⟨⟩
    cases e with
    | push => cases h
    | onPaneOutput =>
      refine .inl ?_
      rw [Client.PaneStream.PaneStreamConsumer.joined, List.isEmpty_iff.mp h]
      rfl
    | unsubscribe => exact fun _ _ _ _ _ hframe => (hframes h hframe).elim
    | _ => trivial

end Steady

end TmuxccDriver.System.OutputPath
