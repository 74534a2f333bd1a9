import TmuxccDriver.Transport.SocketTransport

/-!
# The handshake

`handshake.ts`, both sides of one connection over socket transports: the server advertises its
capabilities, the client answers with its own, and each side negotiates. `settle` puts a
handler in place that drops everything. The client installs the real one when it goes on, in
the microtasks of the same turn; the broker (`_handleConnection` of `server-proxy.ts`) awaits
its first reconcile before.

The bytes of each direction arrive in chunks of any size. The messages that a side has to send
after the handshake may be sent at any time after it has settled.

Results:
1. `negotiate_ok`: two sides that negotiate with each other agree.
2. `Reading`: what one side has made of what the other one has sent.
3. `Exchanged.step`: what a step keeps in which the broker drops no message.
4. `handshake_iff`: in which runs the handshake loses no message.
-/

namespace TmuxccDriver.Transport.Handshake
open TmuxccDriver.Lib TmuxccDriver.Protocol

/-! ## Capabilities -/

def WIRE_PROTOCOL_VERSION : Nat := 3

structure Capabilities where
  protocolVersion : Nat
  features : List String
deriving DecidableEq, Repr

structure ClientIdentity where
  id : String
  label : Option String
deriving DecidableEq, Repr

structure NegotiatedSession where
  protocolVersion : Nat
  features : List String
  clientIdentity : Option ClientIdentity := none
deriving DecidableEq, Repr

inductive HandshakeErrorCode
  | versionMismatch
  | unexpectedMessage
  | transportClosed
deriving DecidableEq, Repr

structure HandshakeError where
  code : HandshakeErrorCode
  message : String
deriving DecidableEq, Repr

/-- The messages of the wire, up to the contents of those that come after the handshake. -/
inductive Message
  | serverCapabilities (capabilities : Capabilities)
  | clientCapabilities (capabilities : Capabilities) (identity : Option ClientIdentity)
  | other (type : String)
deriving DecidableEq, Repr

def serverCapabilitiesType : String := "server-proxy.capabilities"

def Message.type : Message → String
  | .serverCapabilities _ => serverCapabilitiesType
  | .clientCapabilities .. => "client.capabilities"
  | .other type => type

def intersectFeatures (a b : List String) : List String := a.filter fun f => b.contains f

def negotiateCapabilities (here remote : Capabilities) :
    Except HandshakeError NegotiatedSession :=
  if here.protocolVersion ≠ remote.protocolVersion then
    .error ⟨.versionMismatch, s!"Protocol version mismatch: local={here.protocolVersion} " ++
      s!"remote={remote.protocolVersion}"⟩
  else .ok ⟨WIRE_PROTOCOL_VERSION, intersectFeatures here.features remote.features, none⟩

def unexpectedMessage (expected : String) (message : Message) : HandshakeError :=
  ⟨.unexpectedMessage, s!"Expected \"{expected}\" but received \"{message.type}\""⟩

/-- What the handler of `runServerHandshake` settles with. -/
def serverOutcome (capabilities : Capabilities) : Message → Except HandshakeError NegotiatedSession
  | .clientCapabilities remote identity =>
    (negotiateCapabilities capabilities remote).map fun session =>
      { session with clientIdentity := identity }
  | message => .error (unexpectedMessage "client.capabilities" message)

/-- What the handler of `runClientHandshake` settles with. -/
def clientOutcome (capabilities : Capabilities) (identity : Option ClientIdentity) :
    Message → Except HandshakeError NegotiatedSession
  | .serverCapabilities remote =>
    (negotiateCapabilities capabilities remote).map fun session =>
      { session with clientIdentity := identity }
  | message => .error (unexpectedMessage serverCapabilitiesType message)

/-! ## State -/

/-- The control handlers that a side installs one after the other. -/
inductive Handler
  | handshake
  | spent
  | installed
deriving DecidableEq, Repr

/-- Every message settles the handshake, and `settle` replaces the handler. -/
def react (dispatched : List (Handler × Item Message)) : Reaction Handler :=
  match dispatched.getLast? with
  | some (.handshake, .control _) => { onControl := some .spent }
  | _ => {}

/-- One end of the connection, the promise of its handshake, and how often that was settled. -/
structure Side where
  socket : Socket Handler Message
  promise : Option (Except HandshakeError NegotiatedSession)
  settlements : Nat

namespace Side

variable (side : Side)

def start : Side := ⟨Socket.new .handshake .spent, none, 0⟩

def settle (outcome : Except HandshakeError NegotiatedSession) : Side :=
  match side.promise with
  | some _ => side
  | none =>
    { socket := { side.socket with controlHandler := some .spent }
      promise := some outcome
      settlements := side.settlements + 1 }

def install : Side := { side with socket := { side.socket with controlHandler := some .installed } }

/-- The transport closes, from either end; the close handler of the handshake is called. -/
def close (message : String) : Side :=
  { side with socket := { side.socket with closed := true } }.settle
    (.error ⟨.transportClosed, message⟩)

/-- The message that the handshake was called with. -/
def first : Option Message :=
  match side.socket.dispatched with
  | (_, .control message) :: _ => some message
  | _ => none

/-- The handshake settles if its handler was called in this turn, and its caller goes on in the
microtasks: a failed handshake closes the transport, the other one brings the real handler. -/
def goOn (outcome : Message → Except HandshakeError NegotiatedSession) (installs : Bool) : Side :=
  match side.promise, side.first with
  | none, some message =>
    match outcome message with
    | .error err =>
      let side := side.settle (.error err)
      { side with socket := { side.socket with closed := true } }
    | .ok session =>
      let side := side.settle (.ok session)
      if installs then side.install else side
  | _, _ => side

/-- The handshake is over, and its caller has not installed the real handler. -/
def Waiting : Prop :=
  (∃ session, side.promise = some (.ok session)) ∧ side.socket.controlHandler = some .spent

end Side

/-- The message arrives as it was sent. -/
def OnWire (codec : Codec Message) (message : Message) : Prop :=
  (Item.control message).Fits codec ∧ (Item.control message).Parses codec

/-- What the two sides call the handshake with. -/
structure Parties (codec : Codec Message) where
  serverCapabilities : Capabilities
  clientCapabilities : Capabilities
  clientIdentity : Option ClientIdentity
  server_onWire : OnWire codec (.serverCapabilities serverCapabilities)
  client_onWire : OnWire codec (.clientCapabilities clientCapabilities clientIdentity)

/-- Both ends, the bytes on their way, and what was sent so far. `reconciling` tells that no
reconcile of the broker has succeeded yet. -/
structure Exchange where
  server : Side
  client : Side
  reconciling : Bool
  toServer : Bytes
  toClient : Bytes
  fromServer : List Message
  fromClient : List Message

/-! ## Steps -/

section Steps
variable {codec : Codec Message} (parties : Parties codec)

/-- The bytes of a message. -/
def wire (codec : Codec Message) (message : Message) : Bytes :=
  written [controlBytes codec message]

def Parties.advertisement : Message := .serverCapabilities parties.serverCapabilities

def Parties.answer : Message :=
  .clientCapabilities parties.clientCapabilities parties.clientIdentity

/-- Both sides wait, and the advertisement is on its way. -/
def start : Exchange where
  server := .start
  client := .start
  reconciling := true
  toServer := []
  toClient := wire codec parties.advertisement
  fromServer := [parties.advertisement]
  fromClient := []

namespace Exchange

variable (x : Exchange)

/-- The rest of a turn of the server. -/
def serverTurn (socket : Socket Handler Message) : Exchange :=
  { x with
    server := { x.server with socket }.goOn (serverOutcome parties.serverCapabilities)
      !x.reconciling }

/-- The rest of a turn of the client: it answers an advertisement before it negotiates. -/
def clientTurn (socket : Socket Handler Message) : Exchange :=
  let client := { x.client with socket }
  let answers := match x.client.promise, client.first with
    | none, some (.serverCapabilities _) => [parties.answer]
    | _, _ => []
  { x with
    client := client.goOn (clientOutcome parties.clientCapabilities parties.clientIdentity) true
    toServer := x.toServer ++ answers.flatMap (wire codec)
    fromClient := x.fromClient ++ answers }

end Exchange

/-- A side may send when its handshake has succeeded and its transport is open. -/
def Side.MaySend (side : Side) : Prop :=
  (∃ session, side.promise = some (.ok session)) ∧ side.socket.closed = false

/-- A message is sent only if it arrives as it was sent. -/
inductive Event (codec : Codec Message)
  | serverReads (length : Nat)
  | serverImmediate
  | clientReads (length : Nat)
  | clientImmediate
  /-- A reconcile of the broker ends. -/
  | reconciled (ok : Bool)
  | serverSends (message : { message // OnWire codec message })
  | clientSends (message : { message // OnWire codec message })
  | serverCloses
  | clientCloses

instance (side : Side) : Decidable (∃ session, side.promise = some (.ok session)) :=
  match h : side.promise with
  | some (.ok session) => .isTrue ⟨session, rfl⟩
  | some (.error _) => .isFalse (by simp)
  | none => .isFalse (by simp)

instance (side : Side) : Decidable side.Waiting := inferInstanceAs (Decidable (_ ∧ _))

instance (side : Side) : Decidable side.MaySend := inferInstanceAs (Decidable (_ ∧ _))

def step (x : Exchange) : Event codec → Option Exchange
  | .serverReads length =>
    some ({ x with toServer := x.toServer.drop length }.serverTurn parties
      (x.server.socket.onData codec react (x.toServer.take length)))
  | .serverImmediate =>
    (Transport.step codec react x.server.socket .immediate).map fun socket =>
      x.serverTurn parties socket
  | .clientReads length =>
    some ({ x with toClient := x.toClient.drop length }.clientTurn parties
      (x.client.socket.onData codec react (x.toClient.take length)))
  | .clientImmediate =>
    (Transport.step codec react x.client.socket .immediate).map fun socket =>
      x.clientTurn parties socket
  | .reconciled ok =>
    -- a broker that still has no session table closes the connection
    let server :=
      if x.server.Waiting then
        if ok then x.server.install
        else { x.server with socket := { x.server.socket with closed := true } }
      else x.server
    some { x with server, reconciling := x.reconciling && !ok }
  | .serverSends message =>
    if x.server.MaySend then
      some { x with
        toClient := x.toClient ++ wire codec message.1
        fromServer := x.fromServer ++ [message.1] }
    else none
  | .clientSends message =>
    if x.client.MaySend then
      some { x with
        toServer := x.toServer ++ wire codec message.1
        fromClient := x.fromClient ++ [message.1] }
    else none
  | .serverCloses =>
    some { x with server := x.server.close "Transport closed before client sent capabilities" }
  | .clientCloses =>
    some { x with client := x.client.close "Transport closed before server sent capabilities" }

end Steps

/-! ## A clean exchange -/

/-- The messages that were sent are dispatched in their order, the first one to the handshake
and the others to the handler that comes after it; when nothing is on its way all of them have
been. The promise is settled once, by the first message or by the close. -/
structure Delivered (side : Side) (sent : List Message) (unread : Bytes) : Prop where
  first : ∀ call ∈ side.socket.dispatched.head?, call.1 = .handshake
  later : ∀ call ∈ side.socket.dispatched.tail, call.1 = .installed
  order : side.socket.dispatched.map Prod.snd <+: sent.map Item.control
  all : unread = [] → side.socket.closed = false → side.socket.scheduled = 0 →
    side.socket.dispatched.map Prod.snd = sent.map Item.control
  settled : side.settlements =
    if side.socket.dispatched = [] ∧ side.socket.closed = false then 0 else 1
  promised : side.promise.isSome = true ↔ side.settlements = 1

/-- The same version, the same set of features and the same identity. -/
structure Agree (a b : NegotiatedSession) : Prop where
  protocolVersion : a.protocolVersion = b.protocolVersion
  features : ∀ f, f ∈ a.features ↔ f ∈ b.features
  clientIdentity : a.clientIdentity = b.clientIdentity

/-- No message is lost, a server that succeeds agrees with its client, and a side that fails
has closed its transport; if its peer succeeds, that was because the transport closed. -/
structure Clean (x : Exchange) : Prop where
  server : Delivered x.server x.fromClient x.toServer
  client : Delivered x.client x.fromServer x.toClient
  agree : ∀ session, x.server.promise = some (.ok session) →
    ∃ session', x.client.promise = some (.ok session') ∧ Agree session session'
  serverFails : ∀ err, x.server.promise = some (.error err) → x.server.socket.closed = true ∧
    ∀ session, x.client.promise = some (.ok session) → err.code = .transportClosed
  clientFails : ∀ err, x.client.promise = some (.error err) → x.client.socket.closed = true

/-- While the broker waits for a reconcile, no further message of the client gets complete. -/
def Prompt {codec : Codec Message} (x : Exchange) : Event codec → Prop
  | .serverReads length => x.server.Waiting → x.server.socket.closed = true ∨
      nextUnit codec.decode (x.server.socket.buf ++ x.toServer.take length) = .incomplete
  | .serverImmediate => x.server.Waiting → x.server.socket.closed = true ∨
      x.server.socket.scheduled = 0 ∨ nextUnit codec.decode x.server.socket.buf = .incomplete
  | _ => True

/-! ## Negotiation -/

theorem negotiateCapabilities_ok {here remote : Capabilities} {session : NegotiatedSession}
    (h : negotiateCapabilities here remote = .ok session) :
    here.protocolVersion = remote.protocolVersion ∧
      session = ⟨WIRE_PROTOCOL_VERSION, intersectFeatures here.features remote.features, none⟩ := by
  unfold negotiateCapabilities at h
  split at h
  · cases h
  · next hversion => exact ⟨not_not.mp hversion, (Except.ok.inj h).symm⟩

theorem mem_intersectFeatures {a b : List String} {f : String} :
    f ∈ intersectFeatures a b ↔ f ∈ a ∧ f ∈ b := by
  rw [intersectFeatures, List.mem_filter, List.contains_iff_mem]

section Negotiation
variable {codec : Codec Message} {parties : Parties codec}

/-- If the server makes a session of the answer, the client makes one of the advertisement,
and they agree. -/
theorem negotiate_ok {session : NegotiatedSession}
    (h : serverOutcome parties.serverCapabilities parties.answer = .ok session) :
    ∃ session', clientOutcome parties.clientCapabilities parties.clientIdentity
      parties.advertisement = .ok session' ∧ Agree session session' := by
  obtain ⟨base, hbase, rfl⟩ : ∃ base, negotiateCapabilities parties.serverCapabilities
      parties.clientCapabilities = .ok base ∧
        { base with clientIdentity := parties.clientIdentity } = session := by
    unfold serverOutcome Parties.answer at h
    dsimp only at h
    rcases hnegotiate : negotiateCapabilities parties.serverCapabilities
      parties.clientCapabilities with err | base
    · rw [hnegotiate] at h
      cases h
    · rw [hnegotiate] at h
      exact ⟨base, rfl, Except.ok.inj h⟩
  obtain ⟨hversion, rfl⟩ := negotiateCapabilities_ok hbase
  refine ⟨⟨WIRE_PROTOCOL_VERSION, intersectFeatures parties.clientCapabilities.features
    parties.serverCapabilities.features, parties.clientIdentity⟩, ?_, rfl, fun f => ?_, rfl⟩
  · show (negotiateCapabilities parties.clientCapabilities parties.serverCapabilities).map _ = _
    rw [negotiateCapabilities, if_neg (not_not.mpr hversion.symm)]
    rfl
  · rw [mem_intersectFeatures, mem_intersectFeatures, and_comm]

/-- If the client makes a session of the advertisement, the server makes one of the answer. -/
theorem negotiate_back {session : NegotiatedSession}
    (h : clientOutcome parties.clientCapabilities parties.clientIdentity parties.advertisement =
      .ok session) : ∃ session', serverOutcome parties.serverCapabilities parties.answer =
        .ok session' := by
  have hversion : parties.clientCapabilities.protocolVersion =
      parties.serverCapabilities.protocolVersion := by
    unfold clientOutcome Parties.advertisement at h
    dsimp only at h
    rcases hnegotiate : negotiateCapabilities parties.clientCapabilities
      parties.serverCapabilities with err | base
    · rw [hnegotiate] at h
      cases h
    · exact (negotiateCapabilities_ok hnegotiate).1
  refine ⟨⟨WIRE_PROTOCOL_VERSION, intersectFeatures parties.serverCapabilities.features
    parties.clientCapabilities.features, parties.clientIdentity⟩, ?_⟩
  show (negotiateCapabilities parties.serverCapabilities parties.clientCapabilities).map _ = _
  rw [negotiateCapabilities, if_neg (not_not.mpr hversion.symm)]
  rfl

end Negotiation

/-! ## One turn of the loop -/

section Loop
variable {codec : Codec Message} {units : List (Bytes × Item Message)} {unread : Bytes}
  {socket : Socket Handler Message}

theorem react_later {dispatched : List (Handler × Item Message)} {handler : Handler}
    (hne : handler ≠ .handshake) (item : Item Message) :
    react (dispatched ++ [(handler, item)]) = {} := by
  unfold react
  rw [List.getLast?_append_of_ne_nil _ (List.cons_ne_nil _ _), List.getLast?_singleton]
  cases handler <;> first | rfl | exact absurd rfl hne

theorem react_handshake {dispatched : List (Handler × Item Message)} (message : Message) :
    react (dispatched ++ [(.handshake, .control message)]) = { onControl := some .spent } := by
  unfold react
  rw [List.getLast?_append_of_ne_nil _ (List.cons_ne_nil _ _), List.getLast?_singleton]

/-- The handler stays, and all calls since an earlier state are calls of it. -/
structure TakenBy (handler : Handler) (before after : Socket Handler Message) : Prop where
  stays : after.controlHandler = some handler
  closed : after.closed = false
  calls : ∃ later, after.dispatched = before.dispatched ++ later ∧ ∀ call ∈ later, call.1 = handler

/-- The handshake's handler has taken no message, or one. -/
def TakenOnce (s : Socket Handler Message) : Prop :=
  s.closed = false ∧ (s.dispatched = [] ∧ s.controlHandler = some .handshake ∨
    ∃ message, s.dispatched = [(.handshake, .control message)] ∧ s.controlHandler = some .spent)

variable (hunits : ∀ unit ∈ units, Encodes codec unit.1 unit.2)
  (hcontrol : ∀ unit ∈ units, ∃ msg, unit.2 = .control msg)
  (h : Delivering codec react units unread socket) (hopen : socket.closed = false)

include hunits hcontrol h hopen

/-- A handler that is no longer the handshake's stays, and takes what comes. -/
theorem processBuffer_later {handler : Handler} (hne : handler ≠ .handshake)
    (hhandler : socket.controlHandler = some handler) :
    TakenBy handler socket (socket.processBuffer codec react) ∧
      ((socket.processBuffer codec react).dispatched = socket.dispatched →
        nextUnit codec.decode socket.buf = .incomplete) := by
  refine processLoop_rule hunits hcontrol
    (P := fun s => TakenBy handler socket s ∧
      (s.dispatched = socket.dispatched → s.buf = socket.buf))
    (Q := fun s => TakenBy handler socket s ∧ (s.dispatched = socket.dispatched →
      nextUnit codec.decode socket.buf = .incomplete)) ?_ ?_ h le_rfl
    ⟨⟨hhandler, hopen, [], (List.append_nil _).symm, fun _ h => absurd h List.not_mem_nil⟩,
      fun _ => rfl⟩
  · rintro s ⟨htaken, hbuf⟩ hstop
    refine ⟨htaken, fun hsame => ?_⟩
    rw [← hbuf hsame]
    exact hstop.resolve_left (by simp [htaken.closed])
  · rintro s payload rest msg hclosed - ⟨⟨hs, -, later, hlater, hall⟩, -⟩
    have hafter : Socket.dispatch react { s with buf := rest } s.controlHandler (.control msg) =
        { s with buf := rest, dispatched := s.dispatched ++ [(handler, .control msg)] } := by
      rw [hs, Socket.dispatch]
      dsimp only
      rw [react_later hne]
      simp
    dsimp only
    rw [hafter, if_neg fun hchanged => hchanged.1 rfl]
    refine ⟨⟨hs, hclosed, later ++ [(handler, .control msg)], ?_, fun call hcall => ?_⟩,
      fun hsame => ?_⟩
    · rw [hlater, List.append_assoc]
    · rcases List.mem_append.mp hcall with hold | hnew
      · exact hall call hold
      · rw [List.mem_singleton.mp hnew]
    · have hlength := congrArg List.length hsame
      simp [hlater] at hlength

/-- The handshake's handler takes one message at most: the loop stops after it. -/
theorem processBuffer_handshake (hhandler : socket.controlHandler = some .handshake)
    (hcalls : socket.dispatched = []) : TakenOnce (socket.processBuffer codec react) := by
  refine processLoop_rule hunits hcontrol
    (P := fun s => TakenOnce s ∧ (s.dispatched ≠ [] → s.buf = [])) (Q := TakenOnce)
    (fun s hs _ => hs.1) ?_ h le_rfl
    ⟨⟨hopen, .inl ⟨hcalls, hhandler⟩⟩, fun hne => absurd hcalls hne⟩
  rintro s payload rest msg hclosed hnext ⟨⟨-, ⟨hnone, hs⟩ | ⟨message, hcalls, -⟩⟩, hempty⟩
  · have hafter : Socket.dispatch react { s with buf := rest } s.controlHandler (.control msg) =
        { s with
          buf := rest, controlHandler := some .spent
          dispatched := [(.handshake, .control msg)] } := by
      rw [hs, Socket.dispatch]
      dsimp only
      rw [react_handshake, hnone]
      simp [hclosed]
    dsimp only
    rw [hafter]
    split
    · exact ⟨hclosed, .inr ⟨msg, rfl, rfl⟩⟩
    · next hstay =>
      refine ⟨⟨hclosed, .inr ⟨msg, rfl, rfl⟩⟩, fun _ => ?_⟩
      by_contra hmore
      exact hstay ⟨by simp [hs], hmore⟩
  · rw [hempty (by simp [hcalls])] at hnext
    cases hnext

end Loop

/-! ## What a side has read -/

/-- Before the first message, after a handshake that succeeded, or after one that failed. -/
inductive Stage (side : Side) : Prop
  | handshaking (hpromise : side.promise = none) (hcount : side.settlements = 0)
      (hcalls : side.socket.dispatched = [])
      (hhandler : side.socket.controlHandler = some .handshake)
      (hopen : side.socket.closed = false)
  | succeeded (session : NegotiatedSession) (message : Message)
      (later : List (Handler × Item Message)) (handler : Handler)
      (hpromise : side.promise = some (.ok session)) (hcount : side.settlements = 1)
      (hcalls : side.socket.dispatched = (.handshake, .control message) :: later)
      (hlater : ∀ call ∈ later, call.1 = .installed)
      (hhandler : side.socket.controlHandler = some handler) (hne : handler ≠ .handshake)
  | failed (err : HandshakeError) (hpromise : side.promise = some (.error err))
      (hcount : side.settlements = 1)
      (hcalls : side.socket.dispatched = [] ∨
        ∃ message, side.socket.dispatched = [(.handshake, .control message)])
      (hclosed : side.socket.closed = true)

/-- Of the messages that were sent, a side has dispatched the first ones, and while its
transport is open the others are in its buffer or on their way. -/
structure Reading (codec : Codec Message) (side : Side) (sent : List Message) (unread : Bytes) :
    Prop where
  stage : Stage side
  order : side.socket.dispatched.map Prod.snd <+: sent.map Item.control
  units : ∃ units : List (Bytes × Item Message), units.map Prod.snd = sent.map Item.control ∧
    (∀ unit ∈ units, Encodes codec unit.1 unit.2) ∧ (side.socket.closed = false →
      Delivering codec react units unread side.socket ∧ Settled codec side.socket)

section Reading
variable {codec : Codec Message} {side : Side} {sent : List Message} {unread : Bytes}

theorem Reading.delivered (h : Reading codec side sent unread) : Delivered side sent unread := by
  have hall : unread = [] → side.socket.closed = false → side.socket.scheduled = 0 →
      side.socket.dispatched.map Prod.snd = sent.map Item.control := by
    rintro rfl hopen hidle
    obtain ⟨units, hmap, hunits, hdelivering⟩ := h.units
    obtain ⟨hreads, hsettled⟩ := hdelivering hopen
    rw [← hmap]
    exact hreads.all_dispatched hunits hsettled hopen hidle
  cases h.stage with
  | handshaking hpromise hcount hcalls hhandler hopen =>
    exact ⟨by simp [hcalls], by simp [hcalls], h.order, hall, by simp [hcount, hcalls, hopen],
      by simp [hpromise, hcount]⟩
  | succeeded session message later handler hpromise hcount hcalls hlater hhandler hne =>
    exact ⟨by simp [hcalls], by simpa [hcalls] using hlater, h.order,
      hall, by simp [hcount, hcalls], by simp [hpromise, hcount]⟩
  | failed err hpromise hcount hcalls hclosed =>
    have hfirst : ∀ call ∈ side.socket.dispatched.head?, call.1 = .handshake := by
      rcases hcalls with hnone | ⟨message, hone⟩
      · simp [hnone]
      · simp [hone]
    have hlater : ∀ call ∈ side.socket.dispatched.tail, call.1 = .installed := by
      rcases hcalls with hnone | ⟨message, hone⟩
      · simp [hnone]
      · simp [hone]
    exact ⟨hfirst, hlater, h.order, hall, by simp [hcount, hclosed], by simp [hpromise, hcount]⟩

theorem encodes_wire {message : Message} (h : OnWire codec message) :
    Encodes codec (wire codec message) (.control message) := by
  obtain ⟨bytes, hsend, hencodes⟩ := encodes_send .new h.1 h.2
  have hwire : wire codec message = bytes := by
    have hbytes : controlBytes codec message = .ok bytes := hsend
    rw [wire, hbytes]
    exact List.append_nil _
  rwa [hwire]

theorem Reading.send (h : Reading codec side sent unread) {message : Message}
    (hwire : OnWire codec message) :
    Reading codec side (sent ++ [message]) (unread ++ wire codec message) := by
  obtain ⟨units, hmap, hunits, hdelivering⟩ := h.units
  refine ⟨h.stage, h.order.trans (by simp), units ++ [(wire codec message, .control message)], ?_,
    fun unit hunit => ?_, fun hopen => ?_⟩
  · rw [List.map_append, List.map_append, hmap]
    rfl
  · rcases List.mem_append.mp hunit with hold | hnew
    · exact hunits unit hold
    · rw [List.mem_singleton.mp hnew]
      exact encodes_wire hwire
  · obtain ⟨hreads, hsettled⟩ := hdelivering hopen
    exact ⟨hreads.append (wire codec message, .control message), hsettled⟩

/-- The transport closes. -/
theorem Reading.close (h : Reading codec side sent unread) (message : String) :
    Reading codec (side.close message) sent unread ∧
      ((side.close message).promise = side.promise ∨
        side.promise = none ∧
          (side.close message).promise = some (.error ⟨.transportClosed, message⟩)) := by
  obtain ⟨units, hmap, hunits, -⟩ := h.units
  unfold Side.close Side.settle
  cases h.stage with
  | handshaking hpromise hcount hcalls hhandler hopen =>
    simp only [hpromise]
    refine ⟨⟨.failed _ rfl (by simp [hcount]) (.inl hcalls) rfl, h.order, units, hmap, hunits,
      fun hopen => by cases hopen⟩, .inr ⟨trivial, trivial⟩⟩
  | succeeded session first later handler hpromise hcount hcalls hlater hhandler hne =>
    simp only [hpromise]
    exact ⟨⟨.succeeded session first later handler rfl hcount hcalls hlater hhandler hne,
      h.order, units, hmap, hunits, fun hopen => by cases hopen⟩, .inl trivial⟩
  | failed err hpromise hcount hcalls hclosed =>
    simp only [hpromise]
    exact ⟨⟨.failed err rfl hcount hcalls rfl, h.order, units, hmap, hunits,
      fun hopen => by cases hopen⟩, .inl trivial⟩

end Reading

/-! ## A turn of one side -/

section Turn
variable {codec : Codec Message} {side : Side} {sent : List Message} {unread : Bytes}

theorem processBuffer_waits {socket : Socket Handler Message}
    (h : socket.closed = true ∨ nextUnit codec.decode socket.buf = .incomplete) :
    socket.processBuffer codec react = socket := by
  unfold Socket.processBuffer
  cases socket.buf.length with
  | zero => rfl
  | succ fuel =>
    rw [Socket.processLoop]
    split
    · rfl
    · next hopen =>
      rw [h.resolve_left hopen]

theorem control_of_map {units : List (Bytes × Item Message)} {sent : List Message}
    (hmap : units.map Prod.snd = sent.map Item.control) :
    ∀ unit ∈ units, ∃ msg, unit.2 = .control msg := by
  intro unit hunit
  have hmem : unit.2 ∈ sent.map Item.control := hmap ▸ List.mem_map_of_mem hunit
  obtain ⟨msg, -, hmsg⟩ := List.mem_map.mp hmem
  exact ⟨msg, hmsg.symm⟩

theorem received_take (bytes : Bytes) (length : Nat) :
    received [.chunk (bytes.take length)] ++ bytes.drop length = bytes := by
  simp [received]

theorem received_immediate (bytes : Bytes) : received [.immediate] ++ bytes = bytes := by
  simp [received]

variable (unread) in
/-- A step of the transport runs the loop on the bytes it has then. -/
theorem step_loop {event : Transport.Event} {before socket : Socket Handler Message}
    (hstep : Transport.step codec react before event = some socket) :
    ∃ loaded : Socket Handler Message, socket = loaded.processBuffer codec react ∧
      loaded.dispatched = before.dispatched ∧ loaded.controlHandler = before.controlHandler ∧
      loaded.closed = before.closed ∧ loaded.buf = before.buf ++ received [event] ∧ ∀ units,
        Delivering codec react units (received [event] ++ unread) before →
          Delivering codec react units unread loaded := by
  cases event with
  | chunk bytes =>
    cases hstep
    refine ⟨{ before with buf := before.buf ++ bytes }, rfl, rfl, rfl, rfl, by simp [received],
      fun units h => ?_⟩
    obtain ⟨done, todo, hunits, hdone, hbytes⟩ := h.progress
    refine ⟨h.control_installed, h.data_installed, ⟨done, todo, hunits, hdone, fun hopen => ?_⟩,
      h.closing⟩
    rw [← hbytes hopen, List.append_assoc]
    simp [received]
  | immediate =>
    obtain ⟨-, hsome⟩ := Option.ite_none_left_eq_some.mp hstep
    cases hsome
    exact ⟨{ before with scheduled := before.scheduled - 1 }, rfl, rfl, rfl, rfl,
      by simp [received], fun units h => { h with }⟩

/-- What a turn does to the promise. -/
inductive Turned (sent : List Message) (outcome : Message → Except HandshakeError NegotiatedSession)
    (side after : Side) (installs : Bool) (first : Option Message) : Prop
  | same (hpromise : after.promise = side.promise) (hquiet : side.promise ≠ none ∨ first = none)
      (hwaits : after.Waiting → side.Waiting)
  | settled (message : Message) (hpromise : side.promise = none) (hfirst : first = some message)
      (hsent : sent.head? = some message) (hafter : after.promise = some (outcome message))
      (hwaits : after.Waiting → installs = false)

theorem goOn_settled {side : Side} (h : side.promise ≠ none)
    (outcome : Message → Except HandshakeError NegotiatedSession) (installs : Bool) :
    side.goOn outcome installs = side := by
  unfold Side.goOn
  split
  · next hnone _ => exact absurd hnone h
  · rfl

/-- The first message settles the promise. -/
theorem goOn_first {side : Side} {message : Message} (hfirst : side.first = some message)
    (hpromise : side.promise = none)
    (outcome : Message → Except HandshakeError NegotiatedSession) (installs : Bool) :
    side.goOn outcome installs =
      { socket := match outcome message with
          | .error _ => { side.socket with controlHandler := some .spent, closed := true }
          | .ok _ => { side.socket with
              controlHandler := some (if installs then .installed else .spent) }
        promise := some (outcome message)
        settlements := side.settlements + 1 } := by
  unfold Side.goOn
  rw [hpromise, hfirst]
  dsimp only
  cases outcome message with
  | error err => simp [Side.settle, hpromise]
  | ok session => cases installs <;> simp [Side.settle, Side.install, hpromise]

theorem Reading.turn {event : Transport.Event}
    (h : Reading codec side sent (received [event] ++ unread)) {socket : Socket Handler Message}
    (hstep : Transport.step codec react side.socket event = some socket)
    (hprompt : side.socket.controlHandler = some .spent → side.socket.closed = false →
      socket.dispatched = side.socket.dispatched)
    (outcome : Message → Except HandshakeError NegotiatedSession) (installs : Bool) :
    Reading codec ({ side with socket }.goOn outcome installs) sent unread ∧
      Turned sent outcome side ({ side with socket }.goOn outcome installs)
        installs { side with socket }.first := by
  obtain ⟨units, hmap, hunits, hdelivering⟩ := h.units
  have hcontrol := control_of_map hmap
  have hafter : side.socket.closed = false →
      Delivering codec react units unread socket ∧ Settled codec socket :=
    fun hopen => step_keeps hunits (hdelivering hopen).1 hstep
  obtain ⟨loaded, rfl, hcalls, hhandler, hclosed, -, hload⟩ := step_loop unread hstep
  have hread : ∀ {s : Socket Handler Message}, Delivering codec react units unread s →
      s.dispatched.map Prod.snd <+: sent.map Item.control := by
    intro s hs
    obtain ⟨done, todo, rfl, hdone, -⟩ := hs.progress
    rw [← hmap, hdone, List.map_append]
    exact List.prefix_append _ _
  cases h.stage with
  | handshaking hpromise hcount hnone hfirst hopen =>
    obtain ⟨hreads, hsettled⟩ := hafter hopen
    obtain ⟨hstill, ⟨hno, hsame⟩ | ⟨message, hone, hspent⟩⟩ := processBuffer_handshake hunits
      hcontrol (hload units (hdelivering hopen).1) (hclosed.trans hopen) (hhandler.trans hfirst)
      (hcalls.trans hnone)
    · have hquiet : ({ side with socket := loaded.processBuffer codec react } : Side).first =
          none := by
        unfold Side.first
        rw [hno]
      have hgo : ({ side with socket := loaded.processBuffer codec react } : Side).goOn outcome
          installs = { side with socket := loaded.processBuffer codec react } := by
        unfold Side.goOn
        rw [hquiet]
        split
        · next hmessage => cases hmessage
        · rfl
      rw [hgo]
      refine ⟨⟨.handshaking hpromise hcount hno hsame hstill, hread hreads, units, hmap, hunits,
        fun _ => ⟨hreads, hsettled⟩⟩, .same rfl (.inr hquiet) fun hwaiting => ?_⟩
      obtain ⟨session, hsession⟩ := hwaiting.1
      rw [hpromise] at hsession
      cases hsession
    · have hmessage : ({ side with socket := loaded.processBuffer codec react } : Side).first =
          some message := by
        unfold Side.first
        rw [hone]
      have horder := hread hreads
      have hsent : sent.head? = some message := by
        rw [hone] at horder
        cases sent with
        | nil => simp at horder
        | cons first rest => simpa [eq_comm] using horder
      rw [goOn_first hmessage hpromise]
      refine ⟨?reads, .settled message hpromise hmessage hsent rfl ?waits⟩
      case waits =>
        rintro ⟨⟨session, hsession⟩, hspent⟩
        rw [Option.some.inj hsession] at hspent
        cases installs with
        | false => rfl
        | true => cases hspent
      cases houtcome : outcome message with
      | error err =>
        exact ⟨.failed err rfl (by simp [hcount]) (.inr ⟨message, hone⟩) rfl, horder, units, hmap,
          hunits, fun hopen => by cases hopen⟩
      | ok session =>
        refine ⟨.succeeded session message [] (if installs then .installed else .spent) rfl
          (by simp [hcount]) hone (fun _ h => absurd h List.not_mem_nil) rfl ?_, horder, units,
            hmap,
          hunits, fun _ =>
            ⟨⟨rfl, hreads.data_installed, hreads.progress, hreads.closing⟩, hsettled⟩⟩
        cases installs <;> simp
  | succeeded session message later handler hpromise hcount hcalls' hlater hhandler' hne =>
    rw [goOn_settled (by simp [hpromise])]
    rcases Bool.eq_false_or_eq_true side.socket.closed with hended | hopen
    · rw [processBuffer_waits (.inl (hclosed.trans hended))]
      refine ⟨⟨.succeeded session message later handler hpromise hcount (hcalls.trans hcalls')
        hlater
        (hhandler.trans hhandler') hne, ?_, units, hmap, hunits, fun hopen => ?_⟩,
        .same rfl (.inl (by simp [hpromise])) fun hwaiting =>
          ⟨hwaiting.1, hhandler.symm.trans hwaiting.2⟩⟩
      · rw [hcalls]
        exact h.order
      · rw [hclosed, hended] at hopen
        cases hopen
    · obtain ⟨hreads, hsettled⟩ := hafter hopen
      obtain ⟨⟨hstays, -, more, hmore, hall⟩, -⟩ := processBuffer_later hunits hcontrol
        (hload units (hdelivering hopen).1) (hclosed.trans hopen) hne (hhandler.trans hhandler')
      rw [hcalls, hcalls'] at hmore
      refine ⟨⟨.succeeded session message (later ++ more) handler hpromise hcount hmore
        (fun call hcall => ?_) hstays hne, hread hreads, units, hmap, hunits,
        fun _ => ⟨hreads, hsettled⟩⟩, .same rfl (.inl (by simp [hpromise])) fun hwaiting =>
          ⟨hwaiting.1, hhandler'.trans (hstays.symm.trans hwaiting.2)⟩⟩
      rcases List.mem_append.mp hcall with hold | hnew
      · exact hlater call hold
      · cases handler with
        | handshake => exact absurd rfl hne
        | spent =>
          -- the broker waits, and has not been called
          have hnone := hprompt hhandler' hopen
          rw [hmore, hcalls'] at hnone
          have hnil : more = [] := by simpa using hnone
          rw [hnil] at hnew
          cases hnew
        | installed => exact hall call hnew
  | failed err hpromise hcount hcalls' hclosed' =>
    rw [goOn_settled (by simp [hpromise])]
    rw [processBuffer_waits (.inl (hclosed.trans hclosed'))]
    refine ⟨?_, .same rfl (.inl (by simp [hpromise])) fun hwaiting =>
      ⟨hwaiting.1, hhandler.symm.trans hwaiting.2⟩⟩
    refine ⟨.failed err hpromise hcount ?_ (hclosed.trans hclosed'), ?_, units, hmap, hunits,
      fun hopen => ?_⟩
    · rwa [hcalls]
    · rw [hcalls]
      exact h.order
    · rw [hclosed, hclosed'] at hopen
      cases hopen

theorem Side.Waiting.of_close {side : Side} {message : String}
    (h : (side.close message).Waiting) : side.Waiting := by
  unfold Side.close Side.settle at h
  split at h
  · exact h
  · obtain ⟨⟨session, hsession⟩, -⟩ := h
    cases hsession

/-- A message that gets complete while the broker waits is taken by the spent handler. -/
theorem Reading.lost {side : Side} {sent : List Message} {unread : Bytes}
    {event : Transport.Event} (h : Reading codec side sent (received [event] ++ unread))
    (hwaiting : side.Waiting) (hopen : side.socket.closed = false)
    {socket : Socket Handler Message}
    (hstep : Transport.step codec react side.socket event = some socket)
    (hnext : nextUnit codec.decode (side.socket.buf ++ received [event]) ≠ .incomplete)
    (sent' : List Message) (unread' : Bytes) : ¬Delivered { side with socket } sent' unread' := by
  intro hdelivered
  obtain ⟨units, hmap, hunits, hdelivering⟩ := h.units
  have hcontrol := control_of_map hmap
  obtain ⟨loaded, rfl, hcalls, hhandler, hclosed, hbuf, hload⟩ := step_loop unread hstep
  obtain ⟨⟨-, -, more, hmore, hall⟩, hwaits⟩ := processBuffer_later hunits hcontrol
    (hload units (hdelivering hopen).1) (hclosed.trans hopen) (by simp)
    (hhandler.trans hwaiting.2)
  obtain ⟨session, hsession⟩ := hwaiting.1
  cases h.stage with
  | handshaking hpromise _ _ _ _ => rw [hsession] at hpromise; cases hpromise
  | failed err hpromise _ _ _ => rw [hsession] at hpromise; cases hpromise
  | succeeded session' message later handler hpromise hcount hfirst hlater hspent hne =>
    cases more with
    | nil =>
      rw [hbuf] at hwaits
      exact hnext (hwaits (hmore.trans (List.append_nil _)))
    | cons call more =>
      have hspentCall := hall call List.mem_cons_self
      have hinstalled := hdelivered.later call (by
        show call ∈ (loaded.processBuffer codec react).dispatched.tail
        rw [hmore, hcalls, hfirst]
        simp)
      rw [hspentCall] at hinstalled
      cases hinstalled

/-- The broker goes on after its reconcile: it installs the real handler. -/
theorem Reading.install (h : Reading codec side sent unread)
    (hok : ∃ session, side.promise = some (.ok session)) :
    Reading codec side.install sent unread := by
  obtain ⟨session, hsession⟩ := hok
  obtain ⟨units, hmap, hunits, hdelivering⟩ := h.units
  refine ⟨?_, h.order, units, hmap, hunits, fun hopen => ?_⟩
  · cases h.stage with
    | handshaking hpromise _ _ _ _ => rw [hsession] at hpromise; cases hpromise
    | succeeded session' message later handler hpromise hcount hcalls hlater hhandler hne =>
      exact .succeeded session' message later .installed hpromise hcount hcalls hlater rfl (by simp)
    | failed err hpromise _ _ _ => rw [hsession] at hpromise; cases hpromise
  · obtain ⟨hreads, hsettled⟩ := hdelivering hopen
    exact ⟨⟨rfl, hreads.data_installed, hreads.progress, hreads.closing⟩, hsettled⟩

/-- Its caller closes the transport. -/
theorem Reading.shut (h : Reading codec side sent unread)
    (hok : ∃ session, side.promise = some (.ok session)) :
    Reading codec { side with socket := { side.socket with closed := true } } sent unread := by
  obtain ⟨session, hsession⟩ := hok
  obtain ⟨units, hmap, hunits, -⟩ := h.units
  refine ⟨?_, h.order, units, hmap, hunits, fun hopen => by cases hopen⟩
  cases h.stage with
  | handshaking hpromise _ _ _ _ => rw [hsession] at hpromise; cases hpromise
  | succeeded session' message later handler hpromise hcount hcalls hlater hhandler hne =>
    exact .succeeded session' message later handler hpromise hcount hcalls hlater hhandler hne
  | failed err hpromise _ _ _ => rw [hsession] at hpromise; cases hpromise

end Turn

/-! ## Both sides -/

section Both
variable {codec : Codec Message} (parties : Parties codec)

/-- The promise of a side: nothing yet, or the transport closed first, or the outcome of the
first message. -/
inductive Promised (promise : Option (Except HandshakeError NegotiatedSession))
    (outcome : Except HandshakeError NegotiatedSession) (sent : Prop) : Prop
  | pending (hpromise : promise = none)
  | closed (message : String) (hpromise : promise = some (.error ⟨.transportClosed, message⟩))
  | settled (hpromise : promise = some outcome) (hsent : sent)

/-- The invariant of the exchange: the client answers when it has read the advertisement, and
the server reads the answer first. -/
structure Exchanged (x : Exchange) : Prop where
  server : Reading codec x.server x.fromClient x.toServer
  client : Reading codec x.client x.fromServer x.toClient
  advertised : x.fromServer.head? = some parties.advertisement
  answered : x.fromClient = [] ∨ x.fromClient.head? = some parties.answer
  clientPromised : Promised x.client.promise (clientOutcome parties.clientCapabilities
    parties.clientIdentity parties.advertisement) (x.fromClient.head? = some parties.answer)
  serverPromised : Promised x.server.promise (serverOutcome parties.serverCapabilities
    parties.answer) (x.fromClient.head? = some parties.answer)
  clientAsked : x.fromClient.head? = some parties.answer → x.client.promise =
    some (clientOutcome parties.clientCapabilities parties.clientIdentity parties.advertisement)
  clientGoesOn : ¬x.client.Waiting

variable {parties} {x : Exchange}

theorem Reading.failed_closed {side : Side} {sent : List Message} {unread : Bytes}
    (h : Reading codec side sent unread) {err : HandshakeError}
    (herr : side.promise = some (.error err)) : side.socket.closed = true := by
  cases h.stage with
  | handshaking hpromise _ _ _ _ => rw [herr] at hpromise; cases hpromise
  | succeeded session message later handler hpromise _ _ _ _ _ =>
    rw [herr] at hpromise
    cases hpromise
  | failed err' hpromise hcount hcalls hclosed => exact hclosed

theorem Exchanged.clean (h : Exchanged parties x) : Clean x := by
  refine ⟨h.server.delivered, h.client.delivered, fun session hsession => ?_,
    fun err herr => ⟨h.server.failed_closed herr, fun session hsession => ?_⟩,
    fun err herr => h.client.failed_closed herr⟩
  · cases h.serverPromised with
    | pending hpromise => rw [hsession] at hpromise; cases hpromise
    | closed message hpromise => rw [hsession] at hpromise; cases hpromise
    | settled hpromise hsent =>
      rw [hsession] at hpromise
      obtain ⟨session', hclient, hagree⟩ := negotiate_ok (Option.some.inj hpromise).symm
      exact ⟨session', by rw [h.clientAsked hsent, hclient], hagree⟩
  · cases h.serverPromised with
    | pending hpromise => rw [herr] at hpromise; cases hpromise
    | closed message hpromise =>
      rw [herr] at hpromise
      cases hpromise
      rfl
    | settled hpromise hsent =>
      rw [herr] at hpromise
      have hclient := h.clientAsked hsent
      rw [hsession] at hclient
      obtain ⟨session', hserver⟩ := negotiate_back (Option.some.inj hclient).symm
      rw [hserver] at hpromise
      cases hpromise

theorem Exchanged.start : Exchanged parties (start parties) := by
  have hencodes : Encodes codec (wire codec parties.advertisement)
      (.control parties.advertisement) := encodes_wire parties.server_onWire
  have hstage : Stage Side.start := .handshaking rfl rfl rfl rfl rfl
  refine ⟨⟨hstage, List.nil_prefix, [], rfl, fun _ h => absurd h List.not_mem_nil,
    fun _ => ⟨?_, ?_⟩⟩,
    ⟨hstage, List.nil_prefix, [(wire codec parties.advertisement, .control parties.advertisement)],
      rfl, ?_, fun _ => ⟨?_, ?_⟩⟩, rfl, .inl rfl, .pending rfl, .pending rfl, fun h => (by cases h),
        fun h => ?_⟩
  · exact ⟨rfl, rfl, ⟨[], [], rfl, rfl, fun _ => rfl⟩, fun h => by cases h⟩
  · exact .inr (.inr rfl)
  · intro unit hunit
    rw [List.mem_singleton.mp hunit]
    exact hencodes
  · exact ⟨rfl, rfl, ⟨[], _, rfl, rfl, fun _ => by simp [Side.start, Socket.new, Handshake.start]⟩,
      fun h => by cases h⟩
  · exact .inr (.inr rfl)
  · obtain ⟨⟨session, hsession⟩, -⟩ := h
    cases hsession

theorem Promised.mono {promise : Option (Except HandshakeError NegotiatedSession)}
    {outcome : Except HandshakeError NegotiatedSession} {sent sent' : Prop}
    (h : Promised promise outcome sent) (himp : sent → sent') : Promised promise outcome sent' := by
  cases h with
  | pending hpromise => exact .pending hpromise
  | closed message hpromise => exact .closed message hpromise
  | settled hpromise hsent => exact .settled hpromise (himp hsent)

/-- The close handler settles a promise that is pending. -/
theorem Promised.close {side after : Side} {outcome : Except HandshakeError NegotiatedSession}
    {sent : Prop} {message : String} (h : Promised side.promise outcome sent)
    (hclose : after.promise = side.promise ∨
      side.promise = none ∧ after.promise = some (.error ⟨.transportClosed, message⟩)) :
    Promised after.promise outcome sent := by
  rcases hclose with hsame | ⟨-, herr⟩
  · rwa [hsame]
  · exact .closed message herr

theorem head?_send {sent : List Message} {first message : Message}
    (h : sent.head? = some first) : (sent ++ [message]).head? = some first := by
  rw [List.head?_append, h]
  rfl

/-- A turn of the server: the answer is the first message it reads. -/
theorem Exchanged.serverTurn (h : Exchanged parties x) {event : Transport.Event} {unread : Bytes}
    (hbytes : x.toServer = received [event] ++ unread) {socket : Socket Handler Message}
    (hstep : Transport.step codec react x.server.socket event = some socket)
    (hprompt : x.server.Waiting → x.server.socket.closed = true ∨
      nextUnit codec.decode (x.server.socket.buf ++ received [event]) = .incomplete) :
    Exchanged parties ({ x with toServer := unread }.serverTurn parties socket) := by
  have hserver := h.server
  rw [hbytes] at hserver
  have hquiet : x.server.socket.controlHandler = some .spent → x.server.socket.closed = false →
      socket.dispatched = x.server.socket.dispatched := by
    intro hspent hopen
    obtain ⟨loaded, rfl, hcalls, -, -, hbuf, -⟩ := step_loop unread hstep
    cases hserver.stage with
    | handshaking _ _ _ hhandler _ => rw [hspent] at hhandler; cases hhandler
    | failed err _ _ _ hclosed => rw [hopen] at hclosed; cases hclosed
    | succeeded session message later handler hpromise _ _ _ _ _ =>
      rcases hprompt ⟨⟨session, hpromise⟩, hspent⟩ with hclosed | hnext
      · rw [hopen] at hclosed
        cases hclosed
      · rw [← hbuf] at hnext
        rw [processBuffer_waits (.inr hnext), hcalls]
  obtain ⟨hreading, hturned⟩ := hserver.turn hstep hquiet
    (serverOutcome parties.serverCapabilities) !x.reconciling
  refine { h with server := hreading, serverPromised := ?_ }
  cases hturned with
  | same hpromise _ _ =>
    show Promised (Side.goOn _ _ _).promise _ _
    rw [hpromise]
    exact h.serverPromised
  | settled message hpromise hfirst hsent hafter hwaits =>
    rcases h.answered with hnone | hanswer
    · rw [hnone] at hsent
      cases hsent
    · rw [hanswer] at hsent
      cases hsent
      exact .settled hafter hanswer

/-- A turn of the client: it reads the advertisement first, and answers it. -/
theorem Exchanged.clientTurn (h : Exchanged parties x) {event : Transport.Event} {unread : Bytes}
    (hbytes : x.toClient = received [event] ++ unread) {socket : Socket Handler Message}
    (hstep : Transport.step codec react x.client.socket event = some socket) :
    Exchanged parties ({ x with toClient := unread }.clientTurn parties socket) := by
  have hclient := h.client
  rw [hbytes] at hclient
  have hquiet : x.client.socket.controlHandler = some .spent → x.client.socket.closed = false →
      socket.dispatched = x.client.socket.dispatched := by
    intro hspent hopen
    cases hclient.stage with
    | handshaking _ _ _ hhandler _ => rw [hspent] at hhandler; cases hhandler
    | failed err _ _ _ hclosed => rw [hopen] at hclosed; cases hclosed
    | succeeded session message later handler hpromise _ _ _ _ _ =>
      exact absurd ⟨⟨session, hpromise⟩, hspent⟩ h.clientGoesOn
  obtain ⟨hreading, hturned⟩ := hclient.turn hstep hquiet
    (clientOutcome parties.clientCapabilities parties.clientIdentity) true
  cases hturned with
  | same hpromise hquiet hwaits =>
    have hturn : { x with toClient := unread }.clientTurn parties socket =
        { x with
          toClient := unread
          client := { x.client with socket }.goOn
            (clientOutcome parties.clientCapabilities parties.clientIdentity) true } := by
      unfold Exchange.clientTurn
      dsimp only
      split
      · next hnone hfirst =>
        rcases hquiet with hsome | hno
        · exact absurd hnone hsome
        · rw [hno] at hfirst
          cases hfirst
      · simp
    rw [hturn]
    refine { h with
      client := hreading, clientPromised := ?_, clientAsked := ?_, clientGoesOn := ?_ }
    · show Promised (Side.goOn _ _ _).promise _ _
      rw [hpromise]
      exact h.clientPromised
    · intro hasked
      exact hpromise.trans (h.clientAsked hasked)
    · exact fun hwaiting => h.clientGoesOn (hwaits hwaiting)
  | settled message hpromise hfirst hsent hafter hwaits =>
    obtain rfl : parties.advertisement = message := by
      rw [h.advertised] at hsent
      exact Option.some.inj hsent
    -- the promise settles once, and the answer is sent when it does
    have hsilent : x.fromClient = [] := h.answered.resolve_right fun hanswer => by
      rw [h.clientAsked hanswer] at hpromise
      cases hpromise
    have hturn : { x with toClient := unread }.clientTurn parties socket =
        { x with
          toClient := unread
          client := { x.client with socket }.goOn
            (clientOutcome parties.clientCapabilities parties.clientIdentity) true
          toServer := x.toServer ++ wire codec parties.answer
          fromClient := x.fromClient ++ [parties.answer] } := by
      unfold Exchange.clientTurn
      dsimp only
      rw [hpromise] at hfirst ⊢
      rw [hfirst, Parties.advertisement]
      simp
    have hasked : (x.fromClient ++ [parties.answer]).head? = some parties.answer := by
      rw [hsilent]
      rfl
    rw [hturn]
    refine ⟨h.server.send parties.client_onWire, hreading, h.advertised, .inr hasked,
      .settled hafter hasked, h.serverPromised.mono fun _ => hasked, fun _ => hafter,
      fun hwaiting => ?_⟩
    cases hwaits hwaiting

theorem Exchanged.reconciled (h : Exchanged parties x) (ok : Bool) :
    ∃ x', step parties x (.reconciled ok) = some x' ∧ Exchanged parties x' := by
  refine ⟨_, rfl, ?_⟩
  by_cases hwaiting : x.server.Waiting
  · simp only [if_pos hwaiting]
    cases ok with
    | true =>
      exact { h with server := h.server.install hwaiting.1, serverPromised := h.serverPromised }
    | false =>
      exact { h with server := h.server.shut hwaiting.1, serverPromised := h.serverPromised }
  · simp only [if_neg hwaiting]
    exact { h with server := h.server, serverPromised := h.serverPromised }

/-- A step keeps the invariant if the broker drops no message in it. -/
theorem Exchanged.step {x' : Exchange} {event : Event codec} (h : Exchanged parties x)
    (hprompt : Prompt x event) (hstep : Handshake.step parties x event = some x') :
    Exchanged parties x' := by
  cases event with
  | serverReads length =>
    cases hstep
    refine h.serverTurn (received_take x.toServer length).symm rfl fun hwaiting => ?_
    simpa [received] using hprompt hwaiting
  | serverImmediate =>
    obtain ⟨socket, hsocket, rfl⟩ := Option.map_eq_some_iff.mp hstep
    refine h.serverTurn (received_immediate x.toServer).symm hsocket fun hwaiting => ?_
    rcases hprompt hwaiting with hclosed | hidle | hnext
    · exact .inl hclosed
    · rw [Transport.step, if_pos hidle] at hsocket
      cases hsocket
    · exact .inr (by simpa [received] using hnext)
  | clientReads length =>
    cases hstep
    exact h.clientTurn (received_take x.toClient length).symm rfl
  | clientImmediate =>
    obtain ⟨socket, hsocket, rfl⟩ := Option.map_eq_some_iff.mp hstep
    exact h.clientTurn (received_immediate x.toClient).symm hsocket
  | reconciled ok =>
    obtain ⟨after, hafter, hkept⟩ := h.reconciled ok
    rw [hstep] at hafter
    cases hafter
    exact hkept
  | serverSends message =>
    obtain ⟨-, hsome⟩ := Option.ite_none_right_eq_some.mp hstep
    cases hsome
    exact { h with
      client := h.client.send message.2
      advertised := head?_send h.advertised }
  | clientSends message =>
    obtain ⟨⟨⟨session, hsession⟩, -⟩, hsome⟩ := Option.ite_none_right_eq_some.mp hstep
    cases hsome
    -- a client whose handshake has succeeded has answered
    cases h.clientPromised with
    | pending hpromise => rw [hsession] at hpromise; cases hpromise
    | closed message hpromise => rw [hsession] at hpromise; cases hpromise
    | settled hpromise hasked =>
      exact { h with
        server := h.server.send message.2
        answered := .inr (head?_send hasked)
        clientPromised := .settled hpromise (head?_send hasked)
        serverPromised := h.serverPromised.mono fun _ => head?_send hasked
        clientAsked := fun _ => hpromise }
  | serverCloses =>
    cases hstep
    obtain ⟨hserver, hclose⟩ := h.server.close "Transport closed before client sent capabilities"
    exact { h with server := hserver, serverPromised := h.serverPromised.close hclose }
  | clientCloses =>
    cases hstep
    obtain ⟨hclient, hclose⟩ := h.client.close "Transport closed before server sent capabilities"
    refine { h with
      client := hclient
      clientPromised := h.clientPromised.close hclose
      clientAsked := fun hasked => ?_
      clientGoesOn := fun hwaiting => h.clientGoesOn hwaiting.of_close }
    rcases hclose with hsame | ⟨hpending, -⟩
    · exact hsame.trans (h.clientAsked hasked)
    · rw [h.clientAsked hasked] at hpending
      cases hpending

/-- The rest of a turn in which the broker waits. -/
theorem serverTurn_waiting (hwaiting : x.server.Waiting) (socket : Socket Handler Message) :
    x.serverTurn parties socket = { x with server := { x.server with socket } } := by
  obtain ⟨session, hsession⟩ := hwaiting.1
  unfold Exchange.serverTurn
  rw [goOn_settled (by simp [hsession])]

/-- A step that does not meet the condition takes a message from the client and drops it. -/
theorem Exchanged.violated {event : Event codec} (h : Exchanged parties x)
    (hnot : ¬Prompt x event) :
    ∃ x', Handshake.step parties x event = some x' ∧ ¬Clean x' := by
  cases event with
  | serverReads length =>
    obtain ⟨hwaiting, hlate⟩ := Classical.not_imp.mp hnot
    obtain ⟨hopen, hnext⟩ := not_or.mp hlate
    refine ⟨_, rfl, fun hclean => ?_⟩
    have hdelivered := hclean.server
    rw [serverTurn_waiting (x := { x with toServer := x.toServer.drop length }) hwaiting]
      at hdelivered
    have hserver := h.server
    rw [← received_take x.toServer length] at hserver
    exact hserver.lost hwaiting (Bool.eq_false_of_not_eq_true hopen) rfl
      (by simpa [received] using hnext) _ _ hdelivered
  | serverImmediate =>
    obtain ⟨hwaiting, hlate⟩ := Classical.not_imp.mp hnot
    obtain ⟨hopen, hlate⟩ := not_or.mp hlate
    obtain ⟨hscheduled, hnext⟩ := not_or.mp hlate
    have hsocket : Transport.step codec react x.server.socket .immediate =
        some (Socket.processBuffer codec react
          { x.server.socket with scheduled := x.server.socket.scheduled - 1 }) :=
      if_neg hscheduled
    refine ⟨_, congrArg (Option.map _) hsocket, fun hclean => ?_⟩
    have hdelivered : Delivered (x.serverTurn parties _).server _ _ := hclean.server
    rw [serverTurn_waiting hwaiting] at hdelivered
    have hserver := h.server
    rw [← received_immediate x.toServer] at hserver
    exact hserver.lost hwaiting (Bool.eq_false_of_not_eq_true hopen) hsocket
      (by simpa [received] using hnext) _ _ hdelivered
  | clientReads _ => exact absurd trivial hnot
  | clientImmediate => exact absurd trivial hnot
  | reconciled _ => exact absurd trivial hnot
  | serverSends _ => exact absurd trivial hnot
  | clientSends _ => exact absurd trivial hnot
  | serverCloses => exact absurd trivial hnot
  | clientCloses => exact absurd trivial hnot

/-- Under every chunking and every interleaving, all states of a run are clean exactly if no
further message of the client gets complete at the broker while that waits for its reconcile. -/
theorem handshake_iff (parties : Parties codec) (events : List (Event codec)) :
    (∀ done x, done <+: events → exec (Handshake.step parties) (Handshake.start parties) done =
      some x → Clean x) ↔
      Along (Handshake.step parties) Prompt (Handshake.start parties) events :=
  prefixes_iff_along_of (fun _ h => h.clean) (fun _ _ _ h hprompt hstep => h.step hprompt hstep)
    (fun _ _ h hnot => h.violated hnot) Exchanged.start

end Both

def serverText : String :=
  "\x7b\"type\":\"server-proxy.capabilities\",\"seq\":1,\"capabilities\":\x7b" ++
    "\"protocolVersion\":3,\"features\":[]\x7d\x7d"

def clientText : String :=
  "\x7b\"type\":\"client.capabilities\",\"seq\":1,\"capabilities\":\x7b" ++
    "\"protocolVersion\":3,\"features\":[]\x7d\x7d"

def commandText : String := "\x7b\"type\":\"command.request\",\"seq\":2\x7d"

/-- The JSON texts of a connection without features that sends one command. -/
def localCodec : Codec Message where
  stringify
    | .serverCapabilities _ => serverText
    | .clientCapabilities .. => clientText
    | .other _ => commandText
  parse text :=
    if text = commandText then some (.other "command.request")
    else if text = clientText then some (.clientCapabilities ⟨3, []⟩ none)
    else if text = serverText then some (.serverCapabilities ⟨3, []⟩)
    else none
  bufferToString := fromCharCodes
  decode := fromCharCodes

def localParties : Parties localCodec where
  serverCapabilities := ⟨3, []⟩
  clientCapabilities := ⟨3, []⟩
  clientIdentity := none
  server_onWire := by unfold OnWire Item.Fits Item.Parses; decide +kernel
  client_onWire := by unfold OnWire Item.Fits Item.Parses; decide +kernel

theorem command_onWire : OnWire localCodec (.other "command.request") := by
  unfold OnWire Item.Fits Item.Parses
  decide +kernel

/-- The answer and a command of the client arrive together. -/
def lateReconcile : List (Event localCodec) :=
  [.clientReads 200, .clientSends ⟨.other "command.request", command_onWire⟩, .serverReads 200,
    .serverImmediate, .reconciled true]

/-- The broker still waits for its first reconcile when the `setImmediate` of its transport
runs: the command is dropped. -/
theorem command_dropped :
    ∃ x, exec (step localParties) (start localParties) lateReconcile = some x ∧
      x.toServer = [] ∧ x.server.socket.controlHandler = some .installed ∧
      x.server.socket.dispatched =
        [(.handshake, .control localParties.answer),
          (.spent, .control (.other "command.request"))] ∧
      ¬Clean x := by
  have hrun : (exec (step localParties) (start localParties) lateReconcile).map
      (fun x => (x.toServer, x.server.socket.controlHandler, x.server.socket.dispatched)) =
      some ([], some .installed, [(.handshake, .control localParties.answer),
        (.spent, .control (.other "command.request"))]) := by
    decide +kernel
  obtain ⟨x, hexec, hstate⟩ := Option.map_eq_some_iff.mp hrun
  obtain ⟨hread, hrest⟩ := Prod.mk.inj hstate
  obtain ⟨hhandler, hcalls⟩ := Prod.mk.inj hrest
  refine ⟨x, hexec, hread, hhandler, hcalls, fun hclean => ?_⟩
  have hlater := hclean.server.later (.spent, .control (.other "command.request")) (by
    rw [hcalls]
    exact List.mem_singleton_self _)
  cases hlater

end TmuxccDriver.Transport.Handshake
