import TmuxccDriver.Lib.Run
import TmuxccDriver.Protocol.SessionProxyControl

/-!
# The handoff of a connection

`session.attach` of `server-proxy.ts`: the broker takes a connection out of its clients and
remembers its next sequence number, awaits a refresh of the session table and the session
proxy, and hands the transport over. `runtime/serve.ts` and `runtime/session-proxy.ts` put
their own control handlers in its place, one after the other; until then the broker's handler
stays, and the commands that the broker has taken are answered with the broker's counter.

One connection, from the snapshot that follows the handshake. What happens to others reaches
it as broadcasts only.

Results:
1. `Handed.step`: what a step keeps that meets the condition.
2. `Handed.violated`: what every other step breaks.
3. `handed_over_iff`: in which runs the handoff is clean in every state.
-/

namespace TmuxccDriver.Broker.Handoff
open TmuxccDriver.Lib TmuxccDriver.Protocol

/-! ## State -/

/-- The messages from the client that the three handlers tell apart. -/
inductive ClientMessage
  | commandRequest (correlationId : String)
  | sessionAttach (sessionId : SessionId)
  | resyncRequest
  | other
deriving DecidableEq

/-- The one control handler of the transport. -/
inductive Handler
  | broker
  | server (sessionId : SessionId)
  | sessionProxy (sessionId : SessionId)
deriving DecidableEq

/-- Who takes a message. -/
inductive Taker
  | broker
  | nobody
  | sessionProxy
deriving DecidableEq

/-- The await that `_handleAttach` is in. -/
inductive Phase
  | refreshing
  | ensuring
deriving DecidableEq

structure Attach where
  sessionId : SessionId
  startSeq : Nat
  phase : Phase
deriving DecidableEq

/-- Where `addClient` is: it reads the bindings, yields one microtask, returns to the session
proxy, and is done; a client leaves with its transport. -/
inductive Stage
  | binding
  | snapshot
  | resuming
  | bound
  | left
deriving DecidableEq

/-- The client of one session proxy that `addClient` makes. -/
structure ClientState where
  sessionId : SessionId
  nextSeq : Nat
  stage : Stage
deriving DecidableEq

/-- What a message to the client is. -/
inductive Origin
  | response
  | broker
  | sessionProxy
deriving DecidableEq

structure Sent where
  origin : Origin
  seq : Nat
deriving DecidableEq

/-- `starts` are the start numbers of the attaches, and `late` the messages from the client
after the first attach, with their takers. -/
structure Connection where
  nextSeq : Nat
  registered : Bool
  outstanding : List String
  attaches : List Attach
  clients : List ClientState
  handler : Handler
  closed : Bool
  shuttingDown : Bool
  starts : List Nat
  late : List (ClientMessage × Taker)
  sent : List Sent
deriving DecidableEq

/-- `_handleConnection` after the handshake: the snapshot has number 2. -/
def connected : Connection where
  nextSeq := 3
  registered := true
  outstanding := []
  attaches := []
  clients := []
  handler := .broker
  closed := false
  shuttingDown := false
  starts := []
  late := []
  sent := [⟨.broker, 2⟩]

namespace Connection

variable (c : Connection)

/-! ## The broker -/

/-- `transport.sendControl`; a closed transport drops what it is given. -/
def sendControl (origin : Origin) (seq : Nat) : Connection :=
  { c with sent := if c.closed then c.sent else c.sent ++ [⟨origin, seq⟩] }

/-- The transport closes; `addClient` has a close handler from its microtask on. -/
def close : Connection :=
  { c with
    closed := true
    registered := false
    clients := c.clients.map fun client =>
      if client.stage = .binding then client else { client with stage := .left } }

/-- `_sendResponse`. -/
def sendResponse : Connection :=
  { c.sendControl .response c.nextSeq with nextSeq := c.nextSeq + 1 }

/-- A broadcast of the broker to its registered clients. -/
def broadcast : Connection :=
  if c.registered then { c.sendControl .broker c.nextSeq with nextSeq := c.nextSeq + 1 } else c

/-- `_handleAttach` up to its first await. -/
def handleAttach (sessionId : SessionId) : Connection :=
  let startSeq := c.nextSeq
  let c := { c with registered := false, starts := c.starts ++ [startSeq] }
  if c.shuttingDown then c.close
  else { c with attaches := c.attaches ++ [⟨sessionId, startSeq, .refreshing⟩] }

/-- `_handleAttach` after the refresh; `found` tells if the table has the session. -/
def refreshed (index : Nat) (attach : Attach) (found : Bool) : Connection :=
  if c.shuttingDown then { c with attaches := c.attaches.eraseIdx index }.close
  else if found then { c with attaches := c.attaches.set index { attach with phase := .ensuring } }
  else ({ c with attaches := c.attaches.eraseIdx index }.sendControl .broker attach.startSeq).close

/-! ## The session proxy -/

/-- `_handleAttach` when the session proxy is there or failed to start, and `addClient` up to
its first await. -/
def ensured (index : Nat) (attach : Attach) (ok : Bool) : Connection :=
  let c := { c with attaches := c.attaches.eraseIdx index }
  if ok then
    { c with clients := c.clients ++ [⟨attach.sessionId, attach.startSeq, .binding⟩] }
  else c.close

def setClient (index : Nat) (client : ClientState) : Connection :=
  { c with clients := c.clients.set index client }

/-- A message stamped with the counter of a client. -/
def stamp (index : Nat) (client : ClientState) (stage : Stage) : Connection :=
  (c.sendControl .sessionProxy client.nextSeq).setClient index
    { client with nextSeq := client.nextSeq + 1, stage }

/-- `addClient` of the control server up to the microtask. -/
def subscribe (index : Nat) (client : ClientState) : Connection :=
  { c.setClient index { client with stage := .snapshot } with handler := .server client.sessionId }

/-- `addClient` of the session proxy after that of the control server. -/
def resume (index : Nat) (client : ClientState) : Connection :=
  { c.setClient index { client with stage := .bound } with
    handler := .sessionProxy client.sessionId }

/-- No later `addClient` has put another client of the session in its place. -/
def current (index : Nat) (client : ClientState) : Bool :=
  (c.clients.drop (index + 1)).all fun later => later.sessionId ≠ client.sessionId

/-! ## Messages from the client -/

/-- Who takes a message. The handler of the control server knows resync requests only. -/
def taker (message : ClientMessage) : Taker :=
  match c.handler, message with
  | .broker, .commandRequest _ | .broker, .sessionAttach _ => .broker
  | .broker, _ => .nobody
  | .server _, .resyncRequest => .sessionProxy
  | .server _, _ => .nobody
  | .sessionProxy _, _ => .sessionProxy

/-- The control handler. A command that is refused is answered without an await, that is, in
the next event. -/
def receive (message : ClientMessage) : Connection :=
  let late := if c.starts = [] then c.late else c.late ++ [(message, c.taker message)]
  match c.handler, message with
  | .broker, .commandRequest correlationId =>
    { c with late, outstanding := c.outstanding ++ [correlationId] }
  | .broker, .sessionAttach sessionId => { c with late }.handleAttach sessionId
  | _, _ => { c with late }

end Connection

/-! ## Runs -/

inductive Event
  | receive (message : ClientMessage)
  /-- The broker answers an outstanding command. -/
  | respond (index : Nat)
  | broadcast
  | refreshed (index : Nat) (found : Bool)
  | ensured (index : Nat) (ok : Bool)
  | subscribe (index : Nat)
  | firstSnapshot (index : Nat)
  | resume (index : Nat)
  /-- A delta, a broadcast or a response of a session proxy. -/
  | send (index : Nat)
  | close
  | shutdown

/-- The client at a place, if it is in the stage. -/
def Connection.clientAt (c : Connection) (index : Nat) (stage : Stage) : Option ClientState :=
  c.clients[index]?.filter fun client => client.stage = stage

def Connection.attachAt (c : Connection) (index : Nat) (phase : Phase) : Option Attach :=
  c.attaches[index]?.filter fun attach => attach.phase = phase

def step (c : Connection) : Event → Option Connection
  | .receive message => if c.closed then none else some (c.receive message)
  | .respond index =>
    c.outstanding[index]?.map fun _ =>
      { c with outstanding := c.outstanding.eraseIdx index }.sendResponse
  | .broadcast => some c.broadcast
  | .refreshed index found =>
    (c.attachAt index .refreshing).map fun attach => c.refreshed index attach found
  | .ensured index ok => (c.attachAt index .ensuring).map fun attach => c.ensured index attach ok
  | .subscribe index => (c.clientAt index .binding).map fun client => c.subscribe index client
  | .firstSnapshot index =>
    (c.clientAt index .snapshot).map fun client => c.stamp index client .resuming
  | .resume index => (c.clientAt index .resuming).map fun client => c.resume index client
  | .send index =>
    (c.clients[index]?.filter fun client => client.stage ≠ .left ∧
      (client.stage ≠ .binding ∨ c.current index client)).map fun client =>
        c.stamp index client client.stage
  | .close => some c.close
  | .shutdown => some { c with shuttingDown := true }

/-- The session proxy has the client: `addClient` has returned to it, or the control server
has subscribed and the client asks for a resync. -/
def Connection.Reaches (c : Connection) (message : ClientMessage) : Prop :=
  ∃ client ∈ c.clients, client.stage = .bound ∨
    message = .resyncRequest ∧ (client.stage = .snapshot ∨ client.stage = .resuming)

/-- The numbers count up from 2, the transport was bound to at most one client, no response
has the start number of an attach or one after it, and the session proxy has taken every
message since the first attach. -/
structure HandedOver (c : Connection) : Prop where
  contiguous : c.sent.map Sent.seq = List.range' 2 c.sent.length
  boundOnce : c.clients.length ≤ 1
  unused : ∀ m ∈ c.sent, m.origin = .response → ∀ start ∈ c.starts, m.seq < start
  taken : ∀ m ∈ c.late, m.2 = .sessionProxy

/-- After the attach, the client sends nothing before the session proxy has it, and the broker
answers no command before the connection is closed. -/
def Waits (c : Connection) : Event → Prop
  | .receive message => c.closed = true ∨ c.starts = [] ∨ c.Reaches message
  | .respond index => c.closed = true ∨ c.starts = [] ∨ c.outstanding[index]? = none
  | _ => True

/-! ## Who holds the connection -/

/-- The broker, an attach that is on its way, one client of a session proxy, or nobody any
more. The holder has the next number of the connection. -/
inductive Held (c : Connection) : Prop
  | broker (hstarts : c.starts = []) (hattaches : c.attaches = []) (hclients : c.clients = [])
      (hnext : c.closed = false → c.nextSeq = 2 + c.sent.length)
  | attaching (attach : Attach) (hstarts : c.starts ≠ []) (hattaches : c.attaches = [attach])
      (hclients : c.clients = []) (hregistered : c.registered = false)
      (hnext : c.closed = false → attach.startSeq = 2 + c.sent.length)
  | bound (client : ClientState) (hstarts : c.starts ≠ []) (hattaches : c.attaches = [])
      (hclients : c.clients = [client]) (hregistered : c.registered = false)
      (hnext : c.closed = false → client.nextSeq = 2 + c.sent.length)
  | gone (hstarts : c.starts ≠ []) (hattaches : c.attaches = []) (hclients : c.clients = [])
      (hclosed : c.closed = true)

/-- The handler that a client of the session proxy has installed. -/
def Stage.handler (sessionId : SessionId) : Stage → Handler
  | .binding | .left => .broker
  | .snapshot | .resuming => .server sessionId
  | .bound => .sessionProxy sessionId

/-- The invariant of the runs that meet the condition. -/
structure Handed (c : Connection) : Prop where
  contiguous : c.sent.map Sent.seq = List.range' 2 c.sent.length
  unused : ∀ m ∈ c.sent, m.origin = .response → ∀ start ∈ c.starts, m.seq < start
  taken : ∀ m ∈ c.late, m.2 = .sessionProxy
  behind : ∀ start ∈ c.starts, start ≤ c.nextSeq
  installed : c.closed = false → c.handler = c.clients.head?.elim .broker
    fun client => client.stage.handler client.sessionId
  held : Held c

theorem Handed.handedOver {c : Connection} (h : Handed c) : HandedOver c := by
  refine ⟨h.contiguous, ?_, h.unused, h.taken⟩
  cases h.held with
  | broker _ _ hclients _ => simp [hclients]
  | attaching _ _ _ hclients _ _ => simp [hclients]
  | bound _ _ _ hclients _ _ => simp [hclients]
  | gone _ _ hclients _ => simp [hclients]

theorem Handed.connected : Handed connected where
  contiguous := rfl
  unused := fun _ _ _ _ h => absurd h List.not_mem_nil
  taken := fun _ h => absurd h List.not_mem_nil
  behind := fun _ h => absurd h List.not_mem_nil
  installed := fun _ => rfl
  held := .broker rfl rfl rfl fun _ => rfl

section Sending
variable {c : Connection} {origin : Origin} {seq : Nat}

theorem sendControl_contiguous (h : c.sent.map Sent.seq = List.range' 2 c.sent.length)
    (hnext : c.closed = false → seq = 2 + c.sent.length) :
    (c.sendControl origin seq).sent.map Sent.seq =
      List.range' 2 (c.sendControl origin seq).sent.length := by
  show (if c.closed then c.sent else _).map Sent.seq =
    List.range' 2 (if c.closed then c.sent else _).length
  split
  · exact h
  · next hopen =>
    rw [List.map_append, List.length_append, List.length_singleton, List.range'_1_concat, h,
      ← hnext (by simpa using hopen)]
    rfl

theorem length_sendControl (hopen : c.closed = false) :
    (c.sendControl origin seq).sent.length = c.sent.length + 1 := by
  show (if c.closed then c.sent else _).length = _
  rw [hopen]
  exact List.length_append

theorem mem_sendControl {m : Sent} (h : m ∈ (c.sendControl origin seq).sent) :
    m ∈ c.sent ∨ c.closed = false ∧ m = ⟨origin, seq⟩ := by
  have hmem : m ∈ if c.closed then c.sent else c.sent ++ [⟨origin, seq⟩] := h
  split at hmem
  · exact .inl hmem
  · next hopen =>
    exact (List.mem_append.mp hmem).imp_right fun hnew =>
      ⟨by simpa using hopen, List.mem_singleton.mp hnew⟩

theorem sendControl_unused
    (h : ∀ m ∈ c.sent, m.origin = .response → ∀ start ∈ c.starts, m.seq < start)
    (hnew : c.closed = false → origin = .response → ∀ start ∈ c.starts, seq < start) :
    ∀ m ∈ (c.sendControl origin seq).sent, m.origin = .response → ∀ start ∈ c.starts,
      m.seq < start := by
  intro m hm
  rcases mem_sendControl hm with hold | ⟨hopen, rfl⟩
  · exact h m hold
  · exact hnew hopen

end Sending

namespace Handed

variable {c : Connection}

/-! ## The steps -/

theorem close (h : Handed c) : Handed c.close := by
  refine ⟨h.contiguous, h.unused, h.taken, h.behind, fun hopen => (by cases hopen), ?_⟩
  cases h.held with
  | broker hstarts hattaches hclients hnext =>
    exact .broker hstarts hattaches (by simp [Connection.close, hclients])
      fun hopen => by cases hopen
  | attaching attach hstarts hattaches hclients hregistered hnext =>
    exact .attaching attach hstarts hattaches (by simp [Connection.close, hclients]) rfl
      fun hopen => by cases hopen
  | bound client hstarts hattaches hclients hregistered hnext =>
    exact .bound _ hstarts hattaches (by simp [Connection.close, hclients]; rfl) rfl
      fun hopen => by cases hopen
  | gone hstarts hattaches hclients hclosed =>
    exact .gone hstarts hattaches (by simp [Connection.close, hclients]) rfl

/-- The broker stamps with its own counter while it holds the connection. -/
theorem stamped (h : Handed c) (origin : Origin) (hholds : c.closed = true ∨ c.starts = []) :
    Handed { c.sendControl origin c.nextSeq with nextSeq := c.nextSeq + 1 } := by
  have hopened : c.closed = false → c.starts = [] := fun hopen =>
    hholds.resolve_left (by simp [hopen])
  have hnext : c.closed = false → c.nextSeq = 2 + c.sent.length := by
    intro hopen
    cases h.held with
    | broker _ _ _ hnext => exact hnext hopen
    | attaching _ hstarts _ _ _ _ => exact absurd (hopened hopen) hstarts
    | bound _ hstarts _ _ _ _ => exact absurd (hopened hopen) hstarts
    | gone hstarts _ _ _ => exact absurd (hopened hopen) hstarts
  refine ⟨sendControl_contiguous h.contiguous hnext, sendControl_unused h.unused ?_, h.taken,
    fun start hstart => Nat.le_succ_of_le (h.behind start hstart), h.installed, ?_⟩
  · intro hopen _ start hstart
    rw [hopened hopen] at hstart
    cases hstart
  · cases h.held with
    | broker hstarts hattaches hclients _ =>
      refine .broker hstarts hattaches hclients fun hopen => ?_
      have hopen' : c.closed = false := hopen
      show c.nextSeq + 1 = 2 + (c.sendControl origin c.nextSeq).sent.length
      rw [length_sendControl hopen', hnext hopen', Nat.add_assoc]
    | attaching attach hstarts hattaches hclients hregistered _ =>
      exact .attaching attach hstarts hattaches hclients hregistered
        fun hopen => absurd (hopened hopen) hstarts
    | bound client hstarts hattaches hclients hregistered _ =>
      exact .bound client hstarts hattaches hclients hregistered
        fun hopen => absurd (hopened hopen) hstarts
    | gone hstarts hattaches hclients hclosed => exact .gone hstarts hattaches hclients hclosed

theorem broadcast (h : Handed c) : Handed c.broadcast := by
  unfold Connection.broadcast
  split
  · next hregistered =>
    refine h.stamped .broker ?_
    cases h.held with
    | broker hstarts _ _ _ => exact .inr hstarts
    | attaching _ _ _ _ hgone _ => simp [hgone] at hregistered
    | bound _ _ _ _ hgone _ => simp [hgone] at hregistered
    | gone _ _ _ hclosed => exact .inl hclosed
  · exact h

/-- The first attach takes the next number with it. -/
theorem handleAttach (h : Handed c) (hopen : c.closed = false) (hfirst : c.starts = [])
    (sessionId : SessionId) : Handed (c.handleAttach sessionId) := by
  obtain ⟨hattaches, hclients, hnext⟩ : c.attaches = [] ∧ c.clients = [] ∧
      c.nextSeq = 2 + c.sent.length := by
    cases h.held with
    | broker _ hattaches hclients hnext => exact ⟨hattaches, hclients, hnext hopen⟩
    | attaching _ hstarts _ _ _ _ => exact absurd hfirst hstarts
    | bound _ hstarts _ _ _ _ => exact absurd hfirst hstarts
    | gone hstarts _ _ _ => exact absurd hfirst hstarts
  have hbefore : ∀ m ∈ c.sent, m.origin = .response → ∀ start ∈ c.starts ++ [c.nextSeq],
      m.seq < start := by
    intro m hm _ start hstart
    have hseq : m.seq ∈ List.range' 2 c.sent.length := h.contiguous ▸ List.mem_map_of_mem hm
    rw [hfirst, List.nil_append, List.mem_singleton] at hstart
    rw [hstart, hnext]
    exact (List.mem_range'_1.mp hseq).2
  have hbehind : ∀ start ∈ c.starts ++ [c.nextSeq], start ≤ c.nextSeq := by
    intro start hstart
    rw [hfirst, List.nil_append, List.mem_singleton] at hstart
    exact Nat.le_of_eq hstart
  unfold Connection.handleAttach
  dsimp only
  split
  · refine ⟨h.contiguous, hbefore, h.taken, hbehind, fun hopen' => (by cases hopen'),
      .gone (by simp [Connection.close]) hattaches ?_ rfl⟩
    simp [Connection.close, hclients]
  · refine ⟨h.contiguous, hbefore, h.taken, hbehind, h.installed, .attaching ⟨sessionId, c.nextSeq,
      .refreshing⟩ (by simp) (by simp [hattaches]) hclients rfl fun _ => hnext⟩

/-- An attach that is on its way holds the connection. -/
theorem attach_holds (h : Handed c) {index : Nat} {phase : Phase} {attach : Attach}
    (hattach : c.attachAt index phase = some attach) :
    index = 0 ∧ c.attaches = [attach] ∧ c.clients = [] ∧ c.starts ≠ [] ∧ c.registered = false ∧
      (c.closed = false → attach.startSeq = 2 + c.sent.length) := by
  have hget : c.attaches[index]? = some attach := (Option.filter_eq_some_iff.mp hattach).1
  cases h.held with
  | broker _ hattaches _ _ => simp [hattaches] at hget
  | attaching attach' hstarts hattaches hclients hregistered hnext =>
    rw [hattaches] at hget
    obtain ⟨rfl, rfl⟩ : index = 0 ∧ attach' = attach := by
      cases index with
      | zero => exact ⟨rfl, Option.some.inj hget⟩
      | succ index => simp at hget
    exact ⟨rfl, hattaches, hclients, hstarts, hregistered, hnext⟩
  | bound _ _ hattaches _ _ _ => simp [hattaches] at hget
  | gone _ hattaches _ _ => simp [hattaches] at hget

theorem refreshed (h : Handed c) {index : Nat} {attach : Attach}
    (hattach : c.attachAt index .refreshing = some attach) (found : Bool) :
    Handed (c.refreshed index attach found) := by
  obtain ⟨rfl, hattaches, hclients, hstarts, hregistered, hnext⟩ := h.attach_holds hattach
  unfold Connection.refreshed
  split
  · refine ⟨h.contiguous, h.unused, h.taken, h.behind, fun hopen => (by cases hopen),
      .gone hstarts (by simp [Connection.close, hattaches]) (by simp [Connection.close, hclients])
        rfl⟩
  · split
    · refine ⟨h.contiguous, h.unused, h.taken, h.behind, h.installed, ?_⟩
      exact .attaching { attach with phase := .ensuring } hstarts (by simp [hattaches]) hclients
        hregistered hnext
    · refine ⟨sendControl_contiguous h.contiguous hnext,
        sendControl_unused h.unused (fun _ horigin => by cases horigin), h.taken, h.behind,
        fun hopen => (by cases hopen), .gone hstarts ?_ ?_ rfl⟩
      · simp [Connection.close, Connection.sendControl, hattaches]
      · simp [Connection.close, Connection.sendControl, hclients]

theorem ensured (h : Handed c) {index : Nat} {attach : Attach}
    (hattach : c.attachAt index .ensuring = some attach) (ok : Bool) :
    Handed (c.ensured index attach ok) := by
  obtain ⟨rfl, hattaches, hclients, hstarts, hregistered, hnext⟩ := h.attach_holds hattach
  unfold Connection.ensured
  dsimp only
  split
  · have hinstalled : c.closed = false → c.handler = .broker := fun hopen => by
      simpa [hclients] using h.installed hopen
    exact ⟨h.contiguous, h.unused, h.taken, h.behind,
      by simpa [hclients, Stage.handler] using hinstalled,
      .bound ⟨attach.sessionId, attach.startSeq, .binding⟩ hstarts (by simp [hattaches])
        (by simp [hclients]) hregistered hnext⟩
  · exact ⟨h.contiguous, h.unused, h.taken, h.behind, fun hopen => (by cases hopen),
      .gone hstarts (by simp [Connection.close, hattaches]) (by simp [Connection.close, hclients])
        rfl⟩

/-- A client of a session proxy holds the connection. -/
theorem client_holds (h : Handed c) {index : Nat} {client : ClientState}
    (hclient : c.clients[index]? = some client) :
    index = 0 ∧ c.clients = [client] ∧ c.attaches = [] ∧ c.starts ≠ [] ∧ c.registered = false ∧
      (c.closed = false → client.nextSeq = 2 + c.sent.length) := by
  cases h.held with
  | broker _ _ hclients _ => simp [hclients] at hclient
  | attaching _ _ _ hclients _ _ => simp [hclients] at hclient
  | bound client' hstarts hattaches hclients hregistered hnext =>
    rw [hclients] at hclient
    obtain ⟨rfl, rfl⟩ : index = 0 ∧ client' = client := by
      cases index with
      | zero => exact ⟨rfl, Option.some.inj hclient⟩
      | succ index => simp at hclient
    exact ⟨rfl, hclients, hattaches, hstarts, hregistered, hnext⟩
  | gone _ _ hclients _ => simp [hclients] at hclient

/-- The client enters a stage and its handler is installed. -/
theorem restaged (h : Handed c) {index : Nat} {client : ClientState}
    (hclient : c.clients[index]? = some client) (stage : Stage) :
    Handed { c.setClient index { client with stage } with
      handler := stage.handler client.sessionId } := by
  obtain ⟨rfl, hclients, hattaches, hstarts, hregistered, hnext⟩ := h.client_holds hclient
  exact ⟨h.contiguous, h.unused, h.taken, h.behind,
    fun _ => by simp [Connection.setClient, hclients],
    .bound { client with stage } hstarts hattaches (by simp [Connection.setClient, hclients])
      hregistered hnext⟩

theorem stamp (h : Handed c) {index : Nat} {client : ClientState}
    (hclient : c.clients[index]? = some client) {stage : Stage}
    (hstage : stage.handler client.sessionId = client.stage.handler client.sessionId) :
    Handed (c.stamp index client stage) := by
  obtain ⟨rfl, hclients, hattaches, hstarts, hregistered, hnext⟩ := h.client_holds hclient
  refine ⟨sendControl_contiguous h.contiguous hnext,
    sendControl_unused h.unused (fun _ horigin => by cases horigin), h.taken, h.behind,
    fun hopen => ?_, .bound { client with nextSeq := client.nextSeq + 1, stage } hstarts hattaches
      (by simp [Connection.stamp, Connection.setClient, Connection.sendControl, hclients])
      hregistered fun hopen => ?_⟩
  · have hinstalled : c.handler = client.stage.handler client.sessionId := by
      simpa [hclients] using h.installed hopen
    simpa [Connection.stamp, Connection.setClient, Connection.sendControl, hclients, ← hinstalled]
      using hstage.symm
  · have hopen' : c.closed = false := hopen
    show client.nextSeq + 1 = 2 + (c.sendControl .sessionProxy client.nextSeq).sent.length
    rw [length_sendControl hopen', hnext hopen', Nat.add_assoc]

/-- What is noted of a message, or of an answer, does not change who holds the connection. -/
theorem noted (h : Handed c) (outstanding : List String) {late : List (ClientMessage × Taker)}
    (hlate : ∀ m ∈ late, m.2 = .sessionProxy) : Handed { c with outstanding, late } := by
  refine ⟨h.contiguous, h.unused, hlate, h.behind, h.installed, ?_⟩
  cases h.held with
  | broker hstarts hattaches hclients hnext => exact .broker hstarts hattaches hclients hnext
  | attaching attach hstarts hattaches hclients hregistered hnext =>
    exact .attaching attach hstarts hattaches hclients hregistered hnext
  | bound client hstarts hattaches hclients hregistered hnext =>
    exact .bound client hstarts hattaches hclients hregistered hnext
  | gone hstarts hattaches hclients hclosed => exact .gone hstarts hattaches hclients hclosed

/-- The handler of the session proxy is there exactly when the client has come to it. -/
theorem taker_iff (h : Handed c) (hopen : c.closed = false) (message : ClientMessage) :
    c.taker message = .sessionProxy ↔ c.Reaches message := by
  have hinstalled := h.installed hopen
  unfold Connection.taker Connection.Reaches
  cases h.held with
  | broker _ _ hclients _ =>
    have hhandler : c.handler = .broker := by simpa [hclients] using hinstalled
    cases message <;> simp [hhandler, hclients]
  | attaching _ _ _ hclients _ _ =>
    have hhandler : c.handler = .broker := by simpa [hclients] using hinstalled
    cases message <;> simp [hhandler, hclients]
  | bound client _ _ hclients _ _ =>
    have hhandler : c.handler = client.stage.handler client.sessionId := by
      simpa [hclients] using hinstalled
    cases hstage : client.stage <;> cases message <;>
      simp [hhandler, hclients, Stage.handler, hstage]
  | gone _ _ _ hclosed => simp [hopen] at hclosed

theorem receive (h : Handed c) (hopen : c.closed = false) {message : ClientMessage}
    (hC : c.starts = [] ∨ c.taker message = .sessionProxy) : Handed (c.receive message) := by
  have hlate : ∀ m ∈ (if c.starts = [] then c.late else c.late ++ [(message, c.taker message)]),
      m.2 = .sessionProxy := by
    intro m hm
    split at hm
    · exact h.taken m hm
    · next hstarts =>
      rcases List.mem_append.mp hm with hold | hnew
      · exact h.taken m hold
      · rw [List.mem_singleton.mp hnew]
        exact hC.resolve_left hstarts
  unfold Connection.receive
  dsimp only
  split
  · exact h.noted _ hlate
  · next sessionId hhandler =>
    have hfirst : c.starts = [] := hC.resolve_right (by simp [Connection.taker, hhandler])
    exact (h.noted c.outstanding hlate).handleAttach hopen hfirst sessionId
  · exact h.noted c.outstanding hlate

theorem step (h : Handed c) {event : Event} (hC : Waits c event) {c' : Connection}
    (hstep : Handoff.step c event = some c') : Handed c' := by
  cases event with
  | receive message =>
    obtain ⟨hopen, hc'⟩ := Option.ite_none_left_eq_some.mp hstep
    cases hc'
    have hopen' : c.closed = false := by simpa using hopen
    exact h.receive hopen' ((hC.resolve_left hopen).imp_right (h.taker_iff hopen' message).mpr)
  | respond index =>
    obtain ⟨correlationId, hget, rfl⟩ := Option.map_eq_some_iff.mp hstep
    have hholds : c.closed = true ∨ c.starts = [] := by
      refine hC.imp_right fun h => h.resolve_right ?_
      rw [hget]
      exact Option.some_ne_none _
    exact (h.noted (c.outstanding.eraseIdx index) h.taken).stamped .response hholds
  | broadcast =>
    cases hstep
    exact h.broadcast
  | refreshed index found =>
    obtain ⟨attach, hattach, rfl⟩ := Option.map_eq_some_iff.mp hstep
    exact h.refreshed hattach found
  | ensured index ok =>
    obtain ⟨attach, hattach, rfl⟩ := Option.map_eq_some_iff.mp hstep
    exact h.ensured hattach ok
  | subscribe index =>
    obtain ⟨client, hclient, rfl⟩ := Option.map_eq_some_iff.mp hstep
    exact h.restaged (Option.filter_eq_some_iff.mp hclient).1 .snapshot
  | firstSnapshot index =>
    obtain ⟨client, hclient, rfl⟩ := Option.map_eq_some_iff.mp hstep
    obtain ⟨hget, hstage⟩ := Option.filter_eq_some_iff.mp hclient
    exact h.stamp hget (by simp [Stage.handler, of_decide_eq_true hstage])
  | resume index =>
    obtain ⟨client, hclient, rfl⟩ := Option.map_eq_some_iff.mp hstep
    exact h.restaged (Option.filter_eq_some_iff.mp hclient).1 .bound
  | send index =>
    obtain ⟨client, hclient, rfl⟩ := Option.map_eq_some_iff.mp hstep
    exact h.stamp (Option.filter_eq_some_iff.mp hclient).1 rfl
  | close =>
    cases hstep
    exact h.close
  | shutdown =>
    cases hstep
    refine ⟨h.contiguous, h.unused, h.taken, h.behind, h.installed, ?_⟩
    cases h.held with
    | broker hstarts hattaches hclients hnext => exact .broker hstarts hattaches hclients hnext
    | attaching attach hstarts hattaches hclients hregistered hnext =>
      exact .attaching attach hstarts hattaches hclients hregistered hnext
    | bound client hstarts hattaches hclients hregistered hnext =>
      exact .bound client hstarts hattaches hclients hregistered hnext
    | gone hstarts hattaches hclients hclosed => exact .gone hstarts hattaches hclients hclosed

/-- A message that the session proxy does not take, and an answer of the broker, are seen at
once. -/
theorem violated (h : Handed c) {event : Event} (hC : ¬Waits c event) :
    ∃ c', Handoff.step c event = some c' ∧ ¬HandedOver c' := by
  cases event with
  | receive message =>
    simp only [Waits, not_or] at hC
    obtain ⟨hopen, hstarts, hreaches⟩ := hC
    refine ⟨c.receive message, if_neg hopen, fun hclean => hreaches
      ((h.taker_iff (by simpa using hopen) message).mp (hclean.taken
        (message, c.taker message) ?_))⟩
    have hlate : (c.receive message).late = c.late ++ [(message, c.taker message)] := by
      unfold Connection.receive
      rw [if_neg hstarts]
      split
      · rfl
      · unfold Connection.handleAttach
        dsimp only
        split <;> rfl
      · rfl
    rw [hlate]
    exact List.mem_append_right _ (List.mem_singleton_self _)
  | respond index =>
    simp only [Waits, not_or] at hC
    obtain ⟨hopen, hstarts, hget⟩ := hC
    obtain ⟨correlationId, hsome⟩ := Option.ne_none_iff_exists'.mp hget
    obtain ⟨start, hstart⟩ := List.exists_mem_of_ne_nil _ hstarts
    refine ⟨_, congrArg (Option.map _) hsome, fun hclean => ?_⟩
    have hlast : (⟨.response, c.nextSeq⟩ : Sent) ∈
        ({ c with outstanding := c.outstanding.eraseIdx index }.sendResponse).sent := by
      show _ ∈ if c.closed then c.sent else _
      rw [if_neg hopen]
      exact List.mem_append_right _ (List.mem_singleton_self _)
    exact absurd (hclean.unused _ hlast rfl start hstart) (Nat.not_lt.mpr (h.behind start hstart))
  | _ => exact absurd trivial hC

end Handed

/-! ## Main result -/

/-- The handoff is clean in every state of a run exactly if all its steps wait for it. -/
theorem handed_over_iff (events : List Event) :
    (∀ done c, done <+: events → exec step connected done = some c → HandedOver c) ↔
      Along step Waits connected events :=
  prefixes_iff_along_of (fun _ h => h.handedOver) (fun _ _ _ h hC hstep => h.step hC hstep)
    (fun _ _ h hC => h.violated hC) Handed.connected

/-- A command is outstanding when the client attaches, and is answered after the snapshot. -/
def lateResponse : List Event :=
  [.receive (.commandRequest "r1"), .receive (.sessionAttach ⟨"s0"⟩), .refreshed 0 true,
    .ensured 0 true, .subscribe 0, .firstSnapshot 0, .resume 0, .respond 0]

/-- The client attaches twice before the first refresh is done. -/
def secondAttach : List Event :=
  [.receive (.sessionAttach ⟨"s0"⟩), .receive (.sessionAttach ⟨"s0"⟩), .refreshed 0 true,
    .refreshed 1 true, .ensured 0 true, .ensured 0 true]

theorem late_response_reuses : ∃ c, exec step connected lateResponse = some c ∧
    c.sent.map Sent.seq = [2, 3, 3] ∧ ¬HandedOver c :=
  ⟨_, rfl, rfl, fun h => absurd h.contiguous (by decide)⟩

example : (exec step connected secondAttach).map (fun c => c.clients.length) = some 2 := by decide

end TmuxccDriver.Broker.Handoff
