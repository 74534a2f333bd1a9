import Mathlib.Data.List.Chain
import TmuxccDriver.Lib.Run
import TmuxccDriver.State.Projection

/-!
# Control server

`runtime/serve.ts`: every client has a counter of its own that stamps the messages it is
sent. `addClient` registers the client, awaits the read of its bindings, subscribes it to
the model, awaits one microtask, and only then sends the first snapshot; whatever is sent to
all registered clients meanwhile is sent to this one as well.

A transport that is closed drops what it is given; none of the transports throws.

Results:
1. `sendTo_received`: what a transport receives of one message.
2. `Sends`: what a step sends besides snapshots, and to whom.
3. `Counted`: the invariant of the counters.
4. `Awaited`: which streams have not begun.
5. `snapshot_first_iff`: in which runs every stream starts with its snapshot.
-/

namespace TmuxccDriver.Runtime.Serve
open TmuxccDriver.Lib TmuxccDriver.Protocol TmuxccDriver.State

variable {T : Type} [DecidableEq T]

/-! ## State -/

/-- `identity` is the id of the durable identity. -/
structure ClientState (T : Type) where
  transport : T
  nextSeq : Nat
  connectionId : ConnectionId
  identity : Option String

/-- A message that a transport has accepted. -/
structure Sent (T : Type) where
  transport : T
  seq : Nat
  message : SessionProxyMessage

/-- The two awaits of `addClient` after the handshake. -/
inductive Await
  | binding
  | snapshot
deriving DecidableEq

/-- The server, and of the pipeline the model and the model-change handlers. `startSeq` is
what the connection of a transport was opened with, `hooked` the transports with a close
handler of the server. -/
structure ControlServer (T : Type) where
  clients : KeyedMap (ClientState.transport : ClientState T → T)
  freeConnectionIds : List ConnectionId
  nextConnectionSeq : Nat
  model : SessionModel
  handlers : OrderedSet T
  startSeq : T → Option Nat
  calls : T → Option Await
  hooked : Finset T
  closed : Finset T
  sent : List (Sent T)

def createControlServer (model : SessionModel) : ControlServer T where
  clients := .empty
  freeConnectionIds := []
  nextConnectionSeq := 1
  model
  handlers := .empty
  startSeq := fun _ => none
  calls := fun _ => none
  hooked := ∅
  closed := ∅
  sent := []

namespace ControlServer

/-! ## Sending -/

/-- Stamp a message with the next number of a client, and send it. -/
def stamp (s : ControlServer T) (state : ClientState T) (message : Nat → SessionProxyMessage) :
    ControlServer T :=
  { s with
    clients := s.clients.set { state with nextSeq := state.nextSeq + 1 }
    sent := if state.transport ∈ s.closed then s.sent
      else s.sent ++ [⟨state.transport, state.nextSeq, message state.nextSeq⟩] }

/-- `sendDirected`: nothing happens for a client that is not registered. -/
def sendTo (s : ControlServer T) (transport : T) (message : Nat → SessionProxyMessage) :
    ControlServer T :=
  match s.clients.get? transport with
  | none => s
  | some state => s.stamp state message

/-- The transports of the registered clients. -/
def transports (s : ControlServer T) : List T := s.clients.values.map ClientState.transport

/-- One message to every registered client but one. -/
def broadcast (s : ControlServer T) (exclude : Option T) (message : SessionProxyMessage) :
    ControlServer T :=
  (s.transports.filter fun t => some t ≠ exclude).foldl (fun s t => s.sendTo t fun _ => message) s

def broadcastError (s : ControlServer T) : ControlServer T := s.broadcast none .notStateBearing

/-- `_broadcastPaneNotify`. -/
def broadcastPaneNotify (s : ControlServer T) : ControlServer T :=
  if s.transports.length = 0 then s else s.broadcast none .notStateBearing

def broadcastClientCountTo (s : ControlServer T) (exclude : Option T) : ControlServer T :=
  s.broadcast exclude (.clientCountChanged s.transports.length)

/-- The snapshot for one client. -/
def snapshotFor (s : ControlServer T) (state : ClientState T) (seq : Nat) : SessionProxyMessage :=
  .snapshot (projectSnapshot s.model
    { seq, attachedClientCount := some s.transports.length
      connectionId := some state.connectionId, clientId := state.identity })

def handleResyncRequest (s : ControlServer T) (transport : T) : ControlServer T :=
  match s.clients.get? transport with
  | none => s
  | some state => s.stamp state (s.snapshotFor state)

/-- `sendCommandResponse` and `sendCommandError`. -/
def sendCommandResponse (s : ControlServer T) (transport : T) : ControlServer T :=
  s.sendTo transport fun _ => .notStateBearing

/-! ## Clients that leave -/

/-- The part of `_cleanupClient` before it tells the others. -/
def forget (s : ControlServer T) (transport : T) (connectionId : ConnectionId) :
    ControlServer T :=
  { s with
    clients := s.clients.delete transport
    handlers := s.handlers.delete transport
    freeConnectionIds := connectionId :: s.freeConnectionIds }

/-- `_cleanupClient`. -/
def cleanupClient (s : ControlServer T) (transport : T) : ControlServer T :=
  match s.clients.get? transport with
  | none => s
  | some state =>
    let s := s.forget transport state.connectionId
    if 0 < s.transports.length then s.broadcastClientCountTo none else s

/-- The transport closes, from either end. -/
def closeTransport (s : ControlServer T) (transport : T) : ControlServer T :=
  if transport ∈ s.closed then s
  else
    let s := { s with closed := insert transport s.closed }
    if transport ∈ s.hooked then s.cleanupClient transport else s

def broadcastErrorAndClose (s : ControlServer T) : ControlServer T :=
  s.transports.foldl (fun s t => (s.sendTo t fun _ => .notStateBearing).closeTransport t) s

/-! ## Clients that arrive -/

/-- `_mintConnectionId`. -/
def mintConnectionId (s : ControlServer T) : ConnectionId × ControlServer T :=
  match s.freeConnectionIds with
  | connectionId :: rest => (connectionId, { s with freeConnectionIds := rest })
  | [] => (⟨"conn" ++ toString s.nextConnectionSeq⟩,
      { s with nextConnectionSeq := s.nextConnectionSeq + 1 })

def setCall (s : ControlServer T) (transport : T) (call : Option Await) : ControlServer T :=
  { s with calls := fun t => if t = transport then call else s.calls t }

/-- `addClient` from the handshake to the read of the bindings. -/
def addClient (s : ControlServer T) (transport : T) (startSeq : Nat) (identity : Option String) :
    ControlServer T :=
  let (connectionId, s) := s.mintConnectionId
  { s.setCall transport (some .binding) with
    clients := s.clients.set ⟨transport, startSeq, connectionId, identity⟩
    startSeq := fun t => if t = transport then some startSeq else s.startSeq t }

/-- `addClient` up to the microtask. -/
def subscribe (s : ControlServer T) (transport : T) : ControlServer T :=
  if s.clients.has transport then
    { s.setCall transport (some .snapshot) with
      handlers := s.handlers.set transport
      hooked := insert transport s.hooked }
  else s.setCall transport none

/-- The rest of `addClient`. -/
def sendFirstSnapshot (s : ControlServer T) (transport : T) : ControlServer T :=
  let s := s.setCall transport none
  match s.clients.get? transport with
  | none => s
  | some state =>
    (s.stamp state (s.snapshotFor state)).broadcastClientCountTo (some transport)

/-! ## Model changes -/

/-- The model-change handler of one client. -/
def onModelChange (prev next : SessionModel) (opts : T → DiffOptions) (s : ControlServer T)
    (transport : T) : ControlServer T :=
  match s.clients.get? transport with
  | none => s
  | some state =>
    (diffModel prev next { opts transport with clientId := state.identity }).foldl
      (fun s delta => s.sendTo transport fun _ => delta) s

/-- A model change, told to the handlers in the order in which they were registered. -/
def modelChange (s : ControlServer T) (prev next : SessionModel) (opts : T → DiffOptions) :
    ControlServer T :=
  s.handlers.values.foldl (onModelChange prev next opts) { s with model := next }

end ControlServer

/-! ## Runs -/

inductive Event (T : Type)
  | addClient (transport : T) (startSeq : Nat) (identity : Option String)
  | subscribe (transport : T)
  | sendFirstSnapshot (transport : T)
  | closeTransport (transport : T)
  | removeClient (transport : T)
  | modelChange (prev next : SessionModel) (opts : T → DiffOptions)
  | paneNotify
  | broadcastError
  | broadcastErrorAndClose
  | sendCommandResponse (transport : T)
  | sendDirected (transport : T)
  | resyncRequest (transport : T)

/-- One event; a transport is added once. -/
def step (s : ControlServer T) : Event T → Option (ControlServer T)
  | .addClient transport startSeq identity =>
    if s.startSeq transport = none then some (s.addClient transport startSeq identity) else none
  | .subscribe transport =>
    if s.calls transport = some .binding then some (s.subscribe transport) else none
  | .sendFirstSnapshot transport =>
    if s.calls transport = some .snapshot then some (s.sendFirstSnapshot transport) else none
  | .closeTransport transport => some (s.closeTransport transport)
  | .removeClient transport => some (s.cleanupClient transport)
  | .modelChange prev next opts => some (s.modelChange prev next opts)
  | .paneNotify => some s.broadcastPaneNotify
  | .broadcastError => some s.broadcastError
  | .broadcastErrorAndClose => some s.broadcastErrorAndClose
  | .sendCommandResponse transport => some (s.sendCommandResponse transport)
  | .sendDirected transport => some (s.sendTo transport fun _ => .notStateBearing)
  | .resyncRequest transport => some (s.handleResyncRequest transport)

/-! ## The streams -/

/-- What a transport has accepted, the oldest first. -/
def received (s : ControlServer T) (transport : T) : List (Sent T) :=
  s.sent.filter fun m => m.transport = transport

def isSnapshot : SessionProxyMessage → Bool
  | .snapshot _ => true
  | _ => false

theorem isSnapshot_notStateBearing : isSnapshot .notStateBearing = false := rfl

/-- A stream starts with the snapshot that carries its start number, and every later message
carries the number after the one before it, unless it is a snapshot. -/
structure SnapshotFirst (start : Nat) (stream : List (Sent T)) : Prop where
  first : ∀ m ∈ stream.head?, m.seq = start ∧ ∃ message, m.message = .snapshot message ∧
    message.seq = start
  contiguous : stream.IsChain fun m m' => isSnapshot m'.message ∨ m'.seq = m.seq + 1

/-- A registered client whose transport is open. -/
def Listening (s : ControlServer T) (transport : T) : Prop :=
  s.clients.has transport = true ∧ transport ∉ s.closed

/-- Every stream starts with its snapshot, and that of a client that listens has started when
its `addClient` has ended. -/
structure Contiguous (s : ControlServer T) : Prop where
  streams : ∀ transport start, s.startSeq transport = some start →
    SnapshotFirst start (received s transport)
  started : ∀ transport, Listening s transport → s.calls transport = none →
    received s transport ≠ []

/-- The diff for the client is not empty. -/
def HasDeltas (prev next : SessionModel) (opts : T → DiffOptions) (s : ControlServer T)
    (transport : T) : Prop :=
  ∃ state, s.clients.get? transport = some state ∧
    diffModel prev next { opts transport with clientId := state.identity } ≠ []

/-- Who is sent something else than a snapshot by an event. -/
def Reaches (s : ControlServer T) (event : Event T) (transport : T) : Prop :=
  Listening s transport ∧
    match event with
    | .addClient .. | .subscribe _ | .resyncRequest _ => False
    | .sendFirstSnapshot t =>
      s.calls t = some .snapshot ∧ s.clients.has t = true ∧ transport ≠ t
    | .closeTransport t =>
      t ∉ s.closed ∧ t ∈ s.hooked ∧ s.clients.has t = true ∧ transport ≠ t
    | .removeClient t => s.clients.has t = true ∧ transport ≠ t
    | .modelChange prev next opts =>
      transport ∈ s.handlers.values ∧ HasDeltas prev next opts s transport
    | .paneNotify | .broadcastError | .broadcastErrorAndClose => True
    | .sendCommandResponse t | .sendDirected t => transport = t

/-- The server, and the clients that wait for a first snapshot: from their `addClient` until
its end, or until a resync request. -/
structure Watched (T : Type) where
  server : ControlServer T
  waiting : Finset T

/-- Who waits after an event. -/
def waitingAfter (waiting : Finset T) : Event T → Finset T
  | .addClient transport _ _ => insert transport waiting
  | .sendFirstSnapshot transport | .resyncRequest transport => waiting.erase transport
  | _ => waiting

def watch (w : Watched T) (event : Event T) : Option (Watched T) :=
  (step w.server event).map fun server => ⟨server, waitingAfter w.waiting event⟩

/-- Nothing but a snapshot is sent to a client that waits. -/
def Waits (w : Watched T) (event : Event T) : Prop :=
  ∀ transport ∈ w.waiting, ¬Reaches w.server event transport

/-! ## One message -/

/-- What a transport receives of one stamped message. -/
theorem stamp_received (s : ControlServer T) (state : ClientState T)
    (message : Nat → SessionProxyMessage) (t : T) :
    received (s.stamp state message) t = received s t ++
      if state.transport = t ∧ state.transport ∉ s.closed then
        [⟨state.transport, state.nextSeq, message state.nextSeq⟩] else [] := by
  by_cases hclosed : state.transport ∈ s.closed
  · rw [if_neg fun h => h.2 hclosed, List.append_nil]
    show (if state.transport ∈ s.closed then s.sent else _).filter _ = _
    rw [if_pos hclosed]
    rfl
  · show (if state.transport ∈ s.closed then s.sent else _).filter _ = _
    rw [if_neg hclosed, List.filter_append]
    by_cases hto : state.transport = t
    · rw [if_pos ⟨hto, hclosed⟩, List.filter_cons_of_pos (by simpa using hto)]
      rfl
    · rw [if_neg fun h => hto h.1, List.filter_cons_of_neg (by simpa using hto)]
      rfl

/-- A message changes the counter of its client, and nothing else but the streams. -/
theorem stamp_frame {s : ControlServer T} {t : T} {state : ClientState T}
    (hstate : s.clients.get? t = some state) (message : Nat → SessionProxyMessage) :
    ∃ clients sent, s.stamp state message = { s with clients := clients, sent := sent } ∧
      ∀ t', (clients.get? t').map ClientState.identity =
        (s.clients.get? t').map ClientState.identity := by
  refine ⟨_, _, rfl, fun t' => ?_⟩
  have hkey : state.transport = t := KeyedMap.key_of_get? hstate
  rw [KeyedMap.get?_set]
  split
  · next ht =>
    have heq : t = t' := hkey.symm.trans ht
    rw [← heq, hstate]
    rfl
  · rfl

/-- The second server is the first one after some messages. -/
def OnlySent (s s' : ControlServer T) : Prop :=
  ∃ clients sent, s' = { s with clients := clients, sent := sent } ∧
    ∀ t, (clients.get? t).map ClientState.identity = (s.clients.get? t).map ClientState.identity

namespace OnlySent

variable {s s' s'' : ControlServer T}

theorem refl (s : ControlServer T) : OnlySent s s := ⟨s.clients, s.sent, rfl, fun _ => rfl⟩

theorem trans (h : OnlySent s s') (h' : OnlySent s' s'') : OnlySent s s'' := by
  obtain ⟨clients, sent, rfl, hclients⟩ := h
  obtain ⟨clients', sent', rfl, hclients'⟩ := h'
  exact ⟨clients', sent', rfl, fun t => (hclients' t).trans (hclients t)⟩

theorem listening (h : OnlySent s s') (t : T) : Listening s' t ↔ Listening s t := by
  obtain ⟨clients, sent, rfl, hclients⟩ := h
  have hhas : clients.has t = s.clients.has t := by
    have hsome := congrArg Option.isSome (hclients t)
    rwa [Option.isSome_map, Option.isSome_map] at hsome
  show clients.has t = true ∧ _ ↔ _
  rw [hhas]
  rfl

end OnlySent

theorem sendTo_onlySent (s : ControlServer T) (t : T) (message : Nat → SessionProxyMessage) :
    OnlySent s (s.sendTo t message) := by
  unfold ControlServer.sendTo
  split
  · exact OnlySent.refl s
  · next state hstate => exact stamp_frame hstate message

/-! ## What a step sends -/

/-- Between two servers no snapshot was sent, and these clients were sent something. -/
structure Sends (s s' : ControlServer T) (who : T → Prop) : Prop where
  startSeq : s'.startSeq = s.startSeq
  calls : s'.calls = s.calls
  stream : ∀ t, ∃ ms, received s' t = received s t ++ ms ∧
    (∀ m ∈ ms, isSnapshot m.message = false) ∧ (ms ≠ [] ↔ who t)

namespace Sends

variable {s s' s'' : ControlServer T} {who who' : T → Prop}

theorem refl (s : ControlServer T) : Sends s s fun _ => False :=
  ⟨rfl, rfl, fun _ => ⟨[], (List.append_nil _).symm, fun _ h => absurd h List.not_mem_nil,
    iff_of_false (fun h => h rfl) id⟩⟩

theorem trans (h : Sends s s' who) (h' : Sends s' s'' who') :
    Sends s s'' fun t => who t ∨ who' t := by
  refine ⟨h'.startSeq.trans h.startSeq, h'.calls.trans h.calls, fun t => ?_⟩
  obtain ⟨ms, hms, hplain, hto⟩ := h.stream t
  obtain ⟨ms', hms', hplain', hto'⟩ := h'.stream t
  refine ⟨ms ++ ms', by rw [hms', hms, List.append_assoc], fun m hm => ?_, ?_⟩
  · rcases List.mem_append.mp hm with hm | hm
    · exact hplain m hm
    · exact hplain' m hm
  · rw [← hto, ← hto', ne_eq, List.append_eq_nil_iff, not_and_or]

theorem congr (h : Sends s s' who) (hiff : ∀ t, who t ↔ who' t) : Sends s s' who' := by
  refine ⟨h.startSeq, h.calls, fun t => ?_⟩
  obtain ⟨ms, hms, hplain, hto⟩ := h.stream t
  exact ⟨ms, hms, hplain, hto.trans (hiff t)⟩

end Sends

theorem sendTo_sends (s : ControlServer T) (t : T) {message : SessionProxyMessage}
    (hplain : isSnapshot message = false) :
    Sends s (s.sendTo t fun _ => message) fun t' => t' = t ∧ Listening s t' := by
  obtain ⟨clients, sent, hframe, -⟩ := sendTo_onlySent s t fun _ => message
  refine ⟨by rw [hframe], by rw [hframe], fun t' => ?_⟩
  rcases hstate : s.clients.get? t with _ | state
  · have hsame : s.sendTo t (fun _ => message) = s := by
      unfold ControlServer.sendTo
      rw [hstate]
    rw [hsame]
    refine ⟨[], (List.append_nil _).symm, fun _ h => absurd h List.not_mem_nil, ?_⟩
    refine iff_of_false (fun h => h rfl) fun h => ?_
    rw [Listening, h.1, KeyedMap.has_eq_false.mpr hstate] at h
    exact Bool.false_ne_true h.2.1
  · have hkey : state.transport = t := KeyedMap.key_of_get? hstate
    have hhas : s.clients.has t = true := KeyedMap.has_iff.mpr ⟨state, hstate⟩
    have hsent : s.sendTo t (fun _ => message) = s.stamp state fun _ => message := by
      unfold ControlServer.sendTo
      rw [hstate]
    rw [hsent]
    refine ⟨_, stamp_received s state _ t', fun m hm => ?_, ?_⟩
    · split at hm
      · rw [List.mem_singleton.mp hm]
        exact hplain
      · cases hm
    · rw [hkey]
      by_cases hto : t' = t
      · subst hto
        simp [Listening, hhas]
      · simp [hto, Ne.symm hto]

/-- One message to each of several clients. -/
theorem foldl_sendTo (s : ControlServer T) (ts : List T) {message : SessionProxyMessage}
    (hplain : isSnapshot message = false) :
    Sends s (ts.foldl (fun s t => s.sendTo t fun _ => message) s)
        (fun t => t ∈ ts ∧ Listening s t) ∧
      OnlySent s (ts.foldl (fun s t => s.sendTo t fun _ => message) s) := by
  refine foldl_done (P := fun done s' => Sends s s' (fun t => t ∈ done ∧ Listening s t) ∧
    OnlySent s s') ⟨?_, OnlySent.refl s⟩ fun done t s' _ hdone => ?_
  · exact (Sends.refl s).congr fun t => by simp
  · obtain ⟨hsends, honly⟩ := hdone
    refine ⟨(hsends.trans (sendTo_sends s' t hplain)).congr fun t' => ?_,
      honly.trans (sendTo_onlySent s' t _)⟩
    rw [honly.listening, List.mem_append, List.mem_singleton, or_and_right]

/-! ## The operations -/

theorem mem_transports {s : ControlServer T} {t : T} :
    t ∈ s.transports ↔ s.clients.has t = true := by
  rw [KeyedMap.has_iff_mem]
  exact List.mem_map

theorem broadcast_sends (s : ControlServer T) (exclude : Option T) {message : SessionProxyMessage}
    (hplain : isSnapshot message = false) :
    Sends s (s.broadcast exclude message) (fun t => Listening s t ∧ some t ≠ exclude) ∧
      OnlySent s (s.broadcast exclude message) := by
  obtain ⟨hsends, honly⟩ :=
    foldl_sendTo s (s.transports.filter fun t => some t ≠ exclude) hplain
  refine ⟨hsends.congr fun t => ?_, honly⟩
  rw [List.mem_filter, mem_transports, decide_eq_true_eq]
  exact ⟨fun h => ⟨h.2, h.1.2⟩, fun h => ⟨⟨h.1.1, h.2⟩, h.1⟩⟩

/-- Nothing was sent. -/
theorem Sends.silent {s s' : ControlServer T} (hstart : s'.startSeq = s.startSeq)
    (hcalls : s'.calls = s.calls) (hsent : s'.sent = s.sent) : Sends s s' fun _ => False := by
  refine ⟨hstart, hcalls, fun t => ⟨[], ?_, fun _ h => absurd h List.not_mem_nil,
    iff_of_false (fun h => h rfl) id⟩⟩
  unfold received
  rw [hsent, List.append_nil]

theorem forget_listening (s : ControlServer T) (t : T) (connectionId : ConnectionId) (t' : T) :
    Listening (s.forget t connectionId) t' ↔ t' ≠ t ∧ Listening s t' := by
  show (s.clients.delete t).has t' = true ∧ t' ∉ s.closed ↔ _
  unfold KeyedMap.has Listening
  rw [KeyedMap.get?_delete]
  by_cases ht : t' = t
  · simp [ht]
  · simp [ht, KeyedMap.has]

theorem cleanupClient_sends (s : ControlServer T) (t : T) :
    Sends s (s.cleanupClient t) (fun t' => s.clients.has t = true ∧ t' ≠ t ∧ Listening s t') ∧
      ∀ t', Listening (s.cleanupClient t) t' ↔ t' ≠ t ∧ Listening s t' := by
  unfold ControlServer.cleanupClient
  rcases hstate : s.clients.get? t with _ | state
  · have hhas := KeyedMap.has_eq_false.mpr hstate
    refine ⟨(Sends.refl s).congr fun t' => ?_, fun t' => ?_⟩
    · simp [hhas]
    · refine ⟨fun h => ⟨fun heq => ?_, h⟩, fun h => h.2⟩
      rw [Listening, heq, hhas] at h
      exact Bool.false_ne_true h.1
  · have hhas : s.clients.has t = true := KeyedMap.has_iff.mpr ⟨state, hstate⟩
    have hlistening := forget_listening s t state.connectionId
    have hsilent : Sends s (s.forget t state.connectionId) fun _ => False :=
      Sends.silent rfl rfl rfl
    dsimp only
    split
    · have hplain : isSnapshot (.clientCountChanged
          (s.forget t state.connectionId).transports.length) = false := rfl
      obtain ⟨hcount, honly⟩ := broadcast_sends (s.forget t state.connectionId) none hplain
      refine ⟨(hsilent.trans hcount).congr fun t' => ?_,
        fun t' => (honly.listening t').trans (hlistening t')⟩
      rw [hlistening]
      simp [hhas]
    · next hempty =>
      have hnone : ∀ t', ¬(t' ≠ t ∧ Listening s t') := by
        intro t' h
        have hmem := mem_transports.mpr ((hlistening t').mpr h).1
        exact hempty (List.length_pos_of_mem hmem)
      exact ⟨hsilent.congr fun t' => iff_of_false id fun h => hnone t' h.2, hlistening⟩

theorem closeTransport_sends (s : ControlServer T) (t : T) :
    Sends s (s.closeTransport t) (fun t' => t ∉ s.closed ∧ t ∈ s.hooked ∧
        s.clients.has t = true ∧ t' ≠ t ∧ Listening s t') ∧
      ∀ t', Listening (s.closeTransport t) t' ↔ t' ≠ t ∧ Listening s t' := by
  unfold ControlServer.closeTransport
  split
  · next hclosed =>
    refine ⟨(Sends.refl s).congr fun t' => iff_of_false id fun h => h.1 hclosed,
      fun t' => ⟨fun h => ⟨fun heq => h.2 (heq ▸ hclosed), h⟩, fun h => h.2⟩⟩
  · next hopen =>
    have hsilent : Sends s { s with closed := insert t s.closed } fun _ => False :=
      Sends.silent rfl rfl rfl
    have hlistening : ∀ t', Listening { s with closed := insert t s.closed } t' ↔
        t' ≠ t ∧ Listening s t' := by
      intro t'
      show _ ∧ t' ∉ insert t s.closed ↔ _
      rw [Finset.mem_insert, not_or]
      exact and_left_comm
    dsimp only
    split
    · next hhooked =>
      obtain ⟨hcleanup, hafter⟩ := cleanupClient_sends { s with closed := insert t s.closed } t
      refine ⟨(hsilent.trans hcleanup).congr fun t' => ?_, fun t' => ?_⟩
      · rw [hlistening]
        simp [hopen, hhooked]
      · rw [hafter, hlistening, ← and_assoc, and_self]
    · next hunhooked =>
      exact ⟨hsilent.congr fun t' => iff_of_false id fun h => hunhooked h.2.1, hlistening⟩

theorem broadcastErrorAndClose_sends (s : ControlServer T) :
    Sends s s.broadcastErrorAndClose (Listening s) ∧
      ∀ t, Listening s.broadcastErrorAndClose t → Listening s t := by
  have hloop : (∃ who, Sends s s.broadcastErrorAndClose who ∧ (∀ t, who t → Listening s t) ∧
      ∀ t ∈ s.transports, Listening s t → who t) ∧
      ∀ t, Listening s.broadcastErrorAndClose t ↔ t ∉ s.transports ∧ Listening s t := by
    refine foldl_done (P := fun done s' => (∃ who, Sends s s' who ∧ (∀ t, who t → Listening s t) ∧
      ∀ t ∈ done, Listening s t → who t) ∧ ∀ t, Listening s' t ↔ t ∉ done ∧ Listening s t)
      ⟨⟨_, Sends.refl s, fun _ h => h.elim, fun _ h => absurd h List.not_mem_nil⟩,
        fun t => by simp⟩ fun done t s' _ hdone => ?_
    obtain ⟨⟨who, hsends, hwho, hall⟩, hlistening⟩ := hdone
    have hplain : isSnapshot .notStateBearing = false := rfl
    have hsend := sendTo_sends s' t hplain
    have honly := sendTo_onlySent s' t fun _ => .notStateBearing
    obtain ⟨hclose, hclosed⟩ :=
      closeTransport_sends (s'.sendTo t fun _ => .notStateBearing) t
    refine ⟨⟨_, (hsends.trans hsend).trans hclose, ?_, fun t' ht' hl => ?_⟩, fun t' => ?_⟩
    · rintro t' ((h | h) | h)
      · exact hwho t' h
      · exact ((hlistening t').mp h.2).2
      · exact ((hlistening t').mp ((honly.listening t').mp h.2.2.2.2)).2
    · by_cases hd : t' ∈ done
      · exact .inl (.inl (hall t' hd hl))
      · have heq : t' = t := List.mem_singleton.mp ((List.mem_append.mp ht').resolve_left hd)
        exact .inl (.inr ⟨heq, (hlistening t').mpr ⟨hd, hl⟩⟩)
    · rw [hclosed, honly.listening, hlistening, List.mem_append, List.mem_singleton, not_or,
        and_left_comm, ← and_assoc]
  obtain ⟨⟨who, hsends, hwho, hall⟩, hlistening⟩ := hloop
  exact ⟨hsends.congr fun t => ⟨hwho t, fun hl => hall t (mem_transports.mpr hl.1) hl⟩,
    fun t h => ((hlistening t).mp h).2⟩

theorem not_snapshot_mem_diffModel {prev next : SessionModel} {opts : DiffOptions}
    {message : SnapshotMessage} : .snapshot message ∉ diffModel prev next opts := by
  have hsession : .snapshot message ∉ sessionRenamed prev next := by
    unfold sessionRenamed
    split
    · split <;> simp
    · simp
  have hfocus : .snapshot message ∉ focusChanged prev next := by
    unfold focusChanged
    split <;> simp
  simp [diffModel, onKeptPane, onKeptWindow, windowAddedOf, paneOpenedOf, layoutUpdatedOf,
    paneMovedOf, paneResizedOf, paneModeChangedOf, paneLabelChangedOf, panePolicyChangedOf,
    paneDeadChangedOf, paneTitleChangedOf, windowRenamedOf, windowSyncChangedOf,
    windowMonitorActivityChangedOf, windowMonitorSilenceChangedOf, paneClosedOf, windowClosedOf,
    hsession, hfocus, Option.bind_eq_some_iff]

theorem isSnapshot_delta {prev next : SessionModel} {opts : DiffOptions}
    {delta : SessionProxyMessage} (h : delta ∈ diffModel prev next opts) :
    isSnapshot delta = false := by
  unfold isSnapshot
  split
  · exact absurd h not_snapshot_mem_diffModel
  · rfl

theorem OnlySent.hasDeltas {s s' : ControlServer T} (h : OnlySent s s') {prev next : SessionModel}
    {opts : T → DiffOptions} (t : T) :
    HasDeltas prev next opts s' t ↔ HasDeltas prev next opts s t := by
  have hidentity : ∀ s : ControlServer T, HasDeltas prev next opts s t ↔
      ∃ identity, (s.clients.get? t).map ClientState.identity = some identity ∧
        diffModel prev next { opts t with clientId := identity } ≠ [] := by
    intro s
    constructor
    · rintro ⟨state, hstate, hdiff⟩
      exact ⟨state.identity, by rw [hstate]; rfl, hdiff⟩
    · rintro ⟨identity, hmap, hdiff⟩
      obtain ⟨state, hstate, rfl⟩ := Option.map_eq_some_iff.mp hmap
      exact ⟨state, hstate, hdiff⟩
  obtain ⟨clients, sent, rfl, hclients⟩ := h
  rw [hidentity, hidentity, hclients]

theorem onModelChange_sends (prev next : SessionModel) (opts : T → DiffOptions)
    (s : ControlServer T) (t : T) :
    Sends s (ControlServer.onModelChange prev next opts s t)
        (fun t' => t' = t ∧ Listening s t' ∧ HasDeltas prev next opts s t') ∧
      OnlySent s (ControlServer.onModelChange prev next opts s t) := by
  unfold ControlServer.onModelChange
  rcases hstate : s.clients.get? t with _ | state
  · refine ⟨(Sends.refl s).congr fun t' => iff_of_false id ?_, OnlySent.refl s⟩
    rintro ⟨rfl, -, state, hsome, -⟩
    rw [hstate] at hsome
    cases hsome
  · dsimp only
    generalize hdeltas : diffModel prev next { opts t with clientId := state.identity } = deltas
    have hloop : Sends s (deltas.foldl (fun s delta => s.sendTo t fun _ => delta) s)
        (fun t' => t' = t ∧ Listening s t' ∧ deltas ≠ []) ∧
        OnlySent s (deltas.foldl (fun s delta => s.sendTo t fun _ => delta) s) := by
      refine foldl_done (P := fun done s' => Sends s s' (fun t' => t' = t ∧ Listening s t' ∧
        done ≠ []) ∧ OnlySent s s') ⟨(Sends.refl s).congr fun t' => by simp, OnlySent.refl s⟩
        fun done delta s' hdelta hdone => ?_
      obtain ⟨hsends, honly⟩ := hdone
      rw [← hdeltas] at hdelta
      have hsend := sendTo_sends s' t (isSnapshot_delta hdelta)
      refine ⟨(hsends.trans hsend).congr fun t' => ?_, honly.trans (sendTo_onlySent s' t _)⟩
      rw [honly.listening]
      by_cases hd : done = [] <;> simp [hd]
    refine ⟨hloop.1.congr fun t' => and_congr_right fun heq => and_congr_right fun _ => ?_,
      hloop.2⟩
    rw [heq, HasDeltas, hstate]
    simp only [Option.some.injEq, exists_eq_left', hdeltas]

theorem modelChange_sends (s : ControlServer T) (prev next : SessionModel)
    (opts : T → DiffOptions) : Sends s (s.modelChange prev next opts) (fun t =>
      t ∈ s.handlers.values ∧ Listening s t ∧ HasDeltas prev next opts s t) ∧
      ∀ t, Listening (s.modelChange prev next opts) t ↔ Listening s t := by
  have hloop : Sends s (s.modelChange prev next opts) (fun t => t ∈ s.handlers.values ∧
      Listening s t ∧ HasDeltas prev next opts s t) ∧
      OnlySent { s with model := next } (s.modelChange prev next opts) := by
    refine foldl_done (P := fun done s' => Sends s s' (fun t => t ∈ done ∧ Listening s t ∧
      HasDeltas prev next opts s t) ∧ OnlySent { s with model := next } s')
      ⟨?_, OnlySent.refl _⟩ fun done t s' _ hdone => ?_
    · have hsilent : Sends s { s with model := next } fun _ => False := Sends.silent rfl rfl rfl
      exact hsilent.congr fun t => by simp
    · obtain ⟨hsends, honly⟩ := hdone
      obtain ⟨hsend, hmore⟩ := onModelChange_sends prev next opts s' t
      refine ⟨(hsends.trans hsend).congr fun t' => ?_, honly.trans hmore⟩
      rw [honly.listening, honly.hasDeltas, List.mem_append, List.mem_singleton, or_and_right]
      rfl
  exact ⟨hloop.1, hloop.2.listening⟩

omit [DecidableEq T] in
theorem mintConnectionId_frame (s : ControlServer T) :
    s.mintConnectionId.2.clients = s.clients ∧ s.mintConnectionId.2.startSeq = s.startSeq ∧
      s.mintConnectionId.2.closed = s.closed ∧ s.mintConnectionId.2.sent = s.sent := by
  unfold ControlServer.mintConnectionId
  split <;> exact ⟨rfl, rfl, rfl, rfl⟩

omit [DecidableEq T] in
theorem mintConnectionId_calls (s : ControlServer T) :
    s.mintConnectionId.2.calls = s.calls := by
  unfold ControlServer.mintConnectionId
  split <;> rfl

/-! ## The counters -/

/-- The numbers of a stream count up from its start number, the counter of a client whose
transport is open is the next one, and a snapshot carries its own number. -/
structure Counted (s : ControlServer T) : Prop where
  fresh : ∀ t, s.startSeq t = none → received s t = [] ∧ s.clients.has t = false
  seqs : ∀ t start, s.startSeq t = some start →
    (received s t).map (·.seq) = List.range' start (received s t).length
  next : ∀ t start state, s.startSeq t = some start → s.clients.get? t = some state →
    t ∉ s.closed → state.nextSeq = start + (received s t).length
  stamped : ∀ m ∈ s.sent, ∀ message, m.message = .snapshot message → message.seq = m.seq

namespace Counted

variable {s : ControlServer T}

theorem create (model : SessionModel) : Counted (createControlServer model : ControlServer T) where
  fresh := fun _ _ => ⟨rfl, rfl⟩
  seqs := fun _ _ h => by cases h
  next := fun _ _ _ h => by cases h
  stamped := fun _ h => absurd h List.not_mem_nil

theorem stamp (h : Counted s) {t : T} {state : ClientState T}
    (hstate : s.clients.get? t = some state) {message : Nat → SessionProxyMessage}
    (hown : ∀ m, message state.nextSeq = .snapshot m → m.seq = state.nextSeq) :
    Counted (s.stamp state message) := by
  have hkey : state.transport = t := KeyedMap.key_of_get? hstate
  have hreceived := stamp_received s state message
  have hget : ∀ t', (s.stamp state message).clients.get? t' = if t = t' then
      some { state with nextSeq := state.nextSeq + 1 } else s.clients.get? t' := by
    intro t'
    rw [← hkey]
    exact KeyedMap.get?_set ..
  refine ⟨fun t' hfresh => ?_, fun t' start hstart => ?_,
    fun t' start state' hstart hget' hopen => ?_, fun m hm => ?_⟩
  · obtain ⟨hnil, hhas⟩ := h.fresh t' hfresh
    have hne : t ≠ t' := by
      rintro rfl
      rw [KeyedMap.has_eq_false.mp hhas] at hstate
      cases hstate
    refine ⟨?_, ?_⟩
    · rw [hreceived, hnil, hkey, if_neg fun hto => hne hto.1]
      rfl
    · rw [KeyedMap.has_eq_false, hget, if_neg hne]
      exact KeyedMap.has_eq_false.mp hhas
  · rw [hreceived, hkey]
    split
    · next hto =>
      obtain ⟨rfl, hopen⟩ := hto
      rw [List.map_append, List.length_append, h.seqs t start hstart, List.length_singleton,
        List.range'_1_concat, ← h.next t start state hstart hstate hopen]
      rfl
    · rw [List.append_nil]
      exact h.seqs t' start hstart
  · rw [hget] at hget'
    rw [hreceived, hkey]
    split at hget'
    · next ht =>
      subst ht
      cases hget'
      have hnext := h.next t start state hstart hstate hopen
      rw [if_pos ⟨rfl, hopen⟩, List.length_append, List.length_singleton, ← Nat.add_assoc, ← hnext]
    · next ht =>
      rw [if_neg fun hto => ht hto.1, List.append_nil]
      exact h.next t' start state' hstart hget' hopen
  · have hm' : m ∈ if state.transport ∈ s.closed then s.sent else
        s.sent ++ [⟨state.transport, state.nextSeq, message state.nextSeq⟩] := hm
    split at hm'
    · exact h.stamped m hm'
    · rcases List.mem_append.mp hm' with hold | hnew
      · exact h.stamped m hold
      · rw [List.mem_singleton.mp hnew]
        exact hown

theorem sendTo (h : Counted s) (t : T) {message : SessionProxyMessage}
    (hplain : isSnapshot message = false) : Counted (s.sendTo t fun _ => message) := by
  unfold ControlServer.sendTo
  split
  · exact h
  · next state hstate =>
    refine h.stamp hstate fun m hm => ?_
    rw [show message = _ from hm] at hplain
    cases hplain

theorem broadcast (h : Counted s) (exclude : Option T) {message : SessionProxyMessage}
    (hplain : isSnapshot message = false) : Counted (s.broadcast exclude message) :=
  foldl_keeps h fun t _ _ hs => hs.sendTo t hplain

theorem forget (h : Counted s) (t : T) (connectionId : ConnectionId) :
    Counted (s.forget t connectionId) := by
  have hget : ∀ t' state, (s.clients.delete t).get? t' = some state →
      s.clients.get? t' = some state := by
    intro t' state hget
    rw [KeyedMap.get?_delete] at hget
    split at hget
    · cases hget
    · exact hget
  refine ⟨fun t' hfresh => ⟨(h.fresh t' hfresh).1, ?_⟩, h.seqs,
    fun t' start state hstart hstate => h.next t' start state hstart (hget t' state hstate),
    h.stamped⟩
  refine KeyedMap.has_eq_false.mpr ?_
  rcases hstate : (s.clients.delete t).get? t' with _ | state
  · exact hstate
  · have hold := KeyedMap.has_eq_false.mp (h.fresh t' hfresh).2
    rw [hget t' state hstate] at hold
    cases hold

theorem cleanupClient (h : Counted s) (t : T) : Counted (s.cleanupClient t) := by
  unfold ControlServer.cleanupClient
  split
  · exact h
  · dsimp only
    split
    · exact (h.forget t _).broadcast none rfl
    · exact h.forget t _

theorem closeTransport (h : Counted s) (t : T) : Counted (s.closeTransport t) := by
  unfold ControlServer.closeTransport
  have hclosed : Counted { s with closed := insert t s.closed } :=
    { h with next := fun t' start state hstart hstate hopen =>
        h.next t' start state hstart hstate fun hmem => hopen (Finset.mem_insert_of_mem hmem) }
  split
  · exact h
  · dsimp only
    split
    · exact hclosed.cleanupClient t
    · exact hclosed

theorem onModelChange (h : Counted s) (prev next : SessionModel) (opts : T → DiffOptions) (t : T) :
    Counted (ControlServer.onModelChange prev next opts s t) := by
  unfold ControlServer.onModelChange
  split
  · exact h
  · exact foldl_keeps h fun delta _ hdelta hs => hs.sendTo t (isSnapshot_delta hdelta)

theorem snapshot (h : Counted s) {t : T} {state : ClientState T}
    (hstate : s.clients.get? t = some state) : Counted (s.stamp state (s.snapshotFor state)) := by
  refine h.stamp hstate fun m hm => ?_
  rw [← SessionProxyMessage.snapshot.inj hm]
  rfl

theorem addClient (h : Counted s) {t : T} (hfresh : s.startSeq t = none) (startSeq : Nat)
    (identity : Option String) : Counted (s.addClient t startSeq identity) := by
  obtain ⟨hclients, hstarts, hclosed, hsent⟩ := mintConnectionId_frame s
  obtain ⟨hnil, -⟩ := h.fresh t hfresh
  have hreceived : ∀ t', received (s.addClient t startSeq identity) t' = received s t' := by
    intro t'
    show s.mintConnectionId.2.sent.filter _ = _
    rw [hsent]
    rfl
  have hstart : ∀ t', (s.addClient t startSeq identity).startSeq t' =
      if t' = t then some startSeq else s.startSeq t' := by
    intro t'
    rw [← hstarts]
    rfl
  have hget : ∀ t', (s.addClient t startSeq identity).clients.get? t' =
      if t = t' then some ⟨t, startSeq, s.mintConnectionId.1, identity⟩
      else s.clients.get? t' := by
    intro t'
    rw [← hclients]
    exact KeyedMap.get?_set ..
  refine ⟨fun t' hnone => ?_, fun t' start hsome => ?_,
    fun t' start state hsome hstate hopen => ?_, fun m hm => h.stamped m (hsent ▸ hm)⟩
  · rw [hstart] at hnone
    split at hnone
    · cases hnone
    · next hne =>
      obtain ⟨hold, hhas⟩ := h.fresh t' hnone
      refine ⟨(hreceived t').trans hold, ?_⟩
      rw [KeyedMap.has_eq_false, hget, if_neg (Ne.symm hne)]
      exact KeyedMap.has_eq_false.mp hhas
  · rw [hstart] at hsome
    rw [hreceived]
    split at hsome
    · next heq =>
      rw [heq, hnil]
      rfl
    · exact h.seqs t' start hsome
  · rw [hstart] at hsome
    rw [hget] at hstate
    rw [hreceived]
    split at hsome
    · next heq =>
      cases hsome
      rw [if_pos heq.symm] at hstate
      cases hstate
      rw [heq, hnil]
      rfl
    · next hne =>
      rw [if_neg (Ne.symm hne)] at hstate
      have hopen' : t' ∉ s.closed := hclosed ▸ hopen
      exact h.next t' start state hsome hstate hopen'

theorem step (h : Counted s) {event : Event T} {s' : ControlServer T}
    (hstep : Serve.step s event = some s') : Counted s' := by
  cases event with
  | addClient t startSeq identity =>
    simp only [Serve.step] at hstep
    split at hstep
    · next hfresh =>
      cases hstep
      exact h.addClient hfresh startSeq identity
    · cases hstep
  | subscribe t =>
    simp only [Serve.step] at hstep
    split at hstep
    · cases hstep
      unfold ControlServer.subscribe
      split <;> exact { h with }
    · cases hstep
  | sendFirstSnapshot t =>
    simp only [Serve.step] at hstep
    split at hstep
    · cases hstep
      have hcall : Counted (s.setCall t none) := { h with }
      unfold ControlServer.sendFirstSnapshot
      dsimp only
      split
      · exact hcall
      · next state hstate => exact (hcall.snapshot hstate).broadcast (some t) rfl
    · cases hstep
  | closeTransport t =>
    cases hstep
    exact h.closeTransport t
  | removeClient t =>
    cases hstep
    exact h.cleanupClient t
  | modelChange prev next opts =>
    cases hstep
    have hmodel : Counted { s with model := next } := { h with }
    exact foldl_keeps hmodel fun t _ _ hs => hs.onModelChange prev next opts t
  | paneNotify =>
    cases hstep
    unfold ControlServer.broadcastPaneNotify
    split
    · exact h
    · exact h.broadcast none rfl
  | broadcastError =>
    cases hstep
    exact h.broadcast none rfl
  | broadcastErrorAndClose =>
    cases hstep
    exact foldl_keeps h fun t _ _ hs => (hs.sendTo t rfl).closeTransport t
  | sendCommandResponse t =>
    cases hstep
    exact h.sendTo t rfl
  | sendDirected t =>
    cases hstep
    exact h.sendTo t rfl
  | resyncRequest t =>
    cases hstep
    unfold ControlServer.handleResyncRequest
    split
    · exact h
    · next state hstate => exact h.snapshot hstate

end Counted

/-! ## The first message -/

/-- A stream that starts with a snapshot, if it has started. -/
def Opens (stream : List (Sent T)) : Prop := ∀ m ∈ stream.head?, isSnapshot m.message = true

/-- Nothing but a snapshot is sent to a client whose stream has not begun. -/
def Keeps (s : ControlServer T) (event : Event T) : Prop :=
  ∀ transport, Reaches s event transport → received s transport ≠ []

theorem Counted.streams_iff {s : ControlServer T} (h : Counted s) :
    (∀ t start, s.startSeq t = some start → SnapshotFirst start (received s t)) ↔
      ∀ t, Opens (received s t) := by
  constructor
  · intro hs t m hm
    rcases hstart : s.startSeq t with _ | start
    · rw [(h.fresh t hstart).1] at hm
      cases hm
    · obtain ⟨-, message, hmessage, -⟩ := (hs t start hstart).first m hm
      rw [hmessage]
      rfl
  · intro hs t start hstart
    have hseqs := h.seqs t start hstart
    refine ⟨fun m hm => ?_, ?_⟩
    · obtain ⟨rest, hrest⟩ := List.head?_eq_some_iff.mp hm
      have hseq : m.seq = start := by
        rw [hrest, List.map_cons, List.length_cons, List.range'_succ] at hseqs
        exact (List.cons.inj hseqs).1
      have hmem : m ∈ s.sent :=
        List.mem_of_mem_filter (hrest ▸ List.mem_cons_self : m ∈ received s t)
      have hopens := hs t m hm
      unfold isSnapshot at hopens
      split at hopens
      · next message hmessage =>
        exact ⟨hseq, message, hmessage, (h.stamped m hmem _ hmessage).trans hseq⟩
      · cases hopens
    · have hchain := List.isChain_range' start (received s t).length 1
      rw [← hseqs, List.isChain_map] at hchain
      exact hchain.imp fun _ _ hnext => .inr hnext

/-- No stream is spoilt exactly if every client that was sent something had been sent
something before. -/
theorem Sends.opens_iff {s s' : ControlServer T} {who : T → Prop} (h : Sends s s' who)
    (hs : ∀ t, Opens (received s t)) :
    (∀ t, Opens (received s' t)) ↔ ∀ t, who t → received s t ≠ [] := by
  constructor
  · intro hs' t hwho hnil
    obtain ⟨ms, hms, hplain, hiff⟩ := h.stream t
    obtain ⟨m, rest, rfl⟩ := List.exists_cons_of_ne_nil (hiff.mpr hwho)
    have hopens := hs' t m (by rw [hms, hnil]; rfl)
    rw [hplain m List.mem_cons_self] at hopens
    cases hopens
  · intro hall t
    obtain ⟨ms, hms, -, hiff⟩ := h.stream t
    rw [hms]
    rcases hstream : received s t with _ | ⟨m, rest⟩
    · have hnone : ms = [] := by_contra fun hne => hall t (hiff.mp hne) hstream
      rw [hnone]
      exact fun m hm => by cases hm
    · have hopens := hs t
      rw [hstream] at hopens
      exact hopens

theorem opens_snapshot {s : ControlServer T} (hs : ∀ t, Opens (received s t))
    (state : ClientState T) (t : T) :
    Opens (received (s.stamp state (s.snapshotFor state)) t) := by
  rw [stamp_received]
  rcases hstream : received s t with _ | ⟨m, rest⟩
  · split
    · rintro m ⟨⟩
      rfl
    · exact fun m hm => by cases hm
  · have hopens := hs t
    rw [hstream] at hopens
    exact hopens

theorem opens_firstSnapshot {s : ControlServer T} (hs : ∀ t, Opens (received s t)) {t : T}
    (hcall : s.calls t = some .snapshot) :
    (∀ t', Opens (received (s.sendFirstSnapshot t) t')) ↔ Keeps s (.sendFirstSnapshot t) := by
  unfold ControlServer.sendFirstSnapshot
  dsimp only
  rcases hstate : (s.setCall t none).clients.get? t with _ | state
  · refine iff_of_true hs fun t' hreach => ?_
    have hhas : (s.setCall t none).clients.has t = true := hreach.2.2.1
    rw [KeyedMap.has_eq_false.mpr hstate] at hhas
    cases hhas
  · have hkey : state.transport = t := KeyedMap.key_of_get? hstate
    have hhas : s.clients.has t = true := KeyedMap.has_iff.mpr ⟨state, hstate⟩
    have hplain : isSnapshot (.clientCountChanged ((s.setCall t none).stamp state
        ((s.setCall t none).snapshotFor state)).transports.length) = false := rfl
    obtain ⟨hcount, -⟩ := broadcast_sends ((s.setCall t none).stamp state
      ((s.setCall t none).snapshotFor state)) (some t) hplain
    have hafter := hcount.opens_iff (opens_snapshot (s := s.setCall t none) hs state)
    refine hafter.trans (forall_congr' fun t' => ?_)
    have hlistening : Listening ((s.setCall t none).stamp state
        ((s.setCall t none).snapshotFor state)) t' ↔ Listening s t' :=
      OnlySent.listening (stamp_frame hstate _) t'
    have hreceived : t' ≠ t → received ((s.setCall t none).stamp state
        ((s.setCall t none).snapshotFor state)) t' = received s t' := by
      intro hne
      rw [stamp_received, hkey, if_neg fun hto => hne hto.1.symm, List.append_nil]
      rfl
    rw [hlistening]
    constructor
    · rintro h ⟨hlisten, -, -, hne⟩
      rw [← hreceived hne]
      exact h ⟨hlisten, fun heq => hne (Option.some.inj heq)⟩
    · rintro h ⟨hlisten, hne⟩
      have hne' : t' ≠ t := fun heq => hne (congrArg some heq)
      rw [hreceived hne']
      exact h ⟨hlisten, hcall, hhas, hne'⟩

/-- The streams stay as they should be exactly if nobody waiting is sent anything else. -/
theorem opens_step {s : ControlServer T} (hs : ∀ t, Opens (received s t)) (event : Event T) :
    (∀ s', step s event = some s' → ∀ t, Opens (received s' t)) ↔ Keeps s event := by
  have hnobody : (∀ t, ¬Reaches s event t) → Keeps s event :=
    fun h t hreach => absurd hreach (h t)
  have hsends : ∀ {s' : ControlServer T} {who : T → Prop}, Sends s s' who →
      (∀ t, who t ↔ Reaches s event t) →
      ((∀ t, Opens (received s' t)) ↔ Keeps s event) :=
    fun h hwho => (h.congr hwho).opens_iff hs
  cases event with
  | addClient t startSeq identity =>
    refine iff_of_true (fun s' hstep t' => ?_) (hnobody fun t' h => h.2)
    simp only [step] at hstep
    split at hstep
    · cases hstep
      have hsent : (s.addClient t startSeq identity).sent = s.sent :=
        (mintConnectionId_frame s).2.2.2
      unfold received
      rw [hsent]
      exact hs t'
    · cases hstep
  | subscribe t =>
    refine iff_of_true (fun s' hstep t' => ?_) (hnobody fun t' h => h.2)
    simp only [step] at hstep
    split at hstep
    · cases hstep
      unfold ControlServer.subscribe
      split <;> exact hs t'
    · cases hstep
  | sendFirstSnapshot t =>
    by_cases hcall : s.calls t = some .snapshot
    · simp only [step, if_pos hcall, Option.some.injEq, forall_eq']
      exact opens_firstSnapshot hs hcall
    · refine iff_of_true (fun s' hstep => ?_) (hnobody fun t' h => hcall h.2.1)
      simp only [step, if_neg hcall] at hstep
      cases hstep
  | closeTransport t =>
    simp only [step, Option.some.injEq, forall_eq']
    refine hsends (closeTransport_sends s t).1 fun t' => ?_
    simp only [Reaches, and_assoc, and_comm (a := Listening s t')]
  | removeClient t =>
    simp only [step, Option.some.injEq, forall_eq']
    refine hsends (cleanupClient_sends s t).1 fun t' => ?_
    simp only [Reaches, and_assoc, and_comm (a := Listening s t')]
  | modelChange prev next opts =>
    simp only [step, Option.some.injEq, forall_eq']
    exact hsends (modelChange_sends s prev next opts).1 fun t => and_left_comm
  | paneNotify =>
    simp only [step, Option.some.injEq, forall_eq']
    unfold ControlServer.broadcastPaneNotify
    split
    · next hempty =>
      -- with no client nothing is sent
      refine iff_of_true hs (hnobody fun t h => ?_)
      have hmem := mem_transports.mpr h.1.1
      rw [List.length_eq_zero_iff.mp hempty] at hmem
      cases hmem
    · exact hsends (broadcast_sends s none rfl).1 fun t => and_congr_right fun _ => by simp
  | broadcastError =>
    simp only [step, Option.some.injEq, forall_eq']
    exact hsends (broadcast_sends s none rfl).1 fun t => and_congr_right fun _ => by simp
  | broadcastErrorAndClose =>
    simp only [step, Option.some.injEq, forall_eq']
    exact hsends (broadcastErrorAndClose_sends s).1 fun t => (and_iff_left trivial).symm
  | sendCommandResponse t =>
    simp only [step, Option.some.injEq, forall_eq']
    exact hsends (sendTo_sends s t rfl) fun t' => and_comm
  | sendDirected t =>
    simp only [step, Option.some.injEq, forall_eq']
    exact hsends (sendTo_sends s t rfl) fun t' => and_comm
  | resyncRequest t =>
    refine iff_of_true (fun s' hstep t' => ?_) (hnobody fun t' h => h.2)
    cases hstep
    unfold ControlServer.handleResyncRequest
    split
    · exact hs t'
    · exact opens_snapshot hs _ t'

/-! ## Clients that wait -/

def Adds (event : Event T) (t : T) : Prop :=
  match event with
  | .addClient t' _ _ => t' = t
  | _ => False

/-- The event ends the wait of a client. -/
def Answers (event : Event T) (t : T) : Prop :=
  match event with
  | .sendFirstSnapshot t' | .resyncRequest t' => t' = t
  | _ => False

theorem mem_waitingAfter {waiting : Finset T} {event : Event T} {t : T} :
    t ∈ waitingAfter waiting event ↔ Adds event t ∨ ¬Answers event t ∧ t ∈ waiting := by
  cases event <;>
    simp [waitingAfter, Adds, Answers, Finset.mem_insert, Finset.mem_erase, eq_comm]

/-- Only a transport that is new is added, and it is sent nothing yet. -/
theorem adds_fresh {s s' : ControlServer T} {event : Event T} {t : T}
    (hstep : step s event = some s') (hadds : Adds event t) :
    s.startSeq t = none ∧ ¬Answers event t ∧ ¬Reaches s event t := by
  unfold Adds at hadds
  split at hadds
  · subst hadds
    exact ⟨(Option.ite_none_right_eq_some.mp hstep).1, id, fun h => h.2⟩
  · exact hadds.elim

/-- What a step does for one client: none comes to listen but the one that is added, an
answer begins its stream, and nothing else does that the step does not reach it with. -/
structure Continues (s : ControlServer T) (event : Event T) (s' : ControlServer T) (t : T) :
    Prop where
  listening : Listening s' t → Adds event t ∨ Listening s t
  calls : Listening s' t → s'.calls t = none → Answers event t ∨ ¬Adds event t ∧ s.calls t = none
  grows : ¬Answers event t → ∃ ms, received s' t = received s t ++ ms ∧
    (ms ≠ [] → Reaches s event t)
  answered : Answers event t → Listening s t → received s' t ≠ []

/-- A step that sends what it sends to those it reaches, and makes nobody listen. -/
theorem Sends.continues {s s' : ControlServer T} {who : T → Prop} (h : Sends s s' who)
    (event : Event T) (hwho : ∀ t, who t → Reaches s event t)
    (hlistening : ∀ t, Listening s' t → Listening s t) (hadds : ∀ t, ¬Adds event t)
    (hanswers : ∀ t, ¬Answers event t) (t : T) : Continues s event s' t where
  listening := fun hl => .inr (hlistening t hl)
  calls := fun _ hcall => .inr ⟨hadds t, h.calls ▸ hcall⟩
  grows := by
    obtain ⟨ms, hms, -, hto⟩ := h.stream t
    exact fun _ => ⟨ms, hms, fun hne => hwho t (hto.mp hne)⟩
  answered := fun hanswer => absurd hanswer (hanswers t)

/-- The snapshot that is sent to a client. -/
theorem snapshot_continues {s : ControlServer T} {t : T} {state : ClientState T}
    (hstate : s.clients.get? t = some state) (message : Nat → SessionProxyMessage) (t' : T) :
    (Listening (s.stamp state message) t' ↔ Listening s t') ∧
      (t' = t → Listening s t' → received (s.stamp state message) t' ≠ []) ∧
      (t' ≠ t → received (s.stamp state message) t' = received s t') := by
  have hkey : state.transport = t := KeyedMap.key_of_get? hstate
  refine ⟨OnlySent.listening (stamp_frame hstate _) t', fun heq hl => ?_, fun hne => ?_⟩
  · rw [stamp_received, hkey, if_pos ⟨heq.symm, heq ▸ hl.2⟩]
    simp
  · rw [stamp_received, hkey, if_neg fun hto => hne hto.1.symm, List.append_nil]

theorem continues_firstSnapshot {s : ControlServer T} {t : T} (hcall : s.calls t = some .snapshot)
    (t' : T) : Continues s (.sendFirstSnapshot t) (s.sendFirstSnapshot t) t' := by
  have hcalls : t ≠ t' → (s.setCall t none).calls t' = s.calls t' := fun hne => if_neg (Ne.symm hne)
  unfold ControlServer.sendFirstSnapshot
  dsimp only
  rcases hstate : (s.setCall t none).clients.get? t with _ | state
  · refine ⟨.inr, fun _ hnone => ?_, fun _ => ⟨[], (List.append_nil _).symm, (absurd rfl ·)⟩, ?_⟩
    · exact (eq_or_ne t t').imp id fun hne => ⟨id, hcalls hne ▸ hnone⟩
    · rintro rfl hl
      have hhas : (s.setCall t none).clients.has t = true := hl.1
      rw [KeyedMap.has_eq_false.mpr hstate] at hhas
      cases hhas
  · have hhas : s.clients.has t = true := KeyedMap.has_iff.mpr ⟨state, hstate⟩
    obtain ⟨hlistening, hfirst, hothers⟩ := snapshot_continues hstate
      ((s.setCall t none).snapshotFor state) t'
    obtain ⟨hcount, honly⟩ := broadcast_sends ((s.setCall t none).stamp state
      ((s.setCall t none).snapshotFor state)) (some t)
      (show isSnapshot (.clientCountChanged ((s.setCall t none).stamp state
        ((s.setCall t none).snapshotFor state)).transports.length) = false from rfl)
    obtain ⟨ms, hms, -, hto⟩ := hcount.stream t'
    refine ⟨fun hl => .inr (hlistening.mp ((honly.listening t').mp hl)), fun _ hnone => ?_, ?_, ?_⟩
    · refine (eq_or_ne t t').imp id fun hne => ⟨id, ?_⟩
      have hsame := congrFun hcount.calls t'
      exact (hcalls hne).symm.trans (hsame.symm.trans hnone)
    · intro hanswers
      have hne : t' ≠ t := fun heq => hanswers heq.symm
      refine ⟨ms, hms.trans (congrArg (· ++ ms) (hothers hne)), fun hsent => ?_⟩
      exact ⟨hlistening.mp (hto.mp hsent).1, hcall, hhas, hne⟩
    · intro heq hl hnil
      have hnonempty := hfirst heq.symm hl
      exact hnonempty (List.append_eq_nil_iff.mp (hms.symm.trans hnil)).1

theorem continues_step {s s' : ControlServer T} {event : Event T}
    (hstep : step s event = some s') (t : T) : Continues s event s' t := by
  cases event with
  | addClient t' startSeq identity =>
    obtain ⟨-, hsome⟩ := Option.ite_none_right_eq_some.mp hstep
    cases hsome
    obtain ⟨hclients, -, hclosed, hsent⟩ := mintConnectionId_frame s
    have hcalls : (s.addClient t' startSeq identity).calls t =
        if t = t' then some .binding else s.calls t := by
      show (if t = t' then some .binding else s.mintConnectionId.2.calls t) = _
      rw [mintConnectionId_calls]
    refine ⟨fun hl => ?_, fun _ hnone => .inr ?_, fun _ => ⟨[], ?_, (absurd rfl ·)⟩, nofun⟩
    · refine (eq_or_ne t' t).imp id fun hne => ?_
      have hhas : (s.addClient t' startSeq identity).clients.has t = s.clients.has t := by
        show (s.mintConnectionId.2.clients.set _).has t = _
        rw [hclients, KeyedMap.has_set]
        simp [hne]
      exact ⟨hhas ▸ hl.1, hclosed ▸ hl.2⟩
    · rw [hcalls] at hnone
      split at hnone
      · cases hnone
      · next hne => exact ⟨fun heq => hne heq.symm, hnone⟩
    · have hall : (s.addClient t' startSeq identity).sent = s.sent := hsent
      rw [List.append_nil, received, hall]
      rfl
  | subscribe t' =>
    obtain ⟨-, hsome⟩ := Option.ite_none_right_eq_some.mp hstep
    cases hsome
    have hframe : (∀ t, Listening (s.subscribe t') t ↔ Listening s t) ∧
        (s.subscribe t').sent = s.sent ∧ (s.subscribe t').calls t =
          if t = t' then if s.clients.has t' = true then some .snapshot else none
          else s.calls t := by
      unfold ControlServer.subscribe
      split
      · exact ⟨fun _ => Iff.rfl, rfl, rfl⟩
      · exact ⟨fun _ => Iff.rfl, rfl, rfl⟩
    obtain ⟨hlistening, hsent, hcalls⟩ := hframe
    -- `subscribe` hands on to the first snapshot, which is still to be sent
    refine ⟨fun hl => .inr ((hlistening t).mp hl), fun hl hnone => .inr ⟨id, ?_⟩,
      fun _ => ⟨[], ?_, (absurd rfl ·)⟩, nofun⟩
    · rw [hcalls] at hnone
      split at hnone
      · next heq =>
        have hhas := ((hlistening t).mp hl).1
        rw [heq] at hhas
        rw [if_pos hhas] at hnone
        cases hnone
      · exact hnone
    · rw [List.append_nil, received, hsent]
      rfl
  | sendFirstSnapshot t' =>
    obtain ⟨hcall, hsome⟩ := Option.ite_none_right_eq_some.mp hstep
    cases hsome
    exact continues_firstSnapshot hcall t
  | closeTransport t' =>
    cases hstep
    obtain ⟨hsends, hlistening⟩ := closeTransport_sends s t'
    exact hsends.continues (.closeTransport t')
      (fun t h => ⟨h.2.2.2.2, h.1, h.2.1, h.2.2.1, h.2.2.2.1⟩)
      (fun t h => ((hlistening t).mp h).2) (fun _ => id) (fun _ => id) t
  | removeClient t' =>
    cases hstep
    obtain ⟨hsends, hlistening⟩ := cleanupClient_sends s t'
    exact hsends.continues (.removeClient t') (fun t h => ⟨h.2.2, h.1, h.2.1⟩)
      (fun t h => ((hlistening t).mp h).2) (fun _ => id) (fun _ => id) t
  | modelChange prev next opts =>
    cases hstep
    obtain ⟨hsends, hlistening⟩ := modelChange_sends s prev next opts
    exact hsends.continues (.modelChange prev next opts) (fun t h => ⟨h.2.1, h.1, h.2.2⟩)
      (fun t => (hlistening t).mp) (fun _ => id) (fun _ => id) t
  | paneNotify =>
    cases hstep
    unfold ControlServer.broadcastPaneNotify
    split
    · exact (Sends.refl s).continues .paneNotify (fun _ => False.elim) (fun _ => id)
        (fun _ => id) (fun _ => id) t
    · obtain ⟨hsends, honly⟩ := broadcast_sends s none isSnapshot_notStateBearing
      exact hsends.continues .paneNotify (fun t h => ⟨h.1, trivial⟩)
        (fun t => (honly.listening t).mp) (fun _ => id) (fun _ => id) t
  | broadcastError =>
    cases hstep
    obtain ⟨hsends, honly⟩ := broadcast_sends s none isSnapshot_notStateBearing
    exact hsends.continues .broadcastError (fun t h => ⟨h.1, trivial⟩)
      (fun t => (honly.listening t).mp) (fun _ => id) (fun _ => id) t
  | broadcastErrorAndClose =>
    cases hstep
    obtain ⟨hsends, hlistening⟩ := broadcastErrorAndClose_sends s
    exact hsends.continues .broadcastErrorAndClose (fun t h => ⟨h, trivial⟩) hlistening
      (fun _ => id) (fun _ => id) t
  | sendCommandResponse t' =>
    cases hstep
    exact (sendTo_sends s t' isSnapshot_notStateBearing).continues (.sendCommandResponse t')
      (fun t h => ⟨h.2, h.1⟩) (fun t => ((sendTo_onlySent s t' _).listening t).mp) (fun _ => id)
      (fun _ => id) t
  | sendDirected t' =>
    cases hstep
    exact (sendTo_sends s t' isSnapshot_notStateBearing).continues (.sendDirected t')
      (fun t h => ⟨h.2, h.1⟩) (fun t => ((sendTo_onlySent s t' _).listening t).mp) (fun _ => id)
      (fun _ => id) t
  | resyncRequest t' =>
    cases hstep
    unfold ControlServer.handleResyncRequest
    split
    · next hnone =>
      refine ⟨.inr, fun _ hcall => .inr ⟨id, hcall⟩,
        fun _ => ⟨[], (List.append_nil _).symm, (absurd rfl ·)⟩, ?_⟩
      rintro rfl hl
      rw [Listening, KeyedMap.has_eq_false.mpr hnone] at hl
      exact absurd hl.1 Bool.false_ne_true
    · next state hstate =>
      obtain ⟨hlistening, hfirst, hothers⟩ := snapshot_continues hstate (s.snapshotFor state) t
      refine ⟨fun hl => .inr (hlistening.mp hl), fun _ hcall => .inr ⟨id, hcall⟩,
        fun hanswers => ⟨[], ?_, (absurd rfl ·)⟩, fun heq hl => hfirst heq.symm hl⟩
      rw [List.append_nil]
      exact hothers fun heq => hanswers heq.symm

/-- A client that listens waits exactly as long as its stream has not begun; when it waits, its
`addClient` has not ended. -/
structure Awaited (w : Watched T) : Prop where
  stream : ∀ t, Listening w.server t → (received w.server t = [] ↔ t ∈ w.waiting)
  call : ∀ t ∈ w.waiting, Listening w.server t → w.server.calls t ≠ none

namespace Awaited

variable {w w' : Watched T}

theorem step (h : Awaited w) (hcounted : Counted w.server) {event : Event T} (hC : Waits w event)
    (hstep : watch w event = some w') : Awaited w' := by
  obtain ⟨server, hserver, rfl⟩ := Option.map_eq_some_iff.mp hstep
  refine ⟨fun t hl => ?_, fun t hmem hl hnone => ?_⟩
  · obtain ⟨hbefore, -, hgrows, hanswered⟩ := continues_step hserver t
    dsimp only at hl ⊢
    rw [mem_waitingAfter]
    by_cases hadds : Adds event t
    · obtain ⟨hfresh, hanswers, hreaches⟩ := adds_fresh hserver hadds
      obtain ⟨ms, hms, hreach⟩ := hgrows hanswers
      have hnone : ms = [] := by_contra fun hne => hreaches (hreach hne)
      refine iff_of_true ?_ (.inl hadds)
      rw [hms, hnone, (hcounted.fresh t hfresh).1]
      rfl
    · have hold := (hbefore hl).resolve_left hadds
      by_cases hanswers : Answers event t
      · refine iff_of_false (hanswered hanswers hold) ?_
        exact fun hwaits => hwaits.elim hadds fun hwaits => hwaits.1 hanswers
      · obtain ⟨ms, hms, hreach⟩ := hgrows hanswers
        rw [hms, List.append_eq_nil_iff, h.stream t hold]
        refine ⟨fun hnil => .inr ⟨hanswers, hnil.1⟩, fun hwaits => ?_⟩
        obtain ⟨-, hwaiting⟩ := hwaits.resolve_left hadds
        exact ⟨hwaiting, by_contra fun hne => hC t hwaiting (hreach hne)⟩
  · obtain ⟨hbefore, hcalls, -, -⟩ := continues_step hserver t
    rcases hcalls hl hnone with hanswers | ⟨hadds, hcall⟩
    · rcases mem_waitingAfter.mp hmem with hadds | ⟨hno, -⟩
      · exact (adds_fresh hserver hadds).2.1 hanswers
      · exact hno hanswers
    · obtain ⟨-, hwaiting⟩ := (mem_waitingAfter.mp hmem).resolve_left hadds
      exact h.call t hwaiting ((hbefore hl).resolve_left hadds) hcall

/-- To wait is to have been sent nothing. -/
theorem keeps_iff (h : Awaited w) (event : Event T) : Keeps w.server event ↔ Waits w event := by
  constructor
  · exact fun hkeeps t hwaiting hreach => hkeeps t hreach ((h.stream t hreach.1).mpr hwaiting)
  · exact fun hC t hreach hnil => hC t ((h.stream t hreach.1).mp hnil) hreach

theorem contiguous (h : Awaited w) (hcounted : Counted w.server)
    (hopens : ∀ t, Opens (received w.server t)) : Contiguous w.server := by
  refine ⟨hcounted.streams_iff.mpr hopens, fun t hl hcall hnil => ?_⟩
  exact h.call t ((h.stream t hl).mp hnil) hl hcall

end Awaited

/-- In every state of a run every stream starts with the snapshot of its client and counts
up from there, and has begun when the client's `addClient` has ended, exactly if the run sends
nothing else to a client that waits. -/
theorem snapshot_first_iff (model : SessionModel) (events : List (Event T)) :
    (∀ done s, done <+: events → exec step (createControlServer model) done = some s →
        Contiguous s) ↔
      Along watch Waits ⟨createControlServer model, ∅⟩ events := by
  have hwatch : ∀ (w : Watched T) (event : Event T),
      (watch w event).map Watched.server = step w.server event := by
    intro w event
    rw [watch, Option.map_map]
    exact Option.map_id' ..
  have hruns : ∀ done, (exec watch ⟨createControlServer model, ∅⟩ done).map Watched.server =
      exec step (createControlServer model) done := exec_map hwatch _
  refine Iff.trans ?_ (prefixes_iff_along_of (Q := fun w => Contiguous w.server)
    (I := fun w => Counted w.server ∧ Awaited w ∧ ∀ t, Opens (received w.server t))
    (fun w h => h.2.1.contiguous h.1 h.2.2) ?_ ?_ ?_)
  · constructor
    · intro h done w hdone hrun
      exact h done w.server hdone (by rw [← hruns, hrun]; rfl)
    · intro h done s hdone hrun
      rw [← hruns] at hrun
      obtain ⟨w, hw, rfl⟩ := Option.map_eq_some_iff.mp hrun
      exact h done w hdone hw
  · rintro w event w' ⟨hcounted, hawaited, hopens⟩ hC hstep
    refine ⟨?_, hawaited.step hcounted hC hstep, ?_⟩
    all_goals obtain ⟨server, hserver, rfl⟩ := Option.map_eq_some_iff.mp hstep
    · exact hcounted.step hserver
    · exact (opens_step hopens event).mpr ((hawaited.keeps_iff event).mpr hC) server hserver
  · rintro w event ⟨hcounted, hawaited, hopens⟩ hC
    rw [← hawaited.keeps_iff, ← opens_step hopens event] at hC
    push Not at hC
    obtain ⟨server, hserver, t, hnot⟩ := hC
    refine ⟨⟨server, waitingAfter w.waiting event⟩, by rw [watch, hserver]; rfl, fun hc => hnot ?_⟩
    exact ((hcounted.step hserver).streams_iff.mp hc.streams) t
  · refine ⟨Counted.create model, ⟨fun t hl => ?_, nofun⟩, fun t m hm => ?_⟩
    · exact absurd hl.1 Bool.false_ne_true
    · cases hm

/-- A bell rings while a client waits for the microtask before its snapshot. -/
def bellBeforeSnapshot : List (Event Unit) :=
  [.addClient () 1 none, .subscribe (), .paneNotify, .sendFirstSnapshot ()]

theorem bell_before_snapshot : ∃ s, exec step (createControlServer emptyModel) bellBeforeSnapshot =
    some s ∧ ¬Contiguous s := by
  refine ⟨_, rfl, fun h => ?_⟩
  obtain ⟨-, message, hmessage, -⟩ := (h.streams () 1 rfl).first _ rfl
  cases hmessage

end TmuxccDriver.Runtime.Serve
