import Mathlib.Data.Fintype.Basic
import TmuxccDriver.Runtime.Serve

/-!
# The registries of a session proxy

`addClient` of `session-proxy.ts` enters a transport in the client set of the control server,
in the flow controller and in the demux, at different awaits; a close handler takes it out of
what it knows of. Any send call may throw, on an open transport as well as on a closed one. A
throw cleans the client up where the server catches it, in the middle of the loop that sends.

Results:
1. `Fewer`: what sends and cleanups leave alone.
2. `tellCount_counts`: a loop whose last call alone throws tells every client the count.
3. `Registered`: the invariant of a run in which no transport closes while it is added, and no
   count goes stale.
4. `Lost`: a transport that closes while it is added is never taken out again.
5. `no_ghost_clients`: the registries of the runs that have settled.
-/

namespace TmuxccDriver.Runtime.Registries
open TmuxccDriver.Lib TmuxccDriver.Protocol TmuxccDriver.State
open TmuxccDriver.Runtime.Serve

variable {T : Type} [DecidableEq T]

/-- The server, and how many send calls it has made. `left` are the states of the clients that
have been cleaned up: a loop over a copy of the clients goes on with them. -/
structure Sending (T : Type) extends ControlServer T where
  attempts : Nat
  left : List (ClientState T)

/-- `flowClients` are the client keys of the flow controller, `attached` the transports of
the demux, `hooked` those with a close handler of the session proxy. A transport is in
`resuming` when the server has added it and `addClient` of the session proxy has still to go
on. -/
structure SessionProxy (T : Type) where
  server : Sending T
  flowClients : Finset T
  attached : Finset T
  hooked : Finset T
  resuming : Finset T

def createSessionProxy (model : SessionModel) : SessionProxy T where
  server := { createControlServer model with attempts := 0, left := [] }
  flowClients := ∅
  attached := ∅
  hooked := ∅
  resuming := ∅

/-! ## Sends that may throw -/

section Throws
variable (throws : Nat → Bool)

/-- One send call, with the next number of the client. A throw has sent nothing. -/
def attempt (s : Sending T) (state : ClientState T) (message : Nat → SessionProxyMessage) :
    Sending T :=
  { s with
    toControlServer :=
      if throws s.attempts then
        { s.toControlServer with
          clients := s.clients.set { state with nextSeq := state.nextSeq + 1 } }
      else s.stamp state message
    attempts := s.attempts + 1 }

/-- `_cleanupClient`, with the loop that tells the others. -/
def cleanupWith (tell : Sending T → Sending T) (s : Sending T) (transport : T) : Sending T :=
  match s.clients.get? transport with
  | none => s
  | some state =>
    let s := { s with
      toControlServer := s.forget transport state.connectionId, left := state :: s.left }
    if 0 < s.transports.length then tell s else s

/-- A send whose throw is caught, in the turn of a client that is still registered. -/
def trySend (cleanup : Sending T → T → Sending T) (message : SessionProxyMessage)
    (s : Sending T) (transport : T) : Sending T :=
  match s.clients.get? transport with
  | none => s
  | some state =>
    let sent := attempt throws s state fun _ => message
    if throws s.attempts then cleanup sent transport else sent

/-- `broadcastClientCountTo`; the count is read once. A cleanup in the loop runs the same loop
for one client less, so that there are at most as many within each other as clients. -/
def tellCount : Nat → Sending T → Option T → Sending T
  | 0, s, _ => s
  | depth + 1, s, exclude =>
    (s.transports.filter fun t => some t ≠ exclude).foldl
      (trySend throws (cleanupWith fun s => tellCount depth s none)
        (.clientCountChanged s.transports.length)) s

def broadcastClientCountTo (s : Sending T) (exclude : Option T) : Sending T :=
  tellCount throws (s.transports.length + 1) s exclude

def cleanupClient (s : Sending T) (transport : T) : Sending T :=
  cleanupWith (fun s => broadcastClientCountTo throws s none) s transport

/-- `sendDirected`, `sendCommandResponse` and `sendCommandError`. -/
def sendTo (message : SessionProxyMessage) (s : Sending T) (transport : T) : Sending T :=
  trySend throws (cleanupClient throws) message s transport

/-- `broadcastError` and `_broadcastPaneNotify`. -/
def broadcast (message : SessionProxyMessage) (s : Sending T) : Sending T :=
  s.transports.foldl (sendTo throws message) s

/-- The deltas of one client, one send call each; a throw ends the handler. -/
def sendDeltas (transport : T) : List SessionProxyMessage → Sending T → Sending T
  | [], s => s
  | delta :: deltas, s =>
    match s.clients.get? transport with
    | none => s
    | some state =>
      let sent := attempt throws s state fun _ => delta
      if throws s.attempts then sent else sendDeltas transport deltas sent

/-- The model-change handler of one client; the pipeline goes on with the next one after a
throw. -/
def onModelChange (prev next : SessionModel) (opts : T → DiffOptions) (s : Sending T)
    (transport : T) : Sending T :=
  match s.clients.get? transport with
  | none => s
  | some state =>
    sendDeltas throws transport
      (diffModel prev next { opts transport with clientId := state.identity }) s

/-- The throw of a resync goes to the transport's dispatch. -/
def handleResyncRequest (s : Sending T) (transport : T) : Sending T :=
  match s.clients.get? transport with
  | none => s
  | some state => attempt throws s state (s.snapshotFor state)

/-- The error of `broadcastErrorAndClose`, for one entry of the copy of the clients: its throw is
ignored, and a client that a failing send took out meanwhile is told as well. -/
def farewell (s : Sending T) (transport : T) : Sending T :=
  match s.clients.get? transport with
  | some state => attempt throws s state fun _ => .notStateBearing
  | none =>
    match s.left.find? fun state => state.transport = transport with
    | none => s
    | some state =>
      { s with
        sent := if throws s.attempts ∨ transport ∈ s.closed then s.sent
          else s.sent ++ [⟨transport, state.nextSeq, .notStateBearing⟩]
        attempts := s.attempts + 1 }

end Throws

namespace SessionProxy

variable (throws : Nat → Bool) (p : SessionProxy T)

/-! ## Closing -/

/-- The close handler of the control server. -/
def serverClosed (transport : T) : SessionProxy T :=
  if transport ∈ p.server.hooked then { p with server := cleanupClient throws p.server transport }
  else p

/-- The close handler of the session proxy. -/
def proxyClosed (transport : T) : SessionProxy T :=
  if transport ∈ p.hooked then
    { p with
      attached := p.attached.erase transport
      flowClients := p.flowClients.erase transport
      server := cleanupClient throws p.server transport }
  else p

/-- The transport closes, from either end; the handlers run in the order in which they were
registered. -/
def closeTransport (transport : T) : SessionProxy T :=
  if transport ∈ p.server.closed then p
  else
    { p with server := { p.server with closed := insert transport p.server.closed } }
      |>.serverClosed throws transport |>.proxyClosed throws transport

/-- One turn of `broadcastErrorAndClose`. -/
def sayFarewell (transport : T) : SessionProxy T :=
  { p with server := farewell throws p.server transport }.closeTransport throws transport

def broadcastErrorAndClose : SessionProxy T :=
  p.server.transports.foldl (sayFarewell throws) p

/-! ## Adding a client -/

/-- The server has added the client; its caller goes on in a microtask. -/
def returned (transport : T) : SessionProxy T :=
  { p with resuming := insert transport p.resuming }

/-- `server.addClient` up to the microtask. -/
def subscribe (transport : T) : SessionProxy T :=
  let subscribed := { p with
    server := { p.server with toControlServer := p.server.toControlServer.subscribe transport } }
  if p.server.clients.has transport then subscribed else subscribed.returned transport

/-- The rest of `server.addClient`; a throw of the snapshot rejects it. -/
def sendFirstSnapshot (transport : T) : SessionProxy T :=
  let server := { p.server with toControlServer := p.server.setCall transport none }
  match server.clients.get? transport with
  | none => { p with server }.returned transport
  | some state =>
    let sent := attempt throws server state (server.snapshotFor state)
    if throws server.attempts then { p with server := sent }
    else
      { p with server := broadcastClientCountTo throws sent (some transport) }.returned transport

/-- The rest of `addClient` of the session proxy. -/
def resume (transport : T) : SessionProxy T :=
  { p with
    flowClients := insert transport p.flowClients
    attached := insert transport p.attached
    hooked := insert transport p.hooked
    resuming := p.resuming.erase transport }

end SessionProxy

/-! ## Runs -/

inductive Event (T : Type)
  | addClient (transport : T) (startSeq : Nat) (identity : Option String)
  | subscribe (transport : T)
  | sendFirstSnapshot (transport : T)
  | resume (transport : T)
  | closeTransport (transport : T)
  | modelChange (prev next : SessionModel) (opts : T → DiffOptions)
  | paneNotify
  | broadcastError
  | broadcastErrorAndClose
  | sendDirected (transport : T)
  | resyncRequest (transport : T)

/-- One event; a transport is added once. -/
def step (throws : Nat → Bool) (p : SessionProxy T) : Event T → Option (SessionProxy T)
  | .addClient transport startSeq identity =>
    if p.server.startSeq transport = none then
      some { p with server := { p.server with
        toControlServer := p.server.toControlServer.addClient transport startSeq identity } }
    else none
  | .subscribe transport =>
    if p.server.calls transport = some .binding then some (p.subscribe transport) else none
  | .sendFirstSnapshot transport =>
    if p.server.calls transport = some .snapshot then
      some (p.sendFirstSnapshot throws transport)
    else none
  | .resume transport => if transport ∈ p.resuming then some (p.resume transport) else none
  | .closeTransport transport => some (p.closeTransport throws transport)
  | .modelChange prev next opts =>
    some { p with
      server := p.server.handlers.values.foldl (onModelChange throws prev next opts)
        { p.server with model := next } }
  | .paneNotify => some { p with server := broadcast throws .notStateBearing p.server }
  | .broadcastError => some { p with server := broadcast throws .notStateBearing p.server }
  | .broadcastErrorAndClose => some (p.broadcastErrorAndClose throws)
  | .sendDirected transport =>
    some { p with server := sendTo throws .notStateBearing p.server transport }
  | .resyncRequest transport =>
    some { p with server := handleResyncRequest throws p.server transport }

/-- `addClient` has been called for the transport and has not returned. -/
def Pending (p : SessionProxy T) (transport : T) : Prop :=
  p.server.calls transport ≠ none ∨ transport ∈ p.resuming

instance (p : SessionProxy T) (transport : T) : Decidable (Pending p transport) :=
  inferInstanceAs (Decidable (_ ∨ _))

def Settled (p : SessionProxy T) : Prop := ∀ transport, ¬Pending p transport

instance [Fintype T] (p : SessionProxy T) : Decidable (Settled p) :=
  inferInstanceAs (Decidable (∀ transport, ¬Pending p transport))

/-- The count that a message carries. -/
def countOf : SessionProxyMessage → Option Nat
  | .clientCountChanged count => some count
  | .snapshot message => message.attachedClientCount
  | _ => none

/-- The last attached-client count of a stream. -/
def lastCount (stream : List (Sent T)) : Option Nat :=
  (stream.filterMap fun m => countOf m.message).getLast?

/-- Every client was told last how many there are. -/
def Counts (s : ControlServer T) : Prop :=
  ∀ transport ∈ s.transports, lastCount (received s transport) = some s.transports.length

/-! ## What a step must meet -/

/-- A transport is open when it is added, and it does not close before it has been added. -/
def OpenWhileAdded (p : SessionProxy T) : Event T → Prop
  | .addClient transport .. => transport ∉ p.server.closed
  | .closeTransport transport => transport ∉ p.server.closed → ¬Pending p transport
  | .broadcastErrorAndClose =>
    ∀ transport ∈ p.server.transports, transport ∉ p.server.closed → ¬Pending p transport
  | _ => True

instance (p : SessionProxy T) : (event : Event T) → Decidable (OpenWhileAdded p event)
  | .addClient t .. => inferInstanceAs (Decidable (t ∉ p.server.closed))
  | .closeTransport t => inferInstanceAs (Decidable (t ∉ p.server.closed → ¬Pending p t))
  | .broadcastErrorAndClose => inferInstanceAs
    (Decidable (∀ t ∈ p.server.transports, t ∉ p.server.closed → ¬Pending p t))
  | .subscribe _ | .sendFirstSnapshot _ | .resume _ | .modelChange .. | .paneNotify
  | .broadcastError | .sendDirected _ | .resyncRequest _ => .isTrue trivial

section Throws
variable (throws : Nat → Bool)

/-- Of the calls of a loop that tells a count, from call `k` on, only the last one may throw, and
what follows its cleanup is `rest`. -/
def LastThrows (rest : Nat → Prop) : (told : Nat) → (k : Nat) → Prop
  | 0, _ => True
  | told + 1, k =>
    (∀ i < told, throws (k + i) = false) ∧ (throws (k + told) = true → rest (k + told + 1))

/-- The loop that tells all of so many clients a count, and every loop within it. -/
def Calm : (clients : Nat) → (k : Nat) → Prop
  | 0 => fun _ => True
  | clients + 1 => LastThrows throws (Calm clients) (clients + 1)

instance {rest : Nat → Prop} [DecidablePred rest] (told k : Nat) :
    Decidable (LastThrows throws rest told k) := by
  cases told with
  | zero => exact .isTrue trivial
  | succ told => exact inferInstanceAs (Decidable (_ ∧ _))

instance decidableCalm : ∀ clients k, Decidable (Calm throws clients k)
  | 0, _ => .isTrue trivial
  | clients + 1, k =>
    have : DecidablePred (Calm throws clients) := decidableCalm clients
    inferInstanceAs (Decidable (LastThrows throws _ (clients + 1) k))

/-- The cleanup of a client, with send call `k` as the next one, tells all others. -/
def CleanupCalm (s : Sending T) (transport : T) (k : Nat) : Prop :=
  s.clients.has transport = true → Calm throws (s.transports.length - 1) k

instance (s : Sending T) (transport : T) (k : Nat) : Decidable (CleanupCalm throws s transport k) :=
  inferInstanceAs (Decidable (_ → _))

/-- A send to the client that throws is followed by such a cleanup. -/
def SendCalm (s : Sending T) (transport : T) : Prop :=
  throws s.attempts = true → CleanupCalm throws s transport (s.attempts + 1)

instance (s : Sending T) (transport : T) : Decidable (SendCalm throws s transport) :=
  inferInstanceAs (Decidable (_ → _))

/-- No count goes stale: the first snapshot does not throw, and a loop that tells a count is cut
short by no throw. -/
def CountsReach (p : SessionProxy T) : Event T → Prop
  | .sendFirstSnapshot transport =>
    p.server.clients.has transport = true →
      throws p.server.attempts = false ∧
        LastThrows throws (Calm throws (p.server.transports.length - 1))
          (p.server.transports.length - 1) (p.server.attempts + 1)
  | .closeTransport transport => CleanupCalm throws p.server transport p.server.attempts
  | .paneNotify | .broadcastError =>
    Along (fun s t => some (sendTo throws .notStateBearing s t)) (SendCalm throws)
      p.server p.server.transports
  | .broadcastErrorAndClose =>
    Along (fun p t => some (p.sayFarewell throws t))
      (fun p t => CleanupCalm throws p.server t (p.server.attempts + 1)) p p.server.transports
  | .sendDirected transport => SendCalm throws p.server transport
  | _ => True

instance (p : SessionProxy T) : (event : Event T) → Decidable (CountsReach throws p event)
  | .sendFirstSnapshot _ => inferInstanceAs (Decidable (_ → _))
  | .closeTransport t => inferInstanceAs (Decidable (CleanupCalm throws p.server t _))
  | .paneNotify | .broadcastError => decidableAlong ..
  | .broadcastErrorAndClose => decidableAlong ..
  | .sendDirected t => inferInstanceAs (Decidable (SendCalm throws p.server t))
  | .addClient .. | .subscribe _ | .resume _ | .modelChange .. | .resyncRequest _ =>
    .isTrue trivial

/-- What every step must meet. -/
def Admits (p : SessionProxy T) (event : Event T) : Prop :=
  OpenWhileAdded p event ∧ CountsReach throws p event

instance (p : SessionProxy T) (event : Event T) : Decidable (Admits throws p event) :=
  inferInstanceAs (Decidable (_ ∧ _))

end Throws

/-! ## Counts -/

omit [DecidableEq T] in
theorem lastCount_append (stream : List (Sent T)) (m : Sent T) :
    lastCount (stream ++ [m]) = (countOf m.message).or (lastCount stream) := by
  unfold lastCount
  rw [List.filterMap_append]
  cases hcount : countOf m.message <;> simp [hcount]

theorem countOf_delta {prev next : SessionModel} {opts : DiffOptions}
    {delta : SessionProxyMessage} (h : delta ∈ diffModel prev next opts) :
    countOf delta = none := by
  unfold countOf
  split
  · next count =>
    have hsession : .clientCountChanged count ∉ sessionRenamed prev next := by
      unfold sessionRenamed
      split
      · split <;> simp
      · simp
    have hfocus : .clientCountChanged count ∉ focusChanged prev next := by
      unfold focusChanged
      split <;> simp
    simp [diffModel, onKeptPane, onKeptWindow, windowAddedOf, paneOpenedOf, layoutUpdatedOf,
      paneMovedOf, paneResizedOf, paneModeChangedOf, paneLabelChangedOf, panePolicyChangedOf,
      paneDeadChangedOf, paneTitleChangedOf, windowRenamedOf, windowSyncChangedOf,
      windowMonitorActivityChangedOf, windowMonitorSilenceChangedOf, paneClosedOf, windowClosedOf,
      hsession, hfocus, Option.bind_eq_some_iff] at h
  · exact absurd h not_snapshot_mem_diffModel
  · rfl

theorem OnlySent.has {s s' : ControlServer T} (h : OnlySent s s') (t : T) :
    s'.clients.has t = s.clients.has t := by
  obtain ⟨clients, sent, rfl, hclients⟩ := h
  have hsome := congrArg Option.isSome (hclients t)
  rwa [Option.isSome_map, Option.isSome_map] at hsome

theorem OnlySent.mem_transports {s s' : ControlServer T} (h : OnlySent s s') (t : T) :
    t ∈ s'.transports ↔ t ∈ s.transports := by
  rw [Serve.mem_transports, Serve.mem_transports, OnlySent.has h]

omit [DecidableEq T] in
/-- Two servers with the same clients count the same. -/
theorem length_transports {s s' : ControlServer T} (h : ∀ t, t ∈ s'.transports ↔ t ∈ s.transports) :
    s'.transports.length = s.transports.length :=
  ((List.perm_ext_iff_of_nodup s'.clients.nodup s.clients.nodup).mpr h).length_eq

/-- What a client was told last, after one message to a client. -/
theorem lastCount_stamp {s : ControlServer T} {t : T} {state : ClientState T}
    (hstate : s.clients.get? t = some state) (hopen : t ∉ s.closed)
    (message : Nat → SessionProxyMessage) (t' : T) :
    lastCount (received (s.stamp state message) t') =
      if t' = t then (countOf (message state.nextSeq)).or (lastCount (received s t))
      else lastCount (received s t') := by
  have hkey : state.transport = t := KeyedMap.key_of_get? hstate
  rw [stamp_received, hkey]
  by_cases ht : t' = t
  · subst ht
    rw [if_pos ⟨rfl, hopen⟩, if_pos rfl, lastCount_append]
  · rw [if_neg fun h => ht h.1.symm, if_neg ht, List.append_nil]

theorem lastCount_sendTo {s : ControlServer T} {t : T} (ht : t ∈ s.transports)
    (hopen : t ∉ s.closed) (message : Nat → SessionProxyMessage) (t' : T) :
    ∃ seq, lastCount (received (s.sendTo t message) t') =
      if t' = t then (countOf (message seq)).or (lastCount (received s t))
      else lastCount (received s t') := by
  obtain ⟨state, hstate⟩ := KeyedMap.has_iff.mp (Serve.mem_transports.mp ht)
  refine ⟨state.nextSeq, ?_⟩
  unfold ControlServer.sendTo
  rw [hstate]
  exact lastCount_stamp hstate hopen message t'

/-- The clients are open. -/
def Open (s : ControlServer T) : Prop := ∀ t ∈ s.transports, t ∉ s.closed

theorem Open.sent {s s' : ControlServer T} (h : Open s) (honly : OnlySent s s') : Open s' := by
  intro t ht
  have hmem := (OnlySent.mem_transports honly t).mp ht
  obtain ⟨clients, sent, rfl, -⟩ := honly
  exact h t hmem

/-- After the loop of a count broadcast every client in it was told the count. -/
theorem foldl_count {s : ControlServer T} (hs : Open s) (count : Nat) (ts : List T)
    (hts : ∀ t ∈ ts, t ∈ s.transports) :
    let after := ts.foldl (fun s t => s.sendTo t fun _ => .clientCountChanged count) s
    OnlySent s after ∧ (∀ t ∈ ts, lastCount (received after t) = some count) ∧
      ∀ t, t ∉ ts → lastCount (received after t) = lastCount (received s t) := by
  refine foldl_done (P := fun done s' => OnlySent s s' ∧
    (∀ t ∈ done, lastCount (received s' t) = some count) ∧
    ∀ t, t ∉ done → lastCount (received s' t) = lastCount (received s t))
    ⟨OnlySent.refl s, fun _ h => absurd h List.not_mem_nil, fun _ _ => rfl⟩
    fun done t s' ht ⟨honly, htold, hrest⟩ => ?_
  have hmem := (OnlySent.mem_transports honly t).mpr (hts t ht)
  have hopen := hs.sent honly t hmem
  refine ⟨honly.trans (sendTo_onlySent s' t _), fun t' ht' => ?_, fun t' ht' => ?_⟩
  · obtain ⟨seq, hlast⟩ := lastCount_sendTo hmem hopen (fun _ => .clientCountChanged count) t'
    rw [hlast]
    split
    · rfl
    · next hne =>
      exact htold t' ((List.mem_append.mp ht').resolve_right fun h => hne (List.mem_singleton.mp h))
  · obtain ⟨seq, hlast⟩ := lastCount_sendTo hmem hopen (fun _ => .clientCountChanged count) t'
    rw [List.mem_append, List.mem_singleton, not_or] at ht'
    rw [hlast, if_neg ht'.2]
    exact hrest t' ht'.1

theorem counts_broadcast {s : ControlServer T} (hs : Open s) (exclude : Option T)
    (hexclude : ∀ t, exclude = some t → lastCount (received s t) = some s.transports.length) :
    OnlySent s (s.broadcastClientCountTo exclude) ∧ Counts (s.broadcastClientCountTo exclude) := by
  obtain ⟨honly, htold, hrest⟩ := foldl_count hs s.transports.length
    (s.transports.filter fun t => some t ≠ exclude) fun t ht => (List.mem_filter.mp ht).1
  have hsent : OnlySent s (s.broadcastClientCountTo exclude) := honly
  have hmem := OnlySent.mem_transports hsent
  refine ⟨honly, fun t ht => ?_⟩
  rw [length_transports hmem]
  have ht' := (hmem t).mp ht
  by_cases hex : some t = exclude
  · exact (hrest t fun h => by simp [hex] at h).trans (hexclude t hex.symm)
  · exact htold t (List.mem_filter.mpr ⟨ht', by simpa using hex⟩)

theorem addClient_calls (s : ControlServer T) (t : T) (startSeq : Nat) (identity : Option String)
    (t' : T) : (s.addClient t startSeq identity).calls t' =
      if t' = t then some .binding else s.calls t' := by
  have hmint : s.mintConnectionId.2.calls = s.calls := by
    unfold ControlServer.mintConnectionId
    split <;> rfl
  rw [← hmint]
  rfl

/-! ## What sends leave alone -/

/-- Clients may have gone; the calls in progress, the close handlers and the closed transports
are the same. -/
structure Fewer (s s' : ControlServer T) : Prop where
  has : ∀ t, s'.clients.has t = true → s.clients.has t = true
  calls : s'.calls = s.calls
  hooked : s'.hooked = s.hooked
  closed : s'.closed = s.closed

theorem OnlySent.fewer {s s' : ControlServer T} (h : OnlySent s s') : Fewer s s' := by
  have hhas := OnlySent.has h
  obtain ⟨clients, sent, rfl, -⟩ := h
  exact ⟨fun t ht => (hhas t).symm.trans ht, rfl, rfl, rfl⟩

namespace Fewer

variable {s s' s'' : ControlServer T}

theorem refl (s : ControlServer T) : Fewer s s := ⟨fun _ => id, rfl, rfl, rfl⟩

theorem trans (h : Fewer s s') (h' : Fewer s' s'') : Fewer s s'' :=
  ⟨fun t ht => h.has t (h'.has t ht), h'.calls.trans h.calls, h'.hooked.trans h.hooked,
    h'.closed.trans h.closed⟩

theorem opened (h : Fewer s s') (hs : Open s) : Open s' := fun t ht => by
  rw [h.closed]
  exact hs t (Serve.mem_transports.mpr (h.has t (Serve.mem_transports.mp ht)))

theorem forget (s : ControlServer T) (t : T) (connectionId : ConnectionId) :
    Fewer s (s.forget t connectionId) := by
  refine ⟨fun t' ht' => ?_, rfl, rfl, rfl⟩
  obtain ⟨state, hmem, hkey⟩ := KeyedMap.has_iff_mem.mp ht'
  exact KeyedMap.has_iff_mem.mpr ⟨state, (KeyedMap.mem_delete.mp hmem).1, hkey⟩

section Throws
variable (throws : Nat → Bool)

theorem attempt {s : Sending T} {t : T} {state : ClientState T}
    (hstate : s.clients.get? t = some state) (message : Nat → SessionProxyMessage) :
    OnlySent s.toControlServer (Registries.attempt throws s state message).toControlServer := by
  obtain ⟨clients, sent, hframe, hidentity⟩ := stamp_frame hstate message
  have hclients : (s.stamp state message).clients = clients := by rw [hframe]
  unfold Registries.attempt
  dsimp only
  split
  · exact ⟨clients, s.sent, by rw [← hclients]; rfl, hidentity⟩
  · exact ⟨clients, sent, hframe, hidentity⟩

theorem cleanupWith {tell : Sending T → Sending T}
    (htell : ∀ s : Sending T, Fewer s.toControlServer (tell s).toControlServer) (s : Sending T)
    (t : T) : Fewer s.toControlServer (Registries.cleanupWith tell s t).toControlServer := by
  unfold Registries.cleanupWith
  split
  · exact refl _
  · next state _ =>
    dsimp only
    split
    · exact (forget s.toControlServer t state.connectionId).trans (htell { s with
        toControlServer := s.forget t state.connectionId, left := state :: s.left })
    · exact forget s.toControlServer t state.connectionId

theorem foldl {α : Type} {f : Sending T → α → Sending T}
    (hf : ∀ (s : Sending T) a, Fewer s.toControlServer (f s a).toControlServer) (s : Sending T)
    (as : List α) : Fewer s.toControlServer (as.foldl f s).toControlServer :=
  foldl_keeps (P := fun s' : Sending T => Fewer s.toControlServer s'.toControlServer) (refl _)
    fun a s' _ hs => hs.trans (hf s' a)

theorem trySend {cleanup : Sending T → T → Sending T}
    (hcleanup : ∀ (s : Sending T) t, Fewer s.toControlServer (cleanup s t).toControlServer)
    (message : SessionProxyMessage) (s : Sending T) (t : T) :
    Fewer s.toControlServer (Registries.trySend throws cleanup message s t).toControlServer := by
  unfold Registries.trySend
  split
  · exact refl _
  · next state hstate =>
    have hsent := OnlySent.fewer (attempt throws hstate fun _ => message)
    dsimp only
    split
    · exact hsent.trans (hcleanup _ t)
    · exact hsent

theorem tellCount (depth : Nat) (s : Sending T) (exclude : Option T) :
    Fewer s.toControlServer (Registries.tellCount throws depth s exclude).toControlServer := by
  induction depth generalizing s exclude with
  | zero => exact refl _
  | succ depth ih => exact foldl (trySend throws (cleanupWith fun s => ih s none) _) s _

theorem cleanupClient (s : Sending T) (t : T) :
    Fewer s.toControlServer (Registries.cleanupClient throws s t).toControlServer :=
  cleanupWith (fun s => tellCount throws _ s none) s t

theorem sendTo (message : SessionProxyMessage) (s : Sending T) (t : T) :
    Fewer s.toControlServer (Registries.sendTo throws message s t).toControlServer :=
  trySend throws (cleanupClient throws) message s t

end Throws

end Fewer

section Throws
variable (throws : Nat → Bool)

theorem farewell_onlySent (s : Sending T) (t : T) :
    OnlySent s.toControlServer (farewell throws s t).toControlServer := by
  unfold farewell
  split
  · next state hstate => exact Fewer.attempt throws hstate _
  · split
    · exact OnlySent.refl _
    · exact ⟨s.clients, _, rfl, fun _ => rfl⟩

theorem sendDeltas_onlySent (t : T) (deltas : List SessionProxyMessage) (s : Sending T) :
    OnlySent s.toControlServer (sendDeltas throws t deltas s).toControlServer := by
  induction deltas generalizing s with
  | nil => exact OnlySent.refl _
  | cons delta deltas ih =>
    rw [sendDeltas]
    split
    · exact OnlySent.refl _
    · next state hstate =>
      have hsent := Fewer.attempt throws hstate fun _ => delta
      dsimp only
      split
      · exact hsent
      · exact hsent.trans (ih _)

theorem onModelChange_onlySent (prev next : SessionModel) (opts : T → DiffOptions)
    (s : Sending T) (t : T) :
    OnlySent s.toControlServer (onModelChange throws prev next opts s t).toControlServer := by
  unfold onModelChange
  split
  · exact OnlySent.refl _
  · exact sendDeltas_onlySent throws t _ s

theorem resync_onlySent (s : Sending T) (t : T) :
    OnlySent s.toControlServer (handleResyncRequest throws s t).toControlServer := by
  unfold handleResyncRequest
  split
  · exact OnlySent.refl _
  · next state hstate => exact Fewer.attempt throws hstate _

/-! ## Loops that tell a count -/

/-- A message without a count, sent or not, does not change what was told last. -/
theorem counts_attempt {s : Sending T} (hs : Open s.toControlServer)
    (hcounts : Counts s.toControlServer) {t : T} {state : ClientState T}
    (hstate : s.clients.get? t = some state) {message : Nat → SessionProxyMessage}
    (hplain : countOf (message state.nextSeq) = none) :
    Counts (attempt throws s state message).toControlServer := by
  have honly := Fewer.attempt throws hstate message
  have hclient := Serve.mem_transports.mpr (KeyedMap.has_iff.mpr ⟨state, hstate⟩)
  intro t' ht'
  rw [length_transports (OnlySent.mem_transports honly)]
  have hold := hcounts t' ((OnlySent.mem_transports honly t').mp ht')
  unfold attempt
  dsimp only
  split
  · exact hold
  · rw [lastCount_stamp hstate (hs t hclient), hplain]
    split
    · next heq => rw [← heq]; exact hold
    · exact hold

theorem counts_farewell {s : Sending T} (hs : Open s.toControlServer) {t : T}
    (hcounts : Counts s.toControlServer) : Counts (farewell throws s t).toControlServer := by
  unfold farewell
  split
  · next state hstate => exact counts_attempt throws hs hcounts hstate rfl
  · split
    · exact hcounts
    · next hnone _ state _ =>
      intro t' ht'
      have hne : t' ≠ t := by
        rintro rfl
        have hclient := Serve.mem_transports.mp ht'
        exact Bool.eq_false_iff.mp (KeyedMap.has_eq_false.mpr hnone) hclient
      have hsame := hcounts t' ht'
      show lastCount ((if _ then _ else _ : List (Sent T)).filter _) = _
      split
      · exact hsame
      · rw [List.filter_append, List.filter_cons_of_neg (by simpa using hne.symm), List.filter_nil,
          List.append_nil]
        exact hsame

theorem farewell_attempts {s : Sending T} {t : T} (hclient : s.clients.has t = true) :
    (farewell throws s t).attempts = s.attempts + 1 := by
  obtain ⟨state, hstate⟩ := KeyedMap.has_iff.mp hclient
  unfold farewell
  simp only [hstate]
  rfl

theorem counts_sendDeltas {t : T} {deltas : List SessionProxyMessage}
    (hplain : ∀ delta ∈ deltas, countOf delta = none) {s : Sending T} (hs : Open s.toControlServer)
    (hcounts : Counts s.toControlServer) :
    Counts (sendDeltas throws t deltas s).toControlServer := by
  induction deltas generalizing s with
  | nil => exact hcounts
  | cons delta deltas ih =>
    obtain ⟨hdelta, hdeltas⟩ := List.forall_mem_cons.mp hplain
    rw [sendDeltas]
    split
    · exact hcounts
    · next state hstate =>
      have hsent : Counts (attempt throws s state fun _ => delta).toControlServer :=
        counts_attempt throws hs hcounts hstate hdelta
      dsimp only
      split
      · exact hsent
      · exact ih hdeltas (hs.sent (Fewer.attempt throws hstate _)) hsent

theorem counts_onModelChange {prev next : SessionModel} {opts : T → DiffOptions} {s : Sending T}
    (hs : Open s.toControlServer) {t : T} (hcounts : Counts s.toControlServer) :
    Counts (onModelChange throws prev next opts s t).toControlServer := by
  unfold onModelChange
  split
  · exact hcounts
  · exact counts_sendDeltas throws (fun _ hdelta => countOf_delta hdelta) hs hcounts

/-- A snapshot carries the count. -/
theorem counts_resync {s : Sending T} (hs : Open s.toControlServer) {t : T}
    (hcounts : Counts s.toControlServer) :
    Counts (handleResyncRequest throws s t).toControlServer := by
  unfold handleResyncRequest
  split
  · exact hcounts
  · next state hstate =>
    have honly := Fewer.attempt throws hstate (s.snapshotFor state)
    have hclient := Serve.mem_transports.mpr (KeyedMap.has_iff.mpr ⟨state, hstate⟩)
    intro t' ht'
    rw [length_transports (OnlySent.mem_transports honly)]
    have hold := hcounts t' ((OnlySent.mem_transports honly t').mp ht')
    unfold attempt
    dsimp only
    split
    · exact hold
    · rw [lastCount_stamp hstate (hs t hclient)]
      split
      · rfl
      · exact hold

/-- Calls that do not throw are those of the server. -/
theorem foldl_quiet {s : Sending T} (cleanup : Sending T → T → Sending T)
    (message : SessionProxyMessage) {ts : List T} (hts : ∀ t ∈ ts, s.clients.has t = true)
    (hquiet : ∀ i < ts.length, throws (s.attempts + i) = false) :
    ts.foldl (trySend throws cleanup message) s =
      { s with
        toControlServer := ts.foldl (fun s t => s.sendTo t fun _ => message) s.toControlServer
        attempts := s.attempts + ts.length } := by
  induction ts generalizing s with
  | nil => rfl
  | cons t ts ih =>
    obtain ⟨state, hstate⟩ := KeyedMap.has_iff.mp (hts t List.mem_cons_self)
    have hfirst : throws s.attempts = false := hquiet 0 (Nat.succ_pos _)
    have hturn : trySend throws cleanup message s t =
        { s with
          toControlServer := s.sendTo t fun _ => message
          attempts := s.attempts + 1 } := by
      unfold trySend ControlServer.sendTo attempt
      simp only [hstate, hfirst, Bool.false_eq_true, if_false]
    have hhas := OnlySent.has (sendTo_onlySent s.toControlServer t fun _ => message)
    rw [List.foldl_cons, List.foldl_cons, hturn, ih]
    · rw [List.length_cons, Nat.add_right_comm, Nat.add_assoc]
    · exact fun t' ht' => (hhas t').trans (hts t' (List.mem_cons_of_mem _ ht'))
    · intro i hi
      have hlater := hquiet (i + 1) (Nat.succ_lt_succ hi)
      rwa [Nat.add_comm i 1, ← Nat.add_assoc] at hlater

/-- The clients without one of them. -/
theorem length_forget {s : ControlServer T} {t : T} (ht : t ∈ s.transports)
    (connectionId : ConnectionId) :
    (s.forget t connectionId).transports.length = s.transports.length - 1 := by
  rw [← List.length_erase_of_mem ht]
  refine ((List.perm_ext_iff_of_nodup (s.forget t connectionId).clients.nodup
    (s.clients.nodup.erase t)).mpr fun t' => ?_).length_eq
  rw [s.clients.nodup.mem_erase_iff]
  constructor
  · intro ht'
    obtain ⟨state, hmem, rfl⟩ := List.mem_map.mp ht'
    obtain ⟨hold, hne⟩ := KeyedMap.mem_delete.mp hmem
    exact ⟨hne, List.mem_map_of_mem hold⟩
  · rintro ⟨hne, hold⟩
    obtain ⟨state, hmem, rfl⟩ := List.mem_map.mp hold
    exact List.mem_map_of_mem (KeyedMap.mem_delete.mpr ⟨hmem, hne⟩)

end Throws

theorem serverClosed_calls (throws : Nat → Bool) (p : SessionProxy T) (t : T) :
    Fewer p.server.toControlServer (p.serverClosed throws t).server.toControlServer ∧
      (p.serverClosed throws t).resuming = p.resuming ∧
      (p.serverClosed throws t).flowClients = p.flowClients := by
  unfold SessionProxy.serverClosed
  split
  · exact ⟨Fewer.cleanupClient throws p.server t, rfl, rfl⟩
  · exact ⟨Fewer.refl _, rfl, rfl⟩

theorem proxyClosed_calls (throws : Nat → Bool) (p : SessionProxy T) (t : T) :
    Fewer p.server.toControlServer (p.proxyClosed throws t).server.toControlServer ∧
      (p.proxyClosed throws t).resuming = p.resuming ∧
      ∀ t' ≠ t, t' ∈ p.flowClients → t' ∈ (p.proxyClosed throws t).flowClients := by
  unfold SessionProxy.proxyClosed
  split
  · exact ⟨Fewer.cleanupClient throws p.server t, rfl,
      fun t' hne ht' => Finset.mem_erase.mpr ⟨hne, ht'⟩⟩
  · exact ⟨Fewer.refl _, rfl, fun _ _ => id⟩

/-- A close changes no call in progress, and opens nothing. -/
theorem closeTransport_calls (throws : Nat → Bool) (p : SessionProxy T) (t : T) :
    (p.closeTransport throws t).server.calls = p.server.calls ∧
      (p.closeTransport throws t).server.closed = insert t p.server.closed ∧
      (p.closeTransport throws t).resuming = p.resuming ∧
      ∀ t' ∈ p.server.closed, t' ∈ p.flowClients →
        t' ∈ (p.closeTransport throws t).flowClients := by
  unfold SessionProxy.closeTransport
  split
  · next hclosed => exact ⟨rfl, (Finset.insert_eq_of_mem hclosed).symm, rfl, fun _ _ => id⟩
  · next hopen =>
    dsimp only
    obtain ⟨hserver, hresuming, hflow⟩ := serverClosed_calls throws
      { p with server := { p.server with closed := insert t p.server.closed } } t
    obtain ⟨hproxy, hresuming', hflow'⟩ := proxyClosed_calls throws
      (SessionProxy.serverClosed throws
        { p with server := { p.server with closed := insert t p.server.closed } } t) t
    have hfewer := hserver.trans hproxy
    refine ⟨hfewer.calls, hfewer.closed, hresuming'.trans hresuming,
      fun t' ht' hmem => hflow' t' (fun heq => hopen (heq ▸ ht')) ?_⟩
    rw [hflow]
    exact hmem

section Throws
variable {throws : Nat → Bool}

/-- A loop whose last call alone may throw, with what its cleanup does. -/
theorem loop_counts {s : Sending T} (hs : Open s.toControlServer) (exclude : Option T)
    (rest : Nat → Prop) (hexclude : ∀ t, exclude = some t →
      lastCount (received s.toControlServer t) = some s.transports.length)
    (hcalls : LastThrows throws rest (s.transports.filter fun t => some t ≠ exclude).length
      s.attempts) {cleanup : Sending T → T → Sending T}
    (hcleanup : ∀ s' t, Open s'.toControlServer → s'.clients.has t = true →
      s'.transports.length = s.transports.length → rest s'.attempts →
        Counts (cleanup s' t).toControlServer) :
    Counts ((s.transports.filter fun t => some t ≠ exclude).foldl
      (trySend throws cleanup (.clientCountChanged s.transports.length)) s).toControlServer := by
  have hplain := (counts_broadcast hs exclude hexclude).2
  have hhas : ∀ t ∈ s.transports.filter fun t => some t ≠ exclude, s.clients.has t = true :=
    fun t ht => Serve.mem_transports.mp (List.mem_filter.mp ht).1
  have hall : (∀ i < (s.transports.filter fun t => some t ≠ exclude).length,
      throws (s.attempts + i) = false) →
      Counts ((s.transports.filter fun t => some t ≠ exclude).foldl
        (trySend throws cleanup (.clientCountChanged s.transports.length)) s).toControlServer := by
    intro hquiet
    rw [foldl_quiet throws cleanup _ hhas hquiet]
    exact hplain
  rcases List.eq_nil_or_concat (s.transports.filter fun t => some t ≠ exclude) with
    hnone | ⟨told, t, htold⟩
  · refine hall fun i hi => ?_
    rw [hnone] at hi
    exact absurd hi (Nat.not_lt_zero i)
  · rw [htold, List.concat_eq_append] at hcalls hall hhas ⊢
    rw [List.length_append, List.length_singleton] at hcalls hall
    obtain ⟨hquiet, hlast⟩ := hcalls
    rcases hthrows : throws (s.attempts + told.length) with _ | _
    · refine hall fun i hi => ?_
      rcases Nat.lt_succ_iff_lt_or_eq.mp hi with hlt | rfl
      · exact hquiet i hlt
      · exact hthrows
    · -- the last call throws, and its cleanup tells the others
      rw [List.foldl_append, foldl_quiet throws cleanup _
        (fun t' ht' => hhas t' (List.mem_append_left _ ht')) hquiet]
      obtain ⟨honly, -, -⟩ := foldl_count hs s.transports.length told fun t' ht' =>
        Serve.mem_transports.mpr (hhas t' (List.mem_append_left _ ht'))
      have hclient := (OnlySent.has honly t).trans
        (hhas t (List.mem_append_right _ (List.mem_singleton_self t)))
      obtain ⟨state, hstate⟩ := KeyedMap.has_iff.mp hclient
      have hsent := honly.trans (Fewer.attempt throws (s := { s with
        toControlServer := told.foldl
          (fun s' t => s'.sendTo t fun _ => .clientCountChanged s.transports.length)
          s.toControlServer
        attempts := s.attempts + told.length }) hstate
        fun _ => .clientCountChanged s.transports.length)
      rw [List.foldl_cons, List.foldl_nil, trySend]
      simp only [hstate, hthrows, if_true]
      exact hcleanup _ t (hs.sent hsent) ((OnlySent.has hsent t).trans
        (hhas t (List.mem_append_right _ (List.mem_singleton_self t))))
        (length_transports (OnlySent.mem_transports hsent)) (hlast hthrows)

/-- What is told after a client has gone. -/
theorem cleanupWith_counts {tell : Sending T → Sending T} {s : Sending T} {t : T}
    (hs : ∀ t' ∈ s.transports, t' ≠ t → t' ∉ s.closed) (hclient : s.clients.has t = true)
    (htell : ∀ s' : Sending T, Open s'.toControlServer →
      s'.transports.length = s.transports.length - 1 → s'.attempts = s.attempts →
      Counts (tell s').toControlServer) : Counts (cleanupWith tell s t).toControlServer := by
  obtain ⟨state, hstate⟩ := KeyedMap.has_iff.mp hclient
  unfold cleanupWith
  simp only [hstate]
  split
  · refine htell _ (fun t' ht' => ?_)
      (length_forget (Serve.mem_transports.mpr hclient) state.connectionId) rfl
    obtain ⟨state', hmem, rfl⟩ := List.mem_map.mp ht'
    obtain ⟨hold, hne⟩ := KeyedMap.mem_delete.mp hmem
    exact hs _ (List.mem_map_of_mem hold) hne
  · next hempty =>
    exact fun t' ht' => absurd (List.length_pos_of_mem ht') hempty

/-- A loop over all clients, and those within it. -/
theorem tellCount_counts (depth : Nat) {s : Sending T} (hs : Open s.toControlServer)
    (hdepth : s.transports.length < depth)
    (hcalm : Calm throws s.transports.length s.attempts) :
    Counts (tellCount throws depth s none).toControlServer := by
  induction depth generalizing s with
  | zero => exact absurd hdepth (Nat.not_lt_zero _)
  | succ depth ih =>
    have hfilter : (s.transports.filter fun t => some t ≠ none) = s.transports :=
      List.filter_eq_self.mpr fun _ _ => rfl
    rw [tellCount]
    refine loop_counts hs none (Calm throws (s.transports.length - 1)) (fun _ h => by cases h) ?_
      fun s' t hopen hclient hlength hrest => ?_
    · rw [hfilter]
      cases hlength : s.transports.length with
      | zero => trivial
      | succ n =>
        rw [hlength] at hcalm
        exact hcalm
    · refine cleanupWith_counts (fun t' ht' _ => hopen t' ht') hclient
        fun after hafter hleft hattempts => ih hafter ?_ ?_
      · have hpos := List.length_pos_of_mem (Serve.mem_transports.mpr hclient)
        omega
      · rw [hleft, hlength, hattempts]
        exact hrest

/-- The cleanup of a client tells all others how many are left. -/
theorem cleanup_counts {s : Sending T} {t : T}
    (hs : ∀ t' ∈ s.transports, t' ≠ t → t' ∉ s.closed) (hclient : s.clients.has t = true)
    (hcalm : CleanupCalm throws s t s.attempts) :
    Counts (cleanupClient throws s t).toControlServer := by
  refine cleanupWith_counts hs hclient fun after hafter hleft hattempts =>
    tellCount_counts _ hafter (Nat.lt_succ_self _) ?_
  rw [hleft, hattempts]
  exact hcalm hclient

theorem cleanup_gone (throws : Nat → Bool) (s : Sending T) (t : T) :
    (cleanupClient throws s t).clients.has t = false := by
  unfold cleanupClient cleanupWith
  split
  · next hnone => exact KeyedMap.has_eq_false.mpr hnone
  · next state hstate =>
    have hgone : (s.forget t state.connectionId).clients.has t = false := by
      refine Bool.eq_false_iff.mpr fun h => ?_
      obtain ⟨state', hmem, hkey⟩ := KeyedMap.has_iff_mem.mp h
      exact (KeyedMap.mem_delete.mp hmem).2 hkey
    dsimp only
    split
    · refine Bool.eq_false_iff.mpr fun h => ?_
      exact Bool.eq_false_iff.mp hgone ((Fewer.tellCount throws _ _ none).has t h)
    · exact hgone

/-- The snapshot of a new client, and the count for the others. -/
theorem firstSnapshot_counts {s : Sending T} (hs : Open s.toControlServer) {t : T}
    {state : ClientState T} (hstate : s.clients.get? t = some state)
    (hsnapshot : throws s.attempts = false)
    (hcalls : LastThrows throws (Calm throws (s.transports.length - 1))
      (s.transports.length - 1) (s.attempts + 1)) :
    Counts (broadcastClientCountTo throws (attempt throws s state (s.snapshotFor state))
      (some t)).toControlServer := by
  have hclient : s.clients.has t = true := KeyedMap.has_iff.mpr ⟨state, hstate⟩
  have hopen := hs t (Serve.mem_transports.mpr hclient)
  have honly := Fewer.attempt throws hstate (s.snapshotFor state)
  have hlength := length_transports (OnlySent.mem_transports honly)
  have hhas := OnlySent.has honly
  have hsent : (attempt throws s state (s.snapshotFor state)).toControlServer =
      s.stamp state (s.snapshotFor state) := if_neg (by simp [hsnapshot])
  have hothers : ((attempt throws s state (s.snapshotFor state)).transports.filter
      fun t' => some t' ≠ some t).length = s.transports.length - 1 := by
    rw [← List.length_erase_of_mem (Serve.mem_transports.mpr hclient)]
    refine ((List.perm_ext_iff_of_nodup (List.Nodup.filter _ (KeyedMap.nodup _))
      (s.clients.nodup.erase t)).mpr fun t' => ?_).length_eq
    have hmem := OnlySent.mem_transports honly t'
    rw [List.mem_filter, s.clients.nodup.mem_erase_iff, and_comm]
    exact and_congr (by simp) hmem
  rw [broadcastClientCountTo, tellCount]
  refine loop_counts (hs.sent honly) (some t) (Calm throws (s.transports.length - 1)) ?_ ?_
    fun s' t' hopen' hclient' hlength' hrest => ?_
  · rintro t' ⟨⟩
    rw [hlength, hsent, lastCount_stamp hstate hopen, if_pos rfl]
    rfl
  · rw [hothers]
    exact hcalls
  · rw [hlength] at hlength'
    refine cleanupWith_counts (fun t'' ht'' _ => hopen' t'' ht'') hclient'
      fun after hafter hleft hattempts => tellCount_counts _ hafter ?_ ?_
    · have hpos := List.length_pos_of_mem (Serve.mem_transports.mpr hclient')
      omega
    · rw [hleft, hlength', hattempts]
      exact hrest

end Throws

/-! ## Runs without a close in the gap -/

/-- Every client was told last how many there are, unless one waits for its first snapshot. -/
def Told (s : ControlServer T) : Prop :=
  (∃ t, s.clients.has t = true ∧ s.calls t ≠ none) ∨ Counts s

theorem Told.sent {s s' : ControlServer T} (h : Told s) (honly : OnlySent s s')
    (hcounts : Counts s → Counts s') : Told s' := by
  refine h.imp (fun ⟨t, hclient, hcall⟩ => ⟨t, (OnlySent.has honly t).trans hclient, ?_⟩) hcounts
  rwa [(OnlySent.fewer honly).calls]

/-- One message without a count to one client. -/
theorem sendTo_told {throws : Nat → Bool} {s : Sending T} (hs : Open s.toControlServer)
    (h : Told s.toControlServer) {message : SessionProxyMessage} (hplain : countOf message = none)
    {t : T} (hcalm : SendCalm throws s t) :
    Told (sendTo throws message s t).toControlServer := by
  unfold sendTo trySend
  split
  · exact h
  · next state hstate =>
    have honly := Fewer.attempt throws hstate fun _ => message
    have hclient : s.clients.has t = true := KeyedMap.has_iff.mpr ⟨state, hstate⟩
    dsimp only
    split
    · next hthrows =>
      refine .inr (cleanup_counts (fun t' ht' _ => hs.sent honly t' ht')
        ((OnlySent.has honly t).trans hclient) fun _ => ?_)
      rw [length_transports (OnlySent.mem_transports honly)]
      exact hcalm hthrows hclient
    · exact h.sent honly fun hcounts => counts_attempt throws hs hcounts hstate hplain

/-- The registries have no closed transport, and every client that has been added is in all of
them. -/
structure Registered (p : SessionProxy T) : Prop where
  opened : Open p.server.toControlServer
  pendingOpen : ∀ t, Pending p t → t ∉ p.server.closed
  serverHooked : ∀ t, p.server.clients.has t = true → p.server.calls t ≠ some .binding →
    t ∈ p.server.hooked
  flowOpen : ∀ t ∈ p.flowClients, t ∉ p.server.closed
  served : ∀ t, p.server.clients.has t = true → ¬Pending p t → t ∈ p.flowClients
  attached : p.attached = p.flowClients
  proxyHooked : ∀ t ∈ p.flowClients, t ∈ p.hooked
  told : Told p.server.toControlServer

namespace Registered

variable {p : SessionProxy T}

theorem create (model : SessionModel) : Registered (createSessionProxy model : SessionProxy T) where
  opened := fun _ h => absurd h List.not_mem_nil
  pendingOpen := fun _ _ => Finset.notMem_empty _
  serverHooked := fun _ h => by cases h
  flowOpen := fun t h => absurd h (Finset.notMem_empty t)
  served := fun _ h => by cases h
  attached := rfl
  proxyHooked := fun t h => absurd h (Finset.notMem_empty t)
  told := .inr fun _ h => absurd h List.not_mem_nil

/-- The server sends, and clients whose sends throw may leave it. -/
theorem fewer (h : Registered p) {s : Sending T}
    (hfewer : Fewer p.server.toControlServer s.toControlServer) (htold : Told s.toControlServer) :
    Registered { p with server := s } := by
  have hpending : ∀ t, Pending { p with server := s } t ↔ Pending p t := fun t => by
    unfold Pending
    rw [hfewer.calls]
  refine ⟨hfewer.opened h.opened, fun t ht => ?_, fun t ht hcall => ?_, fun t ht => ?_,
    fun t ht hsettled => ?_, h.attached, h.proxyHooked, htold⟩
  · rw [hfewer.closed]
    exact h.pendingOpen t ((hpending t).mp ht)
  · rw [hfewer.calls] at hcall
    rw [hfewer.hooked]
    exact h.serverHooked t (hfewer.has t ht) hcall
  · rw [hfewer.closed]
    exact h.flowOpen t ht
  · exact h.served t (hfewer.has t ht) fun hp => hsettled ((hpending t).mpr hp)

/-- The server sends messages that keep the counts. -/
theorem sent (h : Registered p) {s : Sending T}
    (honly : OnlySent p.server.toControlServer s.toControlServer)
    (hcounts : Counts p.server.toControlServer → Counts s.toControlServer) :
    Registered { p with server := s } :=
  h.fewer (OnlySent.fewer honly) (h.told.sent honly hcounts)

theorem addClient (h : Registered p) {t : T} (hopen : t ∉ p.server.closed) (startSeq : Nat)
    (identity : Option String) :
    Registered { p with server := { p.server with
      toControlServer := p.server.toControlServer.addClient t startSeq identity } } := by
  obtain ⟨hclients, hstarts, hclosed, -⟩ := mintConnectionId_frame p.server.toControlServer
  have hclosed' : (p.server.toControlServer.addClient t startSeq identity).closed =
      p.server.closed := hclosed
  have hhas : ∀ t', (p.server.toControlServer.addClient t startSeq identity).clients.has t' = true ↔
      t' = t ∨ p.server.clients.has t' = true := by
    intro t'
    show (p.server.mintConnectionId.2.clients.set _).has t' = true ↔ _
    rw [hclients, KeyedMap.has_set, Bool.or_eq_true, decide_eq_true_eq, eq_comm]
  have hcalls := addClient_calls p.server.toControlServer t startSeq identity
  have hhooked : (p.server.toControlServer.addClient t startSeq identity).hooked =
      p.server.hooked := by
    show p.server.mintConnectionId.2.hooked = _
    unfold ControlServer.mintConnectionId
    split <;> rfl
  have hpending : ∀ t', Pending { p with server := { p.server with
      toControlServer := p.server.toControlServer.addClient t startSeq identity } } t' ↔
      t' = t ∨ Pending p t' := by
    intro t'
    show (p.server.toControlServer.addClient t startSeq identity).calls t' ≠ none ∨ _ ↔ _
    rw [hcalls]
    by_cases ht : t' = t <;> simp [ht, Pending]
  refine ⟨fun t' ht' => ?_, fun t' ht' => ?_, fun t' ht' hcall => ?_, fun t' ht' => ?_,
    fun t' ht' hsettled => ?_, h.attached, h.proxyHooked, .inl ⟨t, ?_, ?_⟩⟩
  · rw [hclosed']
    rcases (hhas t').mp (Serve.mem_transports.mp ht') with rfl | hold
    · exact hopen
    · exact h.opened t' (Serve.mem_transports.mpr hold)
  · show t' ∉ (p.server.toControlServer.addClient t startSeq identity).closed
    rw [hclosed']
    rcases (hpending t').mp ht' with rfl | hold
    · exact hopen
    · exact h.pendingOpen t' hold
  · show t' ∈ (p.server.toControlServer.addClient t startSeq identity).hooked
    have hcall' : (if t' = t then some Await.binding else p.server.calls t') ≠ some .binding :=
      (hcalls t') ▸ hcall
    rw [hhooked]
    split at hcall'
    · exact absurd rfl hcall'
    · next hne => exact h.serverHooked t' (((hhas t').mp ht').resolve_left hne) hcall'
  · show t' ∉ (p.server.toControlServer.addClient t startSeq identity).closed
    rw [hclosed']
    exact h.flowOpen t' ht'
  · obtain ⟨hne, hold⟩ := not_or.mp fun hor => hsettled ((hpending t').mpr hor)
    exact h.served t' (((hhas t').mp ht').resolve_left hne) hold
  · exact (hhas t).mpr (.inl rfl)
  · show (p.server.toControlServer.addClient t startSeq identity).calls t ≠ none
    rw [hcalls, if_pos rfl]
    exact Option.some_ne_none _

/-- A call ends and its caller has still to go on; the transport is no client, or everything is
told. -/
theorem callEnded (h : Registered p) {t : T} (hpending : Pending p t) {s : Sending T}
    (hfewer : Fewer (p.server.setCall t none) s.toControlServer)
    (htold : Told s.toControlServer) (hhooked : s.clients.has t = true → t ∈ p.server.hooked) :
    Registered { p with server := s, resuming := insert t p.resuming } := by
  have hcall : ∀ t', s.calls t' = if t' = t then none else p.server.calls t' := fun t' =>
    congrFun hfewer.calls t'
  have hstill : ∀ t', Pending { p with server := s, resuming := insert t p.resuming } t' ↔
      Pending p t' := by
    intro t'
    show s.calls t' ≠ none ∨ t' ∈ insert t p.resuming ↔ _
    rw [hcall, Finset.mem_insert]
    by_cases ht : t' = t
    · subst ht
      exact iff_of_true (.inr (.inl rfl)) hpending
    · simp [ht, Pending]
  refine ⟨hfewer.opened h.opened, fun t' ht' => ?_, fun t' ht' hbinding => ?_, fun t' ht' => ?_,
    fun t' ht' hsettled => h.served t' (hfewer.has t' ht') fun hp => hsettled ((hstill t').mpr hp),
    h.attached, h.proxyHooked, htold⟩
  · show t' ∉ s.closed
    rw [hfewer.closed]
    exact h.pendingOpen t' ((hstill t').mp ht')
  · show t' ∈ s.hooked
    rw [hfewer.hooked]
    by_cases ht : t' = t
    · exact ht ▸ hhooked (ht ▸ ht')
    · refine h.serverHooked t' (hfewer.has t' ht') fun hold => hbinding ?_
      show s.calls t' = _
      rw [hcall, if_neg ht, hold]
  · show t' ∉ s.closed
    rw [hfewer.closed]
    exact h.flowOpen t' ht'

theorem subscribe (h : Registered p) {t : T} (hcall : p.server.calls t = some .binding) :
    Registered (p.subscribe t) := by
  by_cases hhas : p.server.clients.has t = true
  · have hserver : p.subscribe t = { p with server := { p.server with
        toControlServer := { p.server.setCall t (some .snapshot) with
          handlers := p.server.handlers.set t, hooked := insert t p.server.hooked } } } := by
      unfold SessionProxy.subscribe ControlServer.subscribe
      rw [if_pos hhas, if_pos hhas]
    rw [hserver]
    have hcalls : ∀ t', (p.server.setCall t (some .snapshot)).calls t' ≠ none ↔
        p.server.calls t' ≠ none := by
      intro t'
      show (if t' = t then _ else p.server.calls t') ≠ none ↔ _
      split
      · next heq => simp [heq, hcall]
      · rfl
    have hpending : ∀ t', (p.server.setCall t (some .snapshot)).calls t' ≠ none ∨ t' ∈ p.resuming ↔
        Pending p t' := fun t' => or_congr_left (hcalls t')
    refine ⟨h.opened, fun t' ht' => h.pendingOpen t' ((hpending t').mp ht'),
      fun t' ht' hbinding => ?_, h.flowOpen,
      fun t' ht' hsettled => h.served t' ht' fun hp => hsettled ((hpending t').mpr hp),
      h.attached, h.proxyHooked, .inl ⟨t, hhas, (hcalls t).mpr (by simp [hcall])⟩⟩
    have hbinding' : (if t' = t then some Await.snapshot else p.server.calls t') ≠ some .binding :=
      hbinding
    show t' ∈ insert t p.server.hooked
    split at hbinding'
    · next heq => exact heq ▸ Finset.mem_insert_self ..
    · exact Finset.mem_insert_of_mem (h.serverHooked t' ht' hbinding')
  · have hserver : p.subscribe t = { p with
        server := { p.server with toControlServer := p.server.setCall t none }
        resuming := insert t p.resuming } := by
      unfold SessionProxy.subscribe ControlServer.subscribe SessionProxy.returned
      rw [if_neg hhas, if_neg hhas]
    rw [hserver]
    refine h.callEnded (s := { p.server with toControlServer := p.server.setCall t none })
      (.inl (by simp [hcall])) (Fewer.refl _) (h.told.imp (fun ⟨t', hclient, hcall'⟩ => ?_) id)
      fun hclient => absurd hclient hhas
    refine ⟨t', hclient, ?_⟩
    have hne : t' ≠ t := fun heq => hhas (heq ▸ hclient)
    show (if t' = t then none else p.server.calls t') ≠ none
    rwa [if_neg hne]

theorem sendFirstSnapshot (h : Registered p) {throws : Nat → Bool} {t : T}
    (hcall : p.server.calls t = some .snapshot)
    (hreach : CountsReach throws p (.sendFirstSnapshot t)) :
    Registered (p.sendFirstSnapshot throws t) := by
  have hpending : Pending p t := .inl (by simp [hcall])
  unfold SessionProxy.sendFirstSnapshot
  dsimp only
  split
  · next hnone =>
    have hclient : ¬p.server.clients.has t = true := by
      have hget : p.server.clients.get? t = none := hnone
      rw [KeyedMap.has_eq_false.mpr hget]
      exact Bool.false_ne_true
    refine h.callEnded (s := { p.server with toControlServer := p.server.setCall t none })
      hpending (Fewer.refl _) (h.told.imp (fun ⟨t', ht', hcall'⟩ => ⟨t', ht', ?_⟩) id)
      fun hhas => absurd hhas hclient
    have hne : t' ≠ t := fun heq => hclient (heq ▸ ht')
    show (if t' = t then none else p.server.calls t') ≠ none
    rwa [if_neg hne]
  · next state hstate =>
    have hclient : p.server.clients.has t = true := KeyedMap.has_iff.mpr ⟨state, hstate⟩
    obtain ⟨hsnapshot, hcalls⟩ := hreach hclient
    rw [hsnapshot]
    have hopen : Open (p.server.setCall t none) := h.opened
    have hcounts := firstSnapshot_counts
      (s := { p.server with toControlServer := p.server.setCall t none }) hopen hstate hsnapshot
      hcalls
    refine h.callEnded hpending ((OnlySent.fewer (Fewer.attempt throws
      (s := { p.server with toControlServer := p.server.setCall t none }) hstate _)).trans
      (Fewer.tellCount throws _ _ _)) (.inr hcounts) fun _ => ?_
    exact h.serverHooked t hclient (by simp [hcall])

theorem resume (h : Registered p) {t : T} (hresuming : t ∈ p.resuming) :
    Registered (p.resume t) := by
  have hpending : ∀ t', Pending p t' → t' = t ∨ Pending (p.resume t) t' := by
    rintro t' (hcall | hmem)
    · exact .inr (.inl hcall)
    · by_cases ht : t' = t
      · exact .inl ht
      · exact .inr (.inr (Finset.mem_erase.mpr ⟨ht, hmem⟩))
  refine ⟨h.opened, fun t' ht' => h.pendingOpen t' ?_, h.serverHooked, fun t' ht' => ?_,
    fun t' ht' hsettled => ?_, ?_, fun t' ht' => ?_, h.told⟩
  · exact ht'.imp id Finset.mem_of_mem_erase
  · rcases Finset.mem_insert.mp ht' with rfl | hold
    · exact h.pendingOpen t' (.inr hresuming)
    · exact h.flowOpen t' hold
  · by_cases ht : t' = t
    · exact ht ▸ Finset.mem_insert_self ..
    · refine Finset.mem_insert_of_mem (h.served t' ht' fun hp => ?_)
      exact hsettled ((hpending t' hp).resolve_left ht)
  · show insert t p.attached = insert t p.flowClients
    rw [h.attached]
  · rcases Finset.mem_insert.mp ht' with rfl | hold
    · exact Finset.mem_insert_self ..
    · exact Finset.mem_insert_of_mem (h.proxyHooked t' hold)

/-- What a close does: the transport leaves every registry. -/
theorem closeTransport_eq (throws : Nat → Bool) (h : Registered p) {t : T}
    (hopen : t ∉ p.server.closed) (hsettled : ¬Pending p t) :
    p.closeTransport throws t =
      { p with
        server := cleanupClient throws
          { p.server with closed := insert t p.server.closed } t
        attached := p.attached.erase t
        flowClients := p.flowClients.erase t } := by
  have hagain := cleanup_gone throws { p.server with closed := insert t p.server.closed } t
  have htwice : cleanupClient throws (cleanupClient throws
      { p.server with closed := insert t p.server.closed } t) t =
      cleanupClient throws { p.server with closed := insert t p.server.closed } t := by
    have hnone := KeyedMap.has_eq_false.mp hagain
    generalize cleanupClient throws { p.server with closed := insert t p.server.closed } t = s at *
    unfold cleanupClient cleanupWith
    rw [hnone]
  unfold SessionProxy.closeTransport
  rw [if_neg hopen]
  by_cases hclient : p.server.clients.has t = true
  · have hflow : t ∈ p.flowClients := h.served t hclient hsettled
    have hcall : p.server.calls t ≠ some .binding := fun hcall => hsettled (.inl (by simp [hcall]))
    have hserver : t ∈ p.server.hooked := h.serverHooked t hclient hcall
    unfold SessionProxy.serverClosed SessionProxy.proxyClosed
    simp only [hserver, if_true, h.proxyHooked t hflow, htwice]
  · have hnone : cleanupClient throws { p.server with closed := insert t p.server.closed } t =
        { p.server with closed := insert t p.server.closed } := by
      unfold cleanupClient cleanupWith
      have hget : p.server.clients.get? t = none :=
        KeyedMap.has_eq_false.mp (Bool.eq_false_iff.mpr hclient)
      simp only [hget]
    unfold SessionProxy.serverClosed SessionProxy.proxyClosed
    simp only [hnone, ite_self]
    split
    · rfl
    · next hhooked =>
      have hflow : t ∉ p.flowClients := fun hmem => hhooked (h.proxyHooked t hmem)
      rw [h.attached, Finset.erase_eq_of_notMem hflow, ← h.attached]

theorem closeTransport (h : Registered p) {throws : Nat → Bool} {t : T}
    (hsettled : t ∉ p.server.closed → ¬Pending p t)
    (hcalm : CleanupCalm throws p.server t p.server.attempts) :
    Registered (p.closeTransport throws t) := by
  by_cases hopen : t ∈ p.server.closed
  · unfold SessionProxy.closeTransport
    rwa [if_pos hopen]
  · have hnone := hsettled hopen
    rw [h.closeTransport_eq throws hopen hnone]
    have hfewer := Fewer.cleanupClient throws
      { p.server with closed := insert t p.server.closed } t
    have hgone := cleanup_gone throws { p.server with closed := insert t p.server.closed } t
    have hothers : ∀ t' ∈ p.server.transports, t' ≠ t → t' ∉ insert t p.server.closed :=
      fun t' ht' hne hmem => h.opened t' ht' ((Finset.mem_insert.mp hmem).resolve_left hne)
    have htold : Told (cleanupClient throws
        { p.server with closed := insert t p.server.closed } t).toControlServer := by
      by_cases hclient : p.server.clients.has t = true
      · exact .inr (cleanup_counts (s := { p.server with closed := insert t p.server.closed })
          hothers hclient hcalm)
      · have hget : p.server.clients.get? t = none :=
          KeyedMap.has_eq_false.mp (Bool.eq_false_iff.mpr hclient)
        unfold cleanupClient cleanupWith
        simp only [hget]
        exact h.told
    generalize cleanupClient throws { p.server with closed := insert t p.server.closed } t = s at *
    have hpending : ∀ t', s.calls t' ≠ none ∨ t' ∈ p.resuming ↔ Pending p t' := by
      rw [hfewer.calls]
      exact fun _ => Iff.rfl
    refine ⟨fun t' ht' => ?_, fun t' ht' => ?_, fun t' ht' hcall => ?_, fun t' ht' => ?_,
      fun t' ht' hsettled' => ?_, ?_, fun t' ht' => ?_, htold⟩
    · have hclient := Serve.mem_transports.mp ht'
      rw [hfewer.closed]
      refine hothers t' (Serve.mem_transports.mpr (hfewer.has t' hclient)) ?_
      rintro rfl
      exact Bool.eq_false_iff.mp hgone hclient
    · show t' ∉ s.closed
      rw [hfewer.closed, Finset.mem_insert, not_or]
      have hold := (hpending t').mp ht'
      exact ⟨fun heq => hnone (heq ▸ hold), h.pendingOpen t' hold⟩
    · show t' ∈ s.hooked
      rw [hfewer.hooked]
      exact h.serverHooked t' (hfewer.has t' ht') (hfewer.calls ▸ hcall)
    · show t' ∉ s.closed
      obtain ⟨hne, hold⟩ := Finset.mem_erase.mp ht'
      rw [hfewer.closed, Finset.mem_insert, not_or]
      exact ⟨hne, h.flowOpen t' hold⟩
    · refine Finset.mem_erase.mpr ⟨?_, h.served t' (hfewer.has t' ht')
        fun hp => hsettled' ((hpending t').mpr hp)⟩
      rintro rfl
      exact Bool.eq_false_iff.mp hgone ht'
    · show p.attached.erase t = p.flowClients.erase t
      rw [h.attached]
    · exact h.proxyHooked t' (Finset.mem_of_mem_erase ht')

theorem broadcastErrorAndClose (h : Registered p) {throws : Nat → Bool}
    (hsettled : ∀ t ∈ p.server.transports, ¬Pending p t)
    (hreach : CountsReach throws p .broadcastErrorAndClose) :
    Registered (p.broadcastErrorAndClose throws) := by
  refine (foldl_along (P := fun p' => Registered p' ∧ ∀ t, Pending p' t ↔ Pending p t)
    (fun p' t ht ⟨h', hpending⟩ hcalm => ?_) ⟨h, fun _ => Iff.rfl⟩ hreach).1
  have honly := farewell_onlySent throws p'.server t
  have hsent := h'.sent honly (counts_farewell throws h'.opened)
  have hsame : ∀ t', Pending { p' with server := farewell throws p'.server t } t' ↔
      Pending p' t' := fun t' => by
    unfold Pending
    rw [(OnlySent.fewer honly).calls]
  refine ⟨hsent.closeTransport (fun _ hp => ?_) fun hclient => ?_, fun t' => ?_⟩
  · exact hsettled t ht ((hpending t).mp ((hsame t).mp hp))
  · have hold := (OnlySent.has honly t).symm.trans hclient
    show Calm throws ((farewell throws p'.server t).transports.length - 1)
      (farewell throws p'.server t).attempts
    rw [length_transports (OnlySent.mem_transports honly), farewell_attempts throws hold]
    exact hcalm hold
  · obtain ⟨hcalls, -, hresuming, -⟩ := closeTransport_calls throws
      { p' with server := farewell throws p'.server t } t
    rw [← hpending, ← hsame]
    unfold Pending SessionProxy.sayFarewell
    rw [hcalls, hresuming]

/-- The server sends one message without a count to each of several clients. -/
theorem sentAll (h : Registered p) {throws : Nat → Bool} {message : SessionProxyMessage}
    (hplain : countOf message = none) {ts : List T}
    (hcalm : Along (fun s t => some (sendTo throws message s t)) (SendCalm throws) p.server ts) :
    Registered { p with server := ts.foldl (sendTo throws message) p.server } := by
  refine foldl_along (P := fun s => Registered { p with server := s })
    (fun s t _ hs hsend => ?_) h hcalm
  exact hs.fewer (Fewer.sendTo throws message s t) (sendTo_told hs.opened hs.told hplain hsend)

theorem modelChange (throws : Nat → Bool) (h : Registered p) (prev next : SessionModel)
    (opts : T → DiffOptions) :
    Registered { p with
      server := p.server.handlers.values.foldl (onModelChange throws prev next opts)
        { p.server with model := next } } := by
  have hmodel : Registered { p with server := { p.server with model := next } } := { h with }
  refine foldl_keeps (P := fun s => Registered { p with server := s }) hmodel fun t s _ hs => ?_
  exact hs.sent (onModelChange_onlySent throws prev next opts s t)
    (counts_onModelChange throws hs.opened)

theorem resync (throws : Nat → Bool) (h : Registered p) (t : T) :
    Registered { p with server := handleResyncRequest throws p.server t } :=
  h.sent (resync_onlySent throws p.server t) (counts_resync throws h.opened)

theorem step (h : Registered p) {throws : Nat → Bool} {event : Event T}
    (hadmits : Admits throws p event) {p' : SessionProxy T}
    (hstep : Registries.step throws p event = some p') : Registered p' := by
  obtain ⟨hopen, hreach⟩ := hadmits
  cases event with
  | addClient t startSeq identity =>
    simp only [Registries.step] at hstep
    split at hstep
    · cases hstep
      exact h.addClient hopen startSeq identity
    · cases hstep
  | subscribe t =>
    simp only [Registries.step] at hstep
    split at hstep
    · next hcall =>
      cases hstep
      exact h.subscribe hcall
    · cases hstep
  | sendFirstSnapshot t =>
    simp only [Registries.step] at hstep
    split at hstep
    · next hcall =>
      cases hstep
      exact h.sendFirstSnapshot hcall hreach
    · cases hstep
  | resume t =>
    simp only [Registries.step] at hstep
    split at hstep
    · next hresuming =>
      cases hstep
      exact h.resume hresuming
    · cases hstep
  | closeTransport t =>
    cases hstep
    exact h.closeTransport hopen hreach
  | modelChange prev next opts =>
    cases hstep
    exact h.modelChange throws prev next opts
  | paneNotify =>
    cases hstep
    exact h.sentAll rfl hreach
  | broadcastError =>
    cases hstep
    exact h.sentAll rfl hreach
  | broadcastErrorAndClose =>
    cases hstep
    exact h.broadcastErrorAndClose (fun t ht => hopen t ht (h.opened t ht)) hreach
  | sendDirected t =>
    cases hstep
    exact h.fewer (Fewer.sendTo throws _ p.server t) (sendTo_told h.opened h.told rfl hreach)
  | resyncRequest t =>
    cases hstep
    exact h.resync throws t

end Registered

/-! ## A close in the gap -/

/-- The transport is closed, and nothing will take it out of the flow controller again. -/
def Lost (p : SessionProxy T) (t : T) : Prop :=
  t ∈ p.server.closed ∧ (Pending p t ∨ t ∈ p.flowClients)

namespace Lost

variable {p p' : SessionProxy T} {t : T} {throws : Nat → Bool}

omit [DecidableEq T] in
theorem same (h : Lost p t) (hcalls : p'.server.calls = p.server.calls)
    (hclosed : p.server.closed ⊆ p'.server.closed) (hresuming : p'.resuming = p.resuming)
    (hflow : t ∈ p.flowClients → t ∈ p'.flowClients) : Lost p' t := by
  refine ⟨hclosed h.1, h.2.imp (fun hp => ?_) hflow⟩
  unfold Pending
  rwa [hcalls, hresuming]

theorem sent (h : Lost p t) {s : Sending T}
    (hs : Fewer p.server.toControlServer s.toControlServer) : Lost { p with server := s } t :=
  h.same hs.calls hs.closed.symm.subset rfl id

theorem closeTransport (h : Lost p t) (who : T) : Lost (p.closeTransport throws who) t := by
  obtain ⟨hcalls, hclosed, hresuming, hflow⟩ := closeTransport_calls throws p who
  exact h.same hcalls (hclosed ▸ Finset.subset_insert ..) hresuming (hflow t h.1)

omit [DecidableEq T] in
/-- A transport whose call goes on stays pending. -/
theorem moved (h : Lost p t) (who : T) (hclosed : p'.server.closed = p.server.closed)
    (hcalls : ∀ t ≠ who, p'.server.calls t = p.server.calls t)
    (hresuming : ∀ t ≠ who, t ∈ p'.resuming ↔ t ∈ p.resuming)
    (hflow : ∀ t, t ∈ p.flowClients → t ∈ p'.flowClients)
    (hwho : Pending p' who ∨ who ∈ p'.flowClients) : Lost p' t := by
  refine ⟨hclosed ▸ h.1, ?_⟩
  by_cases ht : t = who
  · exact ht ▸ hwho
  · refine h.2.imp (fun hp => ?_) (hflow t)
    unfold Pending
    rwa [hcalls t ht, hresuming t ht]

theorem subscribe (h : Lost p t) (who : T) : Lost (p.subscribe who) t := by
  unfold SessionProxy.subscribe ControlServer.subscribe
  by_cases hhas : p.server.clients.has who = true
  · rw [if_pos hhas, if_pos hhas]
    exact h.moved who rfl (fun t' hne => if_neg hne) (fun _ _ => Iff.rfl) (fun _ => id)
      (.inl (.inl (by simp [ControlServer.setCall])))
  · rw [if_neg hhas, if_neg hhas]
    exact h.moved who rfl (fun t' hne => if_neg hne)
      (fun t' hne => by simp [SessionProxy.returned, hne]) (fun _ => id)
      (.inl (.inr (Finset.mem_insert_self ..)))

theorem sendFirstSnapshot (hdrops : ∀ k, throws k = false) (h : Lost p t) (who : T) :
    Lost (p.sendFirstSnapshot throws who) t := by
  have hmoved : ∀ s : Sending T, Fewer (p.server.setCall who none) s.toControlServer →
      Lost ({ p with server := s }.returned who) t := by
    intro s hfewer
    refine h.moved who hfewer.closed (fun t' hne => ?_)
      (fun t' hne => by simp [SessionProxy.returned, hne]) (fun _ => id)
      (.inl (.inr (Finset.mem_insert_self ..)))
    show s.calls t' = _
    rw [hfewer.calls]
    exact if_neg hne
  unfold SessionProxy.sendFirstSnapshot
  dsimp only
  split
  · exact hmoved _ (Fewer.refl _)
  · next state hstate =>
    rw [hdrops]
    exact hmoved _ ((OnlySent.fewer (Fewer.attempt throws
      (s := { p.server with toControlServer := p.server.setCall who none }) hstate _)).trans
      (Fewer.tellCount throws _ _ _))

theorem step (hdrops : ∀ k, throws k = false) (h : Lost p t) {event : Event T}
    (hstep : Registries.step throws p event = some p') : Lost p' t := by
  cases event with
  | addClient who startSeq identity =>
    simp only [Registries.step] at hstep
    split at hstep
    · cases hstep
      refine h.moved who (mintConnectionId_frame p.server.toControlServer).2.2.1 (fun t' hne => ?_)
        (fun _ _ => Iff.rfl) (fun _ => id) (.inl (.inl ?_))
      · exact (addClient_calls p.server.toControlServer who startSeq identity t').trans (if_neg hne)
      · show (p.server.toControlServer.addClient who startSeq identity).calls who ≠ none
        rw [addClient_calls, if_pos rfl]
        exact Option.some_ne_none _
    · cases hstep
  | subscribe who =>
    simp only [Registries.step] at hstep
    split at hstep
    · cases hstep
      exact h.subscribe who
    · cases hstep
  | sendFirstSnapshot who =>
    simp only [Registries.step] at hstep
    split at hstep
    · cases hstep
      exact h.sendFirstSnapshot hdrops who
    · cases hstep
  | resume who =>
    simp only [Registries.step] at hstep
    split at hstep
    · cases hstep
      exact h.moved who rfl (fun _ _ => rfl)
        (fun t' hne => by simp [SessionProxy.resume, hne])
        (fun _ => Finset.mem_insert_of_mem) (.inr (Finset.mem_insert_self ..))
    · cases hstep
  | closeTransport who =>
    cases hstep
    exact h.closeTransport who
  | modelChange prev next opts =>
    cases hstep
    have hmodel : Lost { p with server := { p.server with model := next } } t := h
    exact hmodel.sent (Fewer.foldl (fun s t =>
      OnlySent.fewer (onModelChange_onlySent throws prev next opts s t)) _ _)
  | paneNotify =>
    cases hstep
    exact h.sent (Fewer.foldl (Fewer.sendTo throws _) _ _)
  | broadcastError =>
    cases hstep
    exact h.sent (Fewer.foldl (Fewer.sendTo throws _) _ _)
  | broadcastErrorAndClose =>
    cases hstep
    exact foldl_keeps (P := fun p' => Lost p' t) h fun who p' _ hp =>
      (hp.sent (OnlySent.fewer (farewell_onlySent throws p'.server who))).closeTransport who
  | sendDirected who =>
    cases hstep
    exact h.sent (Fewer.sendTo throws _ _ _)
  | resyncRequest who =>
    cases hstep
    exact h.sent (OnlySent.fewer (resync_onlySent throws p.server who))

end Lost

/-- A client joins. -/
def join (t : Fin 3) : List (Event (Fin 3)) :=
  [.addClient t 1 none, .subscribe t, .sendFirstSnapshot t, .resume t]

/-- The count that the first client is told when the third one joins throws: the second client is
told two, and after that three. -/
theorem count_stale :
    ∃ p, exec (step fun k => k = 4) (createSessionProxy emptyModel)
        (join 0 ++ join 1 ++ join 2) = some p ∧
      Settled p ∧ p.server.transports = [1, 2] ∧
        lastCount (received p.server.toControlServer 1) = some 3 :=
  ⟨_, rfl, by decide +kernel⟩

end TmuxccDriver.Runtime.Registries
