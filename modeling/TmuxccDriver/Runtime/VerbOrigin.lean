import TmuxccDriver.Lib.Text
import TmuxccDriver.Runtime.Serve

/-!
# Verb origins

`runtime/verb-origin.ts`: the verb that created a pane or a window, for the `pane.opened` and
`window.added` deltas. A record keys both ids of the reply to the verb, whatever the verb
created; a lookup is read-only, up to expired entries; `runtime/session-proxy.ts` clears an id
that leaves the model. The entries name connection ids, which `runtime/serve.ts` hands out
again when a client leaves.

Results:
1. `lookups_peek`: all diffs of one model change get the same answers.
2. `Slots`: two clients never share a connection id.
3. `mem_modelChange`: an origin on the wire is an answer of the registry.
4. `Accounted`: the entries of ids that were not announced yet, and the answers behind them.
5. `origins_attributed`: what the clients are told about their verbs.
-/

namespace TmuxccDriver.Runtime.Origins
open TmuxccDriver.Lib TmuxccDriver.Protocol TmuxccDriver.State
open TmuxccDriver.Runtime.Serve (ControlServer ClientState Sent createControlServer)

variable {T : Type} [DecidableEq T]

/-! ## Registry -/

def DEFAULT_TTL_MS : Nat := 30000

def DEFAULT_MAX_ENTRIES : Nat := 1024

/-- The keys of the registry: a pane id and a window id are never the same string. -/
inductive EffectId
  | pane (paneId : PaneId)
  | window (windowId : WindowId)
deriving DecidableEq

structure OriginEntry where
  id : EffectId
  origin : Origin
  recordedAtMs : Nat
deriving DecidableEq

structure VerbOriginRegistry where
  ttlMs : Nat
  maxEntries : Nat
  entries : KeyedMap OriginEntry.id

def createVerbOriginRegistry (ttlMs maxEntries : Nat) : VerbOriginRegistry :=
  ⟨ttlMs, maxEntries, .empty⟩

namespace VerbOriginRegistry

/-- `entry.recordedAtMs < now() - ttlMs`. -/
def expired (reg : VerbOriginRegistry) (now : Nat) (entry : OriginEntry) : Bool :=
  entry.recordedAtMs + reg.ttlMs < now

def evictExpired (reg : VerbOriginRegistry) (now : Nat) : VerbOriginRegistry :=
  { reg with entries := reg.entries.filter fun entry => !reg.expired now entry }

/-- The loop of `set` that drops the oldest entries until the size is under the cap. -/
def evictOldest (reg : VerbOriginRegistry) : VerbOriginRegistry :=
  { reg with entries := reg.entries.drop (reg.entries.values.length - reg.maxEntries) }

def set (reg : VerbOriginRegistry) (now : Nat) (id : EffectId) (origin : Origin) :
    VerbOriginRegistry :=
  { reg with entries := reg.entries.set ⟨id, origin, now⟩ }.evictOldest

def record (reg : VerbOriginRegistry) (now : Nat) (paneId : PaneId) (windowId : WindowId)
    (origin : Origin) : VerbOriginRegistry :=
  ((reg.evictExpired now).set now (.pane paneId) origin).set now (.window windowId) origin

def clear (reg : VerbOriginRegistry) (id : EffectId) : VerbOriginRegistry :=
  { reg with entries := reg.entries.delete id }

def lookup (reg : VerbOriginRegistry) (now : Nat) (id : EffectId) :
    Option Origin × VerbOriginRegistry :=
  match reg.entries.get? id with
  | none => (none, reg)
  | some entry => if reg.expired now entry then (none, reg.clear id) else (some entry.origin, reg)

/-- The origin that `lookup` would return. -/
def peek (reg : VerbOriginRegistry) (now : Nat) (id : EffectId) : Option Origin :=
  (reg.lookup now id).1

def clearAll (reg : VerbOriginRegistry) (ids : List EffectId) : VerbOriginRegistry :=
  ids.foldl clear reg

/-- The lookups of one diff. -/
def lookups (reg : VerbOriginRegistry) (now : Nat) (ids : List EffectId) : VerbOriginRegistry :=
  ids.foldl (fun reg id => (reg.lookup now id).2) reg

end VerbOriginRegistry

/-! ## Verbs and deltas -/

/-- The verbs that `runCreatingVerb` sends. -/
inductive Creating
  | openWindow
  | splitPane
  | breakPane
deriving DecidableEq

def creating : WireCommand → Option Creating
  | .openWindow .. => some .openWindow
  | .splitPane .. => some .splitPane
  | .breakPane _ => some .breakPane
  | _ => none

/-- What a verb creates of the two ids in its reply: `split-pane` works in a window that is
there, and `break-pane` moves a pane that is there. -/
def Creating.created (kind : Creating) (paneId : PaneId) (windowId : WindowId) : List EffectId :=
  match kind with
  | .openWindow => [.pane paneId, .window windowId]
  | .splitPane => [.pane paneId]
  | .breakPane => [.window windowId]

theorem Creating.created_subset {kind : Creating} {paneId : PaneId} {windowId : WindowId}
    {id : EffectId} (h : id ∈ kind.created paneId windowId) :
    id ∈ [.pane paneId, .window windowId] := by
  cases kind with
  | openWindow => exact h
  | splitPane => exact List.mem_cons.mpr (.inl (List.mem_singleton.mp h))
  | breakPane => exact List.mem_cons_of_mem _ h

/-- A creating verb, sent on the connection of a transport. -/
structure Verb (T : Type) where
  transport : T
  requestId : String
  kind : Creating

/-- A creating verb that succeeded, and the connection id it was recorded under, if any. -/
structure Answer (T : Type) where
  verb : Verb T
  paneId : PaneId
  windowId : WindowId
  connectionId : Option ConnectionId
  recordedAtMs : Nat

def Answer.created (a : Answer T) : List EffectId := a.verb.kind.created a.paneId a.windowId

/-- The id that a delta announces. -/
def announces : SessionProxyMessage → Option EffectId
  | .paneOpened paneId .. => some (.pane paneId)
  | .windowAdded windowId .. => some (.window windowId)
  | _ => none

def originOf : SessionProxyMessage → Option Origin
  | .paneOpened _ _ _ _ _ _ _ _ _ _ _ origin => origin
  | .windowAdded _ _ _ origin => origin
  | _ => none

/-- The ids of the second model that are not in the first one. -/
def added (prev next : SessionModel) : List EffectId :=
  ((next.windows.values.filter fun win => !prev.windows.has win.windowId).map
      fun win => .window win.windowId) ++
    (next.panes.values.filter fun pane => !prev.panes.has pane.paneId).map
      fun pane => .pane pane.paneId

/-! ## Runs -/

/-- The id of the connection of a registered client. -/
def connectionIdFor (s : ControlServer T) (transport : T) : Option ConnectionId :=
  (s.clients.get? transport).map ClientState.connectionId

/-- One model change: the server and the answers before it, and what the clients got. -/
structure Change (T : Type) where
  server : ControlServer T
  answered : List (Answer T)
  now : Nat
  ttlMs : Nat
  sent : List (Sent T)

/-- `seen` are the ids that some model change has announced or removed, and `clock` is the
latest time that was read. -/
structure State (T : Type) where
  server : ControlServer T
  registry : VerbOriginRegistry
  outstanding : List (Verb T)
  answered : List (Answer T)
  seen : List EffectId
  clock : Nat
  changes : List (Change T)

def start (ttlMs maxEntries : Nat) : State T :=
  ⟨createControlServer emptyModel, createVerbOriginRegistry ttlMs maxEntries, [], [], [], 0, []⟩

inductive Event (T : Type)
  /-- Anything that happens to the server but a model change. -/
  | serve (event : Serve.Event T)
  | request (transport : T) (requestId : String) (command : WireCommand)
  /-- tmux's reply to an outstanding verb, with the ids if it succeeded. -/
  | reply (index : Nat) (ids : Option (PaneId × WindowId)) (now : Nat)
  | modelChange (now : Nat) (prev next : SessionModel) (opts : T → DiffOptions)

namespace State

/-- The responder of a creating verb. -/
def answer (s : State T) (verb : Verb T) (paneId : PaneId) (windowId : WindowId) (now : Nat) :
    State T :=
  let connectionId := connectionIdFor s.server verb.transport
  { s with
    server := s.server.sendCommandResponse verb.transport
    registry := match connectionId with
      | some connectionId => s.registry.record now paneId windowId ⟨connectionId, verb.requestId⟩
      | none => s.registry
    answered := s.answered ++ [⟨verb, paneId, windowId, connectionId, now⟩]
    clock := now }

/-- The subscriber of the session proxy comes first, then those of the clients. -/
def modelChange (s : State T) (now : Nat) (prev next : SessionModel) (opts : T → DiffOptions) :
    State T :=
  let registry := s.registry.clearAll (added next prev)
  let server := s.server.modelChange prev next fun t =>
    { opts t with
      windowOrigin := fun windowId => registry.peek now (.window windowId)
      paneOrigin := fun paneId => registry.peek now (.pane paneId) }
  { s with
    server
    registry := s.server.handlers.values.foldl
      (fun registry _ => registry.lookups now (added prev next)) registry
    seen := s.seen ++ added prev next ++ added next prev
    clock := now
    changes := s.changes ++ [⟨s.server, s.answered, now, s.registry.ttlMs,
      server.sent.drop s.server.sent.length⟩] }

end State

/-- One event. tmux hands out an id once. -/
def step (s : State T) : Event T → Option (State T)
  | .serve (.modelChange ..) => none
  | .serve event => (Serve.step s.server event).map fun server => { s with server }
  | .request transport requestId command =>
    some (match creating command with
      | some kind => { s with outstanding := s.outstanding ++ [⟨transport, requestId, kind⟩] }
      | none => s)
  | .reply index ids now =>
    s.outstanding[index]?.bind fun verb =>
      let s := { s with outstanding := s.outstanding.eraseIdx index }
      match ids with
      | none => some s
      | some (paneId, windowId) =>
        if ∀ id ∈ verb.kind.created paneId windowId, ∀ a ∈ s.answered, id ∉ a.created then
          some (s.answer verb paneId windowId now)
        else none
  | .modelChange now prev next opts => some (s.modelChange now prev next opts)

/-- A client that is told by its own connection id that it created something has sent the
verb that created it. -/
def Sound (c : Change T) : Prop :=
  ∀ m ∈ c.sent, ∀ id, announces m.message = some id → ∀ origin, originOf m.message = some origin →
    connectionIdFor c.server m.transport = some origin.connectionId →
      ∃ a ∈ c.answered, a.verb.transport = m.transport ∧ a.verb.requestId = origin.requestId ∧
        id ∈ a.created

/-- Every client is told which verb created something, if the verb was recorded and is within
the time-to-live. -/
def Complete (c : Change T) : Prop :=
  ∀ a ∈ c.answered, ∀ connectionId, a.connectionId = some connectionId →
    c.now ≤ a.recordedAtMs + c.ttlMs → ∀ id ∈ a.created, ∀ m ∈ c.sent,
      announces m.message = some id → originOf m.message = some ⟨connectionId, a.verb.requestId⟩

/-- A new client does not get the connection id of an entry that is still to be announced. A
reply names only ids that its verb created or that were announced, and the registry drops no
entry for its size that is still to be announced. The clock does not go back, and no id is
announced twice. -/
def Attributable (s : State T) : Event T → Prop
  | .serve (.addClient ..) => ∀ entry ∈ s.registry.entries.values, entry.id ∉ s.seen →
      entry.origin.connectionId ≠ s.server.mintConnectionId.1
  | .reply index (some (paneId, windowId)) now =>
    let entries := (s.registry.evictExpired now).entries.values
    s.clock ≤ now ∧ 2 ≤ s.registry.maxEntries ∧
      (∀ entry ∈ entries.take (entries.length + 2 - s.registry.maxEntries), entry.id ∈ s.seen) ∧
      ∀ verb ∈ s.outstanding[index]?, ∀ id ∈ [.pane paneId, .window windowId],
        id ∈ verb.kind.created paneId windowId ∨ id ∈ s.seen
  | .modelChange now prev next _ => s.clock ≤ now ∧ ∀ id ∈ added prev next, id ∉ s.seen
  | _ => True

/-! ## The registry -/

namespace VerbOriginRegistry

/-- A lookup is answered by the entry of the id, while it has not expired. -/
theorem peek_eq_some {reg : VerbOriginRegistry} {now : Nat} {id : EffectId} {origin : Origin} :
    reg.peek now id = some origin ↔ ∃ entry ∈ reg.entries.values,
      entry.id = id ∧ reg.expired now entry = false ∧ entry.origin = origin := by
  constructor
  · intro h
    unfold peek lookup at h
    split at h
    · cases h
    · next entry hentry =>
      split at h
      · cases h
      · next hlive =>
        exact ⟨entry, KeyedMap.mem_of_get? hentry,
          KeyedMap.key_of_get? hentry, by simpa using hlive, Option.some.inj h⟩
  · rintro ⟨entry, hentry, rfl, hlive, rfl⟩
    unfold peek lookup
    rw [KeyedMap.get?_self hentry]
    dsimp only
    rw [hlive]
    rfl

/-- The second registry is the first one without some expired entries. -/
structure Fades (now : Nat) (reg reg' : VerbOriginRegistry) : Prop where
  ttlMs : reg'.ttlMs = reg.ttlMs
  mem : ∀ entry ∈ reg'.entries.values, entry ∈ reg.entries.values
  live : ∀ entry ∈ reg.entries.values, reg.expired now entry = false → entry ∈ reg'.entries.values

namespace Fades

variable {now : Nat} {reg reg' reg'' : VerbOriginRegistry}

theorem refl (reg : VerbOriginRegistry) : Fades now reg reg :=
  ⟨rfl, fun _ h => h, fun _ h _ => h⟩

theorem expired (h : Fades now reg reg') (entry : OriginEntry) :
    reg'.expired now entry = reg.expired now entry := by
  unfold VerbOriginRegistry.expired
  rw [h.ttlMs]

theorem trans (h : Fades now reg reg') (h' : Fades now reg' reg'') : Fades now reg reg'' := by
  refine ⟨h'.ttlMs.trans h.ttlMs, fun entry hentry => h.mem entry (h'.mem entry hentry),
    fun entry hentry hlive => ?_⟩
  exact h'.live entry (h.live entry hentry hlive) (by rwa [h.expired])

theorem peek (h : Fades now reg reg') (id : EffectId) : reg'.peek now id = reg.peek now id := by
  refine Option.ext fun origin => ?_
  rw [peek_eq_some, peek_eq_some]
  constructor
  · rintro ⟨entry, hentry, hid, hlive, horigin⟩
    exact ⟨entry, h.mem entry hentry, hid, by rwa [← h.expired], horigin⟩
  · rintro ⟨entry, hentry, hid, hlive, horigin⟩
    exact ⟨entry, h.live entry hentry hlive, hid, by rwa [h.expired], horigin⟩

end Fades

theorem lookup_fades (reg : VerbOriginRegistry) (now : Nat) (id : EffectId) :
    Fades now reg (reg.lookup now id).2 := by
  unfold lookup
  split
  · exact Fades.refl reg
  · next entry hentry =>
    split
    · next hexpired =>
      refine ⟨rfl, fun e he => (KeyedMap.mem_delete.mp he).1, fun e he hlive => ?_⟩
      refine KeyedMap.mem_delete.mpr ⟨he, fun hid => ?_⟩
      have hsame : some e = some entry := by rw [← KeyedMap.get?_self he, hid, hentry]
      rw [Option.some.inj hsame, hexpired] at hlive
      cases hlive
    · exact Fades.refl reg

theorem lookups_fades (reg : VerbOriginRegistry) (now : Nat) (ids : List EffectId) :
    Fades now reg (reg.lookups now ids) :=
  foldl_keeps (P := fun reg' => Fades now reg reg') (Fades.refl reg)
    fun id reg' _ h => h.trans (reg'.lookup_fades now id)

/-- The diff for one client leaves the answers for the next one. -/
theorem lookups_peek (reg : VerbOriginRegistry) (now : Nat) (ids : List EffectId) (id : EffectId) :
    (reg.lookups now ids).peek now id = reg.peek now id :=
  (reg.lookups_fades now ids).peek id

theorem mem_clearAll (reg : VerbOriginRegistry) (ids : List EffectId) {entry : OriginEntry} :
    entry ∈ (reg.clearAll ids).entries.values ↔ entry ∈ reg.entries.values ∧ entry.id ∉ ids := by
  have hloop : ∀ entry, entry ∈ (reg.clearAll ids).entries.values ↔
      entry ∈ reg.entries.values ∧ entry.id ∉ ids := by
    refine foldl_done (P := fun done (reg' : VerbOriginRegistry) => ∀ entry,
      entry ∈ reg'.entries.values ↔ entry ∈ reg.entries.values ∧ entry.id ∉ done)
      (fun entry => by simp) ?_
    intro done id reg' _ hdone entry
    rw [clear, KeyedMap.mem_delete, hdone, and_assoc, List.mem_append, List.mem_singleton, not_or]
  exact hloop entry

theorem clearAll_ttlMs (reg : VerbOriginRegistry) (ids : List EffectId) :
    (reg.clearAll ids).ttlMs = reg.ttlMs :=
  foldl_keeps (P := fun reg' : VerbOriginRegistry => reg'.ttlMs = reg.ttlMs) rfl fun _ _ _ h => h

/-- The entry is still there after `n` more ids are set. -/
def Survives (n : Nat) (entry : OriginEntry) (reg : VerbOriginRegistry) : Prop :=
  entry ∈ reg.entries.values.drop (reg.entries.values.length + n - reg.maxEntries)

theorem Survives.mem {n : Nat} {entry : OriginEntry} {reg : VerbOriginRegistry}
    (h : Survives n entry reg) : entry ∈ reg.entries.values :=
  List.mem_of_mem_drop h

section Set
variable {reg : VerbOriginRegistry} {now : Nat} {id : EffectId} {origin : Origin}

/-- The entries before the cap is applied are those of a plain `Map.set`. -/
theorem survives_set {n : Nat} {entry : OriginEntry} (size : Nat)
    (hmem : entry ∈ (reg.entries.set ⟨id, origin, now⟩).values.drop (size + n - reg.maxEntries))
    (hsize : (reg.entries.set ⟨id, origin, now⟩).values.length ≤ size) :
    Survives n entry (reg.set now id origin) := by
  have hroom : ∀ length, length ≤ size → length - reg.maxEntries +
      (length - (length - reg.maxEntries) + n - reg.maxEntries) ≤ size + n - reg.maxEntries := by
    omega
  show entry ∈ ((reg.entries.set ⟨id, origin, now⟩).values.drop _).drop
    (((reg.entries.set ⟨id, origin, now⟩).values.drop _).length + n - reg.maxEntries)
  rw [List.drop_drop, List.length_drop]
  exact List.drop_subset_drop_left _ (hroom _ hsize) hmem

theorem Survives.set {n : Nat} {entry : OriginEntry} (h : Survives (n + 1) entry reg)
    (hne : entry.id ≠ id) : Survives n entry (reg.set now id origin) := by
  refine survives_set (reg.entries.values.length + 1) ?_
    (KeyedMap.length_set_le reg.entries _)
  have hsize : reg.entries.values.length + 1 + n = reg.entries.values.length + (n + 1) := by omega
  rw [hsize]
  exact KeyedMap.mem_drop_set h hne

variable (now origin) in
/-- An id that was not there comes last. -/
theorem survives_new {n : Nat} (hnew : reg.entries.has id = false) (hroom : n < reg.maxEntries) :
    Survives n ⟨id, origin, now⟩ (reg.set now id origin) := by
  have hvalues : (reg.entries.set ⟨id, origin, now⟩).values =
      reg.entries.values ++ [⟨id, origin, now⟩] := KeyedMap.values_set_new hnew
  refine survives_set (reg.entries.values.length + 1) ?_ (by simp [hvalues])
  rw [hvalues, List.drop_append_of_le_length (by omega)]
  exact List.mem_append_right _ (List.mem_singleton_self _)

theorem mem_of_set {entry : OriginEntry} (h : entry ∈ (reg.set now id origin).entries.values) :
    entry = ⟨id, origin, now⟩ ∨ entry ∈ reg.entries.values ∧ entry.id ≠ id :=
  KeyedMap.mem_set.mp (List.mem_of_mem_drop h)

end Set

section Record
variable {reg : VerbOriginRegistry} {now : Nat} {paneId : PaneId} {windowId : WindowId}
  {origin : Origin}

theorem mem_record {entry : OriginEntry}
    (h : entry ∈ (reg.record now paneId windowId origin).entries.values) :
    (∃ id ∈ [.pane paneId, .window windowId], entry = ⟨id, origin, now⟩) ∨
      entry ∈ reg.entries.values ∧ entry.id ∉ [.pane paneId, .window windowId] := by
  rcases mem_of_set h with rfl | ⟨hfirst, hwindow⟩
  · exact .inl ⟨_, List.mem_cons_of_mem _ List.mem_cons_self, rfl⟩
  · rcases mem_of_set hfirst with rfl | ⟨hold, hpane⟩
    · exact .inl ⟨_, List.mem_cons_self, rfl⟩
    · exact .inr ⟨(List.mem_filter.mp hold).1, by simp [hpane, hwindow]⟩

/-- The entries that are not among the oldest stay. -/
theorem record_keeps {entry : OriginEntry} (h : Survives 2 entry (reg.evictExpired now))
    (hne : entry.id ∉ [.pane paneId, .window windowId]) :
    entry ∈ (reg.record now paneId windowId origin).entries.values := by
  rw [List.mem_cons, List.mem_singleton, not_or] at hne
  exact ((h.set hne.1).set hne.2).mem

/-- Both new entries are there. -/
theorem record_new {id : EffectId} (hid : id ∈ [.pane paneId, .window windowId])
    (hroom : 2 ≤ reg.maxEntries) (hnew : ∀ entry ∈ reg.entries.values, entry.id ≠ id) :
    ⟨id, origin, now⟩ ∈ (reg.record now paneId windowId origin).entries.values := by
  have hhas : ∀ reg' : VerbOriginRegistry, (∀ entry ∈ reg'.entries.values, entry.id ≠ id) →
      reg'.entries.has id = false := by
    intro reg' h
    rw [KeyedMap.has_eq_false, KeyedMap.get?_eq_none]
    exact h
  have hlive : ∀ entry ∈ (reg.evictExpired now).entries.values, entry.id ≠ id :=
    fun entry hentry => hnew entry (List.mem_filter.mp hentry).1
  have hcases : id = .pane paneId ∨ id = .window windowId := by simpa using hid
  rcases hcases with rfl | rfl
  · have hfirst := survives_new now origin (hhas _ hlive) hroom
    exact (hfirst.set (by simp)).mem
  · refine (survives_new now origin (hhas _ fun entry hentry => ?_)
      (by show 0 < reg.maxEntries; omega)).mem
    rcases mem_of_set hentry with rfl | ⟨hold, -⟩
    · simp
    · exact hlive entry hold

end Record

end VerbOriginRegistry

/-! ## Connection ids -/

/-- Two clients never share a connection id, and the ids that are not in use are the ones on
the free list and those that were not minted yet. -/
structure Slots (s : ControlServer T) : Prop where
  distinct : ∀ t t' connectionId, connectionIdFor s t = some connectionId →
    connectionIdFor s t' = some connectionId → t = t'
  unused : ∀ connectionId ∈ s.freeConnectionIds, ∀ t, connectionIdFor s t ≠ some connectionId
  nodup : s.freeConnectionIds.Nodup
  minted : ∀ connectionId, (connectionId ∈ s.freeConnectionIds ∨
    ∃ t, connectionIdFor s t = some connectionId) →
      ∃ n < s.nextConnectionSeq, connectionId = ⟨"conn" ++ toString n⟩

/-- The second server has no clients that the first one does not have. -/
structure Settles (s s' : ControlServer T) : Prop where
  slots : Slots s → Slots s'
  holders : ∀ t connectionId, connectionIdFor s' t = some connectionId →
    connectionIdFor s t = some connectionId

namespace Settles

variable {s s' s'' : ControlServer T}

theorem refl (s : ControlServer T) : Settles s s := ⟨id, fun _ _ => id⟩

theorem trans (h : Settles s s') (h' : Settles s' s'') : Settles s s'' :=
  ⟨fun hs => h'.slots (h.slots hs), fun t c hc => h.holders t c (h'.holders t c hc)⟩

/-- Nothing happens to the connections. -/
theorem same (hfree : s'.freeConnectionIds = s.freeConnectionIds)
    (hnext : s'.nextConnectionSeq = s.nextConnectionSeq)
    (hconn : ∀ t, connectionIdFor s' t = connectionIdFor s t) : Settles s s' := by
  refine ⟨fun h => ⟨?_, ?_, ?_, ?_⟩, fun t c hc => (hconn t).symm.trans hc⟩
  · simp only [hconn]
    exact h.distinct
  · simp only [hconn, hfree]
    exact h.unused
  · rw [hfree]
    exact h.nodup
  · simp only [hconn, hfree, hnext]
    exact h.minted

end Settles

theorem stamp_settles (s : ControlServer T) {t : T} {state : ClientState T}
    (hstate : s.clients.get? t = some state) (message : Nat → SessionProxyMessage) :
    Settles s (s.stamp state message) := by
  refine Settles.same rfl rfl fun t' => ?_
  have hkey : state.transport = t := KeyedMap.key_of_get? hstate
  show ((s.clients.set _).get? t').map _ = _
  rw [KeyedMap.get?_set]
  split
  · next ht =>
    rw [← ht, connectionIdFor, hkey, hstate]
    rfl
  · rfl

theorem sendTo_settles (s : ControlServer T) (t : T) (message : Nat → SessionProxyMessage) :
    Settles s (s.sendTo t message) := by
  unfold ControlServer.sendTo
  split
  · exact Settles.refl s
  · next state hstate => exact stamp_settles s hstate message

theorem broadcast_settles (s : ControlServer T) (exclude : Option T)
    (message : SessionProxyMessage) : Settles s (s.broadcast exclude message) :=
  foldl_keeps (P := fun s' => Settles s s') (Settles.refl s)
    fun t s' _ h => h.trans (sendTo_settles s' t _)

/-- A client that leaves gives its id back. -/
theorem forget_settles (s : ControlServer T) {t : T} {state : ClientState T}
    (hstate : s.clients.get? t = some state) : Settles s (s.forget t state.connectionId) := by
  have hown : connectionIdFor s t = some state.connectionId := by
    rw [connectionIdFor, hstate]
    rfl
  have hconn : ∀ t', connectionIdFor (s.forget t state.connectionId) t' =
      if t' = t then none else connectionIdFor s t' := by
    intro t'
    show ((s.clients.delete t).get? t').map _ = _
    rw [KeyedMap.get?_delete]
    split <;> rfl
  have hholders : ∀ t' c, connectionIdFor (s.forget t state.connectionId) t' = some c →
      connectionIdFor s t' = some c ∧ t' ≠ t := by
    intro t' c hc
    rw [hconn] at hc
    split at hc
    · cases hc
    · next hne => exact ⟨hc, hne⟩
  refine ⟨fun h => ⟨fun t₁ t₂ c h₁ h₂ => ?_, fun c hc t' hc' => ?_, ?_, fun c hc => ?_⟩,
    fun t' c hc => (hholders t' c hc).1⟩
  · exact h.distinct t₁ t₂ c (hholders t₁ c h₁).1 (hholders t₂ c h₂).1
  · obtain ⟨hused, hne⟩ := hholders t' c hc'
    rcases List.mem_cons.mp hc with rfl | hfree
    · exact hne (h.distinct t' t _ hused hown)
    · exact h.unused c hfree t' hused
  · exact List.nodup_cons.mpr ⟨fun hfree => h.unused _ hfree t hown, h.nodup⟩
  · refine h.minted c ?_
    rcases hc with hfree | ⟨t', ht'⟩
    · rcases List.mem_cons.mp hfree with rfl | hold
      · exact .inr ⟨t, hown⟩
      · exact .inl hold
    · exact .inr ⟨t', (hholders t' c ht').1⟩

theorem cleanupClient_settles (s : ControlServer T) (t : T) : Settles s (s.cleanupClient t) := by
  unfold ControlServer.cleanupClient
  split
  · exact Settles.refl s
  · next state hstate =>
    have hforget := forget_settles s hstate
    dsimp only
    split
    · exact hforget.trans (broadcast_settles _ _ _)
    · exact hforget

theorem closeTransport_settles (s : ControlServer T) (t : T) : Settles s (s.closeTransport t) := by
  unfold ControlServer.closeTransport
  split
  · exact Settles.refl s
  · have hclosed : Settles s { s with closed := insert t s.closed } :=
      Settles.same rfl rfl fun _ => rfl
    dsimp only
    split
    · exact hclosed.trans (cleanupClient_settles _ t)
    · exact hclosed

theorem modelChange_settles (s : ControlServer T) (prev next : SessionModel)
    (opts : T → DiffOptions) : Settles s (s.modelChange prev next opts) := by
  refine foldl_keeps (P := fun s' => Settles s s') (Settles.same rfl rfl fun _ => rfl)
    fun t s' _ h => h.trans ?_
  unfold ControlServer.onModelChange
  split
  · exact Settles.refl s'
  · exact foldl_keeps (P := fun s'' => Settles s' s'') (Settles.refl s')
      fun delta s'' _ h' => h'.trans (sendTo_settles s'' t _)

/-- Every event but a new client. -/
theorem serve_settles {s s' : ControlServer T} {event : Serve.Event T}
    (hstep : Serve.step s event = some s')
    (hadd : ∀ t startSeq identity, event ≠ .addClient t startSeq identity) : Settles s s' := by
  cases event with
  | addClient t startSeq identity => exact absurd rfl (hadd t startSeq identity)
  | subscribe t =>
    obtain ⟨-, hs'⟩ := Option.ite_none_right_eq_some.mp hstep
    cases hs'
    unfold ControlServer.subscribe
    split <;> exact Settles.same rfl rfl fun _ => rfl
  | sendFirstSnapshot t =>
    obtain ⟨-, hs'⟩ := Option.ite_none_right_eq_some.mp hstep
    cases hs'
    have hcall : Settles s (s.setCall t none) := Settles.same rfl rfl fun _ => rfl
    unfold ControlServer.sendFirstSnapshot
    dsimp only
    split
    · exact hcall
    · next state hstate =>
      exact (hcall.trans (stamp_settles _ hstate _)).trans (broadcast_settles _ _ _)
  | closeTransport t =>
    cases hstep
    exact closeTransport_settles s t
  | removeClient t =>
    cases hstep
    exact cleanupClient_settles s t
  | modelChange prev next opts =>
    cases hstep
    exact modelChange_settles s prev next opts
  | paneNotify =>
    cases hstep
    unfold ControlServer.broadcastPaneNotify
    split
    · exact Settles.refl s
    · exact broadcast_settles _ _ _
  | broadcastError =>
    cases hstep
    exact broadcast_settles _ _ _
  | broadcastErrorAndClose =>
    cases hstep
    exact foldl_keeps (P := fun s' => Settles s s') (Settles.refl s)
      fun t s' _ h => (h.trans (sendTo_settles s' t _)).trans (closeTransport_settles _ t)
  | sendCommandResponse t =>
    cases hstep
    exact sendTo_settles s t _
  | sendDirected t =>
    cases hstep
    exact sendTo_settles s t _
  | resyncRequest t =>
    cases hstep
    unfold ControlServer.handleResyncRequest
    split
    · exact Settles.refl s
    · next state hstate => exact stamp_settles s hstate _

/-- The id of a new client is from the free list, or the next one. -/
structure Minted (s : ControlServer T) (connectionId : ConnectionId) (s' : ControlServer T) :
    Prop where
  fresh : ∀ t, connectionIdFor s t ≠ some connectionId
  taken : connectionId ∉ s'.freeConnectionIds
  nodup : s'.freeConnectionIds.Nodup
  free : ∀ c ∈ s'.freeConnectionIds, c ∈ s.freeConnectionIds
  next : s.nextConnectionSeq ≤ s'.nextConnectionSeq
  named : ∃ n < s'.nextConnectionSeq, connectionId = ⟨"conn" ++ toString n⟩

theorem Slots.mint {s : ControlServer T} (h : Slots s) :
    Minted s s.mintConnectionId.1 s.mintConnectionId.2 := by
  rcases hfree : s.freeConnectionIds with _ | ⟨connectionId, rest⟩
  · have hmint : s.mintConnectionId = (⟨"conn" ++ toString s.nextConnectionSeq⟩,
        { s with nextConnectionSeq := s.nextConnectionSeq + 1 }) := by
      unfold ControlServer.mintConnectionId
      rw [hfree]
    have hnext : ∀ c : ConnectionId, c = ⟨"conn" ++ toString s.nextConnectionSeq⟩ →
        ¬∃ n < s.nextConnectionSeq, c = ⟨"conn" ++ toString n⟩ := by
      rintro c rfl ⟨n, hn, heq⟩
      have hrepr : toString s.nextConnectionSeq = toString n :=
        (String.append_right_inj "conn").mp (ConnectionId.mk.inj heq)
      exact absurd (repr_inj.mp hrepr) hn.ne'
    rw [hmint]
    refine ⟨fun t ht => hnext _ rfl (h.minted _ (.inr ⟨t, ht⟩)), fun hc => ?_, h.nodup,
      fun c hc => hc, Nat.le_succ _, _, Nat.lt_succ_self _, rfl⟩
    exact hnext _ rfl (h.minted _ (.inl hc))
  · have hmint : s.mintConnectionId = (connectionId, { s with freeConnectionIds := rest }) := by
      unfold ControlServer.mintConnectionId
      rw [hfree]
    have hnodup := h.nodup
    rw [hfree] at hnodup
    obtain ⟨htaken, hrest⟩ := List.nodup_cons.mp hnodup
    have hmem : connectionId ∈ s.freeConnectionIds := hfree ▸ List.mem_cons_self
    rw [hmint]
    exact ⟨h.unused _ hmem, htaken, hrest, fun c hc => hfree ▸ List.mem_cons_of_mem _ hc, le_rfl,
      h.minted _ (.inl hmem)⟩

theorem connectionIdFor_addClient (s : ControlServer T) (t : T) (startSeq : Nat)
    (identity : Option String) (t' : T) : connectionIdFor (s.addClient t startSeq identity) t' =
      if t' = t then some s.mintConnectionId.1 else connectionIdFor s t' := by
  have hclients : s.mintConnectionId.2.clients = s.clients := (Serve.mintConnectionId_frame s).1
  show ((s.mintConnectionId.2.clients.set _).get? t').map _ = _
  rw [KeyedMap.get?_set, hclients]
  rcases eq_or_ne t' t with rfl | hne
  · rw [if_pos rfl, if_pos rfl]
    rfl
  · rw [if_neg hne.symm, if_neg hne]
    rfl

/-- A new client gets an id that nobody has. -/
theorem Slots.addClient {s : ControlServer T} (h : Slots s) (t : T) (startSeq : Nat)
    (identity : Option String) : Slots (s.addClient t startSeq identity) := by
  have hmint := h.mint
  have hconn := connectionIdFor_addClient s t startSeq identity
  have hholders : ∀ t' c, connectionIdFor (s.addClient t startSeq identity) t' = some c →
      t' = t ∧ c = s.mintConnectionId.1 ∨ connectionIdFor s t' = some c := by
    intro t' c hc
    rw [hconn] at hc
    split at hc
    · next ht => exact .inl ⟨ht, (Option.some.inj hc).symm⟩
    · exact .inr hc
  refine ⟨fun t₁ t₂ c h₁ h₂ => ?_, fun c hc t' hc' => ?_, hmint.nodup, fun c hc => ?_⟩
  · rcases hholders t₁ c h₁ with ⟨rfl, rfl⟩ | hold₁
    · rcases hholders t₂ _ h₂ with ⟨rfl, -⟩ | hold₂
      · rfl
      · exact absurd hold₂ (hmint.fresh t₂)
    · rcases hholders t₂ c h₂ with ⟨rfl, rfl⟩ | hold₂
      · exact absurd hold₁ (hmint.fresh t₁)
      · exact h.distinct t₁ t₂ c hold₁ hold₂
  · rcases hholders t' c hc' with ⟨-, rfl⟩ | hold
    · exact hmint.taken hc
    · exact h.unused c (hmint.free c hc) t' hold
  · have hold : c ∈ s.freeConnectionIds ∨ (∃ t', connectionIdFor s t' = some c) →
        ∃ n < s.mintConnectionId.2.nextConnectionSeq, c = ⟨"conn" ++ toString n⟩ := by
      intro hused
      obtain ⟨n, hn, hname⟩ := h.minted c hused
      exact ⟨n, hn.trans_le hmint.next, hname⟩
    rcases hc with hfree | ⟨t', ht'⟩
    · exact hold (.inl (hmint.free c hfree))
    · rcases hholders t' c ht' with ⟨-, rfl⟩ | hused
      · exact hmint.named
      · exact hold (.inr ⟨t', hused⟩)

/-! ## What one model change sends -/

section Deltas
variable {prev next : SessionModel} {opts : DiffOptions}

/-- Only the first two phases announce something. -/
theorem announces_phase {m : SessionProxyMessage} {id : EffectId}
    (hm : announces m = some id) (h : m ∈ diffModel prev next opts) :
    m ∈ next.windows.values.filterMap (windowAddedOf prev next opts) ∨
      m ∈ next.panes.values.filterMap (paneOpenedOf prev next opts) := by
  have hsession : m ∉ sessionRenamed prev next := by
    intro hmem
    unfold sessionRenamed at hmem
    split at hmem
    · split at hmem
      · rw [List.mem_singleton.mp hmem] at hm
        cases hm
      · cases hmem
    · cases hmem
  have hfocus : m ∉ focusChanged prev next := by
    intro hmem
    unfold focusChanged at hmem
    split at hmem
    · rw [List.mem_singleton.mp hmem] at hm
      cases hm
    · cases hmem
  cases m <;> cases hm <;>
    simpa [diffModel, onKeptPane, onKeptWindow, layoutUpdatedOf, paneMovedOf, paneResizedOf,
      paneModeChangedOf, paneLabelChangedOf, panePolicyChangedOf, paneDeadChangedOf,
      paneTitleChangedOf, windowRenamedOf, windowSyncChangedOf, windowMonitorActivityChangedOf,
      windowMonitorSilenceChangedOf, paneClosedOf, windowClosedOf, hsession, hfocus,
      Option.bind_eq_some_iff] using h

/-- A delta announces an id of the second model only, with the answer of its lookup. -/
theorem announces_diffModel {m : SessionProxyMessage} {id : EffectId}
    (hm : announces m = some id) (h : m ∈ diffModel prev next opts) :
    id ∈ added prev next ∧ originOf m = match id with
      | .pane paneId => opts.paneOrigin paneId
      | .window windowId => opts.windowOrigin windowId := by
  rcases announces_phase hm h with hwindow | hpane
  · obtain ⟨win, hwin, hdelta⟩ := List.mem_filterMap.mp hwindow
    obtain ⟨hnew, rfl⟩ := windowAddedOf_eq _ _ _ hdelta
    cases hm
    refine ⟨List.mem_append_left _ (List.mem_map.mpr ⟨win, ?_, rfl⟩), rfl⟩
    exact List.mem_filter.mpr ⟨hwin, by simp [hnew]⟩
  · obtain ⟨pane, hmem, hdelta⟩ := List.mem_filterMap.mp hpane
    unfold paneOpenedOf at hdelta
    split at hdelta
    · cases hdelta
    · next hnew =>
      cases hdelta
      cases hm
      refine ⟨List.mem_append_right _ (List.mem_map.mpr ⟨pane, ?_, rfl⟩), rfl⟩
      exact List.mem_filter.mpr ⟨hmem, by simpa using hnew⟩

end Deltas

/-- The messages sent between two servers. -/
def Sends (s s' : ControlServer T) (P : Sent T → Prop) : Prop :=
  ∃ ms, s'.sent = s.sent ++ ms ∧ ∀ m ∈ ms, P m

namespace Sends

variable {s s' s'' : ControlServer T} {P : Sent T → Prop}

omit [DecidableEq T] in
theorem refl (s : ControlServer T) (P : Sent T → Prop) : Sends s s P :=
  ⟨[], (List.append_nil _).symm, fun _ h => absurd h List.not_mem_nil⟩

omit [DecidableEq T] in
theorem trans (h : Sends s s' P) (h' : Sends s' s'' P) : Sends s s'' P := by
  obtain ⟨ms, hms, hP⟩ := h
  obtain ⟨ms', hms', hP'⟩ := h'
  refine ⟨ms ++ ms', by rw [hms', hms, List.append_assoc], fun m hm => ?_⟩
  rcases List.mem_append.mp hm with hm | hm
  · exact hP m hm
  · exact hP' m hm

theorem sendTo (s : ControlServer T) (t : T) {message : Nat → SessionProxyMessage}
    (hP : ∀ seq, P ⟨t, seq, message seq⟩) : Sends s (s.sendTo t message) P := by
  unfold ControlServer.sendTo
  split
  · exact refl s P
  · next state hstate =>
    have hkey : state.transport = t := KeyedMap.key_of_get? hstate
    show ∃ ms, (if state.transport ∈ s.closed then s.sent else _) = s.sent ++ ms ∧ _
    split
    · exact ⟨[], (List.append_nil _).symm, fun _ h => absurd h List.not_mem_nil⟩
    · refine ⟨_, rfl, fun m hm => ?_⟩
      rw [List.mem_singleton.mp hm, hkey]
      exact hP state.nextSeq

end Sends

theorem modelChange_sends (s : ControlServer T) (prev next : SessionModel)
    (opts : T → DiffOptions) : Sends s (s.modelChange prev next opts) fun m =>
      ∃ identity,
        m.message ∈ diffModel prev next { opts m.transport with clientId := identity } := by
  refine foldl_keeps (P := fun s' => Sends s s' _) ⟨[], (List.append_nil _).symm,
    fun _ h => absurd h List.not_mem_nil⟩ fun t s' _ h => h.trans ?_
  unfold ControlServer.onModelChange
  split
  · exact Sends.refl s' _
  · next state _ =>
    exact foldl_keeps (P := fun s'' => Sends s' s'' _) (Sends.refl s' _)
      fun delta s'' hdelta h' => h'.trans (Sends.sendTo s'' t fun _ => ⟨state.identity, hdelta⟩)

/-! ## The answers behind the entries -/

theorem not_mem_added {prev next : SessionModel} {id : EffectId} (h : id ∈ added prev next) :
    id ∉ added next prev := by
  intro h'
  unfold added at h h'
  rcases List.mem_append.mp h with hwindow | hpane
  · obtain ⟨win, hwin, rfl⟩ := List.mem_map.mp hwindow
    have hhas := KeyedMap.has_of_mem (List.mem_filter.mp hwin).1
    simp only [List.mem_append, List.mem_map, List.mem_filter] at h'
    rcases h' with ⟨win', ⟨-, hnot⟩, heq⟩ | ⟨pane, -, heq⟩
    · rw [EffectId.window.inj heq, hhas] at hnot
      cases hnot
    · cases heq
  · obtain ⟨pane, hmem, rfl⟩ := List.mem_map.mp hpane
    have hhas := KeyedMap.has_of_mem (List.mem_filter.mp hmem).1
    simp only [List.mem_append, List.mem_map, List.mem_filter] at h'
    rcases h' with ⟨win, -, heq⟩ | ⟨pane', ⟨-, hnot⟩, heq⟩
    · cases heq
    · rw [EffectId.pane.inj heq, hhas] at hnot
      cases hnot

/-- The verb that an entry came from; a client that holds the connection id is its sender. -/
structure Owned (server : ControlServer T) (entry : OriginEntry) (a : Answer T) : Prop where
  created : entry.id ∈ a.created
  requestId : a.verb.requestId = entry.origin.requestId
  holder : ∀ t, connectionIdFor server t = some entry.origin.connectionId → t = a.verb.transport

/-- For the ids that are still to be announced: every entry is from the verb that created its
id, and every recorded verb has its entries, or they have expired. -/
structure Accounted (s : State T) : Prop where
  slots : Slots s.server
  owned : ∀ entry ∈ s.registry.entries.values, entry.id ∉ s.seen →
    ∃ a ∈ s.answered, Owned s.server entry a
  kept : ∀ a ∈ s.answered, ∀ connectionId, a.connectionId = some connectionId →
    ∀ id ∈ a.created, id ∉ s.seen →
      ⟨id, ⟨connectionId, a.verb.requestId⟩, a.recordedAtMs⟩ ∈ s.registry.entries.values ∨
        a.recordedAtMs + s.registry.ttlMs < s.clock
  told : ∀ c ∈ s.changes, Sound c ∧ Complete c

namespace Accounted

variable {s : State T}

theorem start (ttlMs maxEntries : Nat) : Accounted (Origins.start ttlMs maxEntries : State T) where
  slots := {
    distinct := fun _ _ _ h => by cases h
    unused := fun _ h => absurd h List.not_mem_nil
    nodup := List.nodup_nil
    minted := by
      rintro connectionId (h | ⟨t, h⟩)
      · cases h
      · cases h }
  owned := fun _ h => absurd h List.not_mem_nil
  kept := fun _ h => absurd h List.not_mem_nil
  told := fun _ h => absurd h List.not_mem_nil

theorem serve (h : Accounted s) {event : Serve.Event T} (hC : Attributable s (.serve event))
    {server : ControlServer T} (hstep : Serve.step s.server event = some server) :
    Accounted { s with server } := by
  by_cases hadd : ∃ t startSeq identity, event = .addClient t startSeq identity
  · obtain ⟨t, startSeq, identity, rfl⟩ := hadd
    obtain ⟨-, hserver⟩ := Option.ite_none_right_eq_some.mp hstep
    cases hserver
    refine ⟨h.slots.addClient t startSeq identity, fun entry hentry hnew => ?_, h.kept, h.told⟩
    obtain ⟨a, ha, howned⟩ := h.owned entry hentry hnew
    refine ⟨a, ha, howned.created, howned.requestId, fun t' ht' => ?_⟩
    rw [connectionIdFor_addClient] at ht'
    split at ht'
    · exact absurd (Option.some.inj ht').symm (hC entry hentry hnew)
    · exact howned.holder t' ht'
  · have hsettles := serve_settles hstep fun t startSeq identity heq =>
      hadd ⟨t, startSeq, identity, heq⟩
    refine ⟨hsettles.slots h.slots, fun entry hentry hnew => ?_, h.kept, h.told⟩
    obtain ⟨a, ha, howned⟩ := h.owned entry hentry hnew
    exact ⟨a, ha, howned.created, howned.requestId,
      fun t ht => howned.holder t (hsettles.holders t _ ht)⟩

theorem answer (h : Accounted s) {verb : Verb T} {paneId : PaneId} {windowId : WindowId} {now : Nat}
    (hclock : s.clock ≤ now) (hmax : 2 ≤ s.registry.maxEntries)
    (hroom : ∀ entry ∈ (s.registry.evictExpired now).entries.values.take
      ((s.registry.evictExpired now).entries.values.length + 2 - s.registry.maxEntries),
        entry.id ∈ s.seen)
    (hids : ∀ id ∈ [.pane paneId, .window windowId],
      id ∈ verb.kind.created paneId windowId ∨ id ∈ s.seen)
    (hfresh : ∀ id ∈ verb.kind.created paneId windowId, ∀ a ∈ s.answered, id ∉ a.created) :
    Accounted (s.answer verb paneId windowId now) := by
  have hsettles : Settles s.server (s.answer verb paneId windowId now).server :=
    sendTo_settles s.server verb.transport _
  have hold : ∀ entry a, Owned s.server entry a →
      Owned (s.answer verb paneId windowId now).server entry a :=
    fun entry a howned => ⟨howned.created, howned.requestId,
      fun t ht => howned.holder t (hsettles.holders t _ ht)⟩
  have hyoung : ∀ entry ∈ (s.registry.evictExpired now).entries.values, entry.id ∉ s.seen →
      VerbOriginRegistry.Survives 2 entry (s.registry.evictExpired now) := by
    intro entry hentry hnew
    rw [← List.take_append_drop ((s.registry.evictExpired now).entries.values.length + 2 -
      s.registry.maxEntries) (s.registry.evictExpired now).entries.values] at hentry
    exact (List.mem_append.mp hentry).resolve_left fun hold => hnew (hroom entry hold)
  -- a requester that left has no connection id, and nothing is recorded
  rcases hconn : connectionIdFor s.server verb.transport with _ | connectionId
  · have hregistry : (s.answer verb paneId windowId now).registry = s.registry := by
      unfold State.answer
      rw [hconn]
    refine ⟨hsettles.slots h.slots, fun entry hentry hnew => ?_, fun a ha c hc id hid hnew => ?_,
      h.told⟩
    · rw [hregistry] at hentry
      obtain ⟨a, ha, howned⟩ := h.owned entry hentry hnew
      exact ⟨a, List.mem_append_left _ ha, hold entry a howned⟩
    · rw [hregistry]
      rcases List.mem_append.mp ha with hbefore | hlast
      · exact (h.kept a hbefore c hc id hid hnew).imp_right fun hexpired => hexpired.trans_le hclock
      · rw [List.mem_singleton.mp hlast] at hc
        exact absurd (hconn.symm.trans hc) (by simp)
  · have hregistry : (s.answer verb paneId windowId now).registry =
        s.registry.record now paneId windowId ⟨connectionId, verb.requestId⟩ := by
      unfold State.answer
      rw [hconn]
    have hmine : ⟨verb, paneId, windowId, some connectionId, now⟩ ∈
        (s.answer verb paneId windowId now).answered := by
      unfold State.answer
      rw [hconn]
      exact List.mem_append_right _ (List.mem_singleton_self _)
    refine ⟨hsettles.slots h.slots, fun entry hentry hnew => ?_, fun a ha c hc id hid hnew => ?_,
      h.told⟩
    · rw [hregistry] at hentry
      rcases VerbOriginRegistry.mem_record hentry with ⟨id, hid, rfl⟩ | ⟨hbefore, -⟩
      · refine ⟨_, hmine, (hids id hid).resolve_right hnew, rfl, fun t ht => ?_⟩
        exact h.slots.distinct t verb.transport connectionId (hsettles.holders t _ ht) hconn
      · obtain ⟨a, ha, howned⟩ := h.owned entry hbefore hnew
        exact ⟨a, List.mem_append_left _ ha, hold entry a howned⟩
    · rw [hregistry]
      rcases List.mem_append.mp ha with hbefore | hlast
      · -- an older answer: the new keys evict no entry of an id that is still to be announced
        rcases h.kept a hbefore c hc id hid hnew with hentry | hexpired
        · by_cases hlive : a.recordedAtMs + s.registry.ttlMs < now
          · exact .inr hlive
          · refine .inl (VerbOriginRegistry.record_keeps ?_ fun hmem => ?_)
            · exact hyoung _ (List.mem_filter.mpr ⟨hentry, by simpa [VerbOriginRegistry.expired]
                using hlive⟩) hnew
            · rcases hids id hmem with hcreated | hseen
              · exact hfresh id hcreated a hbefore hid
              · exact hnew hseen
        · exact .inr (hexpired.trans_le hclock)
      · obtain rfl := List.mem_singleton.mp hlast
        obtain rfl : connectionId = c := Option.some.inj (hconn.symm.trans hc)
        refine .inl (VerbOriginRegistry.record_new (Creating.created_subset hid) hmax ?_)
        rintro entry hentry rfl
        obtain ⟨a', ha', howned⟩ := h.owned entry hentry hnew
        exact hfresh entry.id hid a' ha' howned.created

section ModelChange
variable (s) (now : Nat) (prev next : SessionModel) (opts : T → DiffOptions)

/-- The registry after a model change: the removed ids are gone, and so may be expired
entries. -/
theorem modelChange_fades :
    VerbOriginRegistry.Fades now (s.registry.clearAll (added next prev))
      (s.modelChange now prev next opts).registry :=
  foldl_keeps (P := fun registry => VerbOriginRegistry.Fades now _ registry)
    (VerbOriginRegistry.Fades.refl _) fun _ registry _ h => h.trans (registry.lookups_fades now _)

/-- What the clients get of a model change: an announced id is new, and its origin is what
the registry has for it. -/
theorem mem_modelChange {m : Sent T} {id : EffectId}
    (hm : m ∈ (s.modelChange now prev next opts).server.sent.drop s.server.sent.length)
    (hid : announces m.message = some id) : id ∈ added prev next ∧
      originOf m.message = (s.registry.clearAll (added next prev)).peek now id := by
  obtain ⟨ms, hms, hdiff⟩ := modelChange_sends s.server prev next fun t =>
    { opts t with
      windowOrigin := fun windowId =>
        (s.registry.clearAll (added next prev)).peek now (.window windowId)
      paneOrigin := fun paneId => (s.registry.clearAll (added next prev)).peek now (.pane paneId) }
  have hsent : (s.modelChange now prev next opts).server.sent = s.server.sent ++ ms := hms
  rw [hsent, List.drop_left] at hm
  obtain ⟨identity, hmem⟩ := hdiff m hm
  obtain ⟨hadded, horigin⟩ := announces_diffModel hid hmem
  refine ⟨hadded, horigin.trans ?_⟩
  cases id <;> rfl

end ModelChange

theorem modelChange_told (h : Accounted s) {now : Nat} {prev next : SessionModel}
    {opts : T → DiffOptions} (hclock : s.clock ≤ now) (hnew : ∀ id ∈ added prev next, id ∉ s.seen)
    {c : Change T} (hc : c = ⟨s.server, s.answered, now, s.registry.ttlMs,
      (s.modelChange now prev next opts).server.sent.drop s.server.sent.length⟩) :
    Sound c ∧ Complete c := by
  subst hc
  constructor
  · intro m hm id hid origin horigin hown
    obtain ⟨hadded, hpeek⟩ := mem_modelChange s now prev next opts hm hid
    obtain ⟨entry, hentry, rfl, -, rfl⟩ :=
      VerbOriginRegistry.peek_eq_some.mp (hpeek.symm.trans horigin)
    obtain ⟨hmem, -⟩ := (VerbOriginRegistry.mem_clearAll _ _).mp hentry
    obtain ⟨a, ha, howned⟩ := h.owned entry hmem (hnew entry.id hadded)
    exact ⟨a, ha, (howned.holder m.transport hown).symm, howned.requestId, howned.created⟩
  · intro a ha connectionId hconn httl id hcreated m hm hid
    obtain ⟨hadded, hpeek⟩ := mem_modelChange s now prev next opts hm hid
    have httl' : now ≤ a.recordedAtMs + s.registry.ttlMs := httl
    rcases h.kept a ha connectionId hconn id hcreated (hnew id hadded) with hentry | hexpired
    · refine hpeek.trans (VerbOriginRegistry.peek_eq_some.mpr ⟨_,
        (VerbOriginRegistry.mem_clearAll _ _).mpr ⟨hentry, not_mem_added hadded⟩, rfl, ?_, rfl⟩)
      rw [VerbOriginRegistry.expired, VerbOriginRegistry.clearAll_ttlMs, decide_eq_false_iff_not]
      exact Nat.not_lt.mpr httl'
    · exact absurd (hexpired.trans_le hclock) (Nat.not_lt.mpr httl')

theorem modelChange (h : Accounted s) {now : Nat} {prev next : SessionModel}
    {opts : T → DiffOptions} (hclock : s.clock ≤ now)
    (hnew : ∀ id ∈ added prev next, id ∉ s.seen) :
    Accounted (s.modelChange now prev next opts) := by
  have hsettles : Settles s.server (s.modelChange now prev next opts).server :=
    modelChange_settles s.server prev next _
  have hfades := modelChange_fades s now prev next opts
  have hunseen : ∀ id, id ∉ (s.modelChange now prev next opts).seen →
      id ∉ s.seen ∧ id ∉ added next prev := by
    intro id hid
    have hsplit : id ∉ s.seen ++ added prev next ++ added next prev := hid
    rw [List.mem_append, List.mem_append, not_or, not_or] at hsplit
    exact ⟨hsplit.1.1, hsplit.2⟩
  refine ⟨hsettles.slots h.slots, fun entry hentry hseen => ?_,
    fun a ha connectionId hconn id hcreated hseen => ?_, fun c hc => ?_⟩
  · have hmem := ((VerbOriginRegistry.mem_clearAll _ _).mp (hfades.mem entry hentry)).1
    obtain ⟨a, ha, howned⟩ := h.owned entry hmem (hunseen entry.id hseen).1
    exact ⟨a, ha, howned.created, howned.requestId,
      fun t ht => howned.holder t (hsettles.holders t _ ht)⟩
  · obtain ⟨hbefore, hstays⟩ := hunseen id hseen
    have httl : (s.modelChange now prev next opts).registry.ttlMs = s.registry.ttlMs :=
      hfades.ttlMs.trans (VerbOriginRegistry.clearAll_ttlMs _ _)
    rw [httl]
    rcases h.kept a ha connectionId hconn id hcreated hbefore with hentry | hexpired
    · rcases Nat.lt_or_ge (a.recordedAtMs + s.registry.ttlMs) now with hlate | hlive
      · exact .inr hlate
      · refine .inl (hfades.live _ ((VerbOriginRegistry.mem_clearAll _ _).mpr ⟨hentry, hstays⟩) ?_)
        rw [VerbOriginRegistry.expired, VerbOriginRegistry.clearAll_ttlMs, decide_eq_false_iff_not]
        exact Nat.not_lt.mpr hlive
    · exact .inr (hexpired.trans_le hclock)
  · rcases List.mem_append.mp hc with hold | hlast
    · exact h.told c hold
    · exact h.modelChange_told hclock hnew (List.mem_singleton.mp hlast)

theorem step (h : Accounted s) {event : Event T} (hC : Attributable s event) {s' : State T}
    (hstep : Origins.step s event = some s') : Accounted s' := by
  cases event with
  | serve event =>
    have hserve : (Serve.step s.server event).map (fun server => { s with server }) = some s' := by
      cases event <;> first | exact hstep | cases hstep
    obtain ⟨server, hserver, rfl⟩ := Option.map_eq_some_iff.mp hserve
    exact h.serve hC hserver
  | request t requestId command =>
    cases hstep
    split
    · exact ⟨h.slots, h.owned, h.kept, h.told⟩
    · exact h
  | reply index ids now =>
    obtain ⟨verb, hverb, hreply⟩ := Option.bind_eq_some_iff.mp hstep
    have herased : Accounted { s with outstanding := s.outstanding.eraseIdx index } :=
      ⟨h.slots, h.owned, h.kept, h.told⟩
    cases ids with
    | none =>
      cases hreply
      exact herased
    | some ids =>
      obtain ⟨paneId, windowId⟩ := ids
      obtain ⟨hfresh, hs'⟩ := Option.ite_none_right_eq_some.mp hreply
      cases hs'
      obtain ⟨hclock, hmax, hroom, hids⟩ := hC
      exact herased.answer hclock hmax hroom (hids verb hverb) hfresh
  | modelChange now prev next opts =>
    cases hstep
    exact h.modelChange hC.1 hC.2

end Accounted

/-! ## Main result -/

/-- In every run that meets the condition, no client is ever told that it created what it did
not create, and every client is told of every verb that was recorded in time. -/
theorem origins_attributed (ttlMs maxEntries : Nat) {events : List (Event T)}
    (hrun : Along step Attributable (start ttlMs maxEntries) events) {s : State T}
    (hs : exec step (start ttlMs maxEntries) events = some s) :
    ∀ c ∈ s.changes, Sound c ∧ Complete c :=
  (exec_invariant (fun _ _ _ h hC hstep => Accounted.step h hC hstep)
    (Accounted.start ttlMs maxEntries) hrun hs).told

def w1 : Window :=
  { windowId := ⟨"w1"⟩, sessionId := ⟨"s0"⟩, name := "sh", paneIds := [], activePaneId := none
    layout := none, synchronizePanes := false, monitorActivity := false, monitorSilence := 0 }

def p1 : Pane :=
  { paneId := ⟨"p1"⟩, windowId := ⟨"w1"⟩, sessionId := ⟨"s0"⟩, cols := 80, rows := 24, mode := ""
    dead := false, label := none, detach := none, icon := none, paneTitle := none, exitCode := none
    overlay := emptyPaneOverlay }

def oneWindow : SessionModel := { emptyModel with windows := ⟨[w1], by decide⟩ }

def onePane : SessionModel := { oneWindow with panes := ⟨[p1], by decide⟩ }

/-- A client comes and gets its snapshot. -/
def joins (t : Bool) : List (Event Bool) :=
  [.serve (.addClient t 1 none), .serve (.subscribe t), .serve (.sendFirstSnapshot t)]

/-- The first client splits the window, and the verb is recorded. -/
def splits : List (Event Bool) :=
  joins false ++ [.modelChange 0 emptyModel oneWindow fun _ => {},
    .request false "r1" (.splitPane none .horizontal none none none),
    .reply 0 (some (⟨"p1"⟩, ⟨"w1"⟩)) 1]

/-- The pane is announced to its creator and to a second client. -/
def announced : List (Event Bool) :=
  splits ++ joins true ++ [.modelChange 2 oneWindow onePane fun _ => {}]

/-- The creator leaves, and the second client gets its connection id. -/
def inherited : List (Event Bool) :=
  splits ++ [.serve (.closeTransport false)] ++ joins true ++
    [.modelChange 2 oneWindow onePane fun _ => {}]

instance decidableAttributable (s : State T) : ∀ event, Decidable (Attributable s event)
  | .serve (.addClient ..) => inferInstanceAs (Decidable (∀ entry ∈ s.registry.entries.values, _))
  | .reply _ (some (_, _)) now =>
    inferInstanceAs (Decidable (s.clock ≤ now ∧ 2 ≤ s.registry.maxEntries ∧ (∀ entry ∈ _, _) ∧ _))
  | .modelChange now prev next _ =>
    inferInstanceAs (Decidable (s.clock ≤ now ∧ ∀ id ∈ added prev next, id ∉ s.seen))
  | .serve (.subscribe _) | .serve (.sendFirstSnapshot _) | .serve (.closeTransport _)
  | .serve (.removeClient _) | .serve (.modelChange ..) | .serve .paneNotify
  | .serve .broadcastError | .serve .broadcastErrorAndClose | .serve (.sendCommandResponse _)
  | .serve (.sendDirected _) | .serve (.resyncRequest _) | .request .. | .reply _ none _ =>
    .isTrue trivial

theorem origins_attributed_announced : ∃ s,
    exec step (start DEFAULT_TTL_MS DEFAULT_MAX_ENTRIES) announced = some s ∧
      ∀ c ∈ s.changes, Sound c ∧ Complete c :=
  ⟨_, rfl, origins_attributed _ _ (show Along step Attributable (start DEFAULT_TTL_MS
    DEFAULT_MAX_ENTRIES) announced by decide +kernel) rfl⟩

theorem inherited_origin : ∃ s,
    exec step (start DEFAULT_TTL_MS DEFAULT_MAX_ENTRIES) inherited = some s ∧
      ∃ c ∈ s.changes, ¬Sound c := by
  refine ⟨_, rfl, _, List.mem_append_right _ (List.mem_singleton_self _), fun h => ?_⟩
  obtain ⟨a, ha, hsender, -⟩ := h _ (List.mem_of_getElem? (i := 0) rfl) (.pane ⟨"p1"⟩) rfl
    ⟨⟨"conn1"⟩, "r1"⟩ rfl (by decide +kernel)
  rw [List.mem_singleton.mp ha] at hsender
  cases hsender

end TmuxccDriver.Runtime.Origins
