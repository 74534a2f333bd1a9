import TmuxccDriver.Lib.Run
import TmuxccDriver.State.Projection

/-!
# Close causes

`runtime/close-cause.ts`: the verb that closed a pane, for the `pane.closed` delta. A lookup
consumes the entry. `runtime/session-proxy.ts` records the verbs, and clears the entries of
the removed panes in a subscriber of its own; `runtime/serve.ts` diffs once for each client,
with the lookup.

What is due for a pane is kept apart from the registry: the verb that was acknowledged last for
it, of those whose panes have not been removed, within the time-to-live and the size cap
(`Limits`).

Results:
1. `consumeAll_spec`: what one diff sees of the registry and leaves of it.
2. `attributed_iff`: which orders of the subscribers bring the cause to every client.
3. `Agrees.step`: the registry holds the panes that were captured when the verbs were sent.
4. `close_cause_iff`: in which runs every client gets the cause that is due.
-/

namespace TmuxccDriver.Runtime.Closing
open TmuxccDriver.Lib TmuxccDriver.Protocol TmuxccDriver.State

variable {T : Type}

/-! ## Registry -/

def DEFAULT_TTL_MS : Nat := 30000

def DEFAULT_MAX_ENTRIES : Nat := 1024

structure CauseEntry where
  paneId : PaneId
  cause : Origin
  recordedAtMs : Nat
deriving DecidableEq

structure CloseCauseRegistry where
  ttlMs : Nat
  maxEntries : Nat
  entries : KeyedMap CauseEntry.paneId

def createCloseCauseRegistry (ttlMs maxEntries : Nat) : CloseCauseRegistry :=
  ⟨ttlMs, maxEntries, .empty⟩

namespace CloseCauseRegistry

/-- `entry.recordedAtMs < now() - ttlMs`. -/
def expired (reg : CloseCauseRegistry) (now : Nat) (entry : CauseEntry) : Bool :=
  entry.recordedAtMs + reg.ttlMs < now

def evictExpired (reg : CloseCauseRegistry) (now : Nat) : CloseCauseRegistry :=
  { reg with entries := reg.entries.filter fun entry => !reg.expired now entry }

/-- The loop of `record` that drops the oldest entries until the size is under the cap. -/
def evictOldest (reg : CloseCauseRegistry) : CloseCauseRegistry :=
  { reg with entries := reg.entries.drop (reg.entries.values.length - reg.maxEntries) }

def record (reg : CloseCauseRegistry) (now : Nat) (paneId : PaneId) (cause : Origin) :
    CloseCauseRegistry :=
  let reg := reg.evictExpired now
  { reg with entries := reg.entries.set ⟨paneId, cause, now⟩ }.evictOldest

def clear (reg : CloseCauseRegistry) (paneId : PaneId) : CloseCauseRegistry :=
  { reg with entries := reg.entries.delete paneId }

def consume (reg : CloseCauseRegistry) (now : Nat) (paneId : PaneId) :
    Option Origin × CloseCauseRegistry :=
  match reg.entries.get? paneId with
  | none => (none, reg)
  | some entry =>
    if reg.expired now entry then (none, reg.clear paneId) else (some entry.cause, reg.clear paneId)

/-- The cause that `consume` would return. -/
def peek (reg : CloseCauseRegistry) (now : Nat) (paneId : PaneId) : Option Origin :=
  (reg.consume now paneId).1

end CloseCauseRegistry

/-! ## Subscribers -/

/-- The panes that phase 9 of `diffModel` and the proxy's own subscriber go over. -/
def removedPanes (prev next : SessionModel) : List PaneId :=
  (prev.panes.values.filter fun pane => !next.panes.has pane.paneId).map Pane.paneId

namespace CloseCauseRegistry

/-- The lookups of one diff, one for each removed pane. -/
def consumeAll (reg : CloseCauseRegistry) (now : Nat) (panes : List PaneId) :
    (PaneId → Option Origin) × CloseCauseRegistry :=
  panes.foldl (fun acc paneId =>
    let (cause, reg) := acc.2.consume now paneId
    (fun p => if p = paneId then cause else acc.1 p, reg)) (fun _ => none, reg)

def clearAll (reg : CloseCauseRegistry) (panes : List PaneId) : CloseCauseRegistry :=
  panes.foldl clear reg

end CloseCauseRegistry

section Emission
variable (now : Nat) (prev next : SessionModel) (opts : T → DiffOptions)

/-- The subscriber of one client: a diff for the client, with its own view of the model. -/
def onClient (acc : CloseCauseRegistry × List (T × SessionProxyMessage)) (client : T) :
    CloseCauseRegistry × List (T × SessionProxyMessage) :=
  let (lookup, reg) := acc.1.consumeAll now (removedPanes prev next)
  let deltas := diffModel prev next { opts client with closeCause := lookup }
  (reg, acc.2 ++ deltas.map fun delta => (client, delta))

/-- `_emitModelChange`: the subscribers are called one after another, some clients before
the session proxy's own subscriber and some after it. -/
def emitModelChange (reg : CloseCauseRegistry) (before after : List T) :
    CloseCauseRegistry × List (T × SessionProxyMessage) :=
  let (reg, sent) := before.foldl (onClient now prev next opts) (reg, [])
  after.foldl (onClient now prev next opts) (reg.clearAll (removedPanes prev next), sent)

end Emission

/-! ## Runs -/

/-- The time-to-live and the size cap. -/
structure Limits where
  ttlMs : Nat
  maxEntries : Nat

namespace Limits

variable (limits : Limits) (now : Nat)

def fresh (entry : CauseEntry) : Bool := now ≤ entry.recordedAtMs + limits.ttlMs

/-- One more pane waits to be removed: of those whose time is not over, the last ones under the
cap. A pane that waits already keeps its place. -/
def await (cause : Origin) (waiting : KeyedMap CauseEntry.paneId) (paneId : PaneId) :
    KeyedMap CauseEntry.paneId :=
  let waiting := (waiting.filter (limits.fresh now)).set ⟨paneId, cause, now⟩
  waiting.drop (waiting.values.length - limits.maxEntries)

/-- The cause of a pane that waits. -/
def causeOf (waiting : KeyedMap CauseEntry.paneId) (paneId : PaneId) : Option Origin :=
  ((waiting.get? paneId).filter (limits.fresh now)).map CauseEntry.cause

end Limits

/-- What a verb closes in tmux: a pane, or the panes of a window. -/
inductive Target
  | pane (paneId : PaneId)
  | window (windowId : WindowId)
deriving DecidableEq

/-- tmux closes these panes for a verb that succeeds. What panes a window has is known to tmux
only. -/
def Target.Closes : Target → List PaneId → Prop
  | .pane paneId, closed => closed = [paneId]
  | .window _, _ => True

instance (target : Target) (closed : List PaneId) : Decidable (target.Closes closed) :=
  match target with
  | .pane _ => inferInstanceAs (Decidable (_ = _))
  | .window _ => .isTrue trivial

def closeTarget : WireCommand → Option Target
  | .closePane paneId => some (.pane paneId)
  | .killWindow windowId => some (.window windowId)
  | _ => none

/-- The panes that `closeCauseCapture` captures. -/
def capturedPanes (model : SessionModel) : Target → List PaneId
  | .pane paneId => [paneId]
  | .window windowId =>
    (model.panes.values.filter fun pane => pane.windowId = windowId).map Pane.paneId

/-- A verb that closes panes, and the panes that were captured when it was sent. -/
structure CloseVerb where
  origin : Origin
  target : Target
  panes : List PaneId

/-- One model change, the cause that is due for each pane, and what the clients got. -/
structure Change (T : Type) where
  prev : SessionModel
  next : SessionModel
  due : PaneId → Option Origin
  clients : List T
  sent : List (T × SessionProxyMessage)

/-- `closing` are the panes that tmux has closed for acknowledged verbs, and `captured` those
that were captured for them, until they are removed. -/
structure Run (T : Type) where
  limits : Limits
  registry : CloseCauseRegistry
  model : SessionModel
  outstanding : List CloseVerb
  closing : KeyedMap CauseEntry.paneId
  captured : KeyedMap CauseEntry.paneId
  changes : List (Change T)

def start (ttlMs maxEntries : Nat) : Run T where
  limits := ⟨ttlMs, maxEntries⟩
  registry := createCloseCauseRegistry ttlMs maxEntries
  model := emptyModel
  outstanding := []
  closing := .empty
  captured := .empty
  changes := []

inductive Event (T : Type)
  | request (connectionId : ConnectionId) (requestId : String) (command : WireCommand)
  /-- tmux's reply to an outstanding verb: the panes it has closed, or `none` for an error. -/
  | reply (index : Nat) (closed : Option (List PaneId)) (now : Nat)
  | modelChange (now : Nat) (prev next : SessionModel) (opts : T → DiffOptions)
      (before after : List T)

/-- The panes without those that are removed. -/
def without (waiting : KeyedMap CauseEntry.paneId) (removed : List PaneId) :
    KeyedMap CauseEntry.paneId :=
  waiting.filter fun entry => entry.paneId ∉ removed

namespace Run

variable (r : Run T)

/-- The cause due for a pane. -/
def due (now : Nat) (paneId : PaneId) : Option Origin := r.limits.causeOf now r.closing paneId

/-- The cause that the captures tell for a pane. -/
def capturedCause (now : Nat) (paneId : PaneId) : Option Origin :=
  r.limits.causeOf now r.captured paneId

/-- `closeCauseCapture` as the reply runs it. -/
def acknowledge (now : Nat) (verb : CloseVerb) (closed : List PaneId) : Run T :=
  { r with
    registry := verb.panes.foldl (fun reg paneId => reg.record now paneId verb.origin) r.registry
    closing := closed.foldl (r.limits.await now verb.origin) r.closing
    captured := verb.panes.foldl (r.limits.await now verb.origin) r.captured }

def change (now : Nat) (prev next : SessionModel) (opts : T → DiffOptions)
    (before after : List T) : Run T :=
  let (registry, sent) := emitModelChange now prev next opts r.registry before after
  { r with
    registry
    model := next
    closing := without r.closing (removedPanes prev next)
    captured := without r.captured (removedPanes prev next)
    changes := r.changes ++ [⟨prev, next, r.due now, before ++ after, sent⟩] }

end Run

def step (r : Run T) : Event T → Option (Run T)
  | .request connectionId requestId command =>
    some (match closeTarget command with
      | some target =>
        { r with
          outstanding := r.outstanding ++
            [⟨⟨connectionId, requestId⟩, target, capturedPanes r.model target⟩] }
      | none => r)
  | .reply index closed now =>
    r.outstanding[index]?.bind fun verb =>
      let r := { r with outstanding := r.outstanding.eraseIdx index }
      match closed with
      | none => some r
      | some closed =>
        if verb.target.Closes closed then some (r.acknowledge now verb closed) else none
  | .modelChange now prev next opts before after => some (r.change now prev next opts before after)

/-- Every client gets one `pane.closed` delta for each removed pane, with the cause due. -/
def Attributed (c : Change T) : Prop :=
  ∀ client ∈ c.clients, ∀ pane ∈ c.prev.panes.values, c.next.panes.has pane.paneId = false →
    ∀ cause, (client, .paneClosed pane.paneId pane.windowId (wireExitCode pane) cause) ∈ c.sent ↔
      cause = c.due pane.paneId

/-- Only the first client called before the session proxy's own subscriber finds causes: they
are the ones due, and none is due if there is another client. -/
def Delivers (due captured : PaneId → Option Origin) (removed : List PaneId) :
    List T → List T → Prop
  | [], after => after = [] ∨ ∀ p ∈ removed, due p = none
  | _ :: rest, after =>
    (∀ p ∈ removed, captured p = due p) ∧ (rest ++ after = [] ∨ ∀ p ∈ removed, due p = none)

def Reaches (r : Run T) : Event T → Prop
  | .modelChange now prev next _ before after =>
    Delivers (r.due now) (r.capturedCause now) (removedPanes prev next) before after
  | _ => True

/-! ## What one diff sees -/

theorem CloseCauseRegistry.peek_eq (reg : CloseCauseRegistry) (now : Nat) (p : PaneId) :
    reg.peek now p = (reg.entries.get? p).bind fun entry =>
      if reg.expired now entry then none else some entry.cause := by
  unfold peek consume
  rcases reg.entries.get? p with _ | entry
  · rfl
  · dsimp only [Option.bind_some]
    split <;> rfl

/-- The second registry is the first one without the entries of some panes. -/
structure Drops (reg reg' : CloseCauseRegistry) (panes : List PaneId) : Prop where
  ttlMs : reg'.ttlMs = reg.ttlMs
  maxEntries : reg'.maxEntries = reg.maxEntries
  entries : reg'.entries = without reg.entries panes

theorem without_without (waiting : KeyedMap CauseEntry.paneId) (panes panes' : List PaneId) :
    without (without waiting panes) panes' = without waiting (panes ++ panes') := by
  refine KeyedMap.eq_of_values ((List.filter_filter ..).trans (List.filter_congr fun entry _ => ?_))
  simp [Bool.and_comm]

theorem without_of_not_mem {waiting : KeyedMap CauseEntry.paneId} {panes : List PaneId}
    (h : ∀ p ∈ panes, waiting.get? p = none) : without waiting panes = waiting := by
  refine KeyedMap.eq_of_values (List.filter_eq_self.mpr fun entry hentry => ?_)
  refine decide_eq_true fun hmem => ?_
  exact KeyedMap.get?_eq_none.mp (h entry.paneId hmem) entry hentry rfl

theorem get?_without (waiting : KeyedMap CauseEntry.paneId) (panes : List PaneId) (p : PaneId) :
    (without waiting panes).get? p = if p ∈ panes then none else waiting.get? p := by
  refine (waiting.get?_filter_key (fun q => decide (q ∉ panes)) p).trans ?_
  by_cases hp : p ∈ panes <;> simp [hp]

namespace Drops

variable {reg reg' reg'' : CloseCauseRegistry} {panes panes' : List PaneId}

theorem refl (reg : CloseCauseRegistry) : Drops reg reg [] :=
  ⟨rfl, rfl, (without_of_not_mem fun _ hp => absurd hp List.not_mem_nil).symm⟩

theorem trans (h : Drops reg reg' panes) (h' : Drops reg' reg'' panes') :
    Drops reg reg'' (panes ++ panes') :=
  ⟨h'.ttlMs.trans h.ttlMs, h'.maxEntries.trans h.maxEntries, by
    rw [h'.entries, h.entries, without_without]⟩

theorem get? (h : Drops reg reg' panes) (p : PaneId) :
    reg'.entries.get? p = if p ∈ panes then none else reg.entries.get? p := by
  rw [h.entries, get?_without]

/-- What is gone stays gone. -/
theorem again (h : Drops reg reg' panes) (h' : Drops reg' reg'' panes) : Drops reg reg'' panes := by
  refine ⟨h'.ttlMs.trans h.ttlMs, h'.maxEntries.trans h.maxEntries, ?_⟩
  rw [h'.entries, without_of_not_mem fun p hp => by rw [h.get?, if_pos hp], h.entries]

theorem peek (h : Drops reg reg' panes) (now : Nat) (p : PaneId) :
    reg'.peek now p = if p ∈ panes then none else reg.peek now p := by
  rw [CloseCauseRegistry.peek_eq, CloseCauseRegistry.peek_eq, h.get?]
  unfold CloseCauseRegistry.expired
  rw [h.ttlMs]
  split <;> rfl

end Drops

namespace CloseCauseRegistry

theorem clear_drops (reg : CloseCauseRegistry) (p : PaneId) : Drops reg (reg.clear p) [p] := by
  refine ⟨rfl, rfl, KeyedMap.eq_of_values (List.filter_congr fun entry _ => ?_)⟩
  simp

theorem consume_drops (reg : CloseCauseRegistry) (now : Nat) (p : PaneId) :
    Drops reg (reg.consume now p).2 [p] := by
  unfold consume
  split
  · next hnone =>
    refine ⟨rfl, rfl, (without_of_not_mem fun q hq => ?_).symm⟩
    rw [List.mem_singleton.mp hq, hnone]
  · split <;> exact reg.clear_drops p

theorem clearAll_drops (reg : CloseCauseRegistry) (panes : List PaneId) :
    Drops reg (reg.clearAll panes) panes :=
  foldl_done (P := fun done reg' => Drops reg reg' done) (Drops.refl reg)
    fun _ p reg' _ h => h.trans (reg'.clear_drops p)

/-- A diff takes the entries of the removed panes, and leaves none of them. -/
theorem consumeAll_spec (reg : CloseCauseRegistry) (now : Nat) {panes : List PaneId}
    (hnodup : panes.Nodup) :
    (∀ p, (reg.consumeAll now panes).1 p = if p ∈ panes then reg.peek now p else none) ∧
      Drops reg (reg.consumeAll now panes).2 panes := by
  have hloop : ∀ (panes : List PaneId) (acc : (PaneId → Option Origin) × CloseCauseRegistry),
      panes.Nodup → (∀ p, (panes.foldl (fun acc paneId =>
          let (cause, reg) := acc.2.consume now paneId
          (fun p => if p = paneId then cause else acc.1 p, reg)) acc).1 p =
            if p ∈ panes then acc.2.peek now p else acc.1 p) ∧
        Drops acc.2 (panes.foldl (fun acc paneId =>
          let (cause, reg) := acc.2.consume now paneId
          (fun p => if p = paneId then cause else acc.1 p, reg)) acc).2 panes := by
    intro panes
    induction panes with
    | nil => exact fun acc _ => ⟨fun _ => rfl, Drops.refl _⟩
    | cons q panes ih =>
      intro acc hnodup
      obtain ⟨hq, hpanes⟩ := List.nodup_cons.mp hnodup
      have hconsume := acc.2.consume_drops now q
      obtain ⟨hlookup, hdrops⟩ := ih
        (fun p => if p = q then (acc.2.consume now q).1 else acc.1 p, (acc.2.consume now q).2)
          hpanes
      refine ⟨fun p => (hlookup p).trans ?_, hconsume.trans hdrops⟩
      rw [hconsume.peek]
      rcases eq_or_ne p q with rfl | hne
      · simp [hq, peek]
      · simp [hne]
  exact hloop panes (fun _ => none, reg) hnodup

end CloseCauseRegistry

/-! ## What the clients get -/

theorem nodup_removedPanes (prev next : SessionModel) : (removedPanes prev next).Nodup :=
  prev.panes.nodup.sublist (List.filter_sublist.map _)

theorem mem_removedPanes {prev next : SessionModel} {pane : Pane} (hpane : pane ∈ prev.panes.values)
    (hremoved : next.panes.has pane.paneId = false) : pane.paneId ∈ removedPanes prev next :=
  List.mem_map_of_mem (List.mem_filter.mpr ⟨hpane, by simp [hremoved]⟩)

theorem pane_of_removed {prev next : SessionModel} {p : PaneId} (h : p ∈ removedPanes prev next) :
    ∃ pane ∈ prev.panes.values, next.panes.has pane.paneId = false ∧ pane.paneId = p := by
  obtain ⟨pane, hfilter, hid⟩ := List.mem_map.mp h
  obtain ⟨hpane, hgone⟩ := List.mem_filter.mp hfilter
  exact ⟨pane, hpane, by simpa using hgone, hid⟩

/-- No other phase writes a `pane.closed` delta. -/
theorem paneClosed_phase {prev next : SessionModel} {opts : DiffOptions} {p : PaneId}
    {w : WindowId} {exitCode : Option Nat} {cause : Option Origin}
    (h : .paneClosed p w exitCode cause ∈ diffModel prev next opts) :
    .paneClosed p w exitCode cause ∈ prev.panes.values.filterMap (paneClosedOf next opts) := by
  have hsession : .paneClosed p w exitCode cause ∉ sessionRenamed prev next := by
    unfold sessionRenamed
    split
    · split <;> simp
    · simp
  have hfocus : .paneClosed p w exitCode cause ∉ focusChanged prev next := by
    unfold focusChanged
    split <;> simp
  simpa [diffModel, onKeptPane, onKeptWindow, windowAddedOf, paneOpenedOf, layoutUpdatedOf,
    paneMovedOf, paneResizedOf, paneModeChangedOf, paneLabelChangedOf, panePolicyChangedOf,
    paneDeadChangedOf, paneTitleChangedOf, windowRenamedOf, windowSyncChangedOf,
    windowMonitorActivityChangedOf, windowMonitorSilenceChangedOf, windowClosedOf, hsession,
    hfocus, Option.bind_eq_some_iff] using h

/-- The one `pane.closed` delta of a removed pane. -/
theorem paneClosed_mem_diffModel {prev next : SessionModel} {opts : DiffOptions} {pane : Pane}
    (hpane : pane ∈ prev.panes.values) (hremoved : next.panes.has pane.paneId = false)
    (cause : Option Origin) :
    .paneClosed pane.paneId pane.windowId (wireExitCode pane) cause ∈ diffModel prev next opts ↔
      cause = opts.closeCause pane.paneId := by
  have hphase : .paneClosed pane.paneId pane.windowId (wireExitCode pane)
      (opts.closeCause pane.paneId) ∈ prev.panes.values.filterMap (paneClosedOf next opts) :=
    List.mem_filterMap.mpr ⟨pane, hpane, by simp [paneClosedOf, hremoved]⟩
  constructor
  · intro h
    obtain ⟨pane', -, hdelta⟩ := List.mem_filterMap.mp (paneClosed_phase h)
    unfold paneClosedOf at hdelta
    split at hdelta
    · cases hdelta
    · have hmessage := Option.some.inj hdelta
      rw [SessionProxyMessage.paneClosed.injEq] at hmessage
      obtain ⟨hpaneId, -, -, hcause⟩ := hmessage
      rw [← hcause, hpaneId]
  · rintro rfl
    unfold diffModel
    exact List.mem_append_left _ (List.mem_append_right _ hphase)

section Emission
variable {now : Nat} {prev next : SessionModel} {opts : T → DiffOptions}

/-- What one client is sent, if these are the answers of the lookup. -/
def deltasTo (prev next : SessionModel) (opts : T → DiffOptions) (lookup : PaneId → Option Origin)
    (client : T) : List (T × SessionProxyMessage) :=
  (diffModel prev next { opts client with closeCause := lookup }).map fun delta => (client, delta)

/-- What a diff is answered by a registry. -/
def lookupOf (reg : CloseCauseRegistry) (now : Nat) (prev next : SessionModel) (p : PaneId) :
    Option Origin :=
  if p ∈ removedPanes prev next then reg.peek now p else none

variable (now) in
theorem lookupOf_drops {reg reg' : CloseCauseRegistry}
    (h : Drops reg reg' (removedPanes prev next)) :
    lookupOf reg' now prev next = fun _ => none := by
  funext p
  unfold lookupOf
  split
  · next hp => rw [h.peek, if_pos hp]
  · rfl

variable (now prev next opts) in
theorem onClient_spec (acc : CloseCauseRegistry × List (T × SessionProxyMessage)) (client : T) :
    (onClient now prev next opts acc client).2 =
        acc.2 ++ deltasTo prev next opts (lookupOf acc.1 now prev next) client ∧
      Drops acc.1 (onClient now prev next opts acc client).1 (removedPanes prev next) := by
  obtain ⟨hlookup, hdrops⟩ := acc.1.consumeAll_spec now (nodup_removedPanes prev next)
  refine ⟨?_, hdrops⟩
  show _ ++ (diffModel prev next { opts client with
    closeCause := (acc.1.consumeAll now (removedPanes prev next)).1 }).map _ = _
  rw [show (acc.1.consumeAll now (removedPanes prev next)).1 = lookupOf acc.1 now prev next from
    funext hlookup]
  rfl

variable (opts) in
/-- Clients called with nothing left in the registry for the removed panes. -/
theorem foldl_onClient_blank (clients : List T)
    (acc : CloseCauseRegistry × List (T × SessionProxyMessage))
    (hblank : lookupOf acc.1 now prev next = fun _ => none) :
    (clients.foldl (onClient now prev next opts) acc).2 =
        acc.2 ++ clients.flatMap (deltasTo prev next opts fun _ => none) ∧
      lookupOf (clients.foldl (onClient now prev next opts) acc).1 now prev next =
        fun _ => none := by
  induction clients generalizing acc with
  | nil => exact ⟨(List.append_nil _).symm, hblank⟩
  | cons client clients ih =>
    obtain ⟨hsent, hdrops⟩ := onClient_spec now prev next opts acc client
    obtain ⟨hrest, hlast⟩ := ih _ (lookupOf_drops now hdrops)
    rw [hblank] at hsent
    refine ⟨?_, hlast⟩
    rw [List.foldl_cons, hrest, hsent, List.flatMap_cons, List.append_assoc]

theorem mem_deltasTo {lookup : PaneId → Option Origin} {client client' : T} {pane : Pane}
    (hpane : pane ∈ prev.panes.values) (hremoved : next.panes.has pane.paneId = false)
    (cause : Option Origin) :
    (client, .paneClosed pane.paneId pane.windowId (wireExitCode pane) cause) ∈
        deltasTo prev next opts lookup client' ↔ client' = client ∧ cause = lookup pane.paneId := by
  unfold deltasTo
  rw [List.mem_map]
  constructor
  · rintro ⟨delta, hdelta, heq⟩
    obtain ⟨rfl, rfl⟩ := Prod.mk.inj heq
    exact ⟨rfl, (paneClosed_mem_diffModel hpane hremoved cause).mp hdelta⟩
  · rintro ⟨rfl, hcause⟩
    exact ⟨_, (paneClosed_mem_diffModel hpane hremoved cause).mpr hcause, rfl⟩

/-- The first client takes the causes, if it is called before the proxy's own subscriber;
every other client finds none. -/
theorem emitModelChange_sent (reg : CloseCauseRegistry) (before after : List T) :
    (emitModelChange now prev next opts reg before after).2 =
      match before with
      | [] => after.flatMap (deltasTo prev next opts fun _ => none)
      | client :: clients => deltasTo prev next opts (lookupOf reg now prev next) client ++
          (clients ++ after).flatMap (deltasTo prev next opts fun _ => none) := by
  unfold emitModelChange
  rcases before with _ | ⟨client, clients⟩
  · have hblank := lookupOf_drops now (reg.clearAll_drops (removedPanes prev next))
    exact (foldl_onClient_blank opts after (reg.clearAll (removedPanes prev next), []) hblank).1
  · obtain ⟨hfirst, hdrops⟩ := onClient_spec now prev next opts (reg, []) client
    obtain ⟨hsent, -⟩ := foldl_onClient_blank opts clients _
      (lookupOf_drops now hdrops)
    obtain ⟨hlast, -⟩ := foldl_onClient_blank opts after
      (((client :: clients).foldl (onClient now prev next opts) (reg, [])).1.clearAll
          (removedPanes prev next),
        ((client :: clients).foldl (onClient now prev next opts) (reg, [])).2)
      (lookupOf_drops now (CloseCauseRegistry.clearAll_drops _ _))
    rw [List.foldl_cons] at hlast ⊢
    rw [hlast, hsent, hfirst, List.nil_append, List.append_assoc, ← List.flatMap_append]

/-- Who gets which cause for a removed pane. -/
theorem closed_sent_iff (reg : CloseCauseRegistry) (before after : List T) {pane : Pane}
    (hpane : pane ∈ prev.panes.values) (hremoved : next.panes.has pane.paneId = false)
    (client : T) (cause : Option Origin) :
    (client, .paneClosed pane.paneId pane.windowId (wireExitCode pane) cause) ∈
        (emitModelChange now prev next opts reg before after).2 ↔
      match before with
      | [] => client ∈ after ∧ cause = none
      | first :: rest => first = client ∧ cause = reg.peek now pane.paneId ∨
          client ∈ rest ++ after ∧ cause = none := by
  have hblank : ∀ clients : List T,
      ((client, .paneClosed pane.paneId pane.windowId (wireExitCode pane) cause) ∈
        clients.flatMap (deltasTo prev next opts fun _ => none) ↔
          client ∈ clients ∧ cause = none) := by
    intro clients
    rw [List.mem_flatMap]
    constructor
    · rintro ⟨client', hclient', hmem⟩
      obtain ⟨rfl, hcause⟩ := (mem_deltasTo hpane hremoved cause).mp hmem
      exact ⟨hclient', hcause⟩
    · rintro ⟨hclient, hcause⟩
      exact ⟨client, hclient, (mem_deltasTo hpane hremoved cause).mpr ⟨rfl, hcause⟩⟩
  rw [emitModelChange_sent]
  rcases before with _ | ⟨first, rest⟩
  · exact hblank after
  · rw [List.mem_append, hblank, mem_deltasTo hpane hremoved, lookupOf,
      if_pos (mem_removedPanes hpane hremoved)]

/-- Which orders of the subscribers bring the causes to every client. -/
theorem attributed_iff {due captured : PaneId → Option Origin} {reg : CloseCauseRegistry}
    (hcaptured : ∀ p, reg.peek now p = captured p) (before after : List T) :
    Attributed ⟨prev, next, due, before ++ after,
        (emitModelChange now prev next opts reg before after).2⟩ ↔
      Delivers due captured (removedPanes prev next) before after := by
  -- a client that finds nothing shows that nothing was due
  have hblank : ∀ client ∈ before.tail ++ after, Attributed ⟨prev, next, due, before ++ after,
      (emitModelChange now prev next opts reg before after).2⟩ →
      ∀ p ∈ removedPanes prev next, due p = none := by
    intro client hclient h p hp
    obtain ⟨pane, hpane, hremoved, rfl⟩ := pane_of_removed hp
    have hmember : client ∈ before ++ after :=
      ((List.tail_sublist before).append_right after).subset hclient
    refine ((h client hmember pane hpane hremoved none).mp ?_).symm
    refine (closed_sent_iff reg before after hpane hremoved client none).mpr ?_
    rcases before with _ | ⟨first, rest⟩
    · exact ⟨hclient, rfl⟩
    · exact .inr ⟨hclient, rfl⟩
  have hnone : before.tail ++ after = [] ∨ ∃ client, client ∈ before.tail ++ after := by
    rcases before.tail ++ after with _ | ⟨client, rest⟩
    · exact .inl rfl
    · exact .inr ⟨client, List.mem_cons_self⟩
  rcases before with _ | ⟨first, rest⟩
  · constructor
    · exact fun h => hnone.imp id fun ⟨client, hclient⟩ => hblank client hclient h
    · rintro (rfl | hdue) client hclient pane hpane hremoved cause
      · cases hclient
      · refine (closed_sent_iff reg [] after hpane hremoved client cause).trans ?_
        show _ ↔ cause = due pane.paneId
        rw [hdue pane.paneId (mem_removedPanes hpane hremoved)]
        exact and_iff_right hclient
  · constructor
    · refine fun h =>
        ⟨fun p hp => ?_, hnone.imp id fun ⟨client, hclient⟩ => hblank client hclient h⟩
      obtain ⟨pane, hpane, hremoved, rfl⟩ := pane_of_removed hp
      refine (h first List.mem_cons_self pane hpane hremoved (captured pane.paneId)).mp ?_
      exact (closed_sent_iff reg _ after hpane hremoved first _).mpr
        (.inl ⟨rfl, (hcaptured _).symm⟩)
    · rintro ⟨hsame, hrest⟩ client hclient pane hpane hremoved cause
      have hp := mem_removedPanes hpane hremoved
      refine (closed_sent_iff reg _ after hpane hremoved client cause).trans ?_
      show first = client ∧ cause = reg.peek now pane.paneId ∨ client ∈ rest ++ after ∧
        cause = none ↔
        cause = due pane.paneId
      rw [hcaptured, hsame _ hp]
      rcases hrest with hempty | hdue
      · rw [List.cons_append, hempty] at hclient
        simp [hempty, (List.mem_singleton.mp hclient).symm]
      · rw [hdue _ hp, ← or_and_right]
        refine and_iff_right ((List.mem_cons.mp hclient).imp Eq.symm id)

/-- A model change leaves nothing of the removed panes. -/
theorem emitModelChange_drops (reg : CloseCauseRegistry) (before after : List T) :
    Drops reg (emitModelChange now prev next opts reg before after).1 (removedPanes prev next) := by
  have hbefore : ∀ reg', Drops (before.foldl (onClient now prev next opts) (reg, [])).1 reg'
      (removedPanes prev next) → Drops reg reg' (removedPanes prev next) :=
    foldl_keeps (P := fun acc : CloseCauseRegistry × List (T × SessionProxyMessage) =>
        ∀ reg', Drops acc.1 reg' (removedPanes prev next) → Drops reg reg' (removedPanes prev next))
      (fun _ h => h) fun client acc _ hacc reg' h =>
        hacc reg' ((onClient_spec now prev next opts acc client).2.again h)
  exact foldl_keeps (P := fun acc : CloseCauseRegistry × List (T × SessionProxyMessage) =>
      Drops reg acc.1 (removedPanes prev next)) (hbefore _ (CloseCauseRegistry.clearAll_drops _ _))
    fun client acc _ hacc => hacc.again (onClient_spec now prev next opts acc client).2

end Emission

/-! ## The panes that were captured -/

/-- The registry holds the panes that were captured, within the limits. -/
structure Agrees (r : Run T) : Prop where
  ttlMs : r.registry.ttlMs = r.limits.ttlMs
  maxEntries : r.registry.maxEntries = r.limits.maxEntries
  entries : r.registry.entries = r.captured

/-- The two tests of an entry's age are one. -/
theorem fresh_eq {reg : CloseCauseRegistry} {limits : Limits} (httl : reg.ttlMs = limits.ttlMs)
    (now : Nat) (entry : CauseEntry) : limits.fresh now entry = !reg.expired now entry := by
  unfold Limits.fresh CloseCauseRegistry.expired
  rw [httl, ← decide_not]
  exact decide_eq_decide.mpr Nat.not_lt.symm

theorem record_entries {reg : CloseCauseRegistry} {limits : Limits}
    (httl : reg.ttlMs = limits.ttlMs) (hmax : reg.maxEntries = limits.maxEntries) (now : Nat)
    (p : PaneId) (cause : Origin) :
    (reg.record now p cause).entries = limits.await now cause reg.entries p := by
  unfold CloseCauseRegistry.record CloseCauseRegistry.evictOldest CloseCauseRegistry.evictExpired
    Limits.await
  rw [show limits.fresh now = fun entry => !reg.expired now entry from
    funext (fresh_eq httl now)]
  dsimp only
  rw [hmax]

namespace Agrees

variable {r : Run T}

theorem start (ttlMs maxEntries : Nat) : Agrees (T := T) (Closing.start ttlMs maxEntries) :=
  ⟨rfl, rfl, rfl⟩

theorem acknowledge (h : Agrees r) (now : Nat) (verb : CloseVerb) (closed : List PaneId) :
    Agrees (r.acknowledge now verb closed) := by
  have hloop : ∀ (panes : List PaneId) (reg : CloseCauseRegistry), reg.ttlMs = r.limits.ttlMs →
      reg.maxEntries = r.limits.maxEntries →
      (panes.foldl (fun reg p => reg.record now p verb.origin) reg).ttlMs = r.limits.ttlMs ∧
        (panes.foldl (fun reg p => reg.record now p verb.origin) reg).maxEntries =
          r.limits.maxEntries ∧
        (panes.foldl (fun reg p => reg.record now p verb.origin) reg).entries =
          panes.foldl (r.limits.await now verb.origin) reg.entries := by
    intro panes
    induction panes with
    | nil => exact fun reg httl hmax => ⟨httl, hmax, rfl⟩
    | cons p panes ih =>
      intro reg httl hmax
      rw [List.foldl_cons, List.foldl_cons, ← record_entries httl hmax]
      exact ih (reg.record now p verb.origin) httl hmax
  obtain ⟨httl, hmax, hentries⟩ := hloop verb.panes r.registry h.ttlMs h.maxEntries
  refine ⟨httl, hmax, hentries.trans ?_⟩
  rw [h.entries]
  rfl

theorem change (h : Agrees r) (now : Nat) (prev next : SessionModel) (opts : T → DiffOptions)
    (before after : List T) : Agrees (r.change now prev next opts before after) := by
  have hdrops : Drops r.registry (emitModelChange now prev next opts r.registry before after).1
      (removedPanes prev next) := emitModelChange_drops r.registry before after
  refine ⟨hdrops.ttlMs.trans h.ttlMs, hdrops.maxEntries.trans h.maxEntries, hdrops.entries.trans ?_⟩
  rw [h.entries]
  rfl

theorem step (h : Agrees r) {event : Event T} {r' : Run T}
    (hstep : Closing.step r event = some r') : Agrees r' := by
  cases event with
  | request connectionId requestId command =>
    cases hstep
    cases closeTarget command <;> exact { h with }
  | reply index closed now =>
    obtain ⟨verb, -, hreply⟩ := Option.bind_eq_some_iff.mp hstep
    have herased : Agrees { r with outstanding := r.outstanding.eraseIdx index } := { h with }
    cases closed with
    | none =>
      cases hreply
      exact herased
    | some closed =>
      obtain ⟨-, hsome⟩ := Option.ite_none_right_eq_some.mp hreply
      cases hsome
      exact herased.acknowledge now verb closed
  | modelChange now prev next opts before after =>
    cases hstep
    exact h.change now prev next opts before after

/-- A lookup is answered from what was captured. -/
theorem peek_eq (h : Agrees r) (now : Nat) (p : PaneId) :
    r.registry.peek now p = r.capturedCause now p := by
  unfold Run.capturedCause Limits.causeOf
  rw [CloseCauseRegistry.peek_eq, h.entries]
  rcases r.captured.get? p with _ | entry
  · rfl
  · rw [Option.bind_some, Option.filter_some, fresh_eq h.ttlMs]
    cases r.registry.expired now entry <;> rfl

end Agrees

/-! ## Runs -/

/-- Every `pane.closed` delta of a run carries the verb that closed the pane, to every
client, and no other one carries a cause, exactly if each change of the run reaches its
clients. -/
theorem close_cause_iff (ttlMs maxEntries : Nat) (events : List (Event T)) :
    (∀ done r, done <+: events → exec step (start ttlMs maxEntries) done = some r →
        ∀ change ∈ r.changes, Attributed change) ↔
      Along step Reaches (start ttlMs maxEntries) events := by
  refine prefixes_iff_along (P := Agrees) (fun r e r' hr => hr.step) (fun r e hr hall => ?_)
    (.start ttlMs maxEntries) fun change hchange => absurd hchange List.not_mem_nil
  cases e with
  | request connectionId requestId command =>
    refine iff_of_true (fun r' hstep => ?_) trivial
    cases hstep
    cases closeTarget command <;> exact hall
  | reply index closed now =>
    refine iff_of_true (fun r' hstep => ?_) trivial
    obtain ⟨verb, -, hreply⟩ := Option.bind_eq_some_iff.mp hstep
    cases closed with
    | none =>
      cases hreply
      exact hall
    | some closed =>
      obtain ⟨-, hsome⟩ := Option.ite_none_right_eq_some.mp hreply
      cases hsome
      exact hall
  | modelChange now prev next opts before after =>
    have hone : Attributed ⟨prev, next, r.due now, before ++ after,
        (emitModelChange now prev next opts r.registry before after).2⟩ ↔
        Reaches r (.modelChange now prev next opts before after) :=
      attributed_iff (hr.peek_eq now) before after
    refine Iff.trans ?_ hone
    constructor
    · intro h
      exact h _ rfl _ (List.mem_append_right _ (List.mem_singleton_self _))
    · rintro hnew r' ⟨⟩ change hchange
      rcases List.mem_append.mp hchange with hold | hlast
      · exact hall change hold
      · rw [List.mem_singleton.mp hlast]
        exact hnew

def p0 : Pane :=
  { paneId := ⟨"p0"⟩, windowId := ⟨"w0"⟩, sessionId := ⟨"s0"⟩, cols := 80, rows := 24, mode := ""
    dead := false, label := none, detach := none, icon := none, paneTitle := none, exitCode := none
    overlay := emptyPaneOverlay }

def onePane : SessionModel := { emptyModel with panes := ⟨[p0], by decide⟩ }

/-- A client closes the pane, and its subscriber is called after the proxy's own one. -/
def closedByVerb : List (Event Unit) :=
  [.modelChange 0 emptyModel onePane (fun _ => {}) [] [()],
    .request ⟨"conn1"⟩ "r1" (.closePane ⟨"p0"⟩), .reply 0 (some [⟨"p0"⟩]) 1,
    .modelChange 2 onePane emptyModel (fun _ => {}) [] [()]]

theorem closed_by_verb_without_cause : ∃ r,
    exec step (start DEFAULT_TTL_MS DEFAULT_MAX_ENTRIES) closedByVerb = some r ∧
      ¬∀ change ∈ r.changes, Attributed change := by
  refine ⟨_, rfl, fun h => ?_⟩
  have hlast := h _ (List.mem_append_right _ (List.mem_singleton_self _)) ()
    List.mem_cons_self p0 List.mem_cons_self rfl none
  exact absurd (hlast.mp (by decide)) (by decide)

end TmuxccDriver.Runtime.Closing
