import TmuxccDriver.Lib.KeyedMap
import TmuxccDriver.Lib.Run
import TmuxccDriver.Lib.Text
import TmuxccDriver.Protocol.SessionProxyControl

/-!
# The session table of the broker

`server-proxy.ts` keeps the sessions of tmux in two maps, `_sessions` by id and `_byName` by
name, over shared mutable entries. The rows of a listing, confirmed absences, claims and
destroys change both by hand, and tell every connected client what they changed. Between the
awaits of one of them the others run; what such a step keeps across an await is the entry it
has read, not its contents.

Results:
1. `WellFormed.step`: entries sit under the id of their tmux session.
2. `exact_rows_iff`: when the rows of a listing keep the name index exact.
3. `exact_index_iff`: in which runs the name index is exact in every state, and every
broadcast applies to what was told before.
-/

namespace TmuxccDriver.Broker
open TmuxccDriver.Lib TmuxccDriver.Protocol

/-! ## Sessions -/

/-- The id `$num` of a tmux session. -/
structure TmuxId where
  num : Nat
deriving DecidableEq, Repr

/-- `mintSessionId` of the id without its dollar sign. -/
def mintSessionId (tmuxId : TmuxId) : SessionId := ⟨"s" ++ tmuxId.num.repr⟩

theorem mintSessionId_inj {a b : TmuxId} : mintSessionId a = mintSessionId b ↔ a = b := by
  refine ⟨fun h => ?_, congrArg _⟩
  have hrepr : a.num.repr = b.num.repr := String.append_right_inj "s" |>.mp (congrArg (·.raw) h)
  cases a
  cases b
  exact congrArg _ (repr_inj.mp hrepr)

structure SessionEntry where
  sessionId : SessionId
  tmuxId : TmuxId
  name : String
  windowCount : Nat
  attachedClientCount : Nat
  tmuxccMarked : Bool
  paneCount : Nat
  lastActivity : Nat
  workspaceUri : Option String := none
  template : Option String := none
deriving DecidableEq, Repr

structure TmuxSessionRow where
  tmuxId : TmuxId
  name : String
  windowCount : Nat
  attachedCount : Nat
  tmuxccMarked : Bool
  paneCount : Nat
  lastActivity : Nat
  workspaceUri : Option String
  template : Option String
deriving DecidableEq, Repr

/-- What `listSessions` reads: tmux gives no id and no name to two of its sessions. -/
structure Listing where
  rows : List TmuxSessionRow
  ids : (rows.map TmuxSessionRow.tmuxId).Nodup
  names : (rows.map TmuxSessionRow.name).Nodup

def entryOfRow (row : TmuxSessionRow) (externalCount : Nat) : SessionEntry :=
  { sessionId := mintSessionId row.tmuxId
    tmuxId := row.tmuxId
    name := row.name
    windowCount := row.windowCount
    attachedClientCount := externalCount
    tmuxccMarked := row.tmuxccMarked
    paneCount := row.paneCount
    lastActivity := row.lastActivity
    workspaceUri := row.workspaceUri
    template := row.template }

/-- What the two branches for a known session write alike. -/
def SessionEntry.refreshed (entry : SessionEntry) (row : TmuxSessionRow) : SessionEntry :=
  { entry with
    windowCount := row.windowCount
    tmuxccMarked := row.tmuxccMarked
    paneCount := row.paneCount
    lastActivity := row.lastActivity
    workspaceUri := row.workspaceUri
    template := row.template }

/-! ## The table -/

inductive Broadcast
  | added (entry : SessionEntry)
  | removed (sessionId : SessionId)
  | renamed (sessionId : SessionId) (newName : String)
deriving DecidableEq, Repr

/-- An entry is an object that both maps point to. -/
abbrev Ref := Nat

structure Tracked where
  sessionId : SessionId
  ref : Ref
deriving DecidableEq, Repr

structure Named where
  name : String
  ref : Ref
deriving DecidableEq, Repr

/-- `suspects` are the sessions a reconcile has found absent and looks at again, `confirming`
those whose second presence check is awaited, `destroying` those whose kill is awaited, each
with the entry that was read. `sent` is what was broadcast, the oldest first. -/
structure SessionTable where
  heap : Ref → SessionEntry
  nextRef : Ref
  sessions : KeyedMap Tracked.sessionId
  byName : KeyedMap Named.name
  sent : List Broadcast
  suspects : List Tracked
  confirming : List Tracked
  destroying : List Tracked

namespace SessionTable

def new : SessionTable where
  heap := fun _ => ⟨⟨""⟩, ⟨0⟩, "", 0, 0, false, 0, 0, none, none⟩
  nextRef := 0
  sessions := .empty
  byName := .empty
  sent := []
  suspects := []
  confirming := []
  destroying := []

variable (s : SessionTable)

def write (ref : Ref) (entry : SessionEntry) : SessionTable :=
  { s with heap := Function.update s.heap ref entry }

/-- A new entry in both maps, and `_broadcastAdded`. -/
def add (entry : SessionEntry) : SessionTable :=
  { s with
    heap := Function.update s.heap s.nextRef entry
    nextRef := s.nextRef + 1
    sessions := s.sessions.set ⟨entry.sessionId, s.nextRef⟩
    byName := s.byName.set ⟨entry.name, s.nextRef⟩
    sent := s.sent ++ [.added entry] }

/-- The end of a removal, and `_broadcastRemoved`. -/
def remove (tracked : Tracked) : SessionTable :=
  { s with
    sessions := s.sessions.delete tracked.sessionId
    byName := s.byName.delete (s.heap tracked.ref).name
    sent := s.sent ++ [.removed tracked.sessionId] }

/-- The branch for a renamed session, and `_broadcastRenamed`; the count of attached clients
is left. -/
def rename (ref : Ref) (row : TmuxSessionRow) : SessionTable :=
  let existing := s.heap ref
  { s.write ref { existing.refreshed row with name := row.name } with
    byName := (s.byName.delete existing.name).set ⟨row.name, ref⟩
    sent := s.sent ++ [.renamed existing.sessionId row.name] }

/-! ## Reconciling -/

/-- `knownTmuxIds`, read once before the rows. -/
def knownTmuxIds (tmuxId : TmuxId) : Option Ref :=
  (s.sessions.values.reverse.find? fun tracked => (s.heap tracked.ref).tmuxId = tmuxId).map
    Tracked.ref

/-- One row; `tmuxccCounts` counts the clients of tmuxcc itself. -/
def applyRow (known : TmuxId → Option Ref) (tmuxccCounts : TmuxId → Nat) (s : SessionTable)
    (row : TmuxSessionRow) : SessionTable :=
  let externalCount := row.attachedCount - tmuxccCounts row.tmuxId
  match known row.tmuxId with
  | none => s.add (entryOfRow row externalCount)
  | some ref =>
    if (s.heap ref).name ≠ row.name then s.rename ref row
    else
      s.write ref { (s.heap ref).refreshed row with attachedClientCount := externalCount }

/-- The additions and renames of `_doRefreshSessions`, which do not await. -/
def applyRows (rows : List TmuxSessionRow) (tmuxccCounts : TmuxId → Nat) : SessionTable :=
  rows.foldl (applyRow s.knownTmuxIds tmuxccCounts) s

/-- The second look at a session that looked absent: it is passed over when it has left the
table, which is not asked again after `checkSessionPresence`. -/
def reconfirm (tracked : Tracked) : SessionTable :=
  if s.sessions.has tracked.sessionId then
    { s with
      suspects := s.suspects.erase tracked
      confirming := s.confirming ++ [tracked] }
  else { s with suspects := s.suspects.erase tracked }

/-! ## Claiming -/

def lookupByName (name : String) : Option SessionEntry :=
  (s.byName.get? name).map fun named => s.heap named.ref

/-- `_registerNewSession`; `now` is the time in seconds. -/
def registerNewSession (tmuxId : TmuxId) (name : String) (now : Nat) : SessionTable :=
  s.add
    { sessionId := mintSessionId tmuxId
      tmuxId, name
      windowCount := 1
      attachedClientCount := 0
      tmuxccMarked := true
      paneCount := 1
      lastActivity := now }

/-- What `doClaimSession` does after `createSession` has returned. -/
def created (tmuxId : TmuxId) (name : String) (now : Nat) : SessionTable :=
  if (s.lookupByName name).isSome then s else s.registerNewSession tmuxId name now

/-- The end of `_createUniqueSession` for a session with a workspace. -/
def stampWorkspace (sessionId : SessionId) (workspaceUri : String) : SessionTable :=
  match s.sessions.get? sessionId with
  | none => s
  | some tracked =>
    s.write tracked.ref { s.heap tracked.ref with workspaceUri := some workspaceUri }

end SessionTable

/-! ## Runs -/

/-- What runs between two awaits. `suspect` and `destroySession` read an entry before an
await; `reconfirm`, `confirmAbsent` and `killed` go on after it. -/
inductive Event
  | suspect (sessionId : SessionId)
  | reconfirm (tracked : Tracked)
  | confirmAbsent (tracked : Tracked)
  | applyRows (listing : Listing) (tmuxccCounts : TmuxId → Nat)
  | created (tmuxId : TmuxId) (name : String) (now : Nat)
  | stampWorkspace (sessionId : SessionId) (workspaceUri : String)
  | destroySession (sessionId : SessionId)
  | killed (tracked : Tracked)

def step (s : SessionTable) : Event → Option SessionTable
  | .suspect sessionId =>
    (s.sessions.get? sessionId).map fun tracked => { s with suspects := s.suspects ++ [tracked] }
  | .reconfirm tracked => if tracked ∈ s.suspects then some (s.reconfirm tracked) else none
  | .confirmAbsent tracked =>
    if tracked ∈ s.confirming then
      some ({ s with confirming := s.confirming.erase tracked }.remove tracked)
    else none
  | .applyRows listing tmuxccCounts => some (s.applyRows listing.rows tmuxccCounts)
  | .created tmuxId name now => some (s.created tmuxId name now)
  | .stampWorkspace sessionId workspaceUri => some (s.stampWorkspace sessionId workspaceUri)
  | .destroySession sessionId =>
    (s.sessions.get? sessionId).map fun tracked =>
      { s with destroying := s.destroying ++ [tracked] }
  | .killed tracked =>
    if tracked ∈ s.destroying then
      some ({ s with destroying := s.destroying.erase tracked }.remove tracked)
    else none

namespace SessionTable

variable (s : SessionTable)

/-- The object a session id stands for. -/
def ref? (sessionId : SessionId) : Option Ref := (s.sessions.get? sessionId).map Tracked.ref

/-- The object a name stands for. -/
def found (name : String) : Option Ref := (s.byName.get? name).map Named.ref

/-- The current name of a session. -/
def nameOf (sessionId : SessionId) : Option String :=
  (s.ref? sessionId).map fun ref => (s.heap ref).name

/-- A name stands for an object exactly if that object is in the table and has the name. -/
def ExactAt (name : String) : Prop :=
  ∀ ref, s.found name = some ref ↔
    ∃ sessionId, s.ref? sessionId = some ref ∧ (s.heap ref).name = name

/-- The name index is the index of the table. -/
def Exact : Prop := ∀ name, s.ExactAt name

end SessionTable

/-- A client that applies a broadcast; `none` if it does not apply. -/
def Broadcast.apply (known : SessionId → Option String) :
    Broadcast → Option (SessionId → Option String)
  | .added entry =>
    if (known entry.sessionId).isSome then none
    else some (Function.update known entry.sessionId (some entry.name))
  | .removed sessionId =>
    if (known sessionId).isSome then some (Function.update known sessionId none) else none
  | .renamed sessionId newName =>
    if (known sessionId).isSome then some (Function.update known sessionId (some newName))
    else none

/-- The names of a client that has applied all broadcasts. -/
def replay (sent : List Broadcast) : Option (SessionId → Option String) :=
  sent.foldlM Broadcast.apply fun _ => none

/-- Every broadcast applied, and they tell the table. -/
def SessionTable.Told (s : SessionTable) : Prop := replay s.sent = some s.nameOf

/-! ## One change -/

namespace SessionTable

variable (s : SessionTable)

theorem ref?_add (entry : SessionEntry) (sessionId : SessionId) :
    (s.add entry).ref? sessionId =
      if entry.sessionId = sessionId then some s.nextRef else s.ref? sessionId := by
  unfold ref? add
  rw [KeyedMap.get?_set]
  split <;> rfl

theorem found_add (entry : SessionEntry) (name : String) :
    (s.add entry).found name = if entry.name = name then some s.nextRef else s.found name := by
  unfold found add
  rw [KeyedMap.get?_set]
  split <;> rfl

theorem ref?_remove (tracked : Tracked) (sessionId : SessionId) :
    (s.remove tracked).ref? sessionId =
      if sessionId = tracked.sessionId then none else s.ref? sessionId := by
  unfold ref? remove
  rw [KeyedMap.get?_delete]
  split <;> rfl

theorem found_remove (tracked : Tracked) (name : String) :
    (s.remove tracked).found name =
      if name = (s.heap tracked.ref).name then none else s.found name := by
  unfold found remove
  rw [KeyedMap.get?_delete]
  split <;> rfl

theorem found_rename (ref : Ref) (row : TmuxSessionRow) (name : String) :
    (s.rename ref row).found name =
      if row.name = name then some ref
      else if name = (s.heap ref).name then none
      else s.found name := by
  unfold found rename
  rw [KeyedMap.get?_set, KeyedMap.get?_delete]
  split
  · rfl
  · split <;> rfl

/-- What the rows of a listing broadcast: sessions of rows are added, others are renamed. -/
theorem sent_applyRows (rows : List TmuxSessionRow) (tmuxccCounts : TmuxId → Nat) :
    ∃ sent, (s.applyRows rows tmuxccCounts).sent = s.sent ++ sent ∧ ∀ broadcast ∈ sent,
      (∃ row ∈ rows, ∃ count, broadcast = .added (entryOfRow row count)) ∨
        ∃ sessionId name, broadcast = .renamed sessionId name := by
  refine foldl_keeps (P := fun t : SessionTable => ∃ sent, t.sent = s.sent ++ sent ∧
    ∀ broadcast ∈ sent, (∃ row ∈ rows, ∃ count, broadcast = .added (entryOfRow row count)) ∨
      ∃ sessionId name, broadcast = .renamed sessionId name)
    ⟨[], (List.append_nil _).symm, nofun⟩ fun row t hrow ⟨sent, hsent, hall⟩ => ?_
  have happend : ∀ broadcast, ((∃ row ∈ rows, ∃ count, broadcast = .added (entryOfRow row count)) ∨
      ∃ sessionId name, broadcast = Broadcast.renamed sessionId name) →
      ∃ sent', t.sent ++ [broadcast] = s.sent ++ sent' ∧ ∀ broadcast ∈ sent',
        (∃ row ∈ rows, ∃ count, broadcast = .added (entryOfRow row count)) ∨
          ∃ sessionId name, broadcast = .renamed sessionId name := by
    intro broadcast hkind
    refine ⟨sent ++ [broadcast], by rw [hsent, List.append_assoc], fun other hother => ?_⟩
    rcases List.mem_append.mp hother with hold | hnew
    · exact hall other hold
    · rwa [List.mem_singleton.mp hnew]
  unfold SessionTable.applyRow
  dsimp only
  split
  · exact happend _ (.inl ⟨row, hrow, _, rfl⟩)
  · split
    · exact happend _ (.inr ⟨_, _, rfl⟩)
    · exact ⟨sent, hsent, hall⟩

theorem replay_append (sent : List Broadcast) (broadcast : Broadcast) :
    replay (sent ++ [broadcast]) = (replay sent).bind broadcast.apply := by
  unfold replay
  rw [List.foldlM_append]
  simp

/-- Entries sit under the id of their tmux session, and were allocated. -/
structure WellFormed : Prop where
  live : ∀ sessionId ref, s.ref? sessionId = some ref →
    ref < s.nextRef ∧ (s.heap ref).sessionId = sessionId ∧
      mintSessionId (s.heap ref).tmuxId = sessionId

namespace WellFormed

variable {s}

theorem new : WellFormed SessionTable.new where
  live := fun _ _ h => by cases h

/-- An object is in the table under one id. -/
theorem unique (h : WellFormed s) {sessionId sessionId' : SessionId} {ref : Ref}
    (href : s.ref? sessionId = some ref) (href' : s.ref? sessionId' = some ref) :
    sessionId = sessionId' :=
  (h.live _ _ href).2.1.symm.trans (h.live _ _ href').2.1

theorem write (h : WellFormed s) (ref : Ref) (entry : SessionEntry)
    (hid : entry.sessionId = (s.heap ref).sessionId) (htmux : entry.tmuxId = (s.heap ref).tmuxId) :
    WellFormed (s.write ref entry) where
  live := by
    intro sessionId ref' href'
    obtain ⟨hlt, hsid, hmint⟩ := h.live sessionId ref' href'
    refine ⟨hlt, ?_⟩
    show (Function.update s.heap ref entry ref').sessionId = _ ∧
      mintSessionId (Function.update s.heap ref entry ref').tmuxId = _
    by_cases heq : ref' = ref
    · subst heq
      rw [Function.update_self, hid, htmux]
      exact ⟨hsid, hmint⟩
    · rw [Function.update_of_ne heq]
      exact ⟨hsid, hmint⟩

theorem rename (h : WellFormed s) (ref : Ref) (row : TmuxSessionRow) :
    WellFormed (s.rename ref row) where
  live := (h.write ref { (s.heap ref).refreshed row with name := row.name } rfl rfl).live

theorem add (h : WellFormed s) {entry : SessionEntry}
    (hid : mintSessionId entry.tmuxId = entry.sessionId) : WellFormed (s.add entry) where
  live := by
    intro sessionId ref href
    rw [ref?_add] at href
    show ref < s.nextRef + 1 ∧ (Function.update s.heap s.nextRef entry ref).sessionId = _ ∧
      mintSessionId (Function.update s.heap s.nextRef entry ref).tmuxId = _
    split at href
    · next hsid =>
      cases href
      rw [Function.update_self]
      exact ⟨Nat.lt_succ_self _, hsid, hid.trans hsid⟩
    · obtain ⟨hlt, hrest⟩ := h.live sessionId ref href
      rw [Function.update_of_ne hlt.ne]
      exact ⟨hlt.trans (Nat.lt_succ_self _), hrest⟩

theorem remove (h : WellFormed s) (tracked : Tracked) : WellFormed (s.remove tracked) where
  live := by
    intro sessionId ref href
    rw [ref?_remove] at href
    split at href
    · cases href
    · exact h.live sessionId ref href

theorem reconfirm (h : WellFormed s) (tracked : Tracked) : WellFormed (s.reconfirm tracked) := by
  unfold SessionTable.reconfirm
  split <;> exact { h with }

theorem applyRow (h : WellFormed s) (known : TmuxId → Option Ref) (tmuxccCounts : TmuxId → Nat)
    (row : TmuxSessionRow) : WellFormed (SessionTable.applyRow known tmuxccCounts s row) := by
  unfold SessionTable.applyRow
  split
  · exact h.add rfl
  · next ref _ =>
    split
    · exact h.rename ref row
    · exact h.write ref _ rfl rfl

theorem step (h : WellFormed s) {event : Event} {s' : SessionTable}
    (hstep : Broker.step s event = some s') : WellFormed s' := by
  cases event with
  | suspect sessionId =>
    obtain ⟨tracked, -, rfl⟩ := Option.map_eq_some_iff.mp hstep
    exact { h with }
  | reconfirm tracked =>
    obtain ⟨-, hsome⟩ := Option.ite_none_right_eq_some.mp hstep
    cases hsome
    exact h.reconfirm tracked
  | confirmAbsent tracked =>
    obtain ⟨-, hsome⟩ := Option.ite_none_right_eq_some.mp hstep
    cases hsome
    have hnext : WellFormed { s with confirming := s.confirming.erase tracked } := { h with }
    exact hnext.remove tracked
  | applyRows listing tmuxccCounts =>
    cases hstep
    exact foldl_keeps h fun row _ _ hs => hs.applyRow _ tmuxccCounts row
  | created tmuxId name now =>
    cases hstep
    unfold created
    split
    · exact h
    · exact h.add rfl
  | stampWorkspace sessionId workspaceUri =>
    cases hstep
    unfold SessionTable.stampWorkspace
    split
    · exact h
    · exact h.write _ _ rfl rfl
  | destroySession sessionId =>
    obtain ⟨tracked, -, rfl⟩ := Option.map_eq_some_iff.mp hstep
    exact { h with }
  | killed tracked =>
    obtain ⟨-, hsome⟩ := Option.ite_none_right_eq_some.mp hstep
    cases hsome
    have hnext : WellFormed { s with destroying := s.destroying.erase tracked } := { h with }
    exact hnext.remove tracked

end WellFormed

/-! ## Names -/

variable {s}

theorem nameOf_add (h : WellFormed s) (entry : SessionEntry) :
    (s.add entry).nameOf = Function.update s.nameOf entry.sessionId (some entry.name) := by
  funext sessionId
  unfold nameOf
  rw [ref?_add]
  show Option.map (fun ref => (Function.update s.heap s.nextRef entry ref).name) _ = _
  by_cases hsid : sessionId = entry.sessionId
  · subst hsid
    simp
  · rw [if_neg (Ne.symm hsid), Function.update_of_ne hsid]
    refine Option.map_congr fun ref href => ?_
    rw [Function.update_of_ne (h.live sessionId ref href).1.ne]

theorem nameOf_write (h : WellFormed s) {sessionId : SessionId} {ref : Ref}
    (href : s.ref? sessionId = some ref) (entry : SessionEntry) :
    (s.write ref entry).nameOf = Function.update s.nameOf sessionId (some entry.name) := by
  funext sessionId'
  show Option.map (fun ref' => (Function.update s.heap ref entry ref').name)
    (s.ref? sessionId') = _
  by_cases hsid : sessionId' = sessionId
  · subst hsid
    simp [href]
  · rw [Function.update_of_ne hsid]
    refine Option.map_congr fun ref' href' => ?_
    have hne : ref' ≠ ref := by
      rintro rfl
      exact hsid (h.unique href' href)
    rw [Function.update_of_ne hne]

theorem nameOf_remove (tracked : Tracked) :
    (s.remove tracked).nameOf = Function.update s.nameOf tracked.sessionId none := by
  funext sessionId
  unfold nameOf
  rw [ref?_remove]
  by_cases hsid : sessionId = tracked.sessionId
  · subst hsid
    simp
  · rw [if_neg hsid, Function.update_of_ne hsid]
    rfl

theorem nameOf_eq_some {sessionId : SessionId} {name : String} :
    s.nameOf sessionId = some name ↔
      ∃ ref, s.ref? sessionId = some ref ∧ (s.heap ref).name = name :=
  Option.map_eq_some_iff

theorem Told.add (h : WellFormed s) (ht : Told s) {entry : SessionEntry} :
    Told (s.add entry) ↔ s.nameOf entry.sessionId = none := by
  unfold Told at *
  show replay (s.sent ++ [.added entry]) = _ ↔ _
  rw [replay_append, ht, nameOf_add h]
  simp [Broadcast.apply]

theorem Told.remove (ht : Told s) (tracked : Tracked) :
    Told (s.remove tracked) ↔ s.nameOf tracked.sessionId ≠ none := by
  unfold Told at *
  show replay (s.sent ++ [.removed tracked.sessionId]) = _ ↔ _
  rw [replay_append, ht, nameOf_remove]
  simp [Broadcast.apply]

theorem Told.rename (h : WellFormed s) (ht : Told s) {sessionId : SessionId} {ref : Ref}
    (href : s.ref? sessionId = some ref) (row : TmuxSessionRow) : Told (s.rename ref row) := by
  have hnames : (s.rename ref row).nameOf = Function.update s.nameOf sessionId (some row.name) :=
    nameOf_write h href { (s.heap ref).refreshed row with name := row.name }
  have hsome : s.nameOf sessionId = some (s.heap ref).name := nameOf_eq_some.mpr ⟨ref, href, rfl⟩
  unfold Told at *
  show replay (s.sent ++ [.renamed (s.heap ref).sessionId row.name]) = _
  rw [replay_append, ht, hnames, (h.live sessionId ref href).2.1]
  simp [Broadcast.apply, hsome]

/-! ## The index -/

/-- An object of the table and its name. -/
def Holds (s : SessionTable) (ref : Ref) (name : String) : Prop :=
  ∃ sessionId, s.ref? sessionId = some ref ∧ (s.heap ref).name = name

theorem Holds.nameOf {ref : Ref} {name : String} (h : Holds s ref name) :
    ∃ sessionId, s.ref? sessionId = some ref ∧ s.nameOf sessionId = some name := by
  obtain ⟨sessionId, href, hname⟩ := h
  exact ⟨sessionId, href, nameOf_eq_some.mpr ⟨ref, href, hname⟩⟩

theorem Exact.unique (h : WellFormed s) (hs : Exact s) {a b : SessionId} {name : String}
    (ha : s.nameOf a = some name) (hb : s.nameOf b = some name) : a = b := by
  obtain ⟨ref, href, hname⟩ := nameOf_eq_some.mp ha
  obtain ⟨ref', href', hname'⟩ := nameOf_eq_some.mp hb
  have hfound := (hs name ref).mpr ⟨a, href, hname⟩
  have hfound' := (hs name ref').mpr ⟨b, href', hname'⟩
  obtain rfl : ref = ref' := Option.some.inj (hfound.symm.trans hfound')
  exact h.unique href href'

theorem Exact.add (h : WellFormed s) (hs : Exact s) {entry : SessionEntry}
    (hnew : s.nameOf entry.sessionId = none) (hfree : ∀ a, s.nameOf a ≠ some entry.name) :
    Exact (s.add entry) := by
  have hholds : ∀ ref name, Holds (s.add entry) ref name ↔
      ref = s.nextRef ∧ entry.name = name ∨ Holds s ref name := by
    intro ref name
    unfold Holds
    simp only [ref?_add]
    show (∃ sessionId, _ ∧ (Function.update s.heap s.nextRef entry ref).name = name) ↔ _
    constructor
    · rintro ⟨sessionId, href, hname⟩
      split at href
      · cases href
        rw [Function.update_self] at hname
        exact .inl ⟨rfl, hname⟩
      · rw [Function.update_of_ne (h.live sessionId ref href).1.ne] at hname
        exact .inr ⟨sessionId, href, hname⟩
    · rintro (⟨rfl, hname⟩ | ⟨sessionId, href, hname⟩)
      · exact ⟨entry.sessionId, if_pos rfl, by rwa [Function.update_self]⟩
      · refine ⟨sessionId, ?_, ?_⟩
        · rw [if_neg, href]
          rintro rfl
          simp [SessionTable.nameOf, href] at hnew
        · rwa [Function.update_of_ne (h.live sessionId ref href).1.ne]
  intro name ref
  rw [found_add]
  refine Iff.trans ?_ (hholds ref name).symm
  by_cases hname : entry.name = name
  · subst hname
    have hnone : ¬Holds s ref entry.name := fun hh =>
      hh.nameOf.elim fun a ha => hfree a ha.2
    simp [hnone, eq_comm]
  · rw [if_neg hname, hs name ref]
    simp [hname, Holds]

/-- An object of the table is written, and the index is told its new name. -/
theorem Exact.write (h : WellFormed s) (hs : Exact s) {sessionId : SessionId} {ref : Ref}
    (href : s.ref? sessionId = some ref) (entry : SessionEntry)
    (hfree : ∀ a, s.nameOf a = some entry.name → a = sessionId) {s' : SessionTable}
    (hrefs : s'.ref? = s.ref?) (hheap : s'.heap = Function.update s.heap ref entry)
    (hfound : ∀ name, s'.found name = if entry.name = name then some ref
      else if name = (s.heap ref).name then none else s.found name) : Exact s' := by
  intro name ref'
  rw [hfound, hrefs, hheap]
  by_cases hname : entry.name = name
  · subst hname
    rw [if_pos rfl]
    constructor
    · rintro ⟨⟩
      exact ⟨sessionId, href, by rw [Function.update_self]⟩
    · rintro ⟨a, ha, hrefname⟩
      by_cases heq : ref' = ref
      · rw [heq]
      · rw [Function.update_of_ne heq] at hrefname
        obtain rfl := hfree a (nameOf_eq_some.mpr ⟨ref', ha, hrefname⟩)
        exact href.symm.trans ha
  · rw [if_neg hname]
    split
    · next hold =>
      refine iff_of_false nofun ?_
      rintro ⟨a, ha, hrefname⟩
      by_cases heq : ref' = ref
      · rw [heq, Function.update_self] at hrefname
        exact hname hrefname
      · rw [Function.update_of_ne heq] at hrefname
        have hsame := hs.unique h (nameOf_eq_some.mpr ⟨ref', ha, hrefname⟩)
          (nameOf_eq_some.mpr ⟨ref, href, hold.symm⟩)
        rw [hsame] at ha
        exact heq (Option.some.inj (ha.symm.trans href))
    · next hold =>
      rw [hs name ref']
      refine exists_congr fun a => and_congr_right fun ha => ?_
      by_cases heq : ref' = ref
      · subst heq
        rw [Function.update_self]
        exact iff_of_false (Ne.symm hold) hname
      · rw [Function.update_of_ne heq]

theorem Exact.remove_iff (h : WellFormed s) (hs : Exact s) {tracked : Tracked} {name : String}
    (hname : s.nameOf tracked.sessionId = some name) :
    Exact (s.remove tracked) ↔ name = (s.heap tracked.ref).name := by
  obtain ⟨ref, href, hrefname⟩ := nameOf_eq_some.mp hname
  constructor
  · intro hexact
    by_contra hne
    have hstays : (s.remove tracked).found name = some ref := by
      rw [found_remove, if_neg hne]
      exact (hs name ref).mpr ⟨_, href, hrefname⟩
    obtain ⟨a, ha, -⟩ := (hexact name ref).mp hstays
    rw [ref?_remove] at ha
    split at ha
    · cases ha
    · next hother => exact hother (h.unique ha href)
  · rintro rfl name' ref'
    rw [found_remove]
    show _ ↔ ∃ a, (s.remove tracked).ref? a = some ref' ∧ (s.heap ref').name = name'
    simp only [ref?_remove]
    split
    · next hsame =>
      refine iff_of_false nofun ?_
      rintro ⟨a, ha, hrefname'⟩
      split at ha
      · cases ha
      · next hother =>
        exact hother (hs.unique h (nameOf_eq_some.mpr ⟨ref', ha, hrefname'.trans hsame⟩) hname)
    · next hother =>
      rw [hs name' ref']
      refine exists_congr fun a => and_congr_left fun hrefname' => ?_
      by_cases hsid : a = tracked.sessionId
      · subst hsid
        rw [if_pos rfl]
        refine iff_of_false (fun ha => hother ?_) nofun
        obtain rfl : ref = ref' := Option.some.inj (href.symm.trans ha)
        exact hrefname'.symm.trans hrefname
      · rw [if_neg hsid]

/-! ## Rows -/

/-- The sessions of the rows are known as they are in the table. -/
def Knows (known : TmuxId → Option Ref) (s : SessionTable) (rows : List TmuxSessionRow) : Prop :=
  ∀ row ∈ rows, known row.tmuxId = s.ref? (mintSessionId row.tmuxId)

/-- No other session of the table has the name of the row. -/
def Free (s : SessionTable) (row : TmuxSessionRow) : Prop :=
  ∀ a, s.nameOf a = some row.name → a = mintSessionId row.tmuxId

theorem knownTmuxIds_eq (h : WellFormed s) (tmuxId : TmuxId) :
    s.knownTmuxIds tmuxId = s.ref? (mintSessionId tmuxId) := by
  have hkey : ∀ tracked ∈ s.sessions.values,
      (s.heap tracked.ref).tmuxId = tmuxId ↔ tracked.sessionId = mintSessionId tmuxId := by
    intro tracked hmem
    have href : s.ref? tracked.sessionId = some tracked.ref := by
      unfold ref?
      rw [KeyedMap.get?_self hmem]
      rfl
    rw [← (h.live _ _ href).2.2, mintSessionId_inj]
  unfold knownTmuxIds ref?
  congr 1
  cases hget : s.sessions.get? (mintSessionId tmuxId) with
  | none =>
    refine List.find?_eq_none.mpr fun tracked hmem => ?_
    rw [List.mem_reverse] at hmem
    simpa [hkey tracked hmem] using KeyedMap.get?_eq_none.mp hget tracked hmem
  | some tracked =>
    obtain ⟨hmem, hid⟩ := KeyedMap.get?_eq_some.mp hget
    obtain ⟨other, hother⟩ : ∃ other, s.sessions.values.reverse.find?
        (fun tracked => (s.heap tracked.ref).tmuxId = tmuxId) = some other := by
      refine Option.isSome_iff_exists.mp (List.find?_isSome.mpr ⟨tracked, ?_, ?_⟩)
      · exact List.mem_reverse.mpr hmem
      · simpa using (hkey tracked hmem).mpr hid
    have hother' : other ∈ s.sessions.values := by
      simpa using List.mem_of_find?_eq_some hother
    have hid' := (hkey other hother').mp (by simpa using List.find?_some hother)
    rw [hother, KeyedMap.eq_of_key hother' hmem (hid'.trans hid.symm)]

section Row
variable {known : TmuxId → Option Ref} {tmuxccCounts : TmuxId → Nat} {row : TmuxSessionRow}

variable (tmuxccCounts) in
/-- What one row does: nothing but its own session changes. -/
theorem applyRow_cases (hknown : known row.tmuxId = s.ref? (mintSessionId row.tmuxId)) :
    (∃ entry, s.nameOf (mintSessionId row.tmuxId) = none ∧
        entry.sessionId = mintSessionId row.tmuxId ∧ entry.name = row.name ∧
        applyRow known tmuxccCounts s row = s.add entry) ∨
      (∃ ref, s.ref? (mintSessionId row.tmuxId) = some ref ∧ (s.heap ref).name ≠ row.name ∧
        applyRow known tmuxccCounts s row = s.rename ref row) ∨
      ∃ ref entry, s.ref? (mintSessionId row.tmuxId) = some ref ∧
        (s.heap ref).name = row.name ∧ entry.name = row.name ∧
        applyRow known tmuxccCounts s row = s.write ref entry := by
  unfold applyRow
  rw [hknown]
  cases href : s.ref? (mintSessionId row.tmuxId) with
  | none =>
    refine .inl ⟨_, ?_, rfl, rfl, rfl⟩
    simp [nameOf, href]
  | some ref =>
    by_cases hname : (s.heap ref).name = row.name
    · refine .inr (.inr ⟨ref, _, rfl, hname, ?_, if_neg (not_not_intro hname)⟩)
      exact hname
    · exact .inr (.inl ⟨ref, rfl, hname, if_pos hname⟩)

variable (h : WellFormed s) (hknown : known row.tmuxId = s.ref? (mintSessionId row.tmuxId))
include h hknown

variable (tmuxccCounts) in
theorem nameOf_applyRow : (applyRow known tmuxccCounts s row).nameOf =
    Function.update s.nameOf (mintSessionId row.tmuxId) (some row.name) := by
  rcases applyRow_cases tmuxccCounts hknown with
    ⟨entry, -, hid, hname, heq⟩ | ⟨ref, href, -, heq⟩ | ⟨ref, entry, href, -, hname, heq⟩
  · rw [heq, nameOf_add h, hid, hname]
  · rw [heq]
    exact nameOf_write h href _
  · rw [heq, nameOf_write h href, hname]

theorem Told.applyRow (ht : Told s) : Told (applyRow known tmuxccCounts s row) := by
  rcases applyRow_cases tmuxccCounts hknown with
    ⟨entry, hnone, hid, -, heq⟩ | ⟨ref, href, -, heq⟩ | ⟨ref, entry, href, hold, hname, heq⟩
  · rw [heq]
    exact (ht.add h).mpr (hid ▸ hnone)
  · rw [heq]
    exact ht.rename h href row
  · have hsame : (s.write ref entry).nameOf = s.nameOf := by
      rw [nameOf_write h href, Function.update_eq_self_iff, hname]
      exact (nameOf_eq_some.mpr ⟨ref, href, hold⟩).symm
    rw [heq]
    unfold Told
    rw [hsame]
    exact ht

theorem Exact.applyRow (hs : Exact s) (hfree : Free s row) :
    Exact (applyRow known tmuxccCounts s row) := by
  rcases applyRow_cases tmuxccCounts hknown with
    ⟨entry, hnone, hid, hname, heq⟩ | ⟨ref, href, -, heq⟩ | ⟨ref, entry, href, hold, hname, heq⟩
  · rw [heq]
    refine hs.add h (hid ▸ hnone) fun a ha => ?_
    obtain rfl := hfree a (hname ▸ ha)
    simp [hnone] at ha
  · rw [heq]
    exact hs.write h href { (s.heap ref).refreshed row with name := row.name }
      (fun a ha => hfree a ha) rfl rfl (found_rename s ref row)
  · rw [heq]
    refine hs.write h href entry (fun a ha => hfree a (hname ▸ ha)) rfl rfl
      fun name => ?_
    show s.found name = _
    rw [hname, hold]
    by_cases hrow : row.name = name
    · rw [if_pos hrow, hs name ref]
      exact ⟨_, href, hold.trans hrow⟩
    · rw [if_neg hrow, if_neg (Ne.symm hrow)]

end Row

/-- A session has a name but cannot be found under it, or another one has it as well. -/
def Clash (s : SessionTable) (sessionId : SessionId) (name : String) : Prop :=
  s.nameOf sessionId = some name ∧
    (s.found name = none ∨
      s.found name = s.ref? sessionId ∧ ∃ other, other ≠ sessionId ∧ s.nameOf other = some name)

theorem Clash.not_exact (h : WellFormed s) {sessionId : SessionId} {name : String}
    (hc : Clash s sessionId name) : ¬Exact s := by
  intro hs
  obtain ⟨hname, hc⟩ := hc
  obtain ⟨ref, href, hrefname⟩ := nameOf_eq_some.mp hname
  have hfound := (hs name ref).mpr ⟨sessionId, href, hrefname⟩
  rcases hc with hnone | ⟨-, other, hne, hother⟩
  · simp [hnone] at hfound
  · exact hne (hs.unique h hother hname)

section Clash
variable {known : TmuxId → Option Ref} {tmuxccCounts : TmuxId → Nat} {row : TmuxSessionRow}
  (h : WellFormed s) (hknown : known row.tmuxId = s.ref? (mintSessionId row.tmuxId))
include h hknown

/-- The later rows do not undo a clash: none of them has the name again. -/
theorem Clash.applyRow {sessionId : SessionId} {name : String} (hc : Clash s sessionId name)
    (hname : row.name ≠ name) (hid : mintSessionId row.tmuxId ≠ sessionId) :
    Clash (applyRow known tmuxccCounts s row) sessionId name := by
  have hnames := nameOf_applyRow tmuxccCounts h hknown
  refine ⟨by rw [hnames, Function.update_of_ne hid.symm, hc.1], ?_⟩
  -- the session that clashes keeps its name, unless its own row renames it
  have hother : ∀ other, other ≠ mintSessionId row.tmuxId → other ≠ sessionId ∧
      s.nameOf other = some name → ∃ other, other ≠ sessionId ∧
        (SessionTable.applyRow known tmuxccCounts s row).nameOf other = some name :=
    fun other hne hrest => ⟨other, hrest.1, by rw [hnames, Function.update_of_ne hne, hrest.2]⟩
  rcases applyRow_cases tmuxccCounts hknown with
    ⟨entry, hnone, hentry, hrow, heq⟩ | ⟨ref, href, -, heq⟩ | ⟨ref, entry, href, hold, -, heq⟩
  · rw [heq, found_add, ref?_add, hrow, hentry, if_neg hname, if_neg hid, ← heq]
    refine hc.2.imp id fun ⟨hfound, other, hne, ho⟩ => ⟨hfound, hother other ?_ ⟨hne, ho⟩⟩
    rintro rfl
    simp [hnone] at ho
  · rw [heq, found_rename, if_neg hname, ← heq]
    by_cases hold : name = (s.heap ref).name
    · exact .inl (if_pos hold)
    · rw [if_neg hold, heq]
      refine hc.2.imp id fun ⟨hfound, other, hne, ho⟩ =>
        ⟨hfound, heq ▸ hother other ?_ ⟨hne, ho⟩⟩
      rintro rfl
      obtain ⟨ref', href', hname'⟩ := nameOf_eq_some.mp ho
      obtain rfl : ref = ref' := Option.some.inj (href.symm.trans href')
      exact hold hname'.symm
  · refine hc.2.imp (fun hfound => heq ▸ hfound) fun ⟨hfound, other, hne, ho⟩ =>
      ⟨heq ▸ hfound, hother other ?_ ⟨hne, ho⟩⟩
    rintro rfl
    obtain ⟨ref', href', hname'⟩ := nameOf_eq_some.mp ho
    obtain rfl : ref = ref' := Option.some.inj (href.symm.trans href')
    exact hname (hold.symm.trans hname')

variable (tmuxccCounts) in
theorem clash_of_taken (hs : Exact s) (hfree : ¬Free s row) :
    Clash (applyRow known tmuxccCounts s row) (mintSessionId row.tmuxId) row.name := by
  have hnames := nameOf_applyRow tmuxccCounts h hknown
  unfold Free at hfree
  push Not at hfree
  obtain ⟨other, hother, hne⟩ := hfree
  refine ⟨by rw [hnames, Function.update_self], .inr ⟨?_, other, hne, ?_⟩⟩
  · rcases applyRow_cases tmuxccCounts hknown with
      ⟨entry, -, hentry, hrow, heq⟩ | ⟨ref, href, -, heq⟩ | ⟨ref, entry, href, hold, -, heq⟩
    · rw [heq, found_add, ref?_add, if_pos hrow, if_pos hentry]
    · rw [heq, found_rename, if_pos rfl]
      exact href.symm
    · rw [heq]
      exact ((hs row.name ref).mpr ⟨_, href, hold⟩).trans href.symm
  · rw [hnames, Function.update_of_ne hne, hother]

end Clash

/-- No row takes a name that another session has, unless the row of that session comes
before. -/
def NamesFree (s : SessionTable) (rows : List TmuxSessionRow) : Prop :=
  ∀ before row after, rows = before ++ row :: after → ∀ sessionId,
    s.nameOf sessionId = some row.name →
      sessionId = mintSessionId row.tmuxId ∨ ∃ r ∈ before, mintSessionId r.tmuxId = sessionId

theorem namesFree_cons {s' : SessionTable} {row : TmuxSessionRow} {rows : List TmuxSessionRow}
    (hnames : s'.nameOf = Function.update s.nameOf (mintSessionId row.tmuxId) (some row.name))
    (hrow : ∀ r ∈ rows, r.name ≠ row.name) :
    NamesFree s (row :: rows) ↔ Free s row ∧ NamesFree s' rows := by
  constructor
  · intro hfree
    refine ⟨fun a ha => ?_, fun before r after hsplit a ha => ?_⟩
    · simpa using hfree [] row rows rfl a ha
    · have hr : r ∈ rows := hsplit ▸ List.mem_append_right _ List.mem_cons_self
      rw [hnames] at ha
      by_cases hid : a = mintSessionId row.tmuxId
      · subst hid
        rw [Function.update_self] at ha
        exact absurd (Option.some.inj ha).symm (hrow r hr)
      · rw [Function.update_of_ne hid] at ha
        refine (hfree (row :: before) r after (by rw [hsplit]; rfl) a ha).imp id ?_
        rintro ⟨r', hr', hid'⟩
        rcases List.mem_cons.mp hr' with rfl | hr'
        · exact absurd hid'.symm hid
        · exact ⟨r', hr', hid'⟩
  · rintro ⟨hfree, hrest⟩ before r after hsplit a ha
    rcases before with _ | ⟨b, before⟩
    · obtain ⟨rfl, -⟩ := List.cons.inj hsplit
      exact .inl (hfree a ha)
    · obtain ⟨rfl, htail⟩ := List.cons.inj hsplit
      by_cases hid : a = mintSessionId row.tmuxId
      · exact .inr ⟨row, List.mem_cons_self, hid.symm⟩
      · refine (hrest before r after htail a ?_).imp id fun ⟨r', hr', hid'⟩ =>
          ⟨r', List.mem_cons_of_mem _ hr', hid'⟩
        rw [hnames, Function.update_of_ne hid, ha]

/-- A row does not disturb what is known of the others. -/
theorem Knows.tail {known : TmuxId → Option Ref} {tmuxccCounts : TmuxId → Nat}
    {row : TmuxSessionRow} {rows : List TmuxSessionRow} (hknows : Knows known s (row :: rows))
    (hids : ∀ r ∈ rows, r.tmuxId ≠ row.tmuxId) :
    Knows known (applyRow known tmuxccCounts s row) rows := by
  intro r hr
  rw [hknows r (List.mem_cons_of_mem _ hr)]
  have hne : mintSessionId row.tmuxId ≠ mintSessionId r.tmuxId := fun hmint =>
    hids r hr (mintSessionId_inj.mp hmint).symm
  rcases applyRow_cases tmuxccCounts (hknows row List.mem_cons_self) with
    ⟨entry, -, hentry, -, heq⟩ | ⟨ref, -, -, heq⟩ | ⟨ref, entry, -, -, -, heq⟩
  · rw [heq, ref?_add, hentry, if_neg hne]
  · rw [heq]
    rfl
  · rw [heq]
    rfl

theorem Clash.rows {known : TmuxId → Option Ref} {tmuxccCounts : TmuxId → Nat}
    {rows : List TmuxSessionRow} {sessionId : SessionId} {name : String}
    (hc : Clash s sessionId name) (h : WellFormed s) (hknows : Knows known s rows)
    (hids : (rows.map TmuxSessionRow.tmuxId).Nodup) (hnames : ∀ r ∈ rows, r.name ≠ name)
    (hother : ∀ r ∈ rows, mintSessionId r.tmuxId ≠ sessionId) :
    ¬Exact (rows.foldl (SessionTable.applyRow known tmuxccCounts) s) := by
  induction rows generalizing s with
  | nil => exact hc.not_exact h
  | cons row rows ih =>
    obtain ⟨hid, hids⟩ := List.nodup_cons.mp hids
    have hrow := hknows row List.mem_cons_self
    exact ih
      (hc.applyRow h hrow (hnames row List.mem_cons_self) (hother row List.mem_cons_self))
      (h.applyRow known tmuxccCounts row)
      (hknows.tail fun r hr heq => hid (List.mem_map.mpr ⟨r, hr, heq⟩)) hids
      (fun r hr => hnames r (List.mem_cons_of_mem _ hr))
      fun r hr => hother r (List.mem_cons_of_mem _ hr)

/-- The rows of a listing keep the index exact exactly if none of them takes a name. -/
theorem exact_rows_iff {known : TmuxId → Option Ref} {tmuxccCounts : TmuxId → Nat}
    {rows : List TmuxSessionRow} (h : WellFormed s) (hknows : Knows known s rows)
    (hids : (rows.map TmuxSessionRow.tmuxId).Nodup) (hnames : (rows.map TmuxSessionRow.name).Nodup)
    (hs : Exact s) : Exact (rows.foldl (applyRow known tmuxccCounts) s) ↔ NamesFree s rows := by
  induction rows generalizing s with
  | nil => exact iff_of_true hs fun before row after hsplit => by simp at hsplit
  | cons row rows ih =>
    obtain ⟨hid, hids⟩ := List.nodup_cons.mp hids
    obtain ⟨hname, hnames⟩ := List.nodup_cons.mp hnames
    have hid' : ∀ r ∈ rows, r.tmuxId ≠ row.tmuxId := fun r hr heq =>
      hid (List.mem_map.mpr ⟨r, hr, heq⟩)
    have hname' : ∀ r ∈ rows, r.name ≠ row.name := fun r hr heq =>
      hname (List.mem_map.mpr ⟨r, hr, heq⟩)
    have hrow := hknows row List.mem_cons_self
    rw [List.foldl_cons, namesFree_cons (nameOf_applyRow tmuxccCounts h hrow) hname']
    by_cases hfree : Free s row
    · rw [ih (h.applyRow known tmuxccCounts row) (hknows.tail hid') hids hnames
        (hs.applyRow h hrow hfree), and_iff_right hfree]
    · refine iff_of_false ?_ fun hboth => hfree hboth.1
      have hclash := clash_of_taken tmuxccCounts h hrow hs hfree
      exact hclash.rows (h.applyRow known tmuxccCounts row) (hknows.tail hid') hids hname'
        fun r hr hmint => hid' r hr (mintSessionId_inj.mp hmint)

theorem told_rows {known : TmuxId → Option Ref} {tmuxccCounts : TmuxId → Nat}
    {rows : List TmuxSessionRow} (h : WellFormed s) (hknows : Knows known s rows)
    (hids : (rows.map TmuxSessionRow.tmuxId).Nodup) (ht : Told s) :
    Told (rows.foldl (applyRow known tmuxccCounts) s) := by
  induction rows generalizing s with
  | nil => exact ht
  | cons row rows ih =>
    obtain ⟨hid, hids⟩ := List.nodup_cons.mp hids
    exact ih (h.applyRow known tmuxccCounts row)
      (hknows.tail fun r hr heq => hid (List.mem_map.mpr ⟨r, hr, heq⟩)) hids
      (ht.applyRow h (hknows row List.mem_cons_self))

end SessionTable

/-! ## Runs -/

open SessionTable

/-- The name the session of a captured entry has in the table is that of the entry. -/
def SameName (s : SessionTable) (tracked : Tracked) : Prop :=
  s.nameOf tracked.sessionId = some (s.heap tracked.ref).name

/-- What a step must meet. A listing takes no name. A session whose absence is confirmed, or
whose kill has returned, is still there, and the entry that was read before the wait still has
its name. A created session is found, or is not there under another name. -/
def KeepsIndex (s : SessionTable) : Event → Prop
  | .applyRows listing _ => NamesFree s listing.rows
  | .confirmAbsent tracked => tracked ∈ s.confirming → SameName s tracked
  | .killed tracked => tracked ∈ s.destroying → SameName s tracked
  | .created tmuxId name _ => s.found name = none → s.nameOf (mintSessionId tmuxId) = none
  | .suspect _ | .reconfirm _ | .stampWorkspace .. | .destroySession _ => True

theorem remove_iff {s : SessionTable} (h : WellFormed s) (hs : Exact s) (ht : Told s)
    (tracked : Tracked) :
    Exact (s.remove tracked) ∧ Told (s.remove tracked) ↔ SameName s tracked := by
  rw [ht.remove]
  unfold SameName
  cases hname : s.nameOf tracked.sessionId with
  | none => simp
  | some name => simp [hs.remove_iff h hname]

theorem created_iff {s : SessionTable} (h : WellFormed s) (hs : Exact s) (ht : Told s)
    (tmuxId : TmuxId) (name : String) (now : Nat) :
    Exact (s.created tmuxId name now) ∧ Told (s.created tmuxId name now) ↔
      (s.found name = none → s.nameOf (mintSessionId tmuxId) = none) := by
  have hlookup : (s.lookupByName name).isSome = true ↔ s.found name ≠ none := by
    unfold lookupByName found
    cases s.byName.get? name <;> simp
  unfold created
  by_cases hfound : s.found name = none
  · rw [if_neg (fun hsome => hlookup.mp hsome hfound), registerNewSession, ht.add h]
    refine ⟨fun hboth _ => hboth.2, fun hnone => ⟨?_, hnone hfound⟩⟩
    refine hs.add h (hnone hfound) fun a ha => ?_
    obtain ⟨ref, href, hname⟩ := nameOf_eq_some.mp ha
    have hfound' := (hs name ref).mpr ⟨a, href, hname⟩
    simp [hfound] at hfound'
  · rw [if_pos (hlookup.mpr hfound)]
    exact iff_of_true ⟨hs, ht⟩ fun hnone => absurd hnone hfound

theorem stampWorkspace_keeps {s : SessionTable} (h : WellFormed s) (hs : Exact s) (ht : Told s)
    (sessionId : SessionId) (workspaceUri : String) :
    Exact (s.stampWorkspace sessionId workspaceUri) ∧
      Told (s.stampWorkspace sessionId workspaceUri) := by
  unfold SessionTable.stampWorkspace
  split
  · exact ⟨hs, ht⟩
  · next tracked htracked =>
    have href : s.ref? sessionId = some tracked.ref := by
      unfold ref?
      rw [htracked]
      rfl
    have hname := nameOf_eq_some.mpr ⟨tracked.ref, href, rfl⟩
    constructor
    · refine hs.write h href
        { s.heap tracked.ref with workspaceUri := some workspaceUri }
        (fun a ha => hs.unique h ha hname) rfl rfl fun name => ?_
      show s.found name = _
      by_cases heq : (s.heap tracked.ref).name = name
      · rw [if_pos heq, hs name tracked.ref]
        exact ⟨_, href, heq⟩
      · rw [if_neg heq, if_neg (Ne.symm heq)]
    · have hnames := nameOf_write h href
        { s.heap tracked.ref with workspaceUri := some workspaceUri }
      rw [Function.update_eq_self_iff.mpr hname.symm] at hnames
      unfold Told
      rw [hnames]
      exact ht

theorem keepsIndex_iff {s : SessionTable} (h : WellFormed s) (hs : Exact s ∧ Told s)
    (event : Event) :
    (∀ s', step s event = some s' → Exact s' ∧ Told s') ↔ KeepsIndex s event := by
  obtain ⟨hs, ht⟩ := hs
  cases event with
  | suspect sessionId =>
    refine iff_of_true (fun s' hstep => ?_) trivial
    obtain ⟨tracked, -, rfl⟩ := Option.map_eq_some_iff.mp hstep
    exact ⟨hs, ht⟩
  | reconfirm tracked =>
    refine iff_of_true (fun s' hstep => ?_) trivial
    obtain ⟨-, hsome⟩ := Option.ite_none_right_eq_some.mp hstep
    cases hsome
    unfold SessionTable.reconfirm
    split <;> exact ⟨hs, ht⟩
  | confirmAbsent tracked =>
    simp only [step, KeepsIndex]
    by_cases hmem : tracked ∈ s.confirming
    · simp only [hmem, if_true, Option.some.injEq, forall_eq', forall_const]
      exact remove_iff (s := { s with confirming := s.confirming.erase tracked }) { h with } hs ht
        tracked
    · simp [hmem]
  | applyRows listing tmuxccCounts =>
    simp only [step, KeepsIndex, Option.some.injEq, forall_eq']
    have hknows : Knows s.knownTmuxIds s listing.rows := fun row _ => knownTmuxIds_eq h row.tmuxId
    rw [SessionTable.applyRows, exact_rows_iff h hknows listing.ids listing.names hs]
    exact and_iff_left (told_rows h hknows listing.ids ht)
  | created tmuxId name now =>
    simp only [step, KeepsIndex, Option.some.injEq, forall_eq']
    exact created_iff h hs ht tmuxId name now
  | stampWorkspace sessionId workspaceUri =>
    simp only [step, KeepsIndex, Option.some.injEq, forall_eq', iff_true]
    exact stampWorkspace_keeps h hs ht sessionId workspaceUri
  | destroySession sessionId =>
    refine iff_of_true (fun s' hstep => ?_) trivial
    obtain ⟨tracked, -, rfl⟩ := Option.map_eq_some_iff.mp hstep
    exact ⟨hs, ht⟩
  | killed tracked =>
    simp only [step, KeepsIndex]
    by_cases hmem : tracked ∈ s.destroying
    · simp only [hmem, if_true, Option.some.injEq, forall_eq', forall_const]
      exact remove_iff (s := { s with destroying := s.destroying.erase tracked }) { h with } hs ht
        tracked
    · simp [hmem]

/-- In every state of a run the name index is the index of the table and the broadcasts tell
the table, exactly if every step of the run meets its condition. -/
theorem exact_index_iff (events : List Event) :
    (∀ done s, done <+: events → exec step SessionTable.new done = some s → Exact s ∧ Told s) ↔
      Along step KeepsIndex SessionTable.new events := by
  refine prefixes_iff_along (P := WellFormed) (fun s e s' hs => hs.step)
    (fun s e hs hq => keepsIndex_iff hs hq e) WellFormed.new ?_
  refine ⟨fun name ref => iff_of_false nofun ?_, rfl⟩
  rintro ⟨_, ⟨⟩, -⟩

def shellRow (num : Nat) (name : String) : TmuxSessionRow :=
  ⟨⟨num⟩, name, 1, 0, true, 1, 0, none, none⟩

/-- Two sessions swap their names between two listings. -/
def nameSwap : List Event :=
  [.applyRows ⟨[shellRow 1 "a", shellRow 2 "b"], by decide, by decide⟩ fun _ => 0,
    .applyRows ⟨[shellRow 1 "b", shellRow 2 "a"], by decide, by decide⟩ fun _ => 0]

/-- The first of them is not found by its name any more. -/
theorem name_swap_inexact : ∃ s, exec step SessionTable.new nameSwap = some s ∧ ¬Exact s := by
  refine ⟨_, rfl, fun hs => ?_⟩
  have hfound := (hs "b" 0).mpr ⟨mintSessionId ⟨1⟩, by decide +kernel, by decide +kernel⟩
  revert hfound
  decide +kernel

end TmuxccDriver.Broker
