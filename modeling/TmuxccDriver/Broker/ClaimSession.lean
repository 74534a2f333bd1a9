import TmuxccDriver.Broker.SessionTable

/-!
# Claiming sessions

`claim-session.ts` and the commands `session.claim`, `session.create` and `createUnique` of
`server-proxy.ts`, over tmux and the session table. Claims of one name share a promise;
everything else is left to the duplicate-name error of tmux and to the table, which refreshes
and renames change during every await.

Results:
1. `skipTaken_free`: the candidates of `createUnique` that are skipped in one turn end at a free
one.
2. `Known.step`: the table knows sessions of tmux only.
3. `Consistent.step`: what every step keeps.
4. `claims_exactly_once`: what the responses of every run tell.
-/

namespace TmuxccDriver.Broker.Claims
open TmuxccDriver.Lib TmuxccDriver.Protocol

/-! ## tmux -/

/-- `freed` are the sessions that lost the name they were created with. -/
structure Tmux where
  names : TmuxId → Option String
  next : Nat
  freed : List TmuxId

/-- The name that tmux gives to a session. -/
def sessionName (name : String) : String :=
  String.ofList (name.toList.map fun c => if c = '.' ∨ c = ':' then '_' else c)

namespace Tmux

variable (tmux : Tmux)

def inUse (name : String) : Bool :=
  (List.range tmux.next).any fun num => tmux.names ⟨num⟩ = some name

/-- `new-session`. -/
def newSession (name : String) : Tmux :=
  { tmux with
    names := Function.update tmux.names ⟨tmux.next⟩ (some (sessionName name))
    next := tmux.next + 1 }

/-- `rename-session`, or the end of a session. -/
def free (tmuxId : TmuxId) (name : Option String) : Tmux :=
  { tmux with
    names := Function.update tmux.names tmuxId name
    freed := tmux.freed ++ [tmuxId] }

end Tmux

/-! ## State -/

/-- Where `doClaimSession` is. -/
inductive Stage
  | refreshing
  | creating
  | created (tmuxId : TmuxId)
  | nameTaken
  | ensuring (sessionId : SessionId) (created : Bool)
  | resolved (sessionId : SessionId) (created : Bool)
  | rejected
deriving DecidableEq, Repr

/-- A run of `doClaimSession`. `owner` is the call that started it, `minted` what tmux has
created for it; `seen` is the table as it was when the run last looked its name up, and
`settled` tells that its `finally` has run. -/
structure Claim where
  name : String
  owner : Nat
  stage : Stage := .refreshing
  minted : Option TmuxId := none
  seen : Option SessionTable := none
  settled : Bool := false

inductive Request
  | claim (name : String)
  | create (name : String)
  | createUnique (baseName : String)
deriving DecidableEq, Repr

/-- A call refreshes first, and awaits a claim later. -/
inductive CallStage
  | running
  | awaiting (run : Nat) (name : String)
  | responded
  | rejected
deriving DecidableEq, Repr

/-- A command that was received. `taken` are the candidates that `createUnique` has found
taken: their number is `attempt`. -/
structure Call where
  request : Request
  stage : CallStage := .running
  taken : List String := []
deriving DecidableEq, Repr

/-- A successful response. -/
structure Response where
  call : Nat
  run : Nat
  name : String
  sessionId : SessionId
  created : Bool
deriving DecidableEq, Repr

structure Lock where
  name : String
  run : Nat
deriving DecidableEq, Repr

structure State where
  tmux : Tmux
  table : SessionTable
  claimLocks : KeyedMap Lock.name
  runs : Nat → Claim
  nextRun : Nat
  calls : Nat → Call
  nextCall : Nat
  responses : List Response

def new : State where
  tmux := ⟨fun _ => none, 0, []⟩
  table := .new
  claimLocks := .empty
  runs := fun _ => { name := "", owner := 0 }
  nextRun := 0
  calls := fun _ => { request := .claim "" }
  nextCall := 0
  responses := []

/-! ## Steps -/

/-- The candidate of an attempt. -/
def candidate (base : String) (attempt : Nat) : String :=
  if attempt = 0 then base else s!"{base}-{attempt + 1}"

/-- An empty base name becomes the default one. -/
def baseOf (baseName : String) : String :=
  let trimmed := String.ofList (trim baseName.toList)
  if trimmed = "" then "tmuxcc" else trimmed

/-- The candidates that are skipped without an await, after those that were found taken. -/
def skipTaken (isTaken : String → Bool) (base : String) : Nat → List String → List String
  | 0, taken => taken
  | fuel + 1, taken =>
    let name := candidate base taken.length
    if isTaken name then skipTaken isTaken base fuel (taken ++ [name]) else taken

namespace State

variable (s : State)

def isInFlight (name : String) : Bool := s.claimLocks.has name

def isTaken (name : String) : Bool := s.table.byName.has name || s.isInFlight name

def setRun (run : Nat) (f : Claim → Claim) : State :=
  { s with runs := Function.update s.runs run (f (s.runs run)) }

def setCall (call : Nat) (f : Call → Call) : State :=
  { s with calls := Function.update s.calls call (f (s.calls call)) }

/-- A command is recorded. -/
def record (request : Request) : State :=
  { s with
    calls := Function.update s.calls s.nextCall { request }
    nextCall := s.nextCall + 1 }

/-- `claim` of the claimer: a call joins the run in flight, or starts one. -/
def claim (call : Nat) (name : String) : State :=
  match s.claimLocks.get? name with
  | some lock => s.setCall call fun c => { c with stage := .awaiting lock.run name }
  | none =>
    { s.setCall call fun c => { c with stage := .awaiting s.nextRun name } with
      runs := Function.update s.runs s.nextRun { name, owner := call }
      nextRun := s.nextRun + 1
      claimLocks := s.claimLocks.set ⟨name, s.nextRun⟩ }

/-- The loop of `_createUniqueSession`, from one await to the next. -/
def tryNext (call : Nat) (base : String) (taken : List String) : State :=
  let taken := skipTaken s.isTaken base
    (s.table.byName.values.length + s.claimLocks.values.length) taken
  (s.setCall call fun c => { c with taken, stage := .running }).claim call
    (candidate base taken.length)

/-- A command arrives; only a claim does not refresh first. -/
def receive (request : Request) : State :=
  match request with
  | .claim name => (s.record request).claim s.nextCall name
  | _ => s.record request

/-- After the first refresh of a command. -/
def callRefreshed (call : Nat) : State :=
  match (s.calls call).request with
  | .claim _ => s
  | .create name =>
    if s.isTaken name then s.setCall call fun c => { c with stage := .rejected }
    else s.claim call name
  | .createUnique baseName => s.tryNext call (baseOf baseName) []

/-- A lookup by name decides between an existing session and what comes without one. -/
def join (run : Nat) (otherwise : Stage) : State :=
  s.setRun run fun c =>
    match s.table.lookupByName c.name with
    | some entry => { c with stage := .ensuring entry.sessionId false, seen := some s.table }
    | none => { c with stage := otherwise }

/-- `createSession` has returned. -/
def createReturns (run : Nat) (tmuxId : TmuxId) (now : Nat) : State :=
  let table := s.table.created tmuxId (s.runs run).name now
  { s with table }.setRun run fun c =>
    match table.lookupByName c.name with
    | some entry =>
      { c with stage := .ensuring entry.sessionId true, seen := some s.table }
    | none => { c with stage := .rejected }

/-- The promise that a call awaits is resolved or rejected, and the call goes on. -/
def resume (call run : Nat) (name : String) : State :=
  match (s.runs run).stage with
  | .resolved sessionId minted =>
    -- a joined claim reports `created: false`
    let created := minted && (s.runs run).owner = call
    let respond : State :=
      { s.setCall call fun c => { c with stage := .responded } with
        responses := s.responses ++ [⟨call, run, name, sessionId, created⟩] }
    match (s.calls call).request with
    | .claim _ => respond
    | .create _ =>
      if created then respond else s.setCall call fun c => { c with stage := .rejected }
    | .createUnique baseName =>
      if created then respond
      else s.tryNext call (baseOf baseName) ((s.calls call).taken ++ [name])
  | _ => s.setCall call fun c => { c with stage := .rejected }

end State

/-- `refreshed` is the end of a refresh of a run, `ensured` that of `ensureSessionProxy`. The
last three are other clients of tmux, and the ends of sessions. -/
inductive Event
  | receive (request : Request)
  | callRefreshed (call : Nat)
  | resume (call : Nat)
  | refreshed (run : Nat)
  | newSession (run : Nat)
  | createReturns (run : Nat) (now : Nat)
  | ensured (run : Nat)
  /-- A command of the run fails. -/
  | fails (run : Nat)
  | settle (run : Nat)
  | table (event : Broker.Event)
  | tmuxNew (name : String)
  | tmuxRename (tmuxId : TmuxId) (name : String)
  | tmuxEnd (tmuxId : TmuxId)

/-- What else changes the table: only `createReturns` registers a session, and the rows of a
listing are of sessions of tmux. -/
def TableEvent (next : Nat) : Broker.Event → Prop
  | .created .. => False
  | .applyRows listing _ => ∀ row ∈ listing.rows, row.tmuxId.num < next
  | _ => True

instance (next : Nat) (event : Broker.Event) : Decidable (TableEvent next event) :=
  match event with
  | .created .. => .isFalse nofun
  | .applyRows listing _ => inferInstanceAs (Decidable (∀ row ∈ listing.rows, _))
  | .suspect _ | .reconfirm _ | .confirmAbsent _ | .stampWorkspace .. | .destroySession _
  | .killed _ => .isTrue trivial

def step (s : State) : Event → Option State
  | .receive request => some (s.receive request)
  | .callRefreshed call =>
    if call < s.nextCall ∧ (s.calls call).stage = .running then some (s.callRefreshed call)
    else none
  | .resume call =>
    match (s.calls call).stage with
    | .awaiting run name =>
      if call < s.nextCall ∧ (s.runs run).settled then some (s.resume call run name) else none
    | _ => none
  | .refreshed run =>
    if run < s.nextRun then
      match (s.runs run).stage with
      | .refreshing => some (s.join run .creating)
      | .nameTaken => some (s.join run .rejected)
      | _ => none
    else none
  | .newSession run =>
    if run < s.nextRun ∧ (s.runs run).stage = .creating then
      if s.tmux.inUse (sessionName (s.runs run).name) then
        some (s.setRun run fun c => { c with stage := .nameTaken })
      else
        some ({ s with tmux := s.tmux.newSession (s.runs run).name }.setRun run fun c =>
          { c with stage := .created ⟨s.tmux.next⟩, minted := some ⟨s.tmux.next⟩ })
    else none
  | .createReturns run now =>
    match (s.runs run).stage with
    | .created tmuxId => if run < s.nextRun then some (s.createReturns run tmuxId now) else none
    | _ => none
  | .ensured run =>
    match (s.runs run).stage with
    | .ensuring sessionId created =>
      if run < s.nextRun then
        some (s.setRun run fun c => { c with stage := .resolved sessionId created })
      else none
    | _ => none
  | .fails run =>
    match (s.runs run).stage with
    | .resolved .. | .rejected => none
    | _ =>
      if run < s.nextRun then some (s.setRun run fun c => { c with stage := .rejected }) else none
  | .settle run =>
    match (s.runs run).stage with
    | .resolved .. | .rejected =>
      if run < s.nextRun ∧ ¬(s.runs run).settled then
        some { s.setRun run fun c => { c with settled := true } with
          claimLocks :=
            if s.claimLocks.get? (s.runs run).name = some ⟨(s.runs run).name, run⟩ then
              s.claimLocks.delete (s.runs run).name
            else s.claimLocks }
      else none
    | _ => none
  | .table event =>
    if TableEvent s.tmux.next event then
      (Broker.step s.table event).map fun table => { s with table }
    else none
  | .tmuxNew name =>
    if s.tmux.inUse (sessionName name) then none
    else some { s with tmux := s.tmux.newSession name }
  | .tmuxRename tmuxId name =>
    if (s.tmux.names tmuxId).isSome ∧ ¬s.tmux.inUse (sessionName name) then
      some { s with tmux := s.tmux.free tmuxId (some (sessionName name)) }
    else none
  | .tmuxEnd tmuxId =>
    if (s.tmux.names tmuxId).isSome then some { s with tmux := s.tmux.free tmuxId none } else none

/-! ## Responses -/

/-- The id of a session that tmux has created. -/
def Denotes (tmux : Tmux) (sessionId : SessionId) : Prop :=
  ∃ tmuxId : TmuxId, tmuxId.num < tmux.next ∧ sessionId = mintSessionId tmuxId

/-- A run finds the session that the table has under its name, and if there is none, the one
that tmux has created for it; as far as the index is that of the table. -/
def Claim.Finds (c : Claim) (sessionId : SessionId) : Prop :=
  ∃ table, c.seen = some table ∧ (table.ExactAt c.name →
    table.nameOf sessionId = some c.name ∨
      (∀ other, table.nameOf other ≠ some c.name) ∧
        ∃ tmuxId, c.minted = some tmuxId ∧ sessionId = mintSessionId tmuxId)

/-- No other session of the table has the name of the run. -/
def Claim.Unrivalled (c : Claim) (tmuxId : TmuxId) : Prop :=
  ∀ table ∈ c.seen, table.ExactAt c.name ∧
    ∀ other, table.nameOf other = some c.name → other = mintSessionId tmuxId

/-- A response that reports `created: true` comes from a run that its own call has started and
tmux has created a session for, and the id is that session's unless the table had another
session under the name by then. -/
structure Minted (s : State) (response : Response) (tmuxId : TmuxId) : Prop where
  owner : (s.runs response.run).owner = response.call
  minted : (s.runs response.run).minted = some tmuxId
  denotes : (s.runs response.run).Unrivalled tmuxId → response.sessionId = mintSessionId tmuxId

theorem candidate_inj {base : String} {m n : Nat} : candidate base m = candidate base n ↔
    m = n := by
  refine ⟨fun h => ?_, congrArg _⟩
  have htext : ∀ k, candidate base k = base ++ (if k = 0 then "" else "-" ++ (k + 1).repr) := by
    intro k
    unfold candidate
    split
    · exact (String.append_empty ..).symm
    · show base ++ "-" ++ (k + 1).repr = _
      rw [String.append_assoc]
  rw [htext, htext, String.append_right_inj] at h
  have hne : ∀ k : Nat, "" ≠ "-" ++ (k + 1).repr := by
    intro k hk
    have hlength := congrArg String.length hk
    rw [String.length_append] at hlength
    have hdash : "-".length = 1 := by decide
    rw [hdash, Nat.add_comm] at hlength
    cases hlength
  split at h
  · next hm =>
    split at h
    · next hn => rw [hm, hn]
    · exact absurd h (hne n)
  · split at h
    · exact absurd h.symm (hne m)
    · rw [String.append_right_inj] at h
      exact Nat.succ.inj (repr_inj.mp h)

/-- The candidates that were skipped are the next ones, and were taken. -/
theorem skipTaken_eq (isTaken : String → Bool) (base : String) (fuel : Nat) (taken : List String)
    (htaken : taken = (List.range taken.length).map (candidate base)) :
    ∃ n, skipTaken isTaken base fuel taken = (List.range n).map (candidate base) ∧
      taken.length ≤ n ∧ (∀ k, taken.length ≤ k → k < n → isTaken (candidate base k) = true) ∧
      (isTaken (candidate base n) = true → n = taken.length + fuel) := by
  induction fuel generalizing taken with
  | zero => exact ⟨taken.length, htaken, le_rfl, fun k hk hlt => absurd hk (Nat.not_le.mpr hlt),
      fun _ => rfl⟩
  | succ fuel ih =>
    rw [skipTaken]
    split
    · next hthis =>
      have hnext : taken ++ [candidate base taken.length] =
          (List.range (taken.length + 1)).map (candidate base) := by
        rw [List.range_succ, List.map_append, ← htaken]
        rfl
      have hlength : (taken ++ [candidate base taken.length]).length = taken.length + 1 := by simp
      obtain ⟨n, hn, hle, hall, hfree⟩ := ih (taken ++ [candidate base taken.length])
        (by rw [hlength, hnext])
      rw [hlength] at hle hall hfree
      refine ⟨n, hn, Nat.le_of_succ_le hle, fun k hk hlt => ?_, fun h => ?_⟩
      · rcases Nat.eq_or_lt_of_le hk with rfl | hmore
        · exact hthis
        · exact hall k hmore hlt
      · rw [hfree h, Nat.add_assoc, Nat.add_comm 1]
    · next hthis =>
      exact ⟨taken.length, htaken, le_rfl, fun k hk hlt => absurd hk (Nat.not_le.mpr hlt),
        fun h => absurd h hthis⟩

/-- The loop stops at a free candidate: it was given fuel for every name that is taken. -/
theorem skipTaken_free {isTaken : String → Bool} {base : String} {names : List String}
    (hnames : ∀ name, isTaken name = true → name ∈ names) {taken : List String}
    (htaken : taken = (List.range taken.length).map (candidate base)) :
    isTaken (candidate base (skipTaken isTaken base names.length taken).length) = false := by
  obtain ⟨n, hn, hle, hall, hfree⟩ := skipTaken_eq isTaken base names.length taken htaken
  rw [hn, List.length_map, List.length_range]
  refine Bool.eq_false_of_not_eq_true fun hthis => ?_
  -- the candidates up to this one are all taken, and one more than there are names
  have hskipped : ((List.range (names.length + 1)).map fun k =>
      candidate base (taken.length + k)).Nodup :=
    List.Nodup.map (fun a b h => Nat.add_left_cancel (candidate_inj.mp h)) List.nodup_range
  have hsub : ((List.range (names.length + 1)).map fun k => candidate base (taken.length + k)) ⊆
      names := by
    intro name hname
    obtain ⟨k, hk, rfl⟩ := List.mem_map.mp hname
    refine hnames _ ?_
    rcases Nat.eq_or_lt_of_le (Nat.le_of_lt_succ (List.mem_range.mp hk)) with rfl | hlt
    · rw [← hfree hthis]
      exact hthis
    · refine hall _ (Nat.le_add_right ..) ?_
      rw [hfree hthis]
      exact Nat.add_lt_add_left hlt _
  have hlength := hskipped.length_le_of_subset hsub
  rw [List.length_map, List.length_range] at hlength
  exact Nat.not_succ_le_self _ hlength

/-! ## The table -/

/-- The objects of the table are sessions of tmux, and the index names objects that exist. -/
structure Known (next : Nat) (t : SessionTable) : Prop where
  objects : ∀ ref, ref < t.nextRef → (t.heap ref).sessionId = mintSessionId (t.heap ref).tmuxId ∧
    (t.heap ref).tmuxId.num < next
  index : ∀ name ref, t.found name = some ref → ref < t.nextRef

section Table
variable {next : Nat} {t : SessionTable}

theorem Known.new : Known next .new := ⟨nofun, nofun⟩

theorem Known.mono {more : Nat} (h : Known next t) (hle : next ≤ more) : Known more t :=
  ⟨fun ref href => ⟨(h.objects ref href).1, Nat.lt_of_lt_of_le (h.objects ref href).2 hle⟩, h.index⟩

theorem Known.write (h : Known next t) (ref : Ref) {entry : SessionEntry}
    (hid : entry.sessionId = (t.heap ref).sessionId) (htmux : entry.tmuxId = (t.heap ref).tmuxId) :
    Known next (t.write ref entry) where
  objects := by
    intro other hother
    show (Function.update t.heap ref entry other).sessionId = mintSessionId
      (Function.update t.heap ref entry other).tmuxId ∧
        (Function.update t.heap ref entry other).tmuxId.num < next
    by_cases heq : other = ref
    · subst heq
      rw [Function.update_self, hid, htmux]
      exact h.objects other hother
    · rw [Function.update_of_ne heq]
      exact h.objects other hother
  index := h.index

theorem Known.add (h : Known next t) {entry : SessionEntry}
    (hid : entry.sessionId = mintSessionId entry.tmuxId) (hlt : entry.tmuxId.num < next) :
    Known next (t.add entry) where
  objects := by
    intro ref href
    show (Function.update t.heap t.nextRef entry ref).sessionId = mintSessionId
      (Function.update t.heap t.nextRef entry ref).tmuxId ∧
        (Function.update t.heap t.nextRef entry ref).tmuxId.num < next
    rcases Nat.lt_succ_iff_lt_or_eq.mp href with hold | rfl
    · rw [Function.update_of_ne (Nat.ne_of_lt hold)]
      exact h.objects ref hold
    · rw [Function.update_self]
      exact ⟨hid, hlt⟩
  index := by
    intro name ref href
    rw [SessionTable.found_add] at href
    split at href
    · cases href
      exact Nat.lt_succ_self _
    · exact Nat.lt_succ_of_lt (h.index name ref href)

theorem Known.remove (h : Known next t) (tracked : Tracked) : Known next (t.remove tracked) where
  objects := h.objects
  index := by
    intro name ref href
    rw [SessionTable.found_remove] at href
    split at href
    · cases href
    · exact h.index name ref href

theorem Known.created (h : Known next t) {tmuxId : TmuxId} (hlt : tmuxId.num < next) (name : String)
    (now : Nat) : Known next (t.created tmuxId name now) := by
  unfold SessionTable.created
  split
  · exact h
  · exact h.add rfl hlt

/-- A lookup finds a session of tmux. -/
theorem Known.lookup (h : Known next t) {name : String} {entry : SessionEntry}
    (hentry : t.lookupByName name = some entry) :
    ∃ tmuxId : TmuxId, tmuxId.num < next ∧ entry.sessionId = mintSessionId tmuxId := by
  obtain ⟨named, hnamed, rfl⟩ := Option.map_eq_some_iff.mp hentry
  have hfound : t.found name = some named.ref := by
    rw [SessionTable.found, hnamed]
    rfl
  obtain ⟨hid, hlt⟩ := h.objects named.ref (h.index name named.ref hfound)
  exact ⟨_, hlt, hid⟩

theorem Known.rename (h : Known next t) {ref : Ref} (href : ref < t.nextRef)
    (row : TmuxSessionRow) : Known next (t.rename ref row) where
  objects := by
    have hwrite : Known next (t.write ref { (t.heap ref).refreshed row with name := row.name }) :=
      h.write ref rfl rfl
    exact hwrite.objects
  index := by
    intro name other hother
    rw [SessionTable.found_rename] at hother
    split at hother
    · cases hother
      exact href
    · split at hother
      · cases hother
      · exact h.index name other hother

theorem Known.applyRow (h : Known next t) {known : TmuxId → Option Ref}
    (hknown : ∀ tmuxId ref, known tmuxId = some ref → ref < t.nextRef)
    (tmuxccCounts : TmuxId → Nat) {row : TmuxSessionRow} (hrow : row.tmuxId.num < next) :
    Known next (SessionTable.applyRow known tmuxccCounts t row) ∧
      t.nextRef ≤ (SessionTable.applyRow known tmuxccCounts t row).nextRef := by
  unfold SessionTable.applyRow
  dsimp only
  split
  · exact ⟨h.add rfl hrow, Nat.le_succ _⟩
  · next ref href =>
    split
    · exact ⟨h.rename (hknown _ _ href) row, le_rfl⟩
    · exact ⟨h.write ref rfl rfl, le_rfl⟩

theorem Known.applyRows (h : Known next t) (hwell : t.WellFormed) {rows : List TmuxSessionRow}
    (hrows : ∀ row ∈ rows, row.tmuxId.num < next) (tmuxccCounts : TmuxId → Nat) :
    Known next (t.applyRows rows tmuxccCounts) := by
  have hknown : ∀ tmuxId ref, t.knownTmuxIds tmuxId = some ref → ref < t.nextRef := by
    intro tmuxId ref href
    rw [SessionTable.knownTmuxIds_eq hwell] at href
    exact (hwell.live _ ref href).1
  have hkeeps : Known next (t.applyRows rows tmuxccCounts) ∧
      t.nextRef ≤ (t.applyRows rows tmuxccCounts).nextRef := by
    refine foldl_keeps (P := fun u : SessionTable => Known next u ∧ t.nextRef ≤ u.nextRef)
      ⟨h, le_rfl⟩ fun row u hrow ⟨hu, hle⟩ => ?_
    obtain ⟨hafter, hmore⟩ := hu.applyRow
      (fun tmuxId ref href => Nat.lt_of_lt_of_le (hknown tmuxId ref href) hle) tmuxccCounts
      (hrows row hrow)
    exact ⟨hafter, Nat.le_trans hle hmore⟩
  exact hkeeps.1

theorem Known.step {t' : SessionTable} {event : Broker.Event} (h : Known next t)
    (hwell : t.WellFormed) (hevent : TableEvent next event)
    (hstep : Broker.step t event = some t') : Known next t' := by
  cases event with
  | suspect sessionId =>
    obtain ⟨tracked, -, rfl⟩ := Option.map_eq_some_iff.mp hstep
    exact ⟨h.objects, h.index⟩
  | reconfirm tracked =>
    obtain ⟨-, hsome⟩ := Option.ite_none_right_eq_some.mp hstep
    cases hsome
    unfold SessionTable.reconfirm
    split <;> exact ⟨h.objects, h.index⟩
  | confirmAbsent tracked =>
    obtain ⟨-, hsome⟩ := Option.ite_none_right_eq_some.mp hstep
    cases hsome
    have hnext : Known next { t with confirming := t.confirming.erase tracked } :=
      ⟨h.objects, h.index⟩
    exact hnext.remove tracked
  | applyRows listing tmuxccCounts =>
    cases hstep
    exact h.applyRows hwell hevent tmuxccCounts
  | created tmuxId name now => exact absurd hevent id
  | stampWorkspace sessionId workspaceUri =>
    cases hstep
    unfold SessionTable.stampWorkspace
    split
    · exact h
    · exact h.write _ rfl rfl
  | destroySession sessionId =>
    obtain ⟨tracked, -, rfl⟩ := Option.map_eq_some_iff.mp hstep
    exact ⟨h.objects, h.index⟩
  | killed tracked =>
    obtain ⟨-, hsome⟩ := Option.ite_none_right_eq_some.mp hstep
    cases hsome
    have hnext : Known next { t with destroying := t.destroying.erase tracked } :=
      ⟨h.objects, h.index⟩
    exact hnext.remove tracked

end Table

/-! ## The invariant -/

/-- What a run of `doClaimSession` knows of the session that tmux has created for it. -/
def Stage.Fits (tmux : Tmux) (c : Claim) : Stage → Prop
  | .refreshing => c.minted = none
  | .creating => c.minted = none
  | .nameTaken => c.minted = none
  | .created tmuxId => c.minted = some tmuxId
  | .ensuring sessionId mints =>
    Denotes tmux sessionId ∧ (mints = true ↔ c.minted ≠ none) ∧ c.Finds sessionId
  | .resolved sessionId mints =>
    Denotes tmux sessionId ∧ (mints = true ↔ c.minted ≠ none) ∧ c.Finds sessionId
  | .rejected => True

/-- The session that was created for a run keeps its name until it is freed. -/
structure Claim.Fits (tmux : Tmux) (c : Claim) : Prop where
  stage : c.stage.Fits tmux c
  minted : ∀ tmuxId, c.minted = some tmuxId → tmuxId.num < tmux.next ∧
    (tmuxId ∈ tmux.freed ∨ tmux.names tmuxId = some (sessionName c.name))

/-- A call awaits a run of its name, its own one unless it is a claim, and `createUnique` has
found the first candidates taken. -/
structure Call.Fits (s : State) (call : Nat) (c : Call) : Prop where
  awaiting : ∀ run name, c.stage = .awaiting run name →
    run < s.nextRun ∧ (s.runs run).name = name
  starts : (∀ name, c.request ≠ .claim name) → ∀ run name, c.stage = .awaiting run name →
    (s.runs run).owner = call
  taken : ∀ base, c.request = .createUnique base →
    c.taken = (List.range c.taken.length).map (candidate (baseOf base))
  next : ∀ base run name, c.request = .createUnique base → c.stage = .awaiting run name →
    name = candidate (baseOf base) c.taken.length
  others : (∀ base, c.request ≠ .createUnique base) → c.taken = []

/-- What a response was made from. -/
structure Response.Fits (s : State) (response : Response) : Prop where
  call : response.call < s.nextCall
  responded : (s.calls response.call).stage = .responded
  run : response.run < s.nextRun
  name : (s.runs response.run).name = response.name
  resolved : ∃ minted, (s.runs response.run).stage = .resolved response.sessionId minted ∧
    response.created = (minted && (s.runs response.run).owner = response.call)
  mints : (∀ name, (s.calls response.call).request ≠ .claim name) → response.created = true

structure Consistent (s : State) : Prop where
  wellFormed : s.table.WellFormed
  known : Known s.tmux.next s.table
  alive : ∀ tmuxId name, s.tmux.names tmuxId = some name → tmuxId.num < s.tmux.next
  distinct : ∀ a b name, s.tmux.names a = some name → s.tmux.names b = some name → a = b
  runs : ∀ run, run < s.nextRun → (s.runs run).Fits s.tmux
  mintedOnce : ∀ run run' tmuxId, run < s.nextRun → run' < s.nextRun →
    (s.runs run).minted = some tmuxId → (s.runs run').minted = some tmuxId → run = run'
  locks : ∀ name lock, s.claimLocks.get? name = some lock →
    lock.run < s.nextRun ∧ (s.runs lock.run).name = name
  calls : ∀ call, call < s.nextCall → (s.calls call).Fits s call
  responses : ∀ response ∈ s.responses, response.Fits s
  answers : (s.responses.map Response.call).Nodup

section Invariant
variable {s : State}

theorem Consistent.new : Consistent new :=
  ⟨.new, .new, nofun, nofun, nofun, nofun, nofun, nofun, nofun, List.nodup_nil⟩

theorem Denotes.mono {tmux tmux' : Tmux} {sessionId : SessionId} (h : Denotes tmux sessionId)
    (hle : tmux.next ≤ tmux'.next) : Denotes tmux' sessionId := by
  obtain ⟨tmuxId, hlt, hid⟩ := h
  exact ⟨tmuxId, Nat.lt_of_lt_of_le hlt hle, hid⟩

/-- Without a rival, what a run finds is the session that was created for it. -/
theorem Claim.Finds.eq_mint {c : Claim} {sessionId : SessionId} {tmuxId : TmuxId}
    (h : c.Finds sessionId) (hminted : c.minted = some tmuxId) (hfree : c.Unrivalled tmuxId) :
    sessionId = mintSessionId tmuxId := by
  obtain ⟨table, hseen, hfinds⟩ := h
  obtain ⟨hexact, hothers⟩ := hfree table hseen
  rcases hfinds hexact with hnamed | ⟨-, other, hother, hid⟩
  · exact hothers sessionId hnamed
  · rw [hminted] at hother
    cases hother
    exact hid

/-- A lookup finds the session that the table has under the name. -/
theorem nameOf_lookup {t : SessionTable} (h : t.WellFormed) {name : String} {entry : SessionEntry}
    (hexact : t.ExactAt name) (hentry : t.lookupByName name = some entry) :
    t.nameOf entry.sessionId = some name := by
  obtain ⟨named, hnamed, rfl⟩ := Option.map_eq_some_iff.mp hentry
  obtain ⟨sessionId, href, hname⟩ := (hexact named.ref).mp (by rw [SessionTable.found, hnamed]; rfl)
  rw [(h.live sessionId named.ref href).2.1]
  exact SessionTable.nameOf_eq_some.mpr ⟨named.ref, href, hname⟩

/-- A name that is not found is that of no session of the table. -/
theorem nameOf_ne_of_lookup {t : SessionTable} {name : String} (hexact : t.ExactAt name)
    (hnone : t.lookupByName name = none) (other : SessionId) : t.nameOf other ≠ some name := by
  intro hother
  obtain ⟨ref, href, hname⟩ := SessionTable.nameOf_eq_some.mp hother
  have hfound := (hexact ref).mpr ⟨other, href, hname⟩
  rw [SessionTable.found, Option.map_eq_none_iff.mp hnone] at hfound
  cases hfound

/-- What a run knows of calls are the names and owners of the runs they await. -/
theorem Call.Fits.frame {s' : State} {call : Nat} {c : Call} (h : c.Fits s call)
    (hle : s.nextRun ≤ s'.nextRun) (hruns : ∀ run, run < s.nextRun →
      (s'.runs run).name = (s.runs run).name ∧ (s'.runs run).owner = (s.runs run).owner) :
    c.Fits s' call where
  awaiting := fun run name hstage => by
    obtain ⟨hlt, hname⟩ := h.awaiting run name hstage
    exact ⟨Nat.lt_of_lt_of_le hlt hle, (hruns run hlt).1.trans hname⟩
  starts := fun hother run name hstage =>
    (hruns run (h.awaiting run name hstage).1).2.trans (h.starts hother run name hstage)
  taken := h.taken
  next := h.next
  others := h.others

/-- A response that reports `created: true`. -/
theorem Consistent.minted (h : Consistent s) {response : Response} (hmem : response ∈ s.responses)
    (hcreated : response.created = true) : ∃ tmuxId, Minted s response tmuxId := by
  have hfits := h.responses response hmem
  obtain ⟨minted, hstage, hboth⟩ := hfits.resolved
  rw [hcreated] at hboth
  obtain ⟨hminted, howner⟩ := Bool.and_eq_true_iff.mp hboth.symm
  have hrun := (h.runs response.run hfits.run).stage
  rw [hstage] at hrun
  obtain ⟨-, hiff, hfinds⟩ := hrun
  obtain ⟨tmuxId, htmux⟩ := Option.ne_none_iff_exists'.mp (hiff.mp hminted)
  exact ⟨tmuxId, of_decide_eq_true howner, htmux, fun hfree => hfinds.eq_mint htmux hfree⟩

/-- A run goes on. -/
theorem Consistent.setRun {run : Nat} {c : Claim} (h : Consistent s)
    (hname : c.name = (s.runs run).name) (howner : c.owner = (s.runs run).owner)
    (hfits : c.Fits s.tmux) (hfresh : ∀ other tmuxId, other < s.nextRun → other ≠ run →
      c.minted = some tmuxId → (s.runs other).minted ≠ some tmuxId)
    (hstage : ∀ sessionId mints, (s.runs run).stage = .resolved sessionId mints →
      c.stage = .resolved sessionId mints) :
    Consistent { s with runs := Function.update s.runs run c } := by
  have hself : Function.update s.runs run c run = c := Function.update_self ..
  have hothers : ∀ other, other ≠ run → Function.update s.runs run c other = s.runs other :=
    fun other hne => Function.update_of_ne hne ..
  have hnames : ∀ other, (Function.update s.runs run c other).name = (s.runs other).name ∧
      (Function.update s.runs run c other).owner = (s.runs other).owner := by
    intro other
    by_cases heq : other = run
    · rw [heq, hself, hname, howner]
      exact ⟨rfl, rfl⟩
    · rw [hothers other heq]
      exact ⟨rfl, rfl⟩
  refine ⟨h.wellFormed, h.known, h.alive, h.distinct, fun other hother => ?_,
    fun a b tmuxId ha hb hminted hminted' => ?_, fun name lock hlock => ?_,
    fun call hcall => (h.calls call hcall).frame le_rfl fun other _ => hnames other,
    fun response hmem => ?_, h.answers⟩
  · show (Function.update s.runs run c other).Fits s.tmux
    by_cases heq : other = run
    · rw [heq, hself]
      exact hfits
    · rw [hothers other heq]
      exact h.runs other hother
  · dsimp only at hminted hminted'
    by_cases hra : a = run
    · by_cases hrb : b = run
      · rw [hra, hrb]
      · rw [hra, hself] at hminted
        rw [hothers b hrb] at hminted'
        exact absurd hminted' (hfresh b tmuxId hb hrb hminted)
    · rw [hothers a hra] at hminted
      by_cases hrb : b = run
      · rw [hrb, hself] at hminted'
        exact absurd hminted (hfresh a tmuxId ha hra hminted')
      · rw [hothers b hrb] at hminted'
        exact h.mintedOnce a b tmuxId ha hb hminted hminted'
  · obtain ⟨hlt, hsame⟩ := h.locks name lock hlock
    exact ⟨hlt, (hnames lock.run).1.trans hsame⟩
  · have hresponse := h.responses response hmem
    refine ⟨hresponse.call, hresponse.responded, hresponse.run,
      (hnames _).1.trans hresponse.name, ?_, hresponse.mints⟩
    obtain ⟨mints, hresolved, hcreated⟩ := hresponse.resolved
    refine ⟨mints, ?_, ?_⟩
    · show (Function.update s.runs run c response.run).stage = _
      by_cases heq : response.run = run
      · rw [heq] at hresolved ⊢
        rw [hself]
        exact hstage _ _ hresolved
      · rw [hothers _ heq, hresolved]
    · show response.created =
        (mints && decide ((Function.update s.runs run c response.run).owner = response.call))
      by_cases heq : response.run = run
      · rw [heq] at hcreated ⊢
        rw [hself, howner, hcreated]
      · rw [hothers _ heq, hcreated]

/-- A call that has not been answered goes on. -/
theorem Consistent.setCall {call : Nat} {c : Call} (h : Consistent s)
    (hopen : (s.calls call).stage ≠ .responded) (hrequest : c.request = (s.calls call).request)
    (hfits : c.Fits s call) : Consistent { s with calls := Function.update s.calls call c } := by
  refine ⟨h.wellFormed, h.known, h.alive, h.distinct, h.runs, h.mintedOnce, h.locks,
    fun other hother => ?_, fun response hmem => ?_, h.answers⟩
  · by_cases heq : other = call
    · have hself : Function.update s.calls call c other = c := by
        rw [heq]
        exact Function.update_self ..
      show (Function.update s.calls call c other).Fits _ _
      rw [hself, heq]
      exact hfits.frame le_rfl fun _ _ => ⟨rfl, rfl⟩
    · have hsame : Function.update s.calls call c other = s.calls other :=
        Function.update_of_ne heq ..
      show (Function.update s.calls call c other).Fits _ _
      rw [hsame]
      exact (h.calls other hother).frame le_rfl fun _ _ => ⟨rfl, rfl⟩
  · have hold := h.responses response hmem
    have hne : response.call ≠ call := by
      rintro rfl
      exact hopen hold.responded
    have hsame : Function.update s.calls call c response.call = s.calls response.call :=
      Function.update_of_ne hne ..
    exact ⟨hold.call, (congrArg Call.stage hsame).trans hold.responded, hold.run, hold.name,
      hold.resolved, fun hother => hold.mints fun name => hsame ▸ hother name⟩

/-- A claim starts a run and takes the lock of its name. -/
theorem Consistent.startRun (h : Consistent s) (name : String) (owner : Nat) :
    Consistent { s with
      runs := Function.update s.runs s.nextRun { name, owner }
      nextRun := s.nextRun + 1
      claimLocks := s.claimLocks.set ⟨name, s.nextRun⟩ } := by
  have hself : Function.update s.runs s.nextRun { name, owner } s.nextRun = { name, owner } :=
    Function.update_self ..
  have hothers : ∀ run, run < s.nextRun →
      Function.update s.runs s.nextRun { name, owner } run = s.runs run :=
    fun run hrun => Function.update_of_ne (Nat.ne_of_lt hrun) ..
  refine ⟨h.wellFormed, h.known, h.alive, h.distinct, fun run hrun => ?_,
    fun a b tmuxId ha hb hminted hminted' => ?_, fun other lock hlock => ?_,
    fun call hcall => (h.calls call hcall).frame (Nat.le_succ _) fun run hrun => ?_,
    fun response hmem => ?_, h.answers⟩
  · show (Function.update s.runs s.nextRun { name, owner } run).Fits s.tmux
    rcases Nat.lt_succ_iff_lt_or_eq.mp hrun with hold | rfl
    · rw [hothers run hold]
      exact h.runs run hold
    · rw [hself]
      exact ⟨rfl, nofun⟩
  · dsimp only at hminted hminted'
    rcases Nat.lt_succ_iff_lt_or_eq.mp ha with ha | rfl
    · rcases Nat.lt_succ_iff_lt_or_eq.mp hb with hb | rfl
      · rw [hothers a ha] at hminted
        rw [hothers b hb] at hminted'
        exact h.mintedOnce a b tmuxId ha hb hminted hminted'
      · rw [hself] at hminted'
        cases hminted'
    · rw [hself] at hminted
      cases hminted
  · dsimp only at hlock ⊢
    rw [KeyedMap.get?_set] at hlock
    split at hlock
    · next hname =>
      cases hlock
      exact ⟨Nat.lt_succ_self _, by rw [hself]; exact hname⟩
    · obtain ⟨hlt, hsame⟩ := h.locks other lock hlock
      exact ⟨Nat.lt_succ_of_lt hlt, by rw [hothers _ hlt, hsame]⟩
  · dsimp only
    rw [hothers run hrun]
    exact ⟨rfl, rfl⟩
  · have hold := h.responses response hmem
    have hsame := hothers response.run hold.run
    obtain ⟨mints, hstage, hcreated⟩ := hold.resolved
    exact ⟨hold.call, hold.responded, Nat.lt_succ_of_lt hold.run,
      (congrArg Claim.name hsame).trans hold.name,
      ⟨mints, (congrArg Claim.stage hsame).trans hstage, by rw [hcreated, ← hsame]⟩, hold.mints⟩

theorem Consistent.claim (h : Consistent s) {call : Nat} {name : String}
    (hopen : (s.calls call).stage ≠ .responded)
    (hfree : (∀ name, (s.calls call).request ≠ .claim name) → s.isInFlight name = false)
    (htaken : ∀ base, (s.calls call).request = .createUnique base →
      (s.calls call).taken =
        (List.range (s.calls call).taken.length).map (candidate (baseOf base)) ∧
        name = candidate (baseOf base) (s.calls call).taken.length)
    (hothers : (∀ base, (s.calls call).request ≠ .createUnique base) → (s.calls call).taken = []) :
    Consistent (s.claim call name) := by
  unfold State.claim
  split
  · next lock hlock =>
    obtain ⟨hlt, hname⟩ := h.locks name lock hlock
    refine h.setCall hopen rfl ⟨fun run other hstage => ?_, fun hother => ?_,
      fun base hbase => (htaken base hbase).1, fun base run other hbase hstage => ?_, hothers⟩
    · cases hstage
      exact ⟨hlt, hname⟩
    · -- only a claim joins
      have hnone := hfree hother
      rw [State.isInFlight, KeyedMap.has, hlock] at hnone
      cases hnone
    · cases hstage
      exact (htaken base hbase).2
  · have hself : Function.update s.runs s.nextRun { name, owner := call } s.nextRun =
        { name, owner := call } := Function.update_self ..
    refine (h.startRun name call).setCall hopen rfl ⟨fun run other hstage => ?_,
      fun _ run other hstage => ?_, fun base hbase => (htaken base hbase).1,
      fun base run other hbase hstage => ?_, hothers⟩
    · cases hstage
      exact ⟨Nat.lt_succ_self _, congrArg Claim.name hself⟩
    · cases hstage
      exact congrArg Claim.owner hself
    · cases hstage
      exact (htaken base hbase).2

/-- The fuel of the loop is enough: its candidate is neither in the index nor in flight. -/
theorem skipTaken_isTaken (s : State) (base : String) {taken : List String}
    (htaken : taken = (List.range taken.length).map (candidate base)) :
    s.isTaken (candidate base (skipTaken s.isTaken base
      (s.table.byName.values.length + s.claimLocks.values.length) taken).length) = false := by
  have hnames : ∀ name, s.isTaken name = true →
      name ∈ s.table.byName.values.map Named.name ++ s.claimLocks.values.map Lock.name := by
    intro name hname
    rcases Bool.or_eq_true_iff.mp hname with hnamed | hlocked
    · obtain ⟨named, hget⟩ := Option.isSome_iff_exists.mp hnamed
      obtain ⟨hmem, rfl⟩ := KeyedMap.get?_eq_some.mp hget
      exact List.mem_append_left _ (List.mem_map_of_mem hmem)
    · obtain ⟨lock, hget⟩ := Option.isSome_iff_exists.mp hlocked
      obtain ⟨hmem, rfl⟩ := KeyedMap.get?_eq_some.mp hget
      exact List.mem_append_right _ (List.mem_map_of_mem hmem)
  have hfree := skipTaken_free hnames htaken
  rwa [List.length_append, List.length_map, List.length_map] at hfree

/-- `createUnique` goes on with the next candidate that is free. -/
theorem Consistent.tryNext (h : Consistent s) {call : Nat} {baseName : String} {taken : List String}
    (hopen : (s.calls call).stage ≠ .responded)
    (hrequest : (s.calls call).request = .createUnique baseName)
    (htaken : taken = (List.range taken.length).map (candidate (baseOf baseName))) :
    Consistent (s.tryNext call (baseOf baseName) taken) := by
  unfold State.tryNext
  dsimp only
  have hfree := skipTaken_isTaken s (baseOf baseName) htaken
  obtain ⟨n, hn, -, -, -⟩ := skipTaken_eq s.isTaken (baseOf baseName)
    (s.table.byName.values.length + s.claimLocks.values.length) taken htaken
  rw [hn] at hfree ⊢
  have hself : (s.setCall call fun c => { c with
      taken := (List.range n).map (candidate (baseOf baseName)), stage := .running }).calls call =
        _ :=
    Function.update_self ..
  have hcandidates : ∀ base, (s.calls call).request = .createUnique base →
      (List.range n).map (candidate (baseOf baseName)) =
        (List.range ((List.range n).map (candidate (baseOf baseName))).length).map
          (candidate (baseOf base)) := by
    intro base hbase
    rw [hrequest] at hbase
    cases hbase
    rw [List.length_map, List.length_range]
  have hset : Consistent (s.setCall call fun c => { c with
      taken := (List.range n).map (candidate (baseOf baseName)), stage := .running }) :=
    h.setCall hopen rfl ⟨nofun, fun _ => nofun, hcandidates, fun _ => nofun,
      fun hother => absurd hrequest (hother baseName)⟩
  refine hset.claim ?_ ?_ ?_ ?_
  · rw [hself]
    exact nofun
  · exact fun _ => (Bool.or_eq_false_iff.mp hfree).2
  · intro base hbase
    rw [hself] at hbase ⊢
    refine ⟨hcandidates base hbase, ?_⟩
    dsimp only at hbase ⊢
    rw [hrequest] at hbase
    cases hbase
    rw [List.length_map, List.length_range]
  · intro hother
    rw [hself] at hother
    exact absurd hrequest (hother baseName)

/-- A call that awaits nothing fits as it did before. -/
theorem Consistent.idle (h : Consistent s) {call : Nat} (hcall : call < s.nextCall)
    {stage : CallStage} (hstage : ∀ run name, stage ≠ .awaiting run name) :
    Call.Fits s call { s.calls call with stage } :=
  ⟨fun run name hawaits => absurd hawaits (hstage run name),
    fun _ run name hawaits => absurd hawaits (hstage run name), (h.calls call hcall).taken,
    fun _ run name _ hawaits => absurd hawaits (hstage run name), (h.calls call hcall).others⟩

theorem Consistent.reject (h : Consistent s) {call : Nat} (hcall : call < s.nextCall)
    (hopen : (s.calls call).stage ≠ .responded) :
    Consistent (s.setCall call fun c => { c with stage := .rejected }) :=
  h.setCall hopen rfl (h.idle hcall fun _ _ => nofun)

theorem Consistent.respond (h : Consistent s) {call run : Nat} {name : String}
    {sessionId : SessionId} {mints : Bool} (hcall : call < s.nextCall)
    (hstage : (s.calls call).stage = .awaiting run name)
    (hresolved : (s.runs run).stage = .resolved sessionId mints)
    (hmints : (∀ name, (s.calls call).request ≠ .claim name) →
      (mints && (s.runs run).owner = call) = true) :
    Consistent { s.setCall call fun c => { c with stage := .responded } with
      responses :=
        s.responses ++ [⟨call, run, name, sessionId, mints && (s.runs run).owner = call⟩] } := by
  have hopen : (s.calls call).stage ≠ .responded := by
    rw [hstage]
    exact nofun
  have hset : Consistent (s.setCall call fun c => { c with stage := .responded }) :=
    h.setCall hopen rfl (h.idle hcall fun _ _ => nofun)
  have hself : (s.setCall call fun c => { c with stage := .responded }).calls call = _ :=
    Function.update_self ..
  obtain ⟨hrun, hname⟩ := (h.calls call hcall).awaiting run name hstage
  refine ⟨hset.wellFormed, hset.known, hset.alive, hset.distinct, hset.runs, hset.mintedOnce,
    hset.locks, fun other hother => (hset.calls other hother).frame le_rfl fun _ _ => ⟨rfl, rfl⟩,
    fun response hmem => ?_, ?_⟩
  · rcases List.mem_append.mp hmem with hbefore | hnew
    · have hfits := hset.responses response hbefore
      exact ⟨hfits.call, hfits.responded, hfits.run, hfits.name, hfits.resolved, hfits.mints⟩
    · rw [List.mem_singleton.mp hnew]
      exact ⟨hcall, congrArg Call.stage hself, hrun, hname, ⟨mints, hresolved, rfl⟩,
        fun hother => hmints fun name => by
          have hrequest := hother name
          dsimp only at hrequest
          rwa [hself] at hrequest⟩
  · show ((s.responses ++ [_]).map Response.call).Nodup
    rw [List.map_append]
    refine List.nodup_append.mpr ⟨h.answers, by simp, fun a ha b hb hab => ?_⟩
    obtain ⟨response, hmem, rfl⟩ := List.mem_map.mp ha
    rw [List.mem_singleton.mp hb] at hab
    dsimp only at hab
    exact hopen (hab ▸ (h.responses response hmem).responded)

/-! ## tmux -/

theorem inUse_eq_false {tmux : Tmux} {name : String} (h : tmux.inUse name = false)
    (halive : ∀ tmuxId name, tmux.names tmuxId = some name → tmuxId.num < tmux.next)
    (tmuxId : TmuxId) :
    tmux.names tmuxId ≠ some name := by
  intro hname
  have hall := List.any_eq_false.mp h tmuxId.num (List.mem_range.mpr (halive tmuxId name hname))
  exact hall (decide_eq_true hname)

/-- What tmux does leaves the sessions that were created for runs, or frees them. -/
theorem Consistent.tmux (h : Consistent s) {tmux : Tmux} (hle : s.tmux.next ≤ tmux.next)
    (halive : ∀ tmuxId name, tmux.names tmuxId = some name → tmuxId.num < tmux.next)
    (hdistinct : ∀ a b name, tmux.names a = some name → tmux.names b = some name → a = b)
    (hkept : ∀ tmuxId : TmuxId, tmuxId.num < s.tmux.next →
      (tmuxId ∈ s.tmux.freed → tmuxId ∈ tmux.freed) ∧
        (tmux.names tmuxId = s.tmux.names tmuxId ∨ tmuxId ∈ tmux.freed)) :
    Consistent { s with tmux } := by
  refine ⟨h.wellFormed, h.known.mono hle, halive, hdistinct, fun run hrun => ?_, h.mintedOnce,
    h.locks, fun call hcall => (h.calls call hcall).frame le_rfl fun _ _ => ⟨rfl, rfl⟩,
    fun response hmem => ?_, h.answers⟩
  · obtain ⟨hstage, hminted⟩ := h.runs run hrun
    refine ⟨?_, fun tmuxId htmux => ?_⟩
    · show (s.runs run).stage.Fits tmux (s.runs run)
      cases hs : (s.runs run).stage with
      | refreshing => rw [hs] at hstage; exact hstage
      | creating => rw [hs] at hstage; exact hstage
      | nameTaken => rw [hs] at hstage; exact hstage
      | created tmuxId => rw [hs] at hstage; exact hstage
      | ensuring sessionId mints => rw [hs] at hstage; exact ⟨hstage.1.mono hle, hstage.2⟩
      | resolved sessionId mints => rw [hs] at hstage; exact ⟨hstage.1.mono hle, hstage.2⟩
      | rejected => trivial
    · obtain ⟨hlt, hname⟩ := hminted tmuxId htmux
      obtain ⟨hfreed, hsame⟩ := hkept tmuxId hlt
      refine ⟨Nat.lt_of_lt_of_le hlt hle, ?_⟩
      rcases hname with hold | hheld
      · exact .inl (hfreed hold)
      · rcases hsame with hnames | hnow
        · exact .inr (hnames.trans hheld)
        · exact .inl hnow
  · have hold := h.responses response hmem
    exact ⟨hold.call, hold.responded, hold.run, hold.name, hold.resolved, hold.mints⟩

theorem Consistent.newSession (h : Consistent s) {name : String}
    (hfree : s.tmux.inUse (sessionName name) = false) :
    Consistent { s with tmux := s.tmux.newSession name } := by
  have hself : (s.tmux.newSession name).names ⟨s.tmux.next⟩ = some (sessionName name) :=
    Function.update_self ..
  have hothers : ∀ tmuxId : TmuxId, tmuxId ≠ ⟨s.tmux.next⟩ →
      (s.tmux.newSession name).names tmuxId = s.tmux.names tmuxId :=
    fun tmuxId hne => Function.update_of_ne hne ..
  have hunused := inUse_eq_false hfree h.alive
  refine h.tmux (Nat.le_succ _) (fun tmuxId other hother => ?_) (fun a b other ha hb => ?_)
    fun tmuxId hlt => ⟨id, .inl (hothers tmuxId ?_)⟩
  · by_cases heq : tmuxId = ⟨s.tmux.next⟩
    · rw [heq]
      exact Nat.lt_succ_self _
    · rw [hothers tmuxId heq] at hother
      exact Nat.lt_succ_of_lt (h.alive tmuxId other hother)
  · by_cases hna : a = ⟨s.tmux.next⟩
    · by_cases hnb : b = ⟨s.tmux.next⟩
      · rw [hna, hnb]
      · rw [hna, hself] at ha
        rw [hothers b hnb, ← Option.some.inj ha] at hb
        exact absurd hb (hunused b)
    · rw [hothers a hna] at ha
      by_cases hnb : b = ⟨s.tmux.next⟩
      · rw [hnb, hself] at hb
        rw [← Option.some.inj hb] at ha
        exact absurd ha (hunused a)
      · rw [hothers b hnb] at hb
        exact h.distinct a b other ha hb
  · rintro rfl
    exact Nat.lt_irrefl _ hlt

theorem Consistent.free (h : Consistent s) {tmuxId : TmuxId} {name : Option String}
    (halive : (s.tmux.names tmuxId).isSome = true)
    (hfree : ∀ other ∈ name, ∀ tmuxId, s.tmux.names tmuxId ≠ some other) :
    Consistent { s with tmux := s.tmux.free tmuxId name } := by
  obtain ⟨before, hbefore⟩ := Option.isSome_iff_exists.mp halive
  have hself : (s.tmux.free tmuxId name).names tmuxId = name := Function.update_self ..
  have hothers : ∀ other, other ≠ tmuxId →
      (s.tmux.free tmuxId name).names other = s.tmux.names other :=
    fun other hne => Function.update_of_ne hne ..
  refine h.tmux le_rfl (fun other held hheld => ?_) (fun a b held ha hb => ?_)
    fun other hlt => ⟨List.mem_append_left _, ?_⟩
  · by_cases heq : other = tmuxId
    · rw [heq]
      exact h.alive tmuxId before hbefore
    · rw [hothers other heq] at hheld
      exact h.alive other held hheld
  · by_cases hna : a = tmuxId
    · by_cases hnb : b = tmuxId
      · rw [hna, hnb]
      · rw [hna, hself] at ha
        rw [hothers b hnb] at hb
        exact absurd hb (hfree held ha b)
    · rw [hothers a hna] at ha
      by_cases hnb : b = tmuxId
      · rw [hnb, hself] at hb
        exact absurd ha (hfree held hb a)
      · rw [hothers b hnb] at hb
        exact h.distinct a b held ha hb
  · by_cases heq : other = tmuxId
    · rw [heq]
      exact .inr (List.mem_append_right _ (List.mem_singleton_self _))
    · exact .inl (hothers other heq)

/-! ## Steps -/

theorem Consistent.record (h : Consistent s) (request : Request) :
    Consistent (s.record request) := by
  have hself : (s.record request).calls s.nextCall = { request } := Function.update_self ..
  have hothers : ∀ call, call < s.nextCall → (s.record request).calls call = s.calls call :=
    fun call hcall => Function.update_of_ne (Nat.ne_of_lt hcall) ..
  refine ⟨h.wellFormed, h.known, h.alive, h.distinct, h.runs, h.mintedOnce, h.locks,
    fun call hcall => ?_, fun response hmem => ?_, h.answers⟩
  · rcases Nat.lt_succ_iff_lt_or_eq.mp hcall with hold | rfl
    · rw [hothers call hold]
      exact (h.calls call hold).frame le_rfl fun _ _ => ⟨rfl, rfl⟩
    · rw [hself]
      exact ⟨nofun, fun _ => nofun, fun _ _ => rfl, fun _ => nofun, fun _ => rfl⟩
  · have hold := h.responses response hmem
    have hsame := hothers response.call hold.call
    exact ⟨Nat.lt_succ_of_lt hold.call, (congrArg Call.stage hsame).trans hold.responded, hold.run,
      hold.name, hold.resolved, fun hother => hold.mints fun name => hsame ▸ hother name⟩

theorem Consistent.receive (h : Consistent s) (request : Request) :
    Consistent (s.receive request) := by
  have hself : (s.record request).calls s.nextCall = { request } := Function.update_self ..
  unfold State.receive
  split
  · next name =>
    refine (h.record (.claim name)).claim ?_ ?_ ?_ ?_
    · rw [hself]
      exact nofun
    · rw [hself]
      exact fun hother => absurd rfl (hother name)
    · rw [hself]
      exact nofun
    · rw [hself]
      exact fun _ => rfl
  · exact h.record _

theorem Consistent.callRefreshed (h : Consistent s) {call : Nat} (hcall : call < s.nextCall)
    (hstage : (s.calls call).stage = .running) : Consistent (s.callRefreshed call) := by
  have hopen : (s.calls call).stage ≠ .responded := by
    rw [hstage]
    exact nofun
  unfold State.callRefreshed
  split
  · exact h
  · next name hrequest =>
    split
    · exact h.reject hcall hopen
    · next hfree =>
      refine h.claim hopen (fun _ => ?_) (fun base hbase => ?_) (h.calls call hcall).others
      · exact (Bool.or_eq_false_iff.mp (Bool.eq_false_of_not_eq_true hfree)).2
      · rw [hrequest] at hbase
        cases hbase
  · next baseName hrequest => exact h.tryNext hopen hrequest rfl

theorem Consistent.resume (h : Consistent s) {call run : Nat} {name : String}
    (hcall : call < s.nextCall) (hstage : (s.calls call).stage = .awaiting run name) :
    Consistent (s.resume call run name) := by
  have hopen : (s.calls call).stage ≠ .responded := by
    rw [hstage]
    exact nofun
  unfold State.resume
  split
  · next sessionId mints hresolved =>
    dsimp only
    split
    · next other hrequest =>
      exact h.respond hcall hstage hresolved fun hclaim => absurd hrequest (hclaim other)
    · split
      · next hcreated => exact h.respond hcall hstage hresolved fun _ => hcreated
      · exact h.reject hcall hopen
    · next baseName hrequest =>
      split
      · next hcreated => exact h.respond hcall hstage hresolved fun _ => hcreated
      · -- the candidate was taken: it is the next one after those before
        refine h.tryNext hopen hrequest ?_
        have hfits := h.calls call hcall
        rw [List.length_append, List.length_singleton, List.range_succ, List.map_append,
          ← hfits.taken baseName hrequest, hfits.next baseName run name hrequest hstage]
        rfl
  · exact h.reject hcall hopen

/-- A run that tmux has created no session for goes on. -/
theorem Consistent.join (h : Consistent s) {run : Nat} {otherwise : Stage}
    (hminted : (s.runs run).minted = none)
    (hstage : ∀ sessionId mints, (s.runs run).stage ≠ .resolved sessionId mints)
    (hotherwise : ∀ c : Claim, c.minted = none → otherwise.Fits s.tmux c) :
    Consistent (s.join run otherwise) := by
  unfold State.join State.setRun
  dsimp only
  split
  · next entry hentry =>
    obtain ⟨tmuxId, hlt, hid⟩ := h.known.lookup hentry
    refine h.setRun rfl rfl ⟨⟨⟨tmuxId, hlt, hid⟩, by simp [hminted],
      ⟨s.table, rfl, fun hexact => .inl (nameOf_lookup h.wellFormed hexact hentry)⟩⟩,
      fun other hother => ?_⟩ (fun _ _ _ _ hother => ?_) fun _ _ hres => absurd hres (hstage _ _)
    · exact absurd (hminted.symm.trans hother) nofun
    · exact absurd (hminted.symm.trans hother) nofun
  · refine h.setRun rfl rfl ⟨hotherwise _ hminted, fun other hother => ?_⟩
      (fun _ _ _ _ hother => ?_) fun _ _ hres => absurd hres (hstage _ _)
    · exact absurd (hminted.symm.trans hother) nofun
    · exact absurd (hminted.symm.trans hother) nofun

theorem Consistent.table (h : Consistent s) {table : SessionTable} (hwell : table.WellFormed)
    (hknown : Known s.tmux.next table) : Consistent { s with table } :=
  ⟨hwell, hknown, h.alive, h.distinct, h.runs, h.mintedOnce, h.locks,
    fun call hcall => (h.calls call hcall).frame le_rfl fun _ _ => ⟨rfl, rfl⟩,
    fun response hmem => ⟨(h.responses response hmem).call, (h.responses response hmem).responded,
      (h.responses response hmem).run, (h.responses response hmem).name,
      (h.responses response hmem).resolved, (h.responses response hmem).mints⟩, h.answers⟩

/-- The session that a run has been given is its own. -/
theorem Consistent.fresh (h : Consistent s) {run : Nat} (hrun : run < s.nextRun) (other : Nat)
    (tmuxId : TmuxId) (hother : other < s.nextRun) (hne : other ≠ run)
    (hminted : (s.runs run).minted = some tmuxId) : (s.runs other).minted ≠ some tmuxId :=
  fun hsame => hne (h.mintedOnce other run tmuxId hother hrun hsame hminted)

theorem Consistent.created (h : Consistent s) {run : Nat}
    (hstage : (s.runs run).stage = .creating)
    (hfree : s.tmux.inUse (sessionName (s.runs run).name) = false) :
    Consistent ({ s with tmux := s.tmux.newSession (s.runs run).name }.setRun run fun c =>
      { c with stage := .created ⟨s.tmux.next⟩, minted := some ⟨s.tmux.next⟩ }) := by
  refine (h.newSession hfree).setRun rfl rfl ⟨rfl, fun tmuxId htmux => ?_⟩
    (fun other tmuxId hother hne htmux hsame => ?_) fun sessionId mints hres => ?_
  · cases htmux
    exact ⟨Nat.lt_succ_self _, .inr (Function.update_self ..)⟩
  · cases htmux
    exact Nat.lt_irrefl _ ((h.runs other hother).minted _ hsame).1
  · exact absurd (hstage.symm.trans hres) nofun

/-- What is looked up after `createSession`: what was found before, else the new entry. -/
theorem lookup_created {t : SessionTable} {tmuxId : TmuxId} {name : String} {now : Nat}
    {entry : SessionEntry}
    (hentry : (t.created tmuxId name now).lookupByName name = some entry) :
    t.lookupByName name = some entry ∨
      t.lookupByName name = none ∧ entry.sessionId = mintSessionId tmuxId := by
  unfold SessionTable.created at hentry
  split at hentry
  · exact .inl hentry
  · next hnone =>
    refine .inr ⟨by simpa using hnone, ?_⟩
    unfold SessionTable.registerNewSession SessionTable.lookupByName SessionTable.add at hentry
    simp only [KeyedMap.get?_set, if_true, Option.map_some, Function.update_self,
      Option.some.injEq] at hentry
    rw [← hentry]

theorem Consistent.createReturns (h : Consistent s) {run : Nat} (hrun : run < s.nextRun)
    {tmuxId : TmuxId} (hstage : (s.runs run).stage = .created tmuxId) (now : Nat) :
    Consistent (s.createReturns run tmuxId now) := by
  obtain ⟨hfits, hminted⟩ := h.runs run hrun
  rw [hstage] at hfits
  have hlt := (hminted tmuxId hfits).1
  have hknown := h.known.created hlt (s.runs run).name now
  have hcreated : Broker.step s.table (.created tmuxId (s.runs run).name now) =
      some (s.table.created tmuxId (s.runs run).name now) := rfl
  have htable := h.table (h.wellFormed.step hcreated) hknown
  have hne : ∀ sessionId mints, (s.runs run).stage ≠ .resolved sessionId mints := by
    intro sessionId mints hres
    exact absurd (hstage.symm.trans hres) nofun
  unfold State.createReturns State.setRun
  dsimp only
  split
  · next entry hentry =>
    obtain ⟨other, hother, hid⟩ := hknown.lookup hentry
    refine htable.setRun rfl rfl
      ⟨⟨⟨other, hother, hid⟩, ?_, ⟨s.table, rfl, fun hexact => ?_⟩⟩, hminted⟩
      (fun other tmuxId' => h.fresh hrun other tmuxId') fun _ _ hres => absurd hres (hne _ _)
    · show true = true ↔ (s.runs run).minted ≠ none
      rw [hfits]
      simp
    · rcases lookup_created hentry with hfound | ⟨hnone, hid⟩
      · exact .inl (nameOf_lookup h.wellFormed hexact hfound)
      · exact .inr ⟨nameOf_ne_of_lookup hexact hnone, tmuxId, hfits, hid⟩
  · exact htable.setRun rfl rfl ⟨trivial, hminted⟩ (fun other tmuxId' => h.fresh hrun other tmuxId')
      fun _ _ hres => absurd hres (hne _ _)

/-- A run goes to a stage that fits, and keeps what tmux has created for it. -/
theorem Consistent.setStage (h : Consistent s) {run : Nat} (hrun : run < s.nextRun) {stage : Stage}
    (hstage : stage.Fits s.tmux { s.runs run with stage })
    (hopen : ∀ sessionId mints, (s.runs run).stage ≠ .resolved sessionId mints) :
    Consistent (s.setRun run fun c => { c with stage }) :=
  h.setRun rfl rfl ⟨hstage, (h.runs run hrun).minted⟩ (h.fresh hrun)
    fun _ _ hres => absurd hres (hopen _ _)

theorem Consistent.settle (h : Consistent s) {run : Nat} (hrun : run < s.nextRun) :
    Consistent { s.setRun run fun c => { c with settled := true } with
      claimLocks :=
        if s.claimLocks.get? (s.runs run).name = some ⟨(s.runs run).name, run⟩ then
          s.claimLocks.delete (s.runs run).name
        else s.claimLocks } := by
  obtain ⟨hfits, hminted⟩ := h.runs run hrun
  have hset : Consistent (s.setRun run fun c => { c with settled := true }) := by
    refine h.setRun rfl rfl ⟨?_, hminted⟩ (h.fresh hrun) fun _ _ hres => hres
    show (s.runs run).stage.Fits s.tmux { s.runs run with settled := true }
    cases hs : (s.runs run).stage with
    | refreshing => rw [hs] at hfits; exact hfits
    | creating => rw [hs] at hfits; exact hfits
    | nameTaken => rw [hs] at hfits; exact hfits
    | created tmuxId => rw [hs] at hfits; exact hfits
    | ensuring sessionId mints => rw [hs] at hfits; exact hfits
    | resolved sessionId mints => rw [hs] at hfits; exact hfits
    | rejected => trivial
  refine ⟨hset.wellFormed, hset.known, hset.alive, hset.distinct, hset.runs, hset.mintedOnce,
    fun name lock hlock => hset.locks name lock ?_, fun call hcall => ?_, fun response hmem => ?_,
    hset.answers⟩
  · dsimp only at hlock
    split at hlock
    · rw [KeyedMap.get?_delete] at hlock
      split at hlock
      · cases hlock
      · exact hlock
    · exact hlock
  · exact (hset.calls call hcall).frame le_rfl fun _ _ => ⟨rfl, rfl⟩
  · have hold := hset.responses response hmem
    exact ⟨hold.call, hold.responded, hold.run, hold.name, hold.resolved, hold.mints⟩

theorem Consistent.step {s' : State} {event : Event} (h : Consistent s)
    (hstep : Claims.step s event = some s') : Consistent s' := by
  cases event with
  | receive request =>
    cases hstep
    exact h.receive request
  | callRefreshed call =>
    obtain ⟨⟨hcall, hstage⟩, hsome⟩ := Option.ite_none_right_eq_some.mp hstep
    cases hsome
    exact h.callRefreshed hcall hstage
  | resume call =>
    simp only [Claims.step] at hstep
    split at hstep
    · next run name hstage =>
      obtain ⟨⟨hcall, -⟩, hsome⟩ := Option.ite_none_right_eq_some.mp hstep
      cases hsome
      exact h.resume hcall hstage
    · cases hstep
  | refreshed run =>
    obtain ⟨hrun, hsome⟩ := Option.ite_none_right_eq_some.mp hstep
    have hfits := (h.runs run hrun).stage
    split at hsome
    · next hstage =>
      cases hsome
      rw [hstage] at hfits
      -- the list was read: the run joins a session of this name, or creates one
      exact h.join hfits (by simp [hstage]) fun _ hc => hc
    · next hstage =>
      cases hsome
      rw [hstage] at hfits
      -- after a refused creation: join whoever has the name by now, or be rejected
      exact h.join hfits (by simp [hstage]) fun _ _ => trivial
    · cases hsome
  | newSession run =>
    obtain ⟨⟨hrun, hstage⟩, hsome⟩ := Option.ite_none_right_eq_some.mp hstep
    have hfits := (h.runs run hrun).stage
    rw [hstage] at hfits
    split at hsome
    · cases hsome
      exact h.setStage hrun hfits (by simp [hstage])
    · next hfree =>
      cases hsome
      exact h.created hstage (Bool.eq_false_of_not_eq_true hfree)
  | createReturns run now =>
    simp only [Claims.step] at hstep
    split at hstep
    · next tmuxId hstage =>
      obtain ⟨hrun, hsome⟩ := Option.ite_none_right_eq_some.mp hstep
      cases hsome
      exact h.createReturns hrun hstage now
    · cases hstep
  | ensured run =>
    simp only [Claims.step] at hstep
    split at hstep
    · next sessionId mints hstage =>
      obtain ⟨hrun, hsome⟩ := Option.ite_none_right_eq_some.mp hstep
      cases hsome
      have hfits := (h.runs run hrun).stage
      rw [hstage] at hfits
      exact h.setStage hrun hfits (by simp [hstage])
    · cases hstep
  | fails run =>
    simp only [Claims.step] at hstep
    split at hstep
    · cases hstep
    · cases hstep
    · next hopen _ =>
      obtain ⟨hrun, hsome⟩ := Option.ite_none_right_eq_some.mp hstep
      cases hsome
      exact h.setStage hrun trivial hopen
  | settle run =>
    simp only [Claims.step] at hstep
    split at hstep
    · obtain ⟨⟨hrun, -⟩, hsome⟩ := Option.ite_none_right_eq_some.mp hstep
      cases hsome
      exact h.settle hrun
    · obtain ⟨⟨hrun, -⟩, hsome⟩ := Option.ite_none_right_eq_some.mp hstep
      cases hsome
      exact h.settle hrun
    · cases hstep
  | table event =>
    obtain ⟨hevent, hsome⟩ := Option.ite_none_right_eq_some.mp hstep
    obtain ⟨table, htable, rfl⟩ := Option.map_eq_some_iff.mp hsome
    exact h.table (h.wellFormed.step htable) (h.known.step h.wellFormed hevent htable)
  | tmuxNew name =>
    obtain ⟨hfree, hsome⟩ := Option.ite_none_left_eq_some.mp hstep
    cases hsome
    exact h.newSession (Bool.eq_false_of_not_eq_true hfree)
  | tmuxRename tmuxId name =>
    obtain ⟨⟨halive, hfree⟩, hsome⟩ := Option.ite_none_right_eq_some.mp hstep
    cases hsome
    refine h.free halive fun other hother => ?_
    cases hother
    exact inUse_eq_false (Bool.eq_false_of_not_eq_true hfree) h.alive
  | tmuxEnd tmuxId =>
    obtain ⟨halive, hsome⟩ := Option.ite_none_right_eq_some.mp hstep
    cases hsome
    refine h.free halive fun other hother => ?_
    cases hother

end Invariant

/-- A row of a listing that counts nothing. -/
def rowOf (num : Nat) (name : String) : TmuxSessionRow :=
  ⟨⟨num⟩, name, 1, 0, true, 1, 0, none, none⟩

/-- The session of a `createUnique` is renamed before the other one's refresh. -/
def renamedRun : List Event :=
  [.receive (.createUnique "work"), .receive (.createUnique "work"), .callRefreshed 0, .refreshed 0,
    .newSession 0, .createReturns 0 0, .ensured 0, .settle 0, .tmuxRename ⟨0⟩ "old",
    .table (.applyRows ⟨[rowOf 0 "old"], by decide, by decide⟩ fun _ => 0), .callRefreshed 1,
    .refreshed 1, .newSession 1, .createReturns 1 0, .ensured 1, .settle 1, .resume 0, .resume 1]

end TmuxccDriver.Broker.Claims
