import TmuxccDriver.Broker.SessionTable

/-!
# Reconciles

`_refreshSessions` of `server-proxy.ts`: one reconcile is in flight at a time, and the callers
that come while it runs share one queued follow-up. The follow-up is a callback on the promise
of the reconcile in flight, which resolves some microtasks after its `finally` has cleared
`_refreshInFlight`. What the bodies, the claims and the destroys do to the table is
`SessionTable`.

The times are those of a clock that counts calls and listings.

Results:
1. `Covers.step`: the promise of a caller covers a listing that begins after the call.
2. `Serial.step`: what a step keeps that meets the condition.
3. `reconciles_serial`: in a run whose steps all meet it, one body runs at a time, and no body
undoes what the broker did while it held its rows.
-/

namespace TmuxccDriver.Broker.Reconcile
open TmuxccDriver.Lib TmuxccDriver.Protocol

/-! ## State -/

/-- Where `_doRefreshSessions` is: before `listSessions`, in it, in the loop over the tracked
sessions, in the one over those that looked absent, or in the `checkSessionPresence` of one of
these. -/
inductive Stage
  | started
  | reading
  | checking (listing : Listing) (maybeAbsent : List Tracked)
  | confirming (listing : Listing) (maybeAbsent : List Tracked)
  | presence (listing : Listing) (tracked : Tracked) (rest : List Tracked)

/-- The rows that a body holds. -/
def Stage.listing? : Stage → Option Listing
  | .checking listing _ => some listing
  | .confirming listing _ => some listing
  | .presence listing _ _ => some listing
  | _ => none

def Stage.maybeAbsent : Stage → List Tracked
  | .checking _ maybeAbsent => maybeAbsent
  | .confirming _ maybeAbsent => maybeAbsent
  | .presence _ tracked rest => tracked :: rest
  | _ => []

/-- The id that an entry for the session of a row has. -/
def listedIds (listing : Listing) : List SessionId :=
  listing.rows.map fun row => mintSessionId row.tmuxId

/-- A `_doRefreshSessions` that has not returned. `removed` and `renamed` are the sessions that
the broker has removed and renamed while this body held its rows. -/
structure Body where
  run : Nat
  stage : Stage
  removed : List SessionId := []
  renamed : List SessionId := []

/-- Who awaits a promise of `_refreshSessions`: that of a run, or that of the follow-up. -/
structure Caller where
  calledAt : Nat
  awaits : Option Nat
deriving DecidableEq, Repr

/-- `inFlight` is the run of `_refreshInFlight`, and `pending` the one that the follow-up comes
after. A body that has returned is `ended` until its `finally`, and `settled` then.
`regressions` are the broadcasts of bodies that undid what the broker had done. -/
structure Reconciles where
  table : SessionTable
  clock : Nat
  nextRun : Nat
  inFlight : Option Nat
  pending : Option Nat
  running : List Body
  ended : List Nat
  settled : List Nat
  readAt : Nat → Option Nat
  waiting : List Caller
  returned : List Caller
  regressions : List Broadcast

def new : Reconciles where
  table := .new
  clock := 0
  nextRun := 0
  inFlight := none
  pending := none
  running := []
  ended := []
  settled := []
  readAt := fun _ => none
  waiting := []
  returned := []
  regressions := []

/-! ## Steps -/

/-- A row brings a session back that the broker has removed, or renames one that it has
renamed. -/
def Body.regresses (body : Body) : Broadcast → Bool
  | .added entry => entry.sessionId ∈ body.removed
  | .renamed sessionId _ => sessionId ∈ body.renamed
  | .removed _ => false

/-- The sessions that a list of broadcasts renames. -/
def renames (sent : List Broadcast) : List SessionId :=
  sent.filterMap fun broadcast =>
    match broadcast with
    | .renamed sessionId _ => some sessionId
    | _ => none

/-- What a body that holds rows misses. -/
def Body.misses (removed renamed : List SessionId) (body : Body) : Body :=
  match body.stage.listing? with
  | none => body
  | some _ => { body with removed := body.removed ++ removed, renamed := body.renamed ++ renamed }

namespace Reconciles

variable (x : Reconciles)

def body? (run : Nat) : Option Body := x.running.find? fun body => body.run = run

def put (body : Body) : Reconciles :=
  { x with running := x.running.map fun b => if b.run = body.run then body else b }

/-- A body returns. -/
def endBody (run : Nat) : Reconciles :=
  { x with
    running := x.running.filter fun body => body.run ≠ run
    ended := x.ended ++ [run] }

/-- `_startRefresh`. -/
def startRefresh : Reconciles :=
  { x with
    running := x.running ++ [{ run := x.nextRun, stage := .started }]
    inFlight := some x.nextRun
    nextRun := x.nextRun + 1 }

/-- `_refreshSessions`. -/
def refreshSessions : Reconciles :=
  match x.inFlight with
  | some run =>
    { x with
      pending := x.pending.or (some run)
      waiting := x.waiting ++ [⟨x.clock, none⟩]
      clock := x.clock + 1 }
  | none =>
    { x.startRefresh with
      waiting := x.waiting ++ [⟨x.clock, some x.nextRun⟩]
      clock := x.clock + 1 }

/-- The callback of the follow-up: its promise becomes that of the run it starts. -/
def handOver : Reconciles :=
  { x.startRefresh with
    pending := none
    waiting := x.waiting.map fun caller =>
      if caller.awaits = none then { caller with awaits := some x.nextRun } else caller }

/-- The callback of `finally`. -/
def finish (run : Nat) : Reconciles :=
  { x with
    ended := x.ended.erase run
    settled := x.settled ++ [run]
    inFlight := if x.inFlight = some run then none else x.inFlight }

/-- The broker has changed the table. -/
def changed (table : SessionTable) (removed renamed : List SessionId) : Reconciles :=
  { x with
    table
    running := x.running.map (Body.misses removed renamed) }

/-- What a body does next with a session that looked absent: one that has left the table, or
has a session proxy, is passed over. -/
def reconfirmed (listing : Listing) (tracked : Tracked) (rest : List Tracked)
    (hasSessionProxy : Bool) : Stage :=
  if x.table.sessions.has tracked.sessionId && !hasSessionProxy then
    .presence listing tracked rest
  else .confirming listing rest

/-- `checkSessionPresence` has answered for a session that looked absent; whether the table
still has it is not asked again. -/
def confirm (body : Body) (listing : Listing) (tracked : Tracked) (rest : List Tracked)
    (absent : Bool) : Reconciles :=
  let after := x.put { body with stage := .confirming listing rest }
  if absent then after.changed (x.table.remove tracked) [tracked.sessionId] [] else after

/-- The rows are applied, and the body returns. -/
def applyRows (body : Body) (listing : Listing) (tmuxccCounts : TmuxId → Nat) : Reconciles :=
  let table := x.table.applyRows listing.rows tmuxccCounts
  let sent := table.sent.drop x.table.sent.length
  { (x.endBody body.run).changed table [] (renames sent) with
    regressions := x.regressions ++ sent.filter body.regresses }

end Reconciles

/-- What runs between two awaits. A body is named by its run. -/
inductive Event
  | refreshSessions
  | handOver
  | listSessions (run : Nat)
  /-- `none` is a transient failure. -/
  | listed (run : Nat) (listing : Option Listing)
  | suspect (run : Nat) (sessionId : SessionId)
  /-- `SESSION_ABSENCE_RECONFIRM_MS` have passed. -/
  | settle (run : Nat)
  | reconfirm (run : Nat) (hasSessionProxy : Bool)
  | confirm (run : Nat) (absent : Bool)
  | applyRows (run : Nat) (tmuxccCounts : TmuxId → Nat)
  /-- A command of the body throws after `listSessions`. -/
  | throws (run : Nat)
  | finish (run : Nat)
  /-- The promise of a caller has resolved, and the caller goes on. -/
  | goOn (caller : Caller)
  | created (tmuxId : TmuxId) (name : String) (now : Nat)
  | stampWorkspace (sessionId : SessionId) (workspaceUri : String)
  | destroySession (sessionId : SessionId)
  | killed (tracked : Tracked)

def step (x : Reconciles) : Event → Option Reconciles
  | .refreshSessions => some x.refreshSessions
  | .handOver =>
    match x.pending with
    | some run => if run ∈ x.settled then some x.handOver else none
    | none => none
  | .listSessions run =>
    match x.body? run with
    | some { stage := .started, .. } =>
      some { x.put { run, stage := .reading } with
        readAt := Function.update x.readAt run (some x.clock)
        clock := x.clock + 1 }
    | _ => none
  | .listed run listing =>
    match x.body? run, listing with
    | some { stage := .reading, .. }, some listing =>
      some (x.put { run, stage := .checking listing [] })
    | some { stage := .reading, .. }, none => some (x.endBody run)
    | _, _ => none
  | .suspect run sessionId =>
    match x.body? run, x.table.sessions.get? sessionId with
    | some { stage := .checking listing maybeAbsent, removed, renamed, .. }, some tracked =>
      if (x.table.heap tracked.ref).tmuxId ∈ listing.rows.map TmuxSessionRow.tmuxId then none
      else
        some (x.put
          { run, stage := .checking listing (maybeAbsent ++ [tracked]), removed, renamed })
    | _, _ => none
  | .settle run =>
    match x.body? run with
    | some { stage := .checking listing maybeAbsent, removed, renamed, .. } =>
      some (x.put { run, stage := .confirming listing maybeAbsent, removed, renamed })
    | _ => none
  | .reconfirm run hasSessionProxy =>
    match x.body? run with
    | some { stage := .confirming listing (tracked :: rest), removed, renamed, .. } =>
      some (x.put
        { run, stage := x.reconfirmed listing tracked rest hasSessionProxy, removed, renamed })
    | _ => none
  | .confirm run absent =>
    match x.body? run with
    | some body =>
      match body.stage with
      | .presence listing tracked rest => some (x.confirm body listing tracked rest absent)
      | _ => none
    | none => none
  | .applyRows run tmuxccCounts =>
    match x.body? run with
    | some body =>
      match body.stage with
      | .checking listing [] => some (x.applyRows body listing tmuxccCounts)
      | .confirming listing [] => some (x.applyRows body listing tmuxccCounts)
      | _ => none
    | none => none
  | .throws run =>
    match x.body? run with
    | some { stage := .started, .. } => none
    | some _ => some (x.endBody run)
    | none => none
  | .finish run => if run ∈ x.ended then some (x.finish run) else none
  | .goOn caller =>
    if caller ∈ x.waiting ∧ ∃ run ∈ x.settled, caller.awaits = some run then
      some { x with waiting := x.waiting.erase caller, returned := x.returned ++ [caller] }
    else none
  | .created tmuxId name now =>
    (Broker.step x.table (.created tmuxId name now)).map fun table => x.changed table [] []
  | .stampWorkspace sessionId workspaceUri =>
    (Broker.step x.table (.stampWorkspace sessionId workspaceUri)).map fun table =>
      x.changed table [] []
  | .destroySession sessionId =>
    (Broker.step x.table (.destroySession sessionId)).map fun table => x.changed table [] []
  | .killed tracked =>
    (Broker.step x.table (.killed tracked)).map fun table =>
      x.changed table [tracked.sessionId] []

/-! ## Soundness -/

/-- At most one body runs, what a caller has awaited began a listing after the call, and no
body has undone what the broker did while it held its rows. -/
structure Sound (x : Reconciles) : Prop where
  single : x.running.length ≤ 1
  covered : ∀ caller ∈ x.returned, ∃ run t, caller.awaits = some run ∧ x.readAt run = some t ∧
    caller.calledAt < t
  kept : x.regressions = []

/-- No caller comes between the `finally` of a reconcile and its follow-up, and no destroy ends
while a body holds a row of the session. -/
def Orderly (x : Reconciles) : Event → Prop
  | .refreshSessions => x.inFlight = none → x.pending = none
  | .killed tracked => ∀ body ∈ x.running, ∀ listing ∈ body.stage.listing?,
      tracked.sessionId ∉ listedIds listing
  | _ => True

/-! ## What a step does -/

/-- What a body may do without harm: it misses no rename, and no row that it holds is of a
session that was removed meanwhile, or that it finds absent. -/
structure Body.Current (body : Body) : Prop where
  renamed : body.renamed = []
  removed : ∀ listing ∈ body.stage.listing?, ∀ sessionId ∈ body.removed,
    sessionId ∉ listedIds listing
  absent : ∀ listing ∈ body.stage.listing?, ∀ tracked ∈ body.stage.maybeAbsent,
    tracked.sessionId ∉ listedIds listing

/-- The kinds of steps. -/
inductive Move (x : Reconciles) : Event → Reconciles → Prop
  | calls : Move x .refreshSessions x.refreshSessions
  | follows (run : Nat) (hpending : x.pending = some run) (hsettled : run ∈ x.settled) :
      Move x .handOver x.handOver
  | reads (body : Body) (hbody : body ∈ x.running) :
      Move x (.listSessions body.run)
        { x.put { run := body.run, stage := .reading } with
          readAt := Function.update x.readAt body.run (some x.clock)
          clock := x.clock + 1 }
  | advances (event : Event) (body next : Body) (hbody : body ∈ x.running)
      (hread : body.stage ≠ .started) (hrun : next.run = body.run) (hnext : next.stage ≠ .started)
      (hcurrent : x.table.WellFormed → body.Current → next.Current) : Move x event (x.put next)
  | confirms (body : Body) (listing : Listing) (tracked : Tracked) (rest : List Tracked)
      (absent : Bool) (hbody : body ∈ x.running)
      (hstage : body.stage = .presence listing tracked rest) :
      Move x (.confirm body.run absent) (x.confirm body listing tracked rest absent)
  | applies (body : Body) (listing : Listing) (tmuxccCounts : TmuxId → Nat)
      (hbody : body ∈ x.running) (hlisting : body.stage.listing? = some listing) :
      Move x (.applyRows body.run tmuxccCounts) (x.applyRows body listing tmuxccCounts)
  | ends (event : Event) (body : Body) (hbody : body ∈ x.running)
      (hread : body.stage ≠ .started) : Move x event (x.endBody body.run)
  | finishes (run : Nat) (hended : run ∈ x.ended) : Move x (.finish run) (x.finish run)
  | goesOn (caller : Caller) (run : Nat) (hwaiting : caller ∈ x.waiting)
      (hsettled : run ∈ x.settled) (hawaits : caller.awaits = some run) :
      Move x (.goOn caller)
        { x with waiting := x.waiting.erase caller, returned := x.returned ++ [caller] }
  | changes (event : Event) (table : SessionTable) (removed : List SessionId)
      (htable : x.table.WellFormed → table.WellFormed)
      (hremoved : ∀ sessionId ∈ removed, ∃ tracked : Tracked, event = .killed tracked ∧
        tracked.sessionId = sessionId) : Move x event (x.changed table removed [])

section Steps
variable {x x' : Reconciles} {event : Event}

theorem mem_of_body? {run : Nat} {body : Body} (h : x.body? run = some body) :
    body ∈ x.running ∧ body.run = run :=
  ⟨List.mem_of_find?_eq_some h, by simpa using List.find?_some h⟩

/-- A tracked session that is not among the rows is not there under its id. -/
theorem not_mem_listedIds (h : x.table.WellFormed) {sessionId : SessionId} {tracked : Tracked}
    (htracked : x.table.sessions.get? sessionId = some tracked) {listing : Listing}
    (habsent : (x.table.heap tracked.ref).tmuxId ∉ listing.rows.map TmuxSessionRow.tmuxId) :
    tracked.sessionId ∉ listedIds listing := by
  have href : x.table.ref? sessionId = some tracked.ref := by
    rw [SessionTable.ref?, htracked]
    rfl
  obtain ⟨-, -, hmint⟩ := h.live sessionId tracked.ref href
  have hkey : tracked.sessionId = sessionId := KeyedMap.key_of_get? htracked
  rw [hkey, ← hmint]
  intro hmem
  obtain ⟨row, hrow, hid⟩ := List.mem_map.mp hmem
  exact habsent (List.mem_map.mpr ⟨row, hrow, mintSessionId_inj.mp hid⟩)

/-- A body that looks again holds its rows, and no session that did not look absent. -/
theorem reconfirmed_cases (x : Reconciles) (listing : Listing) (tracked : Tracked)
    (rest : List Tracked) (hasSessionProxy : Bool) :
    x.reconfirmed listing tracked rest hasSessionProxy ≠ .started ∧
      (x.reconfirmed listing tracked rest hasSessionProxy).listing? = some listing ∧
      ∀ suspect ∈ (x.reconfirmed listing tracked rest hasSessionProxy).maybeAbsent,
        suspect ∈ tracked :: rest := by
  unfold Reconciles.reconfirmed
  split
  · exact ⟨nofun, rfl, fun _ hsuspect => hsuspect⟩
  · exact ⟨nofun, rfl, fun _ hsuspect => List.mem_cons_of_mem _ hsuspect⟩

theorem step_moves (hstep : step x event = some x') : Move x event x' := by
  cases event with
  | refreshSessions =>
    cases hstep
    exact .calls
  | handOver =>
    simp only [step] at hstep
    split at hstep
    · next run hpending =>
      obtain ⟨hsettled, hsome⟩ := Option.ite_none_right_eq_some.mp hstep
      cases hsome
      exact .follows run hpending hsettled
    · cases hstep
  | listSessions run =>
    simp only [step] at hstep
    split at hstep
    · next body? _ _ _ hbody =>
      cases hstep
      obtain ⟨hmem, rfl⟩ := mem_of_body? hbody
      exact .reads _ hmem
    · cases hstep
  | listed run listing =>
    simp only [step] at hstep
    split at hstep
    · next hbody =>
      cases hstep
      obtain ⟨hmem, rfl⟩ := mem_of_body? hbody
      -- the listing was just read: nothing was renamed or removed since, and nobody is a suspect
      refine .advances _ _ _ hmem (by simp) rfl (by simp) fun _ _ =>
        ⟨rfl, fun _ _ => List.forall_mem_nil _, ?_⟩
      rintro listing - tracked htracked
      cases htracked
    · next hbody =>
      cases hstep
      obtain ⟨hmem, rfl⟩ := mem_of_body? hbody
      exact .ends _ _ hmem (by simp)
    · cases hstep
  | suspect run sessionId =>
    simp only [step] at hstep
    split at hstep
    · next hbody htracked =>
      obtain ⟨habsent, hsome⟩ := Option.ite_none_left_eq_some.mp hstep
      cases hsome
      obtain ⟨hmem, rfl⟩ := mem_of_body? hbody
      refine .advances _ _ _ hmem (by simp) rfl (by simp) fun htable hcurrent =>
        ⟨hcurrent.renamed, hcurrent.removed, ?_⟩
      rintro _ ⟨⟩ suspect hsuspect
      rcases List.mem_append.mp hsuspect with hold | hnew
      · exact hcurrent.absent _ rfl suspect hold
      · rw [List.mem_singleton.mp hnew]
        exact not_mem_listedIds htable htracked habsent
    · cases hstep
  | settle run =>
    simp only [step] at hstep
    split at hstep
    · next hbody =>
      cases hstep
      obtain ⟨hmem, rfl⟩ := mem_of_body? hbody
      exact .advances _ _ _ hmem (by simp) rfl (by simp) fun _ hcurrent =>
        ⟨hcurrent.renamed, hcurrent.removed, hcurrent.absent⟩
    · cases hstep
  | reconfirm run hasSessionProxy =>
    simp only [step] at hstep
    split at hstep
    · next listing tracked rest removed renamed hbody =>
      cases hstep
      obtain ⟨hmem, rfl⟩ := mem_of_body? hbody
      obtain ⟨hstarted, hlisting, hrest⟩ := reconfirmed_cases x listing tracked rest hasSessionProxy
      refine .advances _ _ _ hmem (by simp) rfl hstarted fun _ hcurrent =>
        ⟨hcurrent.renamed, ?_, ?_⟩
      · rw [hlisting]
        exact hcurrent.removed
      · rw [hlisting]
        exact fun held hheld suspect hsuspect =>
          hcurrent.absent held hheld suspect (hrest suspect hsuspect)
    · cases hstep
  | confirm run absent =>
    simp only [step] at hstep
    split at hstep
    · next body hbody =>
      split at hstep
      · next hstage =>
        cases hstep
        obtain ⟨hmem, rfl⟩ := mem_of_body? hbody
        exact .confirms _ _ _ _ _ hmem hstage
      · cases hstep
    · cases hstep
  | applyRows run tmuxccCounts =>
    simp only [step] at hstep
    split at hstep
    · next body hbody =>
      obtain ⟨hmem, rfl⟩ := mem_of_body? hbody
      split at hstep
      · next hstage =>
        cases hstep
        exact .applies _ _ _ hmem (by rw [hstage, Stage.listing?])
      · next hstage =>
        cases hstep
        exact .applies _ _ _ hmem (by rw [hstage, Stage.listing?])
      · cases hstep
    · cases hstep
  | throws run =>
    simp only [step] at hstep
    split at hstep
    · cases hstep
    · next body hstarted hbody =>
      cases hstep
      obtain ⟨hmem, rfl⟩ := mem_of_body? hbody
      refine .ends _ _ hmem fun hstage => ?_
      obtain ⟨run, stage, removed, renamed⟩ := body
      cases hstage
      exact hstarted _ _ _ rfl
    · cases hstep
  | finish run =>
    obtain ⟨hended, hsome⟩ := Option.ite_none_right_eq_some.mp hstep
    cases hsome
    exact .finishes run hended
  | goOn caller =>
    obtain ⟨⟨hwaiting, run, hsettled, hawaits⟩, hsome⟩ := Option.ite_none_right_eq_some.mp hstep
    cases hsome
    exact .goesOn caller run hwaiting hsettled hawaits
  | created tmuxId name now =>
    simp only [step] at hstep
    obtain ⟨table, htable, rfl⟩ := Option.map_eq_some_iff.mp hstep
    exact .changes _ table [] (fun h => h.step htable) (List.forall_mem_nil _)
  | stampWorkspace sessionId workspaceUri =>
    simp only [step] at hstep
    obtain ⟨table, htable, rfl⟩ := Option.map_eq_some_iff.mp hstep
    exact .changes _ table [] (fun h => h.step htable) (List.forall_mem_nil _)
  | destroySession sessionId =>
    simp only [step] at hstep
    obtain ⟨table, htable, rfl⟩ := Option.map_eq_some_iff.mp hstep
    exact .changes _ table [] (fun h => h.step htable) (List.forall_mem_nil _)
  | killed tracked =>
    simp only [step] at hstep
    obtain ⟨table, htable, rfl⟩ := Option.map_eq_some_iff.mp hstep
    -- the id of a killed session counts as removed for every body that has read its listing
    refine .changes _ table [tracked.sessionId] (fun h => h.step htable) fun sessionId hmem => ?_
    exact ⟨tracked, rfl, (List.mem_singleton.mp hmem).symm⟩

end Steps

/-! ## Callers -/

/-- A promise that is awaited is that of a run that has not begun its listing, or that began
it after the call; a run that has returned has begun one. -/
structure Covers (x : Reconciles) : Prop where
  clock : ∀ caller ∈ x.waiting ++ x.returned, caller.calledAt < x.clock
  awaited : ∀ caller ∈ x.waiting, ∀ run, caller.awaits = some run → run < x.nextRun ∧
    ∀ t, x.readAt run = some t → caller.calledAt < t
  fresh : ∀ run, x.nextRun ≤ run → x.readAt run = none
  begun : ∀ body ∈ x.running, body.run < x.nextRun ∧
    (body.stage ≠ .started → ∃ t, x.readAt body.run = some t)
  done : ∀ run ∈ x.ended ++ x.settled, ∃ t, x.readAt run = some t
  returned : ∀ caller ∈ x.returned, ∃ run t, caller.awaits = some run ∧ x.readAt run = some t ∧
    caller.calledAt < t

/-- The table and what the bodies miss do not matter. -/
theorem misses_run (removed renamed : List SessionId) (body : Body) :
    (body.misses removed renamed).run = body.run ∧
      (body.misses removed renamed).stage = body.stage := by
  unfold Body.misses
  split <;> exact ⟨rfl, rfl⟩

section Callers
variable {x : Reconciles}

theorem Covers.new : Covers new :=
  ⟨nofun, nofun, fun _ _ => rfl, nofun, nofun, nofun⟩

theorem Covers.startRefresh (h : Covers x) : Covers x.startRefresh where
  clock := h.clock
  awaited := fun caller hcaller run hrun =>
    ⟨Nat.lt_succ_of_lt (h.awaited caller hcaller run hrun).1,
      (h.awaited caller hcaller run hrun).2⟩
  fresh := fun run hrun => h.fresh run (Nat.le_of_succ_le hrun)
  begun := by
    intro body hbody
    rcases List.mem_append.mp hbody with hold | hnew
    · obtain ⟨hlt, hread⟩ := h.begun body hold
      exact ⟨Nat.lt_succ_of_lt hlt, hread⟩
    · rw [List.mem_singleton.mp hnew]
      exact ⟨Nat.lt_succ_self _, fun hne => absurd rfl hne⟩
  done := h.done
  returned := h.returned

/-- A caller that comes now awaits a run that has not begun its listing. -/
theorem Covers.wait (h : Covers x) {awaits : Option Nat}
    (hawaits : ∀ run, awaits = some run → run < x.nextRun ∧ x.readAt run = none) :
    Covers { x with waiting := x.waiting ++ [⟨x.clock, awaits⟩], clock := x.clock + 1 } where
  clock := by
    intro caller hcaller
    rcases List.mem_append.mp hcaller with hwaiting | hreturned
    · rcases List.mem_append.mp hwaiting with hold | hnew
      · exact Nat.lt_succ_of_lt (h.clock caller (List.mem_append_left _ hold))
      · rw [List.mem_singleton.mp hnew]
        exact Nat.lt_succ_self _
    · exact Nat.lt_succ_of_lt (h.clock caller (List.mem_append_right _ hreturned))
  awaited := by
    intro caller hcaller run hrun
    rcases List.mem_append.mp hcaller with hold | hnew
    · exact h.awaited caller hold run hrun
    · rw [List.mem_singleton.mp hnew] at hrun
      obtain ⟨hlt, hnone⟩ := hawaits run hrun
      refine ⟨hlt, fun t ht => ?_⟩
      rw [hnone] at ht
      cases ht
  fresh := h.fresh
  begun := h.begun
  done := h.done
  returned := h.returned

theorem Covers.put (h : Covers x) {body next : Body} (hbody : body ∈ x.running)
    (hrun : next.run = body.run) (hread : next.stage ≠ .started →
      ∃ t, x.readAt body.run = some t) : Covers (x.put next) where
  clock := h.clock
  awaited := h.awaited
  fresh := h.fresh
  begun := by
    intro other hother
    obtain ⟨before, hbefore, rfl⟩ := List.mem_map.mp hother
    split
    · rw [hrun]
      exact ⟨(h.begun body hbody).1, hread⟩
    · exact h.begun before hbefore
  done := h.done
  returned := h.returned

theorem Covers.endBody (h : Covers x) {body : Body} (hbody : body ∈ x.running)
    (hread : body.stage ≠ .started) : Covers (x.endBody body.run) where
  clock := h.clock
  awaited := h.awaited
  fresh := h.fresh
  begun := fun other hother => h.begun other (List.mem_of_mem_filter hother)
  done := by
    intro run hrun
    rcases List.mem_append.mp hrun with hended | hsettled
    · rcases List.mem_append.mp hended with hold | hnew
      · exact h.done run (List.mem_append_left _ hold)
      · rw [List.mem_singleton.mp hnew]
        exact (h.begun body hbody).2 hread
    · exact h.done run (List.mem_append_right _ hsettled)
  returned := h.returned

theorem Covers.changed (h : Covers x) (table : SessionTable) (removed renamed : List SessionId) :
    Covers (x.changed table removed renamed) where
  clock := h.clock
  awaited := h.awaited
  fresh := h.fresh
  begun := by
    intro body hbody
    obtain ⟨before, hbefore, rfl⟩ := List.mem_map.mp hbody
    obtain ⟨hrun, hstage⟩ := misses_run removed renamed before
    rw [hrun, hstage]
    exact h.begun before hbefore
  done := h.done
  returned := h.returned

/-- The listing of a body begins: later than all calls so far. -/
theorem Covers.read (h : Covers x) {run : Nat} (hrun : run < x.nextRun) :
    Covers { x with
      readAt := Function.update x.readAt run (some x.clock)
      clock := x.clock + 1 } := by
  have hread : ∀ other, (∃ t, x.readAt other = some t) →
      ∃ t, Function.update x.readAt run (some x.clock) other = some t := by
    rintro other ⟨t, ht⟩
    by_cases heq : other = run
    · exact ⟨x.clock, by rw [heq, Function.update_self]⟩
    · exact ⟨t, by rw [Function.update_of_ne heq, ht]⟩
  refine ⟨fun caller hcaller => Nat.lt_succ_of_lt (h.clock caller hcaller),
    fun caller hcaller other hother => ⟨(h.awaited caller hcaller other hother).1, fun t ht => ?_⟩,
    fun other hother => ?_, fun body hbody => ⟨(h.begun body hbody).1, fun hstage =>
      hread _ ((h.begun body hbody).2 hstage)⟩,
    fun other hother => hread other (h.done other hother), fun caller hcaller => ?_⟩
  · by_cases heq : other = run
    · rw [heq] at ht
      simp only [Function.update_self, Option.some.injEq] at ht
      rw [← ht]
      exact h.clock caller (List.mem_append_left _ hcaller)
    · simp only [Function.update_of_ne heq] at ht
      exact (h.awaited caller hcaller other hother).2 t ht
  · show Function.update x.readAt run (some x.clock) other = none
    rw [Function.update_of_ne (Nat.lt_of_lt_of_le hrun hother).ne']
    exact h.fresh other hother
  · obtain ⟨other, t, hawaits, ht, hlt⟩ := h.returned caller hcaller
    by_cases heq : other = run
    · refine ⟨other, x.clock, hawaits, ?_, h.clock caller (List.mem_append_right _ hcaller)⟩
      rw [heq]
      exact Function.update_self ..
    · refine ⟨other, t, hawaits, ?_, hlt⟩
      show Function.update x.readAt run (some x.clock) other = some t
      rw [Function.update_of_ne heq, ht]

theorem Covers.step {x' : Reconciles} {event : Event} (h : Covers x)
    (hstep : Reconcile.step x event = some x') : Covers x' := by
  cases step_moves hstep with
  | calls =>
    unfold Reconciles.refreshSessions
    split
    · next run hrun =>
      have hwait : Covers { x with
          waiting := x.waiting ++ [⟨x.clock, none⟩], clock := x.clock + 1 } := h.wait nofun
      exact { hwait with }
    · refine h.startRefresh.wait fun run hrun => ?_
      cases hrun
      exact ⟨Nat.lt_succ_self _, h.fresh _ le_rfl⟩
  | follows run hpending hsettled =>
    have hstart := h.startRefresh
    -- the callers of the queued follow-up wait for its run now, and the others for theirs
    have hmapped : ∀ caller ∈ x.handOver.waiting, ∃ before ∈ x.waiting,
        caller.calledAt = before.calledAt ∧ ∀ run, caller.awaits = some run →
          before.awaits = some run ∨ run = x.nextRun := by
      intro caller hcaller
      obtain ⟨before, hbefore, rfl⟩ := List.mem_map.mp hcaller
      refine ⟨before, hbefore, ?_, fun run hrun => ?_⟩
      · split <;> rfl
      · split at hrun
        · exact .inr (Option.some.inj hrun).symm
        · exact .inl hrun
    refine ⟨fun caller hcaller => ?_, fun caller hcaller run hrun => ?_, hstart.fresh, hstart.begun,
      hstart.done, hstart.returned⟩
    · rcases List.mem_append.mp hcaller with hwaiting | hreturned
      · obtain ⟨before, hbefore, hcalled, -⟩ := hmapped caller hwaiting
        rw [hcalled]
        exact h.clock before (List.mem_append_left _ hbefore)
      · exact h.clock caller (List.mem_append_right _ hreturned)
    · obtain ⟨before, hbefore, hcalled, hawaits⟩ := hmapped caller hcaller
      rcases hawaits run hrun with hold | rfl
      · rw [hcalled]
        exact hstart.awaited before hbefore run hold
      · refine ⟨Nat.lt_succ_self _, fun t ht => ?_⟩
        -- the new run has read nothing yet
        have hnone := h.fresh x.nextRun le_rfl
        exact absurd (hnone.symm.trans ht) nofun
  | reads body hbody =>
    have hread := h.read (h.begun body hbody).1
    refine hread.put hbody rfl fun _ => ⟨x.clock, ?_⟩
    exact Function.update_self ..
  | advances event body next hbody hread hrun hnext hcurrent =>
    exact h.put hbody hrun fun _ => (h.begun body hbody).2 hread
  | confirms body listing tracked rest absent hbody hstage =>
    have hput : Covers (x.put { body with stage := .confirming listing rest }) :=
      h.put hbody rfl fun _ => (h.begun body hbody).2 (by rw [hstage]; nofun)
    unfold Reconciles.confirm
    dsimp only
    split
    · exact hput.changed ..
    · exact hput
  | applies body listing tmuxccCounts hbody hlisting =>
    have hread : body.stage ≠ .started := by
      intro hstage
      rw [hstage] at hlisting
      cases hlisting
    have hchanged := (h.endBody hbody hread).changed
      (x.table.applyRows listing.rows tmuxccCounts) []
      (renames ((x.table.applyRows listing.rows tmuxccCounts).sent.drop x.table.sent.length))
    exact { hchanged with }
  | ends event body hbody hread => exact h.endBody hbody hread
  | finishes run hended =>
    refine { h with done := fun other hother => h.done other ?_ }
    rcases List.mem_append.mp hother with hstill | hsettled
    · exact List.mem_append_left _ (List.mem_of_mem_erase hstill)
    · rcases List.mem_append.mp hsettled with hold | hnew
      · exact List.mem_append_right _ hold
      · rw [List.mem_singleton.mp hnew]
        exact List.mem_append_left _ hended
  | goesOn caller run hwaiting hsettled hawaits =>
    refine ⟨fun other hother => h.clock other ?_,
      fun other hother => h.awaited other (List.mem_of_mem_erase hother), h.fresh, h.begun, h.done,
      fun other hother => ?_⟩
    · rcases List.mem_append.mp hother with hstill | hreturned
      · exact List.mem_append_left _ (List.mem_of_mem_erase hstill)
      · rcases List.mem_append.mp hreturned with hold | hnew
        · exact List.mem_append_right _ hold
        · rw [List.mem_singleton.mp hnew]
          exact List.mem_append_left _ hwaiting
    · rcases List.mem_append.mp hother with hold | hnew
      · exact h.returned other hold
      · rw [List.mem_singleton.mp hnew]
        obtain ⟨t, ht⟩ := h.done run (List.mem_append_right _ hsettled)
        exact ⟨run, t, hawaits, ht, (h.awaited caller hwaiting run hawaits).2 t ht⟩
  | changes event table removed htable hremoved => exact h.changed table removed []

end Callers

/-! ## Runs -/

/-- One body runs, that of the reconcile in flight, and the follow-up comes after that one. -/
structure Serial (x : Reconciles) : Prop where
  single : x.running = [] ∨ ∃ body, x.running = [body] ∧ x.inFlight = some body.run
  pending : ∀ run, x.pending = some run → x.inFlight = none ∨ x.inFlight = some run
  lt : ∀ run, x.inFlight = some run → run < x.nextRun
  ended : ∀ run ∈ x.ended, run < x.nextRun ∧ ∀ body ∈ x.running, body.run ≠ run
  settled : ∀ run ∈ x.settled, run < x.nextRun ∧ x.inFlight ≠ some run

/-- Of what a body holds, nothing was removed or renamed meanwhile. -/
structure Kept (x : Reconciles) : Prop where
  table : x.table.WellFormed
  current : ∀ body ∈ x.running, body.Current
  regressions : x.regressions = []

section Runs
variable {x : Reconciles}

theorem Serial.new : Serial new :=
  ⟨.inl rfl, nofun, nofun, nofun, nofun⟩

theorem Serial.idle (h : Serial x) (hnone : x.inFlight = none) : x.running = [] := by
  rcases h.single with hidle | ⟨body, -, hflight⟩
  · exact hidle
  · rw [hnone] at hflight
    cases hflight

theorem Serial.body (h : Serial x) {body : Body} (hbody : body ∈ x.running) :
    x.running = [body] ∧ x.inFlight = some body.run := by
  rcases h.single with hidle | ⟨only, hrunning, hflight⟩
  · rw [hidle] at hbody
    cases hbody
  · rw [hrunning] at hbody
    rw [List.mem_singleton.mp hbody]
    exact ⟨hrunning, hflight⟩

/-- A reconcile starts when none is in flight. -/
theorem Serial.startRefresh (h : Serial x) (hnone : x.inFlight = none) :
    Serial { x.startRefresh with pending := none } where
  single := .inr ⟨_, by rw [Reconciles.startRefresh, h.idle hnone]; rfl, rfl⟩
  pending := nofun
  lt := by
    rintro run ⟨⟩
    exact Nat.lt_succ_self _
  ended := by
    intro run hrun
    obtain ⟨hlt, -⟩ := h.ended run hrun
    refine ⟨Nat.lt_succ_of_lt hlt, fun body hbody => ?_⟩
    rw [Reconciles.startRefresh, h.idle hnone] at hbody
    rw [List.mem_singleton.mp hbody]
    exact hlt.ne'
  settled := by
    intro run hrun
    have hlt := (h.settled run hrun).1
    exact ⟨Nat.lt_succ_of_lt hlt, fun hsome => hlt.ne' (Option.some.inj hsome)⟩

theorem Serial.put (h : Serial x) {body next : Body} (hbody : body ∈ x.running)
    (hrun : next.run = body.run) : Serial (x.put next) where
  single := by
    obtain ⟨hrunning, hflight⟩ := h.body hbody
    refine .inr ⟨next, ?_, hrun ▸ hflight⟩
    rw [Reconciles.put, hrunning, List.map_singleton, if_pos hrun.symm]
  pending := h.pending
  lt := h.lt
  ended := by
    intro run hended
    refine ⟨(h.ended run hended).1, fun other hother => ?_⟩
    obtain ⟨before, hbefore, rfl⟩ := List.mem_map.mp hother
    split
    · rw [hrun]
      exact (h.ended run hended).2 body hbody
    · exact (h.ended run hended).2 before hbefore
  settled := h.settled

theorem Serial.changed (h : Serial x) (table : SessionTable) (removed renamed : List SessionId) :
    Serial (x.changed table removed renamed) where
  single := by
    rcases h.single with hidle | ⟨body, hrunning, hflight⟩
    · exact .inl (by rw [Reconciles.changed, hidle]; rfl)
    · refine .inr ⟨body.misses removed renamed, by rw [Reconciles.changed, hrunning]; rfl, ?_⟩
      rw [(misses_run removed renamed body).1]
      exact hflight
  pending := h.pending
  lt := h.lt
  ended := by
    intro run hended
    refine ⟨(h.ended run hended).1, fun other hother => ?_⟩
    obtain ⟨before, hbefore, rfl⟩ := List.mem_map.mp hother
    rw [(misses_run removed renamed before).1]
    exact (h.ended run hended).2 before hbefore
  settled := h.settled

theorem Serial.running_endBody (h : Serial x) {body : Body} (hbody : body ∈ x.running) :
    (x.endBody body.run).running = [] := by
  rw [Reconciles.endBody, (h.body hbody).1]
  simp

theorem Serial.endBody (h : Serial x) {body : Body} (hbody : body ∈ x.running) :
    Serial (x.endBody body.run) where
  single := .inl (h.running_endBody hbody)
  pending := h.pending
  lt := h.lt
  ended := by
    intro run hended
    refine ⟨?_, fun other hother => ?_⟩
    · rcases List.mem_append.mp hended with hold | hnew
      · exact (h.ended run hold).1
      · rw [List.mem_singleton.mp hnew]
        exact h.lt _ (h.body hbody).2
    · rw [h.running_endBody hbody] at hother
      cases hother
  settled := h.settled

theorem Serial.step {x' : Reconciles} {event : Event} (h : Serial x) (horderly : Orderly x event)
    (hstep : Reconcile.step x event = some x') : Serial x' := by
  cases step_moves hstep with
  | calls =>
    unfold Reconciles.refreshSessions
    split
    · next run hrun =>
      refine { h with pending := fun other hother => ?_ }
      cases hpending : x.pending with
      | none =>
        rw [hpending] at hother
        exact .inr (hrun.trans hother)
      | some before =>
        rw [hpending] at hother
        exact h.pending other (hpending.trans hother)
    · next hnone =>
      have hstart := h.startRefresh hnone
      -- no follow-up waits: it would start a second body
      have hpending : x.pending = none := horderly hnone
      exact { hstart with pending := fun run hrun => absurd (hpending.symm.trans hrun) nofun }
  | follows run hpending hsettled =>
    have hnone : x.inFlight = none :=
      (h.pending run hpending).resolve_right (h.settled run hsettled).2
    have hstart := h.startRefresh hnone
    exact { hstart with }
  | reads body hbody =>
    have hput : Serial (x.put { run := body.run, stage := .reading }) := h.put hbody rfl
    exact { hput with }
  | advances event body next hbody hread hrun hnext hcurrent => exact h.put hbody hrun
  | confirms body listing tracked rest absent hbody hstage =>
    have hput : Serial (x.put { body with stage := .confirming listing rest }) := h.put hbody rfl
    unfold Reconciles.confirm
    dsimp only
    split
    · exact hput.changed ..
    · exact hput
  | applies body listing tmuxccCounts hbody hlisting =>
    have hchanged := (h.endBody hbody).changed (x.table.applyRows listing.rows tmuxccCounts) []
      (renames ((x.table.applyRows listing.rows tmuxccCounts).sent.drop x.table.sent.length))
    exact { hchanged with }
  | ends event body hbody hread => exact h.endBody hbody
  | finishes run hended =>
    have hflight : ∀ other, (x.finish run).inFlight = some other → x.inFlight = some other ∧
        other ≠ run := by
      intro other hother
      unfold Reconciles.finish at hother
      dsimp only at hother
      split at hother
      · cases hother
      · next hne => exact ⟨hother, fun heq => hne (heq ▸ hother)⟩
    refine ⟨?_, fun other hother => ?_, fun other hother => h.lt other (hflight other hother).1,
      fun other hother => h.ended other (List.mem_of_mem_erase hother), fun other hother => ?_⟩
    · rcases h.single with hidle | ⟨body, hrunning, hbody⟩
      · exact .inl hidle
      · refine .inr ⟨body, hrunning, ?_⟩
        have hne : body.run ≠ run :=
          (h.ended run hended).2 body (by rw [hrunning]; exact List.mem_singleton_self _)
        refine (if_neg fun heq => hne ?_).trans hbody
        exact Option.some.inj (hbody.symm.trans heq)
    · unfold Reconciles.finish
      dsimp only
      split
      · exact .inl rfl
      · exact h.pending other hother
    · rcases List.mem_append.mp hother with hold | hnew
      · exact ⟨(h.settled other hold).1, fun hsome =>
          (h.settled other hold).2 (hflight other hsome).1⟩
      · rw [List.mem_singleton.mp hnew]
        exact ⟨(h.ended run hended).1, fun hsome => (hflight run hsome).2 rfl⟩
  | goesOn caller run hwaiting hsettled hawaits => exact { h with }
  | changes event table removed htable hremoved => exact h.changed table removed []

theorem Kept.new : Kept new :=
  ⟨.new, nofun, rfl⟩

theorem Kept.put (h : Kept x) {next : Body} (hnext : next.Current) : Kept (x.put next) where
  table := h.table
  current := by
    intro body hbody
    obtain ⟨before, hbefore, rfl⟩ := List.mem_map.mp hbody
    split
    · exact hnext
    · exact h.current before hbefore
  regressions := h.regressions

theorem Body.Current.misses {body : Body} (h : body.Current) {removed : List SessionId}
    (hremoved : ∀ listing ∈ body.stage.listing?, ∀ sessionId ∈ removed,
      sessionId ∉ listedIds listing) : (body.misses removed []).Current := by
  unfold Body.misses
  split
  · exact h
  · refine ⟨?_, fun listing hlisting sessionId hmem => ?_, h.absent⟩
    · rw [List.append_nil]
      exact h.renamed
    · rcases List.mem_append.mp hmem with hold | hnew
      · exact h.removed listing hlisting sessionId hold
      · exact hremoved listing hlisting sessionId hnew

theorem Kept.changed (h : Kept x) {table : SessionTable} (htable : table.WellFormed)
    {removed : List SessionId}
    (hremoved : ∀ body ∈ x.running, ∀ listing ∈ body.stage.listing?, ∀ sessionId ∈ removed,
      sessionId ∉ listedIds listing) : Kept (x.changed table removed []) where
  table := htable
  current := by
    intro body hbody
    obtain ⟨before, hbefore, rfl⟩ := List.mem_map.mp hbody
    exact (h.current before hbefore).misses (hremoved before hbefore)
  regressions := h.regressions

/-- No row that a body applies is of a session that it misses. -/
theorem Kept.applies (h : Kept x) {body : Body} (hbody : body ∈ x.running) {listing : Listing}
    (hlisting : body.stage.listing? = some listing) (tmuxccCounts : TmuxId → Nat) :
    ((x.table.applyRows listing.rows tmuxccCounts).sent.drop x.table.sent.length).filter
      body.regresses = [] := by
  obtain ⟨sent, hsent, hall⟩ := x.table.sent_applyRows listing.rows tmuxccCounts
  rw [hsent, List.drop_left]
  refine List.filter_eq_nil_iff.mpr fun broadcast hbroadcast hregress => ?_
  obtain ⟨hrenamed, hremoved, -⟩ := h.current body hbody
  rcases hall broadcast hbroadcast with ⟨row, hrow, count, rfl⟩ | ⟨sessionId, name, rfl⟩
  · have hmem : mintSessionId row.tmuxId ∈ body.removed := by
      exact of_decide_eq_true hregress
    exact hremoved listing hlisting _ hmem (List.mem_map.mpr ⟨row, hrow, rfl⟩)
  · simp [Body.regresses, hrenamed] at hregress

theorem Kept.step {x' : Reconciles} {event : Event} (h : Kept x) (hserial : Serial x)
    (horderly : Orderly x event) (hstep : Reconcile.step x event = some x') : Kept x' := by
  have hnew : ∀ run, Body.Current { run, stage := .started } := fun _ =>
    ⟨rfl, nofun, nofun⟩
  have hstart : Kept x.startRefresh := by
    refine { h with current := fun body hbody => ?_ }
    rcases List.mem_append.mp hbody with hold | hlast
    · exact h.current body hold
    · rw [List.mem_singleton.mp hlast]
      exact hnew _
  cases step_moves hstep with
  | calls =>
    unfold Reconciles.refreshSessions
    split
    · exact { h with }
    · exact { hstart with }
  | follows run hpending hsettled => exact { hstart with }
  | reads body hbody =>
    have hput : Kept (x.put { run := body.run, stage := .reading }) :=
      h.put ⟨rfl, nofun, nofun⟩
    exact { hput with }
  | advances event body next hbody hread hrun hnext hcurrent =>
    exact h.put (hcurrent h.table (h.current body hbody))
  | confirms body listing tracked rest absent hbody hstage =>
    have hcurrent := h.current body hbody
    have habsent : ∀ suspect ∈ tracked :: rest, suspect.sessionId ∉ listedIds listing :=
      fun suspect hsuspect => hcurrent.absent listing (by rw [hstage, Stage.listing?]; rfl) suspect
        (by rwa [hstage])
    have hnext : Body.Current { body with stage := .confirming listing rest } := by
      refine ⟨hcurrent.renamed, ?_, ?_⟩
      · rintro _ ⟨⟩
        exact hcurrent.removed listing (by rw [hstage, Stage.listing?]; rfl)
      · rintro _ ⟨⟩ suspect hsuspect
        exact habsent suspect (List.mem_cons_of_mem _ hsuspect)
    have hput := h.put hnext
    unfold Reconciles.confirm
    dsimp only
    split
    · refine hput.changed (h.table.remove tracked) fun other hother held hheld sessionId hmem => ?_
      · -- this body is the only one, and the session is not among its rows
        have honly : (x.put { body with stage := .confirming listing rest }).running =
            [{ body with stage := .confirming listing rest }] := by
          rw [Reconciles.put, (hserial.body hbody).1]
          simp
        rw [honly] at hother
        rw [List.mem_singleton.mp hother] at hheld
        cases hheld
        rw [List.mem_singleton.mp hmem]
        exact habsent tracked List.mem_cons_self
    · exact hput
  | applies body listing tmuxccCounts hbody hlisting =>
    have hrows : Broker.step x.table (.applyRows listing tmuxccCounts) =
        some (x.table.applyRows listing.rows tmuxccCounts) := rfl
    have happlied := h.table.step hrows
    refine ⟨happlied, fun other hother => ?_, ?_⟩
    · obtain ⟨before, hbefore, -⟩ := List.mem_map.mp hother
      rw [hserial.running_endBody hbody] at hbefore
      cases hbefore
    · show x.regressions ++ _ = []
      rw [h.regressions, h.applies hbody hlisting]
      rfl
  | ends event body hbody hread =>
    exact { h with current := fun other hother => h.current other (List.mem_of_mem_filter hother) }
  | finishes run hended => exact { h with }
  | goesOn caller run hwaiting hsettled hawaits => exact { h with }
  | changes event table removed htable hremoved =>
    refine h.changed (htable h.table) fun body hbody listing hlisting sessionId hmem => ?_
    obtain ⟨tracked, rfl, rfl⟩ := hremoved sessionId hmem
    exact horderly body hbody listing hlisting

theorem sound_of_invariants (hcovers : Covers x) (hserial : Serial x) (hkept : Kept x) :
    Sound x := by
  refine ⟨?_, hcovers.returned, hkept.regressions⟩
  rcases hserial.single with hidle | ⟨body, hrunning, -⟩
  · simp [hidle]
  · simp [hrunning]

end Runs

/-- In a run whose steps are all orderly, reconciles are serialized, what a caller awaits covers
its call, and no session comes back. -/
theorem reconciles_serial (events : List Event) (x : Reconciles)
    (horderly : Along step Orderly new events) (hrun : exec step new events = some x) :
    Sound x := by
  obtain ⟨hcovers, hserial, hkept⟩ := exec_invariant
    (P := fun x => Covers x ∧ Serial x ∧ Kept x) (C := Orderly)
    (fun x event x' ⟨hcovers, hserial, hkept⟩ ho hstep =>
      ⟨hcovers.step hstep, hserial.step ho hstep, hkept.step hserial ho hstep⟩)
    ⟨.new, .new, .new⟩ horderly hrun
  exact sound_of_invariants hcovers hserial hkept

instance (x : Reconciles) (event : Event) : Decidable (Orderly x event) :=
  match event with
  | .refreshSessions => inferInstanceAs (Decidable (_ → _))
  | .killed _ => inferInstanceAs (Decidable (∀ body ∈ x.running, _))
  | .handOver | .listSessions _ | .listed .. | .suspect .. | .settle _ | .reconfirm ..
  | .confirm .. | .applyRows .. | .throws _ | .finish _ | .goOn _ | .created .. | .stampWorkspace ..
  | .destroySession _ => .isTrue trivial

def work : Listing where
  rows := [⟨⟨1⟩, "work", 1, 0, true, 1, 0, none, none⟩]
  ids := by decide
  names := by decide

/-- A follow-up covers the second caller, and the destroy comes after the rows are applied. -/
def orderlyRun : List Event :=
  [.created ⟨1⟩ "work" 0, .refreshSessions, .refreshSessions, .listSessions 0,
    .listed 0 (some work),
    .applyRows 0 fun _ => 0, .finish 0, .goOn ⟨0, some 0⟩, .handOver, .listSessions 1,
    .listed 1 none, .finish 1, .goOn ⟨1, some 1⟩, .destroySession ⟨"s1"⟩, .killed ⟨⟨"s1"⟩, 0⟩]

theorem reconciles_serial_follow_up :
    ∃ x, exec step new orderlyRun = some x ∧ x.returned = [⟨0, some 0⟩, ⟨1, some 1⟩] ∧ Sound x := by
  have hrun : (exec step new orderlyRun).map (fun x => x.returned) =
      some [⟨0, some 0⟩, ⟨1, some 1⟩] := by
    decide +kernel
  obtain ⟨x, hexec, hreturned⟩ := Option.map_eq_some_iff.mp hrun
  exact ⟨x, hexec, hreturned, reconciles_serial orderlyRun x
    (show Along step Orderly new orderlyRun by decide +kernel) hexec⟩

/-- A caller that goes on after a reconcile starts one itself before the queued follow-up does:
two bodies run. A session is destroyed while a body holds its row: the body adds it again. -/
theorem follow_up_overlaps :
    (∃ x, exec step new [.refreshSessions, .refreshSessions, .listSessions 0, .listed 0 none,
        .finish 0, .goOn ⟨0, some 0⟩, .refreshSessions, .handOver] = some x ∧
      x.running.map Body.run = [1, 2] ∧ ¬Sound x) ∧
    (∃ x, exec step new [.created ⟨1⟩ "work" 0, .refreshSessions, .listSessions 0,
        .listed 0 (some work), .destroySession ⟨"s1"⟩, .killed ⟨⟨"s1"⟩, 0⟩,
        .applyRows 0 fun _ => 0] = some x ∧
      x.regressions = [.added (entryOfRow ⟨⟨1⟩, "work", 1, 0, true, 1, 0, none, none⟩ 0)] ∧
      ¬Sound x) := by
  constructor
  · have hrun : (exec step new [.refreshSessions, .refreshSessions, .listSessions 0, .listed 0 none,
        .finish 0, .goOn ⟨0, some 0⟩, .refreshSessions, .handOver]).map
        (fun x => x.running.map Body.run) = some [1, 2] := by
      decide +kernel
    obtain ⟨x, hexec, hrunning⟩ := Option.map_eq_some_iff.mp hrun
    refine ⟨x, hexec, hrunning, fun hsound => ?_⟩
    have htwo := congrArg List.length hrunning
    rw [List.length_map] at htwo
    exact absurd (htwo ▸ hsound.single) (by decide)
  · have hrun : (exec step new [.created ⟨1⟩ "work" 0, .refreshSessions, .listSessions 0,
        .listed 0 (some work), .destroySession ⟨"s1"⟩, .killed ⟨⟨"s1"⟩, 0⟩,
        .applyRows 0 fun _ => 0]).map (fun x => x.regressions) =
        some [.added (entryOfRow ⟨⟨1⟩, "work", 1, 0, true, 1, 0, none, none⟩ 0)] := by
      decide +kernel
    obtain ⟨x, hexec, hregressions⟩ := Option.map_eq_some_iff.mp hrun
    refine ⟨x, hexec, hregressions, fun hsound => ?_⟩
    rw [hsound.kept] at hregressions
    cases hregressions

end TmuxccDriver.Broker.Reconcile
