import TmuxccDriver.Lib.Run
import TmuxccDriver.Protocol.SessionProxyControl

/-!
# The supervisor

`session-proxy-supervisor.ts`: a registry by session id, whose values are the promise of a
creation or the entry it has resolved to. Ensures, reaps, the end of a start, fatal errors of a
pipeline and the death of a tmux host check it and clear it.

What follows a start that resolves or rejects runs in the microtasks of the same turn, so that
it is one step: the entry is registered, or torn down if its promise was reaped meanwhile.

Results:
1. `Life`: what becomes of a proxy, and where it is registered.
2. `Supervised.step`: what a step keeps that meets the condition.
3. `Supervised.violated`: what every other step breaks.
4. `supervised_iff`: in which runs the registry is sound in every state.
-/

namespace TmuxccDriver.Broker.Supervisor
open TmuxccDriver.Lib TmuxccDriver.Protocol

/-! ## State -/

def CIRCUIT_BREAKER_TRIP_THRESHOLD : Nat := 3
def CIRCUIT_BREAKER_WINDOW_MS : Nat := 10000

/-- The order in which the proxies were created. -/
abbrev ProxyId := Nat

/-- A value of the registry. -/
inductive Slot
  | promise (proxy : ProxyId)
  | entry (proxy : ProxyId)
deriving DecidableEq, Repr

def Slot.proxy : Slot → ProxyId
  | .promise proxy => proxy
  | .entry proxy => proxy

inductive Phase
  | starting
  | started
  | failed
deriving DecidableEq, Repr

/-- Who has deleted the registration of a proxy. -/
inductive Cause
  | creationFailed
  | reaped
  | boundaryTrip
  | hostDeath
deriving DecidableEq, Repr

/-- A session proxy, its entry, and what is told of it: `tripped` when its pipeline has stopped
itself, `chained` when a reap waits for its creation, how often `stop` was called, and how it
left the registry. -/
structure Proxy where
  sessionId : SessionId
  phase : Phase := .starting
  tornDown : Bool := false
  boundaryTripInFlight : Bool := false
  tripped : Bool := false
  chained : Bool := false
  stops : Nat := 0
  left : Option Cause := none
deriving DecidableEq, Repr

/-- The proxy that an ensure was given, and whether that had tripped by then. -/
structure Served where
  proxy : ProxyId
  tripped : Bool
deriving DecidableEq, Repr

/-- `crashes` are the calls of the crash handler, `deaths` the deaths of proxies that were
registered. -/
structure Registry where
  next : ProxyId
  proxies : ProxyId → Proxy
  sessionProxies : SessionId → Option Slot
  boundaryTripLog : SessionId → List Nat
  quarantinedSessions : SessionId → Bool
  served : List Served
  crashes : List ProxyId
  deaths : List ProxyId

def new : Registry where
  next := 0
  proxies := fun _ => { sessionId := ⟨""⟩ }
  sessionProxies := fun _ => none
  boundaryTripLog := fun _ => []
  quarantinedSessions := fun _ => false
  served := []
  crashes := []
  deaths := []

/-! ## Steps -/

/-- `_teardownEntry`. -/
def Proxy.teardownEntry (a : Proxy) : Proxy :=
  if a.tornDown then a else { a with tornDown := true, stops := a.stops + 1 }

namespace Registry

variable (s : Registry)

def modify (p : ProxyId) (f : Proxy → Proxy) : Registry :=
  { s with proxies := Function.update s.proxies p (f (s.proxies p)) }

/-- `_sessionProxies.delete`: whatever is registered leaves. -/
def delete (sessionId : SessionId) (cause : Cause) : Registry :=
  match s.sessionProxies sessionId with
  | none => s
  | some slot =>
    { s with
      sessionProxies := Function.update s.sessionProxies sessionId none
      proxies := Function.update s.proxies slot.proxy
        { s.proxies slot.proxy with left := some cause } }

/-- The first part of `ensureSessionProxy`, up to its await. -/
def ensureSessionProxy (sessionId : SessionId) : Registry :=
  if s.quarantinedSessions sessionId then s
  else
    match s.sessionProxies sessionId with
    | some slot =>
      { s with served := s.served ++ [⟨slot.proxy, (s.proxies slot.proxy).tripped⟩] }
    | none =>
      { s with
        next := s.next + 1
        proxies := Function.update s.proxies s.next { sessionId }
        sessionProxies := Function.update s.sessionProxies sessionId (some (.promise s.next)) }

/-- `start` resolves: the rest of `_createSessionProxy`, of `ensureSessionProxy` and of a reap. -/
def started (p : ProxyId) : Registry :=
  let sessionId := (s.proxies p).sessionId
  let s := s.modify p fun a => { a with phase := .started }
  let s :=
    if s.sessionProxies sessionId = some (.promise p) then
      { s with sessionProxies := Function.update s.sessionProxies sessionId (some (.entry p)) }
    else s
  if (s.proxies p).chained then s.modify p Proxy.teardownEntry else s

/-- `start` rejects: the `catch` of `ensureSessionProxy`. -/
def failed (p : ProxyId) : Registry :=
  (s.modify p fun a => { a with phase := .failed }).delete (s.proxies p).sessionId .creationFailed

/-- `reapSessionProxy`. -/
def reapSessionProxy (sessionId : SessionId) : Registry :=
  match s.sessionProxies sessionId with
  | none => s
  | some (.promise p) =>
    (s.delete sessionId .reaped).modify p fun a => { a with chained := true }
  | some (.entry p) => (s.delete sessionId .reaped).modify p Proxy.teardownEntry

/-- The circuit breaker. -/
def logTrip (sessionId : SessionId) (now : Nat) : Registry :=
  let pushed := s.boundaryTripLog sessionId ++ [now]
  let tripLog := pushed.drop (pushed.length - CIRCUIT_BREAKER_TRIP_THRESHOLD)
  let shouldQuarantine := CIRCUIT_BREAKER_TRIP_THRESHOLD ≤ tripLog.length ∧
    now - tripLog.headD 0 ≤ CIRCUIT_BREAKER_WINDOW_MS
  { s with
    boundaryTripLog := Function.update s.boundaryTripLog sessionId
      (if shouldQuarantine then [] else tripLog)
    quarantinedSessions := Function.update s.quarantinedSessions sessionId
      (s.quarantinedSessions sessionId || decide shouldQuarantine) }

/-- The pipeline stops itself and calls `onFatalError`. -/
def onFatalError (p : ProxyId) (now : Nat) : Registry :=
  let sessionId := (s.proxies p).sessionId
  let after := s.modify p fun a => { a with tripped := true, boundaryTripInFlight := true }
  if (s.proxies p).boundaryTripInFlight then after
  else if s.sessionProxies sessionId ≠ some (.entry p) then after
  else
    -- `tornDown` is set before `_teardownEntry` is called
    (((after.logTrip sessionId now).modify p fun a => { a with tornDown := true }).delete
      sessionId .boundaryTrip).modify p Proxy.teardownEntry

/-- `onHostDeath`. -/
def onHostDeath (p : ProxyId) : Registry :=
  let sessionId := (s.proxies p).sessionId
  if (s.proxies p).tornDown then s
  else
    let s := s.modify p fun a => { a with tornDown := true }
    if s.sessionProxies sessionId = some (.entry p) then
      { s.delete sessionId .hostDeath with crashes := s.crashes ++ [p] }
    else s

def clearQuarantine (sessionId : SessionId) : Registry :=
  { s with
    quarantinedSessions := Function.update s.quarantinedSessions sessionId false
    boundaryTripLog := Function.update s.boundaryTripLog sessionId [] }

end Registry

inductive Event
  | ensureSessionProxy (sessionId : SessionId)
  | started (p : ProxyId)
  | failed (p : ProxyId)
  | reapSessionProxy (sessionId : SessionId)
  | fatalError (p : ProxyId) (now : Nat)
  /-- The tmux host of a started proxy exits, or has an error. -/
  | hostDeath (p : ProxyId)
  | clearQuarantine (sessionId : SessionId)
deriving DecidableEq, Repr

def step (s : Registry) : Event → Option Registry
  | .ensureSessionProxy sessionId => some (s.ensureSessionProxy sessionId)
  | .started p =>
    if p < s.next ∧ (s.proxies p).phase = .starting then some (s.started p) else none
  | .failed p =>
    if p < s.next ∧ (s.proxies p).phase = .starting then some (s.failed p) else none
  | .reapSessionProxy sessionId => some (s.reapSessionProxy sessionId)
  | .fatalError p now => if p < s.next then some (s.onFatalError p now) else none
  | .hostDeath p =>
    if p < s.next ∧ (s.proxies p).phase = .started then
      some { s.onHostDeath p with
        deaths :=
          if s.sessionProxies (s.proxies p).sessionId = some (.entry p) then s.deaths ++ [p]
          else s.deaths }
    else none
  | .clearQuarantine sessionId => some (s.clearQuarantine sessionId)

/-! ## A registry in order -/

/-- The phase that a registered proxy is in. -/
def Slot.phase : Slot → Phase
  | .promise _ => .starting
  | .entry _ => .started

/-- The registry in a state: `single` says that two proxies of one id are not there at a time,
so that ensures share a creation. -/
structure Sound (s : Registry) : Prop where
  registered : ∀ sessionId slot, s.sessionProxies sessionId = some slot →
    (s.proxies slot.proxy).sessionId = sessionId ∧ (s.proxies slot.proxy).phase = slot.phase ∧
      (s.proxies slot.proxy).tornDown = false ∧ (s.proxies slot.proxy).tripped = false
  single : ∀ p q, p < s.next → q < s.next → (s.proxies p).sessionId = (s.proxies q).sessionId →
    (s.proxies p).left = none → (s.proxies q).left = none → p = q
  newer : ∀ p, p < s.next → (s.proxies p).left = some .creationFailed →
    (s.proxies p).phase = .failed
  stopped : ∀ p cause, p < s.next → (s.proxies p).phase = .started →
    (s.proxies p).left = some cause → cause ≠ .hostDeath → (s.proxies p).stops = 1
  served : ∀ given ∈ s.served, given.tripped = false
  crashes : s.crashes = s.deaths ∧ s.crashes.Nodup ∧
    ∀ p ∈ s.crashes, (s.proxies p).left = some .hostDeath

/-- No pipeline trips while its proxy is registered, and no creation fails while another
registration has taken its place. -/
def Guarded (s : Registry) : Event → Prop
  | .fatalError p _ => ∀ slot ∈ s.sessionProxies (s.proxies p).sessionId, slot.proxy ≠ p
  | .failed p => p < s.next → (s.proxies p).phase = .starting →
      ∀ slot ∈ s.sessionProxies (s.proxies p).sessionId, slot = .promise p
  | _ => True

/-! ## The life of a proxy -/

/-- What becomes of a proxy, and where it is registered. -/
inductive Life (p : ProxyId) (a : Proxy) : Option Slot → Prop
  | creating (hphase : a.phase = .starting) (hleft : a.left = none) (hchained : a.chained = false)
      (hup : a.tornDown = false) (hstops : a.stops = 0) (hflag : a.boundaryTripInFlight = false)
      (htripped : a.tripped = false) : Life p a (some (.promise p))
  | cancelled (hphase : a.phase = .starting) (hleft : a.left = some .reaped)
      (hchained : a.chained = true) (hup : a.tornDown = false) (hstops : a.stops = 0) :
      Life p a none
  | running (hphase : a.phase = .started) (hleft : a.left = none) (hup : a.tornDown = false)
      (hstops : a.stops = 0) (hflag : a.boundaryTripInFlight = false)
      (htripped : a.tripped = false) : Life p a (some (.entry p))
  | stopped (hphase : a.phase = .started) (hleft : a.left = some .reaped)
      (hdown : a.tornDown = true) (hstops : a.stops = 1) : Life p a none
  | dead (hphase : a.phase = .started) (hleft : a.left = some .hostDeath)
      (hdown : a.tornDown = true) : Life p a none
  | failed (hphase : a.phase = .failed) (hleft : a.left ≠ none) : Life p a none

/-- The registration of a proxy. -/
def Registry.slotOf (s : Registry) (p : ProxyId) : Option Slot :=
  (s.sessionProxies (s.proxies p).sessionId).filter fun slot => slot.proxy = p

/-- The invariant: every proxy lives, what is registered was created for its id, and the crash
handler was called for those that the death of their host has taken out. -/
structure Supervised (s : Registry) : Prop where
  life : ∀ p, p < s.next → Life p (s.proxies p) (s.slotOf p)
  owned : ∀ sessionId slot, s.sessionProxies sessionId = some slot →
    slot.proxy < s.next ∧ (s.proxies slot.proxy).sessionId = sessionId
  served : ∀ given ∈ s.served, given.tripped = false
  crashes : s.crashes = s.deaths
  nodup : s.crashes.Nodup
  died : ∀ p ∈ s.crashes, p < s.next ∧ (s.proxies p).left = some .hostDeath

section Lives
variable {s : Registry}

theorem slotOf_eq {sessionId : SessionId} {slot : Slot}
    (hslot : s.sessionProxies sessionId = some slot)
    (hid : (s.proxies slot.proxy).sessionId = sessionId) : s.slotOf slot.proxy = some slot := by
  rw [Registry.slotOf, hid, hslot]
  exact Option.filter_some_pos (by simp)

theorem registered_of_slotOf {p : ProxyId} {slot : Slot} (h : s.slotOf p = some slot) :
    s.sessionProxies (s.proxies p).sessionId = some slot ∧ slot.proxy = p := by
  obtain ⟨hslot, hproxy⟩ := Option.filter_eq_some_iff.mp h
  exact ⟨hslot, by simpa using hproxy⟩

/-- What is registered has not left, and is what its slot says. -/
theorem Supervised.registered (h : Supervised s) {sessionId : SessionId} {slot : Slot}
    (hslot : s.sessionProxies sessionId = some slot) :
    (s.proxies slot.proxy).sessionId = sessionId ∧ slot.proxy < s.next ∧
      Life slot.proxy (s.proxies slot.proxy) (some slot) := by
  obtain ⟨hlt, hid⟩ := h.owned sessionId slot hslot
  have hlife := h.life slot.proxy hlt
  rw [slotOf_eq hslot hid] at hlife
  exact ⟨hid, hlt, hlife⟩

/-- A proxy that has not left is registered. -/
theorem Supervised.slotOf_of_left (h : Supervised s) {p : ProxyId} (hp : p < s.next)
    (hleft : (s.proxies p).left = none) :
    ∃ slot, s.sessionProxies (s.proxies p).sessionId = some slot ∧ slot.proxy = p := by
  have hlife := h.life p hp
  generalize hslot : s.slotOf p = slot at hlife
  cases hlife with
  | creating _ _ _ _ _ _ _ => exact ⟨_, registered_of_slotOf hslot⟩
  | running _ _ _ _ _ _ => exact ⟨_, registered_of_slotOf hslot⟩
  | cancelled _ hreaped _ _ _ => rw [hleft] at hreaped; cases hreaped
  | stopped _ hreaped _ _ => rw [hleft] at hreaped; cases hreaped
  | dead _ hdead _ => rw [hleft] at hdead; cases hdead
  | failed _ hgone => exact absurd hleft hgone

theorem Supervised.sound (h : Supervised s) : Sound s := by
  refine ⟨fun sessionId slot hslot => ?_, fun p q hp hq hid hp' hq' => ?_,
    fun p hp hleft => ?_, fun p cause hp hphase hleft hcause => ?_, h.served,
    h.crashes, h.nodup, fun p hp => (h.died p hp).2⟩
  · obtain ⟨hid, -, hlife⟩ := h.registered hslot
    refine ⟨hid, ?_⟩
    cases slot with
    | promise p =>
      cases hlife with
      | creating hphase _ _ hup _ _ htripped => exact ⟨hphase, hup, htripped⟩
    | entry p =>
      cases hlife with
      | running hphase _ hup _ _ htripped => exact ⟨hphase, hup, htripped⟩
  · obtain ⟨slot, hslot, rfl⟩ := h.slotOf_of_left hp hp'
    obtain ⟨other, hother, rfl⟩ := h.slotOf_of_left hq hq'
    rw [← hid, hslot] at hother
    rw [Option.some.inj hother]
  · have hlife := h.life p hp
    generalize s.slotOf p = slot at hlife
    cases hlife with
    | failed hphase _ => exact hphase
    | creating _ hnone _ _ _ _ _ => rw [hleft] at hnone; cases hnone
    | running _ hnone _ _ _ _ => rw [hleft] at hnone; cases hnone
    | cancelled _ hreaped _ _ _ => rw [hleft] at hreaped; cases hreaped
    | stopped _ hreaped _ _ => rw [hleft] at hreaped; cases hreaped
    | dead _ hdead _ => rw [hleft] at hdead; cases hdead
  · have hlife := h.life p hp
    generalize s.slotOf p = slot at hlife
    cases hlife with
    | stopped _ _ _ hstops => exact hstops
    | running _ hnone _ _ _ _ => rw [hleft] at hnone; cases hnone
    | dead _ hdead _ => rw [hleft] at hdead; cases hdead; exact absurd rfl hcause
    | creating hstarting _ _ _ _ _ _ => rw [hphase] at hstarting; cases hstarting
    | cancelled hstarting _ _ _ _ => rw [hphase] at hstarting; cases hstarting
    | failed hfailed _ => rw [hphase] at hfailed; cases hfailed

theorem Supervised.new : Supervised new :=
  ⟨nofun, nofun, nofun, rfl, List.nodup_nil, nofun⟩

/-- A step that changes one proxy, and only its own registration. -/
theorem Supervised.touch (h : Supervised s) (s' : Registry) {p : ProxyId}
    (hnext : s'.next = s.next ∧ p < s.next ∨ s'.next = s.next + 1 ∧ p = s.next)
    (hid : p < s.next → (s'.proxies p).sessionId = (s.proxies p).sessionId)
    (hproxies : ∀ q, q ≠ p → s'.proxies q = s.proxies q)
    (hothers : ∀ sessionId, sessionId ≠ (s'.proxies p).sessionId →
      s'.sessionProxies sessionId = s.sessionProxies sessionId)
    (hown : s'.sessionProxies (s'.proxies p).sessionId =
        s.sessionProxies (s'.proxies p).sessionId ∨
      (∀ slot ∈ s.sessionProxies (s'.proxies p).sessionId, slot.proxy = p) ∧
        ∀ slot ∈ s'.sessionProxies (s'.proxies p).sessionId, slot.proxy = p)
    (hlife : Life p (s'.proxies p) (s'.slotOf p)) :
    (∀ q, q < s'.next → Life q (s'.proxies q) (s'.slotOf q)) ∧
      ∀ sessionId slot, s'.sessionProxies sessionId = some slot →
        slot.proxy < s'.next ∧ (s'.proxies slot.proxy).sessionId = sessionId := by
  have hle : s.next ≤ s'.next := by
    rcases hnext with ⟨hsame, -⟩ | ⟨hmore, -⟩
    · exact Nat.le_of_eq hsame.symm
    · exact Nat.le_of_lt (hmore ▸ Nat.lt_succ_self _)
  have hlt : p < s'.next := by
    rcases hnext with ⟨hsame, hp⟩ | ⟨hmore, rfl⟩
    · exact Nat.lt_of_lt_of_le hp hle
    · exact hmore ▸ Nat.lt_succ_self _
  constructor
  · intro q hq
    by_cases hqp : q = p
    · rw [hqp]
      exact hlife
    · have hold : q < s.next := by
        rcases hnext with ⟨hsame, -⟩ | ⟨hmore, rfl⟩
        · exact hsame ▸ hq
        · rw [hmore] at hq
          exact Nat.lt_of_le_of_ne (Nat.le_of_lt_succ hq) hqp
      have hslot : s'.slotOf q = s.slotOf q := by
        unfold Registry.slotOf
        rw [hproxies q hqp]
        by_cases hsid : (s.proxies q).sessionId = (s'.proxies p).sessionId
        · rw [hsid]
          rcases hown with hsame | ⟨hbefore, hafter⟩
          · rw [hsame]
          · -- neither registration is of the other proxy
            rw [Option.filter_eq_none_iff.mpr, Option.filter_eq_none_iff.mpr]
            · intro slot hmem hq'
              exact hqp ((of_decide_eq_true hq').symm.trans (hbefore slot hmem))
            · intro slot hmem hq'
              exact hqp ((of_decide_eq_true hq').symm.trans (hafter slot hmem))
        · rw [hothers _ hsid]
      rw [hproxies q hqp, hslot]
      exact h.life q hold
  · intro sessionId slot hslot
    have hother : s.sessionProxies sessionId = some slot → slot.proxy < s'.next ∧
        (s'.proxies slot.proxy).sessionId = sessionId := by
      intro hsame
      obtain ⟨hold, hids⟩ := h.owned sessionId slot hsame
      refine ⟨Nat.lt_of_lt_of_le hold hle, ?_⟩
      by_cases hqp : slot.proxy = p
      · rw [hqp] at hold hids ⊢
        rw [hid hold, hids]
      · rw [hproxies _ hqp, hids]
    by_cases hsid : sessionId = (s'.proxies p).sessionId
    · subst hsid
      rcases hown with hsame | ⟨-, hafter⟩
      · exact hother (hsame.symm.trans hslot)
      · have hslotp := hafter slot hslot
        rw [hslotp]
        exact ⟨hlt, rfl⟩
    · rw [hothers _ hsid] at hslot
      exact hother hslot

/-- A proxy and its registration are written. -/
def Registry.put (s : Registry) (p : ProxyId) (a : Proxy) (slot : Option Slot) : Registry :=
  { s with
    proxies := Function.update s.proxies p a
    sessionProxies := Function.update s.sessionProxies a.sessionId slot }

theorem Supervised.put {p : ProxyId} {a : Proxy} {slot : Option Slot} (h : Supervised s)
    (hp : p < s.next) (hid : a.sessionId = (s.proxies p).sessionId)
    (hown : slot = s.sessionProxies a.sessionId ∨
      (∀ slot ∈ s.sessionProxies a.sessionId, slot.proxy = p) ∧ ∀ other ∈ slot, other.proxy = p)
    (hlife : Life p a (slot.filter fun slot => slot.proxy = p))
    (hdied : (s.proxies p).left = some .hostDeath → a.left = some .hostDeath) :
    Supervised (s.put p a slot) := by
  have hself : (s.put p a slot).proxies p = a := Function.update_self ..
  have hslot : (s.put p a slot).sessionProxies a.sessionId = slot := Function.update_self ..
  obtain ⟨hlives, howned⟩ := h.touch (s.put p a slot) (.inl ⟨rfl, hp⟩)
    (fun _ => by rw [hself, hid]) (fun q hq => Function.update_of_ne hq ..)
    (fun sessionId hsid => by rw [hself] at hsid; exact Function.update_of_ne hsid ..)
    (by rw [hself, hslot]; exact hown) (by
      unfold Registry.slotOf
      rw [hself, hslot]
      exact hlife)
  refine ⟨hlives, howned, h.served, h.crashes, h.nodup, fun q hq => ⟨(h.died q hq).1, ?_⟩⟩
  by_cases hqp : q = p
  · subst hqp
    rw [hself]
    exact hdied (h.died q hq).2
  · exact (congrArg Proxy.left (Function.update_of_ne hqp ..)).trans (h.died q hq).2

end Lives

/-! ## What the operations write -/

section Operations
variable {s : Registry} {p : ProxyId}

theorem modify_eq {f : Proxy → Proxy}
    (hid : (f (s.proxies p)).sessionId = (s.proxies p).sessionId) :
    s.modify p f = s.put p (f (s.proxies p)) (s.sessionProxies (s.proxies p).sessionId) := by
  unfold Registry.modify Registry.put
  rw [hid, Function.update_eq_self]

theorem delete_eq {sessionId : SessionId} {slot : Slot}
    (hslot : s.sessionProxies sessionId = some slot)
    (hid : (s.proxies slot.proxy).sessionId = sessionId) (cause : Cause) :
    s.delete sessionId cause =
      s.put slot.proxy { s.proxies slot.proxy with left := some cause } none := by
  unfold Registry.delete Registry.put
  rw [hslot, hid]

theorem put_modify (a : Proxy) (slot : Option Slot) (f : Proxy → Proxy)
    (hid : (f a).sessionId = a.sessionId) : (s.put p a slot).modify p f = s.put p (f a) slot := by
  unfold Registry.put Registry.modify
  simp only [Function.update_self, Function.update_idem, hid]

theorem put_delete (a : Proxy) (slot : Slot) (hslot : slot.proxy = p) (cause : Cause) :
    (s.put p a (some slot)).delete a.sessionId cause =
      s.put p { a with left := some cause } none := by
  unfold Registry.put Registry.delete
  simp only [Function.update_self, hslot, Function.update_idem]

theorem sessionId_teardownEntry (a : Proxy) : a.teardownEntry.sessionId = a.sessionId := by
  unfold Proxy.teardownEntry
  split <;> rfl

theorem started_registered
    (hslot : s.sessionProxies (s.proxies p).sessionId = some (.promise p))
    (hchained : (s.proxies p).chained = false) :
    s.started p = s.put p { s.proxies p with phase := .started } (some (.entry p)) := by
  unfold Registry.started
  dsimp only
  rw [modify_eq rfl, hslot]
  simp [Registry.put, hchained]

theorem started_chained (hslot : s.sessionProxies (s.proxies p).sessionId ≠ some (.promise p))
    (hchained : (s.proxies p).chained = true) :
    s.started p = s.put p ({ s.proxies p with phase := .started } : Proxy).teardownEntry
      (s.sessionProxies (s.proxies p).sessionId) := by
  unfold Registry.started
  have hother : ¬(s.modify p fun a => { a with phase := .started }).sessionProxies
      (s.proxies p).sessionId = some (.promise p) := hslot
  dsimp only
  rw [if_neg hother, if_pos (by simpa [Registry.modify] using hchained)]
  have hfirst : s.modify p (fun a => { a with phase := .started }) = _ := modify_eq rfl
  rw [hfirst]
  exact put_modify { s.proxies p with phase := .started } _ _ (sessionId_teardownEntry _)

theorem failed_registered
    (hslot : s.sessionProxies (s.proxies p).sessionId = some (.promise p)) :
    s.failed p =
      s.put p { s.proxies p with phase := .failed, left := some .creationFailed } none := by
  unfold Registry.failed
  rw [modify_eq rfl, hslot]
  exact put_delete { s.proxies p with phase := .failed } (.promise p) rfl .creationFailed

theorem failed_alone (hslot : s.sessionProxies (s.proxies p).sessionId = none) :
    s.failed p = s.put p { s.proxies p with phase := .failed } none := by
  unfold Registry.failed
  rw [modify_eq rfl, hslot]
  simp [Registry.delete, Registry.put]

theorem reap_promise {sessionId : SessionId}
    (hslot : s.sessionProxies sessionId = some (.promise p))
    (hid : (s.proxies p).sessionId = sessionId) :
    s.reapSessionProxy sessionId =
      s.put p { s.proxies p with left := some .reaped, chained := true } none := by
  unfold Registry.reapSessionProxy
  rw [hslot]
  dsimp only
  rw [delete_eq hslot hid]
  exact put_modify { s.proxies p with left := some .reaped } none _ rfl

theorem reap_entry {sessionId : SessionId} (hslot : s.sessionProxies sessionId = some (.entry p))
    (hid : (s.proxies p).sessionId = sessionId) :
    s.reapSessionProxy sessionId =
      s.put p ({ s.proxies p with left := some .reaped } : Proxy).teardownEntry none := by
  unfold Registry.reapSessionProxy
  rw [hslot]
  dsimp only
  rw [delete_eq hslot hid]
  exact put_modify { s.proxies p with left := some .reaped } none _
    (sessionId_teardownEntry _)

/-- The pipeline of a proxy whose entry is not registered trips. -/
theorem onFatalError_stale (now : Nat)
    (hentry : s.sessionProxies (s.proxies p).sessionId ≠ some (.entry p)) :
    s.onFatalError p now =
      s.put p { s.proxies p with tripped := true, boundaryTripInFlight := true }
        (s.sessionProxies (s.proxies p).sessionId) := by
  unfold Registry.onFatalError
  dsimp only
  rw [if_pos hentry, ite_self]
  exact modify_eq rfl

theorem onHostDeath_registered
    (hslot : s.sessionProxies (s.proxies p).sessionId = some (.entry p))
    (hup : (s.proxies p).tornDown = false) :
    s.onHostDeath p =
      { s.put p { s.proxies p with tornDown := true, left := some .hostDeath } none with
        crashes := s.crashes ++ [p] } := by
  unfold Registry.onHostDeath
  have hsame : (s.modify p fun a => { a with tornDown := true }).sessionProxies
      (s.proxies p).sessionId = some (.entry p) := hslot
  have hfirst : s.modify p (fun a => { a with tornDown := true }) =
      s.put p { s.proxies p with tornDown := true } (some (.entry p)) := by
    rw [← hslot]
    exact modify_eq rfl
  have hdelete : (s.put p { s.proxies p with tornDown := true } (some (.entry p))).delete
      (s.proxies p).sessionId .hostDeath =
        s.put p { s.proxies p with tornDown := true, left := some .hostDeath } none :=
    put_delete { s.proxies p with tornDown := true } (.entry p) rfl .hostDeath
  dsimp only
  rw [if_neg (by simp [hup]), if_pos hsame, hfirst, hdelete]
  rfl

end Operations

/-! ## Steps -/

section Steps
variable {s s' : Registry} {event : Event}

/-- A creation that is about to end: it is registered, or was reaped. -/
theorem Supervised.starting (h : Supervised s) {p : ProxyId} (hp : p < s.next)
    (hphase : (s.proxies p).phase = .starting) :
    s.sessionProxies (s.proxies p).sessionId = some (.promise p) ∧
        Life p (s.proxies p) (some (.promise p)) ∨
      (∀ slot ∈ s.sessionProxies (s.proxies p).sessionId, slot.proxy ≠ p) ∧
        (s.proxies p).left = some .reaped ∧ (s.proxies p).chained = true ∧
        (s.proxies p).tornDown = false ∧ (s.proxies p).stops = 0 := by
  have hlife := h.life p hp
  generalize hslot : s.slotOf p = slot at hlife
  have hother : slot = none → ∀ slot ∈ s.sessionProxies (s.proxies p).sessionId,
      slot.proxy ≠ p := by
    rintro rfl slot hmem hproxy
    exact Option.filter_eq_none_iff.mp hslot slot hmem (by simpa using hproxy)
  cases hlife with
  | creating hphase hleft hchained hup hstops hflag htripped =>
    exact .inl ⟨(registered_of_slotOf hslot).1,
      .creating hphase hleft hchained hup hstops hflag htripped⟩
  | cancelled _ hleft hchained hup hstops => exact .inr ⟨hother rfl, hleft, hchained, hup, hstops⟩
  | running hstarted _ _ _ _ _ => rw [hphase] at hstarted; cases hstarted
  | stopped hstarted _ _ _ => rw [hphase] at hstarted; cases hstarted
  | dead hstarted _ _ => rw [hphase] at hstarted; cases hstarted
  | failed hfailed _ => rw [hphase] at hfailed; cases hfailed

/-- The registration of a proxy is the only one of its id. -/
theorem only_proxy {p : ProxyId} {sessionId : SessionId} {slot : Slot}
    (hslot : s.sessionProxies sessionId = some slot) (hproxy : slot.proxy = p) :
    ∀ other ∈ s.sessionProxies sessionId, other.proxy = p := by
  intro other hother
  rw [hslot] at hother
  cases hother
  exact hproxy

theorem Supervised.ensure (h : Supervised s) (sessionId : SessionId) :
    Supervised (s.ensureSessionProxy sessionId) := by
  unfold Registry.ensureSessionProxy
  split
  · exact h
  · split
    · next slot hslot =>
      refine { h with served := fun given hgiven => ?_ }
      rcases List.mem_append.mp hgiven with hold | hnew
      · exact h.served given hold
      · rw [List.mem_singleton.mp hnew]
        exact (h.sound.registered sessionId slot hslot).2.2.2
    · next hnone =>
      have hself : Function.update s.proxies s.next { sessionId } s.next = { sessionId } :=
        Function.update_self ..
      have hslot : Function.update s.sessionProxies sessionId (some (.promise s.next)) sessionId =
          some (.promise s.next) := Function.update_self ..
      obtain ⟨hlives, howned⟩ := h.touch
        { s with
          next := s.next + 1
          proxies := Function.update s.proxies s.next { sessionId }
          sessionProxies := Function.update s.sessionProxies sessionId (some (.promise s.next)) }
        (.inr ⟨rfl, rfl⟩) (fun hlt => absurd hlt (Nat.lt_irrefl _))
        (fun q hq => Function.update_of_ne hq ..)
        (fun other hother => by
          dsimp only at hother
          rw [hself] at hother
          exact Function.update_of_ne hother ..)
        (by
          dsimp only
          rw [hself]
          refine .inr ⟨fun slot hmem => ?_, fun slot hmem => ?_⟩
          · rw [hnone] at hmem
            cases hmem
          · rw [hslot] at hmem
            cases hmem
            rfl)
        (by
          unfold Registry.slotOf
          dsimp only
          rw [hself, hslot, Option.filter_some_pos (by simp [Slot.proxy])]
          exact .creating rfl rfl rfl rfl rfl rfl rfl)
      refine ⟨hlives, howned, h.served, h.crashes, h.nodup, fun q hq => ?_⟩
      obtain ⟨hlt, hleft⟩ := h.died q hq
      exact ⟨Nat.lt_succ_of_lt hlt,
        (congrArg Proxy.left (Function.update_of_ne (Nat.ne_of_lt hlt) ..)).trans hleft⟩

theorem Supervised.started (h : Supervised s) {p : ProxyId} (hp : p < s.next)
    (hphase : (s.proxies p).phase = .starting) : Supervised (s.started p) := by
  rcases h.starting hp hphase with ⟨hslot, hlife⟩ | ⟨hother, hleft, hchained, hup, hstops⟩
  · cases hlife with
    | creating _ hleft hchained hup hstops hflag htripped =>
      rw [started_registered hslot hchained]
      refine h.put hp rfl (.inr ⟨only_proxy hslot rfl, fun other hmem => ?_⟩) ?_ fun hdied => ?_
      · cases hmem
        rfl
      · rw [Option.filter_some_pos (by simp [Slot.proxy])]
        exact .running rfl hleft hup hstops hflag htripped
      · rw [hleft] at hdied
        cases hdied
  · rw [started_chained (fun hslot => hother _ hslot rfl) hchained]
    have hteardown : ({ s.proxies p with phase := .started } : Proxy).teardownEntry =
        { s.proxies p with phase := .started, tornDown := true, stops := 1 } := by
      simp [Proxy.teardownEntry, hup, hstops]
    rw [hteardown]
    refine h.put hp rfl (.inl rfl) ?_ fun hdied => ?_
    · rw [Option.filter_eq_none_iff.mpr fun slot hmem => by simpa using hother slot hmem]
      exact .stopped rfl hleft rfl rfl
    · rw [hleft] at hdied
      cases hdied

theorem Supervised.failed (h : Supervised s) {p : ProxyId} (hp : p < s.next)
    (hphase : (s.proxies p).phase = .starting)
    (hguarded : ∀ slot ∈ s.sessionProxies (s.proxies p).sessionId, slot = .promise p) :
    Supervised (s.failed p) := by
  rcases h.starting hp hphase with ⟨hslot, hlife⟩ | ⟨hother, hleft, -, -, -⟩
  · cases hlife with
    | creating _ hleft _ _ _ _ _ =>
      rw [failed_registered hslot]
      refine h.put hp rfl (.inr ⟨only_proxy hslot rfl, nofun⟩) (.failed rfl nofun) fun hdied => ?_
      rw [hleft] at hdied
      cases hdied
  · -- nothing is registered: only its own promise might be
    have hnone : s.sessionProxies (s.proxies p).sessionId = none := by
      refine Option.eq_none_iff_forall_not_mem.mpr fun slot hmem => hother slot hmem ?_
      rw [hguarded slot hmem]
      rfl
    rw [failed_alone hnone]
    refine h.put hp rfl (.inl hnone.symm) (.failed rfl ?_) fun hdied => hdied
    show (s.proxies p).left ≠ none
    rw [hleft]
    exact nofun

theorem Supervised.reap (h : Supervised s) (sessionId : SessionId) :
    Supervised (s.reapSessionProxy sessionId) := by
  cases hslot : s.sessionProxies sessionId with
  | none =>
    unfold Registry.reapSessionProxy
    rw [hslot]
    exact h
  | some slot =>
    obtain ⟨hid, hp, hlife⟩ := h.registered hslot
    cases slot with
    | promise p =>
      cases hlife with
      | creating hphase hleft hchained hup hstops hflag htripped =>
        rw [reap_promise hslot hid]
        refine h.put hp rfl (.inr ⟨?_, nofun⟩) (.cancelled hphase rfl rfl hup hstops) fun hdied =>
          ?_
        · show ∀ slot ∈ s.sessionProxies (s.proxies p).sessionId, slot.proxy = p
          exact only_proxy (hid.symm ▸ hslot) rfl
        · exact absurd (hleft.symm.trans hdied) nofun
    | entry p =>
      cases hlife with
      | running hphase hleft hup hstops hflag htripped =>
        rw [reap_entry hslot hid]
        have hteardown : ({ s.proxies p with left := some .reaped } : Proxy).teardownEntry =
            { s.proxies p with left := some .reaped, tornDown := true, stops := 1 } := by
          simp only [Slot.proxy] at hup hstops
          simp [Proxy.teardownEntry, hup, hstops]
        rw [hteardown]
        refine h.put hp rfl (.inr ⟨?_, nofun⟩) (.stopped hphase rfl rfl rfl) fun hdied => ?_
        · show ∀ slot ∈ s.sessionProxies (s.proxies p).sessionId, slot.proxy = p
          exact only_proxy (hid.symm ▸ hslot) rfl
        · exact absurd (hleft.symm.trans hdied) nofun

/-- The pipeline of a proxy that is not registered trips. -/
theorem Supervised.fatalError (h : Supervised s) {p : ProxyId} (hp : p < s.next) (now : Nat)
    (hguarded : ∀ slot ∈ s.sessionProxies (s.proxies p).sessionId, slot.proxy ≠ p) :
    Supervised (s.onFatalError p now) := by
  have hnone : s.slotOf p = none :=
    Option.filter_eq_none_iff.mpr fun slot hmem => by simpa using hguarded slot hmem
  have hlife := h.life p hp
  rw [onFatalError_stale now fun hentry => hguarded _ hentry rfl]
  refine h.put hp rfl (.inl rfl) ?_ fun hdied => hdied
  show Life p _ (s.slotOf p)
  rw [hnone] at hlife ⊢
  cases hlife with
  | cancelled hphase hleft hchained hup hstops => exact .cancelled hphase hleft hchained hup hstops
  | stopped hphase hleft hdown hstops => exact .stopped hphase hleft hdown hstops
  | dead hphase hleft hdown => exact .dead hphase hleft hdown
  | failed hphase hleft => exact .failed hphase hleft

theorem Supervised.hostDeath (h : Supervised s) {p : ProxyId} (hp : p < s.next)
    (hphase : (s.proxies p).phase = .started) :
    Supervised { s.onHostDeath p with
      deaths :=
        if s.sessionProxies (s.proxies p).sessionId = some (.entry p) then s.deaths ++ [p]
        else s.deaths } := by
  have hlife := h.life p hp
  generalize hslot : s.slotOf p = slot at hlife
  have hdown : slot = none → (s.proxies p).tornDown = true → Supervised { s.onHostDeath p with
      deaths :=
        if s.sessionProxies (s.proxies p).sessionId = some (.entry p) then s.deaths ++ [p]
        else s.deaths } := by
    rintro rfl htorn
    have hentry : s.sessionProxies (s.proxies p).sessionId ≠ some (.entry p) := by
      intro hentry
      exact absurd ((slotOf_eq hentry rfl).symm.trans hslot) nofun
    unfold Registry.onHostDeath
    rw [if_pos htorn, if_neg hentry]
    exact h
  cases hlife with
  | running _ hleft hup hstops hflag htripped =>
    have hentry := (registered_of_slotOf hslot).1
    rw [onHostDeath_registered hentry hup, if_pos hentry]
    have hput : Supervised
        (s.put p { s.proxies p with tornDown := true, left := some .hostDeath } none) :=
      h.put hp rfl (.inr ⟨only_proxy hentry rfl, nofun⟩) (.dead hphase rfl rfl) fun _ => rfl
    have hfresh : p ∉ s.crashes := by
      intro hmem
      have hdied := (h.died p hmem).2
      rw [hleft] at hdied
      cases hdied
    refine ⟨hput.life, hput.owned, hput.served, ?_, ?_, fun q hq => ?_⟩
    · show s.crashes ++ [p] = s.deaths ++ [p]
      rw [h.crashes]
    · exact List.nodup_append.mpr ⟨h.nodup, by simp, fun a ha b hb hab =>
        hfresh (by rw [← List.mem_singleton.mp hb, ← hab]; exact ha)⟩
    · rcases List.mem_append.mp hq with hold | hnew
      · exact hput.died q hold
      · rw [List.mem_singleton.mp hnew]
        have hself : (s.put p { s.proxies p with tornDown := true, left := some .hostDeath }
            none).proxies p = _ := Function.update_self ..
        exact ⟨hp, congrArg Proxy.left hself⟩
  | stopped _ _ htorn _ => exact hdown rfl htorn
  | dead _ _ htorn => exact hdown rfl htorn
  | creating hstarting _ _ _ _ _ _ => rw [hphase] at hstarting; cases hstarting
  | cancelled hstarting _ _ _ _ => rw [hphase] at hstarting; cases hstarting
  | failed hfailed _ => rw [hphase] at hfailed; cases hfailed

/-- A step that meets the condition keeps the invariant. -/
theorem Supervised.step (h : Supervised s) (hguarded : Guarded s event)
    (hstep : Supervisor.step s event = some s') : Supervised s' := by
  cases event with
  | ensureSessionProxy sessionId =>
    cases hstep
    exact h.ensure sessionId
  | started p =>
    obtain ⟨⟨hp, hphase⟩, hsome⟩ := Option.ite_none_right_eq_some.mp hstep
    cases hsome
    exact h.started hp hphase
  | failed p =>
    obtain ⟨⟨hp, hphase⟩, hsome⟩ := Option.ite_none_right_eq_some.mp hstep
    cases hsome
    exact h.failed hp hphase (hguarded hp hphase)
  | reapSessionProxy sessionId =>
    cases hstep
    exact h.reap sessionId
  | fatalError p now =>
    obtain ⟨hp, hsome⟩ := Option.ite_none_right_eq_some.mp hstep
    cases hsome
    exact h.fatalError hp now hguarded
  | hostDeath p =>
    obtain ⟨⟨hp, hphase⟩, hsome⟩ := Option.ite_none_right_eq_some.mp hstep
    cases hsome
    exact h.hostDeath hp hphase
  | clearQuarantine sessionId =>
    cases hstep
    exact { h with }

/-- The creation that fails takes a newer registration out. -/
theorem violated_failed (h : Supervised s) {p : ProxyId}
    (hphase : (s.proxies p).phase = .starting) {slot : Slot}
    (hslot : s.sessionProxies (s.proxies p).sessionId = some slot) (hother : slot ≠ .promise p) :
    ¬Sound (s.failed p) := by
  obtain ⟨hid, hlt, hlife⟩ := h.registered hslot
  have hne : slot.proxy ≠ p := by
    intro hsame
    cases slot with
    | promise q =>
      cases hsame
      exact hother rfl
    | entry q =>
      cases hsame
      cases hlife with
      | running hstarted _ _ _ _ _ => exact absurd (hphase.symm.trans hstarted) nofun
  have hkept : (s.modify p fun a => { a with phase := .failed }).proxies slot.proxy =
      s.proxies slot.proxy := Function.update_of_ne hne ..
  have hsame : (s.modify p fun a => { a with phase := .failed }).sessionProxies
      (s.proxies p).sessionId = some slot := hslot
  have hafter : (s.failed p).proxies slot.proxy =
      { s.proxies slot.proxy with left := some .creationFailed } := by
    unfold Registry.failed
    rw [delete_eq hsame (by rw [hkept, hid]), hkept]
    exact Function.update_self ..
  have hnext : (s.failed p).next = s.next := by
    unfold Registry.failed
    rw [delete_eq hsame (by rw [hkept, hid])]
    rfl
  intro hsound
  have hfailed := hsound.newer slot.proxy (by rw [hnext]; exact hlt) (by rw [hafter])
  rw [hafter] at hfailed
  have hstill : (s.proxies slot.proxy).phase = slot.phase := (h.sound.registered _ _ hslot).2.1
  rw [hstill] at hfailed
  cases slot <;> cases hfailed

/-- A pipeline trips while its proxy starts: the promise stays. -/
theorem violated_starting {p : ProxyId} (now : Nat)
    (hslot : s.sessionProxies (s.proxies p).sessionId = some (.promise p)) :
    ¬Sound (s.onFatalError p now) := by
  have hafter : s.onFatalError p now =
      s.put p { s.proxies p with tripped := true, boundaryTripInFlight := true }
        (some (.promise p)) := by
    rw [onFatalError_stale now (by rw [hslot]; exact nofun), hslot]
  have hself : (s.onFatalError p now).proxies p =
      { s.proxies p with tripped := true, boundaryTripInFlight := true } := by
    rw [hafter]
    exact Function.update_self ..
  have hstays : (s.onFatalError p now).sessionProxies (s.proxies p).sessionId =
      some (.promise p) := by
    rw [hafter]
    exact Function.update_self ..
  intro hsound
  obtain ⟨-, -, -, htripped⟩ := hsound.registered _ _ hstays
  exact absurd ((congrArg Proxy.tripped hself).symm.trans htripped) nofun

/-- A pipeline trips while its entry is registered: the entry leaves and is not stopped. -/
theorem violated_running (h : Supervised s) {p : ProxyId} (now : Nat)
    (hslot : s.sessionProxies (s.proxies p).sessionId = some (.entry p)) :
    ¬Sound (s.onFatalError p now) := by
  obtain ⟨-, hlt, hlife⟩ := h.registered hslot
  cases hlife with
  | running hphase hleft hup hstops hflag htripped =>
    rw [Slot.proxy.eq_def] at hlt hphase hstops hflag
    dsimp only at hlt hphase hstops hflag
    have hself : (s.onFatalError p now).proxies p =
          { s.proxies p with
            tripped := true, boundaryTripInFlight := true, tornDown := true
            left := some .boundaryTrip } ∧ (s.onFatalError p now).next = s.next := by
      unfold Registry.onFatalError
      dsimp only
      rw [if_neg (by simp [hflag]), if_neg (not_not.mpr hslot)]
      simp [Registry.modify, Registry.logTrip, Registry.delete, hslot, Slot.proxy,
        Proxy.teardownEntry]
    obtain ⟨hself, hnext⟩ := hself
    intro hsound
    have hstopped := hsound.stopped p .boundaryTrip (by rw [hnext]; exact hlt)
      (by rw [hself]; exact hphase) (by rw [hself]) nofun
    rw [hself] at hstopped
    exact absurd (hstops.symm.trans hstopped) nofun

/-- A step that does not meet the condition ends in a state that is not sound. -/
theorem Supervised.violated (h : Supervised s) (hnot : ¬Guarded s event) :
    ∃ s', Supervisor.step s event = some s' ∧ ¬Sound s' := by
  cases event with
  | fatalError p now =>
    obtain ⟨slot, hslot⟩ := not_forall.mp hnot
    obtain ⟨hmem, hproxy⟩ := Classical.not_imp.mp hslot
    have hsame : slot.proxy = p := not_not.mp hproxy
    have hp : p < s.next := hsame ▸ (h.registered hmem).2.1
    refine ⟨_, if_pos hp, ?_⟩
    cases slot with
    | promise q =>
      obtain rfl : q = p := hsame
      exact violated_starting now hmem
    | entry q =>
      obtain rfl : q = p := hsame
      exact violated_running h now hmem
  | failed p =>
    obtain ⟨hp, hrest⟩ := Classical.not_imp.mp hnot
    obtain ⟨hphase, hslots⟩ := Classical.not_imp.mp hrest
    obtain ⟨slot, hslot⟩ := not_forall.mp hslots
    obtain ⟨hmem, hother⟩ := Classical.not_imp.mp hslot
    exact ⟨_, if_pos ⟨hp, hphase⟩, violated_failed h hphase hmem hother⟩
  | ensureSessionProxy _ => exact absurd trivial hnot
  | started _ => exact absurd trivial hnot
  | reapSessionProxy _ => exact absurd trivial hnot
  | hostDeath _ => exact absurd trivial hnot
  | clearQuarantine _ => exact absurd trivial hnot

end Steps

/-- For every interleaving, the registry is sound in all states of a run exactly if no pipeline
trips while its proxy is registered, and no creation fails whose place a newer registration has
taken. -/
theorem supervised_iff (events : List Event) :
    (∀ done s, done <+: events → exec step new done = some s → Sound s) ↔
      Along step Guarded new events :=
  prefixes_iff_along_of (fun _ h => h.sound) (fun _ _ _ h hguarded hstep => h.step hguarded hstep)
    (fun _ _ h hnot => h.violated hnot) Supervised.new

/-- The pipeline of a registered proxy trips: it leaves the registry, and `stop` is not called.
A creation that was reaped fails after a newer one has begun: the newer registration is gone,
its proxy starts, and a later ensure makes another one of the same id. -/
theorem supervisor_leaks :
    (∃ s, exec step new [.ensureSessionProxy ⟨"s1"⟩, .started 0, .fatalError 0 0] = some s ∧
      (s.proxies 0).left = some .boundaryTrip ∧ (s.proxies 0).stops = 0 ∧ ¬Sound s) ∧
    (∃ s, exec step new [.ensureSessionProxy ⟨"s1"⟩, .reapSessionProxy ⟨"s1"⟩,
        .ensureSessionProxy ⟨"s1"⟩, .failed 0, .started 1, .ensureSessionProxy ⟨"s1"⟩,
        .started 2] = some s ∧
      s.sessionProxies ⟨"s1"⟩ = some (.entry 2) ∧ (s.proxies 1).phase = .started ∧
      (s.proxies 1).tornDown = false ∧ ¬Sound s) := by
  refine ⟨⟨_, rfl, rfl, rfl, fun hsound => ?_⟩, ⟨_, rfl, rfl, rfl, rfl, fun hsound => ?_⟩⟩
  · have hstopped := hsound.stopped 0 .boundaryTrip (by decide) rfl rfl nofun
    exact absurd hstopped (by decide)
  · have hfailed := hsound.newer 1 (by decide) rfl
    exact absurd hfailed (by decide)

end TmuxccDriver.Broker.Supervisor
