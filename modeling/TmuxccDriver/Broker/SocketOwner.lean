import Mathlib.Logic.Function.Basic
import TmuxccDriver.Lib.Run

/-!
# The owner of the broker's socket

`server-proxy.ts` and `runtime-dir.ts`: a broker listens on the well-known path, and the bind
is its lock. A path that is taken is asked for its owner; a leftover without an owner is
removed and the broker listens again. On exit the server is closed and the path is removed if
it still has the inode of the bind. Every call of the system is one step, and the steps of
any number of brokers are interleaved.

The verdict and the removal are two steps, and so are the inode check and the removal on
exit. What another broker binds between the two is removed while it is in use.

Results:
1. `Sound`: at most one broker listens, and the path is its socket.
2. `Sound.step`: what a step keeps when no broker has bound between its check and its removal.
3. `safe_iff`: a step is safe exactly then.
4. `single_broker_iff`: the same for every run.
-/

namespace TmuxccDriver.Broker.SocketOwner
open TmuxccDriver.Lib

/-! ## State -/

def MAX_BIND_ATTEMPTS : Nat := 3

/-- A socket file: the number of its bind, and its inode. -/
structure SocketFile where
  serial : Nat
  ino : Nat
deriving DecidableEq, Repr

/-- The verdicts of `classifySocketOwner`. -/
inductive Verdict
  | alive
  | stale
  | inconclusive
deriving DecidableEq, Repr

/-- Where a broker stands. `since` is the number of binds there had been at the verdict, or
when the server was closed. -/
inductive Phase
  | idle
  | listening (attempt : Nat)
  /-- EADDRINUSE. -/
  | refused (attempt : Nat)
  /-- The leftover is stale and will be removed. -/
  | removing (attempt : Nat) (since : Nat)
  | bound (socket : SocketFile)
  | restricted (socket : SocketFile)
  | running (socket : SocketFile) (boundSocketIno : Option Nat)
  | closed (boundSocketIno : Option Nat) (since : Nat)
  /-- The path has the inode of the bind and will be removed. -/
  | unlinking (since : Nat)
deriving DecidableEq, Repr

/-- The socket a broker listens on: it takes itself for the owner of the path. -/
def Phase.socket? : Phase → Option SocketFile
  | .bound socket | .restricted socket | .running socket _ => some socket
  | _ => none

def Phase.since? : Phase → Option Nat
  | .removing _ since | .closed _ since | .unlinking since => some since
  | _ => none

/-- The file at the path, the sockets that are listened on, and the brokers. -/
structure World (B : Type) where
  path : Option SocketFile
  listeners : List SocketFile
  binds : Nat
  phase : B → Phase

/-- Before the first start; a broker that died may have left a file with some inode. -/
def World.initial {B : Type} (leftover : Option Nat) : World B :=
  ⟨leftover.map fun ino => ⟨0, ino⟩, [], 1, fun _ => .idle⟩

/-! ## Steps -/

inductive Action (B : Type)
  | start (broker : B)
  /-- The inode is the one the file system gives to a new file. -/
  | listen (broker : B) (ino : Nat)
  | connect (broker : B) (verdict : Verdict)
  | removeSocket (broker : B)
  | restrictSocket (broker : B)
  | statSocketIno (broker : B)
  | close (broker : B)
  | statOwned (broker : B)
  | unlinkOwned (broker : B)
  | crash (broker : B)
deriving DecidableEq, Repr

namespace World

variable {B : Type} [DecidableEq B]

def enter (s : World B) (broker : B) (phase : Phase) : World B :=
  { s with phase := Function.update s.phase broker phase }

/-- The process ends: nobody listens on its socket, and the file stays. -/
def exit (s : World B) (broker : B) : World B :=
  { s with
    listeners := s.listeners.filter fun socket => (s.phase broker).socket? ≠ some socket
    phase := Function.update s.phase broker .idle }

/-- What a connection to the path may tell. -/
def Answers (s : World B) : Verdict → Prop
  | .alive => ∃ socket ∈ s.listeners, s.path = some socket
  | .stale => ∀ socket ∈ s.listeners, s.path ≠ some socket
  | .inconclusive => True

omit [DecidableEq B] in
instance (s : World B) (verdict : Verdict) : Decidable (s.Answers verdict) := by
  cases verdict <;> unfold Answers <;> infer_instance

/-- One step; whether `close` of a server removes the path it has bound, of whichever file it
now is, is a matter of the runtime. -/
def step (closeUnlinks : Bool) (s : World B) : Action B → Option (World B)
  | .start broker =>
    match s.phase broker with
    | .idle => some (s.enter broker (.listening 1))
    | _ => none
  | .listen broker ino =>
    match s.phase broker with
    | .listening attempt =>
      match s.path with
      | some _ => some (s.enter broker (.refused attempt))
      | none =>
        if ino ∈ s.listeners.map SocketFile.ino then none
        else
          let socket := ⟨s.binds, ino⟩
          some
            { path := some socket
              listeners := socket :: s.listeners
              binds := s.binds + 1
              phase := Function.update s.phase broker (.bound socket) }
    | _ => none
  | .connect broker verdict =>
    match s.phase broker with
    | .refused attempt =>
      if s.Answers verdict then
        -- The loser of a double spawn gives up and touches nothing.
        if verdict ≠ .stale ∨ attempt ≥ MAX_BIND_ATTEMPTS then some (s.enter broker .idle)
        else some (s.enter broker (.removing attempt s.binds))
      else none
    | _ => none
  | .removeSocket broker =>
    match s.phase broker with
    | .removing attempt _ => some { s.enter broker (.listening (attempt + 1)) with path := none }
    | _ => none
  | .restrictSocket broker =>
    match s.phase broker with
    | .bound socket =>
      -- chmod and lstat throw when the path is gone, and the entry point then exits.
      if s.path = none then some (s.exit broker) else some (s.enter broker (.restricted socket))
    | _ => none
  | .statSocketIno broker =>
    match s.phase broker with
    | .restricted socket => some (s.enter broker (.running socket (s.path.map SocketFile.ino)))
    | _ => none
  | .close broker =>
    match s.phase broker with
    | .running _ boundSocketIno =>
      some { (s.exit broker).enter broker (.closed boundSocketIno s.binds) with
        path := if closeUnlinks then none else s.path }
    | _ => none
  | .statOwned broker =>
    match s.phase broker with
    | .closed boundSocketIno since =>
      if boundSocketIno ≠ none ∧ s.path.map SocketFile.ino = boundSocketIno then
        some (s.enter broker (.unlinking since))
      else some (s.enter broker .idle)
    | _ => none
  | .unlinkOwned broker =>
    match s.phase broker with
    | .unlinking _ => some { s.enter broker .idle with path := none }
    | _ => none
  | .crash broker => some (s.exit broker)

/-! ## Safety -/

/-- The broker of an action that removes the path. -/
def unlinker? (closeUnlinks : Bool) : Action B → Option B
  | .removeSocket broker | .unlinkOwned broker => some broker
  | .close broker => if closeUnlinks then some broker else none
  | _ => none

/-- At most one broker takes itself for the owner of the path, and no broker removes the
socket of another. -/
structure Safe (closeUnlinks : Bool) (s : World B) (action : Action B) : Prop where
  sole : ∀ s', s.step closeUnlinks action = some s' → ∀ b b', (s'.phase b).socket? ≠ none →
    (s'.phase b').socket? ≠ none → b = b'
  kept : ∀ s', s.step closeUnlinks action = some s' → ∀ broker,
    unlinker? closeUnlinks action = some broker → ∀ b socket, b ≠ broker →
      (s.phase b).socket? = some socket → s.path ≠ some socket

/-- How many binds there had been at the check that a removal acts upon. -/
def checkedAt? (s : World B) : Action B → Option Nat
  | .removeSocket broker =>
    match s.phase broker with
    | .removing _ since => some since
    | _ => none
  | .unlinkOwned broker =>
    match s.phase broker with
    | .unlinking since => some since
    | _ => none
  | _ => none

/-- No broker that still listens has bound since the check that a removal acts upon. -/
def Unraced (s : World B) (action : Action B) : Prop :=
  ∀ since ∈ s.checkedAt? action, ∀ socket ∈ s.listeners, socket.serial < since

omit [DecidableEq B] in
instance (s : World B) (action : Action B) : Decidable (s.Unraced action) :=
  inferInstanceAs (Decidable (∀ _ ∈ s.checkedAt? action, _))

/-! ## The invariant -/

/-- A broker that listens is the only one, the path is its socket, and it has bound after
every check that another broker has still to act upon. -/
structure Sound (s : World B) : Prop where
  bound : ∀ b socket, (s.phase b).socket? = some socket →
    s.path = some socket ∧ socket ∈ s.listeners
  owned : ∀ socket ∈ s.listeners, ∃ b, (s.phase b).socket? = some socket
  sole : ∀ b b', (s.phase b).socket? ≠ none → (s.phase b').socket? ≠ none → b = b'
  window : ∀ b since, (s.phase b).since? = some since →
    since ≤ s.binds ∧ ∀ socket ∈ s.listeners, since ≤ socket.serial

omit [DecidableEq B] in
theorem sound_initial (leftover : Option Nat) : (initial leftover : World B).Sound where
  bound b socket h := by cases h
  owned socket h := absurd h List.not_mem_nil
  sole b b' h := absurd rfl h
  window b since h := by cases h

variable {s : World B}

@[simp] theorem phase_enter (b b' : B) (phase : Phase) :
    (s.enter b phase).phase b' = if b' = b then phase else s.phase b' :=
  Function.update_apply ..

@[simp] theorem phase_exit (b b' : B) :
    (s.exit b).phase b' = if b' = b then .idle else s.phase b' :=
  Function.update_apply ..

omit [DecidableEq B] in
/-- Nobody listens when the file at the path, if there is one, is nobody's. -/
theorem Sound.no_listener (h : s.Sound) (hpath : ∀ socket ∈ s.listeners, s.path ≠ some socket) :
    s.listeners = [] := by
  refine List.eq_nil_iff_forall_not_mem.mpr fun socket hsocket => ?_
  obtain ⟨b, hb⟩ := h.owned socket hsocket
  exact hpath socket hsocket (h.bound b socket hb).1

omit [DecidableEq B] in
theorem Sound.idle_of_no_listener (h : s.Sound) (hnone : s.listeners = []) (b : B) :
    (s.phase b).socket? = none := by
  cases hb : (s.phase b).socket? with
  | none => rfl
  | some socket =>
    have hmem := (h.bound b socket hb).2
    rw [hnone] at hmem
    exact absurd hmem List.not_mem_nil

/-- A broker goes on and neither binds nor ends, and the check it acts upon is current. -/
theorem Sound.enter (h : s.Sound) {b : B} {phase : Phase}
    (hsocket : phase.socket? = (s.phase b).socket?)
    (hsince : ∀ since, phase.since? = some since →
      since ≤ s.binds ∧ ∀ socket ∈ s.listeners, since ≤ socket.serial) :
    (s.enter b phase).Sound := by
  have hsame : ∀ b', ((s.enter b phase).phase b').socket? = (s.phase b').socket? := fun b' => by
    rw [phase_enter]
    split
    next heq => rw [heq, hsocket]
    next => rfl
  refine ⟨fun b' socket hb' => ?_, fun socket hmem => ?_, fun b' b'' hb' hb'' => ?_,
    fun b' since hb' => ?_⟩
  · rw [hsame] at hb'
    exact h.bound b' socket hb'
  · obtain ⟨b', hb'⟩ := h.owned socket hmem
    exact ⟨b', (hsame b').trans hb'⟩
  · rw [hsame] at hb' hb''
    exact h.sole b' b'' hb' hb''
  · rw [phase_enter] at hb'
    split at hb'
    · exact hsince since hb'
    · exact h.window b' since hb'

/-- A broker ends, and its file stays. -/
theorem Sound.exit (h : s.Sound) (b : B) : (s.exit b).Sound := by
  have hother : ∀ b' socket, ((s.exit b).phase b').socket? = some socket →
      b' ≠ b ∧ (s.phase b').socket? = some socket := fun b' socket hb' => by
    rw [phase_exit] at hb'
    split at hb'
    · cases hb'
    next hne => exact ⟨hne, hb'⟩
  have hmem : ∀ socket, socket ∈ (s.exit b).listeners ↔
      socket ∈ s.listeners ∧ (s.phase b).socket? ≠ some socket := fun socket => by
    simp [World.exit]
  refine ⟨fun b' socket hb' => ?_, fun socket hsocket => ?_, fun b' b'' hb' hb'' => ?_,
    fun b' since hb' => ?_⟩
  · obtain ⟨hne, hold⟩ := hother b' socket hb'
    refine ⟨(h.bound b' socket hold).1, (hmem socket).mpr ⟨(h.bound b' socket hold).2, ?_⟩⟩
    intro hb
    exact hne (h.sole b' b (by simp [hold]) (by simp [hb]))
  · obtain ⟨hold, hnot⟩ := (hmem socket).mp hsocket
    obtain ⟨b', hb'⟩ := h.owned socket hold
    have hne : b' ≠ b := fun heq => hnot (heq ▸ hb')
    exact ⟨b', by rw [phase_exit, if_neg hne]; exact hb'⟩
  · obtain ⟨socket', h'⟩ := Option.ne_none_iff_exists'.mp hb'
    obtain ⟨socket'', h''⟩ := Option.ne_none_iff_exists'.mp hb''
    exact h.sole b' b'' (by simp [(hother b' _ h').2]) (by simp [(hother b'' _ h'').2])
  · rw [phase_exit] at hb'
    split at hb'
    · cases hb'
    · obtain ⟨hle, hwindow⟩ := h.window b' since hb'
      exact ⟨hle, fun socket hsocket => hwindow socket ((hmem socket).mp hsocket).1⟩

/-- Nobody listens after the broker that did has ended. -/
theorem Sound.listeners_exit (h : s.Sound) {b : B} (hb : (s.phase b).socket? ≠ none) :
    (s.exit b).listeners = [] := by
  refine List.filter_eq_nil_iff.mpr fun socket hsocket => ?_
  obtain ⟨b', hb'⟩ := h.owned socket hsocket
  obtain rfl : b' = b := h.sole b' b (by simp [hb']) hb
  simp [hb']

/-- While nobody listens, the path may be removed. -/
theorem Sound.clear (h : s.Sound) (hnone : s.listeners = []) (b : B) {phase : Phase}
    (hsocket : phase.socket? = none) (hsince : ∀ since, phase.since? = some since → since ≤ s.binds)
    (path : Option SocketFile) : ({ s.enter b phase with path := path } : World B).Sound := by
  have hentered : (s.enter b phase).Sound := by
    refine h.enter (hsocket.trans (h.idle_of_no_listener hnone b).symm) fun since hphase =>
      ⟨hsince since hphase, fun socket hmem => ?_⟩
    rw [hnone] at hmem
    exact absurd hmem List.not_mem_nil
  refine { hentered with bound := fun b' socket hb' => ?_ }
  rw [hentered.idle_of_no_listener hnone b'] at hb'
  cases hb'

/-- A broker binds: the path was free, so nobody else listens. -/
theorem Sound.listen (h : s.Sound) (hpath : s.path = none) (b : B) (ino : Nat) :
    (⟨some ⟨s.binds, ino⟩, ⟨s.binds, ino⟩ :: s.listeners, s.binds + 1,
      Function.update s.phase b (.bound ⟨s.binds, ino⟩)⟩ : World B).Sound := by
  have hnone : s.listeners = [] := h.no_listener fun socket _ hsome => by
    rw [hpath] at hsome
    cases hsome
  have hphase : ∀ b', Function.update s.phase b (.bound ⟨s.binds, ino⟩) b' =
      if b' = b then .bound ⟨s.binds, ino⟩ else s.phase b' := fun b' => Function.update_apply ..
  have hself : ∀ b' socket, (Function.update s.phase b (.bound ⟨s.binds, ino⟩) b').socket? =
      some socket → b' = b ∧ socket = ⟨s.binds, ino⟩ := by
    intro b' socket hb'
    rw [hphase] at hb'
    split at hb'
    next heq => exact ⟨heq, (Option.some.inj hb').symm⟩
    next =>
      rw [h.idle_of_no_listener hnone b'] at hb'
      cases hb'
  refine ⟨fun b' socket hb' => ?_, fun socket hmem => ?_, fun b' b'' hb' hb'' => ?_,
    fun b' since hb' => ?_⟩
  · obtain ⟨_, rfl⟩ := hself b' socket hb'
    exact ⟨rfl, List.mem_cons_self⟩
  · rw [hnone] at hmem
    obtain rfl := List.mem_singleton.mp hmem
    exact ⟨b, by simp [Phase.socket?]⟩
  · obtain ⟨socket', h'⟩ := Option.ne_none_iff_exists'.mp hb'
    obtain ⟨socket'', h''⟩ := Option.ne_none_iff_exists'.mp hb''
    exact (hself b' _ h').1.trans (hself b'' _ h'').1.symm
  · have hb' : (Function.update s.phase b (.bound ⟨s.binds, ino⟩) b').since? = some since := hb'
    rw [hphase] at hb'
    split at hb'
    · cases hb'
    · have hle := (h.window b' since hb').1
      refine ⟨Nat.le_succ_of_le hle, fun socket hmem => ?_⟩
      rw [hnone] at hmem
      obtain rfl := List.mem_singleton.mp hmem
      exact hle

omit [DecidableEq B] in
/-- When no broker that still listens has bound since a check, nobody listens. -/
theorem Sound.no_listener_of_unraced (h : s.Sound) {action : Action B} (hunraced : s.Unraced action)
    {b : B} {since : Nat} (hchecked : s.checkedAt? action = some since)
    (hsince : (s.phase b).since? = some since) : s.listeners = [] := by
  refine List.eq_nil_iff_forall_not_mem.mpr fun socket hsocket => ?_
  exact absurd ((h.window b since hsince).2 socket hsocket)
    (Nat.not_le.mpr (hunraced since hchecked socket hsocket))

/-- A step in which nothing has been bound since the check. -/
theorem Sound.step (h : s.Sound) {closeUnlinks : Bool} {action : Action B} {s' : World B}
    (hunraced : s.Unraced action) (hstep : s.step closeUnlinks action = some s') : s'.Sound := by
  cases action with
  | start b =>
    simp only [World.step] at hstep
    split at hstep
    next hphase =>
      cases hstep
      exact h.enter (by rw [hphase]; rfl) (by simp [Phase.since?])
    next => cases hstep
  | listen b ino =>
    simp only [World.step] at hstep
    split at hstep
    next attempt hphase =>
      split at hstep
      next =>
        cases hstep
        exact h.enter (by rw [hphase]; rfl) (by simp [Phase.since?])
      next hpath =>
        split at hstep
        · cases hstep
        · cases hstep
          exact h.listen hpath b ino
    next => cases hstep
  | connect b verdict =>
    simp only [World.step] at hstep
    split at hstep
    next attempt hphase =>
      split at hstep
      next hanswers =>
        split at hstep
        next =>
          cases hstep
          exact h.enter (by rw [hphase]; rfl) (by simp [Phase.since?])
        next hgo =>
          cases hstep
          -- The path is stale, so that at this moment nobody listens.
          have hstale : verdict = .stale := not_not.mp fun hne => hgo (Or.inl hne)
          rw [hstale] at hanswers
          have hnone := h.no_listener hanswers
          refine h.enter (by rw [hphase]; rfl) fun since hsince => ?_
          obtain rfl : s.binds = since := Option.some.inj hsince
          refine ⟨Nat.le_refl _, fun socket hmem => ?_⟩
          rw [hnone] at hmem
          exact absurd hmem List.not_mem_nil
      next => cases hstep
    next => cases hstep
  | removeSocket b =>
    simp only [World.step] at hstep
    split at hstep
    next attempt since hphase =>
      cases hstep
      have hsince : (s.phase b).since? = some since := by rw [hphase]; rfl
      have hnone := h.no_listener_of_unraced hunraced (by simp [checkedAt?, hphase]) hsince
      exact h.clear hnone b rfl (by simp [Phase.since?]) none
    next => cases hstep
  | restrictSocket b =>
    simp only [World.step] at hstep
    split at hstep
    next socket hphase =>
      split at hstep
      next =>
        cases hstep
        exact h.exit b
      next =>
        cases hstep
        exact h.enter (by rw [hphase]; rfl) (by simp [Phase.since?])
    next => cases hstep
  | statSocketIno b =>
    simp only [World.step] at hstep
    split at hstep
    next socket hphase =>
      cases hstep
      exact h.enter (by rw [hphase]; rfl) (by simp [Phase.since?])
    next => cases hstep
  | close b =>
    simp only [World.step] at hstep
    split at hstep
    next socket boundSocketIno hphase =>
      cases hstep
      have hlistens : (s.phase b).socket? ≠ none := by simp [hphase, Phase.socket?]
      have hnone := h.listeners_exit hlistens
      refine (h.exit b).clear hnone b rfl (fun since hsince => ?_) _
      exact Nat.le_of_eq (Option.some.inj hsince).symm
    next => cases hstep
  | statOwned b =>
    simp only [World.step] at hstep
    split at hstep
    next boundSocketIno since hphase =>
      have hwindow := h.window b since (by rw [hphase]; rfl)
      split at hstep
      next =>
        cases hstep
        refine h.enter (by rw [hphase]; rfl) fun since' hsince => ?_
        obtain rfl : since = since' := Option.some.inj hsince
        exact hwindow
      next =>
        cases hstep
        exact h.enter (by rw [hphase]; rfl) (by simp [Phase.since?])
    next => cases hstep
  | unlinkOwned b =>
    simp only [World.step] at hstep
    split at hstep
    next since hphase =>
      cases hstep
      have hsince : (s.phase b).since? = some since := by rw [hphase]; rfl
      have hnone := h.no_listener_of_unraced hunraced (by simp [checkedAt?, hphase]) hsince
      exact h.clear hnone b rfl (by simp [Phase.since?]) none
    next => cases hstep
  | crash b =>
    cases hstep
    exact h.exit b

/-- A removal that acts upon a check is enabled, and its broker does not listen. -/
theorem enabled_of_checked (closeUnlinks : Bool) {action : Action B} {since : Nat}
    (hchecked : s.checkedAt? action = some since) :
    ∃ broker s', unlinker? closeUnlinks action = some broker ∧
      s.step closeUnlinks action = some s' ∧ (s.phase broker).socket? = none := by
  cases action with
  | removeSocket b =>
    simp only [checkedAt?] at hchecked
    split at hchecked
    next attempt since' hphase =>
      exact ⟨b, _, rfl, by rw [World.step, hphase], by rw [hphase]; rfl⟩
    next => cases hchecked
  | unlinkOwned b =>
    simp only [checkedAt?] at hchecked
    split at hchecked
    next since' hphase =>
      exact ⟨b, _, rfl, by rw [World.step, hphase], by rw [hphase]; rfl⟩
    next => cases hchecked
  | _ => cases hchecked

/-- A removal acts upon a check, or it is the end of the server that is listened on. -/
theorem checked_or_listens {closeUnlinks : Bool} {action : Action B} {s' : World B} {broker : B}
    (hbroker : unlinker? closeUnlinks action = some broker)
    (hstep : s.step closeUnlinks action = some s') :
    (∃ since, s.checkedAt? action = some since ∧ (s.phase broker).since? = some since) ∨
      (s.phase broker).socket? ≠ none := by
  cases action with
  | removeSocket b =>
    cases hbroker
    simp only [World.step] at hstep
    split at hstep
    next attempt since hphase =>
      exact Or.inl ⟨since, by simp [checkedAt?, hphase], by rw [hphase]; rfl⟩
    next => cases hstep
  | unlinkOwned b =>
    cases hbroker
    simp only [World.step] at hstep
    split at hstep
    next since hphase => exact Or.inl ⟨since, by simp [checkedAt?, hphase], by rw [hphase]; rfl⟩
    next => cases hstep
  | close b =>
    simp only [unlinker?] at hbroker
    split at hbroker
    · cases hbroker
      simp only [World.step] at hstep
      split at hstep
      next socket boundSocketIno hphase => exact Or.inr (by simp [hphase, Phase.socket?])
      next => cases hstep
    · cases hbroker
  | _ => cases hbroker

/-- A step is safe exactly if no broker that still listens has bound since the check that
it acts upon. -/
theorem safe_iff (h : s.Sound) (closeUnlinks : Bool) (action : Action B) :
    s.Safe closeUnlinks action ↔ s.Unraced action := by
  constructor
  · intro hsafe since hchecked socket hsocket
    exfalso
    obtain ⟨b, hb⟩ := h.owned socket hsocket
    obtain ⟨broker, s', hbroker, hstep, hnone⟩ :=
      enabled_of_checked closeUnlinks hchecked
    have hne : b ≠ broker := fun heq => by
      rw [heq, hnone] at hb
      cases hb
    exact hsafe.kept s' hstep broker hbroker b socket hne hb (h.bound b socket hb).1
  · intro hunraced
    refine ⟨fun s' hstep => (h.step hunraced hstep).sole, fun s' hstep broker hbroker b socket hne
      hb _ => ?_⟩
    rcases checked_or_listens hbroker hstep with ⟨since, hchecked, hsince⟩ | hlistens
    · have hnone := h.no_listener_of_unraced hunraced hchecked hsince
      rw [h.idle_of_no_listener hnone b] at hb
      cases hb
    · exact hne (h.sole b broker (by simp [hb]) hlistens)

theorem along_safe_iff (h : s.Sound) (closeUnlinks : Bool) (actions : List (Action B)) :
    Along (World.step closeUnlinks) (Safe closeUnlinks) s actions ↔
      Along (World.step closeUnlinks) Unraced s actions :=
  along_iff_along (fun _ action hs => safe_iff hs closeUnlinks action)
    (fun _ _ _ hs hunraced hstep => hs.step hunraced hstep) h

/-- At most one broker takes itself for the owner of the path, and none removes the socket of
another, in every run in which nobody binds between a check and the removal that acts upon
it and still listens then. -/
theorem single_broker_iff (closeUnlinks : Bool) (leftover : Option Nat)
    (actions : List (Action B)) :
    Along (World.step closeUnlinks) (Safe closeUnlinks) (initial leftover) actions ↔
      Along (World.step closeUnlinks) Unraced (initial leftover) actions :=
  along_safe_iff (sound_initial leftover) closeUnlinks actions

/-- Two brokers find the file of a dead one; the second removes what the first has bound. -/
def doubleSpawn : List (Action Nat) :=
  [.start 0, .start 1, .listen 0 8, .listen 1 8, .connect 0 .stale, .connect 1 .stale,
    .removeSocket 0, .listen 0 8, .removeSocket 1]

theorem doubleSpawn_unsafe : ¬Along (World.step true) (Safe true)
    (initial (some 7)) doubleSpawn := by
  rw [along_safe_iff (sound_initial _)]
  decide

end World

end TmuxccDriver.Broker.SocketOwner
