import TmuxccDriver.Client.Mirror
import TmuxccDriver.Runtime.Serve

/-!
# Gaps in the stream of a mirror

The receiving half of the class `Mirror` in `clients/ts/src/mirror.ts`, wired by `connectTo`.
The mirror counts the messages of its connection. At a gap it stays at its last good state and
asks for one resync; the snapshot that answers moves it on. At a gap after an answered resync it
closes the connection instead, for good.

The state of the server as of a message is what the stream up to it projects: its last
snapshot with the deltas that follow.

Results:
1. `Tracks`: the invariant of a mirror that is given part of a stream in order.
2. `foldl_gapped`: after a gap nothing is applied before the next snapshot.
3. `Asked`: a mirror asks for at most one resync, and closes only after it was answered.
4. `mirror_gap_safe`: all of it, for any stream of a control server.
-/

namespace TmuxccDriver.Client
open TmuxccDriver.Lib TmuxccDriver.Protocol TmuxccDriver.State
open TmuxccDriver.Runtime.Serve

/-! ## The mirror -/

def emptyClientModel : ClientModel :=
  { session := ⟨⟨""⟩, ""⟩
    windows := .empty
    panes := .empty
    focus := ⟨none, none⟩
    exitCodes := .empty
    closeCauses := .empty
    attachedClientCount := none
    ownConnectionId := none }

/-- What the mirror tells others. -/
inductive MirrorEffect
  | resyncNeeded (expected received : Nat)
  | resyncRequest (seq : Nat)
  | close
deriving DecidableEq

/-- `effects` is the history of what it told, the oldest first. -/
structure Mirror where
  model : ClientModel := emptyClientModel
  lastSeq : Option Nat := none
  initialized : Bool := false
  resyncRequested : Bool := false
  resyncDelivered : Bool := false
  clientSeq : Nat := 0
  effects : List MirrorEffect := []

namespace Mirror

def receiveSnapshot (mirror : Mirror) (snapshot : SnapshotMessage) : Mirror :=
  { mirror with
    model := applySnapshot snapshot
    lastSeq := some snapshot.seq
    initialized := true
    resyncRequested := false
    resyncDelivered := mirror.resyncDelivered || mirror.resyncRequested }

/-- The branch of `receiveDelta` for a message that is not the expected one. -/
def onGap (mirror : Mirror) (expected received : Nat) : Mirror :=
  let told := mirror.effects ++ [.resyncNeeded expected received]
  if mirror.resyncRequested then { mirror with effects := told }
  else if mirror.resyncDelivered then { mirror with effects := told ++ [.close] }
  else
    { mirror with
      resyncRequested := true
      clientSeq := mirror.clientSeq + 1
      effects := told ++ [.resyncRequest (mirror.clientSeq + 1)] }

/-- The messages that carry no state are counted and change nothing. -/
def receiveDelta (mirror : Mirror) (seq : Nat) (msg : SessionProxyMessage) : Mirror :=
  match mirror.lastSeq with
  | none => mirror
  | some lastSeq =>
    if !mirror.initialized then mirror
    else if isSnapshot msg then mirror
    else if seq ≠ lastSeq + 1 then mirror.onGap (lastSeq + 1) seq
    else { mirror with model := applyDelta mirror.model msg, lastSeq := some seq }

/-- The handler of `connectTo`. -/
def receive {T : Type} (mirror : Mirror) (m : Sent T) : Mirror :=
  match m.message with
  | .snapshot snapshot => mirror.receiveSnapshot snapshot
  | msg => mirror.receiveDelta m.seq msg

def closed (mirror : Mirror) : Prop := .close ∈ mirror.effects

def requests (mirror : Mirror) : List MirrorEffect :=
  mirror.effects.filter fun e => e matches .resyncRequest _

end Mirror

variable {T : Type}

/-- A new mirror after some messages. -/
def Mirror.run (delivered : List (Sent T)) : Mirror := delivered.foldl Mirror.receive {}

/-- The mirror tells of a gap when it is given the message. -/
def DeclaresGap (mirror : Mirror) (m : Sent T) : Prop :=
  ∃ expected received rest,
    (mirror.receive m).effects = mirror.effects ++ .resyncNeeded expected received :: rest

/-! ## The state as of a message -/

def project (model : ClientModel) (m : Sent T) : ClientModel :=
  match m.message with
  | .snapshot snapshot => applySnapshot snapshot
  | msg => applyDelta model msg

/-- What the messages up to number `k` project. -/
def asOf (history : List (Sent T)) (k : Nat) : ClientModel :=
  (history.filter fun m => m.seq ≤ k).foldl project emptyClientModel

/-- The messages are numbered without a hole, and a snapshot carries its own number. -/
structure Numbered (history : List (Sent T)) : Prop where
  seqs : ∃ start, history.map (·.seq) = List.range' start history.length
  stamped : ∀ m ∈ history, ∀ snapshot, m.message = .snapshot snapshot → snapshot.seq = m.seq

namespace Numbered

variable {history : List (Sent T)} (h : Numbered history)
include h

theorem sorted : history.Pairwise fun m m' => m.seq < m'.seq := by
  obtain ⟨start, hseqs⟩ := h.seqs
  have hrange : (List.range' start history.length).Pairwise (· < ·) :=
    List.pairwise_lt_range' 1 Nat.one_pos
  rwa [← hseqs, List.pairwise_map] at hrange

/-- Every number between those of two messages is the number of a message. -/
theorem between {m m' : Sent T} (hm : m ∈ history) (hm' : m' ∈ history) {k : Nat}
    (hk : m.seq ≤ k) (hk' : k ≤ m'.seq) : ∃ x ∈ history, x.seq = k := by
  obtain ⟨start, hseqs⟩ := h.seqs
  have hrange : ∀ k, (∃ x ∈ history, x.seq = k) ↔ start ≤ k ∧ k < start + history.length := by
    intro k
    rw [← List.mem_range'_1, ← hseqs, List.mem_map]
  have hlow := (hrange m.seq).mp ⟨m, hm, rfl⟩
  have hhigh := (hrange m'.seq).mp ⟨m', hm', rfl⟩
  exact (hrange k).mpr ⟨hlow.1.trans hk, hk'.trans_lt hhigh.2⟩

/-- The history is cut at one of its messages. -/
theorem cut {m : Sent T} (hm : m ∈ history) :
    (history.filter fun x => x.seq ≤ m.seq) = (history.filter fun x => x.seq < m.seq) ++ [m] := by
  obtain ⟨before, after, rfl⟩ := List.append_of_mem hm
  have hsorted := List.pairwise_append.mp h.sorted
  have hbefore : ∀ x ∈ before, x.seq < m.seq := fun x hx =>
    hsorted.2.2 x hx m List.mem_cons_self
  have hafter : ∀ x ∈ after, m.seq < x.seq := fun x hx =>
    List.rel_of_pairwise_cons hsorted.2.1 hx
  have hle : ∀ x ∈ before, decide (x.seq ≤ m.seq) = true := fun x hx =>
    decide_eq_true (hbefore x hx).le
  have hlt : ∀ x ∈ before, decide (x.seq < m.seq) = true := fun x hx =>
    decide_eq_true (hbefore x hx)
  have hnle : ∀ x ∈ after, ¬decide (x.seq ≤ m.seq) = true := fun x hx hle =>
    absurd (of_decide_eq_true hle) (hafter x hx).not_ge
  have hnlt : ∀ x ∈ after, ¬decide (x.seq < m.seq) = true := fun x hx hlt =>
    absurd (of_decide_eq_true hlt) (hafter x hx).not_gt
  simp only [List.filter_append, List.filter_cons, le_refl, lt_irrefl, decide_true, decide_false,
    if_true, List.filter_eq_self.mpr hle, List.filter_eq_self.mpr hlt,
    List.filter_eq_nil_iff.mpr hnle, List.filter_eq_nil_iff.mpr hnlt]
  simp

theorem asOf_message {m : Sent T} (hm : m ∈ history) :
    asOf history m.seq =
      project ((history.filter fun x => x.seq < m.seq).foldl project emptyClientModel) m := by
  unfold asOf
  rw [h.cut hm, List.foldl_append]
  rfl

theorem asOf_succ {m : Sent T} (hm : m ∈ history) {k : Nat} (hk : m.seq = k + 1) :
    asOf history m.seq = project (asOf history k) m := by
  rw [h.asOf_message hm]
  simp only [hk, Nat.lt_succ_iff]
  rfl

end Numbered

/-! ## One message -/

section Receive
variable (mirror : Mirror) (m : Sent T)

theorem run_append (done : List (Sent T)) :
    Mirror.run (done ++ [m]) = (Mirror.run done).receive m := by
  simp [Mirror.run, List.foldl_append]

variable {mirror m}

theorem receive_snapshot {snapshot : SnapshotMessage} (h : m.message = .snapshot snapshot) :
    mirror.receive m = mirror.receiveSnapshot snapshot := by
  simp only [Mirror.receive, h]

theorem receive_delta (h : isSnapshot m.message = false) :
    mirror.receive m = mirror.receiveDelta m.seq m.message := by
  unfold Mirror.receive
  split
  · next hm => simp [hm, isSnapshot] at h
  · rfl

theorem project_delta (h : isSnapshot m.message = false) (model : ClientModel) :
    project model m = applyDelta model m.message := by
  unfold project
  split
  · next hm => simp [hm, isSnapshot] at h
  · rfl

theorem receive_unstarted (h : isSnapshot m.message = false) (hseq : mirror.lastSeq = none) :
    mirror.receive m = mirror := by
  rw [receive_delta h, Mirror.receiveDelta, hseq]

theorem receive_expected (h : isSnapshot m.message = false) {k : Nat}
    (hseq : mirror.lastSeq = some k) (hstarted : mirror.initialized = true) (hm : m.seq = k + 1) :
    mirror.receive m =
      { mirror with model := applyDelta mirror.model m.message, lastSeq := some m.seq } := by
  rw [receive_delta h, Mirror.receiveDelta, hseq]
  simp [hstarted, h, hm]

theorem receive_gap (h : isSnapshot m.message = false) {k : Nat}
    (hseq : mirror.lastSeq = some k) (hstarted : mirror.initialized = true) (hm : m.seq ≠ k + 1) :
    mirror.receive m = mirror.onGap (k + 1) m.seq := by
  rw [receive_delta h, Mirror.receiveDelta, hseq]
  simp [hstarted, h, hm]

end Receive

/-- At a gap the mirror keeps its state, tells of the gap, and ends up waiting for a resync or
closed. -/
theorem onGap_cases (mirror : Mirror) (expected received : Nat) :
    ∃ effects, (mirror.onGap expected received).effects =
        mirror.effects ++ .resyncNeeded expected received :: effects ∧
      (mirror.onGap expected received).model = mirror.model ∧
      (mirror.onGap expected received).lastSeq = mirror.lastSeq ∧
      (mirror.onGap expected received).initialized = mirror.initialized ∧
      (mirror.onGap expected received).resyncDelivered = mirror.resyncDelivered ∧
      ((mirror.resyncRequested = true ∧ effects = [] ∧
          (mirror.onGap expected received).resyncRequested = true) ∨
        (mirror.resyncRequested = false ∧ mirror.resyncDelivered = true ∧ effects = [.close] ∧
          (mirror.onGap expected received).resyncRequested = false) ∨
        (mirror.resyncRequested = false ∧ mirror.resyncDelivered = false ∧
          effects = [.resyncRequest (mirror.clientSeq + 1)] ∧
          (mirror.onGap expected received).resyncRequested = true)) := by
  unfold Mirror.onGap
  by_cases hrequested : mirror.resyncRequested = true
  · refine ⟨[], ?_⟩
    simp [hrequested]
  · by_cases hdelivered : mirror.resyncDelivered = true
    · refine ⟨[.close], ?_⟩
      simp [hrequested, hdelivered]
    · refine ⟨[.resyncRequest (mirror.clientSeq + 1)], ?_⟩
      simp [hrequested, hdelivered]

/-! ## Streams with holes -/

/-- A mirror that was given `done`. It has all of it; or it waits, and the message it needs
will never come. -/
structure Tracks (history done : List (Sent T)) (mirror : Mirror) : Prop where
  started : mirror.initialized = mirror.lastSeq.isSome
  model : ∀ k, mirror.lastSeq = some k → mirror.model = asOf history k
  taken : ∀ k, mirror.lastSeq = some k → ∃ m ∈ done, m.seq = k
  behind : ∀ k, mirror.lastSeq = some k →
    (∀ m ∈ done, m.seq ≤ k) ∨
      (mirror.resyncRequested = true ∨ mirror.closed) ∧ (∀ m ∈ done, m.seq ≠ k + 1) ∧
        ∃ m ∈ done, k + 1 < m.seq

namespace Tracks

variable {history done : List (Sent T)} {mirror : Mirror}

theorem new (history : List (Sent T)) : Tracks history [] {} where
  started := rfl
  model := fun _ h => by cases h
  taken := fun _ h => by cases h
  behind := fun _ h => by cases h

/-- A gap is told only when the expected message is missing for good. -/
theorem lost (h : Tracks history done mirror) {k : Nat} (hk : mirror.lastSeq = some k)
    {m : Sent T} (hm : m.seq ≠ k + 1) (hafter : ∀ x ∈ done, x.seq < m.seq) :
    k + 1 < m.seq ∧ ∀ x ∈ done, x.seq ≠ k + 1 := by
  obtain ⟨y, hy, hyk⟩ := h.taken k hk
  have hlt : k < m.seq := hyk ▸ hafter y hy
  refine ⟨by omega, fun x hx hxk => ?_⟩
  rcases h.behind k hk with hall | ⟨-, hnone, -⟩
  · exact absurd (hall x hx) (by omega)
  · exact hnone x hx hxk

theorem receive (h : Tracks history done mirror) (hnumbered : Numbered history) {m : Sent T}
    (hm : m ∈ history) (hafter : ∀ x ∈ done, x.seq < m.seq) :
    Tracks history (done ++ [m]) (mirror.receive m) := by
  have hlast : ∀ x ∈ done ++ [m], x.seq ≤ m.seq := by
    intro x hx
    rcases List.mem_append.mp hx with hx | hx
    · exact (hafter x hx).le
    · exact (List.mem_singleton.mp hx) ▸ le_rfl
  have hmem : m ∈ done ++ [m] := List.mem_append_right _ List.mem_cons_self
  cases hkind : isSnapshot m.message with
  | true =>
    -- a snapshot re-bases the mirror, whatever was lost before it
    obtain ⟨snapshot, hsnapshot⟩ : ∃ snapshot, m.message = .snapshot snapshot := by
      revert hkind
      cases m.message <;> simp [isSnapshot]
    have hown := hnumbered.stamped m hm snapshot hsnapshot
    rw [receive_snapshot hsnapshot]
    refine ⟨rfl, ?_, ?_, ?_⟩
    · intro k hk
      cases hk
      rw [hown, hnumbered.asOf_message hm]
      simp only [project, hsnapshot]
      rfl
    · intro k hk
      cases hk
      exact ⟨m, hmem, hown.symm⟩
    · intro k hk
      cases hk
      exact .inl fun x hx => hown ▸ hlast x hx
  | false =>
    by_cases hnone : mirror.lastSeq = none
    · rw [receive_unstarted hkind hnone]
      exact ⟨h.started, fun k hk => by simp [hnone] at hk, fun k hk => by simp [hnone] at hk,
        fun k hk => by simp [hnone] at hk⟩
    · obtain ⟨k, hk⟩ := Option.ne_none_iff_exists'.mp hnone
      have hstarted : mirror.initialized = true := by rw [h.started, hk]; rfl
      by_cases hexpected : m.seq = k + 1
      · rw [receive_expected hkind hk hstarted hexpected]
        refine ⟨hstarted, ?_, ?_, ?_⟩
        · intro k' hk'
          cases hk'
          rw [hnumbered.asOf_succ hm hexpected, project_delta hkind, ← h.model k hk]
        · intro k' hk'
          cases hk'
          exact ⟨m, hmem, rfl⟩
        · intro k' hk'
          cases hk'
          exact .inl hlast
      · rw [receive_gap hkind hk hstarted hexpected]
        obtain ⟨hlt, hmissing⟩ := h.lost hk hexpected hafter
        obtain ⟨effects, heffects, hmodel, hseq, hinit, -, hcases⟩ :=
          onGap_cases mirror (k + 1) m.seq
        refine ⟨by rw [hinit, hseq, h.started], ?_, ?_, ?_⟩
        · rw [hseq, hmodel]
          exact h.model
        · intro k' hk'
          obtain ⟨x, hx, hxk⟩ := h.taken k' (hseq ▸ hk')
          exact ⟨x, List.mem_append_left _ hx, hxk⟩
        · intro k' hk'
          obtain rfl : k = k' := Option.some.inj (hk.symm.trans (hseq ▸ hk'))
          refine .inr ⟨?_, ?_, m, hmem, hlt⟩
          · rcases hcases with ⟨-, -, hflag⟩ | ⟨-, -, heq, -⟩ | ⟨-, -, -, hflag⟩
            · exact .inl hflag
            · refine .inr ?_
              simp [Mirror.closed, heffects, heq]
            · exact .inl hflag
          · intro x hx
            rcases List.mem_append.mp hx with hx | hx
            · exact hmissing x hx
            · exact (List.mem_singleton.mp hx) ▸ hexpected

/-- A mirror tracks every part of the stream it is given in order. -/
theorem run (hnumbered : Numbered history) (hsub : done.Sublist history) :
    Tracks history done (Mirror.run done) := by
  induction done using List.reverseRecOn with
  | nil => exact new history
  | append_singleton done m ih =>
    have hsorted := List.pairwise_append.mp (hnumbered.sorted.sublist hsub)
    rw [run_append]
    exact (ih ((List.sublist_append_left done [m]).trans hsub)).receive hnumbered
      (hsub.subset (List.mem_append_right _ List.mem_cons_self))
      fun x hx => hsorted.2.2 x hx m List.mem_cons_self

end Tracks

/-! ## After a gap -/

section Gap
variable {mirror : Mirror} {m : Sent T}

theorem DeclaresGap.cases (h : DeclaresGap mirror m) :
    isSnapshot m.message = false ∧ ∃ k, mirror.lastSeq = some k ∧ mirror.initialized = true ∧
      m.seq ≠ k + 1 := by
  obtain ⟨expected, received, rest, heffects⟩ := h
  have hquiet : (mirror.receive m).effects ≠ mirror.effects := by
    rw [heffects]
    exact fun heq => List.cons_ne_nil _ _ (List.append_right_eq_self.mp heq)
  unfold Mirror.receive at hquiet
  split at hquiet
  · exact absurd rfl hquiet
  · unfold Mirror.receiveDelta at hquiet
    split at hquiet
    · exact absurd rfl hquiet
    · next k hk =>
      split at hquiet
      · exact absurd rfl hquiet
      · next hstarted =>
        split at hquiet
        · exact absurd rfl hquiet
        · next hkind =>
          split at hquiet
          · next hseq => exact ⟨by simpa using hkind, k, hk, by simpa using hstarted, hseq⟩
          · exact absurd rfl hquiet

/-- As long as neither a snapshot nor the expected message comes, nothing is applied. -/
theorem foldl_gapped {k : Nat} (hk : mirror.lastSeq = some k) (hstarted : mirror.initialized = true)
    (between : List (Sent T))
    (h : ∀ x ∈ between, isSnapshot x.message = false ∧ x.seq ≠ k + 1) :
    (between.foldl Mirror.receive mirror).model = mirror.model ∧
      (between.foldl Mirror.receive mirror).lastSeq = some k ∧
      (between.foldl Mirror.receive mirror).initialized = true := by
  refine foldl_keeps (P := fun (s : Mirror) => s.model = mirror.model ∧ s.lastSeq = some k ∧
    s.initialized = true) ⟨rfl, hk, hstarted⟩ ?_
  rintro x s hx ⟨hmodel, hseq, hinit⟩
  obtain ⟨hkind, hne⟩ := h x hx
  rw [receive_gap hkind hseq hinit hne]
  obtain ⟨_, -, hmodel', hseq', hinit', -⟩ := onGap_cases s (k + 1) x.seq
  exact ⟨hmodel'.trans hmodel, hseq'.trans hseq, hinit'.trans hinit⟩

theorem receive_initialized (h : mirror.initialized = true ∨ isSnapshot m.message = true) :
    (mirror.receive m).initialized = true := by
  unfold Mirror.receive
  split
  · rfl
  · next hm =>
    have hstarted : mirror.initialized = true := by
      refine h.resolve_right fun hkind => ?_
      cases hmessage : m.message <;> simp_all [isSnapshot]
    unfold Mirror.receiveDelta
    split
    · exact hstarted
    · next k hk =>
      split
      · exact hstarted
      · split
        · exact hstarted
        · split
          · obtain ⟨_, -, -, -, hinit, -⟩ := onGap_cases mirror (k + 1) m.seq
            exact hinit.trans hstarted
          · exact hstarted

end Gap

/-- A mirror that was given a snapshot has started. -/
theorem run_initialized {done : List (Sent T)} {x : Sent T} (hx : x ∈ done)
    (hkind : isSnapshot x.message = true) : (Mirror.run done).initialized = true := by
  obtain ⟨before, after, rfl⟩ := List.append_of_mem hx
  unfold Mirror.run
  rw [List.foldl_append, List.foldl_cons]
  exact foldl_keeps (P := fun s : Mirror => s.initialized = true)
    (receive_initialized (.inr hkind)) fun _ _ _ hs => receive_initialized (.inl hs)

/-! ## Requests -/

/-- The flags count the requests: none is sent twice, and only a mirror whose request was
answered gives up. -/
structure Asked (mirror : Mirror) : Prop where
  count : mirror.requests.length =
    if mirror.resyncRequested || mirror.resyncDelivered then 1 else 0
  once : mirror.resyncRequested = true → mirror.resyncDelivered = false
  gaveUp : mirror.closed → mirror.resyncDelivered = true

namespace Asked

variable {mirror : Mirror}

theorem onGap (h : Asked mirror) (expected received : Nat) :
    Asked (mirror.onGap expected received) := by
  obtain ⟨effects, heffects, -, -, -, hdelivered, hcases⟩ := onGap_cases mirror expected received
  have hcount := h.count
  have honce := h.once
  have hclosed := h.gaveUp
  unfold Mirror.requests at hcount
  unfold Mirror.closed at hclosed
  rcases hcases with ⟨hflag, rfl, hflag'⟩ | ⟨hflag, hanswered, rfl, hflag'⟩ |
    ⟨hflag, hanswered, rfl, hflag'⟩
  · refine ⟨?_, ?_, ?_⟩
    · simpa [Mirror.requests, heffects, hflag', hdelivered, hflag] using hcount
    · simpa [hflag', hdelivered, hflag] using honce
    · simpa [Mirror.closed, heffects, hdelivered] using hclosed
  · refine ⟨?_, ?_, ?_⟩
    · simpa [Mirror.requests, heffects, hflag', hdelivered, hanswered] using hcount
    · simp [hflag']
    · simp [hdelivered, hanswered]
  · refine ⟨?_, ?_, ?_⟩
    · simpa [Mirror.requests, heffects, hflag', hdelivered, hanswered, hflag] using hcount
    · simp [hdelivered, hanswered]
    · simpa [Mirror.closed, heffects, hdelivered, hanswered] using hclosed

theorem receive (h : Asked mirror) (m : Sent T) : Asked (mirror.receive m) := by
  unfold Mirror.receive
  split
  · next snapshot _ =>
    refine ⟨?_, fun hflag => Bool.noConfusion hflag, fun hclosed => ?_⟩
    · show mirror.requests.length = _
      rw [h.count]
      simp [Mirror.receiveSnapshot, Bool.or_comm]
    · show (mirror.resyncDelivered || mirror.resyncRequested) = true
      rw [h.gaveUp hclosed, Bool.true_or]
  · unfold Mirror.receiveDelta
    split
    · exact h
    · split
      · exact h
      · split
        · exact h
        · split
          · exact h.onGap ..
          · exact { h with }

theorem run (done : List (Sent T)) : Asked (Mirror.run done) :=
  foldl_keeps (P := Asked) ⟨rfl, fun h => Bool.noConfusion h, fun h => absurd h List.not_mem_nil⟩
    fun m _ _ hs => hs.receive m

theorem requests_le_one (h : Asked mirror) : mirror.requests.length ≤ 1 := by
  rw [h.count]
  split <;> decide

end Asked

/-! ## The stream of a server -/

/-- The stream to a client of the control server is numbered. -/
theorem numbered_received [DecidableEq T] {server : ControlServer T} (h : Counted server) (t : T) :
    Numbered (received server t) where
  seqs := by
    cases hstart : server.startSeq t with
    | none => exact ⟨0, by rw [(h.fresh t hstart).1]; rfl⟩
    | some start => exact ⟨start, h.seqs t start hstart⟩
  stamped := fun m hm => h.stamped m (List.mem_of_mem_filter hm)

theorem counted_exec [DecidableEq T] {model : SessionModel} {events : List (Event T)}
    {server : ControlServer T} (hrun : exec step (createControlServer model) events = some server) :
    Counted server :=
  exec_invariant (C := fun _ _ => True) (fun _ _ _ hs _ => hs.step) (Counted.create model)
    (along_of_forall step (fun _ _ => trivial) _) hrun

/-- A client is given part of the stream its server sent it, in order: `done`, then `m`, then
`between`. -/
theorem mirror_gap_safe [DecidableEq T] (model : SessionModel) (events : List (Event T))
    (server : ControlServer T)
    (hrun : exec step (createControlServer model) events = some server) (t : T)
    (done : List (Sent T)) (m : Sent T) (between : List (Sent T))
    (hsub : (done ++ m :: between).Sublist (received server t)) :
    let before := Mirror.run done
    let mirror := before.receive m
    ((∃ x ∈ done ++ [m], isSnapshot x.message = true) → mirror.resyncRequested = false →
        ¬mirror.closed → mirror.lastSeq = some m.seq) ∧
      (∀ k, mirror.lastSeq = some k → mirror.model = asOf (received server t) k) ∧
      (mirror.closed → mirror.resyncDelivered = true) ∧
      mirror.requests.length ≤ 1 ∧
      (DeclaresGap before m → (∀ x ∈ between, isSnapshot x.message = false) →
        (between.foldl Mirror.receive mirror).model = before.model ∧
          (between.foldl Mirror.receive mirror).lastSeq = before.lastSeq) ∧
      (DeclaresGap before m → ∃ k, before.lastSeq = some k ∧
        ∃ lost ∈ received server t, lost.seq = k + 1 ∧ k + 1 < m.seq ∧
          lost ∉ done ++ m :: between) := by
  have hnumbered := numbered_received (counted_exec hrun) t
  have hsorted := hnumbered.sorted.sublist hsub
  have hafter : ∀ x ∈ done, x.seq < m.seq := fun x hx =>
    (List.pairwise_append.mp hsorted).2.2 x hx m List.mem_cons_self
  have hlater : ∀ x ∈ between, m.seq < x.seq := fun x hx =>
    List.rel_of_pairwise_cons (List.pairwise_append.mp hsorted).2.1 hx
  have hmem : m ∈ received server t :=
    hsub.subset (List.mem_append_right _ List.mem_cons_self)
  have hbefore := Tracks.run hnumbered ((List.sublist_append_left done _).trans hsub)
  have hmirror := hbefore.receive hnumbered hmem hafter
  have hasked := (Asked.run done).receive m
  refine ⟨?_, hmirror.model, hasked.gaveUp, hasked.requests_le_one, ?_, ?_⟩
  · rintro ⟨x, hx, hkind⟩ hflag hopen
    have hstarted := run_initialized hx hkind
    rw [run_append, hmirror.started] at hstarted
    obtain ⟨k, hk⟩ := Option.isSome_iff_exists.mp hstarted
    obtain ⟨y, hy, hyk⟩ := hmirror.taken k hk
    have hlast := (hmirror.behind k hk).resolve_right fun hbehind =>
      hbehind.1.elim (fun h => by simp [hflag] at h) hopen
    have hle : m.seq ≤ k := hlast m (List.mem_append_right _ List.mem_cons_self)
    have hge : k ≤ m.seq := by
      rcases List.mem_append.mp hy with hy | hy
      · exact hyk ▸ (hafter y hy).le
      · exact hyk ▸ (List.mem_singleton.mp hy) ▸ le_rfl
    rw [hk, le_antisymm hge hle]
  · rintro hgap hquiet
    obtain ⟨hkind, k, hk, hstarted, hne⟩ := hgap.cases
    have hlost := (hbefore.lost hk hne hafter).1
    have hheld := foldl_gapped hk hstarted (m :: between) fun x hx => by
      rcases List.mem_cons.mp hx with rfl | hx
      · exact ⟨hkind, hne⟩
      · exact ⟨hquiet x hx, (hlost.trans (hlater x hx)).ne'⟩
    exact ⟨hheld.1, hheld.2.1.trans hk.symm⟩
  · intro hgap
    obtain ⟨hkind, k, hk, hstarted, hne⟩ := hgap.cases
    obtain ⟨hlt, hmissing⟩ := hbefore.lost hk hne hafter
    obtain ⟨y, hy, hyk⟩ := hbefore.taken k hk
    have hy' : y ∈ received server t := hsub.subset (List.mem_append_left _ hy)
    obtain ⟨lost, hlost, hseq⟩ :=
      hnumbered.between hy' hmem (k := k + 1) (hyk ▸ Nat.le_succ k) hlt.le
    refine ⟨k, hk, lost, hlost, hseq, hlt, fun hgot => ?_⟩
    rcases List.mem_append.mp hgot with hgot | hgot
    · exact hmissing lost hgot hseq
    · rcases List.mem_cons.mp hgot with rfl | hgot
      · exact hne hseq
      · exact absurd (hlater lost hgot) (hseq ▸ hlt.not_gt)

/-- Two clients; the first misses the bell, is resynced, and then misses that the second one
has joined. -/
def secondGap : List (Event Bool) :=
  [.addClient true 1 none, .subscribe true, .sendFirstSnapshot true, .paneNotify, .paneNotify,
    .resyncRequest true, .addClient false 1 none, .subscribe false, .sendFirstSnapshot false,
    .paneNotify]

def secondGapServer : ControlServer Bool :=
  (exec step (createControlServer emptyModel) secondGap).getD (createControlServer emptyModel)

/-- The first client sees the first of its gaps. -/
theorem mirror_gap_safe_second_gap : ∃ lost ∈ received secondGapServer true, lost.seq = 2 := by
  have hcut : (received secondGapServer true).filter (fun m => m.seq = 1 ∨ m.seq = 3) =
      (received secondGapServer true).filter (fun m => m.seq = 1) ++
        [⟨true, 3, .notStateBearing⟩] := rfl
  have hsafe := mirror_gap_safe emptyModel secondGap secondGapServer rfl true
    ((received secondGapServer true).filter fun m => m.seq = 1) ⟨true, 3, .notStateBearing⟩ []
    (hcut ▸ List.filter_sublist)
  obtain ⟨k, hk, lost, hlost, hseq, -⟩ := hsafe.2.2.2.2.2 ⟨2, 3, [.resyncRequest 1], rfl⟩
  cases hk
  exact ⟨lost, hlost, hseq⟩

/-- What the first client has got before the last bell. -/
def gotBefore : List (Sent Bool) :=
  (received secondGapServer true).filter fun m => m.seq ≠ 2 ∧ m.seq ≠ 5 ∧ m.seq < 6

theorem second_gap_stale :
    exec step (createControlServer emptyModel) secondGap = some secondGapServer ∧
      ∃ m, (gotBefore ++ [m]).Sublist (received secondGapServer true) ∧
        ((Mirror.run gotBefore).receive m).initialized = true ∧
        ((Mirror.run gotBefore).receive m).resyncRequested = false ∧
        ((Mirror.run gotBefore).receive m).model ≠ asOf (received secondGapServer true) m.seq := by
  have hcut : (received secondGapServer true).filter (fun m => m.seq ≠ 2 ∧ m.seq ≠ 5) =
      gotBefore ++ [⟨true, 6, .notStateBearing⟩] := rfl
  refine ⟨rfl, ⟨true, 6, .notStateBearing⟩, hcut ▸ List.filter_sublist, rfl, rfl, fun h => ?_⟩
  have hcount := congrArg ClientModel.attachedClientCount h
  revert hcount
  decide

end TmuxccDriver.Client
