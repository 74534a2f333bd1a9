import Mathlib.Data.Finset.Basic
import TmuxccDriver.Lib.KeyedMap
import TmuxccDriver.Lib.Run
import TmuxccDriver.Protocol.SessionProxyControl

/-!
# Flow controller

`runtime/flow-control.ts`: for every pane and every registered client the controller counts
the bytes that were credited by `onPaneBytes` and not debited by `noteDrained`. The largest
count of a pane drives its pause and its resume.

Results:
1. `subBuffered_credit`, `subBuffered_clampTo`: what the two loops over the clients do.
2. `onPaneBytes_cases`, `noteDrained_cases`: everything these operations may do.
3. `Regular`: the invariant of the ledger.
-/

namespace TmuxccDriver.Runtime
open TmuxccDriver.Lib TmuxccDriver.Protocol

variable {T : Type} [DecidableEq T]

/-! ## State -/

def DEFAULT_HIGH_WATER_BYTES : Nat := 262144

def DEFAULT_LOW_WATER_BYTES : Nat := 65536

/-- The sub-ledgers of one pane: the backlog of each client. -/
abbrev SubLedgers (T : Type) := KeyedMap (Prod.fst : T × Nat → T)

/-- The fields of `FlowController`; the constructor throws unless the thresholds are in
order. A pane without sub-ledgers has the empty map. -/
structure FlowController (T : Type) where
  highWater : Nat
  lowWater : Nat
  lowWater_lt : lowWater < highWater
  buffered : PaneId → SubLedgers T
  clients : OrderedSet T
  paused : OrderedSet PaneId

/-- What `refresh-client -A` sets a pane to: `pause` and `continue`. -/
inductive PaneFlowState
  | pause
  | resume
deriving DecidableEq, Repr

/-- What the controller does to others: the gate of the demux, the command to tmux, and the
hook for a credit that exceeds its ledger. -/
inductive FlowEffect
  | pausePane (paneId : PaneId)
  | resumePane (paneId : PaneId)
  | sendFlowCommand (paneId : PaneId) (state : PaneFlowState)
  | drainClamped (paneId : PaneId) (excessBytes : Nat)
deriving DecidableEq, Repr

def createFlowController (highWater lowWater : Nat) (h : lowWater < highWater) :
    FlowController T where
  highWater
  lowWater
  lowWater_lt := h
  buffered := fun _ => KeyedMap.empty
  clients := KeyedMap.empty
  paused := KeyedMap.empty

namespace SubLedgers

/-- `inner.get(clientKey) ?? 0`. -/
def count (inner : SubLedgers T) (clientKey : T) : Nat := ((inner.get? clientKey).map (·.2)).getD 0

/-- The loop of `onPaneBytes` that credits every client. -/
def credit (inner : SubLedgers T) (clients : List T) (byteCount : Nat) : SubLedgers T :=
  clients.foldl (fun inner c => inner.set (c, inner.count c + byteCount)) inner

/-- The loop of `onPaneBytes` that cuts every client's backlog. -/
def clampTo (inner : SubLedgers T) (clients : List T) (highWater : Nat) : SubLedgers T :=
  clients.foldl (fun inner c =>
    if inner.count c > highWater then inner.set (c, highWater) else inner) inner

/-- `_maxBuffered`. -/
def maxBuffered (inner : SubLedgers T) : Nat :=
  inner.values.foldl (fun max entry => if entry.2 > max then entry.2 else max) 0

end SubLedgers

namespace FlowController

def setInner (fc : FlowController T) (paneId : PaneId) (inner : SubLedgers T) : FlowController T :=
  { fc with buffered := fun p => if p = paneId then inner else fc.buffered p }

/-! ## Pause and resume -/

/-- `_pause`. -/
def pause (fc : FlowController T) (paneId : PaneId) : FlowController T × List FlowEffect :=
  ({ fc with paused := fc.paused.set paneId },
    [.pausePane paneId, .sendFlowCommand paneId .pause])

/-- `_resume`. -/
def resume (fc : FlowController T) (paneId : PaneId) : FlowController T × List FlowEffect :=
  ({ fc with paused := fc.paused.delete paneId },
    [.resumePane paneId, .sendFlowCommand paneId .resume])

/-- The test for the resume edge, and the edge. -/
def resumeIfDrained (fc : FlowController T) (paneId : PaneId) :
    FlowController T × List FlowEffect :=
  if paneId ∈ fc.paused.values ∧ (fc.buffered paneId).maxBuffered ≤ fc.lowWater then
    fc.resume paneId
  else (fc, [])

/-- The loop of `removeClient` over the panes that were paused. -/
def resumeDrained (fc : FlowController T) (pausedPanes : List PaneId) :
    FlowController T × List FlowEffect :=
  pausedPanes.foldl (fun acc paneId =>
    let (fc, effects) := acc.1.resumeIfDrained paneId
    (fc, acc.2 ++ effects)) (fc, [])

/-! ## Operations -/

def addClient (fc : FlowController T) (clientKey : T) : FlowController T :=
  { fc with clients := fc.clients.set clientKey }

def removeClient (fc : FlowController T) (clientKey : T) : FlowController T × List FlowEffect :=
  if clientKey ∉ fc.clients.values then (fc, [])
  else
    let pausedPanes := fc.paused.values
    resumeDrained { fc with
      clients := fc.clients.delete clientKey
      buffered := fun p => (fc.buffered p).delete clientKey } pausedPanes

def onPaneBytes (fc : FlowController T) (paneId : PaneId) (byteCount : Nat) :
    FlowController T × List FlowEffect :=
  if byteCount = 0 then (fc, [])
  else if paneId ∈ fc.paused.values then (fc, [])
  else if fc.clients.values.length = 0 then (fc, [])
  else
    let inner := (fc.buffered paneId).credit fc.clients.values byteCount
    let fc := fc.setInner paneId inner
    if inner.maxBuffered > fc.highWater then
      let (fc, effects) := fc.pause paneId
      (fc.setInner paneId (inner.clampTo fc.clients.values fc.highWater), effects)
    else (fc, [])

def noteDrained (fc : FlowController T) (paneId : PaneId) (byteCount : Nat) (clientKey : T) :
    FlowController T × List FlowEffect :=
  if byteCount = 0 then (fc, [])
  else
    match (fc.buffered paneId).get? clientKey with
    | none => (fc, [.drainClamped paneId byteCount])
    | some (_, prev) =>
      let clamped := if byteCount > prev then [.drainClamped paneId (byteCount - prev)] else []
      let fc := fc.setInner paneId ((fc.buffered paneId).set (clientKey, prev - byteCount))
      let (fc, effects) := fc.resumeIfDrained paneId
      (fc, clamped ++ effects)

def onPauseNotification (fc : FlowController T) (paneId : PaneId) :
    FlowController T × List FlowEffect :=
  if paneId ∉ fc.paused.values then
    ({ fc with paused := fc.paused.set paneId }, [.pausePane paneId])
  else (fc, [])

def onContinueNotification (fc : FlowController T) (paneId : PaneId) :
    FlowController T × List FlowEffect :=
  if paneId ∈ fc.paused.values then
    ({ fc with paused := fc.paused.delete paneId }, [.resumePane paneId])
  else (fc, [])

/-- The ledger of a pane and a client. -/
def subBuffered (fc : FlowController T) (paneId : PaneId) (clientKey : T) : Nat :=
  (fc.buffered paneId).count clientKey

end FlowController

/-! ## The loops -/

namespace SubLedgers

theorem count_set (inner : SubLedgers T) (c c' : T) (n : Nat) :
    count (inner.set (c, n)) c' = if c = c' then n else inner.count c' := by
  unfold count
  rw [KeyedMap.get?_set]
  split <;> rfl

theorem count_delete (inner : SubLedgers T) (c c' : T) :
    count (inner.delete c) c' = if c' = c then 0 else inner.count c' := by
  unfold count
  rw [KeyedMap.get?_delete]
  split <;> rfl

theorem count_of_not_has {inner : SubLedgers T} {c : T} (h : inner.has c = false) :
    inner.count c = 0 := by
  rw [count, KeyedMap.has_eq_false.mp h]
  rfl

theorem has_of_count {inner : SubLedgers T} {c : T} (h : 0 < inner.count c) :
    inner.has c = true := by
  rcases hhas : inner.has c with _ | _
  · rw [count_of_not_has hhas] at h
    exact absurd h (lt_irrefl 0)
  · rfl

theorem count_credit {clients : List T} (hnodup : clients.Nodup) (inner : SubLedgers T) (n : Nat)
    (c : T) : (inner.credit clients n).count c = inner.count c + if c ∈ clients then n else 0 := by
  unfold credit
  induction clients generalizing inner with
  | nil => simp
  | cons c' cs ih =>
    obtain ⟨hnot, hcs⟩ := List.nodup_cons.mp hnodup
    rw [List.foldl_cons, ih hcs, count_set]
    rcases eq_or_ne c' c with rfl | hne
    · simp [hnot]
    · simp [hne, hne.symm]

theorem has_credit {clients : List T} (inner : SubLedgers T) (n : Nat) (c : T) :
    (inner.credit clients n).has c = true ↔ inner.has c = true ∨ c ∈ clients := by
  unfold credit
  induction clients generalizing inner with
  | nil => simp
  | cons c' cs ih =>
    rw [List.foldl_cons, ih, KeyedMap.has_set]
    rcases eq_or_ne c' c with rfl | hne
    · simp
    · simp [hne, hne.symm]

theorem count_clampTo {clients : List T} (inner : SubLedgers T) (high : Nat) (c : T) :
    (inner.clampTo clients high).count c =
      if c ∈ clients then min (inner.count c) high else inner.count c := by
  unfold clampTo
  induction clients generalizing inner with
  | nil => simp
  | cons c' cs ih =>
    have hone : count (if inner.count c' > high then inner.set (c', high) else inner) c =
        if c' = c then min (inner.count c) high else inner.count c := by
      split
      · next hover =>
        rw [count_set]
        split
        · next heq => rw [← heq, min_eq_right (le_of_lt hover)]
        · rfl
      · next hunder =>
        split
        · next heq => rw [← heq, min_eq_left (not_lt.mp hunder)]
        · rfl
    rw [List.foldl_cons, ih, hone]
    rcases eq_or_ne c' c with rfl | hne
    · simp
    · simp [hne, hne.symm]

theorem has_clampTo {clients : List T} (inner : SubLedgers T) (high : Nat) {c : T}
    (h : (inner.clampTo clients high).has c = true) : inner.has c = true ∨ c ∈ clients := by
  unfold clampTo at h
  induction clients generalizing inner with
  | nil => exact .inl h
  | cons c' cs ih =>
    rw [List.foldl_cons] at h
    rcases ih _ h with hhas | hmem
    · split at hhas
      · rw [KeyedMap.has_set] at hhas
        rcases eq_or_ne c' c with rfl | hne
        · exact .inr List.mem_cons_self
        · exact .inl (by simpa [hne] using hhas)
      · exact .inl hhas
    · exact .inr (List.mem_cons_of_mem _ hmem)

theorem maxBuffered_le {inner : SubLedgers T} {k : Nat} :
    inner.maxBuffered ≤ k ↔ ∀ c, inner.count c ≤ k := by
  have hloop : ∀ (entries : List (T × Nat)) (m : Nat),
      entries.foldl (fun max entry => if entry.2 > max then entry.2 else max) m ≤ k ↔
        m ≤ k ∧ ∀ entry ∈ entries, entry.2 ≤ k := by
    intro entries
    induction entries with
    | nil => simp
    | cons entry entries ih =>
      intro m
      rw [List.foldl_cons, ih, List.forall_mem_cons]
      split
      · next hgt => exact ⟨fun h => ⟨le_trans (le_of_lt hgt) h.1, h.1, h.2⟩, fun h => h.2⟩
      · next hle =>
        have hle' : entry.2 ≤ m := not_lt.mp hle
        exact ⟨fun h => ⟨h.1, le_trans hle' h.1, h.2⟩, fun h => ⟨h.1, h.2.2⟩⟩
  rw [maxBuffered, hloop]
  constructor
  · rintro ⟨-, hall⟩ c
    unfold count
    rcases hget : inner.get? c with _ | entry
    · exact Nat.zero_le k
    · exact hall entry (KeyedMap.mem_of_get? hget)
  · intro hall
    refine ⟨Nat.zero_le k, fun entry hentry => ?_⟩
    have hcount := hall entry.1
    rwa [count, KeyedMap.get?_self hentry] at hcount

theorem lt_maxBuffered {inner : SubLedgers T} {k : Nat} :
    k < inner.maxBuffered ↔ ∃ c, k < inner.count c := by
  rw [← not_le, maxBuffered_le, not_forall]
  simp only [not_le]

end SubLedgers

namespace FlowController

@[simp] theorem subBuffered_setInner (fc : FlowController T) (p q : PaneId) (inner : SubLedgers T)
    (c : T) : (fc.setInner p inner).subBuffered q c =
      if q = p then inner.count c else fc.subBuffered q c := by
  show SubLedgers.count (if q = p then inner else fc.buffered q) c = _
  split <;> rfl

omit [DecidableEq T] in
theorem setInner_self (fc : FlowController T) (p : PaneId) :
    fc.setInner p (fc.buffered p) = fc := by
  have hsame : (fun q => if q = p then fc.buffered p else fc.buffered q) = fc.buffered := by
    funext q
    split
    · next hq => rw [hq]
    · rfl
  unfold setInner
  rw [hsame]

omit [DecidableEq T] in
theorem nodup_clients (fc : FlowController T) : fc.clients.values.Nodup := by
  simpa using fc.clients.nodup

end FlowController

/-! ## Gates -/

/-- What an effect does to the set of gated panes of the demux. -/
def FlowEffect.gate (gated : Finset PaneId) : FlowEffect → Finset PaneId
  | .pausePane p => insert p gated
  | .resumePane p => gated.erase p
  | _ => gated

/-- A credit exceeded its ledger. -/
def Clamps (effects : List FlowEffect) : Prop := ∃ p n, .drainClamped p n ∈ effects

namespace FlowController

/-- The effects keep the gated panes of the demux the same as the paused ones. -/
def Gates (fc fc' : FlowController T) (effects : List FlowEffect) : Prop :=
  ∀ gated : Finset PaneId, (∀ p, p ∈ fc.paused.values ↔ p ∈ gated) →
    ∀ p, p ∈ fc'.paused.values ↔ p ∈ effects.foldl FlowEffect.gate gated

omit [DecidableEq T] in
theorem Gates.refl {fc fc' : FlowController T} (h : fc'.paused = fc.paused) : Gates fc fc' [] := by
  intro gated hgated p
  rw [h]
  exact hgated p

omit [DecidableEq T] in
theorem Gates.append {fc fc' fc'' : FlowController T} {effects effects' : List FlowEffect}
    (h : Gates fc fc' effects) (h' : Gates fc' fc'' effects') :
    Gates fc fc'' (effects ++ effects') := by
  intro gated hgated p
  rw [List.foldl_append]
  exact h' _ (h gated hgated) p

omit [DecidableEq T] in
theorem gates_pause (fc : FlowController T) (q : PaneId) :
    Gates fc (fc.pause q).1 (fc.pause q).2 := by
  intro gated hgated p
  show p ∈ (fc.paused.set q).values ↔ p ∈ insert q gated
  rw [OrderedSet.mem_set, Finset.mem_insert, hgated]

omit [DecidableEq T] in
theorem gates_resume (fc : FlowController T) (q : PaneId) :
    Gates fc (fc.resume q).1 (fc.resume q).2 := by
  intro gated hgated p
  show p ∈ (fc.paused.delete q).values ↔ p ∈ gated.erase q
  rw [OrderedSet.mem_delete, Finset.mem_erase, hgated, and_comm]

/-! ## What an operation may do -/

/-- The outcome of the resume edge for some panes. -/
structure Resumes (fc : FlowController T) (panes : List PaneId)
    (out : FlowController T × List FlowEffect) : Prop where
  frame : ∃ paused, out.1 = { fc with paused := paused }
  /-- Of these panes, exactly those stay paused that have a backlog above low water. -/
  paused_iff : ∀ p, p ∈ out.1.paused.values ↔ p ∈ fc.paused.values ∧
    (p ∈ panes → ∃ c, fc.lowWater < fc.subBuffered p c)
  gates : Gates fc out.1 out.2
  quiet : ¬Clamps out.2

theorem resumes_one (fc : FlowController T) (q : PaneId) :
    fc.Resumes [q] (fc.resumeIfDrained q) := by
  unfold resumeIfDrained
  split
  · next hdrained =>
    have hnone : ¬∃ c, fc.lowWater < fc.subBuffered q c :=
      fun ⟨c, hc⟩ => absurd (SubLedgers.maxBuffered_le.mp hdrained.2 c) (not_le.mpr hc)
    refine ⟨⟨_, rfl⟩, fun p => ?_, fc.gates_resume q, ?_⟩
    · show p ∈ (fc.paused.delete q).values ↔ _
      rw [OrderedSet.mem_delete, List.mem_singleton]
      refine and_congr_right fun _ => ⟨fun hne heq => absurd heq hne, fun himp heq => ?_⟩
      subst heq
      exact hnone (himp rfl)
    · rintro ⟨p, n, hmem⟩
      simp [resume] at hmem
  · next hkept =>
    refine ⟨⟨_, rfl⟩, fun p => ⟨fun hp => ⟨hp, fun hq => ?_⟩, fun hp => hp.1⟩, Gates.refl rfl, ?_⟩
    · cases List.mem_singleton.mp hq
      exact SubLedgers.lt_maxBuffered.mp (not_le.mp fun hle => hkept ⟨hp, hle⟩)
    · rintro ⟨p, n, hmem⟩
      cases hmem

theorem resumes_all (fc : FlowController T) (panes : List PaneId) :
    fc.Resumes panes (fc.resumeDrained panes) := by
  refine foldl_done (P := fun done out => fc.Resumes done out)
    ⟨⟨_, rfl⟩, fun p => by simp, Gates.refl rfl, fun ⟨_, _, hmem⟩ => by cases hmem⟩ ?_
  rintro done q out - hout
  obtain ⟨paused, hframe⟩ := hout.frame
  have hone := resumes_one out.1 q
  obtain ⟨paused', hframe'⟩ := hone.frame
  have hsame : ∀ p, (∃ c, out.1.lowWater < out.1.subBuffered p c) ↔
      ∃ c, fc.lowWater < fc.subBuffered p c := by
    intro p
    rw [hframe]
    rfl
  refine ⟨⟨paused', hframe'.trans (by rw [hframe])⟩, fun p => ?_, hout.gates.append hone.gates, ?_⟩
  · refine (hone.paused_iff p).trans ?_
    rw [hout.paused_iff, hsame, List.mem_append, and_assoc, or_imp]
  · rintro ⟨p, n, hmem⟩
    rcases List.mem_append.mp hmem with hold | hnew
    · exact hout.quiet ⟨p, n, hold⟩
    · exact hone.quiet ⟨p, n, hnew⟩

/-- The sub-ledgers of a pane after every client is credited. -/
def credited (fc : FlowController T) (p : PaneId) (n : Nat) : SubLedgers T :=
  (fc.buffered p).credit fc.clients.values n

theorem count_credited (fc : FlowController T) (p : PaneId) (n : Nat) (c : T) :
    (fc.credited p n).count c = fc.subBuffered p c + if c ∈ fc.clients.values then n else 0 :=
  SubLedgers.count_credit fc.nodup_clients _ n c

/-- Nothing is counted, or every client is credited, or the pane is paused and no backlog
stays above high water. -/
theorem onPaneBytes_cases (fc : FlowController T) (p : PaneId) (n : Nat) :
    fc.onPaneBytes p n = (fc, []) ∧ (n = 0 ∨ p ∈ fc.paused.values ∨ fc.clients.values = []) ∨
    0 < n ∧ p ∉ fc.paused.values ∧ fc.clients.values ≠ [] ∧
      ((fc.onPaneBytes p n = (fc.setInner p (fc.credited p n), []) ∧
          ∀ c, (fc.credited p n).count c ≤ fc.highWater) ∨
        fc.onPaneBytes p n = (((fc.setInner p (fc.credited p n)).pause p).1.setInner p
            ((fc.credited p n).clampTo fc.clients.values fc.highWater), (fc.pause p).2) ∧
          ∃ c, fc.highWater < (fc.credited p n).count c) := by
  unfold onPaneBytes
  split
  · next hzero => exact .inl ⟨rfl, .inl hzero⟩
  · next hpos =>
    split
    · next hpaused => exact .inl ⟨rfl, .inr (.inl hpaused)⟩
    · next hpaused =>
      split
      · next hnone => exact .inl ⟨rfl, .inr (.inr (List.length_eq_zero_iff.mp hnone))⟩
      · next hsome =>
        refine .inr ⟨Nat.pos_of_ne_zero hpos, hpaused,
          fun hnil => hsome (List.length_eq_zero_iff.mpr hnil), ?_⟩
        dsimp only
        split
        · next hover => exact .inr ⟨rfl, SubLedgers.lt_maxBuffered.mp hover⟩
        · next hunder => exact .inl ⟨rfl, SubLedgers.maxBuffered_le.mp (not_lt.mp hunder)⟩

/-- The ledgers after a debit, before the resume edge. -/
def debited (fc : FlowController T) (p : PaneId) (n : Nat) (c : T) : FlowController T :=
  fc.setInner p ((fc.buffered p).set (c, fc.subBuffered p c - n))

theorem subBuffered_debited (fc : FlowController T) (p q : PaneId) (n : Nat) (c c' : T) :
    (fc.debited p n c).subBuffered q c' =
      if q = p ∧ c = c' then fc.subBuffered p c - n else fc.subBuffered q c' := by
  rw [debited, subBuffered_setInner]
  split
  · next hq =>
    subst hq
    rw [SubLedgers.count_set]
    simp only [true_and]
    rfl
  · next hq => rw [if_neg fun h => hq h.1]

theorem subBuffered_of_get? {fc : FlowController T} {p : PaneId} {c : T} {entry : T × Nat}
    (h : (fc.buffered p).get? c = some entry) : fc.subBuffered p c = entry.2 := by
  unfold subBuffered SubLedgers.count
  rw [h]
  rfl

/-- A credit that its ledger covers. -/
theorem noteDrained_of_le (fc : FlowController T) {p : PaneId} {n : Nat} {c : T} (hn : 0 < n)
    (h : n ≤ fc.subBuffered p c) :
    fc.noteDrained p n c = (fc.debited p n c).resumeIfDrained p := by
  unfold noteDrained
  rw [if_neg hn.ne']
  split
  · next hnone =>
    have hzero : fc.subBuffered p c = 0 :=
      SubLedgers.count_of_not_has (KeyedMap.has_eq_false.mpr hnone)
    exact absurd (hn.trans_le h) (by rw [hzero]; exact lt_irrefl 0)
  · next c' prev hsome =>
    have hprev : fc.subBuffered p c = prev := subBuffered_of_get? hsome
    have hle : ¬n > prev := not_lt.mpr (hprev ▸ h)
    dsimp only
    rw [if_neg hle, debited, hprev, List.nil_append]

/-- A credit that exceeds its ledger. -/
theorem noteDrained_of_lt (fc : FlowController T) {p : PaneId} {n : Nat} {c : T}
    (h : fc.subBuffered p c < n) : Clamps (fc.noteDrained p n c).2 := by
  unfold noteDrained
  rw [if_neg (Nat.zero_le _ |>.trans_lt h).ne']
  split
  · exact ⟨p, n, List.mem_singleton_self _⟩
  · next c' prev hsome =>
    have hprev : fc.subBuffered p c = prev := subBuffered_of_get? hsome
    have hgt : n > prev := hprev ▸ h
    dsimp only
    rw [if_pos hgt]
    exact ⟨p, n - prev, List.mem_append_left _ (List.mem_singleton_self _)⟩

/-- A credit, covered or not: the other ledgers and the clients stay. -/
theorem noteDrained_frame (fc : FlowController T) (p : PaneId) (n : Nat) (c : T) :
    ∃ inner paused, (fc.noteDrained p n c).1 = { fc.setInner p inner with paused := paused } ∧
      ∀ c', c' ≠ c → inner.count c' = fc.subBuffered p c' := by
  unfold noteDrained
  split
  · exact ⟨fc.buffered p, fc.paused, (fc.setInner_self p).symm, fun _ _ => rfl⟩
  · split
    · exact ⟨fc.buffered p, fc.paused, (fc.setInner_self p).symm, fun _ _ => rfl⟩
    · next c₀ prev hsome =>
      obtain ⟨paused, hframe⟩ := (resumes_one
        (fc.setInner p ((fc.buffered p).set (c, prev - n))) p).frame
      refine ⟨(fc.buffered p).set (c, prev - n), paused, hframe, fun c' hne => ?_⟩
      rw [SubLedgers.count_set, if_neg hne.symm]
      rfl

theorem onPaneBytes_clients (fc : FlowController T) (p : PaneId) (n : Nat) :
    (fc.onPaneBytes p n).1.clients = fc.clients := by
  rcases fc.onPaneBytes_cases p n with ⟨hout, -⟩ | ⟨-, -, -, ⟨hout, -⟩ | ⟨hout, -⟩⟩ <;>
    rw [hout] <;> rfl

/-! ## Gates after each operation -/

theorem gates_onPaneBytes (fc : FlowController T) (p : PaneId) (n : Nat) :
    Gates fc (fc.onPaneBytes p n).1 (fc.onPaneBytes p n).2 := by
  rcases fc.onPaneBytes_cases p n with ⟨hout, -⟩ | ⟨-, -, -, ⟨hout, -⟩ | ⟨hout, -⟩⟩
  · rw [hout]
    exact Gates.refl rfl
  · rw [hout]
    exact Gates.refl rfl
  · rw [hout]
    exact gates_pause (fc.setInner p (fc.credited p n)) p

theorem quiet_onPaneBytes (fc : FlowController T) (p : PaneId) (n : Nat) :
    ¬Clamps (fc.onPaneBytes p n).2 := by
  rintro ⟨q, m, hmem⟩
  rcases fc.onPaneBytes_cases p n with ⟨hout, -⟩ | ⟨-, -, -, ⟨hout, -⟩ | ⟨hout, -⟩⟩ <;>
    rw [hout] at hmem
  · cases hmem
  · cases hmem
  · simp [pause] at hmem

theorem gates_noteDrained (fc : FlowController T) (p : PaneId) (n : Nat) (c : T) :
    Gates fc (fc.noteDrained p n c).1 (fc.noteDrained p n c).2 := by
  unfold noteDrained
  split
  · exact Gates.refl rfl
  · split
    · exact fun gated hgated q => hgated q
    · next c₀ prev _ =>
      have hresume := (resumes_one (fc.setInner p ((fc.buffered p).set (c, prev - n))) p).gates
      refine Gates.append ?_ hresume
      split
      · exact fun gated hgated q => hgated q
      · exact Gates.refl rfl

theorem gates_removeClient (fc : FlowController T) (c : T) :
    Gates fc (fc.removeClient c).1 (fc.removeClient c).2 ∧ ¬Clamps (fc.removeClient c).2 := by
  unfold removeClient
  split
  · exact ⟨Gates.refl rfl, fun ⟨_, _, hmem⟩ => by cases hmem⟩
  · have hout := resumes_all { fc with
      clients := fc.clients.delete c
      buffered := fun p => (fc.buffered p).delete c } fc.paused.values
    exact ⟨hout.gates, hout.quiet⟩

/-- The other ledgers stay when a client leaves. -/
theorem removeClient_frame (fc : FlowController T) {c : T} (hc : c ∈ fc.clients.values) :
    ∃ paused, (fc.removeClient c).1 = { fc with
      clients := fc.clients.delete c
      buffered := fun p => (fc.buffered p).delete c
      paused := paused } := by
  unfold removeClient
  rw [if_neg (not_not.mpr hc)]
  exact (resumes_all _ _).frame

omit [DecidableEq T] in
/-- The notifications of tmux move the gate as they move the paused set. -/
theorem gates_onPauseNotification (fc : FlowController T) (p : PaneId) :
    Gates fc (fc.onPauseNotification p).1 (fc.onPauseNotification p).2 ∧
      ¬Clamps (fc.onPauseNotification p).2 := by
  unfold onPauseNotification
  split
  · exact ⟨fc.gates_pause p, fun ⟨q, n, hmem⟩ => by simp at hmem⟩
  · exact ⟨Gates.refl rfl, fun ⟨_, _, hmem⟩ => by cases hmem⟩

omit [DecidableEq T] in
theorem gates_onContinueNotification (fc : FlowController T) (p : PaneId) :
    Gates fc (fc.onContinueNotification p).1 (fc.onContinueNotification p).2 ∧
      ¬Clamps (fc.onContinueNotification p).2 := by
  unfold onContinueNotification
  split
  · exact ⟨fc.gates_resume p, fun ⟨q, n, hmem⟩ => by simp at hmem⟩
  · exact ⟨Gates.refl rfl, fun ⟨_, _, hmem⟩ => by cases hmem⟩

/-! ## Regular ledgers -/

/-- The ledgers have registered keys and never exceed high water; a pane that is paused, and
not held so by tmux, has a backlog above low water. -/
structure Regular (held : Finset PaneId) (fc : FlowController T) : Prop where
  keys : ∀ p c, (fc.buffered p).has c = true → c ∈ fc.clients.values
  bounded : ∀ p c, fc.subBuffered p c ≤ fc.highWater
  paused_high : ∀ p ∈ fc.paused.values, p ∉ held → ∃ c, fc.lowWater < fc.subBuffered p c

theorem Regular.client_of_pos {fc : FlowController T} {held : Finset PaneId}
    (h : fc.Regular held) {p : PaneId} {c : T}
    (hpos : 0 < fc.subBuffered p c) : c ∈ fc.clients.values :=
  h.keys p c (SubLedgers.has_of_count hpos)

theorem regular_create (highWater lowWater : Nat) (h : lowWater < highWater) :
    (createFlowController highWater lowWater h : FlowController T).Regular ∅ where
  keys := fun _ _ hhas => by cases hhas
  bounded := fun _ _ => Nat.zero_le _
  paused_high := fun _ hp => absurd hp List.not_mem_nil

theorem Regular.addClient {fc : FlowController T} {held : Finset PaneId} (h : fc.Regular held)
    (c : T) : (fc.addClient c).Regular held :=
  { h with keys := fun p c' hhas => OrderedSet.mem_set.mpr (.inr (h.keys p c' hhas)) }

/-- The resume edge restores the bound from below for the panes it looks at. -/
theorem Regular.resumes {fc : FlowController T} {held : Finset PaneId} {panes : List PaneId}
    {out : FlowController T × List FlowEffect} (hout : fc.Resumes panes out)
    (keys : ∀ p c, (fc.buffered p).has c = true → c ∈ fc.clients.values)
    (bounded : ∀ p c, fc.subBuffered p c ≤ fc.highWater)
    (hother : ∀ p ∈ fc.paused.values, p ∉ held → p ∉ panes →
      ∃ c, fc.lowWater < fc.subBuffered p c) : out.1.Regular held := by
  obtain ⟨paused, hframe⟩ := hout.frame
  have hpaused := hout.paused_iff
  rw [hframe] at hpaused ⊢
  refine ⟨keys, bounded, fun p hp hheld => ?_⟩
  obtain ⟨hold, hhigh⟩ := (hpaused p).mp hp
  by_cases hmem : p ∈ panes
  · exact hhigh hmem
  · exact hother p hold hheld hmem

theorem Regular.removeClient {fc : FlowController T} {held : Finset PaneId} (h : fc.Regular held)
    (c : T) : (fc.removeClient c).1.Regular held := by
  unfold FlowController.removeClient
  split
  · exact h
  · refine Regular.resumes (resumes_all _ _) (fun p c' hhas => ?_) (fun p c' => ?_)
      fun p hp _ hnot => absurd hp hnot
    · rw [KeyedMap.has, KeyedMap.get?_delete] at hhas
      split at hhas
      · cases hhas
      · next hne => exact OrderedSet.mem_delete.mpr ⟨h.keys p c' hhas, hne⟩
    · show SubLedgers.count ((fc.buffered p).delete c) c' ≤ fc.highWater
      rw [SubLedgers.count_delete]
      split
      · exact Nat.zero_le _
      · exact h.bounded p c'

/-- A pane that is not paused is not held either when its output pauses it. -/
theorem Regular.onPaneBytes {fc : FlowController T} {held : Finset PaneId} (h : fc.Regular held)
    (p : PaneId) (n : Nat) : (fc.onPaneBytes p n).1.Regular
      (if p ∈ fc.paused.values then held else held.erase p) := by
  have hcredited : ∀ c, (fc.credited p n).has c = true → c ∈ fc.clients.values := by
    intro c hhas
    rcases (SubLedgers.has_credit _ n c).mp hhas with hold | hnew
    · exact h.keys p c hold
    · exact hnew
  have hheld : ∀ q ∈ fc.paused.values,
      q ∉ (if p ∈ fc.paused.values then held else held.erase p) → q ∉ held := by
    intro q hq hnot
    split at hnot
    · exact hnot
    · next hp => exact fun hmem => hnot (Finset.mem_erase.mpr ⟨fun heq => hp (heq ▸ hq), hmem⟩)
  -- skipped, credited, or clamped at the high water mark
  rcases fc.onPaneBytes_cases p n with ⟨hout, -⟩ | ⟨-, hpaused, -, ⟨hout, hle⟩ | ⟨hout, c₀, hover⟩⟩
  · rw [hout]
    exact { h with paused_high := fun q hq hnot => h.paused_high q hq (hheld q hq hnot) }
  · rw [hout]
    refine ⟨fun q c hhas => ?_, fun q c => ?_, fun q hq hnot => ?_⟩
    · have hhas' : KeyedMap.has (if q = p then fc.credited p n else fc.buffered q) c = true := hhas
      split at hhas'
      · exact hcredited c hhas'
      · exact h.keys q c hhas'
    · rw [subBuffered_setInner]
      split
      · exact hle c
      · exact h.bounded q c
    · obtain ⟨c, hc⟩ := h.paused_high q hq (hheld q hq hnot)
      refine ⟨c, ?_⟩
      rw [subBuffered_setInner, if_neg fun heq : q = p => hpaused (heq ▸ hq)]
      exact hc
  · rw [hout]
    have hclient : ∀ c, fc.highWater < (fc.credited p n).count c → c ∈ fc.clients.values :=
      fun c hc => hcredited c (SubLedgers.has_of_count (Nat.zero_lt_of_lt hc))
    have hcount : ∀ c, ((fc.credited p n).clampTo fc.clients.values fc.highWater).count c =
        min ((fc.credited p n).count c) fc.highWater := by
      intro c
      rw [SubLedgers.count_clampTo]
      split
      · rfl
      · next hnot => exact (min_eq_left (not_lt.mp fun hc => hnot (hclient c hc))).symm
    refine ⟨fun q c hhas => ?_, fun q c => ?_, fun q hq hnot => ?_⟩
    · have hhas' : KeyedMap.has (if q = p then
          (fc.credited p n).clampTo fc.clients.values fc.highWater
        else if q = p then fc.credited p n else fc.buffered q) c = true := hhas
      split at hhas'
      · rcases SubLedgers.has_clampTo _ _ hhas' with hhas' | hmem
        · exact hcredited c hhas'
        · exact hmem
      · exact h.keys q c hhas'
    · rw [subBuffered_setInner]
      split
      · rw [hcount]
        exact min_le_right _ _
      · next hq =>
        show (fc.setInner p (fc.credited p n)).subBuffered q c ≤ fc.highWater
        rw [subBuffered_setInner, if_neg hq]
        exact h.bounded q c
    · rcases OrderedSet.mem_set.mp hq with rfl | hold
      · refine ⟨c₀, ?_⟩
        rw [subBuffered_setInner, if_pos rfl, hcount, min_eq_right (le_of_lt hover)]
        exact fc.lowWater_lt
      · obtain ⟨c, hc⟩ := h.paused_high q hold (hheld q hold hnot)
        have hne : q ≠ p := fun heq => hpaused (heq ▸ hold)
        refine ⟨c, ?_⟩
        rw [subBuffered_setInner, if_neg hne]
        show fc.lowWater < (fc.setInner p (fc.credited p n)).subBuffered q c
        rw [subBuffered_setInner, if_neg hne]
        exact hc

theorem Regular.noteDrained {fc : FlowController T} {held : Finset PaneId} (h : fc.Regular held)
    (p : PaneId) (n : Nat) (c : T) : (fc.noteDrained p n c).1.Regular held := by
  unfold FlowController.noteDrained
  split
  · exact h
  · split
    · exact h
    · next c₀ prev hsome =>
      have hprev : prev ≤ fc.highWater := (subBuffered_of_get? hsome).symm.trans_le (h.bounded p c)
      show ((fc.setInner p ((fc.buffered p).set (c, prev - n))).resumeIfDrained p).1.Regular
        held
      refine Regular.resumes (resumes_one _ p) (fun q c' hhas => ?_) (fun q c' => ?_)
        fun q hq hheld hnot => ?_
      · have hhas' : KeyedMap.has (if q = p then (fc.buffered p).set (c, prev - n)
            else fc.buffered q) c' = true := hhas
        split at hhas'
        · rw [KeyedMap.has_set] at hhas'
          rcases eq_or_ne c c' with rfl | hne
          · exact h.keys p c (KeyedMap.has_iff.mpr ⟨_, hsome⟩)
          · exact h.keys p c' (by simpa [hne] using hhas')
        · exact h.keys q c' hhas'
      · rw [subBuffered_setInner, SubLedgers.count_set]
        split
        · split
          · exact (Nat.sub_le _ _).trans hprev
          · exact h.bounded p c'
        · exact h.bounded q c'
      · obtain ⟨c', hc'⟩ := h.paused_high q hq hheld
        refine ⟨c', ?_⟩
        rw [subBuffered_setInner, if_neg fun heq => hnot (List.mem_singleton.mpr heq)]
        exact hc'

theorem Regular.onPauseNotification {fc : FlowController T} {held : Finset PaneId}
    (h : fc.Regular held) (p : PaneId) : (fc.onPauseNotification p).1.Regular
      (if p ∈ fc.paused.values then held else insert p held) := by
  unfold FlowController.onPauseNotification
  by_cases hpaused : p ∈ fc.paused.values
  · rw [if_neg (not_not.mpr hpaused), if_pos hpaused]
    exact h
  · rw [if_pos hpaused, if_neg hpaused]
    refine { h with paused_high := fun q hq hnot => ?_ }
    rw [Finset.mem_insert, not_or] at hnot
    exact h.paused_high q ((OrderedSet.mem_set.mp hq).resolve_left hnot.1) hnot.2

theorem Regular.onContinueNotification {fc : FlowController T} {held : Finset PaneId}
    (h : fc.Regular held) (p : PaneId) : (fc.onContinueNotification p).1.Regular held := by
  unfold FlowController.onContinueNotification
  split
  · exact { h with paused_high := fun q hq => h.paused_high q (OrderedSet.mem_delete.mp hq).1 }
  · exact h

end FlowController

end TmuxccDriver.Runtime
