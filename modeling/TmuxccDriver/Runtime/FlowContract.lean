import Mathlib.Data.List.Chain
import TmuxccDriver.Runtime.FlowController

/-!
# The contract of the flow controller

`runtime/flow-control.ts` states what it promises in FC-1 to FC-6: a pause at the upward
crossing of high water, a resume when the largest backlog of a pane that was paused for its
backlog falls to low water, and no other command. The controller keeps one set of paused
panes and does not record who paused them: it resumes a pane that tmux has paused, and a
`%continue` of tmux ends a pause of its own without a command.

Results:
1. `flowCommands_resumeEffects`, `resumeDrained_effects`: the commands of the resume edge.
2. `Orderly`: the invariant of a run in which neither happens.
3. `contract_iff`: a call fulfils the contract exactly if neither happens in it.
4. `flow_contract_iff`: the same for every run.
-/

namespace TmuxccDriver.Runtime
open TmuxccDriver.Lib TmuxccDriver.Protocol FlowController

variable {T : Type} [DecidableEq T]

/-! ## Calls -/

/-- The calls of the pipeline and the serve layer, and the notifications of tmux;
`onExtendedOutput` is `onPaneBytes`. -/
inductive FlowCall (T : Type)
  | addClient (clientKey : T)
  | removeClient (clientKey : T)
  | onPaneBytes (paneId : PaneId) (byteCount : Nat)
  | noteDrained (paneId : PaneId) (byteCount : Nat) (clientKey : T)
  | onPauseNotification (paneId : PaneId)
  | onContinueNotification (paneId : PaneId)
deriving DecidableEq, Repr

def FlowCall.apply (fc : FlowController T) : FlowCall T → FlowController T × List FlowEffect
  | .addClient clientKey => (fc.addClient clientKey, [])
  | .removeClient clientKey => fc.removeClient clientKey
  | .onPaneBytes paneId byteCount => fc.onPaneBytes paneId byteCount
  | .noteDrained paneId byteCount clientKey => fc.noteDrained paneId byteCount clientKey
  | .onPauseNotification paneId => fc.onPauseNotification paneId
  | .onContinueNotification paneId => fc.onContinueNotification paneId

/-- `bufferedBytes`. -/
def FlowController.bufferedBytes (fc : FlowController T) (paneId : PaneId) : Nat :=
  (fc.buffered paneId).maxBuffered

/-- The controller without a client, before the resume edge. -/
def FlowController.departed (fc : FlowController T) (clientKey : T) : FlowController T :=
  { fc with
    clients := fc.clients.delete clientKey
    buffered := fun p => (fc.buffered p).delete clientKey }

/-- The commands that some effects send for a pane. -/
def flowCommands (paneId : PaneId) (effects : List FlowEffect) : List PaneFlowState :=
  effects.filterMap fun
    | .sendFlowCommand p state => if p = paneId then some state else none
    | _ => none

/-- What an effect does to the panes that are paused for their backlog. -/
def FlowEffect.backlog (panes : Finset PaneId) : FlowEffect → Finset PaneId
  | .sendFlowCommand p .pause => insert p panes
  | .resumePane p => panes.erase p
  | _ => panes

/-- The controller, and all it has done so far. -/
structure FlowHistory (T : Type) where
  fc : FlowController T
  effects : List FlowEffect

namespace FlowHistory

def create (highWater lowWater : Nat) (h : lowWater < highWater) : FlowHistory T :=
  ⟨createFlowController highWater lowWater h, []⟩

def after (s : FlowHistory T) (call : FlowCall T) : FlowHistory T :=
  ⟨(call.apply s.fc).1, s.effects ++ (call.apply s.fc).2⟩

def step (s : FlowHistory T) (call : FlowCall T) : Option (FlowHistory T) := some (s.after call)

/-- The panes whose fan-out the demux holds back. -/
def gated (s : FlowHistory T) : Finset PaneId := s.effects.foldl FlowEffect.gate ∅

/-- The panes that are paused for their backlog. -/
def backlogged (s : FlowHistory T) : Finset PaneId := s.effects.foldl FlowEffect.backlog ∅

def commands (s : FlowHistory T) (paneId : PaneId) : List PaneFlowState :=
  flowCommands paneId s.effects

/-! ## The contract -/

/-- What the controller promises of a call. -/
structure Contract (s : FlowHistory T) (call : FlowCall T) : Prop where
  /-- The keys of the ledger are registered clients. -/
  ledger : ∀ p c, ((s.after call).fc.buffered p).has c = true →
    c ∈ (s.after call).fc.clients.values
  /-- A pause is sent when the largest backlog of a pane that is not paused crosses high water. -/
  pause_edge : ∀ p, .sendFlowCommand p .pause ∈ (call.apply s.fc).2 ↔
    p ∉ s.fc.paused.values ∧ s.fc.bufferedBytes p ≤ s.fc.highWater ∧
      ∃ n, call = .onPaneBytes p n ∧
        ∃ c ∈ s.fc.clients.values, s.fc.highWater < s.fc.subBuffered p c + n
  /-- A continue is sent when the largest backlog of a pane that is paused for its backlog
  falls to low water. -/
  resume_edge : ∀ p, .sendFlowCommand p .resume ∈ (call.apply s.fc).2 ↔
    p ∈ s.backlogged ∧ s.fc.lowWater < s.fc.bufferedBytes p ∧
      (s.after call).fc.bufferedBytes p ≤ s.fc.lowWater
  /-- The commands for a pane begin with a pause and alternate. -/
  alternate : ∀ p, (PaneFlowState.resume :: (s.after call).commands p).IsChain (· ≠ ·)
  gate : ∀ p, p ∈ (s.after call).gated ↔ p ∈ (s.after call).fc.paused.values
  detached : (s.after call).fc.clients.values = [] → (s.after call).backlogged = ∅

/-- No command is sent because of a pause that tmux began, or after one that tmux ended:
no drain and no departure leaves a pane that tmux paused with a backlog that is low, and
no output takes a pane over high water whose last command was a pause. -/
def Unmixed (s : FlowHistory T) : FlowCall T → Prop
  | .removeClient c => c ∈ s.fc.clients.values → ∀ p ∈ s.fc.paused.values, p ∉ s.backlogged →
      s.fc.lowWater < (s.fc.departed c).bufferedBytes p
  | .onPaneBytes p n => p ∉ s.fc.paused.values → (s.commands p).getLast? = some .pause →
      ∀ c ∈ s.fc.clients.values, s.fc.subBuffered p c + n ≤ s.fc.highWater
  | .noteDrained p n c => p ∈ s.fc.paused.values → p ∉ s.backlogged → 0 < n →
      (s.fc.buffered p).has c = true → s.fc.lowWater < (s.fc.debited p n c).bufferedBytes p
  | _ => True

instance (s : FlowHistory T) (call : FlowCall T) : Decidable (s.Unmixed call) := by
  cases call <;> unfold Unmixed <;> infer_instance

end FlowHistory

/-! ## Effects -/

@[simp] theorem flowCommands_nil (p : PaneId) : flowCommands p [] = [] := rfl

@[simp] theorem flowCommands_append (p : PaneId) (xs ys : List FlowEffect) :
    flowCommands p (xs ++ ys) = flowCommands p xs ++ flowCommands p ys :=
  List.filterMap_append

theorem mem_flowCommands {p : PaneId} {state : PaneFlowState} {effects : List FlowEffect} :
    state ∈ flowCommands p effects ↔ .sendFlowCommand p state ∈ effects := by
  rw [flowCommands, List.mem_filterMap]
  constructor
  · rintro ⟨effect, hmem, heffect⟩
    cases effect with
    | sendFlowCommand q state' =>
      obtain ⟨rfl, rfl⟩ : q = p ∧ state' = state := by simpa using heffect
      exact hmem
    | _ => simp at heffect
  · exact fun hmem => ⟨_, hmem, if_pos rfl⟩

/-- The effects of the resume edge for some panes. -/
def resumeEffects (panes : List PaneId) : List FlowEffect :=
  panes.flatMap fun p => [.resumePane p, .sendFlowCommand p .resume]

theorem flowCommands_resumeEffects {panes : List PaneId} (hnodup : panes.Nodup) (p : PaneId) :
    flowCommands p (resumeEffects panes) = if p ∈ panes then [.resume] else [] := by
  induction panes with
  | nil => rfl
  | cons q panes ih =>
    obtain ⟨hq, hpanes⟩ := List.nodup_cons.mp hnodup
    have hcons : resumeEffects (q :: panes) =
        [.resumePane q, .sendFlowCommand q .resume] ++ resumeEffects panes := rfl
    rw [hcons, flowCommands_append, ih hpanes]
    rcases eq_or_ne q p with rfl | hne
    · simp [flowCommands, hq]
    · simp [flowCommands, hne, hne.symm]

theorem mem_backlog_resumeEffects (panes : List PaneId) (backlogged : Finset PaneId) (p : PaneId) :
    p ∈ (resumeEffects panes).foldl FlowEffect.backlog backlogged ↔
      p ∈ backlogged ∧ p ∉ panes := by
  induction panes generalizing backlogged with
  | nil => simp [resumeEffects]
  | cons q panes ih =>
    have hcons : resumeEffects (q :: panes) =
        [.resumePane q, .sendFlowCommand q .resume] ++ resumeEffects panes := rfl
    rw [hcons, List.foldl_append, ih]
    show p ∈ backlogged.erase q ∧ p ∉ panes ↔ _
    rw [Finset.mem_erase, List.mem_cons, not_or, and_assoc, and_left_comm]

namespace FlowController

/-- The test for the resume edge. -/
def Drained (fc : FlowController T) (p : PaneId) : Prop :=
  p ∈ fc.paused.values ∧ fc.bufferedBytes p ≤ fc.lowWater

instance (fc : FlowController T) (p : PaneId) : Decidable (fc.Drained p) :=
  inferInstanceAs (Decidable (_ ∧ _))

omit [DecidableEq T] in
theorem resumeDrained_effects (fc : FlowController T) {panes : List PaneId}
    (hnodup : panes.Nodup) :
    (fc.resumeDrained panes).2 = resumeEffects (panes.filter fc.Drained) := by
  suffices h : ∀ (fc : FlowController T) effects, (panes.foldl (fun acc p =>
      ((acc.1.resumeIfDrained p).1, acc.2 ++ (acc.1.resumeIfDrained p).2)) (fc, effects)).2 =
        effects ++ resumeEffects (panes.filter fc.Drained) from h fc []
  induction panes with
  | nil => exact fun fc effects => (List.append_nil effects).symm
  | cons q panes ih =>
    intro fc effects
    obtain ⟨hq, hpanes⟩ := List.nodup_cons.mp hnodup
    rw [List.foldl_cons, ih hpanes, List.filter_cons]
    by_cases hdrained : fc.Drained q
    · have hrest : panes.filter (fc.resume q).1.Drained = panes.filter fc.Drained := by
        refine List.filter_congr fun p hp => decide_eq_decide.mpr ?_
        have hne : p ≠ q := fun h => hq (h ▸ hp)
        refine and_congr_left fun _ => ?_
        show p ∈ (fc.paused.delete q).values ↔ p ∈ fc.paused.values
        rw [OrderedSet.mem_delete]
        exact and_iff_left hne
      have hone : fc.resumeIfDrained q = fc.resume q := if_pos hdrained
      rw [hone, hrest, if_pos (decide_eq_true hdrained), List.append_assoc]
      rfl
    · have hone : fc.resumeIfDrained q = (fc, []) := if_neg hdrained
      rw [hone, if_neg fun h => hdrained (of_decide_eq_true h), List.append_nil]

end FlowController

/-! ## The invariant -/

theorem FlowController.Regular.mono {fc : FlowController T} {held held' : Finset PaneId}
    (h : fc.Regular held) (hheld : ∀ p ∈ fc.paused.values, p ∉ held' → p ∉ held) :
    fc.Regular held' :=
  { h with paused_high := fun p hp hnot => h.paused_high p hp (hheld p hp hnot) }

namespace FlowHistory

variable {s : FlowHistory T}

theorem commands_after (s : FlowHistory T) (call : FlowCall T) (p : PaneId) :
    (s.after call).commands p = s.commands p ++ flowCommands p (call.apply s.fc).2 :=
  flowCommands_append p _ _

theorem backlogged_after (s : FlowHistory T) (call : FlowCall T) :
    (s.after call).backlogged = (call.apply s.fc).2.foldl FlowEffect.backlog s.backlogged :=
  List.foldl_append

theorem gated_after (s : FlowHistory T) (call : FlowCall T) :
    (s.after call).gated = (call.apply s.fc).2.foldl FlowEffect.gate s.gated :=
  List.foldl_append

/-- The pauses that stand: a pane that is paused for its backlog is paused, has a backlog
above low water, and its last command was the pause. -/
structure Orderly (s : FlowHistory T) : Prop where
  regular : s.fc.Regular (s.fc.paused.values.toFinset \ s.backlogged)
  paused : ∀ p ∈ s.backlogged, p ∈ s.fc.paused.values
  gate : ∀ p, p ∈ s.fc.paused.values ↔ p ∈ s.gated
  alternate : ∀ p, (PaneFlowState.resume :: s.commands p).IsChain (· ≠ ·)
  last : ∀ p ∈ s.backlogged, (s.commands p).getLast? = some .pause

theorem orderly_create (highWater lowWater : Nat) (h : lowWater < highWater) :
    (create highWater lowWater h : FlowHistory T).Orderly where
  regular := (regular_create highWater lowWater h).mono fun _ hp => absurd hp List.not_mem_nil
  paused := fun p hp => absurd hp (Finset.notMem_empty p)
  gate := fun p => iff_of_false List.not_mem_nil (Finset.notMem_empty p)
  alternate := fun _ => List.IsChain.singleton _
  last := fun p hp => absurd hp (Finset.notMem_empty p)

theorem Orderly.high (h : s.Orderly) {p : PaneId} (hp : p ∈ s.backlogged) :
    s.fc.lowWater < s.fc.bufferedBytes p :=
  SubLedgers.lt_maxBuffered.mpr
    (h.regular.paused_high p (h.paused p hp) fun hheld => (Finset.mem_sdiff.mp hheld).2 hp)

theorem Orderly.bounded (h : s.Orderly) (p : PaneId) : s.fc.bufferedBytes p ≤ s.fc.highWater :=
  SubLedgers.maxBuffered_le.mpr (h.regular.bounded p)

theorem gates_apply (fc : FlowController T) (call : FlowCall T) :
    Gates fc (call.apply fc).1 (call.apply fc).2 := by
  cases call with
  | addClient c => exact Gates.refl rfl
  | removeClient c => exact (fc.gates_removeClient c).1
  | onPaneBytes p n => exact fc.gates_onPaneBytes p n
  | noteDrained p n c => exact fc.gates_noteDrained p n c
  | onPauseNotification p => exact (fc.gates_onPauseNotification p).1
  | onContinueNotification p => exact (fc.gates_onContinueNotification p).1

/-- One call, with the ledgers it leaves behind. -/
theorem Orderly.next (h : s.Orderly) {call : FlowCall T} {held : Finset PaneId}
    (hregular : (call.apply s.fc).1.Regular held)
    (hbacklogged : ∀ p ∈ (s.after call).backlogged,
      p ∈ (call.apply s.fc).1.paused.values ∧ p ∉ held ∧
        ((s.after call).commands p).getLast? = some .pause)
    (halternate : ∀ p, (PaneFlowState.resume :: (s.after call).commands p).IsChain (· ≠ ·)) :
    (s.after call).Orderly where
  regular := hregular.mono fun p hp hnot =>
    (hbacklogged p (by_contra fun hout =>
      hnot (Finset.mem_sdiff.mpr ⟨List.mem_toFinset.mpr hp, hout⟩))).2.1
  paused := fun p hp => (hbacklogged p hp).1
  gate := by
    rw [gated_after]
    exact gates_apply s.fc call s.gated h.gate
  alternate := halternate
  last := fun p hp => (hbacklogged p hp).2.2

/-- With its two edges, a call that leaves an orderly state fulfils the contract. -/
theorem Orderly.contract {call : FlowCall T} (h : (s.after call).Orderly)
    (hpause : ∀ p, .sendFlowCommand p .pause ∈ (call.apply s.fc).2 ↔
      p ∉ s.fc.paused.values ∧ s.fc.bufferedBytes p ≤ s.fc.highWater ∧
        ∃ n, call = .onPaneBytes p n ∧
          ∃ c ∈ s.fc.clients.values, s.fc.highWater < s.fc.subBuffered p c + n)
    (hresume : ∀ p, .sendFlowCommand p .resume ∈ (call.apply s.fc).2 ↔
      p ∈ s.backlogged ∧ s.fc.lowWater < s.fc.bufferedBytes p ∧
        (s.after call).fc.bufferedBytes p ≤ s.fc.lowWater) : s.Contract call where
  ledger := h.regular.keys
  pause_edge := hpause
  resume_edge := hresume
  alternate := h.alternate
  gate := fun p => (h.gate p).symm
  detached := fun hnone => by
    refine Finset.eq_empty_of_forall_notMem fun p hp => ?_
    obtain ⟨c, hc⟩ := SubLedgers.lt_maxBuffered.mp (h.high hp)
    have hclient := h.regular.client_of_pos (Nat.zero_lt_of_lt hc)
    rw [hnone] at hclient
    exact List.not_mem_nil hclient

/-! ## Calls without a command -/

/-- A call that sends nothing and leaves every backlog that keeps a pane paused. -/
theorem Orderly.silent (h : s.Orderly) {call : FlowCall T} {held : Finset PaneId}
    (hregular : (call.apply s.fc).1.Regular held)
    (hsilent : ∀ p, flowCommands p (call.apply s.fc).2 = [])
    (hfewer : ∀ p ∈ (s.after call).backlogged, p ∈ s.backlogged ∧
      p ∈ (call.apply s.fc).1.paused.values ∧ p ∉ held)
    (hcross : ∀ p n, call = .onPaneBytes p n → p ∉ s.fc.paused.values →
      ∀ c ∈ s.fc.clients.values, s.fc.subBuffered p c + n ≤ s.fc.highWater)
    (hkept : ∀ p ∈ s.backlogged, s.fc.lowWater < (s.after call).fc.bufferedBytes p) :
    (s.after call).Orderly ∧ s.Contract call := by
  have hcommands : ∀ p, (s.after call).commands p = s.commands p := fun p => by
    rw [commands_after, hsilent, List.append_nil]
  have hnothing : ∀ p state, .sendFlowCommand p state ∉ (call.apply s.fc).2 := by
    intro p state hmem
    rw [← mem_flowCommands, hsilent] at hmem
    exact List.not_mem_nil hmem
  have hafter : (s.after call).Orderly := by
    refine h.next hregular (fun p hp => ?_) fun p => by rw [hcommands]; exact h.alternate p
    obtain ⟨hold, hpaused, hheld⟩ := hfewer p hp
    exact ⟨hpaused, hheld, by rw [hcommands]; exact h.last p hold⟩
  refine ⟨hafter, hafter.contract (fun p => ?_) fun p => ?_⟩
  · refine iff_of_false (hnothing p .pause) ?_
    rintro ⟨hpaused, -, n, hcall, c, hc, hover⟩
    exact absurd (hcross p n hcall hpaused c hc) (not_le.mpr hover)
  · refine iff_of_false (hnothing p .resume) ?_
    rintro ⟨hp, -, hlow⟩
    exact absurd hlow (not_le.mpr (hkept p hp))

/-! ## Calls that pause or resume -/

theorem isChain_concat {states : List PaneFlowState} {state : PaneFlowState}
    (h : (PaneFlowState.resume :: states).IsChain (· ≠ ·)) :
    (PaneFlowState.resume :: (states ++ [state])).IsChain (· ≠ ·) ↔
      states.getLast?.getD .resume ≠ state := by
  rw [← List.cons_append, List.isChain_append, List.getLast?_cons]
  simp [h]

/-- A call that counts anew and ends in the resume edge for some panes. -/
structure ResumeEdge (s : FlowHistory T) (call : FlowCall T) (fc : FlowController T)
    (panes : List PaneId) : Prop where
  nodup : panes.Nodup
  apply_eq : ∃ clamped, call.apply s.fc =
    ((fc.resumeDrained panes).1, clamped ++ (fc.resumeDrained panes).2) ∧
      ∀ effect ∈ clamped, ∃ p n, effect = .drainClamped p n
  paused : fc.paused = s.fc.paused
  lowWater : fc.lowWater = s.fc.lowWater
  others : s.Orderly → ∀ p ∉ panes, p ∈ s.backlogged →
    fc.bufferedBytes p = s.fc.bufferedBytes p
  regular : s.Orderly →
    (call.apply s.fc).1.Regular (s.fc.paused.values.toFinset \ s.backlogged)
  noOutput : ∀ p n, call ≠ .onPaneBytes p n

namespace ResumeEdge

variable {call : FlowCall T} {fc : FlowController T} {panes : List PaneId}

theorem flowCommands_eq (h : s.ResumeEdge call fc panes) (p : PaneId) :
    flowCommands p (call.apply s.fc).2 = if p ∈ panes ∧ fc.Drained p then [.resume] else [] := by
  obtain ⟨clamped, happly, hclamped⟩ := h.apply_eq
  have hquiet : flowCommands p clamped = [] := by
    refine List.filterMap_eq_nil_iff.mpr fun effect heffect => ?_
    obtain ⟨q, n, rfl⟩ := hclamped effect heffect
    rfl
  have hmem : p ∈ panes.filter fc.Drained ↔ p ∈ panes ∧ fc.Drained p := by
    rw [List.mem_filter, decide_eq_true_iff]
  rw [happly, flowCommands_append, hquiet, fc.resumeDrained_effects h.nodup,
    flowCommands_resumeEffects (h.nodup.filter _), List.nil_append]
  exact if_congr hmem rfl rfl

theorem mem_backlogged (h : s.ResumeEdge call fc panes) (p : PaneId) :
    p ∈ (s.after call).backlogged ↔ p ∈ s.backlogged ∧ ¬(p ∈ panes ∧ fc.Drained p) := by
  obtain ⟨clamped, happly, hclamped⟩ := h.apply_eq
  have hquiet : clamped.foldl FlowEffect.backlog s.backlogged = s.backlogged :=
    foldl_keeps (P := fun kept => kept = s.backlogged) rfl fun effect kept heffect hkept => by
      obtain ⟨q, n, rfl⟩ := hclamped effect heffect
      exact hkept
  rw [backlogged_after, happly, List.foldl_append, hquiet, fc.resumeDrained_effects h.nodup,
    mem_backlog_resumeEffects, List.mem_filter, decide_eq_true_iff]

theorem resume_mem (h : s.ResumeEdge call fc panes) (p : PaneId) :
    .sendFlowCommand p .resume ∈ (call.apply s.fc).2 ↔ p ∈ panes ∧ fc.Drained p := by
  rw [← mem_flowCommands, h.flowCommands_eq]
  split
  next hp => exact iff_of_true (List.mem_singleton_self _) hp
  next hp => exact iff_of_false List.not_mem_nil hp

theorem bufferedBytes_after (h : s.ResumeEdge call fc panes) (p : PaneId) :
    (s.after call).fc.bufferedBytes p = fc.bufferedBytes p := by
  obtain ⟨clamped, happly, _⟩ := h.apply_eq
  obtain ⟨paused, hframe⟩ := (resumes_all fc panes).frame
  show (call.apply s.fc).1.bufferedBytes p = _
  rw [happly, hframe]
  rfl

/-- Only panes that are paused for their backlog are resumed. -/
theorem orderly (h : s.ResumeEdge call fc panes) (hs : s.Orderly)
    (hown : ∀ p ∈ panes, fc.Drained p → p ∈ s.backlogged) : (s.after call).Orderly := by
  refine hs.next (h.regular hs) (fun p hp => ?_) fun p => ?_
  · obtain ⟨hold, hkept⟩ := (h.mem_backlogged p).mp hp
    obtain ⟨clamped, happly, _⟩ := h.apply_eq
    refine ⟨?_, fun hheld => (Finset.mem_sdiff.mp hheld).2 hold, ?_⟩
    · rw [happly]
      refine ((resumes_all fc panes).paused_iff p).mpr ⟨h.paused ▸ hs.paused p hold, fun hmem => ?_⟩
      exact SubLedgers.lt_maxBuffered.mp
        (not_le.mp fun hle => hkept ⟨hmem, h.paused ▸ hs.paused p hold, hle⟩)
    · rw [commands_after, h.flowCommands_eq, if_neg hkept, List.append_nil]
      exact hs.last p hold
  · rw [commands_after, h.flowCommands_eq]
    split
    next hp =>
      rw [isChain_concat (hs.alternate p), hs.last p (hown p hp.1 hp.2)]
      decide
    next =>
      rw [List.append_nil]
      exact hs.alternate p

theorem contract_iff (h : s.ResumeEdge call fc panes) (hs : s.Orderly) :
    s.Contract call ↔ ∀ p ∈ panes, fc.Drained p → p ∈ s.backlogged := by
  refine ⟨fun hcontract p hp hdrained =>
    ((hcontract.resume_edge p).mp ((h.resume_mem p).mpr ⟨hp, hdrained⟩)).1, fun hown => ?_⟩
  refine (h.orderly hs hown).contract (fun p => ?_) fun p => ?_
  · refine iff_of_false (fun hmem => ?_) fun ⟨_, _, n, hcall, _⟩ => h.noOutput p n hcall
    rw [← mem_flowCommands, h.flowCommands_eq] at hmem
    split at hmem <;> simp at hmem
  · rw [h.resume_mem, h.bufferedBytes_after]
    constructor
    · rintro ⟨hp, hdrained⟩
      exact ⟨hown p hp hdrained, hs.high (hown p hp hdrained), h.lowWater ▸ hdrained.2⟩
    · rintro ⟨hp, hhigh, hlow⟩
      have hmem : p ∈ panes := by
        by_contra hnot
        rw [h.others hs p hnot hp] at hlow
        exact absurd hlow (not_le.mpr hhigh)
      exact ⟨hmem, h.paused ▸ hs.paused p hp, h.lowWater.symm ▸ hlow⟩

end ResumeEdge

/-! ## Each call -/

/-- A call without effect. -/
theorem Orderly.idle (h : s.Orderly) {call : FlowCall T} {effects : List FlowEffect}
    (happly : call.apply s.fc = (s.fc, effects))
    (heffects : ∀ effect ∈ effects, ∃ p n, effect = .drainClamped p n)
    (hcross : ∀ p n, call = .onPaneBytes p n → p ∉ s.fc.paused.values →
      ∀ c ∈ s.fc.clients.values, s.fc.subBuffered p c + n ≤ s.fc.highWater) :
    (s.after call).Orderly ∧ s.Contract call := by
  have hbacklogged : (s.after call).backlogged = s.backlogged := by
    rw [backlogged_after, happly]
    exact foldl_keeps (P := fun kept => kept = s.backlogged) rfl fun effect kept heffect hkept => by
      obtain ⟨q, n, rfl⟩ := heffects effect heffect
      exact hkept
  refine h.silent (by rw [happly]; exact h.regular) (fun p => ?_) (fun p hp => ?_) hcross
    fun p hp => ?_
  · rw [happly]
    refine List.filterMap_eq_nil_iff.mpr fun effect heffect => ?_
    obtain ⟨q, n, rfl⟩ := heffects effect heffect
    rfl
  · rw [hbacklogged] at hp
    rw [happly]
    exact ⟨hp, h.paused p hp, fun hheld => (Finset.mem_sdiff.mp hheld).2 hp⟩
  · show _ < (call.apply s.fc).1.bufferedBytes p
    rw [happly]
    exact h.high hp

theorem Orderly.addClient (h : s.Orderly) (c : T) :
    (s.after (.addClient c)).Orderly ∧ s.Contract (.addClient c) := by
  have hbacklogged : (s.after (.addClient c)).backlogged = s.backlogged := backlogged_after s _
  refine h.silent (h.regular.addClient c) (fun p => rfl) (fun p hp => ?_) (fun p n hcall => ?_)
    fun p hp => h.high hp
  · rw [hbacklogged] at hp
    exact ⟨hp, h.paused p hp, fun hheld => (Finset.mem_sdiff.mp hheld).2 hp⟩
  · cases hcall

theorem resumeEdge_removeClient (s : FlowHistory T) {c : T} (hc : c ∈ s.fc.clients.values) :
    s.ResumeEdge (.removeClient c) (s.fc.departed c) s.fc.paused.values where
  nodup := by simpa using s.fc.paused.nodup
  apply_eq := ⟨[], if_neg (not_not.mpr hc), fun effect h => absurd h List.not_mem_nil⟩
  paused := rfl
  lowWater := rfl
  others hs p hp hbacklogged := absurd (hs.paused p hbacklogged) hp
  regular h := h.regular.removeClient c
  noOutput _ _ := by simp

theorem resumeEdge_noteDrained (s : FlowHistory T) {p : PaneId} {n : Nat} {c : T} (hn : 0 < n)
    (hledger : (s.fc.buffered p).has c = true) :
    s.ResumeEdge (.noteDrained p n c) (s.fc.debited p n c) [p] where
  nodup := List.nodup_singleton p
  apply_eq := by
    obtain ⟨entry, hentry⟩ := KeyedMap.has_iff.mp hledger
    have hcount : s.fc.subBuffered p c = entry.2 := subBuffered_of_get? hentry
    refine ⟨if n > entry.2 then [.drainClamped p (n - entry.2)] else [], ?_,
      fun effect heffect => ?_⟩
    · show s.fc.noteDrained p n c = _
      unfold FlowController.noteDrained
      rw [if_neg hn.ne', hentry, debited, hcount]
      rfl
    · split at heffect
      · exact ⟨p, _, List.mem_singleton.mp heffect⟩
      · exact absurd heffect List.not_mem_nil
  paused := rfl
  lowWater := rfl
  others _ q hq _ := by
    have hne : q ≠ p := fun h => hq (List.mem_singleton.mpr h)
    show SubLedgers.maxBuffered (if q = p then _ else s.fc.buffered q) = _
    rw [if_neg hne]
    rfl
  regular h := h.regular.noteDrained p n c
  noOutput _ _ := by simp

theorem Orderly.onPauseNotification (h : s.Orderly) (p : PaneId) :
    (s.after (.onPauseNotification p)).Orderly ∧ s.Contract (.onPauseNotification p) := by
  have hregular := h.regular.onPauseNotification p
  by_cases hp : p ∈ s.fc.paused.values
  · have happly : (FlowCall.onPauseNotification p).apply s.fc = (s.fc, []) :=
      if_neg (not_not.mpr hp)
    exact h.idle happly (fun effect heffect => absurd heffect List.not_mem_nil)
        fun _ _ hcall => absurd hcall (by simp)
  · have happly : (FlowCall.onPauseNotification p).apply s.fc =
        ({ s.fc with paused := s.fc.paused.set p }, [.pausePane p]) := if_pos hp
    rw [if_neg hp] at hregular
    refine h.silent hregular (fun q => by rw [happly]; rfl) (fun q hq => ?_)
      (fun _ _ hcall => absurd hcall (by simp)) fun q hq => ?_
    · rw [backlogged_after, happly] at hq
      have hq : q ∈ s.backlogged := hq
      have hpaused := h.paused q hq
      rw [happly]
      refine ⟨hq, OrderedSet.mem_set.mpr (.inr hpaused), ?_⟩
      rw [Finset.mem_insert, Finset.mem_sdiff]
      rintro (rfl | hheld)
      · exact hp hpaused
      · exact hheld.2 hq
    · show _ < ((FlowCall.onPauseNotification p).apply s.fc).1.bufferedBytes q
      rw [happly]
      exact h.high hq

theorem Orderly.onContinueNotification (h : s.Orderly) (p : PaneId) :
    (s.after (.onContinueNotification p)).Orderly ∧ s.Contract (.onContinueNotification p) := by
  have hregular := h.regular.onContinueNotification p
  by_cases hp : p ∈ s.fc.paused.values
  · have happly : (FlowCall.onContinueNotification p).apply s.fc =
        ({ s.fc with paused := s.fc.paused.delete p }, [.resumePane p]) := if_pos hp
    refine h.silent hregular (fun q => by rw [happly]; rfl) (fun q hq => ?_)
      (fun _ _ hcall => absurd hcall (by simp)) fun q hq => ?_
    · rw [backlogged_after, happly] at hq
      obtain ⟨hne, hq⟩ := Finset.mem_erase.mp (show q ∈ s.backlogged.erase p from hq)
      rw [happly]
      exact ⟨hq, OrderedSet.mem_delete.mpr ⟨h.paused q hq, hne⟩,
        fun hheld => (Finset.mem_sdiff.mp hheld).2 hq⟩
    · show _ < ((FlowCall.onContinueNotification p).apply s.fc).1.bufferedBytes q
      rw [happly]
      exact h.high hq
  · have happly : (FlowCall.onContinueNotification p).apply s.fc = (s.fc, []) := if_neg hp
    exact h.idle happly (fun effect heffect => absurd heffect List.not_mem_nil)
        fun _ _ hcall => absurd hcall (by simp)

/-- The ledgers of the other panes stay when output comes for a pane. -/
theorem bufferedBytes_onPaneBytes (fc : FlowController T) {p q : PaneId} (n : Nat) (hne : q ≠ p) :
    (fc.onPaneBytes p n).1.bufferedBytes q = fc.bufferedBytes q := by
  have hother : ∀ (fc : FlowController T) inner,
      (fc.setInner p inner).bufferedBytes q = fc.bufferedBytes q := fun fc inner => by
    show SubLedgers.maxBuffered (if q = p then inner else fc.buffered q) = _
    rw [if_neg hne]
    rfl
  rcases fc.onPaneBytes_cases p n with ⟨hout, -⟩ | ⟨-, -, -, ⟨hout, -⟩ | ⟨hout, -⟩⟩
  · rw [hout]
  · rw [hout]
    exact hother fc _
  · rw [hout]
    exact (hother _ _).trans (hother fc _)

/-- Output that crosses high water: the pane is paused unless its last command was a pause. -/
theorem Orderly.crossing (h : s.Orderly) {p : PaneId} {n : Nat} (hp : p ∉ s.fc.paused.values)
    {c : T} (hc : c ∈ s.fc.clients.values)
    (hover : s.fc.highWater < s.fc.subBuffered p c + n)
    (heffects : (s.fc.onPaneBytes p n).2 = [.pausePane p, .sendFlowCommand p .pause])
    (hpaused : (s.fc.onPaneBytes p n).1.paused = s.fc.paused.set p) :
    ((s.commands p).getLast? ≠ some .pause →
      (s.after (.onPaneBytes p n)).Orderly ∧ s.Contract (.onPaneBytes p n)) ∧
    (s.Contract (.onPaneBytes p n) → (s.commands p).getLast? ≠ some .pause) := by
  have hcommands : ∀ q, (s.after (.onPaneBytes p n)).commands q =
      s.commands q ++ if q = p then [.pause] else [] := fun q => by
    rw [commands_after]
    show s.commands q ++ flowCommands q (s.fc.onPaneBytes p n).2 = _
    rw [heffects]
    rcases eq_or_ne q p with rfl | hne
    · simp [flowCommands]
    · simp [flowCommands, hne, hne.symm]
  have hlast : (s.commands p).getLast?.getD .resume ≠ .pause ↔
      (s.commands p).getLast? ≠ some .pause := by
    cases (s.commands p).getLast? <;> simp
  -- a pause is in turn exactly if the last command was none
  have halternate : ((PaneFlowState.resume ::
      (s.after (.onPaneBytes p n)).commands p).IsChain (· ≠ ·)) ↔
        (s.commands p).getLast? ≠ some .pause := by
    rw [hcommands, if_pos rfl, isChain_concat (h.alternate p), hlast]
  refine ⟨fun hnot => ?_, fun hcontract => halternate.mp (hcontract.alternate p)⟩
  have hbacklogged : (s.after (.onPaneBytes p n)).backlogged = insert p s.backlogged := by
    rw [backlogged_after]
    show (s.fc.onPaneBytes p n).2.foldl FlowEffect.backlog s.backlogged = _
    rw [heffects]
    rfl
  have hregular := h.regular.onPaneBytes p n
  rw [if_neg hp] at hregular
  have hafter : (s.after (.onPaneBytes p n)).Orderly := by
    refine h.next hregular (fun q hq => ?_) fun q => ?_
    · show q ∈ (s.fc.onPaneBytes p n).1.paused.values ∧ _
      rw [hbacklogged, Finset.mem_insert] at hq
      rw [hpaused, OrderedSet.mem_set, hcommands]
      rcases eq_or_ne q p with rfl | hne
      · exact ⟨.inl rfl, Finset.notMem_erase _ _, by simp⟩
      · have hold := hq.resolve_left hne
        refine ⟨.inr (h.paused q hold), fun hheld => ?_, ?_⟩
        · exact (Finset.mem_sdiff.mp (Finset.mem_of_mem_erase hheld)).2 hold
        · rw [if_neg hne, List.append_nil]
          exact h.last q hold
    · rcases eq_or_ne q p with rfl | hne
      · exact halternate.mpr hnot
      · rw [hcommands, if_neg hne, List.append_nil]
        exact h.alternate q
  refine ⟨hafter, hafter.contract (fun q => ?_) fun q => ?_⟩
  · show .sendFlowCommand q .pause ∈ (s.fc.onPaneBytes p n).2 ↔ _
    rw [heffects]
    constructor
    · intro hmem
      obtain rfl : q = p := by simpa using hmem
      exact ⟨hp, h.bounded q, n, rfl, c, hc, hover⟩
    · rintro ⟨-, -, m, hcall, -⟩
      obtain ⟨rfl, rfl⟩ := FlowCall.onPaneBytes.inj hcall
      simp
  · show .sendFlowCommand q .resume ∈ (s.fc.onPaneBytes p n).2 ↔ _
    rw [heffects]
    refine iff_of_false (by simp) ?_
    -- no pane falls below low water: only the backlog of `p` changes, and it grows
    rintro ⟨hq, hhigh, hlow⟩
    have hne : q ≠ p := fun heq => hp (heq ▸ h.paused q hq)
    have hsame : (s.after (.onPaneBytes p n)).fc.bufferedBytes q = s.fc.bufferedBytes q :=
      bufferedBytes_onPaneBytes s.fc n hne
    rw [hsame] at hlow
    exact absurd hlow (not_le.mpr hhigh)

theorem Orderly.onPaneBytes (h : s.Orderly) (p : PaneId) (n : Nat) :
    (s.Unmixed (.onPaneBytes p n) →
      (s.after (.onPaneBytes p n)).Orderly ∧ s.Contract (.onPaneBytes p n)) ∧
    (s.Contract (.onPaneBytes p n) → s.Unmixed (.onPaneBytes p n)) := by
  rcases s.fc.onPaneBytes_cases p n with
    ⟨hout, hcase⟩ | ⟨hn, hp, hsome, ⟨hout, hle⟩ | ⟨hout, c, hover⟩⟩
  · have hunder : p ∉ s.fc.paused.values → ∀ c ∈ s.fc.clients.values,
        s.fc.subBuffered p c + n ≤ s.fc.highWater := by
      intro hp c hc
      rcases hcase with rfl | hpaused | hnone
      · exact h.regular.bounded p c
      · exact absurd hpaused hp
      · rw [hnone] at hc
        exact absurd hc List.not_mem_nil
    refine ⟨fun _ => h.idle hout (fun e he => absurd he List.not_mem_nil) ?_,
      fun _ hp _ => hunder hp⟩
    intro q m hcall
    obtain ⟨rfl, rfl⟩ := FlowCall.onPaneBytes.inj hcall
    exact hunder
  · have hunder : ∀ c ∈ s.fc.clients.values, s.fc.subBuffered p c + n ≤ s.fc.highWater := by
      intro c hc
      have hcount := hle c
      rwa [count_credited, if_pos hc] at hcount
    have hregular := h.regular.onPaneBytes p n
    rw [if_neg hp] at hregular
    refine ⟨fun _ => h.silent hregular (fun q => ?_) (fun q hq => ?_) (fun q m hcall _ => ?_)
      fun q hq => ?_, fun _ _ _ => hunder⟩
    · show flowCommands q (s.fc.onPaneBytes p n).2 = []
      rw [hout]
      rfl
    · rw [backlogged_after] at hq
      have hq : q ∈ (s.fc.onPaneBytes p n).2.foldl FlowEffect.backlog s.backlogged := hq
      rw [hout] at hq
      have hq : q ∈ s.backlogged := hq
      refine ⟨hq, ?_, fun hheld => ?_⟩
      · show q ∈ (s.fc.onPaneBytes p n).1.paused.values
        rw [hout]
        exact h.paused q hq
      · exact (Finset.mem_sdiff.mp (Finset.mem_of_mem_erase hheld)).2 hq
    · obtain ⟨rfl, rfl⟩ := FlowCall.onPaneBytes.inj hcall
      exact hunder
    · have hne : q ≠ p := fun heq => hp (heq ▸ h.paused q hq)
      exact (h.high hq).trans_eq (bufferedBytes_onPaneBytes s.fc n hne).symm
  · have hclient : c ∈ s.fc.clients.values := by
      by_contra hnot
      rw [count_credited, if_neg hnot] at hover
      exact absurd (h.regular.bounded p c) (not_le.mpr hover)
    rw [count_credited, if_pos hclient] at hover
    have hcross := h.crossing hp hclient hover (by rw [hout]; rfl) (by rw [hout]; rfl)
    refine ⟨fun hunmixed => hcross.1 fun hlast => ?_, fun hcontract _ hlast => ?_⟩
    · exact absurd (hunmixed hp hlast c hclient) (not_le.mpr hover)
    · exact absurd hlast (hcross.2 hcontract)

/-! ## Runs -/

/-- A call fulfils the contract exactly if it keeps the controller's pauses and those of
tmux apart, and it then leaves an orderly state. -/
theorem contract_iff (h : s.Orderly) (call : FlowCall T) :
    (s.Unmixed call → (s.after call).Orderly ∧ s.Contract call) ∧
      (s.Contract call → s.Unmixed call) := by
  cases call with
  | addClient c => exact ⟨fun _ => h.addClient c, fun _ => trivial⟩
  | onPauseNotification p => exact ⟨fun _ => h.onPauseNotification p, fun _ => trivial⟩
  | onContinueNotification p => exact ⟨fun _ => h.onContinueNotification p, fun _ => trivial⟩
  | onPaneBytes p n => exact h.onPaneBytes p n
  | removeClient c =>
    by_cases hc : c ∈ s.fc.clients.values
    · have hedge := s.resumeEdge_removeClient hc
      have hown : s.Unmixed (.removeClient c) ↔
          ∀ p ∈ s.fc.paused.values, (s.fc.departed c).Drained p → p ∈ s.backlogged := by
        constructor
        · intro hunmixed p hp hdrained
          by_contra hnot
          exact absurd hdrained.2 (not_le.mpr (hunmixed hc p hp hnot))
        · intro hall _ p hp hnot
          exact not_le.mp fun hle => hnot (hall p hp ⟨hp, hle⟩)
      rw [hown, hedge.contract_iff h]
      exact ⟨fun hall => ⟨hedge.orderly h hall, hall⟩, id⟩
    · refine ⟨fun _ => ?_, fun _ hmem => absurd hmem hc⟩
      exact h.idle (if_pos hc) (fun effect heffect => absurd heffect List.not_mem_nil)
        fun _ _ hcall => absurd hcall (by simp)
  | noteDrained p n c =>
    by_cases hledger : 0 < n ∧ (s.fc.buffered p).has c = true
    · have hedge := s.resumeEdge_noteDrained hledger.1 hledger.2
      have hown : s.Unmixed (.noteDrained p n c) ↔
          ∀ q ∈ [p], (s.fc.debited p n c).Drained q → q ∈ s.backlogged := by
        rw [List.forall_mem_singleton]
        constructor
        · intro hunmixed hdrained
          by_contra hnot
          exact absurd hdrained.2 (not_le.mpr (hunmixed hdrained.1 hnot hledger.1 hledger.2))
        · intro hall hp hnot _ _
          exact not_le.mp fun hle => hnot (hall ⟨hp, hle⟩)
      rw [hown, hedge.contract_iff h]
      exact ⟨fun hall => ⟨hedge.orderly h hall, hall⟩, id⟩
    · refine ⟨fun _ => ?_, fun _ _ _ hn hhas => absurd ⟨hn, hhas⟩ hledger⟩
      have hidle : ∃ effects, (FlowCall.noteDrained p n c).apply s.fc = (s.fc, effects) ∧
          ∀ effect ∈ effects, ∃ p n, effect = .drainClamped p n := by
        show ∃ effects, s.fc.noteDrained p n c = (s.fc, effects) ∧ _
        unfold FlowController.noteDrained
        split
        · exact ⟨[], rfl, fun effect heffect => absurd heffect List.not_mem_nil⟩
        next hn =>
          have hnone : (s.fc.buffered p).get? c = none := by
            refine KeyedMap.has_eq_false.mp (Bool.eq_false_iff.mpr fun hhas => ?_)
            exact hledger ⟨Nat.pos_of_ne_zero hn, hhas⟩
          rw [hnone]
          exact ⟨_, rfl, fun effect heffect => ⟨p, n, List.mem_singleton.mp heffect⟩⟩
      obtain ⟨effects, happly, heffects⟩ := hidle
      exact h.idle happly heffects fun _ _ hcall => absurd hcall (by simp)

/-- Along a run the contract is fulfilled by every call exactly if every call keeps the
pauses of the controller and those of tmux apart. -/
theorem along_contract_iff {calls : List (FlowCall T)} (h : s.Orderly) :
    Along step Contract s calls ↔ Along step Unmixed s calls := by
  refine along_iff_along (fun s call hs => ?_) (fun s call s' hs hunmixed hstep => ?_) h
  · exact ⟨(contract_iff hs call).2, fun hunmixed => ((contract_iff hs call).1 hunmixed).2⟩
  · cases hstep
    exact ((contract_iff hs call).1 hunmixed).1

theorem flow_contract_iff (highWater lowWater : Nat) (h : lowWater < highWater)
    (calls : List (FlowCall T)) :
    Along step Contract (create highWater lowWater h) calls ↔
      Along step Unmixed (create highWater lowWater h) calls :=
  along_contract_iff (orderly_create highWater lowWater h)

/-- A client falls behind by a whole high water and one byte, then catches up. -/
def floodRun : List (FlowCall Unit) :=
  [.addClient (), .onPaneBytes ⟨"p0"⟩ 262145, .onPauseNotification ⟨"p0"⟩,
    .noteDrained ⟨"p0"⟩ 196608 (), .onContinueNotification ⟨"p0"⟩, .removeClient ()]

theorem floodRun_contract : Along step Contract
    (create DEFAULT_HIGH_WATER_BYTES DEFAULT_LOW_WATER_BYTES (by decide)) floodRun :=
  (flow_contract_iff DEFAULT_HIGH_WATER_BYTES DEFAULT_LOW_WATER_BYTES (by decide) floodRun).mpr
    (by decide +kernel)

/-- tmux pauses a pane of its own accord, and a client then drains a byte of it. -/
def foreignPause : List (FlowCall Unit) :=
  [.addClient (), .onPaneBytes ⟨"p0"⟩ 1, .onPauseNotification ⟨"p0"⟩, .noteDrained ⟨"p0"⟩ 1 ()]

/-- The controller resumes a pane that it has not paused. -/
theorem foreignPause_resumed : ¬Along step Contract
    (create DEFAULT_HIGH_WATER_BYTES DEFAULT_LOW_WATER_BYTES (by decide)) foreignPause := by
  rw [along_contract_iff (orderly_create _ _ _)]
  decide +kernel

end FlowHistory

end TmuxccDriver.Runtime
