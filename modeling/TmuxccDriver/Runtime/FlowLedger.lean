import TmuxccDriver.Runtime.DemuxOrder
import TmuxccDriver.Runtime.FlowController

/-!
# The ledger of the session proxy

`runtime/session-proxy.ts`: `accountingStore` credits every registered client before the
demux sees a chunk, and the draining transport of a client debits it when the raw transport
has taken the chunk. The clamp handler throws in production, so nothing happens after it.

Results:
1. `due_deliver`: fan-out keeps the balance of every ledger, or breaks it, as it finds it.
2. `Wired.step`: the demux has the transports of the registered clients and gates the
paused panes, after any event.
3. `Wired.due_step`: which events keep the balance.
4. `flow_ledger_iff`: every ledger is what its client owes, in every state of a run, exactly
   if the run credits no chunk that is not fanned out, flushes no chunk to a client, and
   closes no pane with chunks in a hydration queue.
-/

namespace TmuxccDriver.Runtime.Flow
open TmuxccDriver.Lib TmuxccDriver.Protocol TmuxccDriver.Runtime.Demux

variable {T : Type} [DecidableEq T]

/-! ## The composition -/

/-- The session proxy's data plane. A client is told by its transport; `closed` are the
clients whose close handler has run, `inFlight` the chunks whose `sendData` promise is not
settled, and `held` the panes that tmux has paused and not the controller. -/
structure Proxy (T : Type) where
  fc : FlowController T
  demux : OutputDemux T
  closed : Finset T
  inFlight : List (DataFrame T)
  held : Finset PaneId
  clamped : Bool
  count : Nat

def createProxy (highWater lowWater : Nat) (h : lowWater < highWater) : Proxy T where
  fc := createFlowController highWater lowWater h
  demux := createOutputDemux
  closed := ∅
  inFlight := []
  held := ∅
  clamped := false
  count := 0

namespace Proxy

/-- One effect of the controller: on the gate of the demux, on tmux, or the clamp handler. -/
def effect (s : Proxy T) : FlowEffect → Proxy T
  | .pausePane paneId => { s with demux := s.demux.pausePane paneId }
  | .resumePane paneId => { s with demux := s.demux.resumePane paneId }
  | .sendFlowCommand _ _ => s
  | .drainClamped _ _ => { s with clamped := true }

/-- The controller after a call, with the effects of the call. -/
def control (s : Proxy T) (out : FlowController T × List FlowEffect) : Proxy T :=
  out.2.foldl effect { s with fc := out.1 }

/-- The credit of a draining transport for a chunk that its socket has taken. -/
def drain (s : Proxy T) (frame : DataFrame T) : Proxy T :=
  if frame.transport ∈ s.closed then s
  else s.control (s.fc.noteDrained frame.paneId frame.chunk.bytes.length frame.transport)

/-- `sendData` of a draining transport; the raw transport returns a promise if it is
backpressured. -/
def sendData (backpressured : DataFrame T → Bool) (s : Proxy T) (frame : DataFrame T) : Proxy T :=
  if frame.chunk.bytes.length = 0 then s
  else if backpressured frame then { s with inFlight := s.inFlight ++ [frame] }
  else s.drain frame

/-- The calls of `sendData` that a demux operation makes. -/
def deliver (backpressured : DataFrame T → Bool) (s : Proxy T)
    (out : OutputDemux T × List (DataFrame T)) : Proxy T :=
  out.2.foldl (sendData backpressured) { s with demux := out.1 }

/-- The credit that `accountingStore.append` takes before the fan-out. -/
def credit (s : Proxy T) (paneId : PaneId) (bytes : Bytes) : Proxy T :=
  let held := if paneId ∈ s.fc.paused.values then s.held else s.held.erase paneId
  let s := { s with held, count := s.count + 1 }
  if 0 < bytes.length then s.control (s.fc.onPaneBytes paneId bytes.length) else s

/-- `accountingStore.append`. -/
def append (backpressured : DataFrame T → Bool) (s : Proxy T) (paneId : PaneId) (bytes : Bytes) :
    Proxy T :=
  let chunk : Chunk := ⟨s.count, bytes⟩
  let s := s.credit paneId bytes
  s.deliver backpressured (s.demux.append paneId chunk)

/-- The part of `addClient` that is one synchronous step. -/
def addClient (s : Proxy T) (client : T) : Proxy T :=
  { s with fc := s.fc.addClient client, demux := s.demux.attachTransport client }

/-- The close handler of a client's transport. -/
def closeClient (s : Proxy T) (client : T) : Proxy T :=
  let s := { s with closed := insert client s.closed, demux := s.demux.unsubscribe client }
  s.control (s.fc.removeClient client)

/-- `%pause` of tmux. -/
def onPauseNotification (s : Proxy T) (paneId : PaneId) : Proxy T :=
  let held := if paneId ∈ s.fc.paused.values then s.held else insert paneId s.held
  { s with held }.control (s.fc.onPauseNotification paneId)

/-- `%continue` of tmux. -/
def onContinueNotification (s : Proxy T) (paneId : PaneId) : Proxy T :=
  s.control (s.fc.onContinueNotification paneId)

end Proxy

/-! ## Runs -/

inductive Event (T : Type)
  | output (paneId : PaneId) (bytes : Bytes) (backpressured : DataFrame T → Bool)
  | addClient (client : T)
  | closeClient (client : T)
  | notifyPaneBound (paneId : PaneId)
  | notifyPaneClosed (paneId : PaneId)
  | runMicrotask (backpressured : DataFrame T → Bool)
  | beginPaneHydration (client : T) (paneId : PaneId)
  | endPaneHydration (client : T) (paneId : PaneId) (backpressured : DataFrame T → Bool)
  /-- The promise of a chunk in flight is settled. -/
  | drained (index : Nat)
  | onPauseNotification (paneId : PaneId)
  | onContinueNotification (paneId : PaneId)

/-- One event; a transport is added once, and nothing happens after the clamp handler. -/
def step (s : Proxy T) (event : Event T) : Option (Proxy T) :=
  if s.clamped then none
  else
    match event with
    | .output paneId bytes backpressured => some (s.append backpressured paneId bytes)
    | .addClient client =>
      if client ∈ s.fc.clients.values ∨ client ∈ s.closed then none else some (s.addClient client)
    | .closeClient client =>
      if client ∈ s.fc.clients.values then some (s.closeClient client) else none
    | .notifyPaneBound paneId => some { s with demux := s.demux.notifyPaneBound paneId }
    | .notifyPaneClosed paneId => some { s with demux := s.demux.notifyPaneClosed paneId }
    | .runMicrotask backpressured => s.demux.runMicrotask.map (s.deliver backpressured)
    | .beginPaneHydration client paneId =>
      some { s with demux := s.demux.beginPaneHydration client paneId }
    | .endPaneHydration client paneId backpressured =>
      some (s.deliver backpressured (s.demux.endPaneHydration client paneId))
    | .drained index =>
      s.inFlight[index]?.map fun frame =>
        Proxy.drain { s with inFlight := s.inFlight.eraseIdx index } frame
    | .onPauseNotification paneId => some (s.onPauseNotification paneId)
    | .onContinueNotification paneId => some (s.onContinueNotification paneId)

/-! ## The balance -/

def byteCount (chunks : List Chunk) : Nat := (chunks.flatMap (·.bytes)).length

@[simp] theorem byteCount_nil : byteCount [] = 0 := rfl

@[simp] theorem byteCount_append (xs ys : List Chunk) :
    byteCount (xs ++ ys) = byteCount xs + byteCount ys := by
  simp [byteCount]

theorem byteCount_singleton (chunk : Chunk) : byteCount [chunk] = chunk.bytes.length := by
  simp [byteCount]

theorem byteCount_pos {chunks : List Chunk} (hne : chunks ≠ [])
    (hbytes : ∀ chunk ∈ chunks, chunk.bytes ≠ []) : 0 < byteCount chunks := by
  obtain ⟨chunk, rest, rfl⟩ := List.exists_cons_of_ne_nil hne
  rw [← List.singleton_append, byteCount_append, byteCount_singleton]
  exact Nat.add_pos_left (List.length_pos_of_ne_nil (hbytes chunk List.mem_cons_self)) _

theorem byteCount_framesTo_cons (c : T) (p : PaneId) (frame : DataFrame T)
    (frames : List (DataFrame T)) : byteCount (framesTo c p (frame :: frames)) =
      (if frame.transport = c ∧ frame.paneId = p then frame.chunk.bytes.length else 0) +
        byteCount (framesTo c p frames) := by
  rw [← List.singleton_append, framesTo_append, byteCount_append, framesTo_singleton]
  split
  · rw [byteCount_singleton]
  · rfl

/-- The bytes a client's transport has accepted for a pane, or that wait in its hydration
queue, and that are not drained. -/
def Proxy.owed (s : Proxy T) (client : T) (paneId : PaneId) : Nat :=
  byteCount (framesTo client paneId s.inFlight) + byteCount (s.demux.queued client paneId)

/-- Every ledger is what its client owes, the clamp handler has not fired, and every pane
that the controller has paused has something in flight. -/
structure Balanced (s : Proxy T) : Prop where
  ledger : ∀ client ∈ s.fc.clients.values, ∀ paneId,
    s.fc.subBuffered paneId client = s.owed client paneId
  unclamped : s.clamped = false
  flowing : ∀ paneId ∈ s.fc.paused.values, paneId ∉ s.held →
    ∃ client ∈ s.fc.clients.values, 0 < s.owed client paneId

/-- A chunk is credited to the registered clients only if it is fanned out to them, or if
every backlog already stands at high water and the chunk is cut off; no flush reaches a
client; and no pane closes with chunks in the hydration queue of a client. -/
def Accounts (s : Proxy T) : Event T → Prop
  | .output paneId bytes _ =>
    bytes = [] ∨ s.fc.clients.values = [] ∨ paneId ∈ s.fc.paused.values ∨
      paneId ∈ s.demux.knownPanes ∧ (∀ client ∈ s.fc.clients.values,
        s.fc.subBuffered paneId client + bytes.length ≤ s.fc.highWater) ∨
      ∀ client ∈ s.fc.clients.values, s.fc.subBuffered paneId client = s.fc.highWater
  | .runMicrotask _ =>
    ∀ task ∈ s.demux.microtasks.head?, task.1 ∉ s.demux.knownPanes ∨
      task.1 ∈ s.demux.pausedPanes ∨ s.fc.clients.values = []
  | .notifyPaneClosed paneId =>
    ∀ client ∈ s.fc.clients.values, s.demux.queued client paneId = []
  | _ => True

instance (s : Proxy T) : (event : Event T) → Decidable (Accounts s event)
  | .output paneId bytes _ => inferInstanceAs (Decidable (
    bytes = [] ∨ s.fc.clients.values = [] ∨ paneId ∈ s.fc.paused.values ∨
      paneId ∈ s.demux.knownPanes ∧ (∀ client ∈ s.fc.clients.values,
        s.fc.subBuffered paneId client + bytes.length ≤ s.fc.highWater) ∨
      ∀ client ∈ s.fc.clients.values, s.fc.subBuffered paneId client = s.fc.highWater))
  | .runMicrotask _ => inferInstanceAs (Decidable (
    ∀ task ∈ s.demux.microtasks.head?, task.1 ∉ s.demux.knownPanes ∨
      task.1 ∈ s.demux.pausedPanes ∨ s.fc.clients.values = []))
  | .notifyPaneClosed paneId => inferInstanceAs (Decidable (
    ∀ client ∈ s.fc.clients.values, s.demux.queued client paneId = []))
  | .addClient _ | .closeClient _ | .notifyPaneBound _ | .beginPaneHydration _ _
  | .endPaneHydration _ _ _ | .drained _ | .onPauseNotification _ | .onContinueNotification _ =>
    .isTrue trivial

/-! ## One call of the controller -/

namespace Proxy

omit [DecidableEq T] in
theorem control_frame (s : Proxy T) (out : FlowController T × List FlowEffect) :
    ∃ clamped, s.control out = { s with
        fc := out.1
        demux := { s.demux with pausedPanes := out.2.foldl FlowEffect.gate s.demux.pausedPanes }
        clamped := clamped } ∧
      (clamped = true ↔ s.clamped = true ∨ Clamps out.2) := by
  obtain ⟨fc, effects⟩ := out
  have hloop : ∀ s : Proxy T, ∃ clamped, effects.foldl effect s = { s with
        demux := { s.demux with pausedPanes := effects.foldl FlowEffect.gate s.demux.pausedPanes }
        clamped := clamped } ∧ (clamped = true ↔ s.clamped = true ∨ Clamps effects) := by
    induction effects with
    | nil =>
      intro s
      exact ⟨s.clamped, rfl, ⟨.inl, fun h => h.elim id fun ⟨_, _, hmem⟩ => by cases hmem⟩⟩
    | cons e effects ih =>
      intro s
      obtain ⟨clamped, hrest, hiff⟩ := ih (s.effect e)
      refine ⟨clamped, ?_, hiff.trans ?_⟩
      · rw [List.foldl_cons, hrest]
        cases e <;> rfl
      · have hcons : Clamps (e :: effects) ↔ (∃ p n, e = .drainClamped p n) ∨ Clamps effects := by
          simp only [Clamps, List.mem_cons, exists_or, eq_comm]
        rw [hcons]
        cases e <;> simp [effect]
  exact hloop { s with fc }

omit [DecidableEq T] in
@[simp] theorem control_fc (s : Proxy T) (out : FlowController T × List FlowEffect) :
    (s.control out).fc = out.1 := by
  obtain ⟨clamped, h, -⟩ := s.control_frame out
  rw [h]

omit [DecidableEq T] in
@[simp] theorem control_closed (s : Proxy T) (out : FlowController T × List FlowEffect) :
    (s.control out).closed = s.closed := by
  obtain ⟨clamped, h, -⟩ := s.control_frame out
  rw [h]

@[simp] theorem control_owed (s : Proxy T) (out : FlowController T × List FlowEffect) (c : T)
    (p : PaneId) : (s.control out).owed c p = s.owed c p := by
  obtain ⟨clamped, h, -⟩ := s.control_frame out
  rw [h]
  rfl

omit [DecidableEq T] in
theorem control_clamped (s : Proxy T) (out : FlowController T × List FlowEffect) :
    (s.control out).clamped = true ↔ s.clamped = true ∨ Clamps out.2 := by
  obtain ⟨clamped, h, hiff⟩ := s.control_frame out
  rw [h]
  exact hiff

theorem credit_eq (s : Proxy T) (p : PaneId) (bytes : Bytes) : s.credit p bytes = { s with
      held := if p ∈ s.fc.paused.values then s.held else s.held.erase p
      count := s.count + 1 }.control (s.fc.onPaneBytes p bytes.length) := by
  unfold credit
  dsimp only
  split
  · rfl
  · next hzero =>
    rw [FlowController.onPaneBytes, if_pos (Nat.eq_zero_of_not_pos hzero)]
    rfl

/-! ## Fan-out -/

/-- With the chunks that are still to be sent, every ledger is what its client owes. -/
def Due (s : Proxy T) (frames : List (DataFrame T)) : Prop :=
  s.clamped = false ∧ ∀ client ∈ s.fc.clients.values, ∀ paneId,
    s.fc.subBuffered paneId client =
      s.owed client paneId + byteCount (framesTo client paneId frames)

/-- The client is or was registered. -/
def Known (s : Proxy T) (client : T) : Prop := client ∈ s.fc.clients.values ∨ client ∈ s.closed

/-- Only known clients have chunks, and the closed ones are not registered. -/
structure Reachable (s : Proxy T) (frames : List (DataFrame T)) : Prop where
  transport : ∀ frame ∈ frames, s.Known frame.transport
  departed : ∀ client ∈ s.fc.clients.values, client ∉ s.closed

/-- A chunk that owes nothing to a registered client may be left out. -/
theorem due_skip {s : Proxy T} {frame : DataFrame T} {frames : List (DataFrame T)}
    (h : frame.chunk.bytes.length = 0 ∨ frame.transport ∉ s.fc.clients.values) :
    s.Due frames ↔ s.Due (frame :: frames) := by
  refine and_congr_right fun _ => forall_congr' fun c => forall_congr' fun hc =>
    forall_congr' fun p => ?_
  rw [byteCount_framesTo_cons]
  rcases h with hzero | hnot
  · rw [hzero, ite_self, Nat.zero_add]
  · rw [if_neg fun hto : frame.transport = c ∧ frame.paneId = p => hnot (hto.1 ▸ hc), Nat.zero_add]

/-- The debit of a ledger that covers it. -/
theorem due_debit {s : Proxy T} {c : T} {p : PaneId} {chunk : Chunk} {frames : List (DataFrame T)}
    (hpos : 0 < chunk.bytes.length) (hle : chunk.bytes.length ≤ s.fc.subBuffered p c) :
    (s.control (s.fc.noteDrained p chunk.bytes.length c)).Due frames ↔
      s.Due (⟨c, p, chunk⟩ :: frames) := by
  have hout := s.fc.noteDrained_of_le hpos hle
  have hresumes := FlowController.resumes_one (s.fc.debited p chunk.bytes.length c) p
  obtain ⟨paused, hframe⟩ := hresumes.frame
  have hsub : ∀ q c', (s.fc.noteDrained p chunk.bytes.length c).1.subBuffered q c' =
      if q = p ∧ c = c' then s.fc.subBuffered p c - chunk.bytes.length
      else s.fc.subBuffered q c' := by
    intro q c'
    rw [hout, hframe]
    exact s.fc.subBuffered_debited p q _ c c'
  have hclients : (s.fc.noteDrained p chunk.bytes.length c).1.clients = s.fc.clients := by
    rw [hout, hframe]
    rfl
  have hclamped : (s.control (s.fc.noteDrained p chunk.bytes.length c)).clamped = false ↔
      s.clamped = false := by
    rw [← Bool.not_eq_true, ← Bool.not_eq_true, control_clamped, hout]
    exact not_congr (or_iff_left hresumes.quiet)
  unfold Due
  rw [hclamped, control_fc, hclients]
  refine and_congr_right fun _ => forall_congr' fun c' => forall_congr' fun _ =>
    forall_congr' fun q => ?_
  rw [hsub, byteCount_framesTo_cons, control_owed]
  by_cases hto : c = c' ∧ p = q
  · obtain ⟨rfl, rfl⟩ := hto
    simp only [and_self, if_true]
    omega
  · rw [if_neg fun h => hto ⟨h.2, h.1.symm⟩, if_neg hto, Nat.zero_add]

/-- The credit of a chunk that is due to its client. -/
theorem due_drain {s : Proxy T} {frame : DataFrame T} {frames : List (DataFrame T)}
    (hreach : s.Reachable [frame]) : (s.drain frame).Due frames ↔ s.Due (frame :: frames) := by
  unfold drain
  split
  · next hclosed => exact due_skip (.inr fun hc => hreach.departed _ hc hclosed)
  · next hopen =>
    have hclient : frame.transport ∈ s.fc.clients.values :=
      (hreach.transport frame (List.mem_singleton_self _)).resolve_right hopen
    obtain ⟨c, p, chunk⟩ := frame
    rcases Nat.eq_zero_or_pos chunk.bytes.length with hzero | hpos
    · have hout : s.fc.noteDrained p chunk.bytes.length c = (s.fc, []) := by
        rw [FlowController.noteDrained, if_pos hzero]
      show (s.control (s.fc.noteDrained p chunk.bytes.length c)).Due frames ↔ _
      rw [hout]
      exact due_skip (.inl hzero)
    · rcases le_or_gt chunk.bytes.length (s.fc.subBuffered p c) with hle | hlt
      · exact due_debit hpos hle
      · constructor
        · rintro ⟨hclamped, -⟩
          have hclamps := (control_clamped s _).mpr (.inr (s.fc.noteDrained_of_lt hlt))
          rw [hclamped] at hclamps
          cases hclamps
        · rintro ⟨-, hledger⟩
          have hsub := hledger c hclient p
          rw [byteCount_framesTo_cons, if_pos ⟨rfl, rfl⟩] at hsub
          have hle : chunk.bytes.length ≤ s.fc.subBuffered p c :=
            hsub ▸ (Nat.le_add_right _ _).trans (Nat.le_add_left _ _)
          exact absurd hle (not_le.mpr hlt)

theorem due_sendData {s : Proxy T} {frame : DataFrame T} {frames : List (DataFrame T)}
    (backpressured : DataFrame T → Bool) (hreach : s.Reachable [frame]) :
    (s.sendData backpressured frame).Due frames ↔ s.Due (frame :: frames) := by
  unfold sendData
  split
  · next hzero => exact due_skip (.inl hzero)
  · split
    · refine and_congr_right fun _ => forall_congr' fun c => forall_congr' fun _ =>
        forall_congr' fun p => ?_
      have howed : ({ s with inFlight := s.inFlight ++ [frame] } : Proxy T).owed c p =
          s.owed c p + byteCount (framesTo c p [frame]) := by
        show byteCount (framesTo c p (s.inFlight ++ [frame])) + _ = _
        rw [framesTo_append, byteCount_append, owed]
        exact Nat.add_right_comm _ _ _
      rw [howed, Nat.add_assoc, ← byteCount_append, ← framesTo_append, List.singleton_append]
    · exact due_drain hreach

theorem sendData_clients (s : Proxy T) (backpressured : DataFrame T → Bool)
    (frame : DataFrame T) :
    (s.sendData backpressured frame).fc.clients = s.fc.clients ∧
      (s.sendData backpressured frame).closed = s.closed := by
  unfold sendData
  split
  · exact ⟨rfl, rfl⟩
  · split
    · exact ⟨rfl, rfl⟩
    · unfold drain
      split
      · exact ⟨rfl, rfl⟩
      · obtain ⟨inner, paused, hframe, -⟩ := s.fc.noteDrained_frame frame.paneId
          frame.chunk.bytes.length frame.transport
        rw [control_fc, control_closed, hframe]
        exact ⟨rfl, rfl⟩

/-- Fan-out keeps the balance of every ledger, or breaks it, as it finds it. -/
theorem due_deliver {s : Proxy T} (backpressured : DataFrame T → Bool)
    {out : OutputDemux T × List (DataFrame T)} (hreach : s.Reachable out.2) :
    (s.deliver backpressured out).Due [] ↔ Due { s with demux := out.1 } out.2 := by
  obtain ⟨d, frames⟩ := out
  have hloop : ∀ (frames : List (DataFrame T)) (s : Proxy T), s.Reachable frames →
      ((frames.foldl (sendData backpressured) s).Due [] ↔ s.Due frames) := by
    intro frames
    induction frames with
    | nil => exact fun _ _ => Iff.rfl
    | cons frame frames ih =>
      intro s hreach
      obtain ⟨hclients, hclosed⟩ := s.sendData_clients backpressured frame
      have hrest : (s.sendData backpressured frame).Reachable frames := by
        constructor
        · intro f hf
          rw [Known, hclients, hclosed]
          exact hreach.transport f (List.mem_cons_of_mem _ hf)
        · rw [hclients, hclosed]
          exact hreach.departed
      have hone : s.Reachable [frame] :=
        ⟨fun f hf => hreach.transport f (List.mem_singleton.mp hf ▸ List.mem_cons_self),
          hreach.departed⟩
      exact (ih _ hrest).trans (due_sendData backpressured hone)
  exact hloop frames { s with demux := d } ⟨hreach.transport, hreach.departed⟩

end Proxy

/-! ## Chunks on their way -/

/-- Every chunk that waits in the demux has bytes, and those in a hydration queue are for a
transport that is known. -/
structure Stocked (known : T → Prop) (d : OutputDemux T) : Prop where
  queued : ∀ t p, ∀ chunk ∈ d.queued t p, known t ∧ chunk.bytes ≠ []
  flushing : ∀ task ∈ d.microtasks, task.2 ≠ [] ∧ ∀ chunk ∈ task.2, chunk.bytes ≠ []
  staged : ∀ p, ∀ chunk ∈ d.pendingFanout p, chunk.bytes ≠ []

namespace Stocked

variable {known : T → Prop} {d : OutputDemux T}

theorem fanOutAll (h : Stocked known d) (ht : ∀ t ∈ d.transports.values, known t) (p : PaneId)
    {chunks : List Chunk} (hchunks : ∀ chunk ∈ chunks, chunk.bytes ≠ []) :
    Stocked known (d.fanOutAll p chunks).1 ∧ ∀ f ∈ (d.fanOutAll p chunks).2, known f.transport := by
  have hmoves : ∀ t q, ∀ chunk ∈ framesTo t q (d.fanOutAll p chunks).2 ++
      (d.fanOutAll p chunks).1.queued t q, known t ∧ chunk.bytes ≠ [] := by
    intro t q chunk hchunk
    rw [d.fanOutAll_moves] at hchunk
    rcases List.mem_append.mp hchunk with hold | hnew
    · exact h.queued t q chunk hold
    · split at hnew
      · next hto => exact ⟨ht t hto.1, hchunks chunk hnew⟩
      · cases hnew
  obtain ⟨hydrating, hframe⟩ := d.fanOutAll_frame p chunks
  constructor
  · refine ⟨fun t q chunk hchunk => hmoves t q chunk (List.mem_append_right _ hchunk), ?_, ?_⟩
    · rw [hframe]
      exact h.flushing
    · rw [hframe]
      exact h.staged
  · intro f hf
    have hmem : f.chunk ∈ framesTo f.transport f.paneId (d.fanOutAll p chunks).2 :=
      List.mem_map_of_mem (List.mem_filter.mpr ⟨hf, by simp⟩)
    exact (hmoves _ _ _ (List.mem_append_left _ hmem)).1

theorem append (h : Stocked known d) (ht : ∀ t ∈ d.transports.values, known t) (p : PaneId)
    (chunk : Chunk) :
    Stocked known (d.append p chunk).1 ∧ ∀ f ∈ (d.append p chunk).2, known f.transport := by
  rcases d.append_cases p chunk with ⟨hout, -⟩ | ⟨hout, hbytes, -⟩ | ⟨hout, hbytes, -⟩
  · rw [hout]
    exact ⟨h, fun f hf => absurd hf List.not_mem_nil⟩
  · rw [hout, ← OutputDemux.fanOutAll_singleton]
    refine h.fanOutAll ht p fun c hc => ?_
    rw [List.mem_singleton.mp hc]
    exact hbytes
  · rw [hout]
    refine ⟨⟨h.queued, h.flushing, fun q c hc => ?_⟩, fun f hf => absurd hf List.not_mem_nil⟩
    have hc' : c ∈ if q = p then d.pendingFanout q ++ [chunk] else d.pendingFanout q := hc
    split at hc'
    · rcases List.mem_append.mp hc' with hold | hnew
      · exact h.staged q c hold
      · rw [List.mem_singleton.mp hnew]
        exact hbytes
    · exact h.staged q c hc'

omit [DecidableEq T] in
theorem unstage (h : Stocked known d) (p : PaneId) : Stocked known (d.unstage p) := by
  refine ⟨h.queued, h.flushing, fun q c hc => ?_⟩
  have hc' : c ∈ if q = p then [] else d.pendingFanout q := hc
  split at hc'
  · cases hc'
  · exact h.staged q c hc'

omit [DecidableEq T] in
theorem notifyPaneBound (h : Stocked known d) (p : PaneId) :
    Stocked known (d.notifyPaneBound p) := by
  unfold OutputDemux.notifyPaneBound
  have hstaged := (h.unstage p).staged
  split
  · exact h
  · dsimp only
    split
    · next hsome =>
      refine ⟨h.queued, fun task htask => ?_, hstaged⟩
      rcases List.mem_append.mp htask with hold | hnew
      · exact h.flushing task hold
      · rw [List.mem_singleton.mp hnew]
        exact ⟨List.ne_nil_of_length_pos hsome, h.staged p⟩
    · exact ⟨h.queued, h.flushing, hstaged⟩

theorem setQueue (h : Stocked known d) {t : T} {p : PaneId} {queue : Option (List Chunk)}
    (hqueue : queue.getD [] = []) : Stocked known (d.setQueue t p queue) := by
  refine ⟨fun t' q c hc => ?_, h.flushing, h.staged⟩
  have hc' : c ∈ (if t' = t ∧ q = p then queue else d.hydrating t' q).getD [] := hc
  split at hc'
  · rw [hqueue] at hc'
    cases hc'
  · exact h.queued t' q c hc'

omit [DecidableEq T] in
theorem notifyPaneClosed (h : Stocked known d) (p : PaneId) :
    Stocked known (d.notifyPaneClosed p) := by
  refine ⟨fun t q c hc => ?_, h.flushing, (h.unstage p).staged⟩
  have hc' : c ∈ (if q = p then none else d.hydrating t q).getD [] := hc
  split at hc'
  · cases hc'
  · exact h.queued t q c hc'

theorem beginPaneHydration (h : Stocked known d) (t : T) (p : PaneId) :
    Stocked known (d.beginPaneHydration t p) := by
  unfold OutputDemux.beginPaneHydration
  split
  · exact h
  · exact h.setQueue rfl

theorem endPaneHydration (h : Stocked known d) (t : T) (p : PaneId) :
    Stocked known (d.endPaneHydration t p).1 ∧
      ∀ f ∈ (d.endPaneHydration t p).2, known f.transport := by
  rcases d.endPaneHydration_cases t p with ⟨queue, hqueue, hout⟩ | ⟨-, hout⟩
  · rw [hout]
    refine ⟨h.setQueue rfl, fun f hf => ?_⟩
    obtain ⟨chunk, hchunk, rfl⟩ := List.mem_map.mp hf
    refine (h.queued t p chunk ?_).1
    rw [OutputDemux.queued, hqueue]
    exact hchunk
  · rw [hout]
    exact ⟨h, fun f hf => absurd hf List.not_mem_nil⟩

theorem runMicrotask (h : Stocked known d) (ht : ∀ t ∈ d.transports.values, known t)
    {out : OutputDemux T × List (DataFrame T)} (hrun : d.runMicrotask = some out) :
    Stocked known out.1 ∧ ∀ f ∈ out.2, known f.transport := by
  obtain ⟨p, chunks, rest, htasks, hcases⟩ := OutputDemux.runMicrotask_cases hrun
  have htask := fun task (hmem : task ∈ rest) =>
    h.flushing task (htasks ▸ List.mem_cons_of_mem _ hmem)
  have hrest : Stocked known { d with microtasks := rest } := ⟨h.queued, htask, h.staged⟩
  rcases hcases with ⟨hd, hframes, -⟩ | ⟨hout, -⟩
  · rw [hd, hframes]
    exact ⟨hrest, fun f hf => absurd hf List.not_mem_nil⟩
  · have hhead := h.flushing (p, chunks) (htasks ▸ List.mem_cons_self)
    rw [← show _ = out from hout]
    exact hrest.fanOutAll ht p hhead.2

omit [DecidableEq T] in
theorem mono (h : Stocked known d) {known' : T → Prop} (hk : ∀ t, known t → known' t) :
    Stocked known' d :=
  ⟨fun t p chunk hchunk => ⟨hk t (h.queued t p chunk hchunk).1, (h.queued t p chunk hchunk).2⟩,
    h.flushing, h.staged⟩

end Stocked

/-! ## The invariant -/

/-- The demux has the transports of the registered clients and gates the paused panes. -/
structure Wired (s : Proxy T) : Prop where
  regular : s.fc.Regular s.held
  attached : ∀ c, c ∈ s.demux.transports.values ↔ c ∈ s.fc.clients.values
  gated : ∀ p, p ∈ s.fc.paused.values ↔ p ∈ s.demux.pausedPanes
  departed : ∀ c ∈ s.fc.clients.values, c ∉ s.closed
  sent : ∀ f ∈ s.inFlight, s.Known f.transport
  stocked : Stocked s.Known s.demux

namespace Wired

variable {s : Proxy T}

theorem known (h : Wired s) : ∀ t ∈ s.demux.transports.values, s.Known t :=
  fun t ht => .inl ((h.attached t).mp ht)

theorem create (highWater lowWater : Nat) (h : lowWater < highWater) :
    Wired (createProxy highWater lowWater h : Proxy T) where
  regular := FlowController.regular_create highWater lowWater h
  attached := fun _ => Iff.rfl
  gated := fun p => iff_of_false List.not_mem_nil (Finset.notMem_empty p)
  departed := fun _ hc => absurd hc List.not_mem_nil
  sent := fun _ hf => absurd hf List.not_mem_nil
  stocked := ⟨fun _ _ _ hc => absurd hc List.not_mem_nil,
    fun _ htask => absurd htask List.not_mem_nil, fun _ _ hc => absurd hc List.not_mem_nil⟩

/-- A call of the controller that registers and removes no client. -/
theorem control (h : Wired s) {out : FlowController T × List FlowEffect} {held : Finset PaneId}
    {count : Nat} (hregular : out.1.Regular held) (hclients : out.1.clients = s.fc.clients)
    (hgates : FlowController.Gates s.fc out.1 out.2) :
    Wired ({ s with held, count }.control out) := by
  obtain ⟨clamped, hframe, -⟩ := Proxy.control_frame { s with held, count } out
  rw [hframe]
  have hknown : ∀ c, s.Known c → c ∈ out.1.clients.values ∨ c ∈ s.closed := by
    rw [hclients]
    exact fun c hc => hc
  refine ⟨hregular, ?_, hgates _ h.gated, ?_, fun f hf => hknown _ (h.sent f hf), ?_⟩
  · rw [hclients]
    exact h.attached
  · rw [hclients]
    exact h.departed
  · have hstocked := h.stocked.mono hknown
    exact ⟨hstocked.queued, hstocked.flushing, hstocked.staged⟩

theorem drain (h : Wired s) (frame : DataFrame T) : Wired (s.drain frame) := by
  unfold Proxy.drain
  split
  · exact h
  · obtain ⟨inner, paused, hframe, -⟩ := s.fc.noteDrained_frame frame.paneId
      frame.chunk.bytes.length frame.transport
    refine h.control (h.regular.noteDrained _ _ _) ?_ (s.fc.gates_noteDrained _ _ _)
    rw [hframe]
    rfl

theorem sendData (h : Wired s) (backpressured : DataFrame T → Bool) {frame : DataFrame T}
    (hknown : s.Known frame.transport) : Wired (s.sendData backpressured frame) := by
  unfold Proxy.sendData
  split
  · exact h
  · split
    · refine { h with sent := fun f hf => ?_ }
      rcases List.mem_append.mp hf with hold | hnew
      · exact h.sent f hold
      · rw [List.mem_singleton.mp hnew]
        exact hknown
    · exact h.drain frame

theorem deliver (h : Wired s) (backpressured : DataFrame T → Bool)
    {out : OutputDemux T × List (DataFrame T)}
    (htransports : out.1.transports = s.demux.transports)
    (hpaused : out.1.pausedPanes = s.demux.pausedPanes)
    (hout : Stocked s.Known out.1 ∧ ∀ f ∈ out.2, s.Known f.transport) :
    Wired (s.deliver backpressured out) := by
  have hstart : Wired { s with demux := out.1 } := { h with
    attached := htransports ▸ h.attached
    gated := hpaused ▸ h.gated
    stocked := hout.1 }
  refine (foldl_keeps (P := fun s' : Proxy T => Wired s' ∧ ∀ f ∈ out.2, s'.Known f.transport)
    ⟨hstart, hout.2⟩ fun f s' hf hs' => ?_).1
  obtain ⟨hclients, hclosed⟩ := s'.sendData_clients backpressured f
  refine ⟨hs'.1.sendData backpressured (hs'.2 f hf), fun f' hf' => ?_⟩
  unfold Proxy.Known
  rw [hclients, hclosed]
  exact hs'.2 f' hf'

theorem credit (h : Wired s) (p : PaneId) (bytes : Bytes) : Wired (s.credit p bytes) := by
  rw [Proxy.credit_eq]
  exact h.control (h.regular.onPaneBytes _ _) (s.fc.onPaneBytes_clients p bytes.length)
    (s.fc.gates_onPaneBytes _ _)

theorem onPauseNotification (h : Wired s) (p : PaneId) : Wired (s.onPauseNotification p) := by
  refine h.control (h.regular.onPauseNotification p) ?_ (s.fc.gates_onPauseNotification p).1
  unfold FlowController.onPauseNotification
  split <;> rfl

theorem onContinueNotification (h : Wired s) (p : PaneId) :
    Wired (s.onContinueNotification p) := by
  refine h.control (h.regular.onContinueNotification p) ?_ (s.fc.gates_onContinueNotification p).1
  unfold FlowController.onContinueNotification
  split <;> rfl

theorem append (h : Wired s) (backpressured : DataFrame T → Bool) (p : PaneId) (bytes : Bytes) :
    Wired (s.append backpressured p bytes) := by
  have hcredit := h.credit p bytes
  obtain ⟨htransports, hpaused⟩ := (s.credit p bytes).demux.append_frame p ⟨s.count, bytes⟩
  exact hcredit.deliver backpressured htransports hpaused
    (hcredit.stocked.append hcredit.known p _)

theorem addClient (h : Wired s) {client : T} (hopen : client ∉ s.closed) :
    Wired (s.addClient client) := by
  have hknown : ∀ c, s.Known c → (s.addClient client).Known c :=
    fun c hc => hc.imp (fun hc => OrderedSet.mem_set.mpr (.inr hc)) id
  have hstocked := h.stocked.mono hknown
  refine ⟨h.regular.addClient client, fun c => ?_, h.gated, fun c hc => ?_,
    fun f hf => hknown _ (h.sent f hf), ⟨hstocked.queued, hstocked.flushing, hstocked.staged⟩⟩
  · show c ∈ (s.demux.transports.set client).values ↔ c ∈ (s.fc.clients.set client).values
    rw [OrderedSet.mem_set, OrderedSet.mem_set, h.attached]
  · rcases OrderedSet.mem_set.mp hc with rfl | hold
    · exact hopen
    · exact h.departed c hold

theorem closeClient (h : Wired s) {client : T} (hclient : client ∈ s.fc.clients.values) :
    Wired (s.closeClient client) := by
  obtain ⟨paused, hout⟩ := s.fc.removeClient_frame hclient
  have hclients : ∀ c, c ∈ (s.fc.removeClient client).1.clients.values ↔
      c ∈ s.fc.clients.values ∧ c ≠ client := by
    intro c
    rw [hout]
    exact OrderedSet.mem_delete
  obtain ⟨clamped, hframe, -⟩ := Proxy.control_frame { s with
    closed := insert client s.closed
    demux := s.demux.unsubscribe client } (s.fc.removeClient client)
  have hknown : ∀ c, s.Known c → c ∈ (s.fc.removeClient client).1.clients.values ∨
      c ∈ insert client s.closed := by
    intro c hc
    rw [hclients, Finset.mem_insert]
    rcases eq_or_ne c client with rfl | hne
    · exact .inr (.inl rfl)
    · exact hc.imp (fun hc => ⟨hc, hne⟩) .inr
  have hstocked := h.stocked.mono hknown
  unfold Proxy.closeClient
  dsimp only
  rw [hframe]
  refine ⟨h.regular.removeClient client, fun c => ?_,
    (s.fc.gates_removeClient client).1 _ h.gated, fun c hc => ?_,
    fun f hf => hknown _ (h.sent f hf), ⟨hstocked.queued, hstocked.flushing, hstocked.staged⟩⟩
  · show c ∈ (s.demux.transports.delete client).values ↔ _
    rw [OrderedSet.mem_delete, hclients, h.attached]
  · obtain ⟨hold, hne⟩ := (hclients c).mp hc
    rw [Finset.mem_insert, not_or]
    exact ⟨hne, h.departed c hold⟩

theorem step (h : Wired s) {event : Event T} {s' : Proxy T}
    (hstep : Flow.step s event = some s') : Wired s' := by
  simp only [Flow.step] at hstep
  split at hstep
  · cases hstep
  · split at hstep
    · cases hstep
      exact h.append _ _ _
    · split at hstep
      · cases hstep
      · next hfresh =>
        cases hstep
        exact h.addClient fun hclosed => hfresh (.inr hclosed)
    · split at hstep
      · next hclient =>
        cases hstep
        exact h.closeClient hclient
      · cases hstep
    · next p =>
      cases hstep
      obtain ⟨htransports, hpaused, -⟩ := s.demux.notifyPaneBound_frame p
      exact { h with
        attached := htransports ▸ h.attached
        gated := hpaused ▸ h.gated
        stocked := h.stocked.notifyPaneBound p }
    · next p =>
      cases hstep
      exact { h with stocked := h.stocked.notifyPaneClosed p }
    · obtain ⟨out, hrun, rfl⟩ := Option.map_eq_some_iff.mp hstep
      obtain ⟨htransports, hpaused⟩ := OutputDemux.runMicrotask_frame hrun
      exact h.deliver _ htransports hpaused (h.stocked.runMicrotask h.known hrun)
    · next client p =>
      cases hstep
      obtain ⟨htransports, hpaused⟩ := s.demux.beginPaneHydration_frame client p
      exact { h with
        attached := htransports ▸ h.attached
        gated := hpaused ▸ h.gated
        stocked := h.stocked.beginPaneHydration client p }
    · next client p _ =>
      cases hstep
      obtain ⟨htransports, hpaused⟩ := s.demux.endPaneHydration_frame client p
      exact h.deliver _ htransports hpaused (h.stocked.endPaneHydration client p)
    · next index =>
      obtain ⟨frame, -, rfl⟩ := Option.map_eq_some_iff.mp hstep
      have herased := fun f (hf : f ∈ s.inFlight.eraseIdx index) =>
        h.sent f (List.mem_of_mem_eraseIdx hf)
      have hwired : Wired { s with inFlight := s.inFlight.eraseIdx index } :=
        { h with sent := herased }
      exact hwired.drain frame
    · cases hstep
      exact h.onPauseNotification _
    · cases hstep
      exact h.onContinueNotification _

end Wired

/-! ## One step -/

namespace Proxy

theorem due_nil {s : Proxy T} : s.Due [] ↔ s.clamped = false ∧
    ∀ c ∈ s.fc.clients.values, ∀ p, s.fc.subBuffered p c = s.owed c p := by
  simp [Due]

/-- What a demux operation has moved into the line of each client is due to that client. -/
theorem due_moves {s : Proxy T} (backpressured : DataFrame T → Bool)
    {out : OutputDemux T × List (DataFrame T)} (hreach : s.Reachable out.2)
    {moved : T → PaneId → List Chunk}
    (hmoves : ∀ c p, framesTo c p out.2 ++ out.1.queued c p = s.demux.queued c p ++ moved c p) :
    (s.deliver backpressured out).Due [] ↔ s.clamped = false ∧
      ∀ c ∈ s.fc.clients.values, ∀ p,
        s.fc.subBuffered p c = s.owed c p + byteCount (moved c p) := by
  rw [due_deliver backpressured hreach]
  refine and_congr_right fun _ => forall_congr' fun c => forall_congr' fun _ =>
    forall_congr' fun p => ?_
  have hline := congrArg byteCount (hmoves c p)
  rw [byteCount_append, byteCount_append, Nat.add_comm] at hline
  have howed : ({ s with demux := out.1 } : Proxy T).owed c p + byteCount (framesTo c p out.2) =
      s.owed c p + byteCount (moved c p) := by
    unfold owed
    rw [Nat.add_assoc, Nat.add_assoc, hline]
  rw [howed]

theorem due_stays {s : Proxy T} (backpressured : DataFrame T → Bool)
    {out : OutputDemux T × List (DataFrame T)} (hreach : s.Reachable out.2)
    (hmoves : ∀ c p, framesTo c p out.2 ++ out.1.queued c p = s.demux.queued c p) :
    (s.deliver backpressured out).Due [] ↔ s.Due [] := by
  have hnone : ∀ c p, framesTo c p out.2 ++ out.1.queued c p =
      s.demux.queued c p ++ (fun _ _ => [] : T → PaneId → List Chunk) c p := by
    intro c p
    rw [hmoves, List.append_nil]
  rw [due_moves backpressured hreach hnone, due_nil]
  rfl

end Proxy

namespace Wired

variable {s : Proxy T}

theorem reachable (h : Wired s) {frames : List (DataFrame T)}
    (hframes : ∀ f ∈ frames, s.Known f.transport) : s.Reachable frames :=
  ⟨hframes, h.departed⟩

/-- A pane is paused only while a client owes bytes for it. -/
theorem balanced_iff (h : Wired s) : Balanced s ↔ s.Due [] := by
  rw [Proxy.due_nil]
  constructor
  · exact fun hs => ⟨hs.unclamped, hs.ledger⟩
  · rintro ⟨hclamped, hledger⟩
    refine ⟨hledger, hclamped, fun p hp hheld => ?_⟩
    obtain ⟨c, hc⟩ := h.regular.paused_high p hp hheld
    have hpos : 0 < s.fc.subBuffered p c := Nat.zero_lt_of_lt hc
    have hclient := h.regular.client_of_pos hpos
    exact ⟨c, hclient, hledger c hclient p ▸ hpos⟩

theorem paused_credit (h : Wired s) (p q : PaneId) (bytes : Bytes) :
    q ∈ (s.credit p bytes).demux.pausedPanes ↔
      q ∈ (s.fc.onPaneBytes p bytes.length).1.paused.values := by
  have hgated := (h.credit p bytes).gated q
  rw [Proxy.credit_eq, Proxy.control_fc] at hgated
  rw [Proxy.credit_eq]
  exact hgated.symm

/-- An append fans its chunk out to every client, or to none. -/
theorem due_append (h : Wired s) (hdue : s.Due []) (backpressured : DataFrame T → Bool)
    (p : PaneId) (bytes : Bytes) : (s.append backpressured p bytes).Due [] ↔
      ∀ c ∈ s.fc.clients.values, ∀ q,
        (s.fc.onPaneBytes p bytes.length).1.subBuffered q c = s.fc.subBuffered q c +
          if p = q ∧ p ∈ s.demux.knownPanes ∧
            p ∉ (s.fc.onPaneBytes p bytes.length).1.paused.values then bytes.length else 0 := by
  have hcredit := h.credit p bytes
  have hfc : (s.credit p bytes).fc = (s.fc.onPaneBytes p bytes.length).1 := by
    rw [Proxy.credit_eq, Proxy.control_fc]
  have howed : ∀ c q, (s.credit p bytes).owed c q = s.owed c q := by
    intro c q
    rw [Proxy.credit_eq, Proxy.control_owed]
    rfl
  have hclamped : (s.credit p bytes).clamped = false := by
    rw [← Bool.not_eq_true, Proxy.credit_eq, Proxy.control_clamped, not_or]
    exact ⟨by rw [show _ = false from hdue.1]; exact Bool.false_ne_true,
      s.fc.quiet_onPaneBytes p bytes.length⟩
  have hknown : (s.credit p bytes).demux.knownPanes = s.demux.knownPanes := by
    obtain ⟨clamped, hframe, -⟩ := Proxy.control_frame { s with
      held := if p ∈ s.fc.paused.values then s.held else s.held.erase p
      count := s.count + 1 } (s.fc.onPaneBytes p bytes.length)
    rw [Proxy.credit_eq, hframe]
  have hstocked := hcredit.stocked.append hcredit.known p ⟨s.count, bytes⟩
  rw [Proxy.append, Proxy.due_moves backpressured (hcredit.reachable hstocked.2)
    fun c q => (s.credit p bytes).demux.append_line p q ⟨s.count, bytes⟩ c]
  rw [and_iff_right hclamped, hfc, s.fc.onPaneBytes_clients]
  refine forall_congr' fun c => forall_congr' fun hc => forall_congr' fun q => ?_
  have hattached : c ∈ (s.credit p bytes).demux.transports.values := by
    rw [hcredit.attached, hfc, s.fc.onPaneBytes_clients]
    exact hc
  have hgate := not_congr (h.paused_credit p p bytes)
  rw [howed, ← (Proxy.due_nil.mp hdue).2 c hc q]
  rcases eq_or_ne bytes [] with rfl | hbytes
  · rw [if_neg fun hto => hto.2.2.2.2 rfl, byteCount_nil, List.length_nil, ite_self]
  · by_cases hfan : p = q ∧ p ∈ s.demux.knownPanes ∧
        p ∉ (s.fc.onPaneBytes p bytes.length).1.paused.values
    · rw [if_pos hfan, if_pos ⟨hattached, hfan.1, hknown ▸ hfan.2.1, hgate.mpr hfan.2.2, hbytes⟩,
        byteCount_singleton]
    · rw [if_neg hfan, if_neg fun hto =>
        hfan ⟨hto.2.1, hknown ▸ hto.2.2.1, hgate.mp hto.2.2.2.1⟩, byteCount_nil]

theorem owed_unknown (h : Wired s) {c : T} (hunknown : ¬s.Known c) (p : PaneId) :
    s.owed c p = 0 := by
  have hsent : framesTo c p s.inFlight = [] := by
    refine List.map_eq_nil_iff.mpr (List.filter_eq_nil_iff.mpr fun f hf hto => hunknown ?_)
    have htransport : f.transport = c := (of_decide_eq_true hto).1
    exact htransport ▸ h.sent f hf
  have hqueued : s.demux.queued c p = [] := List.eq_nil_iff_forall_not_mem.mpr
    fun chunk hchunk => hunknown (h.stocked.queued c p chunk hchunk).1
  rw [Proxy.owed, hsent, hqueued]
  rfl

/-- The credit of an append is due exactly if its chunk is fanned out, or if the cut of
every ledger undoes it. -/
theorem credit_due (h : Wired s) (p : PaneId) (n : Nat) (known : Prop) [Decidable known] :
    (∀ c ∈ s.fc.clients.values, ∀ q, (s.fc.onPaneBytes p n).1.subBuffered q c =
        s.fc.subBuffered q c +
          if p = q ∧ known ∧ p ∉ (s.fc.onPaneBytes p n).1.paused.values then n else 0) ↔
      n = 0 ∨ s.fc.clients.values = [] ∨ p ∈ s.fc.paused.values ∨
        known ∧ (∀ c ∈ s.fc.clients.values, s.fc.subBuffered p c + n ≤ s.fc.highWater) ∨
        ∀ c ∈ s.fc.clients.values, s.fc.subBuffered p c = s.fc.highWater := by
  have hcount : ∀ c ∈ s.fc.clients.values,
      (s.fc.credited p n).count c = s.fc.subBuffered p c + n := by
    intro c hc
    rw [s.fc.count_credited, if_pos hc]
  -- skipped, credited with room for all, or cut at the high water mark
  rcases s.fc.onPaneBytes_cases p n with ⟨hout, hskip⟩ | ⟨hn, hpaused, hsome, hout⟩
  · rw [hout]
    refine iff_of_true (fun c hc q => ?_) ?_
    · rcases hskip with hzero | hpaused | hnone
      · rw [hzero, ite_self]
        rfl
      · rw [if_neg fun hfan => hfan.2.2 hpaused]
        rfl
      · exact absurd (hnone ▸ hc) List.not_mem_nil
    · rcases hskip with hzero | hpaused | hnone
      · exact .inl hzero
      · exact .inr (.inr (.inl hpaused))
      · exact .inr (.inl hnone)
  · rw [or_iff_right hn.ne', or_iff_right hsome, or_iff_right hpaused]
    rcases hout with ⟨hout, hle⟩ | ⟨hout, c₀, hover⟩
    · have hroom : ∀ c ∈ s.fc.clients.values, s.fc.subBuffered p c + n ≤ s.fc.highWater :=
        fun c hc => hcount c hc ▸ hle c
      obtain ⟨c₁, hc₁⟩ := List.exists_mem_of_ne_nil _ hsome
      rw [hout]
      constructor
      · intro hdue
        have hone := hdue c₁ hc₁ p
        rw [FlowController.subBuffered_setInner, if_pos rfl, hcount c₁ hc₁] at hone
        refine .inl ⟨by_contra fun hunknown => ?_, hroom⟩
        rw [if_neg fun hfan => hunknown hfan.2.1] at hone
        exact hn.ne' (Nat.add_left_cancel hone)
      · rintro (⟨hknown, -⟩ | hfull)
        · intro c hc q
          rw [FlowController.subBuffered_setInner]
          split
          · next hq =>
            rw [hcount c hc, hq, if_pos ⟨rfl, hknown, hpaused⟩]
          · next hq =>
            rw [if_neg fun hfan => hq hfan.1.symm]
            rfl
        · have hroom₁ := hroom c₁ hc₁
          rw [hfull c₁ hc₁] at hroom₁
          exact absurd hroom₁ (not_le.mpr (Nat.lt_add_of_pos_right hn))
    · have hc₀ : c₀ ∈ s.fc.clients.values := by
        by_contra hnot
        rw [s.fc.count_credited, if_neg hnot] at hover
        exact absurd (h.regular.bounded p c₀) (not_le.mpr hover)
      have hcut : ∀ c ∈ s.fc.clients.values, ∀ q,
          (s.fc.onPaneBytes p n).1.subBuffered q c = if q = p then
            min (s.fc.subBuffered p c + n) s.fc.highWater else s.fc.subBuffered q c := by
        intro c hc q
        rw [hout, FlowController.subBuffered_setInner]
        split
        · rw [SubLedgers.count_clampTo, if_pos hc, hcount c hc]
        · next hq =>
          show (s.fc.setInner p (s.fc.credited p n)).subBuffered q c = _
          rw [FlowController.subBuffered_setInner, if_neg hq]
      -- the crossing pauses the pane, so the chunk that crosses is not fanned out
      have hgated : p ∈ (s.fc.onPaneBytes p n).1.paused.values := by
        rw [hout]
        exact OrderedSet.mem_set.mpr (.inl rfl)
      have hcross : ¬∀ c ∈ s.fc.clients.values, s.fc.subBuffered p c + n ≤ s.fc.highWater :=
        fun hall => not_lt.mpr (hall c₀ hc₀) (hcount c₀ hc₀ ▸ hover)
      rw [or_iff_right fun hroom => hcross hroom.2]
      refine forall_congr' fun c => forall_congr' fun hc => ?_
      constructor
      · intro hdue
        have hone := hdue p
        rw [hcut c hc, if_pos rfl, if_neg fun hfan => hfan.2.2 hgated, Nat.add_zero] at hone
        rcases min_choice (s.fc.subBuffered p c + n) s.fc.highWater with hmin | hmin
        · exact absurd (hmin.symm.trans hone) (Nat.lt_add_of_pos_right hn).ne'
        · exact hone.symm.trans hmin
      · intro hfull q
        rw [hcut c hc, if_neg fun hfan : p = q ∧ known ∧
          p ∉ (s.fc.onPaneBytes p n).1.paused.values => hfan.2.2 hgated, Nat.add_zero]
        split
        · next hq => rw [hq, hfull, min_eq_right (Nat.le_add_right _ _)]
        · rfl

theorem due_output (h : Wired s) (hdue : s.Due []) (backpressured : DataFrame T → Bool)
    (p : PaneId) (bytes : Bytes) : (s.append backpressured p bytes).Due [] ↔
      Accounts s (.output p bytes backpressured) := by
  rw [h.due_append hdue, h.credit_due, List.length_eq_zero_iff]
  rfl

theorem due_addClient (h : Wired s) (hdue : s.Due []) {client : T} (hfresh : ¬s.Known client) :
    (s.addClient client).Due [] := by
  obtain ⟨hclamped, hledger⟩ := Proxy.due_nil.mp hdue
  refine Proxy.due_nil.mpr ⟨hclamped, fun c hc p => ?_⟩
  show s.fc.subBuffered p c = s.owed c p
  rcases OrderedSet.mem_set.mp hc with rfl | hold
  · rw [h.owed_unknown hfresh]
    exact Nat.eq_zero_of_not_pos fun hpos => hfresh (.inl (h.regular.client_of_pos hpos))
  · exact hledger c hold p

theorem due_closeClient (hdue : s.Due []) {client : T} (hclient : client ∈ s.fc.clients.values) :
    (s.closeClient client).Due [] := by
  obtain ⟨hclamped, hledger⟩ := Proxy.due_nil.mp hdue
  obtain ⟨paused, hout⟩ := s.fc.removeClient_frame hclient
  unfold Proxy.closeClient
  dsimp only
  refine Proxy.due_nil.mpr ⟨?_, fun c hc p => ?_⟩
  · rw [← Bool.not_eq_true, Proxy.control_clamped, not_or]
    refine ⟨?_, (s.fc.gates_removeClient client).2⟩
    show ¬s.clamped = true
    rw [hclamped]
    exact Bool.false_ne_true
  · rw [Proxy.control_fc, hout] at hc ⊢
    obtain ⟨hold, hne⟩ := OrderedSet.mem_delete.mp hc
    rw [Proxy.control_owed]
    show SubLedgers.count ((s.fc.buffered p).delete client) c = s.owed c p
    rw [SubLedgers.count_delete, if_neg hne]
    exact hledger c hold p

theorem due_notifyPaneClosed (h : Wired s) (hdue : s.Due []) (p : PaneId) :
    ({ s with demux := s.demux.notifyPaneClosed p } : Proxy T).Due [] ↔
      Accounts s (.notifyPaneClosed p) := by
  obtain ⟨hclamped, hledger⟩ := Proxy.due_nil.mp hdue
  rw [Proxy.due_nil, and_iff_right (show s.clamped = false from hclamped)]
  refine forall_congr' fun c => forall_congr' fun hc => ?_
  have howed : ∀ q, ({ s with demux := s.demux.notifyPaneClosed p } : Proxy T).owed c q =
      byteCount (framesTo c q s.inFlight) +
        if q = p then 0 else byteCount (s.demux.queued c q) := by
    intro q
    show _ + byteCount ((if q = p then none else s.demux.hydrating c q).getD []) = _
    split <;> rfl
  constructor
  · intro hall
    have hone : s.fc.subBuffered p c = _ := (hall p).trans (howed p)
    rw [hledger c hc p, if_pos rfl, Proxy.owed] at hone
    by_contra hne
    have hpos := byteCount_pos hne fun chunk hchunk => (h.stocked.queued c p chunk hchunk).2
    exact hpos.ne' (Nat.add_left_cancel hone)
  · intro hnone q
    refine (hledger c hc q).trans ?_
    rw [howed, Proxy.owed]
    split
    · next hq => rw [hq, hnone, byteCount_nil]
    · rfl

theorem due_runMicrotask (h : Wired s) (hdue : s.Due []) (backpressured : DataFrame T → Bool)
    {out : OutputDemux T × List (DataFrame T)} (hrun : s.demux.runMicrotask = some out) :
    (s.deliver backpressured out).Due [] ↔ Accounts s (.runMicrotask backpressured) := by
  obtain ⟨hclamped, hledger⟩ := Proxy.due_nil.mp hdue
  have hreach := h.reachable (h.stocked.runMicrotask h.known hrun).2
  obtain ⟨p, chunks, rest, htasks, hcases⟩ := OutputDemux.runMicrotask_cases hrun
  have hclients : s.demux.transports.values = [] ↔ s.fc.clients.values = [] := by
    simp only [List.eq_nil_iff_forall_not_mem, h.attached]
  have haccounts : Accounts s (.runMicrotask backpressured) ↔ p ∉ s.demux.knownPanes ∨
      p ∈ s.demux.pausedPanes ∨ s.fc.clients.values = [] := by
    unfold Accounts
    rw [htasks]
    simp
  rw [haccounts]
  rcases hcases with ⟨hd, hframes, hskip⟩ | ⟨hout, hknown, hopen, hsome⟩
  · refine iff_of_true ?_ (hskip.imp_right (.imp_right hclients.mp))
    refine (Proxy.due_stays backpressured hreach fun c q => ?_).mpr hdue
    rw [hd, hframes]
    rfl
  · have hflush := h.stocked.flushing (p, chunks) (htasks ▸ List.mem_cons_self)
    have hmoves := fun c q =>
      OutputDemux.fanOutAll_moves { s.demux with microtasks := rest } p q chunks c
    rw [hout] at hmoves
    refine iff_of_false (fun hall => ?_) ?_
    · obtain ⟨c, hc⟩ := List.exists_mem_of_ne_nil _ (mt hclients.mpr hsome)
      rw [Proxy.due_moves backpressured hreach hmoves] at hall
      have hone := hall.2 c hc p
      rw [hledger c hc p, if_pos ⟨(h.attached c).mpr hc, rfl⟩] at hone
      exact (byteCount_pos hflush.1 hflush.2).ne' (Nat.left_eq_add.mp hone)
    · rintro (hunknown | hgated | hnone)
      · exact hunknown hknown
      · exact hopen hgated
      · exact hsome (hclients.mpr hnone)

theorem due_endPaneHydration (h : Wired s) (hdue : s.Due [])
    (backpressured : DataFrame T → Bool) (client : T) (p : PaneId) :
    (s.deliver backpressured (s.demux.endPaneHydration client p)).Due [] := by
  have hreach := h.reachable (h.stocked.endPaneHydration client p).2
  exact (Proxy.due_stays backpressured hreach fun c q =>
    Demux.endPaneHydration_queued s.demux client c p q).mpr hdue

theorem due_drained (h : Wired s) (hdue : s.Due []) {index : Nat} {frame : DataFrame T}
    (hframe : s.inFlight[index]? = some frame) :
    (Proxy.drain { s with inFlight := s.inFlight.eraseIdx index } frame).Due [] := by
  obtain ⟨hlt, hget⟩ := List.getElem?_eq_some_iff.mp hframe
  have hknown := h.sent frame (List.mem_of_getElem? hframe)
  rw [Proxy.due_drain (s := { s with inFlight := s.inFlight.eraseIdx index })
    ⟨fun f hf => List.mem_singleton.mp hf ▸ hknown, h.departed⟩]
  obtain ⟨hclamped, hledger⟩ := Proxy.due_nil.mp hdue
  refine ⟨hclamped, fun c hc p => (hledger c hc p).trans ?_⟩
  have hsent : byteCount (framesTo c p s.inFlight) =
      byteCount (framesTo c p (s.inFlight.eraseIdx index)) +
        byteCount (framesTo c p [frame]) := by
    conv_lhs => rw [← List.take_append_drop index s.inFlight, List.drop_eq_getElem_cons hlt, hget,
      ← List.singleton_append]
    rw [List.eraseIdx_eq_take_drop_succ]
    simp only [framesTo_append, byteCount_append]
    rw [Nat.add_right_comm, Nat.add_assoc]
  show _ + byteCount (s.demux.queued c p) = _ + byteCount (s.demux.queued c p) + _
  rw [hsent, Nat.add_right_comm]

/-- A call of the controller that leaves the ledgers alone. -/
theorem due_control (hdue : s.Due []) {out : FlowController T × List FlowEffect}
    {held : Finset PaneId} (hclients : out.1.clients = s.fc.clients)
    (hledgers : out.1.buffered = s.fc.buffered) (hquiet : ¬Clamps out.2) :
    ({ s with held }.control out).Due [] := by
  obtain ⟨hclamped, hledger⟩ := Proxy.due_nil.mp hdue
  refine Proxy.due_nil.mpr ⟨?_, fun c hc p => ?_⟩
  · rw [← Bool.not_eq_true, Proxy.control_clamped, not_or]
    exact ⟨by rw [hclamped]; exact Bool.false_ne_true, hquiet⟩
  · rw [Proxy.control_fc, hclients] at hc
    rw [Proxy.control_fc, Proxy.control_owed, FlowController.subBuffered, hledgers]
    exact hledger c hc p

/-- An event keeps the balance of every ledger exactly if it accounts for its bytes. -/
theorem due_step (h : Wired s) (hdue : s.Due []) (event : Event T) :
    (∀ s', Flow.step s event = some s' → s'.Due []) ↔ Accounts s event := by
  have hopen : ¬s.clamped = true := by
    rw [hdue.1]
    exact Bool.false_ne_true
  cases event with
  | output p bytes backpressured =>
    simp only [Flow.step, if_neg hopen, Option.some.injEq, forall_eq']
    exact h.due_output hdue backpressured p bytes
  | addClient client =>
    refine iff_of_true (fun s' hstep => ?_) trivial
    simp only [Flow.step, if_neg hopen] at hstep
    split at hstep
    · cases hstep
    · next hfresh =>
      cases hstep
      exact h.due_addClient hdue hfresh
  | closeClient client =>
    refine iff_of_true (fun s' hstep => ?_) trivial
    simp only [Flow.step, if_neg hopen] at hstep
    split at hstep
    · next hclient =>
      cases hstep
      exact due_closeClient hdue hclient
    · cases hstep
  | notifyPaneBound p =>
    refine iff_of_true (fun s' hstep => ?_) trivial
    simp only [Flow.step, if_neg hopen, Option.some.injEq] at hstep
    rw [← hstep]
    obtain ⟨hclamped, hledger⟩ := Proxy.due_nil.mp hdue
    refine Proxy.due_nil.mpr ⟨hclamped, fun c hc q => (hledger c hc q).trans ?_⟩
    show _ = byteCount _ + byteCount ((s.demux.notifyPaneBound p).queued c q)
    rw [OutputDemux.queued, (s.demux.notifyPaneBound_frame p).2.2]
    rfl
  | notifyPaneClosed p =>
    simp only [Flow.step, if_neg hopen, Option.some.injEq, forall_eq']
    exact h.due_notifyPaneClosed hdue p
  | runMicrotask backpressured =>
    simp only [Flow.step, if_neg hopen]
    rcases hrun : s.demux.runMicrotask with _ | out
    · -- no microtask is queued
      refine iff_of_true (fun s' hstep => by cases hstep) fun task htask => ?_
      unfold OutputDemux.runMicrotask at hrun
      split at hrun
      · next hnone =>
        rw [hnone] at htask
        cases htask
      · dsimp only at hrun
        split at hrun
        · cases hrun
        · split at hrun
          · cases hrun
          · split at hrun <;> cases hrun
    · simp only [Option.map_some, Option.some.injEq, forall_eq']
      exact h.due_runMicrotask hdue backpressured hrun
  | beginPaneHydration client p =>
    refine iff_of_true (fun s' hstep => ?_) trivial
    simp only [Flow.step, if_neg hopen, Option.some.injEq] at hstep
    rw [← hstep]
    obtain ⟨hclamped, hledger⟩ := Proxy.due_nil.mp hdue
    refine Proxy.due_nil.mpr ⟨hclamped, fun c hc q => (hledger c hc q).trans ?_⟩
    show _ = byteCount _ + byteCount ((s.demux.beginPaneHydration client p).queued c q)
    rw [Demux.queued_beginPaneHydration]
    rfl
  | endPaneHydration client p backpressured =>
    refine iff_of_true (fun s' hstep => ?_) trivial
    simp only [Flow.step, if_neg hopen, Option.some.injEq] at hstep
    rw [← hstep]
    exact h.due_endPaneHydration hdue backpressured client p
  | drained index =>
    refine iff_of_true (fun s' hstep => ?_) trivial
    simp only [Flow.step, if_neg hopen] at hstep
    obtain ⟨frame, hframe, rfl⟩ := Option.map_eq_some_iff.mp hstep
    exact h.due_drained hdue hframe
  | onPauseNotification p =>
    simp only [Flow.step, if_neg hopen, Option.some.injEq, forall_eq']
    refine iff_of_true (due_control hdue ?_ ?_ (s.fc.gates_onPauseNotification p).2) trivial
    all_goals
      unfold FlowController.onPauseNotification
      split <;> rfl
  | onContinueNotification p =>
    simp only [Flow.step, if_neg hopen, Option.some.injEq, forall_eq']
    refine iff_of_true (due_control hdue ?_ ?_ (s.fc.gates_onContinueNotification p).2) trivial
    all_goals
      unfold FlowController.onContinueNotification
      split <;> rfl

end Wired

/-! ## Runs -/

/-- Every ledger is what its client owes, no credit exceeds its ledger and no pane is paused
with nothing in flight, in every state of a run, exactly if every event of the run accounts
for its bytes. -/
theorem flow_ledger_iff (highWater lowWater : Nat) (h : lowWater < highWater)
    (events : List (Event T)) :
    (∀ done s, done <+: events →
        exec step (createProxy highWater lowWater h) done = some s → Balanced s) ↔
      Along step Accounts (createProxy highWater lowWater h) events := by
  refine prefixes_iff_along (P := Wired) (fun s e s' hs => hs.step) (fun s e hs hb => ?_)
    (Wired.create highWater lowWater h) ?_
  · rw [← hs.due_step (hs.balanced_iff.mp hb) e]
    exact forall_congr' fun s' => forall_congr' fun hstep => (hs.step hstep).balanced_iff
  · rw [(Wired.create highWater lowWater h).balanced_iff, Proxy.due_nil]
    exact ⟨rfl, fun c hc => absurd hc List.not_mem_nil⟩

/-- The first chunk waits for the first client's socket and in the second client's hydration
queue; the second one is taken at once, before the queue is flushed and a new one is begun. -/
def slowRun : List (Event Nat) :=
  [.addClient 0, .addClient 1, .notifyPaneBound ⟨"p0"⟩, .beginPaneHydration 1 ⟨"p0"⟩,
    .output ⟨"p0"⟩ (ascii "ab") fun _ => true, .output ⟨"p0"⟩ (ascii "c") fun _ => false,
    .endPaneHydration 1 ⟨"p0"⟩ fun frame => frame.chunk.bytes == ascii "c",
    .beginPaneHydration 1 ⟨"p0"⟩, .output ⟨"p0"⟩ (ascii "def") fun _ => false]

theorem slow_run_balanced : ∃ s, exec step (createProxy DEFAULT_HIGH_WATER_BYTES
    DEFAULT_LOW_WATER_BYTES (by decide)) slowRun = some s ∧ Balanced s ∧
    s.inFlight.map (fun frame => (frame.transport, frame.chunk.bytes)) =
      [(0, ascii "ab"), (1, ascii "c")] ∧
    (s.demux.queued 1 ⟨"p0"⟩).map (·.bytes) = [ascii "def"] ∧
    s.fc.subBuffered ⟨"p0"⟩ 0 = 2 ∧ s.fc.subBuffered ⟨"p0"⟩ 1 = 4 := by
  refine ⟨_, rfl, (flow_ledger_iff DEFAULT_HIGH_WATER_BYTES DEFAULT_LOW_WATER_BYTES (by decide)
    slowRun).mpr (by decide +kernel) slowRun _ (List.prefix_refl _) rfl, ?_⟩
  decide +kernel

/-- A client joins between the output of a pane and the notification that binds it. -/
def lateJoiner : List (Event Unit) :=
  [.output ⟨"p0"⟩ (ascii "a") fun _ => false, .addClient (), .notifyPaneBound ⟨"p0"⟩,
    .runMicrotask fun _ => false]

theorem late_joiner_clamps : ∃ s, exec step (createProxy DEFAULT_HIGH_WATER_BYTES
    DEFAULT_LOW_WATER_BYTES (by decide)) lateJoiner = some s ∧ ¬Balanced s :=
  ⟨_, rfl, fun h => absurd h.unclamped (by decide)⟩

end TmuxccDriver.Runtime.Flow
