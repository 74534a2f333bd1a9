import TmuxccDriver.Runtime.DemuxOrder
import TmuxccDriver.Runtime.FlowLedger
import TmuxccDriver.Runtime.Hydration

/-!
# Hydration and live output

`runtime/hydration.ts` and its callers in `runtime/session-proxy.ts`: a hydration opens the
queue of its transport and pane, captures the pane, reads its cursor, sends the replay on the
raw transport and flushes the queue. Between any two of these steps anything may happen to
the data plane, and other hydrations of the same transport and pane may go on.

A capture is taken when tmux answers it. Replies and output are one stream, so output that
is appended after the reply was read is output that tmux emitted after the capture.

Results:
1. `moves_of_step`: what an event of the data plane does to the line of a transport and a pane.
2. `Guarded`: the invariant of a run whose hydrations do not overlap and that drops no output
   of a pane with a replay.
3. `hydration_protects`: in every state of such a run no replay erases newer output, and each
   newer chunk comes once.
-/

namespace TmuxccDriver.Runtime.Hydrating
open TmuxccDriver.Lib TmuxccDriver.Parser TmuxccDriver.Protocol TmuxccDriver.Runtime.Demux
open TmuxccDriver.Runtime.Flow (Proxy Wired)

variable {T : Type} [DecidableEq T]

/-! ## Hydrations -/

/-- Where a `_hydrateOnePane` stands. From its capture to its replay it carries how many
chunks the session proxy had been given when the capture was taken. -/
inductive Phase
  /-- `capture-pane` is sent. -/
  | capturing
  /-- Its promise is settled; the continuation has not run. -/
  | captured (outcome : Outcome) (takenAt : Nat)
  /-- `display-message` is sent. -/
  | asking (body : Bytes) (takenAt : Nat)
  | asked (body : Bytes) (facts : Option PaneGridFacts) (takenAt : Nat)
  /-- The replay is sent; the transport may hold the continuation back. -/
  | delivered
  | finished

namespace Phase

/-- The mark of a capture whose replay has not been sent. -/
def takenAt : Phase → Option Nat
  | .captured (.resolved result) n => if result.ok then some n else none
  | .asking _ n | .asked _ _ n => some n
  | _ => none

/-- The queue of the pair was opened for this hydration, which has not closed it. -/
def isOpen : Phase → Bool
  | .finished => false
  | _ => true

end Phase

structure Hydration (T : Type) where
  transport : T
  paneId : PaneId
  phase : Phase

/-- A call of `sendData` on a raw transport: output of the demux, or the replay of a
hydration. -/
inductive Delivery (T : Type)
  | live (frame : DataFrame T)
  | replay (transport : T) (paneId : PaneId) (takenAt : Nat) (bytes : Bytes)

/-! ## Runs -/

/-- The data plane and the hydrations, the oldest first, with the chunks that were given to
the data plane and all deliveries. -/
structure Run (T : Type) where
  proxy : Proxy T
  hydrations : List (Hydration T)
  appended : List (PaneId × Chunk)
  sent : List (Delivery T)

def start (highWater lowWater : Nat) (h : lowWater < highWater) : Run T :=
  ⟨Flow.createProxy highWater lowWater h, [], [], []⟩

inductive Event (T : Type)
  /-- Anything but the begin and the end of a hydration. -/
  | plane (event : Flow.Event T)
  /-- A `_hydrateOnePane`, from the bulk attach or from a `pane.attach`. -/
  | hydrate (transport : T) (paneId : PaneId)
  | captureReply (index : Nat) (outcome : Outcome)
  | factsReply (index : Nat) (facts : Option PaneGridFacts)
  /-- The continuation of a hydration runs. -/
  | resume (index : Nat) (backpressured : DataFrame T → Bool)

/-- The chunk that an event gives to the data plane. -/
def emitted (s : Proxy T) : Flow.Event T → List (PaneId × Chunk)
  | .output paneId bytes _ => [(paneId, ⟨s.count, bytes⟩)]
  | _ => []

/-- The calls of `sendData` that an event makes. -/
def framesOf (s : Proxy T) : Flow.Event T → List (DataFrame T)
  | .output paneId bytes _ => ((s.credit paneId bytes).demux.append paneId ⟨s.count, bytes⟩).2
  | .runMicrotask _ => (s.demux.runMicrotask.map (·.2)).getD []
  | .endPaneHydration client paneId _ => (s.demux.endPaneHydration client paneId).2
  | _ => []

def onPlane (r : Run T) (event : Flow.Event T) : Option (Run T) :=
  (Flow.step r.proxy event).map fun proxy =>
    { r with
      proxy
      appended := r.appended ++ emitted r.proxy event
      sent := r.sent ++ (framesOf r.proxy event).map .live }

/-- The calls that only a hydration makes. -/
def ofHydration : Flow.Event T → Bool
  | .beginPaneHydration _ _ | .endPaneHydration _ _ _ => true
  | _ => false

def setPhase (r : Run T) (index : Nat) (h : Hydration T) (phase : Phase) : Run T :=
  { r with hydrations := r.hydrations.set index { h with phase } }

/-- The `finally` of `_hydrateOnePane`. -/
def finish (r : Run T) (index : Nat) (h : Hydration T) (backpressured : DataFrame T → Bool) :
    Option (Run T) :=
  onPlane (setPhase r index h .finished) (.endPaneHydration h.transport h.paneId backpressured)

/-- A continuation of `_hydrateOnePane`, from one `await` to the next. -/
def resume (r : Run T) (index : Nat) (h : Hydration T) (backpressured : DataFrame T → Bool) :
    Option (Run T) :=
  match h.phase with
  | .captured (.resolved result) takenAt =>
    if result.ok then some (setPhase r index h (.asking result.body takenAt))
    else finish r index h backpressured
  | .captured (.rejected _) _ => finish r index h backpressured
  | .asked body facts takenAt =>
    some { setPhase r index h .delivered with
      sent := r.sent ++ [.replay h.transport h.paneId takenAt (deliverReplay body facts)] }
  | .delivered => finish r index h backpressured
  | _ => none

def step (r : Run T) : Event T → Option (Run T)
  | .plane event => if ofHydration event then none else onPlane r event
  -- The callers hydrate on transports they have attached, also when these have closed since.
  | .hydrate transport paneId =>
    if transport ∈ r.proxy.fc.clients.values ∨ transport ∈ r.proxy.closed then
      (onPlane r (.beginPaneHydration transport paneId)).map fun r =>
        { r with hydrations := r.hydrations ++ [⟨transport, paneId, .capturing⟩] }
    else none
  | .captureReply index outcome =>
    match r.hydrations[index]? with
    | some ⟨transport, paneId, .capturing⟩ =>
      some (setPhase r index ⟨transport, paneId, .capturing⟩ (.captured outcome r.proxy.count))
    | _ => none
  | .factsReply index facts =>
    match r.hydrations[index]? with
    | some ⟨transport, paneId, .asking body takenAt⟩ =>
      some (setPhase r index ⟨transport, paneId, .asking body takenAt⟩ (.asked body facts takenAt))
    | _ => none
  | .resume index backpressured =>
    r.hydrations[index]?.bind fun h => resume r index h backpressured

/-! ## Erased and lost output -/

def liveFrame : Delivery T → Option (DataFrame T)
  | .live frame => some frame
  | .replay .. => none

/-- The live chunks of a pane among deliveries to a transport. -/
def liveTo (transport : T) (paneId : PaneId) (sent : List (Delivery T)) : List Chunk :=
  framesTo transport paneId (sent.filterMap liveFrame)

/-- No hydration of the pair is under way. -/
def Idle (r : Run T) (transport : T) (paneId : PaneId) : Prop :=
  ∀ h ∈ r.hydrations, h.transport = transport → h.paneId = paneId → h.phase.isOpen = false

instance (r : Run T) (transport : T) (paneId : PaneId) : Decidable (Idle r transport paneId) :=
  inferInstanceAs (Decidable (∀ h ∈ r.hydrations, _))

/-- On an open transport a replay comes before every live chunk that tmux emitted after its
capture, and each of these comes once: it is sent, or it waits in the demux. -/
structure Protects (r : Run T) : Prop where
  not_before : ∀ before after t p takenAt bytes,
    r.sent = before ++ .replay t p takenAt bytes :: after → t ∉ r.proxy.closed →
      ∀ chunk ∈ liveTo t p before, chunk.seq < takenAt
  after_once : ∀ before after t p takenAt bytes,
    r.sent = before ++ .replay t p takenAt bytes :: after → t ∉ r.proxy.closed →
      ∀ chunk ∈ chunksOf p r.appended, takenAt ≤ chunk.seq → chunk.bytes ≠ [] →
        (liveTo t p after ++ r.proxy.demux.waiting t p).count chunk = 1
  idle_empty : ∀ t p, t ∉ r.proxy.closed → Idle r t p → r.proxy.demux.queued t p = []

/-! ## What a step must meet -/

/-- The mark of a hydration of the pair whose capture is taken and whose replay is not sent. -/
def pendingMark (transport : T) (paneId : PaneId) (h : Hydration T) : Option Nat :=
  if h.transport = transport ∧ h.paneId = paneId then h.phase.takenAt else none

/-- The mark of a replay of the pair. -/
def sentMark (transport : T) (paneId : PaneId) : Delivery T → Option Nat
  | .live _ => none
  | .replay t p takenAt _ => if t = transport ∧ p = paneId then some takenAt else none

/-- The marks of the replays that a transport was sent for a pane, or will be sent. -/
def marks (r : Run T) (transport : T) (paneId : PaneId) : List Nat :=
  r.hydrations.filterMap (pendingMark transport paneId) ++
    r.sent.filterMap (sentMark transport paneId)

/-- A client was sent a replay of the pane, or will be sent one whose capture is taken. -/
def Replayed (r : Run T) (paneId : PaneId) : Prop :=
  ∃ client ∈ r.proxy.fc.clients.values, marks r client paneId ≠ []

instance (r : Run T) (paneId : PaneId) : Decidable (Replayed r paneId) :=
  inferInstanceAs (Decidable (∃ client ∈ r.proxy.fc.clients.values, _))

/-- The pane is not paused, and the bytes lift no backlog above high water; before the pane is
bound, the pre-topology buffer has room for them. -/
def Fits (s : Proxy T) (paneId : PaneId) (byteCount : Nat) : Prop :=
  (paneId ∈ s.demux.knownPanes → paneId ∉ s.fc.paused.values ∧
    ∀ client ∈ s.fc.clients.values, s.fc.subBuffered paneId client + byteCount ≤ s.fc.highWater) ∧
  (paneId ∉ s.demux.knownPanes →
    s.demux.pendingFanoutBytes paneId + byteCount ≤ MAX_PENDING_BYTES_PER_PANE)

instance (s : Proxy T) (paneId : PaneId) (byteCount : Nat) :
    Decidable (Fits s paneId byteCount) :=
  inferInstanceAs (Decidable ((_ → _) ∧ (_ → _)))

/-- Hydrations of a pair do not overlap, no pane closes that is being hydrated, and output of
a pane with a replay is not dropped: it fits, its flush finds the pane open, and the pane is
not closed with output staged. -/
def Meets (r : Run T) : Event T → Prop
  | .plane (.output paneId bytes _) =>
    bytes ≠ [] → Replayed r paneId → Fits r.proxy paneId bytes.length
  | .plane (.runMicrotask _) =>
    ∀ task ∈ r.proxy.demux.microtasks.head?, Replayed r task.1 →
      task.1 ∈ r.proxy.demux.knownPanes ∧ task.1 ∉ r.proxy.fc.paused.values
  | .plane (.notifyPaneClosed paneId) =>
    (∀ h ∈ r.hydrations, h.transport ∉ r.proxy.closed → h.paneId = paneId →
      h.phase.isOpen = false) ∧ (Replayed r paneId → r.proxy.demux.pendingFanout paneId = [])
  | .hydrate transport paneId => transport ∉ r.proxy.closed → Idle r transport paneId
  | _ => True

instance (r : Run T) : (event : Event T) → Decidable (Meets r event)
  | .plane (.output _ _ _) => inferInstanceAs (Decidable (_ → _ → _))
  | .plane (.runMicrotask _) =>
    inferInstanceAs (Decidable (∀ task ∈ r.proxy.demux.microtasks.head?, _ → _ ∧ _))
  | .plane (.notifyPaneClosed _) =>
    inferInstanceAs (Decidable ((∀ h ∈ r.hydrations, _ → _ → _) ∧ (_ → _)))
  | .hydrate _ _ => inferInstanceAs (Decidable (_ → _))
  | .plane (.addClient _) | .plane (.closeClient _) | .plane (.notifyPaneBound _)
  | .plane (.beginPaneHydration _ _) | .plane (.endPaneHydration _ _ _) | .plane (.drained _)
  | .plane (.onPauseNotification _) | .plane (.onContinueNotification _) | .captureReply _ _
  | .factsReply _ _ | .resume _ _ => .isTrue trivial

/-! ## Events of the data plane -/

/-- The event drops no chunk of the pane. -/
def Keeps (s : Proxy T) (p : PaneId) : Flow.Event T → Prop
  | .output q bytes _ => q = p → bytes ≠ [] → Fits s p bytes.length
  | .runMicrotask _ => ∀ task ∈ s.demux.microtasks.head?, task.1 = p →
    p ∈ s.demux.knownPanes ∧ p ∉ s.fc.paused.values
  | .notifyPaneClosed q => q = p → s.demux.pendingFanout p = [] ∧
    ∀ t ∈ s.demux.transports.values, s.demux.hydrating t p = none
  | _ => True

/-- What an event does to the chunks in line for a transport and a pane: what goes out and what
still waits was in line or is new, and nothing of a pane is lost that the event keeps. -/
structure Lines (s s' : Proxy T) (event : Flow.Event T) : Prop where
  count : s'.count = s.count + (emitted s event).length
  closed : s.closed ⊆ s'.closed
  known : ∀ t, s.Known t → s'.Known t
  le : ∀ t p chunk, (framesTo t p (framesOf s event) ++ s'.demux.waiting t p).count chunk ≤
    (s.demux.waiting t p ++ chunksOf p (emitted s event)).count chunk
  kept : ∀ t ∈ s.demux.transports.values, ∀ p, Keeps s p event → ∀ chunk, chunk.bytes ≠ [] →
    (framesTo t p (framesOf s event) ++ s'.demux.waiting t p).count chunk =
      (s.demux.waiting t p ++ chunksOf p (emitted s event)).count chunk

/-- An event that is not a call of a hydration opens no queue, and sends nothing past one. -/
structure Moves (s s' : Proxy T) (event : Flow.Event T) : Prop extends Lines s s' event where
  gate : ∀ t p, (s'.demux.hydrating t p).isSome = (s.demux.hydrating t p).isSome ∨
    event = .notifyPaneClosed p ∧ s'.demux.hydrating t p = none
  silent : ∀ t p, (s.demux.hydrating t p).isSome → framesTo t p (framesOf s event) = []

/-- The demux is the same but for its transports and its gate. -/
def SameLines (d d' : OutputDemux T) : Prop :=
  ∃ transports pausedPanes, d' = { d with transports, pausedPanes }

omit [DecidableEq T] in
theorem SameLines.waiting {d d' : OutputDemux T} (h : SameLines d d') (t : T) (p : PaneId) :
    d'.waiting t p = d.waiting t p := by
  obtain ⟨transports, paused, rfl⟩ := h
  rfl

omit [DecidableEq T] in
theorem SameLines.hydrating {d d' : OutputDemux T} (h : SameLines d d') :
    d'.hydrating = d.hydrating := by
  obtain ⟨transports, paused, rfl⟩ := h
  rfl

omit [DecidableEq T] in
theorem SameLines.trans {d₁ d₂ d₃ : OutputDemux T} (h : SameLines d₁ d₂) (h' : SameLines d₂ d₃) :
    SameLines d₁ d₃ := by
  obtain ⟨transports, paused, rfl⟩ := h
  obtain ⟨transports', paused', rfl⟩ := h'
  exact ⟨transports', paused', rfl⟩

/-- What the calls of `sendData` change besides the ledgers. -/
structure Sends (s s' : Proxy T) : Prop where
  lines : SameLines s.demux s'.demux
  count : s'.count = s.count
  closed : s'.closed = s.closed
  clients : s'.fc.clients = s.fc.clients

omit [DecidableEq T] in
theorem Sends.known {s s' : Proxy T} (h : Sends s s') (t : T) : s'.Known t ↔ s.Known t := by
  unfold Proxy.Known
  rw [h.clients, h.closed]

omit [DecidableEq T] in
theorem sends_control (s : Proxy T) {out : FlowController T × List FlowEffect}
    (h : out.1.clients = s.fc.clients) : Sends s (s.control out) := by
  obtain ⟨clamped, hframe, -⟩ := s.control_frame out
  rw [hframe]
  exact ⟨⟨_, _, rfl⟩, rfl, rfl, h⟩

theorem sends_sendData (backpressured : DataFrame T → Bool) (s : Proxy T) (frame : DataFrame T) :
    Sends s (s.sendData backpressured frame) := by
  have hsame : ∀ inFlight, Sends s { s with inFlight } := fun _ => ⟨⟨_, _, rfl⟩, rfl, rfl, rfl⟩
  unfold Proxy.sendData
  split
  · exact hsame s.inFlight
  · split
    · exact hsame _
    · unfold Proxy.drain
      split
      · exact hsame s.inFlight
      · obtain ⟨inner, paused, hframe, -⟩ := s.fc.noteDrained_frame frame.paneId
          frame.chunk.bytes.length frame.transport
        exact sends_control s (by rw [hframe]; rfl)

theorem sends_deliver (s : Proxy T) (backpressured : DataFrame T → Bool)
    (out : OutputDemux T × List (DataFrame T)) :
    Sends { s with demux := out.1 } (s.deliver backpressured out) := by
  refine foldl_keeps (P := fun s' => Sends { s with demux := out.1 } s')
    ⟨⟨_, _, rfl⟩, rfl, rfl, rfl⟩ fun frame s' _ h => ?_
  have hone := sends_sendData backpressured s' frame
  exact ⟨h.lines.trans hone.lines, hone.count.trans h.count, hone.closed.trans h.closed,
    hone.clients.trans h.clients⟩

/-- An event that touches no chunk. -/
theorem Moves.still {s s' : Proxy T} {event : Flow.Event T} (hlines : SameLines s.demux s'.demux)
    (hemitted : emitted s event = []) (hframes : framesOf s event = [])
    (hcount : s'.count = s.count) (hclosed : s.closed ⊆ s'.closed)
    (hknown : ∀ t, s.Known t → s'.Known t) : Moves s s' event := by
  refine ⟨⟨?_, hclosed, hknown, fun t p chunk => ?_, fun t _ p _ chunk _ => ?_⟩, fun t p => ?_,
    fun t p _ => ?_⟩
  · rw [hcount, hemitted, List.length_nil, Nat.add_zero]
  · rw [hframes, hemitted, hlines.waiting, framesTo_nil, chunksOf_nil, List.append_nil,
      List.nil_append]
  · rw [hframes, hemitted, hlines.waiting, framesTo_nil, chunksOf_nil, List.append_nil,
      List.nil_append]
  · rw [hlines.hydrating]
    exact .inl rfl
  · rw [hframes, framesTo_nil]

/-- What a fan-out does to the line of a transport and a pane. -/
theorem count_fanOutAll (d : OutputDemux T) (q : PaneId) (chunks : List Chunk) (t : T) (p : PaneId)
    (chunk : Chunk) :
    (framesTo t p (d.fanOutAll q chunks).2 ++ (d.fanOutAll q chunks).1.waiting t p).count chunk =
      (d.waiting t p).count chunk +
        (if t ∈ d.transports.values ∧ q = p then chunks else []).count chunk := by
  obtain ⟨hydrating, hframe⟩ := d.fanOutAll_frame q chunks
  have hmoves := congrArg (List.count chunk) (d.fanOutAll_moves q p chunks t)
  have hwaiting : (d.fanOutAll q chunks).1.waiting t p =
      (d.fanOutAll q chunks).1.queued t p ++ (d.flushing p ++ d.pendingFanout p) := by
    rw [OutputDemux.waiting, hframe]
    rfl
  rw [hwaiting, ← List.append_assoc, List.count_append, hmoves]
  simp only [OutputDemux.waiting, List.count_append]
  exact Nat.add_right_comm _ _ _

omit [DecidableEq T] in
/-- The oldest microtask takes its chunks out of the line. -/
theorem count_microtask {d : OutputDemux T} {q : PaneId} {chunks : List Chunk}
    {rest : List (PaneId × List Chunk)} (h : d.microtasks = (q, chunks) :: rest) (t : T)
    (p : PaneId) (chunk : Chunk) : (d.waiting t p).count chunk =
      (({ d with microtasks := rest } : OutputDemux T).waiting t p).count chunk +
        (if q = p then chunks else []).count chunk := by
  have hqueued : ({ d with microtasks := rest } : OutputDemux T).queued t p = d.queued t p := rfl
  rw [OutputDemux.waiting, flushing_cons h p, OutputDemux.waiting, hqueued]
  simp only [List.count_append]
  omega

theorem count_fanned_le (d : OutputDemux T) (q : PaneId) (chunks : List Chunk) (t : T) (p : PaneId)
    (chunk : Chunk) : (if t ∈ d.transports.values ∧ q = p then chunks else []).count chunk ≤
      (if q = p then chunks else []).count chunk := by
  by_cases hto : t ∈ d.transports.values ∧ q = p
  · rw [if_pos hto, if_pos hto.2]
  · rw [if_neg hto]
    exact Nat.zero_le _

/-- The chunk of an append goes to the pre-topology buffer or is fanned out, unless the pane is
paused, the buffer is full or there is no byte in it. -/
theorem moves_append {d : OutputDemux T} (q : PaneId) (chunk : Chunk) (t : T) (p : PaneId)
    (c : Chunk) :
    (framesTo t p (d.append q chunk).2 ++ (d.append q chunk).1.waiting t p).count c ≤
        (d.waiting t p ++ chunksOf p [(q, chunk)]).count c ∧
      (t ∈ d.transports.values → c.bytes ≠ [] →
        (q = p → chunk.bytes ≠ [] → (p ∈ d.knownPanes → p ∉ d.pausedPanes) ∧
          (p ∉ d.knownPanes →
            d.pendingFanoutBytes p + chunk.bytes.length ≤ MAX_PENDING_BYTES_PER_PANE)) →
        (framesTo t p (d.append q chunk).2 ++ (d.append q chunk).1.waiting t p).count c =
          (d.waiting t p ++ chunksOf p [(q, chunk)]).count c) := by
  rw [chunksOf_singleton]
  rcases d.append_cases q chunk with ⟨hout, hlost⟩ | ⟨hout, hbytes, hq, hpaused, -⟩ |
    ⟨hout, hbytes, hq, hroom⟩
  · rw [hout, framesTo_nil, List.nil_append, List.count_append]
    refine ⟨Nat.le_add_right _ _, fun ht hc hkeeps => (Nat.add_eq_left.mpr ?_).symm⟩
    refine List.count_eq_zero_of_not_mem fun hmem => ?_
    split at hmem
    · next hqp =>
      have hne : chunk.bytes ≠ [] := List.mem_singleton.mp hmem ▸ hc
      obtain ⟨hopen, hfits⟩ := hkeeps hqp hne
      rcases hlost with hnil | ⟨hknown, hgated | hnone⟩ | ⟨hunknown, hfull⟩
      · exact hne hnil
      · exact hopen (hqp ▸ hknown) (hqp ▸ hgated)
      · exact absurd (hnone ▸ ht) List.not_mem_nil
      · exact absurd (hfits (hqp ▸ hunknown)) (by rw [← hqp]; exact not_le.mpr hfull)
    · exact absurd hmem List.not_mem_nil
  · rw [hout, ← OutputDemux.fanOutAll_singleton, count_fanOutAll, List.count_append]
    refine ⟨Nat.add_le_add_left (count_fanned_le d q [chunk] t p c) _, fun ht _ _ => ?_⟩
    simp only [ht, true_and]
  · have hstage : ((d.stage q chunk (d.pendingFanoutBytes q + chunk.bytes.length)).waiting t p) =
        d.waiting t p ++ if q = p then [chunk] else [] := by
      show d.queued t p ++ (d.flushing p ++ if p = q then d.pendingFanout p ++ [chunk]
        else d.pendingFanout p) = _
      rw [OutputDemux.waiting]
      rcases eq_or_ne q p with rfl | hne
      · simp
      · simp [hne, hne.symm]
    rw [hout, framesTo_nil, List.nil_append, hstage]
    exact ⟨le_rfl, fun _ _ _ => rfl⟩

/-- A chunk that a client's backlog has room for finds the gate open. -/
theorem open_of_fits {s : Proxy T} (h : Wired s) {p : PaneId} {bytes : Bytes}
    (hfits : Fits s p bytes.length) (hknown : p ∈ s.demux.knownPanes) :
    p ∉ (s.credit p bytes).demux.pausedPanes := by
  obtain ⟨hopen, hroom⟩ := hfits.1 hknown
  rw [h.paused_credit]
  rcases s.fc.onPaneBytes_cases p bytes.length with ⟨hout, -⟩ | ⟨-, -, -, ⟨hout, -⟩ | ⟨-, c, hover⟩⟩
  · rwa [hout]
  · rw [hout]
    exact hopen
  · rw [FlowController.count_credited] at hover
    split at hover
    · next hc => exact absurd hover (not_lt.mpr (hroom c hc))
    · exact absurd hover (not_lt.mpr (h.regular.bounded p c))

theorem moves_output {s s' : Proxy T} (h : Wired s) {q : PaneId} {bytes : Bytes}
    {backpressured : DataFrame T → Bool} (hs' : s' = s.append backpressured q bytes) :
    Moves s s' (.output q bytes backpressured) := by
  have hcredit : ∃ pausedPanes, (s.credit q bytes).demux = { s.demux with pausedPanes } ∧
      (s.credit q bytes).count = s.count + 1 ∧ (s.credit q bytes).closed = s.closed ∧
      (s.credit q bytes).fc.clients = s.fc.clients := by
    rw [Proxy.credit_eq]
    obtain ⟨clamped, hframe, -⟩ := Proxy.control_frame { s with
      held := if q ∈ s.fc.paused.values then s.held else s.held.erase q
      count := s.count + 1 } (s.fc.onPaneBytes q bytes.length)
    rw [hframe]
    exact ⟨_, rfl, rfl, rfl, s.fc.onPaneBytes_clients q bytes.length⟩
  obtain ⟨paused, hdemux, hcount, hclosed, hclients⟩ := hcredit
  have hsends : Sends { s.credit q bytes with
      demux := ((s.credit q bytes).demux.append q ⟨s.count, bytes⟩).1 } s' :=
    hs' ▸ sends_deliver _ _ _
  have hgated := fun (hfits : Fits s q bytes.length) => open_of_fits h hfits
  have hmoves := fun t p c => moves_append (d := (s.credit q bytes).demux) q ⟨s.count, bytes⟩ t p c
  have hisSome : ∀ t p,
      (((s.credit q bytes).demux.append q ⟨s.count, bytes⟩).1.hydrating t p).isSome =
        (s.demux.hydrating t p).isSome ∧ ((s.demux.hydrating t p).isSome →
        framesTo t p ((s.credit q bytes).demux.append q ⟨s.count, bytes⟩).2 = []) := by
    intro t p
    rw [hdemux]
    rcases OutputDemux.append_cases { s.demux with pausedPanes := paused } q ⟨s.count, bytes⟩ with
      ⟨hout, -⟩ | ⟨hout, -⟩ | ⟨hout, -⟩
    · rw [hout]
      exact ⟨rfl, fun _ => rfl⟩
    · rw [hout, ← OutputDemux.fanOutAll_singleton]
      exact OutputDemux.fanOutAll_gated _ q p _ t
    · rw [hout]
      exact ⟨rfl, fun _ => rfl⟩
  refine ⟨⟨hsends.count.trans hcount, (hsends.closed.trans hclosed).symm.subset, fun t ht => ?_,
    fun t p chunk => ?_, fun t ht p hkeeps chunk hbytes => ?_⟩, fun t p => ?_, fun t p => ?_⟩
  · unfold Proxy.Known
    rw [hsends.clients, hsends.closed]
    show t ∈ (s.credit q bytes).fc.clients.values ∨ t ∈ (s.credit q bytes).closed
    rwa [hclients, hclosed]
  · rw [hsends.lines.waiting]
    refine (hmoves t p chunk).1.trans_eq ?_
    rw [hdemux]
    rfl
  · rw [hsends.lines.waiting]
    refine ((hmoves t p chunk).2 (by rw [hdemux]; exact ht) hbytes fun hq hne => ?_).trans ?_
    · have hfits := hkeeps hq hne
      refine ⟨fun hknown => ?_, fun hunknown => ?_⟩
      · rw [← hq] at hknown ⊢
        exact hgated (hq ▸ hfits) (by rwa [hdemux] at hknown)
      · rw [hdemux] at hunknown ⊢
        exact hfits.2 hunknown
    · rw [hdemux]
      rfl
  · rw [hsends.lines.hydrating]
    exact .inl (hisSome t p).1
  · exact (hisSome t p).2

theorem moves_runMicrotask {s s' : Proxy T} (h : Wired s) {backpressured : DataFrame T → Bool}
    {out : OutputDemux T × List (DataFrame T)} (hrun : s.demux.runMicrotask = some out)
    (hs' : s' = s.deliver backpressured out) : Moves s s' (.runMicrotask backpressured) := by
  have hsends : Sends { s with demux := out.1 } s' := hs' ▸ sends_deliver _ _ _
  have hframes : framesOf s (.runMicrotask backpressured) = out.2 := by
    unfold framesOf
    rw [hrun]
    rfl
  obtain ⟨q, chunks, rest, htasks, hcases⟩ := OutputDemux.runMicrotask_cases hrun
  -- The demux without the microtask.
  obtain ⟨d, hd, hd'⟩ : ∃ d : OutputDemux T, d = { s.demux with microtasks := rest } ∧
      ∀ t p chunk, (s.demux.waiting t p).count chunk =
        (d.waiting t p).count chunk + (if q = p then chunks else []).count chunk :=
    ⟨_, rfl, count_microtask htasks⟩
  rw [← hd] at hcases
  have hhydrating : s.demux.hydrating = d.hydrating := by rw [hd]
  have hlines : (∀ t p chunk, (framesTo t p out.2 ++ out.1.waiting t p).count chunk ≤
        (s.demux.waiting t p).count chunk ∧
      (t ∈ s.demux.transports.values → (q = p → p ∈ s.demux.knownPanes ∧ p ∉ s.fc.paused.values) →
        (framesTo t p out.2 ++ out.1.waiting t p).count chunk =
          (s.demux.waiting t p).count chunk)) ∧
      ∀ t p, (out.1.hydrating t p).isSome = (s.demux.hydrating t p).isSome ∧
        ((s.demux.hydrating t p).isSome → framesTo t p out.2 = []) := by
    rw [hhydrating]
    rcases hcases with ⟨hout, hnone, hlost⟩ | ⟨hfan, -⟩
    · rw [hout, hnone]
      refine ⟨fun t p chunk => ?_, fun t p => ⟨rfl, fun _ => rfl⟩⟩
      rw [framesTo_nil, List.nil_append, hd']
      refine ⟨Nat.le_add_right _ _, fun ht hopen => (Nat.add_eq_left.mpr ?_).symm⟩
      split
      · next hq =>
        obtain ⟨hknown, hpaused⟩ := hopen hq
        rcases hlost with hunknown | hgated | hempty
        · exact absurd (hq ▸ hknown) hunknown
        · exact absurd ((h.gated p).mpr (hq ▸ hgated)) hpaused
        · exact absurd (hempty ▸ ht) List.not_mem_nil
      · rfl
    · have hcount := fun t p chunk => count_fanOutAll d q chunks t p chunk
      have hgated := fun t p => d.fanOutAll_gated q p chunks t
      rw [hfan] at hcount hgated
      refine ⟨fun t p chunk => ?_, hgated⟩
      rw [hcount, hd']
      refine ⟨Nat.add_le_add_left (count_fanned_le d q chunks t p chunk) _, fun ht _ => ?_⟩
      have ht' : t ∈ d.transports.values := by rwa [hd]
      simp only [ht', true_and]
  have hnone : emitted s (.runMicrotask backpressured) = [] := rfl
  refine ⟨⟨hsends.count, hsends.closed.symm.subset, fun t => (hsends.known t).mpr,
    fun t p chunk => ?_, fun t ht p hkeeps chunk _ => ?_⟩, fun t p => ?_, fun t p => ?_⟩
  · rw [hframes, hsends.lines.waiting, hnone, chunksOf_nil, List.append_nil]
    exact (hlines.1 t p chunk).1
  · rw [hframes, hsends.lines.waiting, hnone, chunksOf_nil, List.append_nil]
    exact (hlines.1 t p chunk).2 ht (hkeeps (q, chunks) (by rw [htasks]; rfl))
  · rw [hsends.lines.hydrating]
    exact .inl (hlines.2 t p).1
  · rw [hframes]
    exact (hlines.2 t p).2

theorem moves_notifyPaneClosed (s : Proxy T) (q : PaneId) :
    Moves s { s with demux := s.demux.notifyPaneClosed q } (.notifyPaneClosed q) := by
  refine ⟨⟨rfl, Finset.Subset.refl _, fun _ => id, fun t p chunk => ?_,
    fun t ht p hkeeps chunk _ => ?_⟩, fun t p => ?_, fun t p _ => rfl⟩
  · exact (notifyPaneClosed_moves s.demux q p t).trans (List.sublist_append_left _ _)
      |>.count_le chunk
  · show ((if p = q then none else s.demux.hydrating t p).getD [] ++
      (s.demux.flushing p ++ if p = q then [] else s.demux.pendingFanout p)).count chunk =
        (s.demux.waiting t p ++ []).count chunk
    rw [List.append_nil]
    split
    · next hp =>
      obtain ⟨hpending, hqueue⟩ := hkeeps hp.symm
      unfold OutputDemux.waiting OutputDemux.queued
      rw [hpending, hqueue t ht]
    · rfl
  · show (if p = q then none else s.demux.hydrating t p).isSome = _ ∨ _ ∧
      (if p = q then none else s.demux.hydrating t p) = none
    split
    · next hp => exact .inr ⟨by rw [hp], rfl⟩
    · exact .inl rfl

/-- What an event of the data plane does that is not a call of a hydration. -/
theorem moves_of_step {s s' : Proxy T} (h : Wired s) {event : Flow.Event T}
    (hown : ofHydration event = false) (hstep : Flow.step s event = some s') :
    Moves s s' event := by
  have hsame : SameLines s.demux s.demux := ⟨_, _, rfl⟩
  simp only [Flow.step] at hstep
  split at hstep
  · cases hstep
  · split at hstep
    · exact moves_output h (Option.some.inj hstep).symm
    · split at hstep
      · cases hstep
      · cases hstep
        exact Moves.still ⟨_, _, rfl⟩ rfl rfl rfl (Finset.Subset.refl _) fun t ht =>
          ht.imp (fun hc => OrderedSet.mem_set.mpr (.inr hc)) id
    · split at hstep
      · next client hclient =>
        cases hstep
        obtain ⟨paused, hout⟩ := s.fc.removeClient_frame hclient
        obtain ⟨clamped, hframe, -⟩ := Proxy.control_frame { s with
          closed := insert client s.closed
          demux := s.demux.unsubscribe client } (s.fc.removeClient client)
        have hs' : s.closeClient client = _ := hframe
        rw [hs']
        refine Moves.still ⟨_, _, rfl⟩ rfl rfl rfl (Finset.subset_insert _ _) fun t ht => ?_
        -- a client that goes is closed from here on, so nothing is asked of its lines
        rcases eq_or_ne t client with rfl | hne
        · exact .inr (Finset.mem_insert_self _ _)
        · refine ht.imp (fun hc => ?_) Finset.mem_insert_of_mem
          show t ∈ (s.fc.removeClient client).1.clients.values
          rw [hout]
          exact OrderedSet.mem_delete.mpr ⟨hc, hne⟩
      · cases hstep
    · next q =>
      cases hstep
      have hline : ∀ t p chunk, ((s.demux.notifyPaneBound q).waiting t p).count chunk =
          (s.demux.waiting t p ++ []).count chunk := by
        intro t p chunk
        rw [notifyPaneBound_moves, List.append_nil]
      refine ⟨⟨rfl, Finset.Subset.refl _, fun _ => id, fun t p chunk => ?_,
        fun t ht p _ chunk _ => ?_⟩, fun t p => ?_, fun t p _ => rfl⟩
      · exact (hline t p chunk).le
      · exact hline t p chunk
      · rw [(s.demux.notifyPaneBound_frame q).2.2]
        exact .inl rfl
    · cases hstep
      exact moves_notifyPaneClosed s _
    · obtain ⟨out, hrun, hs'⟩ := Option.map_eq_some_iff.mp hstep
      exact moves_runMicrotask h hrun hs'.symm
    · cases hown
    · cases hown
    · next index =>
      obtain ⟨frame, -, rfl⟩ := Option.map_eq_some_iff.mp hstep
      have hsends :
          Sends s (Proxy.drain { s with inFlight := s.inFlight.eraseIdx index } frame) := by
        unfold Proxy.drain
        split
        · exact ⟨hsame, rfl, rfl, rfl⟩
        · obtain ⟨inner, paused, hframe, -⟩ := s.fc.noteDrained_frame frame.paneId
            frame.chunk.bytes.length frame.transport
          have hcontrol : Sends { s with inFlight := s.inFlight.eraseIdx index }
              (Proxy.control { s with inFlight := s.inFlight.eraseIdx index }
                (s.fc.noteDrained frame.paneId frame.chunk.bytes.length frame.transport)) :=
            sends_control _ (by rw [hframe]; rfl)
          exact ⟨hcontrol.lines, hcontrol.count, hcontrol.closed, hcontrol.clients⟩
      exact Moves.still hsends.lines rfl rfl hsends.count hsends.closed.symm.subset
        fun t => (hsends.known t).mpr
    · next p =>
      cases hstep
      have hclients : (s.fc.onPauseNotification p).1.clients = s.fc.clients := by
        unfold FlowController.onPauseNotification
        split <;> rfl
      have hsends := sends_control { s with
        held := if p ∈ s.fc.paused.values then s.held else insert p s.held } hclients
      exact Moves.still hsends.lines rfl rfl hsends.count hsends.closed.symm.subset
        fun t => (hsends.known t).mpr
    · next p =>
      cases hstep
      have hclients : (s.fc.onContinueNotification p).1.clients = s.fc.clients := by
        unfold FlowController.onContinueNotification
        split <;> rfl
      have hsends := sends_control s hclients
      exact Moves.still hsends.lines rfl rfl hsends.count hsends.closed.symm.subset
        fun t => (hsends.known t).mpr

theorem lines_endPaneHydration {s s' : Proxy T} {t₀ : T} {p₀ : PaneId}
    {backpressured : DataFrame T → Bool}
    (hs' : s' = s.deliver backpressured (s.demux.endPaneHydration t₀ p₀)) :
    Lines s s' (.endPaneHydration t₀ p₀ backpressured) := by
  have hsends : Sends { s with demux := (s.demux.endPaneHydration t₀ p₀).1 } s' :=
    hs' ▸ sends_deliver _ _ _
  have hline : ∀ t p chunk, (framesTo t p (s.demux.endPaneHydration t₀ p₀).2 ++
      s'.demux.waiting t p).count chunk = (s.demux.waiting t p ++ []).count chunk := by
    intro t p chunk
    rw [hsends.lines.waiting, endPaneHydration_moves, List.append_nil]
  exact ⟨hsends.count, hsends.closed.symm.subset, fun t => (hsends.known t).mpr,
    fun t p chunk => (hline t p chunk).le, fun t _ p _ chunk _ => hline t p chunk⟩

theorem lines_beginPaneHydration (s : Proxy T) (t₀ : T) (p₀ : PaneId) :
    Lines s { s with demux := s.demux.beginPaneHydration t₀ p₀ } (.beginPaneHydration t₀ p₀) := by
  have hline : ∀ t p chunk, ([] ++ (s.demux.beginPaneHydration t₀ p₀).waiting t p).count chunk =
      (s.demux.waiting t p ++ []).count chunk := by
    intro t p chunk
    rw [beginPaneHydration_moves, List.append_nil, List.nil_append]
  exact ⟨rfl, Finset.Subset.refl _, fun _ => id, fun t p chunk => (hline t p chunk).le,
    fun t _ p _ chunk _ => hline t p chunk⟩

/-! ## What is in line -/

@[simp] theorem liveTo_nil (t : T) (p : PaneId) : liveTo t p [] = [] := rfl

@[simp] theorem liveTo_append (t : T) (p : PaneId) (xs ys : List (Delivery T)) :
    liveTo t p (xs ++ ys) = liveTo t p xs ++ liveTo t p ys := by
  simp [liveTo]

@[simp] theorem liveTo_live (t : T) (p : PaneId) (frames : List (DataFrame T)) :
    liveTo t p (frames.map .live) = framesTo t p frames := by
  have hid : (frames.map .live).filterMap liveFrame = frames := by
    rw [List.filterMap_map]
    exact List.filterMap_some
  rw [liveTo, hid]

@[simp] theorem liveTo_replay (t t' : T) (p p' : PaneId) (n : Nat) (bytes : Bytes)
    (sent : List (Delivery T)) :
    liveTo t p (.replay t' p' n bytes :: sent) = liveTo t p sent := rfl

theorem mem_liveTo {t : T} {p : PaneId} {sent : List (Delivery T)} {chunk : Chunk} :
    chunk ∈ liveTo t p sent ↔ .live ⟨t, p, chunk⟩ ∈ sent := by
  constructor
  · intro h
    obtain ⟨frame, hframe, rfl⟩ := List.mem_map.mp h
    obtain ⟨hmem, hto⟩ := List.mem_filter.mp hframe
    obtain ⟨rfl, rfl⟩ := of_decide_eq_true hto
    obtain ⟨delivery, hdelivery, hlive⟩ := List.mem_filterMap.mp hmem
    cases delivery with
    | live frame' =>
      cases hlive
      exact hdelivery
    | replay _ _ _ _ => cases hlive
  · intro h
    refine List.mem_map.mpr ⟨⟨t, p, chunk⟩, List.mem_filter.mpr ⟨?_, by simp⟩, rfl⟩
    exact List.mem_filterMap.mpr ⟨_, h, rfl⟩

omit [DecidableEq T] in
theorem replay_of_mem {sent : List (Delivery T)} {frames : List (DataFrame T)} {t : T} {p : PaneId}
    {n : Nat} {bytes : Bytes} (h : .replay t p n bytes ∈ sent ++ frames.map .live) :
    .replay t p n bytes ∈ sent := by
  rcases List.mem_append.mp h with h | h
  · exact h
  · obtain ⟨_, -, hlive⟩ := List.mem_map.mp h
    cases hlive

theorem mem_marks {r : Run T} {t : T} {p : PaneId} {n : Nat} :
    n ∈ marks r t p ↔ (∃ h ∈ r.hydrations, h.transport = t ∧ h.paneId = p ∧
      h.phase.takenAt = some n) ∨ ∃ bytes, .replay t p n bytes ∈ r.sent := by
  unfold marks
  rw [List.mem_append, List.mem_filterMap, List.mem_filterMap]
  refine or_congr (exists_congr fun h => and_congr_right fun _ => ?_) ⟨?_, ?_⟩
  · unfold pendingMark
    split
    · next hto => simp [hto]
    · next hto => simp only [reduceCtorEq, ← and_assoc, hto, false_and]
  · rintro ⟨_ | ⟨t', p', n', bytes⟩, hmem, hn⟩
    · cases hn
    · obtain ⟨⟨rfl, rfl⟩, hseq⟩ := Option.ite_none_right_eq_some.mp hn
      rw [Option.some.inj hseq] at hmem
      exact ⟨bytes, hmem⟩
  · rintro ⟨bytes, hmem⟩
    exact ⟨_, hmem, if_pos ⟨rfl, rfl⟩⟩

/-- The chunks are numbered in their order, and each that a transport with a mark must get is in
line for it once. -/
structure Lined (r : Run T) : Prop where
  wired : Wired r.proxy
  counted : r.proxy.count = r.appended.length
  numbered : r.appended.map (fun entry => entry.2.seq) = List.range r.appended.length
  line_old : ∀ t p, ∀ chunk ∈ liveTo t p r.sent ++ r.proxy.demux.waiting t p,
    chunk.seq < r.proxy.count
  placed : ∀ h ∈ r.hydrations, r.proxy.Known h.transport
  replay_placed : ∀ t p n bytes, .replay t p n bytes ∈ r.sent → r.proxy.Known t
  once : ∀ t, t ∉ r.proxy.closed → ∀ p, ∀ n ∈ marks r t p, ∀ chunk ∈ chunksOf p r.appended,
    n ≤ chunk.seq → chunk.bytes ≠ [] →
      (liveTo t p r.sent ++ r.proxy.demux.waiting t p).count chunk = 1

namespace Lined

variable {r : Run T}

/-- A transport with a mark that is open is a client. -/
theorem client (h : Lined r) {t : T} (hopen : t ∉ r.proxy.closed) {p : PaneId} {n : Nat}
    (hn : n ∈ marks r t p) : t ∈ r.proxy.fc.clients.values := by
  rcases mem_marks.mp hn with ⟨hyd, hmem, rfl, -⟩ | ⟨bytes, hmem⟩
  · exact (h.placed hyd hmem).resolve_right hopen
  · exact (h.replay_placed t p n bytes hmem).resolve_right hopen

theorem seq_lt (h : Lined r) {p : PaneId} {chunk : Chunk} (hchunk : chunk ∈ chunksOf p r.appended) :
    chunk.seq < r.proxy.count :=
  h.counted ▸ seq_lt_of_mem h.numbered hchunk

/-- An event of the data plane that drops no chunk of a pane with a mark. -/
theorem onPlane (h : Lined r) {event : Flow.Event T} {proxy : Proxy T} (hwired : Wired proxy)
    (hlines : Lines r.proxy proxy event)
    (hkeeps : ∀ p, Replayed r p → Keeps r.proxy p event) :
    Lined { r with
      proxy
      appended := r.appended ++ emitted r.proxy event
      sent := r.sent ++ (framesOf r.proxy event).map .live } := by
  have hnew : emitted r.proxy event = [] ∨
      ∃ q bytes, emitted r.proxy event = [(q, ⟨r.proxy.count, bytes⟩)] := by
    cases event with
    | output q bytes _ => exact .inr ⟨q, bytes, rfl⟩
    | _ => exact .inl rfl
  -- a chunk that is appended now has a number that no line has
  have hemitted : ∀ p, ∀ c ∈ chunksOf p (emitted r.proxy event), c.seq = r.proxy.count ∧
      (chunksOf p (emitted r.proxy event)).count c = 1 ∧ (emitted r.proxy event).length = 1 := by
    intro p c hc
    rcases hnew with hnil | ⟨q, bytes, hone⟩
    · rw [hnil] at hc
      exact absurd hc List.not_mem_nil
    · rw [hone, chunksOf_singleton] at hc ⊢
      split at hc
      · next hq =>
        rw [if_pos hq, List.mem_singleton.mp hc]
        exact ⟨rfl, List.count_singleton_self, rfl⟩
      · exact absurd hc List.not_mem_nil
  have hopen : ∀ t, t ∉ proxy.closed → t ∉ r.proxy.closed := fun t ht hc => ht (hlines.closed hc)
  have hmarks : ∀ t p n, n ∈ marks { r with
      proxy
      appended := r.appended ++ emitted r.proxy event
      sent := r.sent ++ (framesOf r.proxy event).map .live } t p → n ∈ marks r t p := by
    intro t p n hn
    rcases mem_marks.mp hn with hpending | ⟨bytes, hmem⟩
    · exact mem_marks.mpr (.inl hpending)
    · exact mem_marks.mpr (.inr ⟨bytes, replay_of_mem hmem⟩)
  have hcount : ∀ t p chunk, (liveTo t p (r.sent ++ (framesOf r.proxy event).map .live) ++
      proxy.demux.waiting t p).count chunk = (liveTo t p r.sent).count chunk +
        (framesTo t p (framesOf r.proxy event) ++ proxy.demux.waiting t p).count chunk := by
    intro t p chunk
    rw [liveTo_append, liveTo_live, List.append_assoc, List.count_append]
  refine ⟨hwired, ?_, ?_, fun t p chunk hchunk => ?_, fun hyd hmem => ?_,
    fun t p n bytes hmem => ?_, fun t ht p n hn chunk hchunk hge hbytes => ?_⟩
  · rw [hlines.count, h.counted, List.length_append]
  · rcases hnew with hnil | ⟨q, bytes, hone⟩
    · rw [hnil, List.append_nil]
      exact h.numbered
    · rw [hone, List.map_append, h.numbered, List.length_append, List.length_singleton,
        List.range_succ, ← h.counted]
      rfl
  · rw [hlines.count]
    have hpos := List.count_pos_iff.mpr hchunk
    rw [hcount] at hpos
    have hle := hlines.le t p chunk
    rcases Nat.eq_zero_or_pos ((liveTo t p r.sent).count chunk) with hzero | hlive
    · rw [hzero, Nat.zero_add] at hpos
      rcases List.mem_append.mp (List.count_pos_iff.mp (hpos.trans_le hle)) with hold | hnew'
      · exact (h.line_old t p chunk (List.mem_append_right _ hold)).trans_le (Nat.le_add_right _ _)
      · obtain ⟨hseq, -, hlength⟩ := hemitted p chunk hnew'
        rw [hseq, hlength]
        exact Nat.lt_succ_self _
    · exact (h.line_old t p chunk (List.mem_append_left _ (List.count_pos_iff.mp hlive))).trans_le
        (Nat.le_add_right _ _)
  · exact hlines.known _ (h.placed hyd hmem)
  · exact hlines.known _ (h.replay_placed t p n bytes (replay_of_mem hmem))
  · have hn' := hmarks t p n hn
    have hclient := h.client (hopen t ht) hn'
    have hkept := hlines.kept t ((h.wired.attached t).mpr hclient) p
      (hkeeps p ⟨t, hclient, List.ne_nil_of_mem hn'⟩) chunk hbytes
    rw [hcount, hkept, List.count_append, ← Nat.add_assoc, ← List.count_append]
    -- an old chunk is not what was appended now, and a new one was in no line before
    rw [chunksOf_append] at hchunk
    rcases List.mem_append.mp hchunk with hold | hnew'
    · have hzero : (chunksOf p (emitted r.proxy event)).count chunk = 0 :=
        List.count_eq_zero_of_not_mem fun hmem =>
          absurd (hemitted p chunk hmem).1 (h.seq_lt hold).ne
      rw [hzero, h.once t (hopen t ht) p n hn' chunk hold hge hbytes]
    · obtain ⟨hseq, hone, -⟩ := hemitted p chunk hnew'
      have hzero : (liveTo t p r.sent ++ r.proxy.demux.waiting t p).count chunk = 0 :=
        List.count_eq_zero_of_not_mem fun hmem =>
          absurd hseq (h.line_old t p chunk hmem).ne
      rw [hzero, hone]

end Lined

/-! ## The invariant -/

/-- On an open transport no live chunk of a pair comes before a replay with a mark it has
reached. -/
def Precedes (closed : Finset T) : Delivery T → Delivery T → Prop
  | .live frame, .replay t p takenAt _ =>
    t ∉ closed → frame.transport = t → frame.paneId = p → frame.chunk.seq < takenAt
  | _, _ => True

/-- On an open transport a queue is open exactly during a hydration of its pair, and there is only
one. -/
structure Guarded (r : Run T) : Prop extends Lined r where
  gate : ∀ t, t ∉ r.proxy.closed → ∀ p,
    (r.proxy.demux.hydrating t p).isSome ↔ ¬Idle r t p
  sole : ∀ (i j : Nat) (hi hj : Hydration T), r.hydrations[i]? = some hi →
    r.hydrations[j]? = some hj → hi.phase.isOpen = true → hj.phase.isOpen = true →
      hi.transport ∉ r.proxy.closed → hi.transport = hj.transport → hi.paneId = hj.paneId → i = j
  taken : ∀ h ∈ r.hydrations, h.transport ∉ r.proxy.closed → ∀ n, h.phase.takenAt = some n →
    ∀ chunk ∈ liveTo h.transport h.paneId r.sent, chunk.seq < n
  replayed : r.sent.Pairwise (Precedes r.proxy.closed)

theorem guarded_start (highWater lowWater : Nat) (h : lowWater < highWater) :
    Guarded (start highWater lowWater h : Run T) where
  wired := Wired.create highWater lowWater h
  counted := rfl
  numbered := rfl
  line_old := fun _ _ _ hmem => absurd hmem List.not_mem_nil
  placed := fun _ hmem => absurd hmem List.not_mem_nil
  replay_placed := fun _ _ _ _ hmem => absurd hmem List.not_mem_nil
  once := fun _ _ _ _ hmem => absurd hmem List.not_mem_nil
  gate := fun _ _ _ => iff_of_false (by simp [start, Flow.createProxy, createOutputDemux])
    (not_not.mpr fun _ hmem => absurd hmem List.not_mem_nil)
  sole := fun i _ _ _ hget => absurd hget (by simp [start])
  taken := fun _ hmem => absurd hmem List.not_mem_nil
  replayed := List.Pairwise.nil

/-- The invariant protects the output. -/
theorem Guarded.protects {r : Run T} (h : Guarded r) : Protects r := by
  have hbefore : ∀ before after t p takenAt bytes,
      r.sent = before ++ .replay t p takenAt bytes :: after → t ∉ r.proxy.closed →
        ∀ chunk ∈ liveTo t p before, chunk.seq < takenAt := by
    intro before after t p takenAt bytes hsent hopen chunk hchunk
    have hpairs := h.replayed
    rw [hsent, List.pairwise_append] at hpairs
    exact hpairs.2.2 _ (mem_liveTo.mp hchunk) _ List.mem_cons_self hopen rfl rfl
  refine ⟨hbefore, ?_, fun t p hopen hidle => ?_⟩
  · intro before after t p takenAt bytes hsent hopen chunk hchunk hnew hbytes
    have hmark : takenAt ∈ marks r t p := mem_marks.mpr (.inr ⟨bytes, by simp [hsent]⟩)
    have honce := h.once t hopen p takenAt hmark chunk hchunk hnew hbytes
    have hnot : chunk ∉ liveTo t p before := fun hmem =>
      absurd (hbefore _ _ _ _ _ _ hsent hopen chunk hmem) (not_lt.mpr hnew)
    rw [hsent, liveTo_append, liveTo_replay, List.append_assoc, List.count_append,
      List.count_eq_zero_of_not_mem hnot, Nat.zero_add] at honce
    exact honce
  · rcases hqueue : r.proxy.demux.hydrating t p with _ | queue
    · simp [OutputDemux.queued, hqueue]
    · exact absurd hidle ((h.gate t hopen p).mp (by simp [hqueue]))

theorem isOpen_of_takenAt {phase : Phase} {n : Nat} (h : phase.takenAt = some n) :
    phase.isOpen = true := by
  cases phase <;> first | rfl | cases h

omit [DecidableEq T] in
theorem precedes_live {closed closed' : Finset T} (hclosed : closed ⊆ closed')
    {sent : List (Delivery T)} (frames : List (DataFrame T))
    (h : sent.Pairwise (Precedes closed)) :
    (sent ++ frames.map Delivery.live).Pairwise (Precedes closed') := by
  have hlive : ∀ (x : Delivery T) (frame : DataFrame T), Precedes closed' x (.live frame) := by
    intro x frame
    cases x <;> trivial
  refine List.pairwise_append.mpr ⟨h.imp fun {x y} hxy => ?_, ?_, fun x _ y hy => ?_⟩
  · cases x with
    | live frame =>
      cases y with
      | live _ => trivial
      | replay _ _ _ _ => exact fun hopen => hxy fun hc => hopen (hclosed hc)
    | replay _ _ _ _ => trivial
  · exact List.pairwise_map.mpr (List.pairwise_of_forall fun frame => hlive (Delivery.live frame))
  · obtain ⟨frame, -, rfl⟩ := List.mem_map.mp hy
    exact hlive x frame

/-! ## Steps of the data plane -/

theorem Guarded.plane {r r' : Run T} (h : Guarded r) {event : Flow.Event T}
    (hmeets : Meets r (.plane event)) (hown : ofHydration event = false)
    (hstep : onPlane r event = some r') : Guarded r' := by
  obtain ⟨proxy, hproxy, rfl⟩ := Option.map_eq_some_iff.mp hstep
  have hmoves := moves_of_step h.wired hown hproxy
  have hopen : ∀ t, t ∉ proxy.closed → t ∉ r.proxy.closed := fun t ht hc => ht (hmoves.closed hc)
  have hclosing : ∀ p, event = .notifyPaneClosed p → ∀ t, t ∉ r.proxy.closed → Idle r t p := by
    rintro p rfl t ht hyd hmem rfl hp
    exact hmeets.1 hyd hmem ht hp
  have hkeeps : ∀ p, Replayed r p → Keeps r.proxy p event := by
    intro p hreplayed
    cases event with
    | output q bytes _ =>
      rintro rfl hbytes
      exact hmeets hbytes hreplayed
    | runMicrotask _ =>
      rintro task htask rfl
      exact hmeets task htask hreplayed
    | notifyPaneClosed q =>
      rintro rfl
      refine ⟨hmeets.2 hreplayed, fun t ht => ?_⟩
      have hclient := (h.wired.attached t).mp ht
      have hidle := hclosing q rfl t (h.wired.departed t hclient)
      by_contra hsome
      exact (h.gate t (h.wired.departed t hclient) q).mp (Option.isSome_iff_ne_none.mpr hsome) hidle
    | _ => trivial
  have hlined := h.toLined.onPlane (h.wired.step hproxy) hmoves.toLines hkeeps
  refine { hlined with
    gate := fun t ht p => ?_
    sole := fun i j hi hj hgeti hgetj hopeni hopenj ht =>
      h.sole i j hi hj hgeti hgetj hopeni hopenj (hopen _ ht)
    taken := fun hyd hmem ht n hn => ?_
    replayed := precedes_live hmoves.closed _ h.replayed }
  · have hgate := h.gate t (hopen t ht) p
    rcases hmoves.gate t p with hsame | ⟨hevent, hnone⟩
    · exact (iff_of_eq (congrArg (· = true) hsame)).trans hgate
    · show (proxy.demux.hydrating t p).isSome = true ↔ ¬Idle r t p
      rw [hnone]
      exact iff_of_false (by simp) (not_not.mpr (hclosing p hevent t (hopen t ht)))
  · have hqueue : (r.proxy.demux.hydrating hyd.transport hyd.paneId).isSome :=
      (h.gate _ (hopen _ ht) _).mpr fun hidle => by
        have hclosed := hidle hyd hmem rfl rfl
        rw [isOpen_of_takenAt hn] at hclosed
        cases hclosed
    intro chunk hchunk
    rw [liveTo_append, liveTo_live, hmoves.silent _ _ hqueue, List.append_nil] at hchunk
    exact h.taken hyd hmem (hopen _ ht) n hn chunk hchunk

/-! ## Steps of a hydration -/

theorem getElem?_snoc {α : Type} {xs : List α} {x y : α} {i : Nat}
    (h : (xs ++ [x])[i]? = some y) : xs[i]? = some y ∨ i = xs.length ∧ y = x := by
  rcases lt_or_ge i xs.length with hlt | hge
  · rw [List.getElem?_append_left hlt] at h
    exact .inl h
  · rw [List.getElem?_append_right hge, List.getElem?_singleton] at h
    split at h
    · next hzero => exact .inr ⟨le_antisymm (Nat.sub_eq_zero_iff_le.mp hzero) hge,
        (Option.some.inj h).symm⟩
    · cases h

theorem isSome_beginPaneHydration (d : OutputDemux T) (t₀ t : T) (p₀ p : PaneId) :
    ((d.beginPaneHydration t₀ p₀).hydrating t p).isSome ↔
      (d.hydrating t p).isSome ∨ t = t₀ ∧ p = p₀ := by
  unfold OutputDemux.beginPaneHydration
  split
  · next queue hqueue =>
    refine ⟨.inl, fun h => h.elim id ?_⟩
    rintro ⟨rfl, rfl⟩
    simp [hqueue]
  · show ((if t = t₀ ∧ p = p₀ then some [] else d.hydrating t p).isSome : Prop) ↔ _
    split
    · next hto => simp [hto]
    · next hto => simp [hto]

theorem Guarded.hydrate {r r' : Run T} (h : Guarded r) {t₀ : T} {p₀ : PaneId}
    (hmeets : Meets r (.hydrate t₀ p₀)) (hstep : step r (.hydrate t₀ p₀) = some r') :
    Guarded r' := by
  simp only [step] at hstep
  split at hstep
  · next hknown =>
    obtain ⟨r₁, hplane, rfl⟩ := Option.map_eq_some_iff.mp hstep
    obtain ⟨proxy, hproxy, rfl⟩ := Option.map_eq_some_iff.mp hplane
    have hproxy' : { r.proxy with demux := r.proxy.demux.beginPaneHydration t₀ p₀ } = proxy := by
      simp only [Flow.step] at hproxy
      split at hproxy
      · cases hproxy
      · exact Option.some.inj hproxy
    subst hproxy'
    have hlined := h.toLined.onPlane (h.wired.step hproxy) (lines_beginPaneHydration r.proxy t₀ p₀)
      fun _ _ => trivial
    have hmem : ∀ hyd ∈ r.hydrations ++ [⟨t₀, p₀, .capturing⟩], hyd ∈ r.hydrations ∨
        hyd = ⟨t₀, p₀, .capturing⟩ := fun hyd hhyd => by simpa using hhyd
    have hsent : r.sent ++ (framesOf r.proxy (.beginPaneHydration t₀ p₀)).map .live = r.sent :=
      List.append_nil _
    have happended : r.appended ++ emitted r.proxy (.beginPaneHydration t₀ p₀) = r.appended :=
      List.append_nil _
    rw [hsent, happended] at hlined ⊢
    refine { hlined with
      placed := fun hyd hhyd => ?_
      once := fun t ht p n hn => hlined.once t ht p n ?_
      gate := fun t ht p => ?_
      sole := fun i j hi hj hgeti hgetj hopeni hopenj ht hteq hpeq => ?_
      taken := fun hyd hhyd ht n hn => ?_
      replayed := h.replayed }
    · rcases hmem hyd hhyd with hold | rfl
      · exact h.placed hyd hold
      · exact hknown
    · rcases mem_marks.mp hn with ⟨hyd, hhyd, hto, hpane, hmark⟩ | hreplay
      · rcases hmem hyd hhyd with hold | rfl
        · exact mem_marks.mpr (.inl ⟨hyd, hold, hto, hpane, hmark⟩)
        · cases hmark
      · exact mem_marks.mpr (.inr hreplay)
    · -- the gate of the pane is open exactly while a hydration of it runs
      show ((r.proxy.demux.beginPaneHydration t₀ p₀).hydrating t p).isSome = true ↔ _
      rw [isSome_beginPaneHydration, h.gate t ht]
      constructor
      · rintro (hbusy | ⟨rfl, rfl⟩) hidle'
        · exact hbusy fun hyd hhyd => hidle' hyd (List.mem_append_left _ hhyd)
        · exact absurd (hidle' ⟨t, p, .capturing⟩ (by simp) rfl rfl) (by simp [Phase.isOpen])
      · intro hbusy
        by_cases hto : t = t₀ ∧ p = p₀
        · exact .inr hto
        · refine .inl fun hold => hbusy fun hyd hhyd ht hp => ?_
          rcases hmem hyd hhyd with hmem | rfl
          · exact hold hyd hmem ht hp
          · exact absurd ⟨ht.symm, hp.symm⟩ hto
    · rcases getElem?_snoc hgeti with hoi | ⟨hi', rfl⟩
      · rcases getElem?_snoc hgetj with hoj | ⟨-, rfl⟩
        · exact h.sole i j hi hj hoi hoj hopeni hopenj ht hteq hpeq
        · have hto : hi.transport = t₀ := hteq
          -- `hmeets`: no other hydration of this pane is open when this one begins
          have hclosed := hmeets (hto ▸ ht) hi (List.mem_of_getElem? hoi) hto hpeq
          exact absurd (hopeni.symm.trans hclosed) (by simp)
      · rcases getElem?_snoc hgetj with hoj | ⟨hj', -⟩
        · have hclosed := hmeets ht hj (List.mem_of_getElem? hoj) hteq.symm hpeq.symm
          exact absurd (hopenj.symm.trans hclosed) (by simp)
        · exact hi'.trans hj'.symm
    · rcases hmem hyd hhyd with hold | rfl
      · exact h.taken hyd hold ht n hn
      · cases hn
  · cases hstep

omit [DecidableEq T] in
/-- The hydrations after one of them changed its phase. -/
theorem getElem?_setPhase {r : Run T} {i j : Nat} {h₀ hyd : Hydration T} {phase : Phase}
    (hget : (setPhase r i h₀ phase).hydrations[j]? = some hyd) :
    j = i ∧ hyd = { h₀ with phase } ∨ j ≠ i ∧ r.hydrations[j]? = some hyd := by
  rcases eq_or_ne j i with rfl | hne
  · have hset : (r.hydrations.set j { h₀ with phase })[j]? = some hyd := hget
    rw [List.getElem?_set_self'] at hset
    obtain ⟨_, -, heq⟩ := Option.map_eq_some_iff.mp hset
    exact .inl ⟨rfl, heq.symm⟩
  · have hset : (r.hydrations.set i { h₀ with phase })[j]? = some hyd := hget
    rw [List.getElem?_set_ne hne.symm] at hset
    exact .inr ⟨hne, hset⟩

omit [DecidableEq T] in
theorem mem_setPhase {r : Run T} {i : Nat} {h₀ hyd : Hydration T} {phase : Phase}
    (hmem : hyd ∈ (setPhase r i h₀ phase).hydrations) :
    hyd = { h₀ with phase } ∨ hyd ∈ r.hydrations := by
  rcases List.mem_or_eq_of_mem_set hmem with hold | hnew
  · exact .inr hold
  · exact .inl hnew

omit [DecidableEq T] in
theorem setPhase_self {r : Run T} {i : Nat} {h₀ : Hydration T} (phase : Phase)
    (hget : r.hydrations[i]? = some h₀) :
    { h₀ with phase } ∈ (setPhase r i h₀ phase).hydrations := by
  refine List.mem_of_getElem? (i := i) ?_
  show (r.hydrations.set i { h₀ with phase })[i]? = _
  rw [List.getElem?_set_self', hget]
  rfl

omit [DecidableEq T] in
theorem setPhase_other {r : Run T} {i j : Nat} {h₀ hyd : Hydration T} (phase : Phase)
    (hne : j ≠ i) (hget : r.hydrations[j]? = some hyd) :
    hyd ∈ (setPhase r i h₀ phase).hydrations := by
  refine List.mem_of_getElem? (i := j) ?_
  show (r.hydrations.set i { h₀ with phase })[j]? = _
  rw [List.getElem?_set_ne hne.symm, hget]

/-- A new mark is one that no chunk has reached. -/
theorem Lined.setPhase {r : Run T} (h : Lined r) {i : Nat} {h₀ : Hydration T} {phase : Phase}
    (hget : r.hydrations[i]? = some h₀)
    (hmark : ∀ n, phase.takenAt = some n → h₀.phase.takenAt = some n ∨ r.proxy.count ≤ n) :
    Lined (Hydrating.setPhase r i h₀ phase) := by
  have hmem₀ := List.mem_of_getElem? hget
  refine { h with
    placed := fun hyd hmem => ?_
    once := fun t ht p n hn chunk hchunk hge hbytes => ?_ }
  · rcases mem_setPhase hmem with rfl | hold
    · exact h.placed h₀ hmem₀
    · exact h.placed hyd hold
  · have hold : n ∈ marks r t p ∨ r.proxy.count ≤ n := by
      rcases mem_marks.mp hn with ⟨hyd, hmem, hto, hp, htaken⟩ | hreplay
      · rcases mem_setPhase hmem with rfl | hold
        · exact (hmark n htaken).imp_left fun htaken₀ =>
            mem_marks.mpr (.inl ⟨h₀, hmem₀, hto, hp, htaken₀⟩)
        · exact .inl (mem_marks.mpr (.inl ⟨hyd, hold, hto, hp, htaken⟩))
      · exact .inl (mem_marks.mpr (.inr hreplay))
    rcases hold with hold | hlate
    · exact h.once t ht p n hold chunk hchunk hge hbytes
    · exact absurd (h.seq_lt hchunk) (not_lt.mpr (hlate.trans hge))

/-- A hydration goes on, and its queue stays open. -/
theorem Guarded.setPhase {r : Run T} (h : Guarded r) {i : Nat} {h₀ : Hydration T} {phase : Phase}
    (hget : r.hydrations[i]? = some h₀) (hopen : h₀.phase.isOpen = true)
    (hopen' : phase.isOpen = true)
    (hmark : ∀ n, phase.takenAt = some n → h₀.phase.takenAt = some n ∨ r.proxy.count ≤ n) :
    Guarded (Hydrating.setPhase r i h₀ phase) := by
  have hmem₀ := List.mem_of_getElem? hget
  have hidle : ∀ t p, Idle (Hydrating.setPhase r i h₀ phase) t p ↔ Idle r t p := by
    intro t p
    constructor
    · intro hidle' hyd hmem ht hp
      obtain ⟨j, hj⟩ := List.mem_iff_getElem?.mp hmem
      rcases eq_or_ne j i with rfl | hne
      · cases hget.symm.trans hj
        have hclosed := hidle' _ (setPhase_self phase hget) ht hp
        exact absurd (hopen'.symm.trans hclosed) (by simp)
      · exact hidle' hyd (setPhase_other phase hne hj) ht hp
    · intro hidle' hyd hmem ht hp
      rcases mem_setPhase hmem with rfl | hold
      · have hclosed := hidle' h₀ hmem₀ ht hp
        exact absurd (hopen.symm.trans hclosed) (by simp)
      · exact hidle' hyd hold ht hp
  refine { h.toLined.setPhase hget hmark with
    gate := fun t ht p => (h.gate t ht p).trans (not_congr (hidle t p).symm)
    sole := fun j k hj hk hgetj hgetk hopenj hopenk hnot ht hp => ?_
    taken := fun hyd hmem hnot n hn => ?_
    replayed := h.replayed }
  · rcases getElem?_setPhase hgetj with ⟨rfl, rfl⟩ | ⟨-, hj'⟩
    · rcases getElem?_setPhase hgetk with ⟨rfl, -⟩ | ⟨-, hk'⟩
      · rfl
      · exact h.sole _ _ _ _ hget hk' hopen hopenk hnot ht hp
    · rcases getElem?_setPhase hgetk with ⟨rfl, rfl⟩ | ⟨-, hk'⟩
      · exact h.sole _ _ _ _ hj' hget hopenj hopen hnot ht hp
      · exact h.sole _ _ _ _ hj' hk' hopenj hopenk hnot ht hp
  · rcases mem_setPhase hmem with rfl | hold
    · rcases hmark n hn with htaken | hlate
      · exact h.taken h₀ hmem₀ hnot n htaken
      · exact fun chunk hchunk =>
          (h.line_old _ _ chunk (List.mem_append_left _ hchunk)).trans_le hlate
    · exact h.taken hyd hold hnot n hn

theorem endPaneHydration_at (d : OutputDemux T) (t₀ t : T) (p₀ p : PaneId) :
    (d.endPaneHydration t₀ p₀).1.hydrating t p =
        (if t = t₀ ∧ p = p₀ then none else d.hydrating t p) ∧
      (¬(t = t₀ ∧ p = p₀) → framesTo t p (d.endPaneHydration t₀ p₀).2 = []) := by
  rcases d.endPaneHydration_cases t₀ p₀ with ⟨queue, -, hout⟩ | ⟨hnone, hout⟩
  · rw [hout]
    refine ⟨rfl, fun hne => ?_⟩
    rw [framesTo_map, if_neg fun hto => hne ⟨hto.1.symm, hto.2.symm⟩]
  · rw [hout]
    refine ⟨?_, fun _ => rfl⟩
    split
    · next hto => rw [hto.1, hto.2, hnone]
    · rfl

/-- A hydration that is the only one of its pair closes the queue. -/
theorem Guarded.finish {r r' : Run T} (h : Guarded r) {i : Nat} {h₀ : Hydration T}
    {backpressured : DataFrame T → Bool} (hget : r.hydrations[i]? = some h₀)
    (hopen : h₀.phase.isOpen = true) (hfinish : finish r i h₀ backpressured = some r') :
    Guarded r' := by
  obtain ⟨proxy, hproxy, rfl⟩ := Option.map_eq_some_iff.mp hfinish
  have hproxy' : proxy = r.proxy.deliver backpressured
      (r.proxy.demux.endPaneHydration h₀.transport h₀.paneId) := by
    have hstep : Flow.step r.proxy (.endPaneHydration h₀.transport h₀.paneId backpressured) =
        some proxy := hproxy
    simp only [Flow.step] at hstep
    split at hstep
    · cases hstep
    · exact (Option.some.inj hstep).symm
  have hset : Lined (Hydrating.setPhase r i h₀ .finished) :=
    h.toLined.setPhase hget fun n hn => by cases hn
  have hlined := hset.onPlane (h.wired.step hproxy) (lines_endPaneHydration hproxy')
    fun _ _ => trivial
  have hsends : Sends { r.proxy with
      demux := (r.proxy.demux.endPaneHydration h₀.transport h₀.paneId).1 } proxy :=
    hproxy' ▸ sends_deliver _ _ _
  have hclosed : proxy.closed = r.proxy.closed := hsends.closed
  have hidle : ∀ t, t ∉ r.proxy.closed → ∀ p, Idle (Hydrating.setPhase r i h₀ .finished) t p ↔
      Idle r t p ∨ t = h₀.transport ∧ p = h₀.paneId := by
    intro t hnot p
    constructor
    · intro hidle'
      by_cases hto : t = h₀.transport ∧ p = h₀.paneId
      · exact .inr hto
      · refine .inl fun hyd hmem ht hp => ?_
        obtain ⟨j, hj⟩ := List.mem_iff_getElem?.mp hmem
        rcases eq_or_ne j i with rfl | hne
        · cases hget.symm.trans hj
          exact absurd ⟨ht.symm, hp.symm⟩ hto
        · exact hidle' hyd (setPhase_other _ hne hj) ht hp
    · intro hidle' hyd hmem ht hp
      obtain ⟨j, hj⟩ := List.mem_iff_getElem?.mp hmem
      rcases getElem?_setPhase hj with ⟨-, rfl⟩ | ⟨hne, hj'⟩
      · rfl
      · rcases hidle' with hidle' | ⟨rfl, rfl⟩
        · exact hidle' hyd (List.mem_of_getElem? hj') ht hp
        · -- Another hydration of the pair under way would be this one.
          rcases hopen' : hyd.phase.isOpen with _ | _
          · rfl
          · exact absurd (h.sole j i hyd h₀ hj' hget hopen' hopen (ht ▸ hnot) ht hp) hne
  refine { hlined with
    gate := fun t ht p => ?_
    sole := fun j k hj hk hgetj hgetk hopenj hopenk hnot ht hp => ?_
    taken := fun hyd hmem hnot n hn => ?_
    replayed := precedes_live hclosed.symm.subset _ h.replayed }
  · have hnot : t ∉ r.proxy.closed := hclosed ▸ ht
    show (proxy.demux.hydrating t p).isSome = true ↔
      ¬Idle (Hydrating.setPhase r i h₀ .finished) t p
    rw [hidle t hnot, hsends.lines.hydrating,
      (endPaneHydration_at r.proxy.demux h₀.transport t h₀.paneId p).1]
    split
    · next hto => simp [hto]
    · next hto => simp [hto, h.gate t hnot]
  · rcases getElem?_setPhase hgetj with ⟨-, rfl⟩ | ⟨-, hj'⟩
    · cases hopenj
    · rcases getElem?_setPhase hgetk with ⟨-, rfl⟩ | ⟨-, hk'⟩
      · cases hopenk
      · exact h.sole _ _ _ _ hj' hk' hopenj hopenk (hclosed ▸ hnot) ht hp
  · obtain ⟨j, hj⟩ := List.mem_iff_getElem?.mp hmem
    have hnot' : hyd.transport ∉ r.proxy.closed := hclosed ▸ hnot
    rcases getElem?_setPhase hj with ⟨-, rfl⟩ | ⟨hne, hj'⟩
    · cases hn
    · have hother : ¬(hyd.transport = h₀.transport ∧ hyd.paneId = h₀.paneId) := fun hto =>
        hne (h.sole j i hyd h₀ hj' hget (isOpen_of_takenAt hn) hopen hnot' hto.1 hto.2)
      intro chunk hchunk
      have hframes : framesTo hyd.transport hyd.paneId (framesOf (Hydrating.setPhase r i h₀
          .finished).proxy (.endPaneHydration h₀.transport h₀.paneId backpressured)) = [] :=
        (endPaneHydration_at _ _ _ _ _).2 hother
      rw [liveTo_append, liveTo_live, hframes, List.append_nil] at hchunk
      exact h.taken hyd (List.mem_of_getElem? hj') hnot' n hn chunk hchunk

/-- The replay goes out; its mark stays. -/
theorem Guarded.replay {r : Run T} (h : Guarded r) {i : Nat} {h₀ : Hydration T} {n : Nat}
    (hget : r.hydrations[i]? = some h₀) (hn : h₀.phase.takenAt = some n) (bytes : Bytes) :
    Guarded { Hydrating.setPhase r i h₀ .delivered with
      sent := r.sent ++ [.replay h₀.transport h₀.paneId n bytes] } := by
  have hmem₀ := List.mem_of_getElem? hget
  have hset : Guarded (Hydrating.setPhase r i h₀ .delivered) :=
    h.setPhase hget (isOpen_of_takenAt hn) rfl fun m hm => by cases hm
  have hlines : ∀ t p, liveTo t p (r.sent ++ [.replay h₀.transport h₀.paneId n bytes]) =
      liveTo t p r.sent := by
    intro t p
    rw [liveTo_append, liveTo_replay, liveTo_nil, List.append_nil]
  have hreplay : ∀ t p m bytes', .replay t p m bytes' ∈ r.sent ++
      [.replay h₀.transport h₀.paneId n bytes] → .replay t p m bytes' ∈ r.sent ∨
        t = h₀.transport ∧ p = h₀.paneId ∧ m = n := by
    intro t p m bytes' hmem
    rcases List.mem_append.mp hmem with hold | hnew
    · exact .inl hold
    · cases List.mem_singleton.mp hnew
      exact .inr ⟨rfl, rfl, rfl⟩
  refine { hset with
    line_old := fun t p chunk hchunk => ?_
    replay_placed := fun t p m bytes' hmem => ?_
    once := fun t ht p m hm chunk hchunk hge hbytes => ?_
    taken := fun hyd hhyd hnot m hm => ?_
    replayed := List.pairwise_append.mpr ⟨h.replayed, List.pairwise_singleton _ _,
      fun x hx y hy => ?_⟩ }
  · rw [hlines] at hchunk
    exact h.line_old t p chunk hchunk
  · rcases hreplay t p m bytes' hmem with hold | ⟨rfl, -, -⟩
    · exact h.replay_placed t p m bytes' hold
    · exact h.placed h₀ hmem₀
  · have hold : m ∈ marks r t p := by
      rcases mem_marks.mp hm with ⟨hyd, hhyd, hto, hp, htaken⟩ | ⟨bytes', hmem⟩
      · rcases mem_setPhase hhyd with rfl | hhyd
        · cases htaken
        · exact mem_marks.mpr (.inl ⟨hyd, hhyd, hto, hp, htaken⟩)
      · rcases hreplay t p m bytes' hmem with hmem | ⟨rfl, rfl, rfl⟩
        · exact mem_marks.mpr (.inr ⟨bytes', hmem⟩)
        · exact mem_marks.mpr (.inl ⟨h₀, hmem₀, rfl, rfl, hn⟩)
    rw [hlines]
    exact h.once t ht p m hold chunk hchunk hge hbytes
  · rw [hlines]
    exact hset.taken hyd hhyd hnot m hm
  · rw [List.mem_singleton.mp hy]
    cases x with
    | live frame =>
      intro hnot ht hp
      refine h.taken h₀ hmem₀ hnot n hn frame.chunk (mem_liveTo.mpr ?_)
      rw [← ht, ← hp]
      exact hx
    | replay _ _ _ _ => trivial

theorem Guarded.resume {r r' : Run T} (h : Guarded r) {i : Nat} {h₀ : Hydration T}
    {backpressured : DataFrame T → Bool} (hget : r.hydrations[i]? = some h₀)
    (hresume : resume r i h₀ backpressured = some r') : Guarded r' := by
  unfold Hydrating.resume at hresume
  split at hresume
  · next result n hphase =>
    have hopen : h₀.phase.isOpen = true := by rw [hphase]; rfl
    split at hresume
    · next hok =>
      cases hresume
      refine h.setPhase hget hopen rfl fun m hm => .inl ?_
      rw [hphase]
      exact (if_pos hok).trans hm
    · exact h.finish hget hopen hresume
  · next err n hphase => exact h.finish hget (by rw [hphase]; rfl) hresume
  · next body facts n hphase =>
    cases hresume
    exact h.replay hget (by rw [hphase]; rfl) _
  · next hphase => exact h.finish hget (by rw [hphase]; rfl) hresume
  · cases hresume

theorem Guarded.step {r r' : Run T} {event : Event T} (h : Guarded r) (hmeets : Meets r event)
    (hstep : step r event = some r') : Guarded r' := by
  cases event with
  | plane event =>
    simp only [Hydrating.step] at hstep
    split at hstep
    · cases hstep
    · next hown => exact h.plane hmeets (Bool.eq_false_iff.mpr hown) hstep
  | hydrate t p => exact h.hydrate hmeets hstep
  | captureReply i outcome =>
    simp only [Hydrating.step] at hstep
    split at hstep
    · next t p hget =>
      cases hstep
      refine h.setPhase hget rfl rfl fun n hn => .inr ?_
      cases outcome with
      | resolved result => exact (Option.some.inj (Option.ite_none_right_eq_some.mp hn).2).le
      | rejected err => cases hn
    · cases hstep
  | factsReply i facts =>
    simp only [Hydrating.step] at hstep
    split at hstep
    · next t p body n hget =>
      cases hstep
      exact h.setPhase hget rfl rfl fun m hm => .inl hm
    · cases hstep
  | resume i backpressured =>
    obtain ⟨h₀, hget, hresume⟩ := Option.bind_eq_some_iff.mp hstep
    exact h.resume hget hresume

/-! ## Runs without overlap and loss -/

/-- In every state of a run whose hydrations of a pair do not overlap and that drops no output of a
pane with a replay, no replay comes after a newer live chunk, and each newer chunk comes once after
it. -/
theorem hydration_protects (highWater lowWater : Nat) (h : lowWater < highWater)
    (events : List (Event T)) (r : Run T)
    (hmeets : Along step Meets (start highWater lowWater h) events)
    (hrun : exec step (start highWater lowWater h) events = some r) : Protects r :=
  (exec_invariant (fun _ _ _ hr hok hstep => hr.step hok hstep)
    (guarded_start highWater lowWater h) hmeets hrun).protects

/-- A pane is hydrated while it writes: a byte before the capture, one between capture and replay,
which the socket holds back, and one after the end. Then another hydration begins. -/
def hydrating : List (Event Unit) :=
  let p0 : PaneId := ⟨"p0"⟩
  let output (bytes : Bytes) : Event Unit := .plane (.output p0 bytes fun _ => false)
  [.plane (.addClient ()), .plane (.notifyPaneBound p0), .hydrate () p0, output (ascii "a"),
    .captureReply 0 (.resolved ⟨true, 1, ascii "a"⟩), output (ascii "b"), .resume 0 fun _ => false,
    .factsReply 0 none, .resume 0 fun _ => false, .resume 0 fun _ => true, output (ascii "c"),
    .plane (.drained 0), .hydrate () p0, output (ascii "d")]

theorem hydration_protects_hydrating : ∃ r, exec step (start DEFAULT_HIGH_WATER_BYTES
    DEFAULT_LOW_WATER_BYTES (by decide)) hydrating = some r ∧ Protects r ∧
      r.sent.length = 4 ∧ r.proxy.demux.queued () ⟨"p0"⟩ = [⟨3, ascii "d"⟩] :=
  ⟨_, rfl, hydration_protects DEFAULT_HIGH_WATER_BYTES DEFAULT_LOW_WATER_BYTES (by decide)
    hydrating _ (by decide +kernel) rfl, by decide +kernel, by decide +kernel⟩

/-- A bulk hydration and a `pane.attach` of the same pane; both captures are answered before
a byte of output. -/
def overlapping : List (Event Unit) :=
  let p0 : PaneId := ⟨"p0"⟩
  let resume (index : Nat) : Event Unit := .resume index fun _ => false
  [.plane (.addClient ()), .plane (.notifyPaneBound p0), .hydrate () p0, .hydrate () p0,
    .captureReply 0 (.resolved ⟨true, 1, []⟩), .captureReply 1 (.resolved ⟨true, 2, []⟩),
    .plane (.output p0 (ascii "x") fun _ => false), resume 0, resume 1, .factsReply 0 none,
    .factsReply 1 none, resume 0, resume 0, resume 1]

theorem overlapping_erases : ∃ r, exec step (start DEFAULT_HIGH_WATER_BYTES
    DEFAULT_LOW_WATER_BYTES (by decide)) overlapping = some r ∧ ¬Protects r :=
  ⟨_, rfl, fun h => absurd (h.not_before [.replay () ⟨"p0"⟩ 0 (deliverReplay [] none),
    .live ⟨(), ⟨"p0"⟩, ⟨0, ascii "x"⟩⟩] [] () ⟨"p0"⟩ 0 (deliverReplay [] none) rfl (by decide)
      ⟨0, ascii "x"⟩ (by decide)) (by decide)⟩

/-- One hydration, and more output before its replay than the backlog may hold. -/
def flooded : List (Event Unit) :=
  let p0 : PaneId := ⟨"p0"⟩
  let resume : Event Unit := .resume 0 fun _ => false
  [.plane (.addClient ()), .plane (.notifyPaneBound p0), .hydrate () p0,
    .captureReply 0 (.resolved ⟨true, 1, []⟩), .plane (.output p0 (ascii "xyz") fun _ => false),
    resume, .factsReply 0 none, resume, resume]

theorem flooded_loses : ∃ r, exec step (start 2 1 (by decide)) flooded = some r ∧ ¬Protects r :=
  ⟨_, rfl, fun h => absurd (h.after_once [] [] () ⟨"p0"⟩ 0 (deliverReplay [] none) rfl (by decide)
    ⟨0, ascii "xyz"⟩ (by decide) (by decide) (by decide)) (by decide)⟩

end TmuxccDriver.Runtime.Hydrating
