import Mathlib.Data.Finset.Basic
import TmuxccDriver.Lib.Bytes
import TmuxccDriver.Lib.KeyedMap
import TmuxccDriver.Lib.Run
import TmuxccDriver.Protocol.SessionProxyControl

/-!
# Output demux

`runtime/output-demux.ts`: every `append` of pane output is fanned out to the attached
transports. A chunk may wait in three places first: staged while the pane is unknown, in
the microtask that flushes the staged chunks after the pane is bound, and in the queue of
a transport that is being hydrated.

Results:
1. `fanOut_at`, `fanOutAll_moves`: what a fan-out does for a transport and a pane.
2. `append_cases`, `runMicrotask_cases`, `endPaneHydration_cases`: everything these
   operations may do.
-/

namespace TmuxccDriver.Runtime
open TmuxccDriver.Lib TmuxccDriver.Protocol

variable {T : Type} [DecidableEq T]

/-! ## State -/

/-- A `Uint8Array` given to `append`: which one of the run it is, and its content. -/
structure Chunk where
  seq : Nat
  bytes : Bytes
deriving DecidableEq

/-- One call of a transport's `sendData`. -/
structure DataFrame (T : Type) where
  transport : T
  paneId : PaneId
  chunk : Chunk
deriving DecidableEq

def MAX_PENDING_BYTES_PER_PANE : Nat := 128 * 1024

/-- The closure state of `createOutputDemux`. A pane without staged chunks has the empty
list; a transport that is not being hydrated for a pane has no queue for it. -/
structure OutputDemux (T : Type) where
  transports : KeyedMap (id : T → T)
  pausedPanes : Finset PaneId
  hydrating : T → PaneId → Option (List Chunk)
  knownPanes : Finset PaneId
  pendingFanout : PaneId → List Chunk
  pendingFanoutBytes : PaneId → Nat
  microtasks : List (PaneId × List Chunk)

def createOutputDemux : OutputDemux T where
  transports := KeyedMap.empty
  pausedPanes := ∅
  hydrating := fun _ _ => none
  knownPanes := ∅
  pendingFanout := fun _ => []
  pendingFanoutBytes := fun _ => 0
  microtasks := []

namespace OutputDemux

/-- The hydration queue of one transport for one pane. -/
def setQueue (d : OutputDemux T) (transport : T) (paneId : PaneId) (queue : Option (List Chunk)) :
    OutputDemux T :=
  { d with hydrating := fun t p =>
      if t = transport ∧ p = paneId then queue else d.hydrating t p }

/-- `_pendingFanout.delete(paneId)` and `_pendingFanoutBytes.delete(paneId)`. -/
def unstage (d : OutputDemux T) (paneId : PaneId) : OutputDemux T :=
  { d with
    pendingFanout := fun p => if p = paneId then [] else d.pendingFanout p
    pendingFanoutBytes := fun p => if p = paneId then 0 else d.pendingFanoutBytes p }

/-! ## Fan-out -/

/-- One turn of the loop of `_fanOut`. -/
def fanOutTo (paneId : PaneId) (chunk : Chunk) (acc : OutputDemux T × List (DataFrame T))
    (transport : T) : OutputDemux T × List (DataFrame T) :=
  match acc.1.hydrating transport paneId with
  | some queue => (acc.1.setQueue transport paneId (some (queue ++ [chunk])), acc.2)
  | none => (acc.1, acc.2 ++ [⟨transport, paneId, chunk⟩])

def fanOut (d : OutputDemux T) (paneId : PaneId) (chunk : Chunk) :
    OutputDemux T × List (DataFrame T) :=
  d.transports.values.foldl (fanOutTo paneId chunk) (d, [])

/-- Fan out several chunks, one after the other. -/
def fanOutAll (d : OutputDemux T) (paneId : PaneId) :
    List Chunk → OutputDemux T × List (DataFrame T)
  | [] => (d, [])
  | chunk :: chunks =>
    let (d₁, sent) := d.fanOut paneId chunk
    let (d₂, rest) := fanOutAll d₁ paneId chunks
    (d₂, sent ++ rest)

/-! ## Operations -/

/-- The chunk goes to the pre-topology buffer, which has `wouldBe` bytes then. -/
def stage (d : OutputDemux T) (paneId : PaneId) (chunk : Chunk) (wouldBe : Nat) : OutputDemux T :=
  { d with
    pendingFanout := fun p =>
      if p = paneId then d.pendingFanout p ++ [chunk] else d.pendingFanout p
    pendingFanoutBytes := fun p => if p = paneId then wouldBe else d.pendingFanoutBytes p }

/-- `store.append`. -/
def append (d : OutputDemux T) (paneId : PaneId) (chunk : Chunk) :
    OutputDemux T × List (DataFrame T) :=
  if chunk.bytes.length = 0 then (d, [])
  else if paneId ∈ d.knownPanes then
    if paneId ∈ d.pausedPanes then (d, [])
    else if d.transports.values.length = 0 then (d, [])
    else d.fanOut paneId chunk
  else
    let wouldBe := d.pendingFanoutBytes paneId + chunk.bytes.length
    if wouldBe > MAX_PENDING_BYTES_PER_PANE then (d, [])
    else (d.stage paneId chunk wouldBe, [])

def attachTransport (d : OutputDemux T) (transport : T) : OutputDemux T :=
  { d with transports := d.transports.set transport }

/-- The function that `attachTransport` returns. -/
def unsubscribe (d : OutputDemux T) (transport : T) : OutputDemux T :=
  { d with transports := d.transports.delete transport }

def detachTransport (d : OutputDemux T) (transport : T) : OutputDemux T :=
  { d with
    transports := d.transports.delete transport
    hydrating := fun t p => if t = transport then none else d.hydrating t p }

def pausePane (d : OutputDemux T) (paneId : PaneId) : OutputDemux T :=
  { d with pausedPanes := insert paneId d.pausedPanes }

def resumePane (d : OutputDemux T) (paneId : PaneId) : OutputDemux T :=
  { d with pausedPanes := d.pausedPanes.erase paneId }

def notifyPaneBound (d : OutputDemux T) (paneId : PaneId) : OutputDemux T :=
  if paneId ∈ d.knownPanes then d
  else
    let chunks := d.pendingFanout paneId
    let d := { d.unstage paneId with knownPanes := insert paneId d.knownPanes }
    if 0 < chunks.length then { d with microtasks := d.microtasks ++ [(paneId, chunks)] } else d

/-- The microtask at the head of the queue: the flush that `notifyPaneBound` deferred. -/
def runMicrotask (d : OutputDemux T) : Option (OutputDemux T × List (DataFrame T)) :=
  match d.microtasks with
  | [] => none
  | (paneId, chunks) :: rest =>
    let d := { d with microtasks := rest }
    if paneId ∉ d.knownPanes then some (d, [])
    else if paneId ∈ d.pausedPanes then some (d, [])
    else if d.transports.values.length = 0 then some (d, [])
    else some (d.fanOutAll paneId chunks)

def notifyPaneClosed (d : OutputDemux T) (paneId : PaneId) : OutputDemux T :=
  { d.unstage paneId with
    knownPanes := d.knownPanes.erase paneId
    hydrating := fun t p => if p = paneId then none else d.hydrating t p }

def beginPaneHydration (d : OutputDemux T) (transport : T) (paneId : PaneId) : OutputDemux T :=
  match d.hydrating transport paneId with
  | some _ => d
  | none => d.setQueue transport paneId (some [])

def endPaneHydration (d : OutputDemux T) (transport : T) (paneId : PaneId) :
    OutputDemux T × List (DataFrame T) :=
  match d.hydrating transport paneId with
  | some queue =>
    (d.setQueue transport paneId none, queue.map fun chunk => ⟨transport, paneId, chunk⟩)
  | none => (d, [])

/-! ## Chunks in line -/

/-- The chunks in the hydration queue of a transport for a pane. -/
def queued (d : OutputDemux T) (transport : T) (paneId : PaneId) : List Chunk :=
  (d.hydrating transport paneId).getD []

/-- The chunks of a pane in microtasks that have not run. -/
def flushing (d : OutputDemux T) (paneId : PaneId) : List Chunk :=
  (d.microtasks.filter fun task => task.1 = paneId).flatMap (·.2)

/-- Every chunk of a pane that waits for a transport, the oldest first. -/
def waiting (d : OutputDemux T) (transport : T) (paneId : PaneId) : List Chunk :=
  d.queued transport paneId ++ (d.flushing paneId ++ d.pendingFanout paneId)

end OutputDemux

/-- What a transport was sent for a pane. -/
def framesTo (transport : T) (paneId : PaneId) (frames : List (DataFrame T)) : List Chunk :=
  (frames.filter fun f => f.transport = transport ∧ f.paneId = paneId).map (·.chunk)

@[simp] theorem framesTo_nil (t : T) (p : PaneId) : framesTo t p [] = [] := rfl

@[simp] theorem framesTo_append (t : T) (p : PaneId) (xs ys : List (DataFrame T)) :
    framesTo t p (xs ++ ys) = framesTo t p xs ++ framesTo t p ys := by
  simp [framesTo]

theorem framesTo_singleton (t t' : T) (p p' : PaneId) (chunk : Chunk) :
    framesTo t p [⟨t', p', chunk⟩] = if t' = t ∧ p' = p then [chunk] else [] := by
  unfold framesTo
  split
  · next h => simp [h]
  · next h => simp [h]

theorem framesTo_map (t t' : T) (p p' : PaneId) (chunks : List Chunk) :
    framesTo t p (chunks.map fun chunk => ⟨t', p', chunk⟩) =
      if t' = t ∧ p' = p then chunks else [] := by
  induction chunks with
  | nil => simp
  | cons c cs ih =>
    rw [List.map_cons, ← List.singleton_append, framesTo_append, framesTo_singleton, ih]
    split <;> rfl

namespace OutputDemux

/-! ## What a fan-out adds -/

/-- What a fan-out leaves alone. -/
theorem fanOutTo_frame (acc : OutputDemux T × List (DataFrame T)) (p : PaneId) (chunk : Chunk)
    (t : T) : ∃ hydrating, (fanOutTo p chunk acc t).1 = { acc.1 with hydrating := hydrating } := by
  unfold fanOutTo
  split
  · exact ⟨_, rfl⟩
  · exact ⟨_, rfl⟩

theorem fanOut_frame (d : OutputDemux T) (p : PaneId) (chunk : Chunk) :
    ∃ hydrating, (d.fanOut p chunk).1 = { d with hydrating := hydrating } := by
  refine foldl_keeps (P := fun acc : OutputDemux T × List (DataFrame T) =>
    ∃ hydrating, acc.1 = { d with hydrating := hydrating }) ⟨_, rfl⟩ fun t acc _ hacc => ?_
  obtain ⟨hydrating, hd⟩ := hacc
  obtain ⟨hydrating', hstep⟩ := fanOutTo_frame acc p chunk t
  exact ⟨hydrating', by rw [hstep, hd]⟩

theorem fanOutTo_at (acc : OutputDemux T × List (DataFrame T)) (p q : PaneId) (chunk : Chunk)
    (t' t : T) :
    (fanOutTo p chunk acc t').1.hydrating t q =
        (if t' = t ∧ p = q then (acc.1.hydrating t q).map (· ++ [chunk])
          else acc.1.hydrating t q) ∧
      framesTo t q (fanOutTo p chunk acc t').2 = framesTo t q acc.2 ++
        if t' = t ∧ p = q ∧ acc.1.hydrating t q = none then [chunk] else [] := by
  by_cases hto : t' = t ∧ p = q
  · obtain ⟨rfl, rfl⟩ := hto
    unfold fanOutTo
    split
    · next queue h => simp [setQueue, h]
    · next h => simp [framesTo_singleton, h]
  · have hne : ¬(t = t' ∧ q = p) := fun h => hto ⟨h.1.symm, h.2.symm⟩
    rw [if_neg hto, if_neg fun h => hto ⟨h.1, h.2.1⟩]
    unfold fanOutTo
    split
    · simp [setQueue, hne]
    · simp [framesTo_singleton, hto]

/-- What a fan-out does for one transport and one pane: the chunk goes to the hydration
queue if there is one, else out. -/
theorem fanOut_at (d : OutputDemux T) (p q : PaneId) (chunk : Chunk) (t : T) :
    (d.fanOut p chunk).1.hydrating t q =
        (if t ∈ d.transports.values ∧ p = q then (d.hydrating t q).map (· ++ [chunk])
          else d.hydrating t q) ∧
      framesTo t q (d.fanOut p chunk).2 =
        if t ∈ d.transports.values ∧ p = q ∧ d.hydrating t q = none then [chunk] else [] := by
  have hloop : ∀ (ts : List T) (acc : OutputDemux T × List (DataFrame T)), ts.Nodup →
      (ts.foldl (fanOutTo p chunk) acc).1.hydrating t q =
          (if t ∈ ts ∧ p = q then (acc.1.hydrating t q).map (· ++ [chunk])
            else acc.1.hydrating t q) ∧
        framesTo t q (ts.foldl (fanOutTo p chunk) acc).2 = framesTo t q acc.2 ++
          if t ∈ ts ∧ p = q ∧ acc.1.hydrating t q = none then [chunk] else [] := by
    intro ts
    induction ts with
    | nil => simp
    | cons t' ts ih =>
      intro acc hnodup
      obtain ⟨hnot, hts⟩ := List.nodup_cons.mp hnodup
      obtain ⟨hqueue, hframes⟩ := fanOutTo_at acc p q chunk t' t
      obtain ⟨hqueue', hframes'⟩ := ih (fanOutTo p chunk acc t') hts
      rw [List.foldl_cons, hqueue', hframes', hqueue, hframes]
      rcases eq_or_ne t' t with rfl | hne
      · simp [hnot]
      · simp [hne, hne.symm]
  have hnodup : d.transports.values.Nodup := by simpa using d.transports.nodup
  exact hloop d.transports.values (d, []) hnodup

/-- A fan-out puts its chunk last in line for each attached transport, once. -/
theorem fanOut_moves (d : OutputDemux T) (p q : PaneId) (chunk : Chunk) (t : T) :
    framesTo t q (d.fanOut p chunk).2 ++ (d.fanOut p chunk).1.queued t q =
      d.queued t q ++ if t ∈ d.transports.values ∧ p = q then [chunk] else [] := by
  obtain ⟨hqueue, hframes⟩ := d.fanOut_at p q chunk t
  unfold queued
  rw [hqueue, hframes]
  by_cases hto : t ∈ d.transports.values ∧ p = q
  · rcases h : d.hydrating t q with _ | queue
    · simp [hto]
    · simp [hto]
  · rw [if_neg hto, if_neg hto, if_neg fun h => hto ⟨h.1, h.2.1⟩, List.nil_append, List.append_nil]

theorem fanOut_frames (d : OutputDemux T) (p : PaneId) (chunk : Chunk) :
    ∀ f ∈ (d.fanOut p chunk).2, f.paneId = p := by
  refine foldl_keeps (P := fun acc : OutputDemux T × List (DataFrame T) =>
    ∀ f ∈ acc.2, f.paneId = p) (fun f hf => absurd hf List.not_mem_nil) fun t acc _ hacc => ?_
  unfold fanOutTo
  split
  · exact hacc
  · intro f hf
    rcases List.mem_append.mp hf with hf | hf
    · exact hacc f hf
    · rw [List.mem_singleton.mp hf]

theorem fanOutAll_singleton (d : OutputDemux T) (p : PaneId) (chunk : Chunk) :
    d.fanOutAll p [chunk] = d.fanOut p chunk := by
  show ((d.fanOut p chunk).1, (d.fanOut p chunk).2 ++ []) = _
  rw [List.append_nil]

theorem fanOutAll_frame (d : OutputDemux T) (p : PaneId) (chunks : List Chunk) :
    ∃ hydrating, (d.fanOutAll p chunks).1 = { d with hydrating := hydrating } := by
  induction chunks generalizing d with
  | nil => exact ⟨_, rfl⟩
  | cons c cs ih =>
    obtain ⟨hydrating, hfan⟩ := d.fanOut_frame p c
    obtain ⟨hydrating', hrest⟩ := ih (d.fanOut p c).1
    exact ⟨hydrating', hrest.trans (by rw [hfan])⟩

theorem fanOutAll_moves (d : OutputDemux T) (p q : PaneId) (chunks : List Chunk) (t : T) :
    framesTo t q (d.fanOutAll p chunks).2 ++ (d.fanOutAll p chunks).1.queued t q =
      d.queued t q ++ if t ∈ d.transports.values ∧ p = q then chunks else [] := by
  induction chunks generalizing d with
  | nil => simp [fanOutAll]
  | cons c cs ih =>
    obtain ⟨hydrating, hfan⟩ := d.fanOut_frame p c
    have htransports : (d.fanOut p c).1.transports = d.transports := by rw [hfan]
    show framesTo t q ((d.fanOut p c).2 ++ ((d.fanOut p c).1.fanOutAll p cs).2) ++
      ((d.fanOut p c).1.fanOutAll p cs).1.queued t q = _
    rw [framesTo_append, List.append_assoc, ih, htransports, ← List.append_assoc, fanOut_moves,
      List.append_assoc]
    split
    · rfl
    · rfl

/-- A transport that is hydrated for a pane stays so, and gets nothing sent for it. -/
theorem fanOutAll_gated (d : OutputDemux T) (p q : PaneId) (chunks : List Chunk) (t : T) :
    ((d.fanOutAll p chunks).1.hydrating t q).isSome = (d.hydrating t q).isSome ∧
      ((d.hydrating t q).isSome → framesTo t q (d.fanOutAll p chunks).2 = []) := by
  induction chunks generalizing d with
  | nil => exact ⟨rfl, fun _ => rfl⟩
  | cons c cs ih =>
    obtain ⟨hqueue, hframes⟩ := d.fanOut_at p q c t
    obtain ⟨hsame, hrest⟩ := ih (d.fanOut p c).1
    have hisSome : ((d.fanOut p c).1.hydrating t q).isSome = (d.hydrating t q).isSome := by
      rw [hqueue]
      split
      · exact Option.isSome_map
      · rfl
    refine ⟨hsame.trans hisSome, fun hopen => ?_⟩
    show framesTo t q ((d.fanOut p c).2 ++ ((d.fanOut p c).1.fanOutAll p cs).2) = []
    rw [framesTo_append, hrest (hisSome ▸ hopen), hframes, List.append_nil, if_neg]
    rintro ⟨-, -, hnone⟩
    rw [hnone] at hopen
    exact absurd hopen (by simp)

theorem fanOutAll_frames (d : OutputDemux T) (p : PaneId) (chunks : List Chunk) :
    ∀ f ∈ (d.fanOutAll p chunks).2, f.paneId = p := by
  induction chunks generalizing d with
  | nil => exact fun f hf => absurd hf List.not_mem_nil
  | cons c cs ih =>
    intro f hf
    rcases List.mem_append.mp hf with hf | hf
    · exact d.fanOut_frames p c f hf
    · exact ih _ f hf

/-! ## What an operation may do -/

/-- An append drops its chunk, fans it out or stages it. -/
theorem append_cases (d : OutputDemux T) (p : PaneId) (chunk : Chunk) :
    d.append p chunk = (d, []) ∧ (chunk.bytes = [] ∨ (p ∈ d.knownPanes ∧
      (p ∈ d.pausedPanes ∨ d.transports.values = [])) ∨ (p ∉ d.knownPanes ∧
        MAX_PENDING_BYTES_PER_PANE < d.pendingFanoutBytes p + chunk.bytes.length)) ∨
    d.append p chunk = d.fanOut p chunk ∧ chunk.bytes ≠ [] ∧ p ∈ d.knownPanes ∧
      p ∉ d.pausedPanes ∧ d.transports.values ≠ [] ∨
    d.append p chunk =
        (d.stage p chunk (d.pendingFanoutBytes p + chunk.bytes.length), []) ∧
      chunk.bytes ≠ [] ∧ p ∉ d.knownPanes ∧
      d.pendingFanoutBytes p + chunk.bytes.length ≤ MAX_PENDING_BYTES_PER_PANE := by
  unfold append
  split
  · next hbytes => exact .inl ⟨rfl, .inl (List.length_eq_zero_iff.mp hbytes)⟩
  · next hbytes =>
    have hne : chunk.bytes ≠ [] := fun hnil => hbytes (List.length_eq_zero_iff.mpr hnil)
    split
    · next hknown =>
      split
      · next hpaused => exact .inl ⟨rfl, .inr (.inl ⟨hknown, .inl hpaused⟩)⟩
      · next hpaused =>
        split
        · next hnone =>
          exact .inl ⟨rfl, .inr (.inl ⟨hknown, .inr (List.length_eq_zero_iff.mp hnone)⟩)⟩
        · next hsome =>
          exact .inr (.inl ⟨rfl, hne, hknown, hpaused,
            fun hnil => hsome (List.length_eq_zero_iff.mpr hnil)⟩)
    · next hknown =>
      dsimp only
      split
      · next hfull => exact .inl ⟨rfl, .inr (.inr ⟨hknown, hfull⟩)⟩
      · next hroom => exact .inr (.inr ⟨rfl, hne, hknown, not_lt.mp hroom⟩)

/-- The chunk that an append puts last in line for a transport. -/
theorem append_line (d : OutputDemux T) (p q : PaneId) (chunk : Chunk) (t : T) :
    framesTo t q (d.append p chunk).2 ++ (d.append p chunk).1.queued t q = d.queued t q ++
      if t ∈ d.transports.values ∧ p = q ∧ p ∈ d.knownPanes ∧ p ∉ d.pausedPanes ∧
        chunk.bytes ≠ [] then [chunk] else [] := by
  rcases d.append_cases p chunk with ⟨hout, hdropped⟩ | ⟨hout, hbytes, hknown, hpaused, -⟩ |
    ⟨hout, -, hknown, -⟩
  · rw [hout, if_neg, framesTo_nil, List.nil_append, List.append_nil]
    rintro ⟨ht, -, hknown, hpaused, hbytes⟩
    rcases hdropped with hnil | ⟨-, hgated | hnone⟩ | ⟨hunknown, -⟩
    · exact hbytes hnil
    · exact hpaused hgated
    · exact absurd (hnone ▸ ht) List.not_mem_nil
    · exact hunknown hknown
  · rw [hout, fanOut_moves]
    simp only [hknown, hpaused, hbytes, ne_eq, not_false_eq_true, and_true]
  · rw [hout, if_neg fun h => hknown h.2.2.1, framesTo_nil, List.nil_append, List.append_nil]
    rfl

theorem append_fanOut {d : OutputDemux T} {p : PaneId} {chunk : Chunk} (hbytes : chunk.bytes ≠ [])
    (hknown : p ∈ d.knownPanes) (hpaused : p ∉ d.pausedPanes) (hsome : d.transports.values ≠ []) :
    d.append p chunk = d.fanOut p chunk := by
  rcases d.append_cases p chunk with ⟨-, hnil | ⟨-, hp | hn⟩ | ⟨hp, -⟩⟩ | ⟨hpair, -⟩ |
    ⟨-, -, hp, -⟩
  · exact absurd hnil hbytes
  · exact absurd hp hpaused
  · exact absurd hn hsome
  · exact absurd hknown hp
  · exact hpair
  · exact absurd hknown hp

/-- A flush drops its chunks or fans them out. -/
theorem runMicrotask_cases {d d' : OutputDemux T} {frames : List (DataFrame T)}
    (h : d.runMicrotask = some (d', frames)) :
    ∃ p chunks rest, d.microtasks = (p, chunks) :: rest ∧
      (d' = { d with microtasks := rest } ∧ frames = [] ∧
          (p ∉ d.knownPanes ∨ p ∈ d.pausedPanes ∨ d.transports.values = []) ∨
        fanOutAll { d with microtasks := rest } p chunks = (d', frames) ∧ p ∈ d.knownPanes ∧
          p ∉ d.pausedPanes ∧ d.transports.values ≠ []) := by
  unfold runMicrotask at h
  split at h
  · cases h
  · next p chunks rest htasks =>
    refine ⟨p, chunks, rest, htasks, ?_⟩
    dsimp only at h
    split at h
    · next hknown =>
      cases h
      exact .inl ⟨rfl, rfl, .inl hknown⟩
    · next hknown =>
      split at h
      · next hpaused =>
        cases h
        exact .inl ⟨rfl, rfl, .inr (.inl hpaused)⟩
      · next hpaused =>
        split at h
        · next hnone =>
          cases h
          exact .inl ⟨rfl, rfl, .inr (.inr (List.length_eq_zero_iff.mp hnone))⟩
        · next hsome =>
          exact .inr ⟨Option.some.inj h, not_not.mp hknown, hpaused,
            fun hnil => hsome (List.length_eq_zero_iff.mpr hnil)⟩

/-! ## What every operation leaves alone -/

theorem append_frame (d : OutputDemux T) (p : PaneId) (chunk : Chunk) :
    (d.append p chunk).1.transports = d.transports ∧
      (d.append p chunk).1.pausedPanes = d.pausedPanes := by
  rcases d.append_cases p chunk with ⟨hout, -⟩ | ⟨hout, -⟩ | ⟨hout, -⟩
  · rw [hout]
    exact ⟨rfl, rfl⟩
  · obtain ⟨hydrating, hframe⟩ := d.fanOut_frame p chunk
    rw [hout, hframe]
    exact ⟨rfl, rfl⟩
  · rw [hout]
    exact ⟨rfl, rfl⟩

omit [DecidableEq T] in
theorem notifyPaneBound_frame (d : OutputDemux T) (p : PaneId) :
    (d.notifyPaneBound p).transports = d.transports ∧
      (d.notifyPaneBound p).pausedPanes = d.pausedPanes ∧
      (d.notifyPaneBound p).hydrating = d.hydrating := by
  unfold notifyPaneBound
  split
  · exact ⟨rfl, rfl, rfl⟩
  · dsimp only
    split <;> exact ⟨rfl, rfl, rfl⟩

theorem runMicrotask_frame {d : OutputDemux T} {out : OutputDemux T × List (DataFrame T)}
    (h : d.runMicrotask = some out) :
    out.1.transports = d.transports ∧ out.1.pausedPanes = d.pausedPanes := by
  obtain ⟨p, chunks, rest, -, ⟨hd, -⟩ | ⟨hout, -⟩⟩ := runMicrotask_cases h
  · rw [hd]
    exact ⟨rfl, rfl⟩
  · obtain ⟨hydrating, hframe⟩ := fanOutAll_frame { d with microtasks := rest } p chunks
    rw [← show _ = out from hout, hframe]
    exact ⟨rfl, rfl⟩

theorem beginPaneHydration_frame (d : OutputDemux T) (t : T) (p : PaneId) :
    (d.beginPaneHydration t p).transports = d.transports ∧
      (d.beginPaneHydration t p).pausedPanes = d.pausedPanes := by
  unfold beginPaneHydration
  split <;> exact ⟨rfl, rfl⟩

theorem endPaneHydration_frame (d : OutputDemux T) (t : T) (p : PaneId) :
    (d.endPaneHydration t p).1.transports = d.transports ∧
      (d.endPaneHydration t p).1.pausedPanes = d.pausedPanes := by
  unfold endPaneHydration
  split <;> exact ⟨rfl, rfl⟩

theorem endPaneHydration_cases (d : OutputDemux T) (t : T) (p : PaneId) :
    (∃ queue, d.hydrating t p = some queue ∧ d.endPaneHydration t p =
        (d.setQueue t p none, queue.map fun chunk => ⟨t, p, chunk⟩)) ∨
      d.hydrating t p = none ∧ d.endPaneHydration t p = (d, []) := by
  unfold endPaneHydration
  split
  · next queue h => exact .inl ⟨queue, h, rfl⟩
  · next h => exact .inr ⟨h, rfl⟩

end OutputDemux

end TmuxccDriver.Runtime
