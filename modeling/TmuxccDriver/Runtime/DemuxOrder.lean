import Mathlib.Data.List.Flatten
import TmuxccDriver.Runtime.OutputDemux

/-!
# Order of the output of a pane

A run of the demux takes its calls and its microtasks in any order. An append for a pane
whose flush is still queued is fanned out at once, before the older chunks of the flush.

Results:
1. `perform_moves`: any other step leaves the chunks of a pane in line.
2. `inLine_of_run`, `InLine.ordered`: a run without such an append delivers in append order.
3. `demux_order_iff`: no schedule of the flushes and of the ends of hydration breaks the
   order, at any point of a run, exactly if the run has no such append.
-/

namespace TmuxccDriver.Runtime.Demux
open TmuxccDriver.Lib TmuxccDriver.Protocol

variable {T : Type} [DecidableEq T]

/-! ## Runs -/

/-- The calls made on a demux, and the turn of its oldest microtask. -/
inductive Event (T : Type)
  | append (paneId : PaneId) (bytes : Bytes)
  | notifyPaneBound (paneId : PaneId)
  | notifyPaneClosed (paneId : PaneId)
  | attachTransport (transport : T)
  | unsubscribe (transport : T)
  | detachTransport (transport : T)
  | pausePane (paneId : PaneId)
  | resumePane (paneId : PaneId)
  | beginPaneHydration (transport : T) (paneId : PaneId)
  | endPaneHydration (transport : T) (paneId : PaneId)
  | runMicrotask

/-- One event on a demux that has been given `count` chunks, with the calls of `sendData`
it makes. -/
def perform (d : OutputDemux T) (count : Nat) :
    Event T → Option (OutputDemux T × List (DataFrame T))
  | .append paneId bytes => some (d.append paneId ⟨count, bytes⟩)
  | .notifyPaneBound paneId => some (d.notifyPaneBound paneId, [])
  | .notifyPaneClosed paneId => some (d.notifyPaneClosed paneId, [])
  | .attachTransport transport => some (d.attachTransport transport, [])
  | .unsubscribe transport => some (d.unsubscribe transport, [])
  | .detachTransport transport => some (d.detachTransport transport, [])
  | .pausePane paneId => some (d.pausePane paneId, [])
  | .resumePane paneId => some (d.resumePane paneId, [])
  | .beginPaneHydration transport paneId => some (d.beginPaneHydration transport paneId, [])
  | .endPaneHydration transport paneId => some (d.endPaneHydration transport paneId)
  | .runMicrotask => d.runMicrotask

/-- A demux with what happened so far: the chunks it was given, the panes that were bound,
and what it sent. -/
structure Run (T : Type) where
  demux : OutputDemux T
  appended : List (PaneId × Chunk)
  bound : List PaneId
  sent : List (DataFrame T)

def start : Run T := ⟨createOutputDemux, [], [], []⟩

/-- The chunk an event gives to the demux. -/
def given (count : Nat) : Event T → List (PaneId × Chunk)
  | .append paneId bytes => [(paneId, ⟨count, bytes⟩)]
  | _ => []

def binds : Event T → List PaneId
  | .notifyPaneBound paneId => [paneId]
  | _ => []

def step (r : Run T) (event : Event T) : Option (Run T) :=
  (perform r.demux r.appended.length event).map fun (demux, frames) =>
    { demux
      appended := r.appended ++ given r.appended.length event
      bound := r.bound ++ binds event
      sent := r.sent ++ frames }

/-- The chunks of a pane among those given to the demux. -/
def chunksOf (paneId : PaneId) (appended : List (PaneId × Chunk)) : List Chunk :=
  (appended.filter fun entry => entry.1 = paneId).map (·.2)

/-- What was delivered to a transport for a pane is what was appended for that pane, in
that order, each chunk at most once, and nothing before the pane was bound. -/
structure Delivers (r : Run T) (transport : T) (paneId : PaneId) : Prop where
  in_order : (framesTo transport paneId r.sent).Sublist (chunksOf paneId r.appended)
  once : (framesTo transport paneId r.sent).Nodup
  bytes : ((framesTo transport paneId r.sent).flatMap (·.bytes)).Sublist
    ((chunksOf paneId r.appended).flatMap (·.bytes))
  bound : framesTo transport paneId r.sent ≠ [] → paneId ∈ r.bound

def Ordered (r : Run T) : Prop := ∀ transport paneId, Delivers r transport paneId

/-- An append that is fanned out while a flush of its pane is queued. -/
def Overtakes (r : Run T) : Event T → Prop
  | .append paneId bytes =>
    bytes ≠ [] ∧ paneId ∈ r.demux.knownPanes ∧ paneId ∉ r.demux.pausedPanes ∧
      r.demux.transports.values ≠ [] ∧ r.demux.flushing paneId ≠ []
  | _ => False

/-! ## What a step moves -/

/-- A bound pane has nothing staged, and only a bound pane has chunks in a hydration queue. -/
structure WellStaged (d : OutputDemux T) : Prop where
  drained : ∀ p ∈ d.knownPanes, d.pendingFanout p = []
  queued_known : ∀ t p, d.queued t p ≠ [] → p ∈ d.knownPanes

@[simp] theorem chunksOf_nil (p : PaneId) : chunksOf p [] = [] := rfl

@[simp] theorem chunksOf_append (p : PaneId) (xs ys : List (PaneId × Chunk)) :
    chunksOf p (xs ++ ys) = chunksOf p xs ++ chunksOf p ys := by
  simp [chunksOf]

theorem chunksOf_singleton (p q : PaneId) (chunk : Chunk) :
    chunksOf p [(q, chunk)] = if q = p then [chunk] else [] := by
  unfold chunksOf
  split
  · next h => simp [h]
  · next h => simp [h]

omit [DecidableEq T] in
theorem flushing_append (d : OutputDemux T) (p q : PaneId) (chunks : List Chunk) :
    ({ d with microtasks := d.microtasks ++ [(q, chunks)] } : OutputDemux T).flushing p =
      d.flushing p ++ if q = p then chunks else [] := by
  unfold OutputDemux.flushing
  rw [List.filter_append, List.flatMap_append]
  split
  · next h => simp [h]
  · next h => simp [h]

omit [DecidableEq T] in
theorem flushing_cons {d : OutputDemux T} {q : PaneId} {chunks : List Chunk}
    {rest : List (PaneId × List Chunk)} (h : d.microtasks = (q, chunks) :: rest) (p : PaneId) :
    d.flushing p = (if q = p then chunks else []) ++
      ({ d with microtasks := rest } : OutputDemux T).flushing p := by
  unfold OutputDemux.flushing
  rw [h, List.filter_cons]
  rcases eq_or_ne q p with rfl | hne
  · simp
  · simp [hne]

/-- The chunks that an append adds to the line of its pane. -/
theorem append_moves {d : OutputDemux T} (h : WellStaged d) (q : PaneId) (chunk : Chunk) (t : T)
    (p : PaneId) (hline : chunk.bytes ≠ [] → q ∈ d.knownPanes → q ∉ d.pausedPanes →
      d.transports.values ≠ [] → d.flushing q = []) :
    (framesTo t p (d.append q chunk).2 ++ (d.append q chunk).1.waiting t p).Sublist
      (d.waiting t p ++ if q = p then [chunk] else []) := by
  rcases d.append_cases q chunk with ⟨hpair, -⟩ | ⟨hpair, hbytes, hknown, hpaused, hsome⟩ |
    ⟨hpair, -⟩
  · rw [hpair]
    exact List.sublist_append_left _ _
  · obtain ⟨hydrating, hfan⟩ := d.fanOut_frame q chunk
    have hmoves := d.fanOut_moves q p chunk t
    have hrest : (d.fanOut q chunk).1.waiting t p = (d.fanOut q chunk).1.queued t p ++
        (d.flushing p ++ d.pendingFanout p) := by rw [hfan]; rfl
    rw [hpair, hrest, ← List.append_assoc, hmoves]
    rcases eq_or_ne q p with rfl | hq
    · -- Nothing of the pane is in line behind the transport's own queue.
      rw [OutputDemux.waiting, hline hbytes hknown hpaused hsome, h.drained q hknown, if_pos rfl,
        List.append_nil, List.append_nil, List.append_nil]
      split
      · exact List.Sublist.refl _
      · rw [List.append_nil]
        exact List.sublist_append_left _ _
    · rw [if_neg fun hto => hq hto.2, if_neg hq, List.append_nil, List.append_nil]
      exact List.Sublist.refl _
  · rw [hpair]
    show List.Sublist (d.queued t p ++ (d.flushing p ++ if p = q then
      d.pendingFanout p ++ [chunk] else d.pendingFanout p)) _
    rw [OutputDemux.waiting]
    rcases eq_or_ne p q with rfl | hne
    · simp
    · simp [hne, hne.symm]

omit [DecidableEq T] in
theorem notifyPaneBound_moves (d : OutputDemux T) (q p : PaneId) (t : T) :
    (d.notifyPaneBound q).waiting t p = d.waiting t p := by
  unfold OutputDemux.notifyPaneBound
  split
  · rfl
  · dsimp only
    split
    · show d.queued t p ++ (OutputDemux.flushing { d with
        microtasks := d.microtasks ++ [(q, d.pendingFanout q)] } p ++
          if p = q then [] else d.pendingFanout p) = _
      rw [flushing_append, OutputDemux.waiting]
      rcases eq_or_ne p q with rfl | hne
      · simp
      · simp [hne, hne.symm]
    · next hempty =>
      show d.queued t p ++ (d.flushing p ++ if p = q then [] else d.pendingFanout p) = _
      rw [OutputDemux.waiting]
      rcases eq_or_ne p q with rfl | hne
      · simp [List.length_eq_zero_iff.mp (Nat.eq_zero_of_not_pos hempty)]
      · simp [hne]

omit [DecidableEq T] in
theorem notifyPaneClosed_moves (d : OutputDemux T) (q p : PaneId) (t : T) :
    ((d.notifyPaneClosed q).waiting t p).Sublist (d.waiting t p) := by
  show List.Sublist ((if p = q then none else d.hydrating t p).getD [] ++
    (d.flushing p ++ if p = q then [] else d.pendingFanout p)) _
  unfold OutputDemux.waiting OutputDemux.queued
  split
  · simp only [Option.getD_none, List.nil_append, List.append_nil]
    exact (List.sublist_append_left _ _).trans (List.sublist_append_right _ _)
  · exact List.Sublist.refl _

theorem detachTransport_moves (d : OutputDemux T) (t' t : T) (p : PaneId) :
    ((d.detachTransport t').waiting t p).Sublist (d.waiting t p) := by
  show List.Sublist ((if t = t' then none else d.hydrating t p).getD [] ++
    (d.flushing p ++ d.pendingFanout p)) _
  unfold OutputDemux.waiting OutputDemux.queued
  split
  · exact List.sublist_append_right _ _
  · exact List.Sublist.refl _

theorem queued_beginPaneHydration (d : OutputDemux T) (t' t : T) (q p : PaneId) :
    (d.beginPaneHydration t' q).queued t p = d.queued t p := by
  unfold OutputDemux.beginPaneHydration
  split
  · rfl
  · next h =>
    show (if t = t' ∧ p = q then some [] else d.hydrating t p).getD [] = _
    split
    · next hto =>
      obtain ⟨rfl, rfl⟩ := hto
      simp [OutputDemux.queued, h]
    · rfl

theorem beginPaneHydration_moves (d : OutputDemux T) (t' t : T) (q p : PaneId) :
    (d.beginPaneHydration t' q).waiting t p = d.waiting t p := by
  unfold OutputDemux.waiting
  rw [queued_beginPaneHydration]
  unfold OutputDemux.beginPaneHydration
  split <;> rfl

/-- The queue goes out in the order it has. -/
theorem endPaneHydration_queued (d : OutputDemux T) (t' t : T) (q p : PaneId) :
    framesTo t p (d.endPaneHydration t' q).2 ++ (d.endPaneHydration t' q).1.queued t p =
      d.queued t p := by
  rcases d.endPaneHydration_cases t' q with ⟨queue, hqueue, hpair⟩ | ⟨-, hpair⟩
  · rw [hpair, framesTo_map]
    show _ ++ (if t = t' ∧ p = q then none else d.hydrating t p).getD [] = _
    by_cases hto : t = t' ∧ p = q
    · obtain ⟨rfl, rfl⟩ := hto
      simp [OutputDemux.queued, hqueue]
    · rw [if_neg hto, if_neg fun h => hto ⟨h.1.symm, h.2.symm⟩, List.nil_append]
      rfl
  · rw [hpair]
    rfl

theorem queued_endPaneHydration (d : OutputDemux T) (t : T) (p : PaneId) :
    (d.endPaneHydration t p).1.queued t p = [] := by
  rcases d.endPaneHydration_cases t p with ⟨queue, -, hpair⟩ | ⟨hnone, hpair⟩
  · rw [hpair]
    simp [OutputDemux.queued, OutputDemux.setQueue]
  · rw [hpair]
    simp [OutputDemux.queued, hnone]

theorem endPaneHydration_moves (d : OutputDemux T) (t' t : T) (q p : PaneId) :
    framesTo t p (d.endPaneHydration t' q).2 ++ (d.endPaneHydration t' q).1.waiting t p =
      d.waiting t p := by
  have hrest : (d.endPaneHydration t' q).1.waiting t p =
      (d.endPaneHydration t' q).1.queued t p ++ (d.flushing p ++ d.pendingFanout p) := by
    rcases d.endPaneHydration_cases t' q with ⟨queue, -, hpair⟩ | ⟨-, hpair⟩ <;> rw [hpair] <;> rfl
  rw [hrest, ← List.append_assoc, endPaneHydration_queued]
  rfl

/-- The first chunks behind the queues leave the line of the flushes. -/
theorem runMicrotask_moves {d d' : OutputDemux T} {frames : List (DataFrame T)}
    (h : d.runMicrotask = some (d', frames)) (t : T) (p : PaneId) :
    (framesTo t p frames ++ d'.waiting t p).Sublist (d.waiting t p) := by
  obtain ⟨q, chunks, rest, htasks, ⟨rfl, rfl, -⟩ | ⟨hfan, -⟩⟩ := d.runMicrotask_cases h
  · refine List.Sublist.append_left ?_ (d.queued t p)
    rw [flushing_cons htasks p, List.append_assoc]
    exact List.sublist_append_right _ _
  · have hmoves := OutputDemux.fanOutAll_moves { d with microtasks := rest } q p chunks t
    obtain ⟨hydrating, hframe⟩ := OutputDemux.fanOutAll_frame { d with microtasks := rest } q chunks
    rw [hfan] at hframe hmoves
    have hrest : d'.waiting t p = d'.queued t p ++
        (OutputDemux.flushing { d with microtasks := rest } p ++ d.pendingFanout p) := by
      rw [show d' = _ from hframe]
      rfl
    rw [hrest, ← List.append_assoc, hmoves, OutputDemux.waiting, flushing_cons htasks p,
      List.append_assoc, List.append_assoc]
    refine List.Sublist.append_left (List.Sublist.append_right ?_ _) _
    split
    · next hto => rw [if_pos hto.2]
    · exact List.nil_sublist _

/-- Unless an append overtakes a flush, what a step sends is the head of the line, and what
it is given goes to the end. -/
theorem perform_moves {d d' : OutputDemux T} {count : Nat} {event : Event T}
    {frames : List (DataFrame T)} (h : WellStaged d)
    (hperform : perform d count event = some (d', frames))
    (hline : ∀ q bytes, event = .append q bytes → bytes ≠ [] → q ∈ d.knownPanes →
      q ∉ d.pausedPanes → d.transports.values ≠ [] → d.flushing q = []) (t : T) (p : PaneId) :
    (framesTo t p frames ++ d'.waiting t p).Sublist
      (d.waiting t p ++ chunksOf p (given count event)) := by
  cases event with
  | append q bytes =>
    have hpair : d.append q ⟨count, bytes⟩ = (d', frames) := Option.some.inj hperform
    have hmoves := append_moves h q ⟨count, bytes⟩ t p (hline q bytes rfl)
    rw [hpair] at hmoves
    rw [given, chunksOf_singleton]
    exact hmoves
  | notifyPaneBound q =>
    cases hperform
    rw [notifyPaneBound_moves]
    exact List.sublist_append_left _ _
  | notifyPaneClosed q =>
    cases hperform
    exact (notifyPaneClosed_moves d q p t).trans (List.sublist_append_left _ _)
  | detachTransport t' =>
    cases hperform
    exact (detachTransport_moves d t' t p).trans (List.sublist_append_left _ _)
  | beginPaneHydration t' q =>
    cases hperform
    rw [beginPaneHydration_moves]
    exact List.sublist_append_left _ _
  | endPaneHydration t' q =>
    have hpair : d.endPaneHydration t' q = (d', frames) := Option.some.inj hperform
    have hmoves := endPaneHydration_moves d t' t q p
    rw [hpair] at hmoves
    rw [hmoves]
    exact List.sublist_append_left _ _
  | runMicrotask => exact (runMicrotask_moves hperform t p).trans (List.sublist_append_left _ _)
  | attachTransport _ | unsubscribe _ | pausePane _ | resumePane _ =>
    cases hperform
    exact List.sublist_append_left _ _

/-! ## Bound panes -/

/-- A fan-out for a bound pane. -/
theorem WellStaged.fanOut {d d' : OutputDemux T} (h : WellStaged d) {q : PaneId}
    (hq : q ∈ d.knownPanes) (hframe : ∃ hydrating, d' = { d with hydrating := hydrating })
    {frames : List (DataFrame T)} {chunks : List Chunk}
    (hmoves : ∀ t p, framesTo t p frames ++ d'.queued t p =
      d.queued t p ++ if t ∈ d.transports.values ∧ q = p then chunks else []) :
    WellStaged d' := by
  obtain ⟨hydrating, rfl⟩ := hframe
  refine ⟨h.drained, fun t p hne => ?_⟩
  rcases eq_or_ne q p with rfl | hqp
  · exact hq
  · refine h.queued_known t p fun hnil => hne ?_
    have := hmoves t p
    rw [if_neg fun hto => hqp hto.2, hnil] at this
    exact (List.append_eq_nil_iff.mp this).2

omit [DecidableEq T] in
/-- Queues that are only dropped or opened. -/
theorem WellStaged.of_queued {d d' : OutputDemux T} (h : WellStaged d)
    (hknown : d'.knownPanes = d.knownPanes) (hpending : d'.pendingFanout = d.pendingFanout)
    (hqueued : ∀ t p, d'.queued t p = [] ∨ d'.queued t p = d.queued t p) : WellStaged d' := by
  refine ⟨fun p hp => ?_, fun t p hne => ?_⟩
  · rw [hpending]
    exact h.drained p (hknown ▸ hp)
  · rw [hknown]
    rcases hqueued t p with hnil | hsame
    · exact absurd hnil hne
    · exact h.queued_known t p (hsame ▸ hne)

omit [DecidableEq T] in
theorem WellStaged.notifyPaneBound {d : OutputDemux T} (h : WellStaged d) (q : PaneId) :
    WellStaged (d.notifyPaneBound q) := by
  have hbound : ∀ tasks, WellStaged ({ d.unstage q with
      knownPanes := insert q d.knownPanes, microtasks := tasks } : OutputDemux T) := by
    refine fun tasks => ⟨fun p hp => ?_, fun t p hne => ?_⟩
    · show (if p = q then [] else d.pendingFanout p) = []
      split
      · rfl
      · next hne => exact h.drained p (Finset.mem_of_mem_insert_of_ne hp hne)
    · exact Finset.mem_insert_of_mem (h.queued_known t p hne)
  unfold OutputDemux.notifyPaneBound
  split
  · exact h
  · dsimp only
    split
    · exact hbound _
    · exact hbound _

omit [DecidableEq T] in
theorem WellStaged.notifyPaneClosed {d : OutputDemux T} (h : WellStaged d) (q : PaneId) :
    WellStaged (d.notifyPaneClosed q) := by
  refine ⟨fun p hp => ?_, fun t p hne => ?_⟩
  · show (if p = q then [] else d.pendingFanout p) = []
    split
    · rfl
    · exact h.drained p (Finset.mem_of_mem_erase hp)
  · have hne' : (if p = q then none else d.hydrating t p).getD [] ≠ [] := hne
    split at hne'
    · exact absurd rfl hne'
    · next hpq => exact Finset.mem_erase_of_ne_of_mem hpq (h.queued_known t p hne')

theorem WellStaged.append {d : OutputDemux T} (h : WellStaged d) (q : PaneId) (chunk : Chunk) :
    WellStaged (d.append q chunk).1 := by
  rcases d.append_cases q chunk with ⟨hpair, -⟩ | ⟨hpair, -, hknown, -⟩ | ⟨hpair, -, hknown, -⟩
  · rw [hpair]
    exact h
  · rw [hpair]
    exact h.fanOut hknown (d.fanOut_frame q chunk) fun t p => d.fanOut_moves q p chunk t
  · rw [hpair]
    refine ⟨fun p hp => ?_, h.queued_known⟩
    show (if p = q then d.pendingFanout p ++ [chunk] else d.pendingFanout p) = []
    rw [if_neg fun hpq : p = q => hknown (hpq ▸ hp)]
    exact h.drained p hp

theorem WellStaged.runMicrotask {d d' : OutputDemux T} {frames : List (DataFrame T)}
    (h : WellStaged d) (hrun : d.runMicrotask = some (d', frames)) : WellStaged d' := by
  obtain ⟨q, chunks, rest, -, hcases⟩ := d.runMicrotask_cases hrun
  have hrest : WellStaged ({ d with microtasks := rest } : OutputDemux T) := { h with }
  rcases hcases with ⟨rfl, -⟩ | ⟨hfan, hknown, -⟩
  · exact hrest
  · have hframe := OutputDemux.fanOutAll_frame { d with microtasks := rest } q chunks
    have hmoves := fun t p =>
      OutputDemux.fanOutAll_moves { d with microtasks := rest } q p chunks t
    rw [hfan] at hframe hmoves
    exact hrest.fanOut hknown hframe hmoves

theorem WellStaged.perform {d d' : OutputDemux T} {count : Nat} {event : Event T}
    {frames : List (DataFrame T)} (h : WellStaged d)
    (hperform : perform d count event = some (d', frames)) : WellStaged d' := by
  cases event with
  | append q bytes =>
    have hpair : d.append q ⟨count, bytes⟩ = (d', frames) := Option.some.inj hperform
    have happend := h.append q ⟨count, bytes⟩
    rwa [hpair] at happend
  | notifyPaneBound q =>
    cases hperform
    exact h.notifyPaneBound q
  | notifyPaneClosed q =>
    cases hperform
    exact h.notifyPaneClosed q
  | detachTransport t' =>
    cases hperform
    refine h.of_queued rfl rfl fun t p => ?_
    show (if t = t' then none else d.hydrating t p).getD [] = [] ∨
      (if t = t' then none else d.hydrating t p).getD [] = _
    split
    · exact .inl rfl
    · exact .inr rfl
  | beginPaneHydration t' q =>
    cases hperform
    have hrest : (d.beginPaneHydration t' q).knownPanes = d.knownPanes ∧
        (d.beginPaneHydration t' q).pendingFanout = d.pendingFanout := by
      unfold OutputDemux.beginPaneHydration
      split <;> exact ⟨rfl, rfl⟩
    exact h.of_queued hrest.1 hrest.2 fun t p => .inr (queued_beginPaneHydration d t' t q p)
  | endPaneHydration t' q =>
    have hpair : d.endPaneHydration t' q = (d', frames) := Option.some.inj hperform
    rcases d.endPaneHydration_cases t' q with ⟨queue, -, hend⟩ | ⟨-, hend⟩
    · cases hpair.symm.trans hend
      refine h.of_queued rfl rfl fun t p => ?_
      show (if t = t' ∧ p = q then none else d.hydrating t p).getD [] = [] ∨
        (if t = t' ∧ p = q then none else d.hydrating t p).getD [] = _
      split
      · exact .inl rfl
      · exact .inr rfl
    · cases hpair.symm.trans hend
      exact h
  | runMicrotask => exact h.runMicrotask hperform
  | attachTransport _ | unsubscribe _ | pausePane _ | resumePane _ =>
    cases hperform
    exact { h with }

/-- A step sends for bound panes only. -/
theorem perform_frames {d d' : OutputDemux T} {count : Nat} {event : Event T}
    {frames : List (DataFrame T)} (h : WellStaged d)
    (hperform : perform d count event = some (d', frames)) :
    ∀ f ∈ frames, f.paneId ∈ d.knownPanes := by
  have hnone : ∀ f ∈ ([] : List (DataFrame T)), f.paneId ∈ d.knownPanes :=
    fun f hf => absurd hf List.not_mem_nil
  cases event with
  | append q bytes =>
    have hpair : d.append q ⟨count, bytes⟩ = (d', frames) := Option.some.inj hperform
    rcases d.append_cases q ⟨count, bytes⟩ with ⟨happend, -⟩ | ⟨happend, -, hknown, -⟩ |
      ⟨happend, -⟩
    · cases hpair.symm.trans happend
      exact hnone
    · intro f hf
      rw [d.fanOut_frames q ⟨count, bytes⟩ f (by rw [← happend, hpair]; exact hf)]
      exact hknown
    · cases hpair.symm.trans happend
      exact hnone
  | endPaneHydration t' q =>
    have hpair : d.endPaneHydration t' q = (d', frames) := Option.some.inj hperform
    rcases d.endPaneHydration_cases t' q with ⟨queue, hqueue, hend⟩ | ⟨-, hend⟩
    · cases hpair.symm.trans hend
      intro f hf
      obtain ⟨chunk, hchunk, rfl⟩ := List.mem_map.mp hf
      refine h.queued_known t' q fun hnil => ?_
      rw [OutputDemux.queued, hqueue, Option.getD_some] at hnil
      exact absurd (hnil ▸ hchunk) List.not_mem_nil
    · cases hpair.symm.trans hend
      exact hnone
  | runMicrotask =>
    obtain ⟨q, chunks, rest, -, ⟨-, rfl, -⟩ | ⟨hfan, hknown, -⟩⟩ := d.runMicrotask_cases hperform
    · exact hnone
    · intro f hf
      rw [OutputDemux.fanOutAll_frames { d with microtasks := rest } q chunks f
        (by rw [hfan]; exact hf)]
      exact hknown
  | notifyPaneBound _ | notifyPaneClosed _ | attachTransport _ | unsubscribe _ | detachTransport _
  | pausePane _ | resumePane _ | beginPaneHydration _ _ =>
    cases hperform
    exact hnone

/-- A step makes no pane known but the one it binds. -/
theorem perform_known {d d' : OutputDemux T} {count : Nat} {event : Event T}
    {frames : List (DataFrame T)} (hperform : perform d count event = some (d', frames)) :
    ∀ p ∈ d'.knownPanes, p ∈ d.knownPanes ∨ p ∈ binds event := by
  have hsame : d'.knownPanes = d.knownPanes → ∀ p ∈ d'.knownPanes,
      p ∈ d.knownPanes ∨ p ∈ binds event := fun heq p hp => .inl (heq ▸ hp)
  cases event with
  | append q bytes =>
    have hpair : d.append q ⟨count, bytes⟩ = (d', frames) := Option.some.inj hperform
    refine hsame ?_
    rcases d.append_cases q ⟨count, bytes⟩ with ⟨happend, -⟩ | ⟨happend, -⟩ | ⟨happend, -⟩
    · cases hpair.symm.trans happend
      rfl
    · obtain ⟨hydrating, hfan⟩ := d.fanOut_frame q ⟨count, bytes⟩
      rw [← happend, hpair] at hfan
      rw [show d' = _ from hfan]
    · cases hpair.symm.trans happend
      rfl
  | notifyPaneBound q =>
    cases hperform
    unfold OutputDemux.notifyPaneBound
    split
    · exact fun p hp => .inl hp
    · intro p hp
      have hp' : p ∈ insert q d.knownPanes := by
        dsimp only at hp
        split at hp <;> exact hp
      rcases Finset.mem_insert.mp hp' with rfl | hp'
      · exact .inr (List.mem_singleton.mpr rfl)
      · exact .inl hp'
  | notifyPaneClosed q =>
    cases hperform
    exact fun p hp => .inl (Finset.mem_of_mem_erase hp)
  | beginPaneHydration t' q =>
    cases hperform
    refine hsame ?_
    unfold OutputDemux.beginPaneHydration
    split <;> rfl
  | endPaneHydration t' q =>
    have hpair : d.endPaneHydration t' q = (d', frames) := Option.some.inj hperform
    refine hsame ?_
    rcases d.endPaneHydration_cases t' q with ⟨queue, -, hend⟩ | ⟨-, hend⟩ <;>
      cases hpair.symm.trans hend <;> rfl
  | runMicrotask =>
    refine hsame ?_
    obtain ⟨q, chunks, rest, -, ⟨rfl, -⟩ | ⟨hfan, -⟩⟩ := d.runMicrotask_cases hperform
    · rfl
    · obtain ⟨hydrating, hframe⟩ :=
        OutputDemux.fanOutAll_frame { d with microtasks := rest } q chunks
      rw [hfan] at hframe
      rw [show d' = _ from hframe]
  | attachTransport _ | unsubscribe _ | detachTransport _ | pausePane _ | resumePane _ =>
    cases hperform
    exact hsame rfl

/-! ## Ordered runs -/

/-- What every run keeps that has no overtaking append. -/
structure InLine (r : Run T) : Prop where
  staged : WellStaged r.demux
  in_line : ∀ t p,
    (framesTo t p r.sent ++ r.demux.waiting t p).Sublist (chunksOf p r.appended)
  numbered : r.appended.map (fun entry => entry.2.seq) = List.range r.appended.length
  known_bound : ∀ p ∈ r.demux.knownPanes, p ∈ r.bound
  sent_bound : ∀ f ∈ r.sent, f.paneId ∈ r.bound

theorem inLine_start : InLine (start : Run T) where
  staged := ⟨fun p hp => absurd hp (Finset.notMem_empty p), fun _ _ hne => absurd rfl hne⟩
  in_line := fun _ _ => List.Sublist.refl _
  numbered := rfl
  known_bound := fun p hp => absurd hp (Finset.notMem_empty p)
  sent_bound := fun _ hf => absurd hf List.not_mem_nil

omit [DecidableEq T] in
theorem numbered_given {appended : List (PaneId × Chunk)}
    (h : appended.map (fun entry => entry.2.seq) = List.range appended.length) (event : Event T) :
    (appended ++ given appended.length event).map (fun entry => entry.2.seq) =
      List.range (appended ++ given appended.length event).length := by
  cases event with
  | append q bytes =>
    rw [given, List.map_append, h, List.length_append, List.length_singleton, List.range_succ]
    rfl
  | _ => simpa [given] using h

theorem InLine.step {r r' : Run T} {event : Event T} (h : InLine r) (hok : ¬Overtakes r event)
    (hstep : step r event = some r') : InLine r' := by
  obtain ⟨⟨d', frames⟩, hperform, rfl⟩ := Option.map_eq_some_iff.mp hstep
  have hknown : ∀ p ∈ d'.knownPanes, p ∈ r.bound ++ binds event := by
    intro p hp
    rcases perform_known hperform p hp with hold | hnew
    · exact List.mem_append_left _ (h.known_bound p hold)
    · exact List.mem_append_right _ hnew
  refine ⟨h.staged.perform hperform, fun t p => ?_, numbered_given h.numbered event, hknown, ?_⟩
  · have hmoves := perform_moves h.staged hperform (fun q bytes hevent hbytes hq hpaused hts => by
      subst hevent
      exact not_not.mp fun hne => hok ⟨hbytes, hq, hpaused, hts, hne⟩) t p
    rw [framesTo_append, chunksOf_append, List.append_assoc]
    refine (List.Sublist.append_left hmoves _).trans ?_
    rw [← List.append_assoc]
    exact List.Sublist.append_right (h.in_line t p) _
  · intro f hf
    rcases List.mem_append.mp hf with hold | hnew
    · exact List.mem_append_left _ (h.sent_bound f hold)
    · exact List.mem_append_left _ (h.known_bound _ (perform_frames h.staged hperform f hnew))

theorem chunksOf_sorted {appended : List (PaneId × Chunk)}
    (h : appended.map (fun entry => entry.2.seq) = List.range appended.length) (p : PaneId) :
    (chunksOf p appended).Pairwise fun a b => a.seq < b.seq := by
  have hall : appended.Pairwise fun a b => a.2.seq < b.2.seq := by
    rw [← List.pairwise_map, h]
    exact List.pairwise_lt_range
  exact List.pairwise_map.mpr (hall.filter _)

theorem seq_lt_of_mem {appended : List (PaneId × Chunk)}
    (h : appended.map (fun entry => entry.2.seq) = List.range appended.length) {p : PaneId}
    {chunk : Chunk} (hchunk : chunk ∈ chunksOf p appended) : chunk.seq < appended.length := by
  obtain ⟨entry, hentry, rfl⟩ := List.mem_map.mp hchunk
  rw [← List.mem_range, ← h]
  exact List.mem_map.mpr ⟨entry, (List.mem_filter.mp hentry).1, rfl⟩

theorem InLine.ordered {r : Run T} (h : InLine r) : Ordered r := by
  intro t p
  have hin : (framesTo t p r.sent).Sublist (chunksOf p r.appended) :=
    (List.sublist_append_left _ _).trans (h.in_line t p)
  refine ⟨hin, ?_, hin.flatMap _, fun hne => ?_⟩
  · refine List.Nodup.sublist hin ((chunksOf_sorted h.numbered p).imp fun hlt heq => ?_)
    rw [heq] at hlt
    exact lt_irrefl _ hlt
  · obtain ⟨chunk, hchunk⟩ := List.exists_mem_of_ne_nil _ hne
    obtain ⟨f, hf, -⟩ := List.mem_map.mp hchunk
    obtain ⟨hmem, hto⟩ := List.mem_filter.mp hf
    obtain ⟨-, rfl⟩ := of_decide_eq_true hto
    exact h.sent_bound f hmem

theorem inLine_of_run {r : Run T} {events : List (Event T)}
    (hok : Along step (fun r event => ¬Overtakes r event) start events)
    (hrun : exec step start events = some r) : InLine r :=
  exec_invariant (fun _ _ _ hr hnot hstep => hr.step hnot hstep) inLine_start hok hrun

/-! ## Appends that overtake -/

/-- With its pane bound and not paused, every flush that is queued reaches an attached
transport, or the end of its queue. -/
theorem flush_reaches {t : T} {p : PaneId} {r : Run T} (hknown : p ∈ r.demux.knownPanes)
    (hpaused : p ∉ r.demux.pausedPanes) (ht : t ∈ r.demux.transports.values) :
    ∃ r', exec step r (List.replicate r.demux.microtasks.length .runMicrotask) = some r' ∧
      r'.appended = r.appended ∧
      framesTo t p r'.sent ++ r'.demux.queued t p =
        framesTo t p r.sent ++ r.demux.queued t p ++ r.demux.flushing p := by
  induction htasks : r.demux.microtasks generalizing r with
  | nil => exact ⟨r, rfl, rfl, by simp [OutputDemux.flushing, htasks]⟩
  | cons task rest ih =>
    obtain ⟨⟨d', frames⟩, hrun⟩ : ∃ out, r.demux.runMicrotask = some out := by
      unfold OutputDemux.runMicrotask
      rw [htasks]
      dsimp only
      split
      · exact ⟨_, rfl⟩
      · split
        · exact ⟨_, rfl⟩
        · split <;> exact ⟨_, rfl⟩
    obtain ⟨q, chunks, rest', htasks', hcases⟩ := r.demux.runMicrotask_cases hrun
    cases htasks.symm.trans htasks'
    have hflushing := flushing_cons htasks p
    -- One flush keeps the pane bound and adds its chunks, if they are of this pane.
    have hone : (∃ hydrating, d' = { r.demux with hydrating := hydrating, microtasks := rest }) ∧
        framesTo t p frames ++ d'.queued t p =
          r.demux.queued t p ++ if q = p then chunks else [] := by
      rcases hcases with ⟨rfl, rfl, hdropped⟩ | ⟨hfan, -⟩
      · refine ⟨⟨_, rfl⟩, ?_⟩
        have hother : q ≠ p := by
          rintro rfl
          rcases hdropped with h | h | h
          · exact h hknown
          · exact hpaused h
          · exact absurd (h ▸ ht) List.not_mem_nil
        rw [if_neg hother, List.append_nil]
        rfl
      · have hframe := OutputDemux.fanOutAll_frame { r.demux with microtasks := rest } q chunks
        have hmoves := OutputDemux.fanOutAll_moves { r.demux with microtasks := rest } q p chunks t
        rw [hfan] at hframe hmoves
        refine ⟨hframe, hmoves.trans ?_⟩
        simp only [ht, true_and]
        rfl
    obtain ⟨⟨hydrating, hd⟩, hadds⟩ := hone
    let r₁ : Run T := ⟨d', r.appended ++ [], r.bound ++ [], r.sent ++ frames⟩
    have hstep : step r .runMicrotask = some r₁ :=
      Option.map_eq_some_iff.mpr ⟨(d', frames), hrun, rfl⟩
    have hr₁ : r₁.demux = _ := hd
    obtain ⟨r', hexec, happended, hreach⟩ := ih (r := r₁) (by rw [hr₁]; exact hknown)
      (by rw [hr₁]; exact hpaused) (by rw [hr₁]; exact ht) (by rw [hr₁])
    have hrest : r₁.demux.flushing p =
        OutputDemux.flushing { r.demux with microtasks := rest } p := by
      rw [hr₁]
      rfl
    refine ⟨r', ?_, happended.trans (List.append_nil _), ?_⟩
    · rw [List.length_cons, List.replicate_succ, exec_cons, hstep]
      exact hexec
    · rw [hreach, hrest, hflushing, framesTo_append, List.append_assoc (framesTo t p r.sent), hadds]
      simp only [List.append_assoc]

/-- The events that only let waiting chunks go out. -/
def LetsOut : Event T → Prop
  | .runMicrotask | .endPaneHydration _ _ => True
  | _ => False

theorem breaks_of_overtakes {r : Run T} (h : InLine r) {event : Event T}
    (hover : Overtakes r event) :
    ∃ rest r', (∀ e ∈ rest, LetsOut e) ∧ exec step r (event :: rest) = some r' ∧ ¬Ordered r' := by
  cases event with
  | append p bytes =>
    obtain ⟨hbytes, hknown, hpaused, hsome, hflush⟩ := hover
    obtain ⟨t, ht⟩ := List.exists_mem_of_ne_nil _ hsome
    let chunk : Chunk := ⟨r.appended.length, bytes⟩
    have happend : r.demux.append p chunk = r.demux.fanOut p chunk :=
      OutputDemux.append_fanOut hbytes hknown hpaused hsome
    obtain ⟨hydrating, hframe⟩ := r.demux.fanOut_frame p chunk
    have hmoves := r.demux.fanOut_moves p p chunk t
    rw [if_pos ⟨ht, rfl⟩] at hmoves
    let r₁ : Run T := ⟨(r.demux.fanOut p chunk).1, r.appended ++ [(p, chunk)], r.bound ++ [],
      r.sent ++ (r.demux.fanOut p chunk).2⟩
    have hstep : step r (.append p bytes) = some r₁ :=
      Option.map_eq_some_iff.mpr ⟨_, congrArg some happend, rfl⟩
    have hr₁ : r₁.demux = _ := hframe
    obtain ⟨r₂, hexec, happended, hreach⟩ := flush_reaches (t := t) (p := p) (r := r₁)
      (by rw [hr₁]; exact hknown) (by rw [hr₁]; exact hpaused) (by rw [hr₁]; exact ht)
    -- The queue of the transport goes out last.
    let r₃ : Run T := ⟨(r₂.demux.endPaneHydration t p).1, r₂.appended ++ [], r₂.bound ++ [],
      r₂.sent ++ (r₂.demux.endPaneHydration t p).2⟩
    have hend : step r₂ (.endPaneHydration t p) = some r₃ := rfl
    refine ⟨List.replicate r₁.demux.microtasks.length .runMicrotask ++ [.endPaneHydration t p], r₃,
      ?_, ?_, fun hordered => ?_⟩
    · intro e he
      rcases List.mem_append.mp he with he | he
      · rw [List.eq_of_mem_replicate he]
        trivial
      · rw [List.mem_singleton.mp he]
        trivial
    · rw [exec_cons, hstep, Option.bind_some, exec_append, hexec, Option.bind_some, exec_cons, hend]
      rfl
    have hsent : framesTo t p r₃.sent =
        framesTo t p r.sent ++ r.demux.queued t p ++ [chunk] ++ r.demux.flushing p := by
      have hout := endPaneHydration_queued r₂.demux t t p p
      rw [queued_endPaneHydration, List.append_nil] at hout
      have hflushing : r₁.demux.flushing p = r.demux.flushing p := by
        rw [hr₁]
        rfl
      calc framesTo t p r₃.sent
          = framesTo t p r₂.sent ++ r₂.demux.queued t p := by rw [framesTo_append, hout]
        _ = framesTo t p r.sent ++ (framesTo t p (r.demux.fanOut p chunk).2 ++
              r₁.demux.queued t p) ++ r.demux.flushing p := by
            rw [hreach, hflushing, framesTo_append, List.append_assoc (framesTo t p r.sent)]
        _ = _ := by rw [hmoves, ← List.append_assoc]
    obtain ⟨late, hlate⟩ := List.exists_mem_of_ne_nil _ hflush
    have happended₃ : r₃.appended =
        r.appended ++ given r.appended.length (.append p bytes : Event T) :=
      (List.append_nil _).trans happended
    have hsorted := chunksOf_sorted (p := p) (happended₃ ▸ numbered_given h.numbered _)
    have hpairs := hsorted.sublist (hordered t p).in_order
    rw [hsent] at hpairs
    have hlt : chunk.seq < late.seq :=
      (List.pairwise_append.mp hpairs).2.2 chunk (by simp) late hlate
    have hmem : late ∈ chunksOf p r.appended := by
      refine (h.in_line t p).mem ?_
      simp only [OutputDemux.waiting, List.mem_append, hlate, true_or, or_true]
    exact absurd (seq_lt_of_mem h.numbered hmem) (not_lt.mpr hlt.le)
  | _ => exact absurd hover id

omit [DecidableEq T] in
theorem not_overtakes_of_letsOut {r : Run T} {event : Event T} (h : LetsOut event) :
    ¬Overtakes r event := by
  cases event with
  | append _ _ => exact absurd h id
  | _ => exact id

/-- Whatever chunks are let out at whatever point of a run, they come in order, exactly if
no append of the run overtakes a flush. -/
theorem demux_order_iff (events : List (Event T)) :
    (∀ done rest r, done <+: events → (∀ e ∈ rest, LetsOut e) →
        exec step start (done ++ rest) = some r → Ordered r) ↔
      Along step (fun r event => ¬Overtakes r event) start events := by
  constructor
  · intro h
    induction events using List.reverseRecOn with
    | nil => trivial
    | append_singleton events event ih =>
      have hdone := ih fun done rest r hdone =>
        h done rest r (hdone.trans (List.prefix_append _ _))
      refine (along_append _).mpr ⟨hdone, fun r hrun => ⟨fun hover => ?_, fun _ _ => trivial⟩⟩
      obtain ⟨rest, r', hrest, hexec, hbroken⟩ :=
        breaks_of_overtakes (inLine_of_run hdone hrun) hover
      refine hbroken (h (events ++ [event]) rest r' (List.prefix_refl _) hrest ?_)
      rw [List.append_assoc, exec_append, hrun]
      exact hexec
  · intro h done rest r hdone hrest hrun
    obtain ⟨after, rfl⟩ := hdone
    have hok : Along step (fun r event => ¬Overtakes r event) start (done ++ rest) :=
      (along_append _).mpr ⟨((along_append _).mp h).1, fun s _ =>
        along_mono (fun _ _ => not_overtakes_of_letsOut) (along_of_forall step hrest s)⟩
    exact (inLine_of_run hok hrun).ordered

/-- A byte comes between the bind of its pane and the flush of the byte before it. -/
def lateFlush : List (Event Unit) :=
  [.attachTransport (), .append ⟨"p0"⟩ (ascii "a"), .notifyPaneBound ⟨"p0"⟩,
    .append ⟨"p0"⟩ (ascii "b"), .runMicrotask]

theorem late_flush_out_of_order : ∃ r, exec step start lateFlush = some r ∧ ¬Ordered r :=
  ⟨_, rfl, fun h => absurd (h () ⟨"p0"⟩).in_order (by decide)⟩

end TmuxccDriver.Runtime.Demux
