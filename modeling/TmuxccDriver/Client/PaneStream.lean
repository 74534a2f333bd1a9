import Mathlib.Data.List.Nodup
import Mathlib.Logic.Function.Basic
import TmuxccDriver.Lib.Bytes
import TmuxccDriver.Lib.Run

/-!
# The pane byte streams

`pane-stream.ts`: a chunk of output goes to the handlers of its pane, and to the global ones after
them; without a handler of the pane it is buffered, and the next subscriber gets the buffer.
Handlers are called from loops over lists that they can change, so the loops that are not
finished are kept as frames, the innermost one first, and anything may happen before a handler
returns. A `for` loop over an array looks up one index after the other in the array as it is
then.

A chunk is known by the number of its push. What was pushed, what the handlers got and what a
subscriber was given are kept beside the state of the code.

Results:
1. `Backlog.push`: what the buffer is of the chunks that came without a handler.
2. `Sound.returns`: a loop delivers what it owes.
3. `sound_step`: what a step keeps that meets `Calm`.
4. `delivers_of_calm`: in a run of such steps no byte is lost, reordered or delivered twice.
-/

namespace TmuxccDriver.Client.PaneStream
open TmuxccDriver.Lib

structure Chunk where
  number : Nat
  bytes : Bytes
deriving DecidableEq, Repr

/-- A call of `push`, with the handlers that the pane had then. -/
structure Push (P η : Type) where
  pane : P
  bytes : Bytes
  targets : List η
deriving DecidableEq, Repr

/-- A subscription that found a buffer: what was pushed since the pane had no handler, and what
the subscriber is given. -/
structure Window (η : Type) where
  handler : η
  pushed : List Chunk
  given : List Chunk
deriving DecidableEq, Repr

/-- The entries of a pane. `delivered` are the calls of its handlers, and `unheard` what was
pushed since the last subscription that found a buffer, while there was no handler. -/
structure Pane (η : Type) where
  handlers : List η := []
  preSub : List Chunk := []
  preSubBytes : Nat := 0
  delivered : List (η × Chunk) := []
  unheard : List Chunk := []
  windows : List (Window η) := []
deriving DecidableEq, Repr

/-- A loop that has called a handler and goes on, at an index of the list or with the rest
of the chunks, when it returns. -/
inductive Frame (P η : Type)
  | handlers (pane : P) (chunk : Chunk) (next : Nat)
  | globals (pane : P) (chunk : Chunk) (next : Nat)
  | flush (pane : P) (handler : η) (rest : List Chunk)
deriving DecidableEq, Repr

/-- The functions that `onPaneOutput` and `onOutput` return. -/
inductive Unsubscribe (P η : Type)
  | pane (pane : P) (handler : η)
  | global (handler : η)
deriving DecidableEq, Repr

structure PaneStreamConsumer (P η : Type) where
  panes : P → Pane η := fun _ => {}
  globalHandlers : List η := []
  returned : List (Unsubscribe P η) := []
  pushes : List (Push P η) := []
  frames : List (Frame P η) := []

inductive Event (P η : Type)
  | push (pane : P) (bytes : Bytes)
  | onPaneOutput (pane : P) (handler : η)
  | onOutput (handler : η)
  /-- One of the functions that were returned is called, perhaps not for the first time. -/
  | unsubscribe (index : Nat)
  /-- The handler that was called last returns. -/
  | returns
deriving DecidableEq, Repr

/-! ## The buffer -/

def bytesOf (chunks : List Chunk) : Bytes := chunks.flatMap Chunk.bytes

/-- The loop that makes room for a chunk: the buffer and its size after it. -/
def evict (capBytes incoming : Nat) : List Chunk → Nat → List Chunk × Nat
  | [], total => ([], total)
  | oldest :: buf, total =>
    if total + incoming > capBytes then evict capBytes incoming buf (total - oldest.bytes.length)
    else (oldest :: buf, total)

/-- The end of a chunk that is longer than the buffer may get. -/
def incomingBytes (capBytes : Nat) (bytes : Bytes) : Bytes :=
  if bytes.length > capBytes then bytes.drop (bytes.length - capBytes) else bytes

def Pane.buffer {η : Type} (capBytes : Nat) (pane : Pane η) (chunk : Chunk) : Pane η :=
  let incoming := incomingBytes capBytes chunk.bytes
  let (buf, total) := evict capBytes incoming.length pane.preSub pane.preSubBytes
  { pane with
    preSub := buf ++ [{ chunk with bytes := incoming }]
    preSubBytes := total + incoming.length
    unheard := pane.unheard ++ [chunk] }

namespace PaneStreamConsumer

variable {P η : Type} [DecidableEq P] (c : PaneStreamConsumer P η)

def update (pane : P) (f : Pane η → Pane η) : PaneStreamConsumer P η :=
  { c with panes := Function.update c.panes pane (f (c.panes pane)) }

def call (pane : P) (handler : η) (chunk : Chunk) : PaneStreamConsumer P η :=
  c.update pane fun p => { p with delivered := p.delivered ++ [(handler, chunk)] }

def enter (frame : Frame P η) : PaneStreamConsumer P η := { c with frames := frame :: c.frames }

/-! ## Loops -/

/-- The loop over the global handlers, from an index on. What they are called with is not
recorded. -/
def visitGlobals (pane : P) (chunk : Chunk) (index : Nat) : PaneStreamConsumer P η :=
  match c.globalHandlers[index]? with
  | some _ => c.enter (.globals pane chunk (index + 1))
  | none => c

/-- The loop over the handlers of a pane, from an index on. -/
def visit (pane : P) (chunk : Chunk) (index : Nat) : PaneStreamConsumer P η :=
  match (c.panes pane).handlers[index]? with
  | some handler => (c.call pane handler chunk).enter (.handlers pane chunk (index + 1))
  | none => c.visitGlobals pane chunk 0

/-- The loop over the buffered chunks, and what `onPaneOutput` does after it. -/
def flush (pane : P) (handler : η) : List Chunk → PaneStreamConsumer P η
  | [] =>
    { c.update pane (fun p => { p with preSub := [], preSubBytes := 0 }) with
      returned := c.returned ++ [.pane pane handler] }
  | chunk :: rest => (c.call pane handler chunk).enter (.flush pane handler rest)

/-! ## Operations -/

def push (capBytes : Nat) (pane : P) (bytes : Bytes) : PaneStreamConsumer P η :=
  let chunk : Chunk := ⟨c.pushes.length, bytes⟩
  let handlers := (c.panes pane).handlers
  let logged := { c with pushes := c.pushes ++ [({ pane, bytes, targets := handlers } : Push P η)] }
  match handlers with
  | [] => (logged.update pane fun p => p.buffer capBytes chunk).visitGlobals pane chunk 0
  | _ :: _ => logged.visit pane chunk 0

def onPaneOutput (pane : P) (handler : η) : PaneStreamConsumer P η :=
  let added := c.update pane fun p => { p with handlers := p.handlers ++ [handler] }
  match (c.panes pane).preSub with
  | [] => { added with returned := added.returned ++ [.pane pane handler] }
  | oldest :: buffered =>
    let spliced := added.update pane fun p =>
      { p with
        preSub := []
        unheard := []
        windows := p.windows ++ [{ handler, pushed := p.unheard, given := p.preSub }] }
    spliced.flush pane handler (oldest :: buffered)

def onOutput (handler : η) : PaneStreamConsumer P η :=
  { c with
    globalHandlers := c.globalHandlers ++ [handler]
    returned := c.returned ++ [.global handler] }

def unsubscribe [DecidableEq η] : Unsubscribe P η → PaneStreamConsumer P η
  | .pane pane handler => c.update pane fun p => { p with handlers := p.handlers.erase handler }
  | .global handler => { c with globalHandlers := c.globalHandlers.erase handler }

def resume : Frame P η → PaneStreamConsumer P η
  | .handlers pane chunk next => c.visit pane chunk next
  | .globals pane chunk next => c.visitGlobals pane chunk next
  | .flush pane handler rest => c.flush pane handler rest

def step [DecidableEq η] (capBytes : Nat) (c : PaneStreamConsumer P η) :
    Event P η → Option (PaneStreamConsumer P η)
  | .push pane bytes => some (c.push capBytes pane bytes)
  | .onPaneOutput pane handler => some (c.onPaneOutput pane handler)
  | .onOutput handler => some (c.onOutput handler)
  | .unsubscribe index => (c.returned[index]?).map c.unsubscribe
  | .returns =>
    match c.frames with
    | [] => none
    | frame :: frames => some ({ c with frames := frames }.resume frame)

/-! ## What the consumer promises -/

end PaneStreamConsumer

/-- The chunks in the buffer of a pane, compared with those that came without a handler: the
last bytes, up to the cap, and all of them if they fit. -/
structure Backlog (capBytes : Nat) (pushed buffered : List Chunk) : Prop where
  suffix : bytesOf buffered <:+ bytesOf pushed
  fits : (bytesOf buffered).length ≤ capBytes
  newest : buffered.getLast?.map Chunk.number = pushed.getLast?.map Chunk.number
  whole : (bytesOf pushed).length ≤ capBytes → buffered = pushed

theorem Backlog.nil (capBytes : Nat) : Backlog capBytes [] [] :=
  ⟨List.suffix_refl _, Nat.zero_le _, rfl, fun _ => rfl⟩

theorem Backlog.eq_nil {capBytes : Nat} {pushed : List Chunk} (h : Backlog capBytes pushed []) :
    pushed = [] := by
  have hnewest := h.newest
  rw [List.getLast?_nil, Option.map_none] at hnewest
  exact List.getLast?_eq_none_iff.mp (Option.map_eq_none_iff.mp hnewest.symm)

theorem bytesOf_append (chunks more : List Chunk) :
    bytesOf (chunks ++ more) = bytesOf chunks ++ bytesOf more := List.flatMap_append

theorem bytesOf_concat (chunks : List Chunk) (chunk : Chunk) :
    bytesOf (chunks ++ [chunk]) = bytesOf chunks ++ chunk.bytes := by
  rw [bytesOf_append, bytesOf, bytesOf, List.flatMap_singleton]

/-- Room is made by taking the oldest chunks out, and none if there is room. -/
theorem evict_spec (capBytes incoming : Nat) (buf : List Chunk) :
    (evict capBytes incoming buf (bytesOf buf).length).1 <:+ buf ∧
      (evict capBytes incoming buf (bytesOf buf).length).2 =
        (bytesOf (evict capBytes incoming buf (bytesOf buf).length).1).length ∧
      ((evict capBytes incoming buf (bytesOf buf).length).1 = [] ∨
        (evict capBytes incoming buf (bytesOf buf).length).2 + incoming ≤ capBytes) ∧
      ((bytesOf buf).length + incoming ≤ capBytes →
        (evict capBytes incoming buf (bytesOf buf).length).1 = buf) := by
  induction buf with
  | nil => exact ⟨List.suffix_refl _, rfl, Or.inl rfl, fun _ => rfl⟩
  | cons oldest buf ih =>
    obtain ⟨hsuffix, htotal, hroom, -⟩ := ih
    rw [evict]
    split
    · next hfull =>
      have hrest : (bytesOf (oldest :: buf)).length - oldest.bytes.length =
          (bytesOf buf).length := by
        rw [bytesOf, List.flatMap_cons, List.length_append, Nat.add_sub_cancel_left]
        rfl
      rw [hrest]
      exact ⟨hsuffix.trans (List.suffix_cons _ _), htotal, hroom,
        fun hfits => absurd hfull (Nat.not_lt.mpr hfits)⟩
    · next hroom => exact ⟨List.suffix_refl _, rfl, Or.inr (Nat.not_lt.mp hroom), fun _ => rfl⟩

theorem incomingBytes_suffix (capBytes : Nat) (bytes : Bytes) :
    incomingBytes capBytes bytes <:+ bytes := by
  unfold incomingBytes
  split
  · exact List.drop_suffix _ _
  · exact List.suffix_refl _

/-- A chunk is kept whole, or it fills the buffer. -/
theorem incomingBytes_cases (capBytes : Nat) (bytes : Bytes) :
    incomingBytes capBytes bytes = bytes ∧ bytes.length ≤ capBytes ∨
      (incomingBytes capBytes bytes).length = capBytes ∧ capBytes < bytes.length := by
  unfold incomingBytes
  split
  · next hlong =>
    refine Or.inr ⟨?_, hlong⟩
    rw [List.length_drop, Nat.sub_sub_self hlong.le]
  · next hshort => exact Or.inl ⟨rfl, Nat.not_lt.mp hshort⟩

/-- The buffer after a chunk: the oldest chunks make room for it. -/
theorem Backlog.push {capBytes : Nat} {pushed buf : List Chunk} (h : Backlog capBytes pushed buf)
    (chunk : Chunk) :
    Backlog capBytes (pushed ++ [chunk])
      ((evict capBytes (incomingBytes capBytes chunk.bytes).length buf (bytesOf buf).length).1 ++
        [{ chunk with bytes := incomingBytes capBytes chunk.bytes }]) := by
  obtain ⟨hsuffix, htotal, hroom, hwhole⟩ :=
    evict_spec capBytes (incomingBytes capBytes chunk.bytes).length buf
  generalize evict capBytes (incomingBytes capBytes chunk.bytes).length buf (bytesOf buf).length =
    kept at hsuffix htotal hroom hwhole ⊢
  have hkept : bytesOf kept.1 <:+ bytesOf pushed := by
    obtain ⟨front, hfront⟩ := hsuffix
    have hbuf := h.suffix
    rw [← hfront, bytesOf_append] at hbuf
    exact (List.suffix_append _ _).trans hbuf
  have hincoming : (incomingBytes capBytes chunk.bytes).length ≤ capBytes := by
    rcases incomingBytes_cases capBytes chunk.bytes with ⟨heq, hle⟩ | ⟨heq, -⟩
    · rwa [heq]
    · exact heq.le
  have hfits :
      (bytesOf kept.1).length + (incomingBytes capBytes chunk.bytes).length ≤ capBytes := by
    rcases hroom with hnone | hle
    · rw [hnone]
      exact (Nat.zero_add _).trans_le hincoming
    · rwa [← htotal]
  refine ⟨?_, ?_, ?_, fun hall => ?_⟩
  · rw [bytesOf_concat, bytesOf_concat]
    rcases incomingBytes_cases capBytes chunk.bytes with ⟨heq, -⟩ | ⟨heq, -⟩
    · obtain ⟨front, hfront⟩ := hkept
      exact ⟨front, by rw [← hfront, heq, List.append_assoc]⟩
    · have hnone : bytesOf kept.1 = [] := by
        rw [heq] at hfits
        exact List.length_eq_zero_iff.mp (by omega)
      rw [hnone, List.nil_append]
      exact (incomingBytes_suffix capBytes chunk.bytes).trans (List.suffix_append _ _)
  · rw [bytesOf_concat, List.length_append]
    exact hfits
  · rw [List.getLast?_concat, List.getLast?_concat]
    rfl
  · rw [bytesOf_concat, List.length_append] at hall
    have hbuf := h.whole ((Nat.le_add_right _ _).trans hall)
    rcases incomingBytes_cases capBytes chunk.bytes with ⟨heq, -⟩ | ⟨-, hlong⟩
    · rw [heq] at hwhole ⊢
      rw [hwhole (by rwa [hbuf]), hbuf]
    · exact absurd (hlong.trans_le ((Nat.le_add_left _ _).trans hall)) (Nat.lt_irrefl _)

namespace PaneStreamConsumer

variable {P η : Type} [DecidableEq P] [DecidableEq η] (capBytes : Nat) (c : PaneStreamConsumer P η)

/-- The pushes of which a handler of a pane was called with the bytes. -/
def deliveries (pane : P) (handler : η) : List Nat :=
  ((c.panes pane).delivered.filter fun call => call.1 = handler).map fun call => call.2.number

structure Delivers : Prop where
  /-- A handler gets chunks of its pane in the order of the pushes, none of them twice. -/
  ordered : ∀ pane handler, (c.deliveries pane handler).Pairwise (· < ·)
  genuine : ∀ pane, ∀ call ∈ (c.panes pane).delivered, ∃ push,
    c.pushes[call.2.number]? = some push ∧ push.pane = pane ∧ call.2.bytes <:+ push.bytes
  /-- What is pushed reaches every handler the pane had then, at the latest when `push`
  returns. -/
  complete : ∀ number push, c.pushes[number]? = some push → ∀ handler ∈ push.targets,
    (handler, ⟨number, push.bytes⟩) ∈ (c.panes push.pane).delivered ∨
      ∃ next, Frame.handlers push.pane ⟨number, push.bytes⟩ next ∈ c.frames
  /-- If it had none, the chunk is counted as waiting or was waiting for a subscriber. -/
  accounted : ∀ number push, c.pushes[number]? = some push → push.targets = [] →
    ⟨number, push.bytes⟩ ∈ (c.panes push.pane).unheard ∨
      ∃ window ∈ (c.panes push.pane).windows, ⟨number, push.bytes⟩ ∈ window.pushed
  waiting : ∀ pane, Backlog capBytes (c.panes pane).unheard (c.panes pane).preSub
  given : ∀ pane, ∀ window ∈ (c.panes pane).windows,
    Backlog capBytes window.pushed window.given
  /-- The subscriber gets what it is given, at the latest when `onPaneOutput` returns. -/
  flushed : ∀ pane, ∀ window ∈ (c.panes pane).windows, ∀ chunk ∈ window.given,
    (window.handler, chunk) ∈ (c.panes pane).delivered ∨
      ∃ rest, Frame.flush pane window.handler rest ∈ c.frames ∧ chunk ∈ rest

/-! ## The condition on steps -/

/-- The chunks that a loop which is not finished still has to deliver to a handler. -/
def owedBy (pane : P) (handler : η) : Frame P η → List Nat
  | .handlers q chunk next =>
    if q = pane then
      (((c.panes pane).handlers.drop next).filter (· = handler)).map fun _ => chunk.number
    else []
  | .globals .. => []
  | .flush q h rest => if q = pane ∧ h = handler then rest.map Chunk.number else []

def owed (pane : P) (handler : η) : List Nat := c.frames.flatMap (c.owedBy pane handler)

/-- The chunk of a delivery that a handler joins when it is added to the list of a pane: one of
this pane that has not got past the end of the list. -/
def joins (pane : P) : Frame P η → Option Nat
  | .handlers q chunk next =>
    if q = pane ∧ next ≤ (c.panes pane).handlers.length then some chunk.number else none
  | .globals .. => none
  | .flush .. => none

def joined (pane : P) : List Nat := c.frames.filterMap (c.joins pane)

def Flushing (pane : P) : Prop := ∃ handler rest, Frame.flush pane handler rest ∈ c.frames

/-- A delivery loses no handler of its push when one is taken out of the list: not the one
that moves into a place the loop has passed, and not one that is still to come. -/
def Spares (pane : P) (handler : η) : Prop :=
  ∀ chunk next, Frame.handlers pane chunk next ∈ c.frames →
    ∀ push, c.pushes[chunk.number]? = some push →
      if handler ∈ (c.panes pane).handlers.take next then
        ∀ skipped ∈ ((c.panes pane).handlers.drop next).head?, skipped ∉ push.targets
      else handler ∈ (c.panes pane).handlers.drop next → handler ∉ push.targets

def Calm : Event P η → Prop
  | .push pane _ =>
    (c.panes pane).handlers.Nodup ∧
      (∀ handler ∈ (c.panes pane).handlers, c.owed pane handler = []) ∧
      ((c.panes pane).handlers = [] → ¬c.Flushing pane)
  | .onPaneOutput pane handler =>
    c.joined pane = [] ∨
      c.owed pane handler = [] ∧ (c.deliveries pane handler ++ c.joined pane).Pairwise (· < ·)
  | .unsubscribe index => ∀ pane handler, c.returned[index]? = some (.pane pane handler) →
    c.Spares pane handler
  | _ => True

/-! ## The state between steps -/

/-- A chunk is one that was pushed for a pane, or its end. -/
def From (pane : P) (chunk : Chunk) : Prop :=
  ∃ push, c.pushes[chunk.number]? = some push ∧ push.pane = pane ∧ chunk.bytes <:+ push.bytes

end PaneStreamConsumer

def Frame.pane {P η : Type} : Frame P η → P
  | .handlers pane .. => pane
  | .globals pane .. => pane
  | .flush pane .. => pane

def Frame.chunks {P η : Type} : Frame P η → List Chunk
  | .handlers _ chunk _ => [chunk]
  | .globals .. => []
  | .flush _ _ rest => rest

namespace PaneStreamConsumer

variable {P η : Type} [DecidableEq P] [DecidableEq η] (capBytes : Nat) (c : PaneStreamConsumer P η)

/-- The pushes whose bytes a handler has got or is going to get, if it is the first to
subscribe, in this order. -/
def promised (pane : P) (handler : η) : List Nat :=
  c.deliveries pane handler ++ c.owed pane handler ++ (c.panes pane).preSub.map Chunk.number

structure Sound : Prop where
  ordered : ∀ pane handler, (c.promised pane handler).Pairwise (· < ·)
  bounded : ∀ pane handler, ∀ n ∈ c.promised pane handler, n < c.pushes.length
  delivered : ∀ pane, ∀ call ∈ (c.panes pane).delivered, c.From pane call.2
  buffered : ∀ pane, ∀ chunk ∈ (c.panes pane).preSub, c.From pane chunk
  underway : ∀ frame ∈ c.frames, ∀ chunk ∈ frame.chunks, c.From frame.pane chunk
  complete : ∀ number push, c.pushes[number]? = some push → ∀ handler ∈ push.targets,
    (handler, ⟨number, push.bytes⟩) ∈ (c.panes push.pane).delivered ∨
      ∃ next, Frame.handlers push.pane ⟨number, push.bytes⟩ next ∈ c.frames ∧
        handler ∈ (c.panes push.pane).handlers.drop next
  accounted : ∀ number push, c.pushes[number]? = some push → push.targets = [] →
    ⟨number, push.bytes⟩ ∈ (c.panes push.pane).unheard ∨
      ∃ window ∈ (c.panes push.pane).windows, ⟨number, push.bytes⟩ ∈ window.pushed
  waiting : ∀ pane, Backlog capBytes (c.panes pane).unheard (c.panes pane).preSub
  counted : ∀ pane, ¬c.Flushing pane →
    (c.panes pane).preSubBytes = (bytesOf (c.panes pane).preSub).length
  heard : ∀ pane, (c.panes pane).handlers ≠ [] ∨ c.Flushing pane →
    (c.panes pane).preSub = [] ∧ (c.panes pane).unheard = []
  given : ∀ pane, ∀ window ∈ (c.panes pane).windows,
    Backlog capBytes window.pushed window.given
  flushed : ∀ pane, ∀ window ∈ (c.panes pane).windows, ∀ chunk ∈ window.given,
    (window.handler, chunk) ∈ (c.panes pane).delivered ∨
      ∃ rest, Frame.flush pane window.handler rest ∈ c.frames ∧ chunk ∈ rest

variable {capBytes c} {pane q : P} {handler h : η} {chunk : Chunk} {frame : Frame P η}

theorem Sound.delivers (hsound : c.Sound capBytes) : c.Delivers capBytes where
  ordered pane handler := ((List.pairwise_append.mp
    (List.pairwise_append.mp (hsound.ordered pane handler)).1).1)
  genuine := hsound.delivered
  complete number push hpush handler hhandler :=
    (hsound.complete number push hpush handler hhandler).imp_right fun ⟨next, hframe, _⟩ =>
      ⟨next, hframe⟩
  accounted := hsound.accounted
  waiting := hsound.waiting
  given := hsound.given
  flushed := hsound.flushed

/-! ## Updates -/

omit [DecidableEq η] in
theorem panes_update (f : Pane η → Pane η) :
    (c.update pane f).panes q = if q = pane then f (c.panes pane) else c.panes q :=
  Function.update_apply _ _ _ _

omit [DecidableEq η] in
/-- What an update of a pane leaves alone. -/
theorem field_update {β : Type} (field : Pane η → β) {f : Pane η → Pane η}
    (hf : field (f (c.panes pane)) = field (c.panes pane)) :
    field ((c.update pane f).panes q) = field (c.panes q) := by
  rw [panes_update]
  split
  · next heq => rw [heq, hf]
  · rfl

omit [DecidableEq P] [DecidableEq η] in
@[simp] theorem panes_enter : (c.enter frame).panes = c.panes := rfl

omit [DecidableEq η] in
/-- A call of a handler changes what was delivered. -/
theorem field_call {β : Type} (field : Pane η → β)
    (hf : ∀ (p : Pane η) delivered, field { p with delivered } = field p) :
    field ((c.call pane handler chunk).panes q) = field (c.panes q) :=
  field_update field (hf _ _)

omit [DecidableEq η] in
/-- The end of `onPaneOutput` deletes what is left of the buffer. -/
theorem field_flushed {β : Type} (field : Pane η → β)
    (hf : field { c.panes pane with preSub := [], preSubBytes := 0 } = field (c.panes pane)) :
    field ((c.flush pane handler []).panes q) = field (c.panes q) := by
  have hupdate : (c.flush pane handler []).panes =
      (c.update pane fun p => { p with preSub := [], preSubBytes := 0 }).panes := rfl
  rw [hupdate]
  exact field_update field hf

theorem deliveries_call :
    (c.call pane handler chunk).deliveries q h =
      c.deliveries q h ++ if q = pane ∧ handler = h then [chunk.number] else [] := by
  rw [deliveries, call, panes_update]
  rcases eq_or_ne q pane with rfl | hne
  · rw [if_pos rfl, List.filter_append, List.map_append]
    rcases eq_or_ne handler h with rfl | hother
    · simp [deliveries]
    · simp [deliveries, hother]
  · simp [deliveries, hne]

omit [DecidableEq η] in
theorem mem_delivered_call {call : η × Chunk} :
    call ∈ ((c.call pane handler chunk).panes q).delivered ↔
      call ∈ (c.panes q).delivered ∨ q = pane ∧ call = (handler, chunk) := by
  rw [PaneStreamConsumer.call, panes_update]
  split
  · next heq => simp [heq]
  · next hne => simp [hne]

theorem owedBy_congr {c' : PaneStreamConsumer P η}
    (hhandlers : ∀ q, (c'.panes q).handlers = (c.panes q).handlers) :
    c'.owedBy q h frame = c.owedBy q h frame := by
  cases frame <;> simp only [owedBy, hhandlers]

theorem owed_congr {c' : PaneStreamConsumer P η}
    (hhandlers : ∀ q, (c'.panes q).handlers = (c.panes q).handlers)
    (hframes : c'.frames = c.frames) : c'.owed q h = c.owed q h := by
  rw [owed, owed, hframes]
  exact List.flatMap_congr fun frame _ => owedBy_congr hhandlers

@[simp] theorem owed_enter : (c.enter frame).owed q h = c.owedBy q h frame ++ c.owed q h := rfl

omit [DecidableEq P] in
@[simp] theorem deliveries_enter : (c.enter frame).deliveries q h = c.deliveries q h := rfl

omit [DecidableEq η] in
theorem handlers_call :
    ((c.call pane handler chunk).panes q).handlers = (c.panes q).handlers :=
  field_call Pane.handlers fun _ _ => rfl

omit [DecidableEq P] [DecidableEq η] in
theorem flushing_enter :
    (c.enter frame).Flushing q ↔ (∃ h rest, frame = .flush q h rest) ∨ c.Flushing q := by
  simp only [Flushing, enter, List.mem_cons]
  constructor
  · rintro ⟨h, rest, rfl | hmem⟩
    · exact Or.inl ⟨h, rest, rfl⟩
    · exact Or.inr ⟨h, rest, hmem⟩
  · rintro (⟨h, rest, rfl⟩ | ⟨h, rest, hmem⟩)
    · exact ⟨h, rest, Or.inl rfl⟩
    · exact ⟨h, rest, Or.inr hmem⟩

/-! ## Loops that go on -/

/-- From one call of a handler to the next, or to the end of a loop. -/
structure Proceeds (c c' : PaneStreamConsumer P η) : Prop where
  pushes : c'.pushes = c.pushes
  handlers : ∀ q, (c'.panes q).handlers = (c.panes q).handlers
  preSub : ∀ q, (c'.panes q).preSub = (c.panes q).preSub
  unheard : ∀ q, (c'.panes q).unheard = (c.panes q).unheard
  windows : ∀ q, (c'.panes q).windows = (c.panes q).windows
  counted : ∀ q, (c'.panes q).preSubBytes = (c.panes q).preSubBytes ∧
    (c.Flushing q → c'.Flushing q) ∨ (c'.panes q).preSubBytes = 0 ∧ (c'.panes q).preSub = []
  flushing : ∀ q, c'.Flushing q → c.Flushing q
  promised : ∀ q h, c'.promised q h = c.promised q h
  delivered : ∀ q, ∀ call ∈ (c.panes q).delivered, call ∈ (c'.panes q).delivered
  called : ∀ q, ∀ call ∈ (c'.panes q).delivered, call ∈ (c.panes q).delivered ∨
    ∃ old ∈ c.frames, old.pane = q ∧ call.2 ∈ old.chunks
  underway : ∀ frame ∈ c'.frames, ∀ chunk ∈ frame.chunks,
    ∃ old ∈ c.frames, old.pane = frame.pane ∧ chunk ∈ old.chunks
  reaches : ∀ q chunk next h, Frame.handlers q chunk next ∈ c.frames →
    h ∈ (c.panes q).handlers.drop next → (h, chunk) ∈ (c'.panes q).delivered ∨
      ∃ next', Frame.handlers q chunk next' ∈ c'.frames ∧ h ∈ (c.panes q).handlers.drop next'
  flushes : ∀ q h rest, Frame.flush q h rest ∈ c.frames → ∀ chunk ∈ rest,
    (h, chunk) ∈ (c'.panes q).delivered ∨
      ∃ rest', Frame.flush q h rest' ∈ c'.frames ∧ chunk ∈ rest'

omit [DecidableEq P] [DecidableEq η] in
theorem From.congr {c' : PaneStreamConsumer P η} (hfrom : c.From q chunk)
    (hpushes : c'.pushes = c.pushes) : c'.From q chunk := by
  rw [From, hpushes]
  exact hfrom

theorem Sound.proceeds {c' : PaneStreamConsumer P η} (hsound : c.Sound capBytes)
    (h : Proceeds c c') : c'.Sound capBytes where
  ordered q x := by rw [h.promised]; exact hsound.ordered q x
  bounded q x n hn := by
    rw [h.promised] at hn
    rw [h.pushes]
    exact hsound.bounded q x n hn
  delivered q call hcall := by
    rcases h.called q call hcall with hold | ⟨old, hold, rfl, hchunk⟩
    · exact (hsound.delivered q call hold).congr h.pushes
    · exact (hsound.underway old hold _ hchunk).congr h.pushes
  buffered q chunk hchunk := by
    rw [h.preSub] at hchunk
    exact (hsound.buffered q chunk hchunk).congr h.pushes
  underway frame hframe chunk hchunk := by
    obtain ⟨old, hold, hpane, hmem⟩ := h.underway frame hframe chunk hchunk
    rw [← hpane]
    exact (hsound.underway old hold chunk hmem).congr h.pushes
  complete number push hpush x hx := by
    rw [h.pushes] at hpush
    rw [h.handlers]
    rcases hsound.complete number push hpush x hx with hdone | ⟨next, hframe, hdrop⟩
    · exact Or.inl (h.delivered _ _ hdone)
    · exact h.reaches _ _ next x hframe hdrop
  accounted number push hpush hnone := by
    rw [h.pushes] at hpush
    rw [h.unheard, h.windows]
    exact hsound.accounted number push hpush hnone
  waiting q := by
    rw [h.unheard, h.preSub]
    exact hsound.waiting q
  counted q hquiet := by
    rcases h.counted q with ⟨hsame, hflushing⟩ | ⟨hzero, hempty⟩
    · rw [hsame, h.preSub]
      exact hsound.counted q fun hold => hquiet (hflushing hold)
    · rw [hzero, hempty]
      rfl
  heard q hheard := by
    rw [h.handlers] at hheard
    rw [h.preSub, h.unheard]
    exact hsound.heard q (hheard.imp_right (h.flushing q))
  given q window hwindow := by
    rw [h.windows] at hwindow
    exact hsound.given q window hwindow
  flushed q window hwindow chunk hchunk := by
    rw [h.windows] at hwindow
    rcases hsound.flushed q window hwindow chunk hchunk with hdone | ⟨rest, hframe, hrest⟩
    · exact Or.inl (h.delivered q _ hdone)
    · exact h.flushes q _ rest hframe chunk hrest

theorem promised_enter :
    (c.enter frame).promised q h = c.deliveries q h ++ (c.owedBy q h frame ++ c.owed q h) ++
      ((c.panes q).preSub).map Chunk.number := rfl

/-- A handler is called with the next chunk that its loop owes. -/
theorem proceeds_call {old new : Frame P η} (hpane : old.pane = pane) (hpane' : new.pane = pane)
    (hchunk : chunk ∈ old.chunks) (hchunks : new.chunks ⊆ old.chunks)
    (howed : ∀ q h, c.owedBy q h old =
      (if q = pane ∧ handler = h then [chunk.number] else []) ++ c.owedBy q h new)
    (hflush : ∀ q, (∃ h rest, old = .flush q h rest) ↔ ∃ h rest, new = .flush q h rest)
    (hreaches : ∀ q d next h, old = .handlers q d next → h ∈ (c.panes q).handlers.drop next →
      q = pane ∧ (h, d) = (handler, chunk) ∨
        ∃ next', new = .handlers q d next' ∧ h ∈ (c.panes q).handlers.drop next')
    (hflushes : ∀ q h rest, old = .flush q h rest → ∀ d ∈ rest,
      q = pane ∧ (h, d) = (handler, chunk) ∨ ∃ rest', new = .flush q h rest' ∧ d ∈ rest') :
    Proceeds (c.enter old) ((c.call pane handler chunk).enter new) where
  pushes := rfl
  handlers q := field_call Pane.handlers fun _ _ => rfl
  preSub q := field_call Pane.preSub fun _ _ => rfl
  unheard q := field_call Pane.unheard fun _ _ => rfl
  windows q := field_call Pane.windows fun _ _ => rfl
  counted q := by
    refine Or.inl ⟨field_call Pane.preSubBytes fun _ _ => rfl, fun hold => ?_⟩
    rw [flushing_enter, ← hflush]
    exact flushing_enter.mp hold
  flushing q hnew := by
    rw [flushing_enter, hflush]
    exact flushing_enter.mp hnew
  promised q h := by
    have hpreSub : ((c.call pane handler chunk).panes q).preSub = (c.panes q).preSub :=
      field_call Pane.preSub fun _ _ => rfl
    rw [promised_enter, promised_enter, deliveries_call, owedBy_congr fun _ => handlers_call,
      owed_congr (fun _ => handlers_call) rfl, howed, hpreSub]
    simp only [List.append_assoc]
  delivered q call hcall := mem_delivered_call.mpr (Or.inl hcall)
  called q call hcall := by
    refine (mem_delivered_call.mp hcall).imp_right ?_
    rintro ⟨rfl, rfl⟩
    exact ⟨old, List.mem_cons_self, hpane, hchunk⟩
  underway frame hframe d hd := by
    rcases List.mem_cons.mp hframe with rfl | hold
    · exact ⟨old, List.mem_cons_self, hpane.trans hpane'.symm, hchunks hd⟩
    · exact ⟨frame, List.mem_cons_of_mem _ hold, rfl, hd⟩
  reaches q d next h hframe hdrop := by
    rcases List.mem_cons.mp hframe with heq | hold
    · rcases hreaches q d next h heq.symm hdrop with hcall | ⟨next', rfl, hdrop'⟩
      · exact Or.inl (mem_delivered_call.mpr (Or.inr hcall))
      · exact Or.inr ⟨next', List.mem_cons_self, hdrop'⟩
    · exact Or.inr ⟨next, List.mem_cons_of_mem _ hold, hdrop⟩
  flushes q h rest hframe d hd := by
    rcases List.mem_cons.mp hframe with heq | hold
    · rcases hflushes q h rest heq.symm d hd with hcall | ⟨rest', rfl, hd'⟩
      · exact Or.inl (mem_delivered_call.mpr (Or.inr hcall))
      · exact Or.inr ⟨rest', List.mem_cons_self, hd'⟩
    · exact Or.inr ⟨rest, List.mem_cons_of_mem _ hold, hd⟩

/-- A loop over a list of handlers that owes nothing more ends. -/
theorem proceeds_end {old : Frame P η} (howed : ∀ q h, c.owedBy q h old = [])
    (hflush : ∀ q h rest, old ≠ .flush q h rest)
    (hreaches : ∀ q d next, old = .handlers q d next → (c.panes q).handlers.drop next = []) :
    Proceeds (c.enter old) c where
  pushes := rfl
  handlers _ := rfl
  preSub _ := rfl
  unheard _ := rfl
  windows _ := rfl
  counted q := by
    refine Or.inl ⟨rfl, fun hold => ?_⟩
    rcases flushing_enter.mp hold with ⟨h, rest, heq⟩ | hrest
    · exact absurd heq (hflush q h rest)
    · exact hrest
  flushing q hold := flushing_enter.mpr (Or.inr hold)
  promised q h := by
    rw [promised_enter, howed, List.nil_append]
    rfl
  delivered _ _ hcall := hcall
  called _ _ hcall := Or.inl hcall
  underway frame hframe d hd := ⟨frame, List.mem_cons_of_mem _ hframe, rfl, hd⟩
  reaches q d next h hframe hdrop := by
    rcases List.mem_cons.mp hframe with heq | hold
    · rw [panes_enter, hreaches q d next heq.symm] at hdrop
      cases hdrop
    · exact Or.inr ⟨next, hold, hdrop⟩
  flushes q h rest hframe d hd := by
    rcases List.mem_cons.mp hframe with heq | hold
    · exact absurd heq.symm (hflush q h rest)
    · exact Or.inr ⟨rest, hold, hd⟩

theorem proceeds_globals {next : Nat} : Proceeds c (c.enter (.globals pane chunk next)) where
  pushes := rfl
  handlers _ := rfl
  preSub _ := rfl
  unheard _ := rfl
  windows _ := rfl
  counted q := Or.inl ⟨rfl, fun hold => flushing_enter.mpr (Or.inr hold)⟩
  flushing q hnew := by
    rcases flushing_enter.mp hnew with ⟨h, rest, heq⟩ | hold
    · cases heq
    · exact hold
  promised q h := rfl
  delivered _ _ hcall := hcall
  called _ _ hcall := Or.inl hcall
  underway frame hframe d hd := by
    rcases List.mem_cons.mp hframe with rfl | hold
    · cases hd
    · exact ⟨frame, hold, rfl, hd⟩
  reaches q d next h hframe hdrop := Or.inr ⟨next, List.mem_cons_of_mem _ hframe, hdrop⟩
  flushes q h rest hframe d hd := Or.inr ⟨rest, List.mem_cons_of_mem _ hframe, hd⟩

theorem proceeds_flushed (hempty : (c.panes pane).preSub = []) :
    Proceeds (c.enter (.flush pane handler [])) (c.flush pane handler []) where
  pushes := rfl
  handlers q := field_flushed Pane.handlers rfl
  preSub q := field_flushed Pane.preSub hempty.symm
  unheard q := field_flushed Pane.unheard rfl
  windows q := field_flushed Pane.windows rfl
  counted q := by
    rcases eq_or_ne q pane with rfl | hne
    · have hpane : (c.flush q handler []).panes q =
          { c.panes q with preSub := [], preSubBytes := 0 } := by
        rw [flush, panes_update, if_pos rfl]
      exact Or.inr (by rw [hpane]; exact ⟨rfl, rfl⟩)
    · refine Or.inl ⟨?_, fun hold => ?_⟩
      · have hother : (c.flush pane handler []).panes q = c.panes q := by
          rw [flush, panes_update, if_neg hne]
        rw [hother, panes_enter]
      · rcases flushing_enter.mp hold with ⟨h, rest, heq⟩ | hrest
        · cases heq
          exact absurd rfl hne
        · exact hrest
  flushing q hold := flushing_enter.mpr (Or.inr hold)
  promised q h := by
    have hpreSub : ((c.flush pane handler []).panes q).preSub = (c.panes q).preSub :=
      field_flushed Pane.preSub hempty.symm
    have hdelivered : ((c.flush pane handler []).panes q).delivered = (c.panes q).delivered :=
      field_flushed Pane.delivered rfl
    have howed : (c.flush pane handler []).owed q h = c.owed q h :=
      owed_congr (fun _ => field_flushed Pane.handlers rfl) rfl
    rw [promised_enter, promised, deliveries, hpreSub, hdelivered, howed]
    rw [owedBy, List.map_nil, ite_self, List.nil_append]
    rfl
  delivered q call hcall := by
    have hdelivered : ((c.flush pane handler []).panes q).delivered = (c.panes q).delivered :=
      field_flushed Pane.delivered rfl
    rw [hdelivered]
    exact hcall
  called q call hcall := by
    have hdelivered : ((c.flush pane handler []).panes q).delivered = (c.panes q).delivered :=
      field_flushed Pane.delivered rfl
    rw [hdelivered] at hcall
    exact Or.inl hcall
  underway frame hframe d hd := ⟨frame, List.mem_cons_of_mem _ hframe, rfl, hd⟩
  reaches q d next h hframe hdrop := by
    rcases List.mem_cons.mp hframe with heq | hold
    · cases heq
    · exact Or.inr ⟨next, hold, hdrop⟩
  flushes q h rest hframe d hd := by
    rcases List.mem_cons.mp hframe with heq | hold
    · cases heq
      cases hd
    · exact Or.inr ⟨rest, hold, hd⟩

theorem Sound.visitGlobals (hsound : c.Sound capBytes) (chunk : Chunk) (next : Nat) :
    (c.visitGlobals pane chunk next).Sound capBytes := by
  unfold PaneStreamConsumer.visitGlobals
  split
  · exact hsound.proceeds proceeds_globals
  · exact hsound

theorem Sound.visit {next : Nat} (hsound : (c.enter (.handlers pane chunk next)).Sound capBytes) :
    (c.visit pane chunk next).Sound capBytes := by
  unfold PaneStreamConsumer.visit
  split
  · next x hx =>
    obtain ⟨hlt, rfl⟩ := List.getElem?_eq_some_iff.mp hx
    have hdrop := List.drop_eq_getElem_cons hlt
    refine hsound.proceeds (proceeds_call rfl rfl List.mem_cons_self (List.Subset.refl _)
      (fun q h => ?_) (fun q => ?_) (fun q d at_ h heq hmem => ?_) fun q h rest heq => by cases heq)
    · simp only [owedBy]
      rcases eq_or_ne pane q with rfl | hne
      · rw [if_pos rfl, if_pos rfl, hdrop, List.filter_cons]
        split
        · next hhandler => simp [of_decide_eq_true hhandler]
        · next hhandler => simp [of_decide_eq_false (Bool.not_eq_true _ ▸ hhandler)]
      · simp [hne, hne.symm]
    · constructor <;> rintro ⟨h, rest, heq⟩ <;> cases heq
    · cases heq
      rw [hdrop] at hmem
      rcases List.mem_cons.mp hmem with rfl | hrest
      · exact Or.inl ⟨rfl, rfl⟩
      · exact Or.inr ⟨next + 1, rfl, hrest⟩
  · next hnone =>
    have hdrop : (c.panes pane).handlers.drop next = [] :=
      List.drop_eq_nil_of_le (List.getElem?_eq_none_iff.mp hnone)
    refine Sound.visitGlobals (hsound.proceeds (proceeds_end (fun q h => ?_)
      (fun q h rest heq => by cases heq) fun q d at_ heq => ?_)) chunk 0
    · simp only [owedBy]
      split
      · next heq => rw [← heq, hdrop]; rfl
      · rfl
    · cases heq
      exact hdrop

theorem Sound.flush {rest : List Chunk}
    (hsound : (c.enter (.flush pane handler rest)).Sound capBytes) :
    (c.flush pane handler rest).Sound capBytes := by
  cases rest with
  | nil =>
    refine hsound.proceeds (proceeds_flushed ?_)
    exact (hsound.heard pane (Or.inr ⟨handler, [], List.mem_cons_self⟩)).1
  | cons oldest rest =>
    refine hsound.proceeds (proceeds_call rfl rfl List.mem_cons_self
      (fun d hd => List.mem_cons_of_mem _ hd) (fun q h => ?_) (fun q => ?_)
      (fun q d next h heq => by cases heq) fun q h chunks heq d hd => ?_)
    · simp only [owedBy, eq_comm (a := q)]
      split <;> rfl
    · constructor
      · rintro ⟨h, chunks, heq⟩
        cases heq
        exact ⟨_, _, rfl⟩
      · rintro ⟨h, chunks, heq⟩
        cases heq
        exact ⟨_, _, rfl⟩
    · cases heq
      rcases List.mem_cons.mp hd with rfl | hrest
      · exact Or.inl ⟨rfl, rfl⟩
      · exact Or.inr ⟨rest, rfl, hrest⟩

/-- A loop that goes on keeps what holds while its handler was called. -/
theorem Sound.resume (hsound : (c.enter frame).Sound capBytes) :
    (c.resume frame).Sound capBytes := by
  cases frame with
  | handlers pane chunk next => exact hsound.visit
  | flush pane handler rest => exact hsound.flush
  | globals pane chunk next =>
    refine Sound.visitGlobals (hsound.proceeds (proceeds_end (fun _ _ => rfl)
      (fun q h rest heq => by cases heq) fun q d at_ heq => by cases heq)) chunk next

/-! ## Pushes -/

/-- The state with one more push recorded. -/
def log (c : PaneStreamConsumer P η) (push : Push P η) : PaneStreamConsumer P η :=
  { c with pushes := c.pushes ++ [push] }

variable {m : Push P η} {bytes : Bytes}

omit [DecidableEq P] [DecidableEq η] in
theorem getElem?_log {number : Nat} {other : Push P η}
    (h : (c.log m).pushes[number]? = some other) :
    c.pushes[number]? = some other ∨ number = c.pushes.length ∧ other = m := by
  rcases Nat.lt_or_ge number c.pushes.length with hlt | hge
  · exact Or.inl ((List.getElem?_append_left hlt).symm.trans h)
  · have hlast := (List.getElem?_append_right hge).symm.trans h
    obtain ⟨hzero, hlast⟩ := List.getElem?_eq_some_iff.mp hlast
    rw [List.getElem_singleton] at hlast
    have hle := Nat.le_of_sub_eq_zero (Nat.lt_one_iff.mp hzero)
    exact Or.inr ⟨Nat.le_antisymm hle hge, hlast.symm⟩

omit [DecidableEq P] [DecidableEq η] in
theorem From.log (hfrom : c.From q chunk) : (c.log m).From q chunk := by
  obtain ⟨other, hother, hpane, hbytes⟩ := hfrom
  have hlt : chunk.number < c.pushes.length := (List.getElem?_eq_some_iff.mp hother).1
  exact ⟨other, (List.getElem?_append_left hlt).trans hother, hpane, hbytes⟩

omit [DecidableEq P] [DecidableEq η] in
theorem from_log (hpane : m.pane = pane) (hbytes : bytes <:+ m.bytes) :
    (c.log m).From pane ⟨c.pushes.length, bytes⟩ :=
  ⟨m, List.getElem?_concat_length, hpane, hbytes⟩

/-- The handlers of a pane are promised one more chunk each. -/
theorem promised_log_handlers (htargets : m.targets = (c.panes pane).handlers)
    (hnodup : m.targets.Nodup) (hfree : ∀ handler ∈ m.targets, c.owed pane handler = [])
    (hempty : (c.panes pane).preSub = []) (q : P) (h : η) :
    ((c.log m).enter (.handlers pane ⟨c.pushes.length, m.bytes⟩ 0)).promised q h =
      c.promised q h ++ if q = pane ∧ h ∈ m.targets then [c.pushes.length] else [] := by
  have howed : (c.log m).owedBy q h (.handlers pane ⟨c.pushes.length, m.bytes⟩ 0) =
      if q = pane ∧ h ∈ m.targets then [c.pushes.length] else [] := by
    simp only [owedBy]
    rcases eq_or_ne pane q with rfl | hne
    · have hcount : m.targets.filter (fun x => decide (x = h)) =
          if h ∈ m.targets then [h] else [] := by
        rw [List.filter_eq]
        split
        · next hmem => rw [List.count_eq_one_of_mem hnodup hmem]; rfl
        · next hmem => rw [List.count_eq_zero.mpr hmem]; rfl
      show (if pane = pane then ((((c.panes pane).handlers.drop 0).filter _).map _) else []) = _
      rw [if_pos rfl, List.drop_zero, ← htargets, hcount]
      split
      · next hmem => rw [if_pos ⟨rfl, hmem⟩]; rfl
      · next hmem => rw [if_neg fun hboth => hmem hboth.2]; rfl
    · rw [if_neg hne, if_neg fun hboth => hne hboth.1.symm]
  rw [promised_enter, howed]
  split
  · next hboth =>
    obtain ⟨rfl, hmem⟩ := hboth
    have hnone : (c.log m).owed q h = [] := hfree h hmem
    have hpreSub : ((c.log m).panes q).preSub = [] := hempty
    rw [hnone, hpreSub, promised, hfree h hmem, hempty, List.map_nil, List.append_nil,
      List.append_nil, List.append_nil, List.append_nil]
    rfl
  · rw [List.nil_append, List.append_nil]
    rfl

/-- A pane with handlers: `push` delivers to them from the first one on. -/
theorem Sound.log_handlers (hsound : c.Sound capBytes) (hpane : m.pane = pane)
    (htargets : m.targets = (c.panes pane).handlers) (hsome : m.targets ≠ [])
    (hnodup : m.targets.Nodup) (hfree : ∀ handler ∈ m.targets, c.owed pane handler = []) :
    ((c.log m).enter (.handlers pane ⟨c.pushes.length, m.bytes⟩ 0)).Sound capBytes := by
  have hheard := hsound.heard pane (Or.inl (htargets ▸ hsome))
  have hpromised := promised_log_handlers htargets hnodup hfree hheard.1
  have hlength : (c.log m).pushes.length = c.pushes.length + 1 := List.length_append
  have hflushing : ∀ q, ((c.log m).enter (.handlers pane ⟨c.pushes.length, m.bytes⟩ 0)).Flushing q →
      c.Flushing q := by
    intro q hflush
    rcases flushing_enter.mp hflush with ⟨h, rest, heq⟩ | hold
    · cases heq
    · exact hold
  constructor
  case ordered =>
    intro q h
    rw [hpromised]
    refine List.pairwise_append.mpr ⟨hsound.ordered q h, ?_, fun n hn k hk => ?_⟩
    · split
      · exact List.pairwise_singleton _ _
      · exact List.Pairwise.nil
    · split at hk
      · rw [List.mem_singleton.mp hk]
        exact hsound.bounded q h n hn
      · cases hk
  case bounded =>
    intro q h n hn
    rw [hpromised] at hn
    show n < (c.log m).pushes.length
    rw [hlength]
    rcases List.mem_append.mp hn with hold | hnew
    · exact Nat.lt_succ_of_lt (hsound.bounded q h n hold)
    · split at hnew
      · rw [List.mem_singleton.mp hnew]
        exact Nat.lt_succ_self _
      · cases hnew
  case delivered => exact fun q call hcall => (hsound.delivered q call hcall).log
  case buffered => exact fun q d hd => (hsound.buffered q d hd).log
  case underway =>
    intro frame hframe d hd
    rcases List.mem_cons.mp hframe with rfl | hold
    · rw [List.mem_singleton.mp hd]
      exact from_log hpane (List.suffix_refl _)
    · exact (hsound.underway frame hold d hd).log
  case complete =>
    intro number push hpush h hh
    rcases getElem?_log hpush with hold | ⟨rfl, rfl⟩
    · rcases hsound.complete number push hold h hh with hdone | ⟨next, hframe, hdrop⟩
      · exact Or.inl hdone
      · exact Or.inr ⟨next, List.mem_cons_of_mem _ hframe, hdrop⟩
    · -- the new push: its loop has every target still ahead of it
      refine Or.inr ⟨0, ?_, ?_⟩
      · rw [hpane]
        exact List.mem_cons_self
      · rw [hpane]
        exact htargets ▸ hh
  case accounted =>
    intro number push hpush hnone
    rcases getElem?_log hpush with hold | ⟨-, rfl⟩
    · exact hsound.accounted number push hold hnone
    · exact absurd hnone hsome
  case waiting => exact hsound.waiting
  case counted =>
    intro q hquiet
    exact hsound.counted q fun hold => hquiet (flushing_enter.mpr (Or.inr hold))
  case heard => exact fun q hheard => hsound.heard q (hheard.imp_right (hflushing q))
  case given => exact hsound.given
  case flushed =>
    intro q window hwindow d hd
    rcases hsound.flushed q window hwindow d hd with hdone | ⟨rest, hframe, hrest⟩
    · exact Or.inl hdone
    · exact Or.inr ⟨rest, List.mem_cons_of_mem _ hframe, hrest⟩

/-- A pane without: the chunk joins the buffer. -/
theorem Sound.log_buffer (hsound : c.Sound capBytes) (hpane : m.pane = pane)
    (htargets : m.targets = []) (hnone : (c.panes pane).handlers = [])
    (hquiet : ¬c.Flushing pane) :
    ((c.log m).update pane fun p => p.buffer capBytes ⟨c.pushes.length, m.bytes⟩).Sound
      capBytes := by
  have hcount := hsound.counted pane hquiet
  have hbacklog := (hsound.waiting pane).push ⟨c.pushes.length, m.bytes⟩
  obtain ⟨hsuffix, htotal, -, -⟩ := evict_spec capBytes (incomingBytes capBytes m.bytes).length
    (c.panes pane).preSub
  rw [← hcount] at hbacklog hsuffix htotal
  generalize hc' : ((c.log m).update pane fun p => p.buffer capBytes ⟨c.pushes.length, m.bytes⟩) =
    c'
  have hself : c'.panes pane = (c.panes pane).buffer capBytes ⟨c.pushes.length, m.bytes⟩ := by
    rw [← hc', panes_update, if_pos rfl]
    rfl
  have hother : ∀ q, q ≠ pane → c'.panes q = c.panes q := by
    intro q hne
    rw [← hc', panes_update, if_neg hne]
    rfl
  have hhandlers : ∀ q, (c'.panes q).handlers = (c.panes q).handlers := by
    intro q
    rw [← hc']
    exact field_update (c := c.log m) Pane.handlers rfl
  have hdelivered : ∀ q, (c'.panes q).delivered = (c.panes q).delivered := by
    intro q
    rw [← hc']
    exact field_update (c := c.log m) Pane.delivered rfl
  have hwindows : ∀ q, (c'.panes q).windows = (c.panes q).windows := by
    intro q
    rw [← hc']
    exact field_update (c := c.log m) Pane.windows rfl
  have hframes : c'.frames = c.frames := by rw [← hc']; rfl
  have hpushes : c'.pushes = (c.log m).pushes := by rw [← hc']; rfl
  have hlength : c'.pushes.length = c.pushes.length + 1 := by
    rw [hpushes]
    exact List.length_append
  have hflushing : ∀ q, c'.Flushing q ↔ c.Flushing q := fun q => by rw [Flushing, Flushing, hframes]
  -- eviction takes numbers out of the middle, the new chunk puts the latest at the end
  have hpromised : ∀ q h, (c'.promised q h).Sublist
      (c.promised q h ++ if q = pane then [c.pushes.length] else []) := by
    intro q h
    have howed : c'.owed q h = c.owed q h := owed_congr hhandlers hframes
    rw [promised, deliveries, hdelivered, howed, promised, deliveries]
    split
    · next heq =>
      rw [heq, hself, List.append_assoc _ _ [c.pushes.length]]
      refine (List.append_sublist_append_left _).mpr ?_
      rw [Pane.buffer, List.map_append]
      exact (hsuffix.sublist.map _).append (List.Sublist.refl _)
    · next hne => rw [hother q hne, List.append_nil]
  constructor
  case ordered =>
    intro q h
    refine List.Pairwise.sublist (hpromised q h) (List.pairwise_append.mpr
      ⟨hsound.ordered q h, ?_, fun n hn k hk => ?_⟩)
    · split
      · exact List.pairwise_singleton _ _
      · exact List.Pairwise.nil
    · split at hk
      · rw [List.mem_singleton.mp hk]
        exact hsound.bounded q h n hn
      · cases hk
  case bounded =>
    intro q h n hn
    rw [hlength]
    rcases List.mem_append.mp ((hpromised q h).subset hn) with hold | hnew
    · exact Nat.lt_succ_of_lt (hsound.bounded q h n hold)
    · split at hnew
      · rw [List.mem_singleton.mp hnew]
        exact Nat.lt_succ_self _
      · cases hnew
  case delivered =>
    intro q call hcall
    rw [hdelivered] at hcall
    exact (hsound.delivered q call hcall).log.congr hpushes
  case buffered =>
    intro q d hd
    rcases eq_or_ne q pane with rfl | hne
    · rw [hself, Pane.buffer] at hd
      rcases List.mem_append.mp hd with hold | hnew
      · exact (hsound.buffered q d (hsuffix.subset hold)).log.congr hpushes
      · rw [List.mem_singleton.mp hnew]
        exact (from_log hpane (incomingBytes_suffix capBytes m.bytes)).congr hpushes
    · rw [hother q hne] at hd
      exact (hsound.buffered q d hd).log.congr hpushes
  case underway =>
    intro frame hframe d hd
    rw [hframes] at hframe
    exact (hsound.underway frame hframe d hd).log.congr hpushes
  case complete =>
    intro number push hpush h hh
    rw [hpushes] at hpush
    rw [hdelivered, hhandlers, hframes]
    rcases getElem?_log hpush with hold | ⟨-, rfl⟩
    · exact hsound.complete number push hold h hh
    · rw [htargets] at hh
      cases hh
  case accounted =>
    intro number push hpush hempty
    rw [hpushes] at hpush
    rw [hwindows]
    rcases getElem?_log hpush with hold | ⟨rfl, rfl⟩
    · refine (hsound.accounted number push hold hempty).imp_left fun hunheard => ?_
      rcases eq_or_ne push.pane pane with heq | hne
      · rw [heq] at hunheard ⊢
        rw [hself]
        exact List.mem_append_left _ hunheard
      · rwa [hother _ hne]
    · rw [hpane, hself]
      exact Or.inl (List.mem_append_right _ (List.mem_singleton.mpr rfl))
  case waiting =>
    intro q
    rcases eq_or_ne q pane with rfl | hne
    · rw [hself]
      exact hbacklog
    · rw [hother q hne]
      exact hsound.waiting q
  case counted =>
    intro q hquiet'
    rw [hflushing] at hquiet'
    rcases eq_or_ne q pane with rfl | hne
    · rw [hself, Pane.buffer, bytesOf_concat, List.length_append]
      exact congrArg (· + _) htotal
    · rw [hother q hne]
      exact hsound.counted q hquiet'
  case heard =>
    intro q hheard
    rw [hflushing, hhandlers] at hheard
    rcases eq_or_ne q pane with rfl | hne
    · rcases hheard with hsome | hflush
      · exact absurd hnone hsome
      · exact absurd hflush hquiet
    · rw [hother q hne]
      exact hsound.heard q hheard
  case given =>
    intro q window hwindow
    rw [hwindows] at hwindow
    exact hsound.given q window hwindow
  case flushed =>
    intro q window hwindow d hd
    rw [hwindows] at hwindow
    rw [hdelivered, hframes]
    exact hsound.flushed q window hwindow d hd

theorem Sound.push (hsound : c.Sound capBytes) (hcalm : c.Calm (.push pane bytes)) :
    (c.push capBytes pane bytes).Sound capBytes := by
  obtain ⟨hnodup, hfree, hquiet⟩ := hcalm
  unfold PaneStreamConsumer.push
  dsimp only
  split
  · next hnone =>
    exact (hsound.log_buffer (m := ⟨pane, bytes, (c.panes pane).handlers⟩) rfl hnone hnone
      (hquiet hnone)).visitGlobals _ _
  · next first rest hsome =>
    refine (hsound.log_handlers (m := ⟨pane, bytes, (c.panes pane).handlers⟩) rfl rfl ?_ hnodup
      hfree).visit
    rw [hsome]
    exact List.cons_ne_nil _ _

/-! ## Subscriptions -/

/-- What was returned and the global handlers play no part. -/
theorem Sound.outside (hsound : c.Sound capBytes) (globalHandlers : List η)
    (returned : List (Unsubscribe P η)) :
    ({ c with globalHandlers, returned } : PaneStreamConsumer P η).Sound capBytes :=
  ⟨hsound.ordered, hsound.bounded, hsound.delivered, hsound.buffered, hsound.underway,
    hsound.complete, hsound.accounted, hsound.waiting, hsound.counted, hsound.heard, hsound.given,
    hsound.flushed⟩

/-- A handler that is added to the list of a pane. -/
def add (c : PaneStreamConsumer P η) (pane : P) (handler : η) : PaneStreamConsumer P η :=
  c.update pane fun p => { p with handlers := p.handlers ++ [handler] }

omit [DecidableEq η] in
theorem handlers_add_self :
    ((c.add pane handler).panes pane).handlers = (c.panes pane).handlers ++ [handler] := by
  rw [add, panes_update, if_pos rfl]

omit [DecidableEq η] in
theorem handlers_add_of_ne (hne : q ≠ pane) :
    ((c.add pane handler).panes q).handlers = (c.panes q).handlers := by
  rw [add, panes_update, if_neg hne]

omit [DecidableEq η] in
theorem subset_handlers_add (next : Nat) :
    (c.panes q).handlers.drop next ⊆ ((c.add pane handler).panes q).handlers.drop next := by
  rcases eq_or_ne q pane with rfl | hne
  · rw [handlers_add_self, List.drop_append]
    exact List.subset_append_left _ _
  · rw [handlers_add_of_ne hne]
    exact List.Subset.refl _

theorem owedBy_add :
    (c.add pane handler).owedBy q h frame =
      c.owedBy q h frame ++ if q = pane ∧ h = handler then (c.joins pane frame).toList else [] := by
  have hnil : (if q = pane ∧ h = handler then (none : Option Nat).toList else []) = [] := by
    split <;> rfl
  cases frame with
  | flush r x rest =>
    rw [joins, hnil, List.append_nil]
    rfl
  | globals r d next =>
    rw [joins, hnil]
    rfl
  | handlers r d next =>
    simp only [owedBy, joins]
    rcases eq_or_ne r q with rfl | hother
    · rcases eq_or_ne r pane with rfl | hne
      · rw [if_pos rfl, if_pos rfl, handlers_add_self, List.drop_append, List.filter_append,
          List.map_append]
        refine congrArg _ ?_
        rcases Nat.lt_or_ge (c.panes r).handlers.length next with hpast | hwithin
        · obtain ⟨k, hk⟩ : ∃ k, next - (c.panes r).handlers.length = k + 1 :=
            Nat.exists_eq_add_one_of_ne_zero (Nat.sub_ne_zero_of_lt hpast)
          have hjoins : ¬(r = r ∧ next ≤ (c.panes r).handlers.length) := fun hboth =>
            absurd hboth.2 (Nat.not_le.mpr hpast)
          rw [hk, List.drop_succ_cons, List.drop_nil, if_neg hjoins, hnil]
          rfl
        · have hjoins : r = r ∧ next ≤ (c.panes r).handlers.length := ⟨rfl, hwithin⟩
          rw [Nat.sub_eq_zero_of_le hwithin, List.drop_zero, if_pos hjoins]
          rcases eq_or_ne handler h with rfl | hnot
          · simp
          · simp [hnot, hnot.symm]
      · rw [if_pos rfl, if_pos rfl, handlers_add_of_ne hne, if_neg fun hboth => hne hboth.1,
          List.append_nil]
    · rw [if_neg hother, if_neg hother, List.nil_append]
      split
      · next hboth => rw [if_neg fun hjoins => hother (hjoins.1.trans hboth.1.symm)]; rfl
      · rfl

omit [DecidableEq η] in
theorem frames_add : (c.add pane handler).frames = c.frames := rfl

theorem owed_add_of_not (hnot : ¬(q = pane ∧ h = handler)) :
    (c.add pane handler).owed q h = c.owed q h := by
  rw [owed, owed, frames_add]
  refine List.flatMap_congr fun frame _ => ?_
  rw [owedBy_add, if_neg hnot, List.append_nil]

theorem owed_add_of_none (hnone : c.joined pane = []) :
    (c.add pane handler).owed pane handler = c.owed pane handler := by
  rw [owed, owed, frames_add]
  refine List.flatMap_congr fun frame hframe => ?_
  rw [joined, List.filterMap_eq_nil_iff] at hnone
  rw [owedBy_add, hnone frame hframe, Option.toList_none, ite_self, List.append_nil]

theorem owed_add_of_free (hfree : c.owed pane handler = []) :
    (c.add pane handler).owed pane handler = c.joined pane := by
  rw [owed, frames_add, joined, List.filterMap_eq_flatMap_toList]
  rw [owed, List.flatMap_eq_nil_iff] at hfree
  refine List.flatMap_congr fun frame hframe => ?_
  rw [owedBy_add, hfree frame hframe, List.nil_append, if_pos ⟨rfl, rfl⟩]

omit [DecidableEq η] in
/-- A field of the panes that the new handler leaves alone. -/
theorem field_add {β : Type} (field : Pane η → β)
    (hf : ∀ (p : Pane η) handlers, field { p with handlers } = field p) (q : P) :
    field ((c.add pane handler).panes q) = field (c.panes q) :=
  field_update field (hf _ _)

theorem promised_add (hsound : c.Sound capBytes) (hempty : (c.panes pane).preSub = [])
    (hcalm : c.Calm (.onPaneOutput pane handler)) (q : P) (h : η) :
    ((c.add pane handler).promised q h).Pairwise (· < ·) ∧
      ∀ n ∈ (c.add pane handler).promised q h, n < c.pushes.length := by
  have hpreSub : ((c.add pane handler).panes q).preSub = (c.panes q).preSub :=
    field_add Pane.preSub (fun _ _ => rfl) q
  have hdeliveries : (c.add pane handler).deliveries q h = c.deliveries q h := by
    rw [deliveries, field_add Pane.delivered fun _ _ => rfl]
    rfl
  rw [promised, hpreSub, hdeliveries]
  by_cases hself : q = pane ∧ h = handler
  · obtain ⟨rfl, rfl⟩ := hself
    rcases hcalm with hnone | ⟨hfree, hincreasing⟩
    · rw [owed_add_of_none hnone]
      exact ⟨hsound.ordered q h, hsound.bounded q h⟩
    · rw [owed_add_of_free hfree, hempty, List.map_nil, List.append_nil]
      refine ⟨hincreasing, fun n hn => ?_⟩
      rcases List.mem_append.mp hn with hdone | hjoined
      · exact hsound.bounded q h n (List.mem_append_left _ (List.mem_append_left _ hdone))
      · obtain ⟨frame, hframe, hjoins⟩ := List.mem_filterMap.mp hjoined
        cases frame with
        | globals => cases hjoins
        | flush => cases hjoins
        | handlers r chunk next =>
          obtain ⟨-, hnumber⟩ := Option.ite_none_right_eq_some.mp hjoins
          rw [← Option.some.inj hnumber]
          obtain ⟨push, hpush, -⟩ := hsound.underway _ hframe chunk List.mem_cons_self
          exact (List.getElem?_eq_some_iff.mp hpush).1
  · rw [owed_add_of_not hself]
    exact ⟨hsound.ordered q h, hsound.bounded q h⟩

/-- A subscription to a pane without a buffer. -/
theorem Sound.add (hsound : c.Sound capBytes) (hempty : (c.panes pane).preSub = [])
    (hcalm : c.Calm (.onPaneOutput pane handler)) : (c.add pane handler).Sound capBytes := by
  have hpreSub : ∀ q, ((c.add pane handler).panes q).preSub = (c.panes q).preSub :=
    field_add Pane.preSub fun _ _ => rfl
  have hunheard : ∀ q, ((c.add pane handler).panes q).unheard = (c.panes q).unheard :=
    field_add Pane.unheard fun _ _ => rfl
  have hwindows : ∀ q, ((c.add pane handler).panes q).windows = (c.panes q).windows :=
    field_add Pane.windows fun _ _ => rfl
  have hdelivered : ∀ q, ((c.add pane handler).panes q).delivered = (c.panes q).delivered :=
    field_add Pane.delivered fun _ _ => rfl
  constructor
  case ordered => exact fun q h => (promised_add hsound hempty hcalm q h).1
  case bounded => exact fun q h => (promised_add hsound hempty hcalm q h).2
  case delivered =>
    intro q call hcall
    rw [hdelivered] at hcall
    exact hsound.delivered q call hcall
  case buffered =>
    intro q d hd
    rw [hpreSub] at hd
    exact hsound.buffered q d hd
  case underway => exact hsound.underway
  case complete =>
    intro number push hpush h hh
    rw [hdelivered]
    refine (hsound.complete number push hpush h hh).imp_right ?_
    exact fun ⟨next, hframe, hdrop⟩ => ⟨next, hframe, subset_handlers_add next hdrop⟩
  case accounted =>
    intro number push hpush hnone
    rw [hunheard, hwindows]
    exact hsound.accounted number push hpush hnone
  case waiting =>
    intro q
    rw [hunheard, hpreSub]
    exact hsound.waiting q
  case counted =>
    intro q hquiet
    rw [hpreSub, field_add Pane.preSubBytes fun _ _ => rfl]
    exact hsound.counted q hquiet
  case heard =>
    intro q hheard
    rw [hpreSub, hunheard]
    rcases eq_or_ne q pane with rfl | hne
    · have hwaiting := hsound.waiting q
      rw [hempty] at hwaiting ⊢
      exact ⟨rfl, hwaiting.eq_nil⟩
    · rw [handlers_add_of_ne hne] at hheard
      exact hsound.heard q hheard
  case given =>
    intro q window hwindow
    rw [hwindows] at hwindow
    exact hsound.given q window hwindow
  case flushed =>
    intro q window hwindow d hd
    rw [hwindows] at hwindow
    rw [hdelivered]
    exact hsound.flushed q window hwindow d hd

/-- The buffer of a pane goes over to a subscriber. -/
def splice (c : PaneStreamConsumer P η) (pane : P) (handler : η) : PaneStreamConsumer P η :=
  c.update pane fun p =>
    { p with
      preSub := []
      unheard := []
      windows := p.windows ++ [{ handler, pushed := p.unheard, given := p.preSub }] }

/-- Every delivery in progress has called a handler. -/
def Entered (c : PaneStreamConsumer P η) : Prop :=
  ∀ pane chunk next, Frame.handlers pane chunk next ∈ c.frames → 0 < next

/-- A subscription to a pane with a buffer, which has no handler: its first subscriber is to
get what there is. -/
theorem Sound.splice (hsound : c.Sound capBytes) (hentered : c.Entered)
    (hsome : (c.panes pane).preSub ≠ []) :
    (((c.add pane handler).splice pane handler).enter
      (.flush pane handler (c.panes pane).preSub)).Sound capBytes := by
  have hnone : (c.panes pane).handlers = [] := by
    by_contra hhandlers
    exact hsome (hsound.heard pane (Or.inl hhandlers)).1
  have hquiet : ¬c.Flushing pane := fun hflush => hsome (hsound.heard pane (Or.inr hflush)).1
  generalize hc' : (c.add pane handler).splice pane handler = c'
  have hself : c'.panes pane = { c.panes pane with
      handlers := [handler]
      preSub := []
      unheard := []
      windows := (c.panes pane).windows ++
        [⟨handler, (c.panes pane).unheard, (c.panes pane).preSub⟩] } := by
    rw [← hc', PaneStreamConsumer.splice, panes_update, if_pos rfl, PaneStreamConsumer.add,
      panes_update, if_pos rfl, hnone]
    rfl
  have hother : ∀ q, q ≠ pane → c'.panes q = c.panes q := by
    intro q hne
    rw [← hc', PaneStreamConsumer.splice, panes_update, if_neg hne, PaneStreamConsumer.add,
      panes_update, if_neg hne]
  have hframes : c'.frames = c.frames := by rw [← hc']; rfl
  have hpushes : c'.pushes = c.pushes := by rw [← hc']; rfl
  have hdelivered : ∀ q, (c'.panes q).delivered = (c.panes q).delivered := by
    intro q
    rcases eq_or_ne q pane with rfl | hne
    · rw [hself]
    · rw [hother q hne]
  have howed : ∀ q h, c'.owed q h = c.owed q h := by
    intro q h
    rw [owed, owed, hframes]
    refine List.flatMap_congr fun frame hframe => ?_
    cases frame with
    | globals => rfl
    | flush => rfl
    | handlers r chunk next =>
      simp only [owedBy]
      split
      · next heq =>
        rcases eq_or_ne q pane with rfl | hne
        · obtain ⟨k, rfl⟩ := Nat.exists_eq_add_one_of_ne_zero (hentered r chunk next hframe).ne'
          rw [hself, hnone, List.drop_succ_cons, List.drop_nil, List.drop_nil]
        · rw [hother q hne]
      · rfl
  have hflushing : ∀ q, q ≠ pane →
      (c'.enter (.flush pane handler (c.panes pane).preSub)).Flushing q → c.Flushing q := by
    intro q hne hflush
    rcases flushing_enter.mp hflush with ⟨h, rest, heq⟩ | hold
    · cases heq
      exact absurd rfl hne
    · rwa [Flushing, hframes] at hold
  -- without handlers nothing is owed to anybody, so the buffer follows what was delivered
  have hfree : c.owed pane handler = [] := by
    rw [owed, List.flatMap_eq_nil_iff]
    intro frame hframe
    cases frame with
    | globals => rfl
    | flush r h rest =>
      rw [owedBy, if_neg]
      rintro ⟨rfl, -⟩
      exact hquiet ⟨h, rest, hframe⟩
    | handlers r chunk next =>
      rw [owedBy, hnone, List.drop_nil, List.filter_nil, List.map_nil, ite_self]
  have hpromised : ∀ q h,
      ((c'.enter (.flush pane handler (c.panes pane).preSub)).promised q h).Sublist
        (c.promised q h) := by
    intro q h
    rw [promised_enter, deliveries, hdelivered, howed, owedBy]
    rcases eq_or_ne q pane with rfl | hne
    · rw [hself, List.map_nil, List.append_nil]
      rcases eq_or_ne handler h with rfl | hnot
      · rw [if_pos ⟨rfl, rfl⟩, promised, hfree, List.append_nil, List.append_nil]
        exact List.Sublist.refl _
      · rw [if_neg fun hboth => hnot hboth.2, List.nil_append]
        exact List.sublist_append_left _ _
    · rw [if_neg fun hboth => hne hboth.1.symm, List.nil_append, hother q hne]
      exact List.Sublist.refl _
  constructor
  case ordered => exact fun q h => (hsound.ordered q h).sublist (hpromised q h)
  case bounded =>
    intro q h n hn
    show n < c'.pushes.length
    rw [hpushes]
    exact hsound.bounded q h n ((hpromised q h).subset hn)
  case delivered =>
    intro q call hcall
    rw [panes_enter, hdelivered] at hcall
    exact (hsound.delivered q call hcall).congr hpushes
  case buffered =>
    intro q d hd
    rcases eq_or_ne q pane with rfl | hne
    · rw [panes_enter, hself] at hd
      cases hd
    · rw [panes_enter, hother q hne] at hd
      exact (hsound.buffered q d hd).congr hpushes
  case underway =>
    intro frame hframe d hd
    rcases List.mem_cons.mp hframe with rfl | hold
    · exact (hsound.buffered pane d hd).congr hpushes
    · rw [hframes] at hold
      exact (hsound.underway frame hold d hd).congr hpushes
  case complete =>
    intro number push hpush h hh
    have hold : c.pushes[number]? = some push := hpushes ▸ hpush
    rw [panes_enter, hdelivered]
    refine (hsound.complete number push hold h hh).imp_right ?_
    rintro ⟨next, hframe, hdrop⟩
    refine ⟨next, List.mem_cons_of_mem _ (hframes ▸ hframe), ?_⟩
    rcases eq_or_ne push.pane pane with heq | hne
    · rw [heq, hnone, List.drop_nil] at hdrop
      cases hdrop
    · rwa [hother _ hne]
  case accounted =>
    intro number push hpush hempty
    have hold : c.pushes[number]? = some push := hpushes ▸ hpush
    rw [panes_enter]
    rcases eq_or_ne push.pane pane with heq | hne
    · rcases hsound.accounted number push hold hempty with hunheard | ⟨window, hwindow, hmem⟩
      · rw [heq] at hunheard ⊢
        rw [hself]
        exact Or.inr ⟨_, List.mem_append_right _ (List.mem_singleton.mpr rfl), hunheard⟩
      · rw [heq] at hwindow ⊢
        rw [hself]
        exact Or.inr ⟨window, List.mem_append_left _ hwindow, hmem⟩
    · rw [hother _ hne]
      exact hsound.accounted number push hold hempty
  case waiting =>
    intro q
    rw [panes_enter]
    rcases eq_or_ne q pane with rfl | hne
    · rw [hself]
      exact .nil capBytes
    · rw [hother q hne]
      exact hsound.waiting q
  case counted =>
    intro q hquiet'
    rw [panes_enter]
    rcases eq_or_ne q pane with rfl | hne
    · exact absurd ⟨handler, _, List.mem_cons_self⟩ hquiet'
    · rw [hother q hne]
      refine hsound.counted q fun hold => hquiet' (flushing_enter.mpr (Or.inr ?_))
      rwa [Flushing, hframes]
  case heard =>
    intro q hheard
    rw [panes_enter] at hheard ⊢
    rcases eq_or_ne q pane with rfl | hne
    · rw [hself]
      exact ⟨rfl, rfl⟩
    · rw [hother q hne] at hheard ⊢
      exact hsound.heard q (hheard.imp_right (hflushing q hne))
  case given =>
    intro q window hwindow
    rw [panes_enter] at hwindow
    rcases eq_or_ne q pane with rfl | hne
    · rw [hself] at hwindow
      rcases List.mem_append.mp hwindow with hold | hnew
      · exact hsound.given q window hold
      · rw [List.mem_singleton.mp hnew]
        exact hsound.waiting q
    · rw [hother q hne] at hwindow
      exact hsound.given q window hwindow
  case flushed =>
    intro q window hwindow d hd
    rw [panes_enter] at hwindow ⊢
    rw [hdelivered]
    have hkept : window ∈ (c.panes q).windows → (window.handler, d) ∈ (c.panes q).delivered ∨
        ∃ rest, Frame.flush q window.handler rest ∈
          (c'.enter (.flush pane handler (c.panes pane).preSub)).frames ∧ d ∈ rest := by
      intro hold
      refine (hsound.flushed q window hold d hd).imp_right ?_
      exact fun ⟨rest, hframe, hrest⟩ => ⟨rest, List.mem_cons_of_mem _ (hframes ▸ hframe), hrest⟩
    rcases eq_or_ne q pane with rfl | hne
    · rw [hself] at hwindow
      rcases List.mem_append.mp hwindow with hold | hnew
      · exact hkept hold
      · cases List.mem_singleton.mp hnew
        exact Or.inr ⟨_, List.mem_cons_self, hd⟩
    · rw [hother q hne] at hwindow
      exact hkept hwindow

theorem Sound.onPaneOutput (hsound : c.Sound capBytes) (hentered : c.Entered)
    (hcalm : c.Calm (.onPaneOutput pane handler)) :
    (c.onPaneOutput pane handler).Sound capBytes := by
  unfold PaneStreamConsumer.onPaneOutput
  dsimp only
  split
  · next hempty => exact (hsound.add hempty hcalm).outside _ _
  · next oldest buffered hbuffered =>
    have hspliced : (((c.add pane handler).splice pane handler).enter
        (.flush pane handler (c.panes pane).preSub)).Sound capBytes :=
      hsound.splice hentered (by rw [hbuffered]; exact List.cons_ne_nil _ _)
    rw [hbuffered] at hspliced
    exact hspliced.flush

/-! ## Taking a handler out of the list -/

theorem drop_erase_sublist (handlers : List η) (handler : η) (next : Nat) :
    ((handlers.erase handler).drop next).Sublist (handlers.drop next) := by
  have htake : (handlers.take next).length ≤ next := List.length_take_le _ _
  have hsplit : handlers.erase handler =
      (handlers.take next ++ handlers.drop next).erase handler := by
    rw [List.take_append_drop]
  rw [hsplit, List.erase_append]
  split
  · have hshort : ((handlers.take next).erase handler).length ≤ next :=
      (List.erase_sublist.length_le).trans htake
    rw [List.drop_append, List.drop_eq_nil_of_le hshort, List.nil_append]
    exact List.drop_sublist _ _
  · rw [List.drop_append, List.drop_eq_nil_of_le htake, List.nil_append]
    exact (List.drop_sublist _ _).trans List.erase_sublist

/-- A handler that is still to come stays, unless it is taken out or moves into a place that
the loop has passed. -/
theorem mem_drop_erase {handlers : List η} {next : Nat} {x : η} (hx : x ∈ handlers.drop next)
    (hpassed : handler ∈ handlers.take next → ∀ skipped ∈ (handlers.drop next).head?, skipped ≠ x)
    (hcoming : handler ∉ handlers.take next → handler ∈ handlers.drop next → handler ≠ x) :
    x ∈ (handlers.erase handler).drop next := by
  have hnext : next ≤ handlers.length := by
    by_contra hlong
    rw [List.drop_eq_nil_of_le (Nat.not_le.mp hlong).le] at hx
    cases hx
  have hlength : (handlers.take next).length = next := List.length_take_of_le hnext
  have hsplit : handlers.erase handler =
      (handlers.take next ++ handlers.drop next).erase handler := by
    rw [List.take_append_drop]
  rw [hsplit, List.erase_append]
  split
  · next hmem =>
    obtain ⟨first, rest, hdrop⟩ := List.exists_cons_of_ne_nil (List.ne_nil_of_mem hx)
    rw [hdrop] at hx hpassed ⊢
    have hrest : x ∈ rest := by
      rcases List.mem_cons.mp hx with rfl | hrest
      · exact absurd rfl (hpassed hmem x rfl)
      · exact hrest
    have hpos : 0 < next := hlength ▸ List.length_pos_of_mem hmem
    have hshort : ((handlers.take next).erase handler).length = next - 1 := by
      rw [List.length_erase_of_mem hmem, hlength]
    rw [List.drop_append, hshort, Nat.sub_sub_self hpos]
    exact List.mem_append_right _ hrest
  · next hnot =>
    rw [List.drop_append, hlength, Nat.sub_self, List.drop_zero]
    refine List.mem_append_right _ ?_
    by_cases hmem : handler ∈ handlers.drop next
    · exact (List.mem_erase_of_ne (hcoming hnot hmem).symm).mpr hx
    · rwa [List.erase_of_not_mem hmem]

theorem Sound.remove (hsound : c.Sound capBytes) (hspares : c.Spares pane handler) :
    (c.update pane fun p => { p with handlers := p.handlers.erase handler }).Sound capBytes := by
  generalize hc' : (c.update pane fun p => { p with handlers := p.handlers.erase handler }) = c'
  have hfield : ∀ {β : Type} (field : Pane η → β),
      (∀ (p : Pane η) handlers, field { p with handlers } = field p) →
        ∀ q, field (c'.panes q) = field (c.panes q) := by
    intro β field hf q
    rw [← hc']
    exact field_update field (hf _ _)
  have hpreSub := hfield Pane.preSub fun _ _ => rfl
  have hunheard := hfield Pane.unheard fun _ _ => rfl
  have hwindows := hfield Pane.windows fun _ _ => rfl
  have hdelivered := hfield Pane.delivered fun _ _ => rfl
  have hself : (c'.panes pane).handlers = (c.panes pane).handlers.erase handler := by
    rw [← hc', panes_update, if_pos rfl]
  have hother : ∀ q, q ≠ pane → (c'.panes q).handlers = (c.panes q).handlers := by
    intro q hne
    rw [← hc', panes_update, if_neg hne]
  have hframes : c'.frames = c.frames := by rw [← hc']; rfl
  have hpushes : c'.pushes = c.pushes := by rw [← hc']; rfl
  have hflushing : ∀ q, c'.Flushing q ↔ c.Flushing q := fun q => by rw [Flushing, Flushing, hframes]
  -- every loop has the same handlers ahead of it, less the one that goes
  have hdrop : ∀ q next, ((c'.panes q).handlers.drop next).Sublist
      ((c.panes q).handlers.drop next) := by
    intro q next
    rcases eq_or_ne q pane with rfl | hne
    · rw [hself]
      exact drop_erase_sublist _ _ _
    · rw [hother q hne]
  have hpromised : ∀ q h, (c'.promised q h).Sublist (c.promised q h) := by
    intro q h
    have howedBy : ∀ frame, (c'.owedBy q h frame).Sublist (c.owedBy q h frame) := by
      intro frame
      cases frame with
      | globals => exact List.Sublist.refl _
      | flush => exact List.Sublist.refl _
      | handlers r chunk next =>
        simp only [owedBy]
        split
        · exact ((hdrop q next).filter _).map _
        · exact List.Sublist.refl _
    have howed : ∀ frames : List (Frame P η), (frames.flatMap (c'.owedBy q h)).Sublist
        (frames.flatMap (c.owedBy q h)) := by
      intro frames
      induction frames with
      | nil => exact List.Sublist.refl _
      | cons frame frames ih =>
        rw [List.flatMap_cons, List.flatMap_cons]
        exact (howedBy frame).append ih
    rw [promised, promised, deliveries, deliveries, hdelivered, hpreSub, owed, hframes]
    exact ((List.Sublist.refl _).append (howed _)).append (List.Sublist.refl _)
  constructor
  case ordered => exact fun q h => (hsound.ordered q h).sublist (hpromised q h)
  case bounded =>
    intro q h n hn
    rw [hpushes]
    exact hsound.bounded q h n ((hpromised q h).subset hn)
  case delivered =>
    intro q call hcall
    rw [hdelivered] at hcall
    exact (hsound.delivered q call hcall).congr hpushes
  case buffered =>
    intro q d hd
    rw [hpreSub] at hd
    exact (hsound.buffered q d hd).congr hpushes
  case underway =>
    intro frame hframe d hd
    rw [hframes] at hframe
    exact (hsound.underway frame hframe d hd).congr hpushes
  case complete =>
    intro number push hpush h hh
    rw [hpushes] at hpush
    rw [hdelivered, hframes]
    refine (hsound.complete number push hpush h hh).imp_right ?_
    rintro ⟨next, hframe, hmem⟩
    refine ⟨next, hframe, ?_⟩
    -- the index of a loop does not move, so a shorter list may skip a handler: `hspares`
    rcases eq_or_ne push.pane pane with heq | hne
    · rw [heq] at hframe hmem ⊢
      rw [hself]
      have hspared := hspares _ next hframe push hpush
      refine mem_drop_erase hmem (fun hpassed skipped hskipped => ?_) fun hnot hcoming => ?_
      · rw [if_pos hpassed] at hspared
        exact fun hsame => hspared skipped hskipped (hsame ▸ hh)
      · rw [if_neg hnot] at hspared
        exact fun hsame => hspared hcoming (hsame ▸ hh)
    · rwa [hother _ hne]
  case accounted =>
    intro number push hpush hnone
    rw [hpushes] at hpush
    rw [hunheard, hwindows]
    exact hsound.accounted number push hpush hnone
  case waiting =>
    intro q
    rw [hunheard, hpreSub]
    exact hsound.waiting q
  case counted =>
    intro q hquiet
    rw [hflushing] at hquiet
    rw [hpreSub, hfield Pane.preSubBytes fun _ _ => rfl]
    exact hsound.counted q hquiet
  case heard =>
    intro q hheard
    rw [hflushing] at hheard
    rw [hpreSub, hunheard]
    -- a pane that has a handler now had one before
    refine hsound.heard q (hheard.imp_left fun hsome hnone => hsome ?_)
    have hsub := hdrop q 0
    rw [List.drop_zero, List.drop_zero, hnone] at hsub
    exact List.sublist_nil.mp hsub
  case given =>
    intro q window hwindow
    rw [hwindows] at hwindow
    exact hsound.given q window hwindow
  case flushed =>
    intro q window hwindow d hd
    rw [hwindows] at hwindow
    rw [hdelivered, hframes]
    exact hsound.flushed q window hwindow d hd

/-! ## Steps and runs -/

omit [DecidableEq P] [DecidableEq η] in
theorem Entered.enter (hentered : c.Entered)
    (hframe : ∀ q d next, frame = .handlers q d next → 0 < next) : (c.enter frame).Entered := by
  intro q d next hmem
  rcases List.mem_cons.mp hmem with heq | hold
  · exact hframe q d next heq.symm
  · exact hentered q d next hold

omit [DecidableEq P] [DecidableEq η] in
theorem Entered.visitGlobals (hentered : c.Entered) (chunk : Chunk) (next : Nat) :
    (c.visitGlobals pane chunk next).Entered := by
  unfold PaneStreamConsumer.visitGlobals
  split
  · exact hentered.enter fun _ _ _ heq => by cases heq
  · exact hentered

omit [DecidableEq η] in
theorem Entered.visit (hentered : c.Entered) (chunk : Chunk) (next : Nat) :
    (c.visit pane chunk next).Entered := by
  unfold PaneStreamConsumer.visit
  split
  · next x hx =>
    refine Entered.enter (c := c.call pane x chunk) hentered fun q d k heq => ?_
    cases heq
    exact Nat.succ_pos _
  · exact hentered.visitGlobals chunk 0

omit [DecidableEq η] in
theorem Entered.flush (hentered : c.Entered) (rest : List Chunk) :
    (c.flush pane handler rest).Entered := by
  cases rest with
  | nil => exact hentered
  | cons oldest rest =>
    exact Entered.enter (c := c.call pane handler oldest) hentered fun _ _ _ heq => by cases heq

theorem entered_step {c c' : PaneStreamConsumer P η} (hentered : c.Entered) {event : Event P η}
    (hstep : step capBytes c event = some c') : c'.Entered := by
  cases event with
  | push pane bytes =>
    cases hstep
    unfold push
    dsimp only
    split
    · exact Entered.visitGlobals
        (c := (c.log ⟨pane, bytes, (c.panes pane).handlers⟩).update pane _) hentered _ _
    · exact Entered.visit (c := c.log _) hentered _ _
  | onPaneOutput pane handler =>
    cases hstep
    unfold onPaneOutput
    dsimp only
    split
    · exact hentered
    · exact Entered.flush (c := (c.add pane handler).splice pane handler) hentered _
  | onOutput handler =>
    cases hstep
    exact hentered
  | unsubscribe index =>
    obtain ⟨closure, -, rfl⟩ := Option.map_eq_some_iff.mp hstep
    cases closure with
    | pane => exact hentered
    | global => exact hentered
  | returns =>
    simp only [step] at hstep
    split at hstep
    · cases hstep
    · next frame frames hframes =>
      cases hstep
      have hrest : Entered ({ c with frames := frames } : PaneStreamConsumer P η) :=
        fun q d next hmem => hentered q d next (hframes ▸ List.mem_cons_of_mem _ hmem)
      cases frame with
      | handlers => exact hrest.visit _ _
      | globals => exact hrest.visitGlobals _ _
      | flush => exact hrest.flush _

/-- A step that meets the condition keeps all bytes accounted for. -/
theorem sound_step {c c' : PaneStreamConsumer P η} (hsound : c.Sound capBytes)
    (hentered : c.Entered) {event : Event P η} (hcalm : c.Calm event)
    (hstep : step capBytes c event = some c') : c'.Sound capBytes := by
  cases event with
  | push pane bytes =>
    cases hstep
    exact hsound.push hcalm
  | onPaneOutput pane handler =>
    cases hstep
    exact hsound.onPaneOutput hentered hcalm
  | onOutput handler =>
    cases hstep
    exact hsound.outside _ _
  | unsubscribe index =>
    obtain ⟨closure, hclosure, rfl⟩ := Option.map_eq_some_iff.mp hstep
    cases closure with
    | pane pane handler => exact hsound.remove (hcalm pane handler hclosure)
    | global handler => exact hsound.outside _ _
  | returns =>
    simp only [step] at hstep
    split at hstep
    · cases hstep
    · next frame frames hframes =>
      cases hstep
      refine Sound.resume ?_
      rw [enter, ← hframes]
      exact hsound

theorem sound_new : ({} : PaneStreamConsumer P η).Sound capBytes where
  ordered _ _ := List.Pairwise.nil
  bounded _ _ _ hn := by cases hn
  delivered _ _ hcall := by cases hcall
  buffered _ _ hd := by cases hd
  underway _ hframe := by cases hframe
  complete number push hpush := by cases hpush
  accounted number push hpush := by cases hpush
  waiting _ := .nil capBytes
  counted _ _ := rfl
  heard _ _ := ⟨rfl, rfl⟩
  given _ _ hwindow := by cases hwindow
  flushed _ _ hwindow := by cases hwindow

/-- In a run whose steps all meet the condition every chunk reaches the handlers of its pane, or
the next subscriber as far as the cap allows, in order and once. -/
theorem delivers_of_calm (capBytes : Nat) (events : List (Event P η)) :
    Along (step capBytes) Calm ({} : PaneStreamConsumer P η) events →
      ∀ before c, before <+: events → exec (step capBytes) {} before = some c →
        c.Delivers capBytes := by
  rintro halong before c ⟨after, rfl⟩ hrun
  refine Sound.delivers (exec_invariant (P := fun c => c.Sound capBytes ∧ c.Entered)
    (fun c event c' h hcalm hstep => ⟨sound_step h.1 h.2 hcalm hstep, entered_step h.2 hstep⟩)
    ⟨sound_new, fun _ _ _ hframe => by cases hframe⟩
    ((along_append (step capBytes)).mp halong).1 hrun).1

/-- A chunk waits for the subscriber, the next one finds it. -/
def subscribesLate : List (Event Nat String) :=
  [.push 0 [104, 105], .onPaneOutput 0 "view", .returns, .push 0 [10], .returns]

theorem delivers_subscribesLate :
    Along (step 4194304) Calm ({} : PaneStreamConsumer Nat String) subscribesLate ∧
      ∀ before c, before <+: subscribesLate →
        exec (step 4194304) {} before = some c → c.Delivers 4194304 := by
  have hcalm : Along (step 4194304) Calm ({} : PaneStreamConsumer Nat String) subscribesLate := by
    refine ⟨⟨.nil, fun h hh => ?_, fun _ hflush => ?_⟩,
      fun s₁ h₁ => ⟨?_, fun s₂ h₂ => ⟨trivial, fun s₃ h₃ => ⟨?_, fun s₄ _ => ⟨trivial, fun _ _ =>
        trivial⟩⟩⟩⟩⟩
    · cases hh
    · obtain ⟨_, _, hmem⟩ := hflush
      cases hmem
    · cases h₁
      exact Or.inl rfl
    · cases h₁
      cases h₂
      cases h₃
      refine ⟨List.nodup_singleton _, fun h hh => ?_, fun hnone => ?_⟩
      · rfl
      · cases hnone
  exact ⟨hcalm, delivers_of_calm 4194304 subscribesLate hcalm⟩

/-- Two handlers of a pane; the first one unsubscribes itself when it gets its first chunk. -/
def unsubscribesItself : List (Event Nat String) :=
  [.onPaneOutput 0 "first", .onPaneOutput 0 "second", .push 0 [104, 105], .unsubscribe 0, .returns]

/-- The second one never gets the chunk. -/
theorem second_skipped : ¬∀ before c, before <+: unsubscribesItself →
    exec (step 4194304) {} before = some c → Delivers 4194304 c := by
  intro hall
  have hrun : (exec (step 4194304) {} unsubscribesItself).map (fun c =>
      (c.pushes, (c.panes 0).delivered, c.frames)) =
        some ([⟨0, [104, 105], ["first", "second"]⟩], [("first", ⟨0, [104, 105]⟩)], []) := by
    decide +kernel
  obtain ⟨c, hc, hstate⟩ := Option.map_eq_some_iff.mp hrun
  obtain ⟨hpushes, hstate⟩ := Prod.mk.inj hstate
  obtain ⟨hdelivered, hframes⟩ := Prod.mk.inj hstate
  have hcomplete := (hall _ c (List.prefix_refl _) hc).complete 0
    ⟨0, [104, 105], ["first", "second"]⟩ (by rw [hpushes]; rfl) "second" (by decide)
  rw [hdelivered, hframes] at hcomplete
  rcases hcomplete with hgot | ⟨next, hmem⟩
  · exact absurd hgot (by decide)
  · cases hmem

end PaneStreamConsumer

end TmuxccDriver.Client.PaneStream
