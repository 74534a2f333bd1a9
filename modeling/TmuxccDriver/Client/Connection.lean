import Mathlib.Data.List.Indexes
import TmuxccDriver.Lib.Run

/-!
# The client's connection

`connection.ts`: messages of the control plane and frames of the data plane go to one
replaceable handler each. What arrives while a plane has no handler is buffered; `connect` and
`onControl` drain both buffers, `onData` drains none. A handler runs synchronously, so anything
may happen while a buffer is being drained: the loops that are not finished are kept as
frames, the innermost one first. Handlers are taken not to throw.

`connect` installs the routing and becomes ready in one go. Before, the transport has no handler
for data, and for control messages the one of the handshake or the one that `settle` leaves;
what arrives then, the handshake's own messages apart, is dropped.

Results:
1. `line_resume`, `prompt_resume`: a drain takes messages from the buffer to their handler and
   changes nothing else.
2. `good_step`, `not_good_of_not_orderly`: the arrivals and the calls of `onData` after which a
   message is lost, late or overtaken.
3. `deliveries_iff`: the runs in which the connection is first in, first out and lossless.
-/

namespace TmuxccDriver.Client.Connection
open TmuxccDriver.Lib

inductive ConnectionState
  | connecting
  | ready
  | failed
  | closed
deriving DecidableEq, Repr

inductive Plane
  | control
  | data
deriving DecidableEq, Repr

/-- A message and how many messages of its plane arrived before it. -/
structure Arrival (α : Type) where
  number : Nat
  message : α
deriving DecidableEq, Repr

/-- One plane. `arrived` is everything the transport has read since it was opened and
`delivered` every call of a handler. -/
structure Route (η α : Type) where
  handler : Option η := none
  pending : List (Arrival α) := []
  arrived : List α := []
  delivered : List (η × Arrival α) := []
deriving DecidableEq, Repr

/-- A call that goes on when the handler it has called returns. -/
inductive Frame (η α : Type)
  /-- `connect` has told the state handlers that it is ready, and drains next. -/
  | drainBuffers
  | control (handler : η) (rest : List (Arrival α))
  | data (handler : η) (rest : List (Arrival α))
deriving DecidableEq, Repr

structure SessionProxyConnection (η α : Type) where
  state : ConnectionState := .connecting
  connectCalled : Bool := false
  control : Route η α := {}
  data : Route η α := {}
  frames : List (Frame η α) := []
deriving DecidableEq, Repr

namespace SessionProxyConnection

variable {η α : Type} (c : SessionProxyConnection η α)

def route : Plane → Route η α
  | .control => c.control
  | .data => c.data

def update (f : Route η α → Route η α) : Plane → SessionProxyConnection η α
  | .control => { c with control := f c.control }
  | .data => { c with data := f c.data }

/-! ## Draining -/

def deliver (plane : Plane) (handler : η) (a : Arrival α) : SessionProxyConnection η α :=
  c.update (fun r => { r with delivered := r.delivered ++ [(handler, a)] }) plane

def push (frame : Frame η α) : SessionProxyConnection η α := { c with frames := frame :: c.frames }

def dataLoop (handler : η) : List (Arrival α) → SessionProxyConnection η α
  | [] => c
  | a :: rest => (c.deliver .data handler a).push (.data handler rest)

/-- The second half of `drainBuffers`. -/
def drainData : SessionProxyConnection η α :=
  match c.data.handler with
  | none => c
  | some handler =>
    (c.update (fun r => { r with pending := [] }) .data).dataLoop handler c.data.pending

def controlLoop (handler : η) : List (Arrival α) → SessionProxyConnection η α
  | [] => c.drainData
  | a :: rest => (c.deliver .control handler a).push (.control handler rest)

def drainBuffers : SessionProxyConnection η α :=
  match c.control.handler with
  | none => c.drainData
  | some handler =>
    (c.update (fun r => { r with pending := [] }) .control).controlLoop handler c.control.pending

def resume : Frame η α → SessionProxyConnection η α
  | .drainBuffers => c.drainBuffers
  | .control handler rest => c.controlLoop handler rest
  | .data handler rest => c.dataLoop handler rest

/-! ## Events -/

def onControl (handler : η) : SessionProxyConnection η α :=
  (c.update (fun r => { r with handler := some handler }) .control).drainBuffers

def onData (handler : η) : SessionProxyConnection η α :=
  c.update (fun r => { r with handler := some handler }) .data

/-- The transport has read a message of a plane. -/
def receive (plane : Plane) (message : α) : SessionProxyConnection η α :=
  let a : Arrival α := ⟨(c.route plane).arrived.length, message⟩
  let logged := c.update (fun r => { r with arrived := r.arrived ++ [message] }) plane
  match c.state with
  | .ready =>
    match (c.route plane).handler with
    | some handler => logged.deliver plane handler a
    | none => logged.update (fun r => { r with pending := r.pending ++ [a] }) plane
  | _ => logged

end SessionProxyConnection

inductive Event (η α : Type)
  | connect
  /-- The handshake has resolved, or an earlier one is adopted: `connect` goes on. -/
  | ready
  | failed
  | onControl (handler : η)
  | onData (handler : η)
  | arrives (plane : Plane) (message : α)
  /-- The handler that the innermost drain has called returns, or the last of the state
  handlers does. -/
  | returns
  | closed
deriving DecidableEq, Repr

namespace SessionProxyConnection

variable {η α : Type}

/-- One event; anything may happen inside a handler. A transport that is closed reads nothing. -/
def step (c : SessionProxyConnection η α) : Event η α → Option (SessionProxyConnection η α)
  | .connect => if c.connectCalled then none else some { c with connectCalled := true }
  | .ready =>
    if c.connectCalled ∧ c.state = .connecting then
      some ({ c with state := .ready }.push .drainBuffers)
    else none
  | .failed =>
    if c.connectCalled ∧ c.state = .connecting then some { c with state := .failed } else none
  | .onControl handler => some (c.onControl handler)
  | .onData handler => some (c.onData handler)
  | .arrives plane message =>
    if c.state = .connecting ∨ c.state = .ready then some (c.receive plane message) else none
  | .returns =>
    match c.frames with
    | [] => none
    | frame :: frames => some ({ c with frames := frames }.resume frame)
  | .closed =>
    if c.state = .closed ∨ c.state = .failed then none else some { c with state := .closed }

end SessionProxyConnection

/-! ## What the connection promises -/

/-- The messages of a plane that a frame has still to deliver. -/
def Frame.holds {η α : Type} (plane : Plane) : Frame η α → List (Arrival α)
  | .drainBuffers => []
  | .control _ rest => if plane = .control then rest else []
  | .data _ rest => if plane = .data then rest else []

/-- A frame that drains the buffer of a plane when it goes on. -/
def Frame.reaches {η α : Type} (plane : Plane) : Frame η α → Bool
  | .drainBuffers => true
  | .control .. => plane = .data
  | .data .. => false

/-- All messages, each with its number. -/
def numbered {α : Type} (messages : List α) : List (Arrival α) := messages.mapIdx Arrival.mk

namespace SessionProxyConnection

variable {η α : Type} (c : SessionProxyConnection η α)

/-- What a drain in progress has taken out of the buffer of a plane and not yet delivered. -/
def underway (plane : Plane) : List (Arrival α) := c.frames.flatMap (Frame.holds plane)

def waiting (plane : Plane) : List (Arrival α) := c.underway plane ++ (c.route plane).pending

def deliveries (plane : Plane) : List (Arrival α) := (c.route plane).delivered.map Prod.snd

/-- The messages of a plane, those that a handler has got and those that wait for one. -/
def line (plane : Plane) : List (Arrival α) := c.deliveries plane ++ c.waiting plane

/-- A plane with a handler has an empty buffer, or a call in progress drains it. -/
def Prompt (plane : Plane) : Prop :=
  (c.route plane).handler ≠ none →
    (c.route plane).pending = [] ∨ ∃ frame ∈ c.frames, frame.reaches plane = true

/-- Every message that has arrived was delivered, once and in the order of arrival, or waits
for its delivery in that order; and it waits no longer than the plane has no handler. -/
def Good : Prop := ∀ plane, c.line plane = numbered (c.route plane).arrived ∧ c.Prompt plane

/-- The events that the connection handles as it says: messages that arrive after the routing
is installed and find no older one of their plane waiting unless both wait for a handler, and
calls of `onData` that find the buffer empty or are made from within a drain that still
gets to it. -/
def Orderly : Event η α → Prop
  | .arrives plane _ =>
    c.state ≠ .connecting ∧
      (c.state = .ready → (c.route plane).handler ≠ none → c.waiting plane = [])
  | .onData _ => c.data.pending = [] ∨ ∃ frame ∈ c.frames, frame.reaches .data = true
  | _ => True

/-! ## Drains -/

/-- What was taken out of a buffer was taken out whole, for the handler that the plane has had
since then. -/
def Split : Prop :=
  ∀ plane, c.underway plane ≠ [] → (c.route plane).handler ≠ none ∧ (c.route plane).pending = []

variable {c} {plane p : Plane} {handler : η} {frame : Frame η α}

@[simp] theorem frames_update (f : Route η α → Route η α) :
    (c.update f plane).frames = c.frames := by
  cases plane <;> rfl

theorem route_update (f : Route η α → Route η α) :
    (c.update f p).route plane = if plane = p then f (c.route p) else c.route plane := by
  cases plane <;> cases p <;> rfl

@[simp] theorem route_push : (c.push frame).route plane = c.route plane := by
  cases plane <;> rfl

@[simp] theorem frames_push : (c.push frame).frames = frame :: c.frames := rfl

@[simp] theorem underway_push :
    (c.push frame).underway plane = frame.holds plane ++ c.underway plane := rfl

/-- A drain changes neither the handlers nor what has arrived. -/
structure Drained (c c' : SessionProxyConnection η α) : Prop where
  state : c'.state = c.state
  handler : ∀ plane, (c'.route plane).handler = (c.route plane).handler
  arrived : ∀ plane, (c'.route plane).arrived = (c.route plane).arrived
  frames : c.frames ⊆ c'.frames

theorem Drained.refl (c : SessionProxyConnection η α) : Drained c c :=
  ⟨rfl, fun _ => rfl, fun _ => rfl, List.Subset.refl _⟩

theorem Drained.trans {c₁ c₂ c₃ : SessionProxyConnection η α} (h : Drained c₁ c₂)
    (h' : Drained c₂ c₃) : Drained c₁ c₃ :=
  ⟨h'.state.trans h.state, fun p => (h'.handler p).trans (h.handler p),
    fun p => (h'.arrived p).trans (h.arrived p), List.Subset.trans h.frames h'.frames⟩

theorem drained_deliver (p : Plane) (handler : η) (a : Arrival α) (frame : Frame η α) :
    Drained c ((c.deliver p handler a).push frame) where
  state := by cases p <;> rfl
  handler plane := by cases p <;> cases plane <;> rfl
  arrived plane := by cases p <;> cases plane <;> rfl
  frames := by
    rw [deliver, frames_push, frames_update]
    exact List.subset_cons_self _ _

theorem drained_splice (p : Plane) :
    Drained c (c.update (fun r => { r with pending := [] }) p) where
  state := by cases p <;> rfl
  handler plane := by cases p <;> cases plane <;> rfl
  arrived plane := by cases p <;> cases plane <;> rfl
  frames := by rw [frames_update]; exact List.Subset.refl _

theorem drained_dataLoop (handler : η) (rest : List (Arrival α)) :
    Drained c (c.dataLoop handler rest) := by
  cases rest with
  | nil => exact .refl c
  | cons a rest => exact drained_deliver .data handler a _

theorem drained_drainData : Drained c c.drainData := by
  unfold drainData
  split
  · exact .refl c
  · exact (drained_splice .data).trans (drained_dataLoop _ _)

theorem drained_controlLoop (handler : η) (rest : List (Arrival α)) :
    Drained c (c.controlLoop handler rest) := by
  cases rest with
  | nil => exact drained_drainData
  | cons a rest => exact drained_deliver .control handler a _

theorem drained_drainBuffers : Drained c c.drainBuffers := by
  unfold drainBuffers
  split
  · exact drained_drainData
  · exact (drained_splice .control).trans (drained_controlLoop _ _)

theorem drained_resume (frame : Frame η α) : Drained c (c.resume frame) := by
  cases frame with
  | drainBuffers => exact drained_drainBuffers
  | control handler rest => exact drained_controlLoop handler rest
  | data handler rest => exact drained_dataLoop handler rest

/-! ## A drain keeps the line -/

theorem line_deliver_push (a : Arrival α) (rest : List (Arrival α))
    (hholds : ∀ plane, frame.holds plane = if plane = p then rest else []) (plane : Plane) :
    ((c.deliver p handler a).push frame).line plane =
      c.deliveries plane ++ ((if plane = p then a :: rest else []) ++ c.waiting plane) := by
  have hdeliveries : ((c.deliver p handler a).push frame).deliveries plane =
      c.deliveries plane ++ if plane = p then [a] else [] := by
    cases plane <;> cases p <;> simp [deliveries, deliver, push, update, route]
  have hwaiting : ((c.deliver p handler a).push frame).waiting plane =
      frame.holds plane ++ c.waiting plane := by
    cases plane <;> cases p <;> simp [waiting, underway, deliver, push, update, route]
  rw [line, hdeliveries, hwaiting, hholds]
  split <;> simp

theorem line_dataLoop (handler : η) (rest : List (Arrival α)) (plane : Plane) :
    (c.dataLoop handler rest).line plane =
      c.deliveries plane ++ ((Frame.data handler rest).holds plane ++ c.waiting plane) := by
  cases rest with
  | nil =>
    rw [Frame.holds, ite_self, List.nil_append]
    rfl
  | cons a rest => exact line_deliver_push a rest (fun _ => rfl) plane

/-- Emptying the buffer of a plane before the loop over it. -/
theorem waiting_splice (hsplit : c.Split) (plane : Plane) :
    (if plane = p then (c.route p).pending else []) ++
        (c.update (fun r => { r with pending := [] }) p).waiting plane = c.waiting plane := by
  have hunderway : (c.update (fun r => { r with pending := [] }) p).underway plane =
      c.underway plane := by rw [underway, underway, frames_update]
  rw [waiting, waiting, hunderway, route_update]
  split
  · next heq =>
    subst heq
    rcases List.eq_nil_or_concat (c.underway plane) with hnone | ⟨_, _, hsome⟩
    · rw [hnone, List.append_nil, List.append_nil, List.nil_append]
    · have hempty := (hsplit plane (by simp [hsome])).2
      rw [hempty, List.nil_append]
  · rfl

theorem deliveries_splice (plane : Plane) :
    (c.update (fun r => { r with pending := [] }) p).deliveries plane = c.deliveries plane := by
  rw [deliveries, deliveries, route_update]
  split
  · next heq => rw [heq]
  · rfl

theorem line_drainData (hsplit : c.Split) (plane : Plane) :
    c.drainData.line plane = c.line plane := by
  unfold drainData
  split
  · rfl
  · rw [line_dataLoop, deliveries_splice, line, ← waiting_splice (p := .data) hsplit plane]
    rfl

theorem line_controlLoop (hsplit : c.Split) (handler : η) (rest : List (Arrival α))
    (plane : Plane) :
    (c.controlLoop handler rest).line plane =
      c.deliveries plane ++ ((Frame.control handler rest).holds plane ++ c.waiting plane) := by
  cases rest with
  | nil =>
    rw [Frame.holds, ite_self, List.nil_append]
    exact line_drainData hsplit plane
  | cons a rest => exact line_deliver_push a rest (fun _ => rfl) plane

theorem Split.splice (hsplit : c.Split) :
    (c.update (fun r => { r with pending := [] }) p).Split := by
  intro plane hunderway
  have hold := hsplit plane (by rwa [underway, frames_update] at hunderway)
  rw [route_update]
  split
  · next heq => exact ⟨heq ▸ hold.1, rfl⟩
  · exact hold

theorem line_drainBuffers (hsplit : c.Split) (plane : Plane) :
    c.drainBuffers.line plane = c.line plane := by
  unfold drainBuffers
  split
  · exact line_drainData hsplit plane
  · rw [line_controlLoop hsplit.splice, deliveries_splice, line,
      ← waiting_splice (p := .control) hsplit plane]
    rfl

/-- A call that goes on delivers what its frame holds, and all it takes from the buffers. -/
theorem line_resume (hsplit : c.Split) (frame : Frame η α) (plane : Plane) :
    (c.resume frame).line plane = (c.push frame).line plane := by
  have hpush : (c.push frame).line plane =
      c.deliveries plane ++ (frame.holds plane ++ c.waiting plane) := by
    rw [line, waiting, underway_push, deliveries, route_push, List.append_assoc]
    rfl
  rw [hpush]
  cases frame with
  | drainBuffers => exact line_drainBuffers hsplit plane
  | control handler rest => exact line_controlLoop hsplit handler rest plane
  | data handler rest => exact line_dataLoop handler rest plane

/-! ## What a drain leaves in the buffers -/

theorem Split.deliver_push (hsplit : c.Split) {a : Arrival α}
    (hp : (c.route p).handler ≠ none ∧ (c.route p).pending = [])
    (hholds : ∀ plane, plane ≠ p → frame.holds plane = []) :
    ((c.deliver p handler a).push frame).Split := by
  intro plane hunderway
  rw [route_push, deliver, route_update]
  split
  · exact hp
  · next hne =>
    rw [underway_push, hholds plane hne, List.nil_append, deliver, underway, frames_update]
      at hunderway
    exact hsplit plane hunderway

theorem Split.dataLoop (hsplit : c.Split) {rest : List (Arrival α)}
    (hdata : rest ≠ [] → c.data.handler ≠ none ∧ c.data.pending = []) :
    (c.dataLoop handler rest).Split := by
  cases rest with
  | nil => exact hsplit
  | cons a rest =>
    exact hsplit.deliver_push (hdata (List.cons_ne_nil _ _)) fun plane hne => if_neg hne

theorem Split.drainData (hsplit : c.Split) : c.drainData.Split := by
  unfold SessionProxyConnection.drainData
  split
  · exact hsplit
  · next handler hhandler =>
    refine hsplit.splice.dataLoop fun _ => ⟨?_, rfl⟩
    intro hnone
    cases hhandler.symm.trans hnone

theorem Split.controlLoop (hsplit : c.Split) {rest : List (Arrival α)}
    (hcontrol : rest ≠ [] → c.control.handler ≠ none ∧ c.control.pending = []) :
    (c.controlLoop handler rest).Split := by
  cases rest with
  | nil => exact hsplit.drainData
  | cons a rest =>
    exact hsplit.deliver_push (hcontrol (List.cons_ne_nil _ _)) fun plane hne => if_neg hne

theorem Split.drainBuffers (hsplit : c.Split) : c.drainBuffers.Split := by
  unfold SessionProxyConnection.drainBuffers
  split
  · exact hsplit.drainData
  · next handler hhandler =>
    refine hsplit.splice.controlLoop fun _ => ⟨?_, rfl⟩
    intro hnone
    cases hhandler.symm.trans hnone

theorem Split.pop (hsplit : (c.push frame).Split) : c.Split := by
  intro plane hunderway
  have hold := hsplit plane (by
    rw [underway_push]
    exact List.append_ne_nil_of_right_ne_nil _ hunderway)
  rwa [route_push] at hold

theorem Split.resume (hsplit : (c.push frame).Split) : (c.resume frame).Split := by
  have hpop := hsplit.pop
  have hholds : ∀ plane, frame.holds plane ≠ [] →
      (c.route plane).handler ≠ none ∧ (c.route plane).pending = [] := by
    intro plane hholds
    have hold := hsplit plane (by
      rw [underway_push]
      exact List.append_ne_nil_of_left_ne_nil hholds _)
    rwa [route_push] at hold
  cases frame with
  | drainBuffers => exact hpop.drainBuffers
  | control handler rest => exact hpop.controlLoop (hholds .control)
  | data handler rest => exact hpop.dataLoop (hholds .data)

theorem pending_dataLoop (handler : η) (rest : List (Arrival α)) (plane : Plane) :
    ((c.dataLoop handler rest).route plane).pending = (c.route plane).pending := by
  cases rest <;> cases plane <;> rfl

theorem pending_drainData_control :
    (c.drainData.route .control).pending = (c.route .control).pending := by
  unfold drainData
  split
  · rfl
  · rw [pending_dataLoop]
    rfl

theorem prompt_drainData : c.drainData.Prompt .data := by
  unfold drainData
  split
  · next hnone => exact fun hsome => absurd hnone hsome
  · refine fun _ => Or.inl ?_
    rw [pending_dataLoop]
    rfl

theorem pending_controlLoop (handler : η) (rest : List (Arrival α)) :
    ((c.controlLoop handler rest).route .control).pending = (c.route .control).pending := by
  cases rest with
  | nil => exact pending_drainData_control
  | cons => rfl

theorem prompt_controlLoop (handler : η) (rest : List (Arrival α)) :
    (c.controlLoop handler rest).Prompt .data := by
  cases rest with
  | nil => exact prompt_drainData
  | cons a rest => exact fun _ => Or.inr ⟨.control handler rest, List.mem_cons_self, rfl⟩

/-- A drain empties the buffers of the planes with a handler, the data plane's perhaps only
when the loop over the control messages is over. -/
theorem prompt_drainBuffers (plane : Plane) : c.drainBuffers.Prompt plane := by
  have hhandler := (drained_drainBuffers (c := c)).handler .control
  unfold drainBuffers at hhandler ⊢
  split
  · next hnone =>
    rw [hnone] at hhandler
    cases plane with
    | control => exact fun hsome => absurd (hhandler.trans hnone) hsome
    | data => exact prompt_drainData
  · cases plane with
    | control =>
      refine fun _ => Or.inl ?_
      rw [pending_controlLoop]
      rfl
    | data => exact prompt_controlLoop _ _

/-- A plane without a drain to come keeps what it has in the buffer. -/
theorem Prompt.of_drained {c c' : SessionProxyConnection η α} (hprompt : c.Prompt plane)
    (hdrained : Drained c c') (hpending : (c'.route plane).pending = (c.route plane).pending) :
    c'.Prompt plane := by
  intro hhandler
  rw [hdrained.handler plane] at hhandler
  rcases hprompt hhandler with hempty | ⟨frame, hframe, hreaches⟩
  · exact Or.inl (hpending.trans hempty)
  · exact Or.inr ⟨frame, hdrained.frames hframe, hreaches⟩

theorem Prompt.pop (hprompt : (c.push frame).Prompt plane) (hnot : frame.reaches plane = false) :
    c.Prompt plane := by
  intro hhandler
  have hold := hprompt (by rwa [route_push])
  rw [route_push] at hold
  refine hold.imp_right ?_
  rintro ⟨other, hother, hreaches⟩
  rcases List.mem_cons.mp hother with rfl | hold
  · cases hnot.symm.trans hreaches
  · exact ⟨other, hold, hreaches⟩

theorem prompt_resume (frame : Frame η α) (hprompt : (c.push frame).Prompt plane) :
    (c.resume frame).Prompt plane := by
  cases frame with
  | drainBuffers => exact prompt_drainBuffers plane
  | control handler rest =>
    cases plane with
    | control =>
      exact (hprompt.pop rfl).of_drained (drained_controlLoop _ _) (pending_controlLoop _ _)
    | data => exact prompt_controlLoop _ _
  | data handler rest =>
    exact (hprompt.pop rfl).of_drained (drained_dataLoop _ _) (pending_dataLoop _ _ _)

/-! ## Arrivals -/

theorem numbered_concat (messages : List α) (message : α) :
    numbered (messages ++ [message]) = numbered messages ++ [⟨messages.length, message⟩] :=
  List.mapIdx_concat

theorem number_lt_of_mem_numbered {messages : List α} {a : Arrival α} (h : a ∈ numbered messages) :
    a.number < messages.length := by
  obtain ⟨i, hi, rfl⟩ := List.mem_mapIdx.mp h
  exact hi

variable {message : α}

@[simp] theorem frames_receive : (c.receive p message).frames = c.frames := by
  unfold receive
  repeat' split
  all_goals cases p <;> rfl

theorem handler_receive :
    ((c.receive p message).route plane).handler = (c.route plane).handler := by
  unfold receive
  repeat' split
  all_goals cases p <;> cases plane <;> rfl

theorem arrived_receive :
    ((c.receive p message).route p).arrived = (c.route p).arrived ++ [message] := by
  unfold receive
  repeat' split
  all_goals cases p <;> rfl

theorem receive_other (hne : plane ≠ p) :
    (c.receive p message).route plane = c.route plane := by
  unfold receive
  repeat' split
  all_goals cases p <;> cases plane <;> first | rfl | exact absurd rfl hne

/-- What becomes of a message: its handler gets it, or it joins the buffer, or it is dropped. -/
theorem line_receive :
    (c.receive p message).line p =
      if c.state = .ready then
        if (c.route p).handler = none then
          c.line p ++ [⟨(c.route p).arrived.length, message⟩]
        else c.deliveries p ++ (⟨(c.route p).arrived.length, message⟩ :: c.waiting p)
      else c.line p := by
  have hunderway : (c.receive p message).underway p = c.underway p := by
    rw [underway, underway, frames_receive]
  rw [line, waiting, hunderway]
  unfold receive deliveries line deliveries waiting
  split
  · next hstate =>
    rw [if_pos hstate]
    split
    · next handler hhandler =>
      rw [if_neg fun hnone => by cases hhandler.symm.trans hnone]
      cases p <;> simp [deliver, update, route]
    · next hhandler =>
      rw [if_pos hhandler]
      cases p <;> simp [update, route]
  · next hstate =>
    rw [if_neg hstate]
    cases p <;> rfl

theorem Split.receive (hsplit : c.Split) : (c.receive p message).Split := by
  intro plane hunderway
  rw [underway, frames_receive] at hunderway
  obtain ⟨hhandler, hpending⟩ := hsplit plane hunderway
  refine ⟨by rwa [handler_receive], ?_⟩
  rcases eq_or_ne plane p with rfl | hne
  · unfold SessionProxyConnection.receive
    repeat' split
    · cases plane <;> exact hpending
    · next hnone => exact absurd hnone hhandler
    · cases plane <;> exact hpending
  · rwa [receive_other hne]

theorem Prompt.receive (hprompt : c.Prompt plane) : (c.receive p message).Prompt plane := by
  intro hhandler
  rw [handler_receive] at hhandler
  rw [frames_receive]
  refine (hprompt hhandler).imp_left fun hpending => ?_
  rcases eq_or_ne plane p with rfl | hne
  · unfold SessionProxyConnection.receive
    repeat' split
    · cases plane <;> exact hpending
    · next hnone => exact absurd hnone hhandler
    · cases plane <;> exact hpending
  · rwa [receive_other hne]

/-! ## Steps -/

theorem Split.onData (hsplit : c.Split) : (c.onData handler).Split := by
  intro plane hunderway
  have hold := hsplit plane hunderway
  cases plane with
  | control => exact hold
  | data => exact ⟨Option.some_ne_none _, hold.2⟩

theorem Split.withControl (hsplit : c.Split) :
    (c.update (fun r => { r with handler := some handler }) .control).Split := by
  intro plane hunderway
  have hold := hsplit plane hunderway
  cases plane with
  | control => exact ⟨Option.some_ne_none _, hold.2⟩
  | data => exact hold

theorem split_step {c c' : SessionProxyConnection η α} (hsplit : c.Split) {event : Event η α}
    (hstep : step c event = some c') : c'.Split := by
  cases event with
  | connect =>
    simp only [step, Option.ite_none_left_eq_some, Option.some.injEq] at hstep
    obtain ⟨-, rfl⟩ := hstep
    exact hsplit
  | ready =>
    simp only [step, Option.ite_none_right_eq_some, Option.some.injEq] at hstep
    obtain ⟨-, rfl⟩ := hstep
    exact hsplit
  | failed =>
    simp only [step, Option.ite_none_right_eq_some, Option.some.injEq] at hstep
    obtain ⟨-, rfl⟩ := hstep
    exact hsplit
  | onControl handler =>
    cases hstep
    exact hsplit.withControl.drainBuffers
  | onData handler =>
    cases hstep
    exact hsplit.onData
  | arrives p message =>
    simp only [step, Option.ite_none_right_eq_some, Option.some.injEq] at hstep
    obtain ⟨-, rfl⟩ := hstep
    exact hsplit.receive
  | returns =>
    simp only [step] at hstep
    split at hstep
    · cases hstep
    · next frame frames hframes =>
      cases hstep
      refine Split.resume (c := { c with frames := frames }) ?_
      rw [push, ← hframes]
      exact hsplit
  | closed =>
    simp only [step, Option.ite_none_left_eq_some, Option.some.injEq] at hstep
    obtain ⟨-, rfl⟩ := hstep
    exact hsplit

theorem Good.onControl (hsplit : c.Split) (hgood : c.Good) : (c.onControl handler).Good := by
  intro plane
  refine ⟨?_, prompt_drainBuffers plane⟩
  rw [SessionProxyConnection.onControl, drained_drainBuffers.arrived,
    line_drainBuffers hsplit.withControl]
  cases plane with
  | control => exact (hgood .control).1
  | data => exact (hgood .data).1

theorem Good.resume (hsplit : (c.push frame).Split) (hgood : (c.push frame).Good) :
    (c.resume frame).Good := by
  intro plane
  obtain ⟨hline, hprompt⟩ := hgood plane
  refine ⟨?_, prompt_resume frame hprompt⟩
  rw [line_resume hsplit.pop, hline, (drained_resume frame).arrived, route_push]

theorem Good.receive (hgood : c.Good) (hready : c.state = .ready)
    (hfree : (c.route p).handler ≠ none → c.waiting p = []) : (c.receive p message).Good := by
  intro plane
  obtain ⟨hline, hprompt⟩ := hgood plane
  refine ⟨?_, hprompt.receive⟩
  rcases eq_or_ne plane p with rfl | hne
  · rw [line_receive, arrived_receive, numbered_concat, ← hline, if_pos hready]
    split
    · rfl
    · next hhandler => rw [line, hfree hhandler, List.append_nil]
  · have hunderway : (c.receive p message).underway plane = c.underway plane := by
      rw [underway, underway, frames_receive]
    rw [receive_other hne, ← hline, line, line, deliveries, deliveries, waiting, waiting, hunderway,
      receive_other hne]

/-- An orderly event keeps the promise. -/
theorem good_step {c c' : SessionProxyConnection η α} (hsplit : c.Split) (hgood : c.Good)
    {event : Event η α} (horderly : c.Orderly event) (hstep : step c event = some c') :
    c'.Good := by
  cases event with
  | connect =>
    simp only [step, Option.ite_none_left_eq_some, Option.some.injEq] at hstep
    obtain ⟨-, rfl⟩ := hstep
    exact hgood
  | ready =>
    simp only [step, Option.ite_none_right_eq_some, Option.some.injEq] at hstep
    obtain ⟨-, rfl⟩ := hstep
    exact fun plane => ⟨(hgood plane).1, fun _ => Or.inr ⟨.drainBuffers, List.mem_cons_self, rfl⟩⟩
  | failed =>
    simp only [step, Option.ite_none_right_eq_some, Option.some.injEq] at hstep
    obtain ⟨-, rfl⟩ := hstep
    exact hgood
  | onControl handler =>
    cases hstep
    exact hgood.onControl hsplit
  | onData handler =>
    cases hstep
    intro plane
    cases plane with
    | control => exact hgood .control
    | data => exact ⟨(hgood .data).1, fun _ => horderly⟩
  | arrives p message =>
    simp only [step, Option.ite_none_right_eq_some, Option.some.injEq] at hstep
    obtain ⟨hopen, rfl⟩ := hstep
    have hready := hopen.resolve_left horderly.1
    exact hgood.receive hready (horderly.2 hready)
  | returns =>
    simp only [step] at hstep
    split at hstep
    · cases hstep
    · next frame frames hframes =>
      cases hstep
      have hpush : ({ c with frames := frames } : SessionProxyConnection η α).push frame = c := by
        rw [push, ← hframes]
      exact Good.resume (hpush ▸ hsplit) (hpush ▸ hgood)
  | closed =>
    simp only [step, Option.ite_none_left_eq_some, Option.some.injEq] at hstep
    obtain ⟨-, rfl⟩ := hstep
    exact hgood

/-- A message that is dropped, or that goes to its handler ahead of an older one. -/
theorem not_good_receive (hgood : c.Good)
    (hnot : c.state = .ready → (c.route p).handler ≠ none ∧ c.waiting p ≠ []) :
    ¬(c.receive p message).Good := by
  intro hgood'
  have hline' := (hgood' p).1
  rw [line_receive, arrived_receive, numbered_concat, ← (hgood p).1] at hline'
  split at hline'
  · next hready =>
    obtain ⟨hhandler, hwaiting⟩ := hnot hready
    obtain ⟨oldest, rest, hrest⟩ := List.exists_cons_of_ne_nil hwaiting
    rw [if_neg hhandler, line, List.append_assoc, List.append_cancel_left_eq, hrest,
      List.cons_append, List.cons.injEq] at hline'
    have hmem : oldest ∈ numbered (c.route p).arrived := by
      rw [← (hgood p).1, line, hrest]
      exact List.mem_append_right _ List.mem_cons_self
    have hlt := number_lt_of_mem_numbered hmem
    rw [← hline'.1] at hlt
    exact absurd hlt (Nat.lt_irrefl _)
  · exact List.append_ne_nil_of_right_ne_nil [] (List.cons_ne_nil _ _)
      (List.self_eq_append_right.mp hline')

/-- Every other event breaks it. -/
theorem not_good_of_not_orderly (hgood : c.Good) {event : Event η α} (hnot : ¬c.Orderly event) :
    ∃ c', step c event = some c' ∧ ¬c'.Good := by
  cases event with
  | arrives p message =>
    have hopen : c.state = .connecting ∨ c.state = .ready := by
      by_contra hclosed
      obtain ⟨hrouted, hnotReady⟩ := not_or.mp hclosed
      exact hnot ⟨hrouted, fun hready => absurd hready hnotReady⟩
    refine ⟨c.receive p message, if_pos hopen, not_good_receive hgood fun hready => ?_⟩
    have hovertakes : ¬((c.route p).handler ≠ none → c.waiting p = []) := fun hfree =>
      hnot ⟨fun hconnecting => (by cases hready.symm.trans hconnecting), fun _ => hfree⟩
    exact Classical.not_imp.mp hovertakes
  | onData handler =>
    refine ⟨c.onData handler, rfl, fun hgood' => hnot ?_⟩
    exact (hgood' .data).2 (Option.some_ne_none _)
  | connect => exact absurd trivial hnot
  | ready => exact absurd trivial hnot
  | failed => exact absurd trivial hnot
  | onControl => exact absurd trivial hnot
  | returns => exact absurd trivial hnot
  | closed => exact absurd trivial hnot

/-! ## Runs -/

theorem good_new : ({} : SessionProxyConnection η α).Good := by
  intro plane
  cases plane with
  | control => exact ⟨rfl, fun _ => Or.inl rfl⟩
  | data => exact ⟨rfl, fun _ => Or.inl rfl⟩

theorem split_new : ({} : SessionProxyConnection η α).Split := by
  intro plane hunderway
  cases plane with
  | control => exact absurd rfl hunderway
  | data => exact absurd rfl hunderway

/-- Handlers have got the oldest messages of their plane, each once and in order, and all of
them when the plane has a handler and no call is in progress. -/
theorem Good.delivered (hgood : c.Good) (plane : Plane) :
    c.deliveries plane <+: numbered (c.route plane).arrived ∧
      ((c.route plane).handler ≠ none → c.frames = [] →
        c.deliveries plane = numbered (c.route plane).arrived) := by
  obtain ⟨hline, hprompt⟩ := hgood plane
  refine ⟨⟨c.waiting plane, hline⟩, fun hhandler hframes => ?_⟩
  have hpending : (c.route plane).pending = [] := by
    refine (hprompt hhandler).resolve_right ?_
    rintro ⟨frame, hframe, -⟩
    rw [hframes] at hframe
    cases hframe
  rw [← hline, line, waiting, underway, hframes, hpending, List.flatMap_nil, List.append_nil,
    List.append_nil]

/-- The connection is first in, first out and lossless in exactly the runs of orderly events. -/
theorem deliveries_iff (events : List (Event η α)) :
    (∀ before c, before <+: events → exec step {} before = some c → Good c) ↔
      Along step Orderly ({} : SessionProxyConnection η α) events := by
  refine prefixes_iff_along_of (I := fun c => c.Split ∧ c.Good) (Q := Good) (fun _ h => h.2)
    (fun c event c' h horderly hstep => ?_) (fun c event h hnot => ?_) ⟨split_new, good_new⟩
  · exact ⟨split_step h.1 hstep, good_step h.1 h.2 horderly hstep⟩
  · exact not_good_of_not_orderly h.2 hnot

/-- `connectClient`: the mirror takes the control plane, then the pane streams the data plane. -/
def wiring (early late : String) : List (Event String String) :=
  [.connect, .ready, .returns, .arrives .data early, .onControl "mirror", .onData "panes",
    .arrives .data late]

/-- A frame that arrived before the wiring stays behind when a later one is delivered. -/
theorem frame_stranded :
    ¬∀ before c, before <+: wiring "$ " "ls" → exec step {} before = some c → Good c := by
  intro hall
  have hrun : (exec step {} (wiring "$ " "ls")).map
      (fun c => (c.deliveries .data, numbered (c.route .data).arrived)) =
        some ([⟨1, "ls"⟩], [⟨0, "$ "⟩, ⟨1, "ls"⟩]) := by decide +kernel
  obtain ⟨c, hc, hdata⟩ := Option.map_eq_some_iff.mp hrun
  obtain ⟨hdelivered, harrived⟩ := Prod.mk.inj hdata
  have hoverlooked := ((hall _ c (List.prefix_refl _) hc).delivered .data).1
  rw [hdelivered, harrived] at hoverlooked
  exact absurd hoverlooked (by decide)

end SessionProxyConnection

end TmuxccDriver.Client.Connection
