import TmuxccDriver.Lib.KeyedMap
import TmuxccDriver.Lib.Run
import TmuxccDriver.Lib.Text
import TmuxccDriver.Protocol.SessionProxyControl

/-!
# The client's input

`input.ts`: what a client sends. Resizes wait in a buffer for a microtask, which sends the
last one of each pane; everything else is sent at once, with the next sequence number. The
promises of verbs and captures wait under their correlation id for a response.

What the callers and the wire can see is written to a trace, and the promises of the API are
stated about the trace alone. `send` throws when the connection is not ready; a send returns
before anything arrives.

Results:
1. `lawful_concat`: a trace is lawful if each of its entries was allowed when it was made.
2. `tracks_flushResizes`: what the buffer has to do with the trace, and what a flush does.
3. `tracks_step`: what a step keeps in which no verb passes a resize.
4. `lawful_iff`: in which runs the order of the wire is the one of the calls.
-/

namespace TmuxccDriver.Client.Input
open TmuxccDriver.Lib TmuxccDriver.Protocol

/-! ## Messages -/

structure Size where
  cols : Int
  rows : Int
deriving DecidableEq, Repr

inductive Message
  | input (paneId : PaneId) (data : String)
  | resizeRequest (paneId : PaneId) (size : Size)
  | commandRequest (correlationId : String) (command : WireCommand)
  | paneAttach (paneId : PaneId)
deriving DecidableEq, Repr

/-- `payload` of a response, as far as the input reads it. `A` and `F` are the results that
are handed through. -/
structure Payload (A F : Type) where
  paneId : Option PaneId := none
  windowId : Option WindowId := none
  text : Option String := none
  applyTemplate : Option A := none
  frozenTemplate : Option F := none
deriving DecidableEq, Repr

structure CommandFailure (D : Type) where
  code : String
  message : String
  details : Option D := none
deriving DecidableEq, Repr

structure CommandResponse (A F D : Type) where
  correlationId : String
  result : Except (CommandFailure D) (Option (Payload A F))

/-! ## What a promise settles with -/

inductive VerbResult (A F : Type)
  | ok (newPaneId : Option PaneId) (newWindowId : Option WindowId) (applyTemplate : Option A)
      (frozenTemplate : Option F)
  | failed (code message : String)
deriving DecidableEq, Repr

/-- `Error` and `CommandError`. -/
inductive InputError (D : Type)
  | error (message : String)
  | command (failure : CommandFailure D)
deriving DecidableEq, Repr

inductive Kind
  | verb
  | capture
deriving DecidableEq, Repr

inductive Outcome (A F D : Type)
  | verb (result : VerbResult A F)
  | text (text : String)
  | rejected (error : InputError D)
deriving DecidableEq, Repr

section

variable {A F D : Type} (stringify : Option (Payload A F) → String)

/-- What a verb gets from the result of its response. -/
def verbResult : Except (CommandFailure D) (Option (Payload A F)) → VerbResult A F
  | .error failure => .failed failure.code failure.message
  | .ok payload =>
    match payload.bind Payload.paneId, payload.bind Payload.windowId with
    | some paneId, some windowId => .ok (some paneId) (some windowId) none none
    | none, none =>
      .ok none none (payload.bind Payload.applyTemplate) (payload.bind Payload.frozenTemplate)
    | _, _ =>
      -- one id alone breaks the contract of the session proxy
      .failed "verb.no-effect-ids"
        ("command.response ok=true but payload had only one of paneId/windowId: " ++
          stringify payload)

def captureOutcome : Except (CommandFailure D) (Option (Payload A F)) → Outcome A F D
  | .ok payload =>
    match payload.bind Payload.text with
    | some text => .text text
    | none =>
      .rejected (.error
        ("tmuxcc: pane.capture — response ok=true but payload.text was absent: " ++
          stringify payload))
  | .error failure =>
    .rejected (.command
      { failure with message := "tmuxcc: pane.capture — " ++ failure.message })

def outcome (kind : Kind) (msg : CommandResponse A F D) : Outcome A F D :=
  match kind with
  | .verb => .verb (verbResult stringify msg.result)
  | .capture => captureOutcome stringify msg.result

end

/-! ## State -/

/-- An entry of `pendingVerbs` or of `pendingCaptures`: a promise is known by the sequence
number of its request. -/
structure Deferred where
  correlationId : String
  promise : Nat
deriving DecidableEq, Repr

structure PendingResize where
  paneId : PaneId
  size : Size
deriving DecidableEq, Repr

/-- The calls that send. -/
inductive Caller
  | sendInput
  | resize
  | sendCommand
  | sendVerb
  | sendPaneCapture
  | attachPane
deriving DecidableEq, Repr

/-- What can be seen from outside. -/
inductive Entry (A F D : Type)
  /-- `resizePane` was called, by a client that had not disconnected. -/
  | asked (paneId : PaneId) (size : Size)
  | sent (caller : Caller) (seq : Nat) (message : Message)
  | promised (promise : Nat) (kind : Kind) (correlationId : String)
  /-- A response, with what it settled. -/
  | response (msg : CommandResponse A F D) (settled : List (Nat × Outcome A F D))
  | rejected (promise : Nat) (error : InputError D)
  | disconnected

structure InputApi (A F D : Type) where
  seq : Nat := 1
  disconnected : Bool := false
  pendingVerbs : KeyedMap Deferred.correlationId := .empty
  pendingCaptures : KeyedMap Deferred.correlationId := .empty
  pending : KeyedMap PendingResize.paneId := .empty
  flushScheduled : Bool := false
  /-- The connection is in the state in which `send` does not throw. -/
  ready : Bool := true
  /-- The calls of `flushResizes` in the microtask queue. -/
  microtasks : Nat := 0
  trace : List (Entry A F D) := []

inductive Event (A F D : Type)
  | sendInput (paneId : PaneId) (data : String)
  | resizePane (paneId : PaneId) (size : Size)
  | sendCommand (cmd : WireCommand)
  | sendVerb (cmd : WireCommand)
  | sendPaneCapture (paneId : PaneId)
  | attachPane (paneId : PaneId)
  | flush
  | microtask
  | handleCommandResponse (msg : CommandResponse A F D)
  | rejectAllPending (reason : String)
  | markDisconnected
  | closed

namespace InputApi

variable {A F D : Type} (api : InputApi A F D)

def log (entry : Entry A F D) : InputApi A F D := { api with trace := api.trace ++ [entry] }

def nextSeq : InputApi A F D := { api with seq := api.seq + 1 }

/-- `send` with the next sequence number, and whether it did not throw. -/
def send (caller : Caller) (message : Message) : InputApi A F D × Bool :=
  if api.ready then ((api.nextSeq).log (.sent caller api.seq message), true)
  else (api.nextSeq, false)

/-! ## Resizes -/

/-- The loop of `flushResizes`, up to the first send that throws. -/
def sendResizes : List PendingResize → InputApi A F D → InputApi A F D × Bool
  | [], api => (api, true)
  | resize :: rest, api =>
    match api.send .resize (.resizeRequest resize.paneId resize.size) with
    | (next, true) => sendResizes rest next
    | (next, false) => (next, false)

def flushResizes : InputApi A F D × Bool :=
  match sendResizes api.pending.values { api with flushScheduled := false } with
  | (done, true) => ({ done with pending := .empty }, true)
  | (failed, false) => (failed, false)

def scheduleFlush : InputApi A F D :=
  if api.flushScheduled then api
  else { api with flushScheduled := true, microtasks := api.microtasks + 1 }

def resizePane (coalesce : Bool) (paneId : PaneId) (size : Size) : InputApi A F D :=
  if api.disconnected then api
  else
    let asked := api.log (.asked paneId size)
    if coalesce then { asked with pending := asked.pending.set ⟨paneId, size⟩ }.scheduleFlush
    else (asked.send .resize (.resizeRequest paneId size)).1

def flush (coalesce : Bool) : InputApi A F D :=
  if coalesce ∧ api.pending.values ≠ [] then api.flushResizes.1 else api

/-! ## Messages that are sent at once -/

def sendInput (paneId : PaneId) (data : String) : InputApi A F D :=
  (api.send .sendInput (.input paneId data)).1

def attachPane (paneId : PaneId) : InputApi A F D :=
  (api.send .attachPane (.paneAttach paneId)).1

def sendCommand (cmd : WireCommand) : InputApi A F D :=
  match if api.pending.values ≠ [] then api.flushResizes else (api, true) with
  | (flushed, true) =>
    (flushed.send .sendCommand (.commandRequest flushed.seq.repr cmd)).1
  | (failed, false) => failed

/-- The text of the error of `send` on a closed connection. -/
def notReady : InputError D :=
  .error "SessionProxyConnection.send() called in state \"closed\"; must be \"ready\""

def sendVerb (cmd : WireCommand) : InputApi A F D :=
  let correlationId := api.seq.repr
  let waiting := { api.log (.promised api.seq .verb correlationId) with
    pendingVerbs := api.pendingVerbs.set ⟨correlationId, api.seq⟩ }
  match waiting.send .sendVerb (.commandRequest correlationId cmd) with
  | (sent, true) => sent
  | (failed, false) =>
    { failed with pendingVerbs := failed.pendingVerbs.delete correlationId }.log
      (.rejected api.seq notReady)

def sendPaneCapture (paneId : PaneId) : InputApi A F D :=
  let correlationId := api.seq.repr
  let waiting := { api.log (.promised api.seq .capture correlationId) with
    pendingCaptures := api.pendingCaptures.set ⟨correlationId, api.seq⟩ }
  match waiting.send .sendPaneCapture (.commandRequest correlationId (.paneCapture paneId)) with
  | (sent, true) => sent
  | (failed, false) =>
    { failed with pendingCaptures := failed.pendingCaptures.delete correlationId }.log
      (.rejected api.seq notReady)

/-! ## Responses and the end -/

def handleCommandResponse (stringify : Option (Payload A F) → String)
    (msg : CommandResponse A F D) : InputApi A F D :=
  match api.pendingCaptures.get? msg.correlationId with
  | some deferred =>
    { api with pendingCaptures := api.pendingCaptures.delete msg.correlationId }.log
      (.response msg [(deferred.promise, outcome stringify .capture msg)])
  | none =>
    match api.pendingVerbs.get? msg.correlationId with
    | some deferred =>
      { api with pendingVerbs := api.pendingVerbs.delete msg.correlationId }.log
        (.response msg [(deferred.promise, outcome stringify .verb msg)])
    | none => api.log (.response msg [])

def rejectAll (error : InputError D) (deferreds : List Deferred) : InputApi A F D :=
  { api with trace := api.trace ++ deferreds.map fun d => .rejected d.promise error }

def rejectAllPending (reason : String) : InputApi A F D :=
  { (api.rejectAll (.error reason) api.pendingVerbs.values).rejectAll (.error reason)
      api.pendingCaptures.values with
    pendingVerbs := .empty
    pendingCaptures := .empty }

def markDisconnected : InputApi A F D :=
  { api.log .disconnected with
    disconnected := true
    pending := .empty
    flushScheduled := false }

/-! ## Steps -/

variable (coalesce : Bool) (stringify : Option (Payload A F) → String)

def step (api : InputApi A F D) : Event A F D → Option (InputApi A F D)
  | .sendInput paneId data => some (api.sendInput paneId data)
  | .resizePane paneId size => some (api.resizePane coalesce paneId size)
  | .sendCommand cmd => some (api.sendCommand cmd)
  | .sendVerb cmd => some (api.sendVerb cmd)
  | .sendPaneCapture paneId => some (api.sendPaneCapture paneId)
  | .attachPane paneId => some (api.attachPane paneId)
  | .flush => some (api.flush coalesce)
  | .microtask =>
    if api.microtasks = 0 then none
    else some { api with microtasks := api.microtasks - 1 }.flushResizes.1
  | .handleCommandResponse msg => some (api.handleCommandResponse stringify msg)
  | .rejectAllPending reason => some (api.rejectAllPending reason)
  | .markDisconnected => some api.markDisconnected
  | .closed => some { api with ready := false }

end InputApi

/-! ## What the trace promises -/

section

variable {A F D : Type}

/-- The size a pane was last asked to have, while no request with it is on the wire. -/
def oweStep (paneId : PaneId) (owed : Option Size) : Entry A F D → Option Size
  | .asked p size => if p = paneId then some size else owed
  | .sent _ _ (.resizeRequest p _) => if p = paneId then none else owed
  | .disconnected => none
  | _ => owed

def owes (trace : List (Entry A F D)) (paneId : PaneId) : Option Size :=
  trace.foldl (oweStep paneId) none

/-- The promises of the requests with a correlation id that are not settled. -/
def awaitStep (correlationId : String) (waiting : List (Nat × Kind)) :
    Entry A F D → List (Nat × Kind)
  | .promised promise kind id =>
    if id = correlationId then waiting ++ [(promise, kind)] else waiting
  | .response _ settled => waiting.filter fun w => w.1 ∉ settled.map Prod.fst
  | .rejected promise _ => waiting.filter fun w => w.1 ≠ promise
  | _ => waiting

def awaiting (trace : List (Entry A F D)) (correlationId : String) : List (Nat × Kind) :=
  trace.foldl (awaitStep correlationId) []

/-- The number that a request or a promise has. -/
def Entry.number : Entry A F D → Option Nat
  | .sent _ seq _ => some seq
  | _ => none

/-- An entry keeps the promises of the API about the trace before it. -/
def Allowed (stringify : Option (Payload A F) → String) (trace : List (Entry A F D)) :
    Entry A F D → Prop
  | .sent caller seq message =>
    -- sequence numbers grow, and a correlation id is the number of its request
    (∀ earlier ∈ trace.filterMap Entry.number, earlier < seq) ∧
      (∀ id command, message = .commandRequest id command → id = seq.repr) ∧
      -- what is sent of the resizes is the last size, and not after the end
      (∀ paneId size, message = .resizeRequest paneId size →
        owes trace paneId = some size ∧ ∀ entry ∈ trace, entry ≠ .disconnected) ∧
      -- a command comes after the resizes that were asked for before
      (caller = .sendCommand ∨ caller = .sendVerb → ∀ paneId, owes trace paneId = none)
  | .promised promise _ id => id = promise.repr
  | .response msg settled =>
    settled = (awaiting trace msg.correlationId).map
        (fun w => (w.1, outcome stringify w.2 msg)) ∧
      (awaiting trace msg.correlationId).length ≤ 1
  | .rejected promise _ => ∃ id kind, (promise, kind) ∈ awaiting trace id
  | _ => True

def Lawful (stringify : Option (Payload A F) → String) (trace : List (Entry A F D)) : Prop :=
  ∀ before entry after, trace = before ++ entry :: after → Allowed stringify before entry

/-- The trace is lawful, and over a connection that is ready no size is held back when the
microtasks have run. -/
structure Good (stringify : Option (Payload A F) → String) (api : InputApi A F D) : Prop where
  lawful : Lawful stringify api.trace
  flushed : api.ready = true → api.microtasks = 0 → ∀ paneId, owes api.trace paneId = none

/-- No verb is sent while a resize waits. -/
def Clear (api : InputApi A F D) : Event A F D → Prop
  | .sendVerb _ => api.ready = true → api.pending.values = []
  | _ => True

/-! ## Traces -/

variable {stringify : Option (Payload A F) → String} {trace : List (Entry A F D)}
  {entry : Entry A F D}

theorem lawful_nil : Lawful stringify ([] : List (Entry A F D)) := by
  intro before entry after heq
  exact absurd heq.symm (List.append_ne_nil_of_right_ne_nil _ (List.cons_ne_nil _ _))

theorem lawful_concat :
    Lawful stringify (trace ++ [entry]) ↔
      Lawful stringify trace ∧ Allowed stringify trace entry := by
  constructor
  · intro h
    refine ⟨fun before e after heq => h before e (after ++ [entry]) ?_, h trace entry [] rfl⟩
    rw [heq, List.append_assoc, List.cons_append]
  · rintro ⟨hlawful, hallowed⟩ before e after heq
    rcases List.eq_nil_or_concat after with rfl | ⟨init, last, rfl⟩
    · obtain ⟨rfl, hlast⟩ := List.append_inj' heq rfl
      cases hlast
      exact hallowed
    · rw [List.concat_eq_append, ← List.cons_append, ← List.append_assoc] at heq
      obtain ⟨rfl, -⟩ := List.append_inj' heq rfl
      exact hlawful before e init rfl

theorem owes_concat (paneId : PaneId) :
    owes (trace ++ [entry]) paneId = oweStep paneId (owes trace paneId) entry := by
  rw [owes, List.foldl_append]
  rfl

theorem awaiting_concat (id : String) :
    awaiting (trace ++ [entry]) id = awaitStep id (awaiting trace id) entry := by
  rw [awaiting, List.foldl_append]
  rfl

theorem mem_numbers_concat {n : Nat} :
    n ∈ (trace ++ [entry]).filterMap Entry.number ↔
      n ∈ trace.filterMap Entry.number ∨ entry.number = some n := by
  rw [List.filterMap_append, List.mem_append, List.mem_filterMap (l := [entry])]
  simp

/-! ## The state and the trace -/

/-- The maps of the API hold what the trace says is owed and awaited. -/
structure Tracks (stringify : Option (Payload A F) → String) (api : InputApi A F D) : Prop where
  lawful : Lawful stringify api.trace
  numbers : ∀ n ∈ api.trace.filterMap Entry.number, n < api.seq
  resizes : api.ready = true → ∀ paneId,
    (api.pending.get? paneId).map PendingResize.size = owes api.trace paneId
  ended : ∀ entry ∈ api.trace, entry = .disconnected → api.disconnected = true
  dropped : api.disconnected = true → api.pending.values = []
  waiting : ∀ id, awaiting api.trace id =
    ((api.pendingVerbs.get? id).map fun d => (d.promise, Kind.verb)).toList ++
      ((api.pendingCaptures.get? id).map fun d => (d.promise, Kind.capture)).toList
  apart : ∀ id, api.pendingVerbs.get? id = none ∨ api.pendingCaptures.get? id = none

/-- The promises that wait are those of earlier requests, under the numbers of these. -/
def Named (api : InputApi A F D) : Prop :=
  ∀ d, d ∈ api.pendingVerbs.values ∨ d ∈ api.pendingCaptures.values →
    d.correlationId = d.promise.repr ∧ d.promise < api.seq

/-- A size that waits is going to be sent, and none waits without coalescing. -/
structure Scheduled (coalesce : Bool) (api : InputApi A F D) : Prop where
  immediate : coalesce = false → api.pending.values = []
  scheduled : api.ready = true → api.pending.values ≠ [] → api.flushScheduled = true
  queued : api.flushScheduled = true → 0 < api.microtasks

variable {api : InputApi A F D}

theorem Tracks.good {coalesce : Bool} (h : Tracks stringify api)
    (hscheduled : Scheduled coalesce api) :
    Good stringify api where
  lawful := h.lawful
  flushed hready hnone paneId := by
    have hempty : api.pending.values = [] := by
      by_contra hsome
      have hqueued := hscheduled.queued (hscheduled.scheduled hready hsome)
      rw [hnone] at hqueued
      exact absurd hqueued (Nat.lt_irrefl 0)
    rw [← h.resizes hready paneId, KeyedMap.get?, hempty]
    rfl

/-! ## Sends -/

/-- What a send that is not of a command needs. -/
theorem Tracks.sent (h : Tracks stringify api) (hready : api.ready = true) {caller : Caller}
    {message : Message}
    (hid : ∀ id command, message = .commandRequest id command → id = api.seq.repr)
    (hresize : ∀ paneId size, message ≠ .resizeRequest paneId size)
    (hcommand : caller = .sendCommand ∨ caller = .sendVerb →
      ∀ paneId, owes api.trace paneId = none) :
    Tracks stringify ((api.nextSeq).log (.sent caller api.seq message)) where
  lawful := by
    refine lawful_concat.mpr ⟨h.lawful, h.numbers, hid, fun paneId size heq => ?_, hcommand⟩
    exact absurd heq (hresize paneId size)
  numbers n hn := by
    rcases mem_numbers_concat.mp hn with hold | hnew
    · exact Nat.lt_succ_of_lt (h.numbers n hold)
    · rw [← Option.some.inj hnew]
      exact Nat.lt_succ_self _
  resizes _ paneId := by
    refine (h.resizes hready paneId).trans ?_
    show _ = owes (api.trace ++ [_]) paneId
    rw [owes_concat]
    cases message with
    | resizeRequest p size => exact absurd rfl (hresize p size)
    | input => rfl
    | commandRequest => rfl
    | paneAttach => rfl
  ended entry hentry heq := by
    rcases List.mem_append.mp hentry with hold | hnew
    · exact h.ended entry hold heq
    · rw [List.mem_singleton.mp hnew] at heq
      cases heq
  dropped := h.dropped
  waiting id := by
    refine Eq.trans ?_ (h.waiting id)
    exact awaiting_concat id
  apart := h.apart

/-- A send that throws has used up a number. -/
theorem Tracks.nextSeq (h : Tracks stringify api) : Tracks stringify api.nextSeq where
  lawful := h.lawful
  numbers n hn := Nat.lt_succ_of_lt (h.numbers n hn)
  resizes := h.resizes
  ended := h.ended
  dropped := h.dropped
  waiting := h.waiting
  apart := h.apart

theorem Tracks.send (h : Tracks stringify api) {caller : Caller} {message : Message}
    (hid : ∀ id command, message = .commandRequest id command → id = api.seq.repr)
    (hresize : ∀ paneId size, message ≠ .resizeRequest paneId size)
    (hcommand : api.ready = true → caller = .sendCommand ∨ caller = .sendVerb →
      ∀ paneId, owes api.trace paneId = none) :
    Tracks stringify (api.send caller message).1 := by
  unfold InputApi.send
  split
  · next hready => exact h.sent hready hid hresize (hcommand hready)
  · exact h.nextSeq

/-! ## Flushes -/

/-- The state in the loop of `flushResizes`: what is still to be sent is what is owed. -/
structure Flushing (stringify : Option (Payload A F) → String) (rest : List PendingResize)
    (api : InputApi A F D) : Prop where
  lawful : Lawful stringify api.trace
  numbers : ∀ n ∈ api.trace.filterMap Entry.number, n < api.seq
  resizes : api.ready = true → ∀ paneId,
    (rest.find? fun r => r.paneId = paneId).map PendingResize.size = owes api.trace paneId
  notEnded : rest ≠ [] → ∀ entry ∈ api.trace, entry ≠ .disconnected

/-- The loop changes the trace and the counter, and nobody waits for what it sends. -/
structure OnlySends (api api' : InputApi A F D) : Prop where
  eq : api' = { api with seq := api'.seq, trace := api'.trace }
  seq : api.seq ≤ api'.seq
  awaiting : ∀ id, awaiting api'.trace id = awaiting api.trace id
  ended : ∀ entry ∈ api'.trace, entry = .disconnected → entry ∈ api.trace

theorem OnlySends.refl (api : InputApi A F D) : OnlySends api api :=
  ⟨rfl, Nat.le_refl _, fun _ => rfl, fun _ hentry _ => hentry⟩

theorem OnlySends.trans {a b c : InputApi A F D} (h : OnlySends a b) (h' : OnlySends b c) :
    OnlySends a c := by
  refine ⟨?_, h.seq.trans h'.seq, fun id => (h'.awaiting id).trans (h.awaiting id),
    fun entry hentry heq => h.ended entry (h'.ended entry hentry heq) heq⟩
  rw [h'.eq, h.eq]

theorem Flushing.sent {resize : PendingResize} {rest : List PendingResize}
    (h : Flushing stringify (resize :: rest) api) (hready : api.ready = true)
    (hnodup : ((resize :: rest).map PendingResize.paneId).Nodup) :
    Flushing stringify rest ((api.nextSeq).log
      (.sent .resize api.seq (.resizeRequest resize.paneId resize.size))) where
  lawful := by
    refine lawful_concat.mpr ⟨h.lawful, h.numbers, fun id command heq => (by cases heq),
      fun paneId size heq => ?_, fun hcaller => ?_⟩
    rotate_left
    · rcases hcaller with heq | heq <;> cases heq
    cases heq
    refine ⟨?_, h.notEnded (List.cons_ne_nil _ _)⟩
    rw [InputApi.nextSeq, ← h.resizes hready, List.find?_cons_of_pos (by simp)]
    rfl
  numbers n hn := by
    rcases mem_numbers_concat.mp hn with hold | hnew
    · exact Nat.lt_succ_of_lt (h.numbers n hold)
    · rw [← Option.some.inj hnew]
      exact Nat.lt_succ_self _
  resizes _ paneId := by
    show _ = owes (api.trace ++ [_]) paneId
    rw [owes_concat, oweStep]
    split
    · next heq =>
      rw [List.map_cons, List.nodup_cons] at hnodup
      rw [List.find?_eq_none.mpr fun r hr => ?_]
      · rfl
      · rw [decide_eq_true_eq, ← heq]
        exact fun hsame => hnodup.1 (hsame ▸ List.mem_map_of_mem hr)
    · next hne =>
      rw [← h.resizes hready, List.find?_cons_of_neg (by simpa using hne)]
  notEnded hrest entry hentry := by
    rcases List.mem_append.mp hentry with hold | hnew
    · exact h.notEnded (List.cons_ne_nil _ _) entry hold
    · rw [List.mem_singleton.mp hnew]
      exact fun heq => by cases heq

theorem Flushing.run {rest : List PendingResize} (h : Flushing stringify rest api)
    (hnodup : (rest.map PendingResize.paneId).Nodup) :
    OnlySends api (InputApi.sendResizes rest api).1 ∧
      Lawful stringify (InputApi.sendResizes rest api).1.trace ∧
      (∀ n ∈ (InputApi.sendResizes rest api).1.trace.filterMap Entry.number,
        n < (InputApi.sendResizes rest api).1.seq) ∧
      (api.ready = true → (InputApi.sendResizes rest api).2 = true ∧
        ∀ paneId, owes (InputApi.sendResizes rest api).1.trace paneId = none) := by
  induction rest generalizing api with
  | nil =>
    refine ⟨.refl api, h.lawful, h.numbers, fun hready => ⟨rfl, fun paneId => ?_⟩⟩
    exact (h.resizes hready paneId).symm
  | cons resize rest ih =>
    rw [InputApi.sendResizes, InputApi.send]
    cases hready : api.ready with
    | false =>
      rw [if_neg Bool.false_ne_true]
      refine ⟨⟨rfl, Nat.le_succ _, fun _ => rfl, fun _ hentry _ => hentry⟩, h.lawful,
        fun n hn => Nat.lt_succ_of_lt (h.numbers n hn), fun hfalse => by cases hfalse⟩
    | true =>
      rw [if_pos rfl]
      dsimp only
      obtain ⟨hsends, hlawful, hnumbers, hdone⟩ := ih (h.sent hready hnodup) hnodup.of_cons
      refine ⟨.trans ⟨rfl, Nat.le_succ _, fun id => awaiting_concat id, ?_⟩ hsends, hlawful,
        hnumbers, fun _ => hdone hready⟩
      intro entry hentry heq
      rcases List.mem_append.mp hentry with hold | hnew
      · exact hold
      · rw [List.mem_singleton.mp hnew] at heq
        cases heq

/-- A flush over a connection that is ready leaves nothing owed. -/
theorem tracks_flushResizes (h : Tracks stringify api) :
    Tracks stringify api.flushResizes.1 ∧ OnlySends { api with flushScheduled := false }
        { api.flushResizes.1 with pending := api.pending } ∧
      (api.ready = true → api.flushResizes.1.pending.values = []) ∧
      (api.flushResizes.2 = true → api.flushResizes.1.pending.values = []) ∧
      (api.pending.values = [] → api.flushResizes.1.pending.values = []) := by
  have hflushing : Flushing stringify api.pending.values { api with flushScheduled := false } := by
    refine ⟨h.lawful, h.numbers, h.resizes, fun hsome entry hentry heq => ?_⟩
    exact hsome (h.dropped (h.ended entry hentry heq))
  obtain ⟨hsends, hlawful, hnumbers, hdone⟩ := hflushing.run api.pending.nodup
  unfold InputApi.flushResizes
  generalize InputApi.sendResizes api.pending.values { api with flushScheduled := false } = result
    at hsends hlawful hnumbers hdone ⊢
  obtain ⟨after, sent⟩ := result
  dsimp only at hsends hlawful hnumbers hdone
  have hdisconnected : after.disconnected = api.disconnected := by rw [hsends.eq]
  have hready : after.ready = api.ready := by rw [hsends.eq]
  have hpending : after.pending = api.pending := by rw [hsends.eq]
  have hverbs : after.pendingVerbs = api.pendingVerbs := by rw [hsends.eq]
  have hcaptures : after.pendingCaptures = api.pendingCaptures := by rw [hsends.eq]
  have htracks : ∀ pending : KeyedMap PendingResize.paneId,
      (api.ready = true → pending.values = []) → (pending.values ≠ [] → pending = api.pending) →
      Tracks stringify { after with pending } := by
    intro pending hempty hsame
    refine ⟨hlawful, hnumbers, fun hopen paneId => ?_, fun entry hentry heq => ?_, fun hend => ?_,
      fun id => ?_, ?_⟩
    · have hopen' : api.ready = true := hready ▸ hopen
      rw [(hdone hopen').2 paneId, KeyedMap.get?, hempty hopen']
      rfl
    · exact hdisconnected.trans (h.ended entry (hsends.ended entry hentry heq) heq)
    · by_contra hsome
      refine hsome ?_
      rw [hsame hsome]
      exact h.dropped (hdisconnected ▸ hend)
    · show awaiting after.trace id = _
      rw [hsends.awaiting, hverbs, hcaptures]
      exact h.waiting id
    · rw [hverbs, hcaptures]
      exact h.apart
  cases sent with
  | true =>
    refine ⟨htracks .empty (fun _ => rfl) (fun hne => absurd rfl hne), ?_, fun _ => rfl,
      fun _ => rfl, fun _ => rfl⟩
    exact ⟨by conv_lhs => rw [hsends.eq], hsends.seq, hsends.awaiting, hsends.ended⟩
  | false =>
    have hnot : ¬api.ready = true := fun hopen => by cases (hdone hopen).1
    refine ⟨?_, ?_, fun hopen => absurd hopen hnot, fun hfalse => (by cases hfalse),
      fun hnone => hpending ▸ hnone⟩
    · exact htracks after.pending (fun hopen => absurd hopen hnot) fun _ => hpending
    · exact ⟨by conv_lhs => rw [hsends.eq], hsends.seq, hsends.awaiting, hsends.ended⟩

/-! ## The calls -/

theorem Tracks.asked (h : Tracks stringify api) (hopen : ¬api.disconnected = true)
    (paneId : PaneId) (size : Size) :
    Tracks stringify { api.log (.asked paneId size) with
      pending := api.pending.set ⟨paneId, size⟩ } where
  lawful := lawful_concat.mpr ⟨h.lawful, trivial⟩
  numbers n hn := by
    rcases mem_numbers_concat.mp hn with hold | hnew
    · exact h.numbers n hold
    · cases hnew
  resizes hready q := by
    show ((api.pending.set _).get? q).map _ = owes (api.trace ++ [_]) q
    rw [KeyedMap.get?_set, owes_concat, oweStep]
    split
    · rfl
    · exact h.resizes hready q
  ended entry hentry heq := by
    rcases List.mem_append.mp hentry with hold | hnew
    · exact h.ended entry hold heq
    · rw [List.mem_singleton.mp hnew] at heq
      cases heq
  dropped hend := absurd hend hopen
  waiting id := (awaiting_concat id).trans (h.waiting id)
  apart := h.apart

theorem Tracks.flags (h : Tracks stringify api) (flushScheduled : Bool) (microtasks : Nat) :
    Tracks stringify { api with flushScheduled, microtasks } :=
  ⟨h.lawful, h.numbers, h.resizes, h.ended, h.dropped, h.waiting, h.apart⟩

/-- A resize that is sent at once: nothing is buffered without coalescing. -/
theorem Tracks.resized (h : Tracks stringify api) (hopen : ¬api.disconnected = true)
    (hempty : api.pending.values = []) (paneId : PaneId) (size : Size) :
    Tracks stringify
      ((api.log (.asked paneId size)).send .resize (.resizeRequest paneId size)).1 := by
  have hnone : ∀ q, api.pending.get? q = none := fun q => by rw [KeyedMap.get?, hempty]; rfl
  have hflushing : Flushing stringify [⟨paneId, size⟩] (api.log (.asked paneId size)) := by
    refine ⟨lawful_concat.mpr ⟨h.lawful, trivial⟩, fun n hn => ?_, fun hready q => ?_,
      fun _ entry hentry heq => ?_⟩
    · rcases mem_numbers_concat.mp hn with hold | hnew
      · exact h.numbers n hold
      · cases hnew
    · show _ = owes (api.trace ++ [_]) q
      rw [owes_concat, oweStep, ← h.resizes hready q, hnone, List.find?_singleton]
      simp only [decide_eq_true_eq]
      split <;> rfl
    · rcases List.mem_append.mp hentry with hold | hnew
      · exact hopen (h.ended entry hold heq)
      · rw [List.mem_singleton.mp hnew] at heq
        cases heq
  have hnotEnded := hflushing.notEnded (List.cons_ne_nil _ _)
  unfold InputApi.send
  split
  · next hready =>
    have hsent := hflushing.sent hready (List.nodup_singleton _)
    refine ⟨hsent.lawful, hsent.numbers, fun _ q => ?_, fun entry hentry heq => ?_, h.dropped,
      fun id => ?_, h.apart⟩
    · rw [← hsent.resizes hready q]
      exact congrArg _ (hnone q)
    · rcases List.mem_append.mp hentry with hold | hnew
      · exact absurd heq (hnotEnded entry hold)
      · rw [List.mem_singleton.mp hnew] at heq
        cases heq
    · exact (awaiting_concat id).trans ((awaiting_concat id).trans (h.waiting id))
  · next hclosed =>
    exact ⟨hflushing.lawful, fun n hn => Nat.lt_succ_of_lt (hflushing.numbers n hn),
      fun hready => absurd hready hclosed,
      fun entry hentry heq => absurd heq (hnotEnded entry hentry), h.dropped,
      fun id => (awaiting_concat id).trans (h.waiting id), h.apart⟩

theorem tracks_sendCommand (h : Tracks stringify api) (cmd : WireCommand) :
    Tracks stringify (api.sendCommand cmd) := by
  obtain ⟨hflushed, -, -, hempty, -⟩ := tracks_flushResizes h
  unfold InputApi.sendCommand
  have hsend : ∀ flushed : InputApi A F D, Tracks stringify flushed →
      flushed.pending.values = [] →
        Tracks stringify (flushed.send .sendCommand (.commandRequest flushed.seq.repr cmd)).1 := by
    intro flushed hflushed hempty
    refine hflushed.send (fun id command heq => ?_) (fun paneId size heq => by cases heq)
      fun hready _ paneId => ?_
    · cases heq
      rfl
    · rw [← hflushed.resizes hready, KeyedMap.get?, hempty]
      rfl
  split
  · next flushed heq =>
    split at heq
    · rw [heq] at hflushed hempty
      exact hsend flushed hflushed (hempty rfl)
    · next hnone =>
      cases heq
      exact hsend api h (not_not.mp hnone)
  · next failed heq =>
    split at heq
    · rw [heq] at hflushed
      exact hflushed
    · cases heq

/-! ## Promises -/

theorem get?_repr_seq {m : KeyedMap Deferred.correlationId}
    (h : ∀ d ∈ m.values, d.correlationId = d.promise.repr ∧ d.promise < api.seq) :
    m.get? api.seq.repr = none := by
  refine KeyedMap.get?_eq_none.mpr fun d hd heq => ?_
  obtain ⟨hid, hlt⟩ := h d hd
  rw [hid, repr_inj] at heq
  exact absurd heq hlt.ne

/-- A promise is made before its request is sent. -/
theorem Tracks.promised (h : Tracks stringify api) (hnamed : Named api) :
    Tracks stringify { api.log (.promised api.seq .verb api.seq.repr) with
        pendingVerbs := api.pendingVerbs.set ⟨api.seq.repr, api.seq⟩ } ∧
      Tracks stringify { api.log (.promised api.seq .capture api.seq.repr) with
        pendingCaptures := api.pendingCaptures.set ⟨api.seq.repr, api.seq⟩ } := by
  have hverbs : api.pendingVerbs.get? api.seq.repr = none :=
    get?_repr_seq fun d hd => hnamed d (Or.inl hd)
  have hcaptures : api.pendingCaptures.get? api.seq.repr = none :=
    get?_repr_seq fun d hd => hnamed d (Or.inr hd)
  have hnumbers : ∀ kind, ∀ n ∈
      (api.trace ++ [Entry.promised api.seq kind api.seq.repr]).filterMap Entry.number,
        n < api.seq := by
    intro kind n hn
    rcases mem_numbers_concat.mp hn with hold | hnew
    · exact h.numbers n hold
    · cases hnew
  have hended : ∀ kind, ∀ entry ∈ api.trace ++ [Entry.promised api.seq kind api.seq.repr],
      entry = .disconnected → api.disconnected = true := by
    intro kind entry hentry heq
    rcases List.mem_append.mp hentry with hold | hnew
    · exact h.ended entry hold heq
    · rw [List.mem_singleton.mp hnew] at heq
      cases heq
  have hlawful : ∀ kind, Lawful stringify
      (api.trace ++ [.promised api.seq kind api.seq.repr]) := fun kind =>
    lawful_concat.mpr ⟨h.lawful, rfl⟩
  have hresizes : ∀ kind, api.ready = true → ∀ p, (api.pending.get? p).map PendingResize.size =
      owes (api.trace ++ [.promised api.seq kind api.seq.repr]) p := by
    intro kind hready p
    rw [owes_concat]
    exact h.resizes hready p
  constructor
  · refine ⟨hlawful .verb, hnumbers .verb, hresizes .verb, hended .verb, h.dropped, fun id => ?_,
      fun id => ?_⟩
    · refine (awaiting_concat id).trans ?_
      show awaitStep id _ _ = (((api.pendingVerbs.set _).get? id).map _).toList ++
        ((api.pendingCaptures.get? id).map _).toList
      rw [KeyedMap.get?_set, awaitStep, h.waiting]
      split
      · next heq =>
        subst heq
        rw [hverbs, hcaptures]
        rfl
      · rfl
    · show (api.pendingVerbs.set _).get? id = none ∨ _
      rw [KeyedMap.get?_set]
      split
      · next heq => exact Or.inr (heq ▸ hcaptures)
      · exact h.apart id
  · refine ⟨hlawful .capture, hnumbers .capture, hresizes .capture, hended .capture, h.dropped,
      fun id => ?_, fun id => ?_⟩
    · refine (awaiting_concat id).trans ?_
      show awaitStep id _ _ = _ ++ (((api.pendingCaptures.set _).get? id).map _).toList
      rw [KeyedMap.get?_set, awaitStep, h.waiting]
      split
      · next heq =>
        subst heq
        rw [hcaptures, List.append_assoc]
        rfl
      · rfl
    · show _ ∨ (api.pendingCaptures.set _).get? id = none
      rw [KeyedMap.get?_set]
      split
      · next heq => exact Or.inl (heq ▸ hverbs)
      · exact h.apart id

/-- What waits under a correlation id. -/
def waitingIn (verbs captures : KeyedMap Deferred.correlationId) (id : String) :
    List (Nat × Kind) :=
  ((verbs.get? id).map fun d => (d.promise, Kind.verb)).toList ++
    ((captures.get? id).map fun d => (d.promise, Kind.capture)).toList

/-- A promise and its correlation id are taken out together. -/
theorem filter_waitingIn {verbs captures : KeyedMap Deferred.correlationId}
    (hids : ∀ d, d ∈ verbs.values ∨ d ∈ captures.values → d.correlationId = d.promise.repr)
    (n : Nat) (id : String) :
    (waitingIn verbs captures id).filter (fun w => w.1 ≠ n) =
      waitingIn (verbs.delete n.repr) (captures.delete n.repr) id := by
  have hone : ∀ (m : KeyedMap Deferred.correlationId) (kind : Kind),
      (∀ d ∈ m.values, d.correlationId = d.promise.repr) →
        ((m.get? id).map fun d => (d.promise, kind)).toList.filter (fun w => w.1 ≠ n) =
          (((m.delete n.repr).get? id).map fun d => (d.promise, kind)).toList := by
    intro m kind hm
    rw [KeyedMap.get?_delete]
    cases hget : m.get? id with
    | none => split <;> rfl
    | some d =>
      have hd := KeyedMap.get?_eq_some.mp hget
      have hkey : d.promise = n ↔ id = n.repr := by
        rw [← hd.2, hm d hd.1, repr_inj]
      simp only [Option.map_some, Option.toList_some]
      rw [List.filter_singleton]
      by_cases hn : d.promise = n
      · simp [hn, hkey.mp hn]
      · simp [hn, mt hkey.mpr hn]
  rw [waitingIn, List.filter_append, hone verbs .verb fun d hd => hids d (Or.inl hd),
    hone captures .capture fun d hd => hids d (Or.inr hd)]
  rfl

theorem waitingIn_delete_verb {verbs captures : KeyedMap Deferred.correlationId} {key : String}
    (hnone : captures.get? key = none) (id : String) :
    waitingIn (verbs.delete key) (captures.delete key) id =
      waitingIn (verbs.delete key) captures id := by
  rw [waitingIn, waitingIn, KeyedMap.get?_delete captures]
  split
  · next heq => rw [heq, hnone]
  · rfl

theorem waitingIn_delete_capture {verbs captures : KeyedMap Deferred.correlationId} {key : String}
    (hnone : verbs.get? key = none) (id : String) :
    waitingIn (verbs.delete key) (captures.delete key) id =
      waitingIn verbs (captures.delete key) id := by
  rw [waitingIn, waitingIn, KeyedMap.get?_delete verbs]
  split
  · next heq => rw [heq, hnone]
  · rfl

/-- An entry that only settles promises. -/
theorem Tracks.settled (verbs captures : KeyedMap Deferred.correlationId)
    (h : Tracks stringify api) (hallowed : Allowed stringify api.trace entry)
    (hnumber : entry.number = none) (hend : entry ≠ .disconnected)
    (howes : ∀ p owed, oweStep p owed entry = owed)
    (hwaiting : ∀ id, awaitStep id (awaiting api.trace id) entry = waitingIn verbs captures id)
    (hapart : ∀ id, verbs.get? id = none ∨ captures.get? id = none) :
    Tracks stringify ({ api with pendingVerbs := verbs, pendingCaptures := captures }.log entry)
      where
  lawful := lawful_concat.mpr ⟨h.lawful, hallowed⟩
  numbers n hn := by
    rcases mem_numbers_concat.mp hn with hold | hnew
    · exact h.numbers n hold
    · cases hnumber.symm.trans hnew
  resizes hready p := by
    show _ = owes (api.trace ++ [entry]) p
    rw [owes_concat, howes]
    exact h.resizes hready p
  ended e hentry heq := by
    rcases List.mem_append.mp hentry with hold | hnew
    · exact h.ended e hold heq
    · rw [List.mem_singleton.mp hnew] at heq
      exact absurd heq hend
  dropped := h.dropped
  waiting id := (awaiting_concat id).trans (hwaiting id)
  apart := hapart

theorem apart_delete {verbs captures : KeyedMap Deferred.correlationId} (key : String)
    (h : ∀ id, verbs.get? id = none ∨ captures.get? id = none) :
    (∀ id, (verbs.delete key).get? id = none ∨ captures.get? id = none) ∧
      ∀ id, verbs.get? id = none ∨ (captures.delete key).get? id = none := by
  constructor
  · intro id
    rw [KeyedMap.get?_delete]
    refine (h id).imp_left fun hnone => ?_
    rw [hnone, ite_self]
  · intro id
    rw [KeyedMap.get?_delete]
    refine (h id).imp_right fun hnone => ?_
    rw [hnone, ite_self]

/-- The promise of a request that could not be sent is rejected. -/
theorem Tracks.unsent (h : Tracks stringify api) {n : Nat} {error : InputError D}
    (hids : ∀ d, d ∈ api.pendingVerbs.values ∨ d ∈ api.pendingCaptures.values →
      d.correlationId = d.promise.repr) :
    (api.pendingVerbs.get? n.repr = some ⟨n.repr, n⟩ →
      Tracks stringify ({ api with pendingVerbs := api.pendingVerbs.delete n.repr }.log
        (.rejected n error))) ∧
      (api.pendingCaptures.get? n.repr = some ⟨n.repr, n⟩ →
        Tracks stringify ({ api with pendingCaptures := api.pendingCaptures.delete n.repr }.log
          (.rejected n error))) := by
  have hfilter : ∀ id, awaitStep id (awaiting api.trace id) (Entry.rejected n error : Entry A F D) =
      waitingIn (api.pendingVerbs.delete n.repr) (api.pendingCaptures.delete n.repr) id := by
    intro id
    rw [awaitStep, h.waiting]
    exact filter_waitingIn hids n id
  constructor
  · intro hget
    have hother := (h.apart n.repr).resolve_left (by rw [hget]; exact Option.some_ne_none _)
    refine h.settled _ api.pendingCaptures ⟨n.repr, .verb, ?_⟩ rfl
      (fun heq => by cases heq) (fun _ _ => rfl) (fun id => ?_) (apart_delete n.repr h.apart).1
    · rw [h.waiting, hget]
      exact List.mem_cons_self
    · exact (hfilter id).trans (waitingIn_delete_verb hother id)
  · intro hget
    have hother := (h.apart n.repr).resolve_right (by rw [hget]; exact Option.some_ne_none _)
    refine h.settled api.pendingVerbs _ ⟨n.repr, .capture, ?_⟩ rfl
      (fun heq => by cases heq) (fun _ _ => rfl) (fun id => ?_) (apart_delete n.repr h.apart).2
    · rw [h.waiting, hget, hother]
      exact List.mem_cons_self
    · exact (hfilter id).trans (waitingIn_delete_capture hother id)

theorem tracks_sendVerb (h : Tracks stringify api) (hnamed : Named api) (cmd : WireCommand)
    (hclear : api.ready = true → api.pending.values = []) :
    Tracks stringify (api.sendVerb cmd) := by
  have hwaiting := (h.promised hnamed).1
  unfold InputApi.sendVerb
  dsimp only
  split
  · next sent heq =>
    have hsent := congrArg Prod.fst heq
    dsimp only at hsent
    rw [← hsent]
    refine hwaiting.send (fun id command hmessage => ?_) (fun p s hmessage => by cases hmessage)
      fun hready _ p => ?_
    · cases hmessage
      rfl
    · rw [← hwaiting.resizes hready]
      show (api.pending.get? p).map _ = none
      rw [KeyedMap.get?, hclear hready]
      rfl
  · next failed heq =>
    unfold InputApi.send at heq
    split at heq
    · cases heq
    · cases heq
      refine (hwaiting.nextSeq.unsent (n := api.seq) fun d hd => ?_).1 ?_
      · rcases hd with hverb | hcapture
        · rcases KeyedMap.mem_set.mp hverb with rfl | hold
          · rfl
          · exact (hnamed d (Or.inl hold.1)).1
        · exact (hnamed d (Or.inr hcapture)).1
      · show (api.pendingVerbs.set _).get? _ = _
        rw [KeyedMap.get?_set, if_pos rfl]

theorem tracks_sendPaneCapture (h : Tracks stringify api) (hnamed : Named api)
    (paneId : PaneId) : Tracks stringify (api.sendPaneCapture paneId) := by
  have hwaiting := (h.promised hnamed).2
  unfold InputApi.sendPaneCapture
  dsimp only
  split
  · next sent heq =>
    have hsent := congrArg Prod.fst heq
    dsimp only at hsent
    rw [← hsent]
    refine hwaiting.send (fun id command hmessage => ?_) (fun p s hmessage => by cases hmessage)
      fun _ hcaller => ?_
    · cases hmessage
      rfl
    · rcases hcaller with hcaller | hcaller <;> cases hcaller
  · next failed heq =>
    unfold InputApi.send at heq
    split at heq
    · cases heq
    · cases heq
      refine (hwaiting.nextSeq.unsent (n := api.seq) fun d hd => ?_).2 ?_
      · rcases hd with hverb | hcapture
        · exact (hnamed d (Or.inl hverb)).1
        · rcases KeyedMap.mem_set.mp hcapture with rfl | hold
          · rfl
          · exact (hnamed d (Or.inr hold.1)).1
      · show (api.pendingCaptures.set _).get? _ = _
        rw [KeyedMap.get?_set, if_pos rfl]

/-- A response settles the promise of its correlation id, and nothing if there is none. -/
theorem tracks_handleCommandResponse (h : Tracks stringify api) (hnamed : Named api)
    (msg : CommandResponse A F D) : Tracks stringify (api.handleCommandResponse stringify msg) := by
  have hids : ∀ d, d ∈ api.pendingVerbs.values ∨ d ∈ api.pendingCaptures.values →
      d.correlationId = d.promise.repr := fun d hd => (hnamed d hd).1
  have hsettle : ∀ (n : Nat) (o : Outcome A F D) (id : String),
      awaitStep id (awaiting api.trace id) (.response msg [(n, o)]) =
        waitingIn (api.pendingVerbs.delete n.repr) (api.pendingCaptures.delete n.repr) id := by
    intro n o id
    rw [← filter_waitingIn hids n id, waitingIn, ← h.waiting, awaitStep]
    refine List.filter_congr fun w _ => ?_
    simp
  unfold InputApi.handleCommandResponse
  split
  · next d hget =>
    obtain ⟨hmem, hkey⟩ := KeyedMap.get?_eq_some.mp hget
    have hname : msg.correlationId = d.promise.repr := hkey ▸ hids d (Or.inr hmem)
    have hother := (h.apart msg.correlationId).resolve_right
      (by rw [hget]; exact Option.some_ne_none _)
    refine h.settled api.pendingVerbs _ ?_ rfl (fun heq => by cases heq) (fun _ _ => rfl)
      (fun id => ?_) (apart_delete msg.correlationId h.apart).2
    · rw [Allowed, h.waiting, hget, hother]
      exact ⟨rfl, Nat.le_refl 1⟩
    · rw [hsettle, hname, waitingIn_delete_capture (hname ▸ hother)]
  · next hcapture =>
    split
    · next d hget =>
      obtain ⟨hmem, hkey⟩ := KeyedMap.get?_eq_some.mp hget
      have hname : msg.correlationId = d.promise.repr := hkey ▸ hids d (Or.inl hmem)
      refine h.settled _ api.pendingCaptures ?_ rfl (fun heq => by cases heq) (fun _ _ => rfl)
        (fun id => ?_) (apart_delete msg.correlationId h.apart).1
      · rw [Allowed, h.waiting, hget, hcapture]
        exact ⟨rfl, Nat.le_refl 1⟩
      · rw [hsettle, hname, waitingIn_delete_verb (hname ▸ hcapture)]
    · next hverb =>
      refine h.settled api.pendingVerbs api.pendingCaptures ?_ rfl (fun heq => by cases heq)
        (fun _ _ => rfl) (fun id => ?_) h.apart
      · rw [Allowed, h.waiting, hverb, hcapture]
        exact ⟨rfl, Nat.zero_le 1⟩
      · rw [awaitStep, h.waiting]
        exact List.filter_eq_self.mpr fun w _ => by simp

/-- Rejecting several promises, each of which waits. -/
theorem lawful_rejected (error : InputError D) {deferreds : List Deferred}
    (hlawful : Lawful stringify trace)
    (hnodup : (deferreds.map Deferred.promise).Nodup)
    (hwaits : ∀ d ∈ deferreds, ∃ id kind, (d.promise, kind) ∈ awaiting trace id) :
    Lawful stringify (trace ++ deferreds.map fun d => .rejected d.promise error) ∧
      (∀ id, awaiting (trace ++ deferreds.map fun d => .rejected d.promise error) id =
        (awaiting trace id).filter fun w => w.1 ∉ deferreds.map Deferred.promise) ∧
      (∀ p, owes (trace ++ deferreds.map fun d => .rejected d.promise error) p =
        owes trace p) := by
  induction deferreds using List.reverseRecOn with
  | nil =>
    refine ⟨by simpa using hlawful, fun id => ?_, fun p => by simp⟩
    rw [List.map_nil, List.append_nil]
    exact (List.filter_eq_self.mpr fun w _ => by simp).symm
  | append_singleton deferreds last ih =>
    rw [List.map_append, List.map_singleton, List.nodup_append] at hnodup
    obtain ⟨hinit, hawaiting, howes⟩ := ih hnodup.1
      fun d hd => hwaits d (List.mem_append_left _ hd)
    simp only [List.map_append, List.map_singleton, ← List.append_assoc]
    refine ⟨lawful_concat.mpr ⟨hinit, ?_⟩, fun id => ?_, fun p => ?_⟩
    · obtain ⟨id, kind, hmem⟩ := hwaits last (List.mem_append_right _ List.mem_cons_self)
      refine ⟨id, kind, ?_⟩
      rw [hawaiting]
      refine List.mem_filter.mpr ⟨hmem, ?_⟩
      rw [decide_eq_true_eq]
      exact fun hold => hnodup.2.2 _ hold _ List.mem_cons_self rfl
    · rw [awaiting_concat, awaitStep, hawaiting, List.filter_filter]
      refine List.filter_congr fun w _ => ?_
      rw [Bool.eq_iff_iff]
      simp only [Bool.and_eq_true, decide_eq_true_eq, List.mem_append, List.mem_singleton, not_or]
      exact and_comm
    · rw [owes_concat, howes]
      rfl

theorem tracks_rejectAllPending (h : Tracks stringify api) (hnamed : Named api)
    (reason : String) : Tracks stringify (api.rejectAllPending reason) := by
  -- the promises of both maps are rejected one after the other
  let all := api.pendingVerbs.values ++ api.pendingCaptures.values
  have hverb : ∀ d ∈ api.pendingVerbs.values,
      (d.promise, .verb) ∈ awaiting api.trace d.correlationId := by
    intro d hd
    rw [h.waiting, KeyedMap.get?_self hd]
    exact List.mem_cons_self
  have hcapture : ∀ d ∈ api.pendingCaptures.values,
      (d.promise, .capture) ∈ awaiting api.trace d.correlationId := by
    intro d hd
    rw [h.waiting, KeyedMap.get?_self hd]
    exact List.mem_append_right _ List.mem_cons_self
  have hnodup : (all.map Deferred.promise).Nodup := by
    have hkeys : (all.map Deferred.correlationId).Nodup := by
      rw [List.map_append]
      refine List.nodup_append.mpr ⟨api.pendingVerbs.nodup, api.pendingCaptures.nodup, ?_⟩
      rintro _ ha _ hb rfl
      obtain ⟨d, hd, rfl⟩ := List.mem_map.mp ha
      obtain ⟨e, he, heq⟩ := List.mem_map.mp hb
      rcases h.apart d.correlationId with hnone | hnone
      · cases hnone.symm.trans (KeyedMap.get?_self hd)
      · cases (heq ▸ hnone).symm.trans (KeyedMap.get?_self he)
    have hnames : all.map Deferred.correlationId = (all.map Deferred.promise).map Nat.repr := by
      rw [List.map_map]
      exact List.map_congr_left fun d hd => (hnamed d (List.mem_append.mp hd)).1
    rw [hnames] at hkeys
    exact hkeys.of_map
  obtain ⟨hlawful, hawaiting, howes⟩ := lawful_rejected (.error reason) h.lawful hnodup
    fun d hd => by
      rcases List.mem_append.mp hd with hd | hd
      · exact ⟨_, _, hverb d hd⟩
      · exact ⟨_, _, hcapture d hd⟩
  have htrace : (api.rejectAllPending reason).trace =
      api.trace ++ all.map fun d => .rejected d.promise (.error reason) := by
    rw [List.map_append, ← List.append_assoc]
    rfl
  have hrejected : ∀ entry ∈ (api.rejectAllPending reason).trace,
      entry ∈ api.trace ∨ ∃ promise error, entry = .rejected promise error := by
    intro entry hentry
    rw [htrace] at hentry
    refine (List.mem_append.mp hentry).imp_right fun hnew => ?_
    obtain ⟨d, -, rfl⟩ := List.mem_map.mp hnew
    exact ⟨_, _, rfl⟩
  refine ⟨htrace ▸ hlawful, fun n hn => ?_, fun hready p => ?_, fun entry hentry heq => ?_,
    h.dropped, fun id => ?_, fun _ => Or.inl rfl⟩
  · obtain ⟨entry, hentry, hnumber⟩ := List.mem_filterMap.mp hn
    rcases hrejected entry hentry with hold | ⟨promise, error, rfl⟩
    · exact h.numbers n (List.mem_filterMap.mpr ⟨entry, hold, hnumber⟩)
    · cases hnumber
  · rw [htrace, howes]
    exact h.resizes hready p
  · rcases hrejected entry hentry with hold | ⟨promise, error, rfl⟩
    · exact h.ended entry hold heq
    · cases heq
  · rw [htrace, hawaiting, h.waiting]
    refine List.filter_eq_nil_iff.mpr fun w hw => ?_
    rw [decide_eq_true_eq, not_not]
    refine List.mem_map.mpr ?_
    rcases List.mem_append.mp hw with hw | hw
    · obtain ⟨d, hd, rfl⟩ := Option.map_eq_some_iff.mp (Option.mem_toList.mp hw)
      exact ⟨d, List.mem_append_left _ (KeyedMap.get?_eq_some.mp hd).1, rfl⟩
    · obtain ⟨d, hd, rfl⟩ := Option.map_eq_some_iff.mp (Option.mem_toList.mp hw)
      exact ⟨d, List.mem_append_right _ (KeyedMap.get?_eq_some.mp hd).1, rfl⟩

theorem tracks_markDisconnected (h : Tracks stringify api) :
    Tracks stringify api.markDisconnected where
  lawful := lawful_concat.mpr ⟨h.lawful, trivial⟩
  numbers n hn := by
    rcases mem_numbers_concat.mp hn with hold | hnew
    · exact h.numbers n hold
    · cases hnew
  resizes _ p := by
    show _ = owes (api.trace ++ [_]) p
    rw [owes_concat]
    rfl
  ended _ _ _ := rfl
  dropped _ := rfl
  waiting id := (awaiting_concat id).trans (h.waiting id)
  apart := h.apart

/-! ## Steps -/

theorem tracks_step {coalesce : Bool} {api' : InputApi A F D} (h : Tracks stringify api)
    (hnamed : Named api) (himmediate : coalesce = false → api.pending.values = [])
    {event : Event A F D} (hclear : Clear api event)
    (hstep : InputApi.step coalesce stringify api event = some api') : Tracks stringify api' := by
  have hplain : ∀ (caller : Caller) (message : Message),
      (∀ id command, message ≠ .commandRequest id command) →
      (∀ p s, message ≠ .resizeRequest p s) → ¬(caller = .sendCommand ∨ caller = .sendVerb) →
        Tracks stringify (api.send caller message).1 := by
    intro caller message hid hresize hcaller
    exact h.send (fun id command heq => absurd heq (hid id command)) hresize
      fun _ hcommand => absurd hcommand hcaller
  cases event with
  | sendInput paneId data =>
    cases hstep
    exact hplain _ _ (fun _ _ heq => by cases heq) (fun _ _ heq => by cases heq) (by decide)
  | attachPane paneId =>
    cases hstep
    exact hplain _ _ (fun _ _ heq => by cases heq) (fun _ _ heq => by cases heq) (by decide)
  | resizePane paneId size =>
    cases hstep
    unfold InputApi.resizePane
    split
    · exact h
    · next hopen =>
      dsimp only
      split
      · unfold InputApi.scheduleFlush
        split
        · exact h.asked hopen paneId size
        · exact (h.asked hopen paneId size).flags _ _
      · next hdirect =>
        exact h.resized hopen (himmediate (Bool.not_eq_true _ ▸ hdirect)) paneId size
  | sendCommand cmd =>
    cases hstep
    exact tracks_sendCommand h cmd
  | sendVerb cmd =>
    cases hstep
    exact tracks_sendVerb h hnamed cmd hclear
  | sendPaneCapture paneId =>
    cases hstep
    exact tracks_sendPaneCapture h hnamed paneId
  | flush =>
    cases hstep
    unfold InputApi.flush
    split
    · exact (tracks_flushResizes h).1
    · exact h
  | microtask =>
    simp only [InputApi.step, Option.ite_none_left_eq_some, Option.some.injEq] at hstep
    obtain ⟨-, rfl⟩ := hstep
    exact (tracks_flushResizes (h.flags api.flushScheduled (api.microtasks - 1))).1
  | handleCommandResponse msg =>
    cases hstep
    exact tracks_handleCommandResponse h hnamed msg
  | rejectAllPending reason =>
    cases hstep
    exact tracks_rejectAllPending h hnamed reason
  | markDisconnected =>
    cases hstep
    exact tracks_markDisconnected h
  | closed =>
    cases hstep
    exact ⟨h.lawful, h.numbers, fun hready => (by cases hready), h.ended, h.dropped, h.waiting,
      h.apart⟩

theorem Named.of {api' : InputApi A F D} (hnamed : Named api) (hseq : api.seq ≤ api'.seq)
    (hverbs : ∀ d ∈ api'.pendingVerbs.values, d ∈ api.pendingVerbs.values)
    (hcaptures : ∀ d ∈ api'.pendingCaptures.values, d ∈ api.pendingCaptures.values) :
    Named api' := by
  intro d hd
  obtain ⟨hid, hlt⟩ := hnamed d (hd.imp (hverbs d) (hcaptures d))
  exact ⟨hid, hlt.trans_le hseq⟩

/-- What `send` changes besides the trace is the counter. -/
theorem send_eq (api : InputApi A F D) (caller : Caller) (message : Message) :
    (api.send caller message).1 =
      { api.nextSeq with trace := (api.send caller message).1.trace } := by
  unfold InputApi.send
  split <;> rfl

theorem Named.send (hnamed : Named api) (caller : Caller) (message : Message) :
    Named (api.send caller message).1 := by
  rw [send_eq]
  exact hnamed.of (Nat.le_succ _) (fun _ hd => hd) fun _ hd => hd

theorem Named.flushResizes (hnamed : Named api) (h : Tracks stringify api) :
    Named api.flushResizes.1 := by
  obtain ⟨-, hsends, -⟩ := tracks_flushResizes h
  refine hnamed.of hsends.seq (fun d hd => ?_) fun d hd => ?_
  · have hverbs := congrArg InputApi.pendingVerbs hsends.eq
    exact hverbs ▸ hd
  · have hcaptures := congrArg InputApi.pendingCaptures hsends.eq
    exact hcaptures ▸ hd

/-- A request with a promise takes the number that it is known by. -/
theorem Named.promise (hnamed : Named api) (caller : Caller) (message : Message)
    (waiting : InputApi A F D) (hseq : waiting.seq = api.seq)
    (hwaiting : ∀ d, d ∈ waiting.pendingVerbs.values ∨ d ∈ waiting.pendingCaptures.values →
      d = ⟨api.seq.repr, api.seq⟩ ∨ d ∈ api.pendingVerbs.values ∨ d ∈ api.pendingCaptures.values) :
    Named (waiting.send caller message).1 := by
  intro d hd
  rw [send_eq] at hd ⊢
  have hnext : waiting.nextSeq.seq = api.seq + 1 := congrArg (· + 1) hseq
  rcases hwaiting d hd with rfl | hold
  · exact ⟨rfl, hnext ▸ Nat.lt_succ_self _⟩
  · exact ⟨(hnamed d hold).1, hnext ▸ Nat.lt_succ_of_lt (hnamed d hold).2⟩

theorem named_step {coalesce : Bool} {api' : InputApi A F D} (hnamed : Named api)
    (h : Tracks stringify api) {event : Event A F D}
    (hstep : InputApi.step coalesce stringify api event = some api') : Named api' := by
  have hsame : ∀ other : InputApi A F D, api.seq ≤ other.seq →
      other.pendingVerbs = api.pendingVerbs → other.pendingCaptures = api.pendingCaptures →
        Named other := by
    intro other hseq hverbs hcaptures
    exact hnamed.of hseq (fun d hd => hverbs ▸ hd) fun d hd => hcaptures ▸ hd
  cases event with
  | sendInput paneId data =>
    cases hstep
    exact hnamed.send _ _
  | attachPane paneId =>
    cases hstep
    exact hnamed.send _ _
  | resizePane paneId size =>
    cases hstep
    unfold InputApi.resizePane
    split
    · exact hnamed
    · dsimp only
      split
      · unfold InputApi.scheduleFlush
        split <;> exact hnamed
      · have hasked : Named (api.log (.asked paneId size)) := hnamed
        exact hasked.send _ _
  | sendCommand cmd =>
    cases hstep
    have hflushed := hnamed.flushResizes h
    unfold InputApi.sendCommand
    split
    · next flushed heq =>
      split at heq
      · rw [heq] at hflushed
        exact hflushed.send _ _
      · cases heq
        exact hnamed.send _ _
    · next failed heq =>
      split at heq
      · rw [heq] at hflushed
        exact hflushed
      · cases heq
  | sendVerb cmd =>
    cases hstep
    have hsent := hnamed.promise .sendVerb (.commandRequest api.seq.repr cmd)
      { api.log (.promised api.seq .verb api.seq.repr) with
        pendingVerbs := api.pendingVerbs.set ⟨api.seq.repr, api.seq⟩ } rfl fun d hd => by
          rcases hd with hverb | hcapture
          · exact (KeyedMap.mem_set.mp hverb).imp_right fun hold => Or.inl hold.1
          · exact Or.inr (Or.inr hcapture)
    unfold InputApi.sendVerb
    dsimp only
    split
    · next sent heq =>
      rw [heq] at hsent
      exact hsent
    · next failed heq =>
      rw [heq] at hsent
      -- the send failed, so the deferred that was just set is deleted again
      exact hsent.of (Nat.le_refl _) (fun d hd => (KeyedMap.mem_delete.mp hd).1) fun d hd => hd
  | sendPaneCapture paneId =>
    cases hstep
    have hsent := hnamed.promise .sendPaneCapture
      (.commandRequest api.seq.repr (.paneCapture paneId))
      { api.log (.promised api.seq .capture api.seq.repr) with
        pendingCaptures := api.pendingCaptures.set ⟨api.seq.repr, api.seq⟩ } rfl fun d hd => by
          rcases hd with hverb | hcapture
          · exact Or.inr (Or.inl hverb)
          · exact (KeyedMap.mem_set.mp hcapture).imp_right fun hold => Or.inr hold.1
    unfold InputApi.sendPaneCapture
    dsimp only
    split
    · next sent heq =>
      rw [heq] at hsent
      exact hsent
    · next failed heq =>
      rw [heq] at hsent
      exact hsent.of (Nat.le_refl _) (fun d hd => hd) fun d hd => (KeyedMap.mem_delete.mp hd).1
  | flush =>
    cases hstep
    unfold InputApi.flush
    split
    · exact hnamed.flushResizes h
    · exact hnamed
  | microtask =>
    simp only [InputApi.step, Option.ite_none_left_eq_some, Option.some.injEq] at hstep
    obtain ⟨-, rfl⟩ := hstep
    have hrun : Named { api with microtasks := api.microtasks - 1 } := hnamed
    exact hrun.flushResizes (h.flags api.flushScheduled (api.microtasks - 1))
  | handleCommandResponse msg =>
    cases hstep
    unfold InputApi.handleCommandResponse
    split
    · exact hnamed.of (Nat.le_refl _) (fun d hd => hd) fun d hd => (KeyedMap.mem_delete.mp hd).1
    · split
      · exact hnamed.of (Nat.le_refl _) (fun d hd => (KeyedMap.mem_delete.mp hd).1) fun d hd => hd
      · exact hnamed
  | rejectAllPending reason =>
    cases hstep
    exact hnamed.of (Nat.le_refl _) (fun d hd => by cases hd) fun d hd => by cases hd
  | markDisconnected =>
    cases hstep
    exact hnamed
  | closed =>
    cases hstep
    exact hnamed

/-! ## The microtask -/

variable {coalesce : Bool}

/-- `flushResizes` clears the flag first, whatever the microtasks are. -/
theorem scheduled_flushResizes (h : Tracks stringify api)
    (himmediate : coalesce = false → api.pending.values = []) :
    Scheduled coalesce api.flushResizes.1 := by
  obtain ⟨-, hsends, hready, -, hnone⟩ := tracks_flushResizes h
  have hflag : api.flushResizes.1.flushScheduled = false := by
    have hflag := congrArg InputApi.flushScheduled hsends.eq
    exact hflag
  have hopen : api.flushResizes.1.ready = api.ready := by
    have hopen := congrArg InputApi.ready hsends.eq
    exact hopen
  refine ⟨fun hdirect => hnone (himmediate hdirect), fun hopen' hsome => ?_,
    fun hflag' => ?_⟩
  · exact absurd (hready (hopen ▸ hopen')) hsome
  · cases hflag.symm.trans hflag'

theorem Scheduled.of {api' : InputApi A F D} (hscheduled : Scheduled coalesce api)
    (hpending : api'.pending = api.pending) (hflag : api'.flushScheduled = api.flushScheduled)
    (hmicrotasks : api'.microtasks = api.microtasks)
    (hready : api'.ready = true → api.ready = true) :
    Scheduled coalesce api' := by
  refine ⟨fun hdirect => ?_, fun hopen hsome => ?_, fun hset => ?_⟩
  · rw [hpending]
    exact hscheduled.immediate hdirect
  · rw [hflag]
    rw [hpending] at hsome
    exact hscheduled.scheduled (hready hopen) hsome
  · rw [hmicrotasks]
    exact hscheduled.queued (hflag ▸ hset)

theorem Scheduled.send (hscheduled : Scheduled coalesce api) (caller : Caller)
    (message : Message) : Scheduled coalesce (api.send caller message).1 := by
  rw [send_eq]
  exact hscheduled.of rfl rfl rfl id

theorem scheduled_step {api' : InputApi A F D} (hscheduled : Scheduled coalesce api)
    (h : Tracks stringify api) {event : Event A F D}
    (hstep : InputApi.step coalesce stringify api event = some api') :
    Scheduled coalesce api' := by
  cases event with
  | sendInput paneId data =>
    cases hstep
    exact hscheduled.send _ _
  | attachPane paneId =>
    cases hstep
    exact hscheduled.send _ _
  | resizePane paneId size =>
    cases hstep
    unfold InputApi.resizePane
    split
    · exact hscheduled
    · dsimp only
      split
      · next hcoalesce =>
        -- a size is pended only where resizes are coalesced
        have hcontra : ∀ {P : Prop}, coalesce = false → P := fun hfalse => by
          cases hcoalesce.symm.trans hfalse
        unfold InputApi.scheduleFlush
        split
        · next hset => exact ⟨hcontra, fun _ _ => hset, hscheduled.queued⟩
        · exact ⟨hcontra, fun _ _ => rfl, fun _ => Nat.succ_pos _⟩
      · have hasked : Scheduled coalesce (api.log (.asked paneId size)) :=
          hscheduled.of rfl rfl rfl id
        exact hasked.send _ _
  | sendCommand cmd =>
    cases hstep
    have hflushed := scheduled_flushResizes h hscheduled.immediate
    unfold InputApi.sendCommand
    split
    · next flushed heq =>
      split at heq
      · rw [heq] at hflushed
        exact hflushed.send _ _
      · cases heq
        exact hscheduled.send _ _
    · next failed heq =>
      split at heq
      · rw [heq] at hflushed
        exact hflushed
      · cases heq
  | sendVerb cmd =>
    cases hstep
    have hwaiting : Scheduled coalesce { api.log (.promised api.seq .verb api.seq.repr) with
        pendingVerbs := api.pendingVerbs.set ⟨api.seq.repr, api.seq⟩ } :=
      hscheduled.of rfl rfl rfl id
    have hsent := hwaiting.send .sendVerb (.commandRequest api.seq.repr cmd)
    unfold InputApi.sendVerb
    dsimp only
    split
    · next sent heq =>
      rw [heq] at hsent
      exact hsent
    · next failed heq =>
      rw [heq] at hsent
      exact hsent.of rfl rfl rfl id
  | sendPaneCapture paneId =>
    cases hstep
    have hwaiting : Scheduled coalesce { api.log (.promised api.seq .capture api.seq.repr) with
        pendingCaptures := api.pendingCaptures.set ⟨api.seq.repr, api.seq⟩ } :=
      hscheduled.of rfl rfl rfl id
    have hsent := hwaiting.send .sendPaneCapture
      (.commandRequest api.seq.repr (.paneCapture paneId))
    unfold InputApi.sendPaneCapture
    dsimp only
    split
    · next sent heq =>
      rw [heq] at hsent
      exact hsent
    · next failed heq =>
      rw [heq] at hsent
      exact hsent.of rfl rfl rfl id
  | flush =>
    cases hstep
    unfold InputApi.flush
    split
    · exact scheduled_flushResizes h hscheduled.immediate
    · exact hscheduled
  | microtask =>
    simp only [InputApi.step, Option.ite_none_left_eq_some, Option.some.injEq] at hstep
    obtain ⟨-, rfl⟩ := hstep
    -- the flag is cleared here, so one microtask less is enough
    exact scheduled_flushResizes (h.flags api.flushScheduled (api.microtasks - 1))
      hscheduled.immediate
  | handleCommandResponse msg =>
    cases hstep
    unfold InputApi.handleCommandResponse
    split
    · exact hscheduled.of rfl rfl rfl id
    · split <;> exact hscheduled.of rfl rfl rfl id
  | rejectAllPending reason =>
    cases hstep
    exact hscheduled.of rfl rfl rfl id
  | markDisconnected =>
    cases hstep
    exact ⟨fun _ => rfl, fun _ hsome => absurd rfl hsome, fun hset => by cases hset⟩
  | closed =>
    cases hstep
    exact hscheduled.of rfl rfl rfl fun hready => by cases hready

/-! ## Runs -/

theorem tracks_new : Tracks stringify ({} : InputApi A F D) :=
  ⟨lawful_nil, fun _ hn => (by cases hn), fun _ _ => rfl, fun _ hentry => (by cases hentry),
    fun _ => rfl, fun _ => rfl, fun _ => Or.inl rfl⟩

/-- A verb that is sent while a resize waits overtakes it. -/
theorem not_good_sendVerb (h : Tracks stringify api) {cmd : WireCommand}
    (hpasses : ¬Clear api (.sendVerb cmd)) : ¬Good stringify (api.sendVerb cmd) := by
  intro hgood
  obtain ⟨hready, hsome⟩ := Classical.not_imp.mp hpasses
  obtain ⟨resize, rest, hpending⟩ := List.exists_cons_of_ne_nil hsome
  have hsent : (api.sendVerb cmd).trace = api.trace ++ [.promised api.seq .verb api.seq.repr] ++
      [.sent .sendVerb api.seq (.commandRequest api.seq.repr cmd)] := by
    unfold InputApi.sendVerb InputApi.send
    dsimp only
    rw [if_pos (show (api.log _).ready = true from hready)]
    rfl
  have hlawful := hgood.lawful
  rw [hsent, lawful_concat] at hlawful
  have howed := hlawful.2.2.2.2 (Or.inr rfl) resize.paneId
  rw [owes_concat] at howed
  have hnone : owes api.trace resize.paneId = none := howed
  rw [← h.resizes hready, KeyedMap.get?, hpending, List.find?_cons_of_pos (by simp)] at hnone
  cases hnone

/-- The order of the wire is the order of the calls in exactly the runs in which no verb is
sent while a resize waits; everything else the API promises in every run. -/
theorem lawful_iff (coalesce : Bool) (stringify : Option (Payload A F) → String)
    (events : List (Event A F D)) :
    (∀ before api, before <+: events →
        exec (InputApi.step coalesce stringify) {} before = some api → Good stringify api) ↔
      Along (InputApi.step coalesce stringify) Clear {} events := by
  refine prefixes_iff_along_of
    (I := fun api => Tracks stringify api ∧ Named api ∧ Scheduled coalesce api)
    (fun api h => h.1.good h.2.2) (fun api event api' h hclear hstep => ?_)
    (fun api event h hpasses => ?_) ⟨tracks_new, fun d hd => ?_, fun _ => rfl, fun _ hsome => ?_,
      fun hset => ?_⟩
  · obtain ⟨htracks, hnamed, hscheduled⟩ := h
    exact ⟨tracks_step htracks hnamed hscheduled.immediate hclear hstep,
      named_step hnamed htracks hstep, scheduled_step hscheduled htracks hstep⟩
  · cases event with
    | sendVerb cmd => exact ⟨_, rfl, not_good_sendVerb h.1 hpasses⟩
    | _ => exact absurd trivial hpasses
  · rcases hd with hd | hd <;> cases hd
  · exact absurd rfl hsome
  · cases hset

/-- A window's box is reported and its panes are laid out by a verb. -/
def reportThenPush : List (Event Unit Unit Unit) :=
  [.resizePane ⟨"p1"⟩ ⟨120, 40⟩,
    .sendVerb (.resizeManagedWindow ⟨"w0"⟩ 120 40 [⟨⟨"p1"⟩, 120, 40⟩])]

/-- The verb is on the wire and the resize is not. -/
theorem verb_overtakes : ¬∀ before api, before <+: reportThenPush →
    exec (InputApi.step true fun _ => "") {} before = some api → Good (fun _ => "") api := by
  intro hall
  have hrun : (exec (InputApi.step true fun _ => "") {} reportThenPush).map InputApi.trace =
      some [.asked ⟨"p1"⟩ ⟨120, 40⟩, .promised 1 .verb "1", .sent .sendVerb 1 (.commandRequest "1"
        (.resizeManagedWindow ⟨"w0"⟩ 120 40 [⟨⟨"p1"⟩, 120, 40⟩]))] := rfl
  obtain ⟨api, hapi, htrace⟩ := Option.map_eq_some_iff.mp hrun
  have hallowed := (hall _ api (List.prefix_refl _) hapi).lawful [_, _] _ [] htrace
  have hnone := hallowed.2.2.2 (Or.inr rfl) ⟨"p1"⟩
  cases hnone

end

end TmuxccDriver.Client.Input
