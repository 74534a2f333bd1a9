import TmuxccDriver.Lib.Lines
import TmuxccDriver.Parser.Tokenizer

/-!
# The command correlator

`parser/correlator.ts`: a FIFO of promises, one for each command line written to
tmux, settled by the reply blocks in the order they arrive. A promise is named by
its position in the order of registration (`id`), and everything the correlator does
to the outside is an `Effect`.

Results:
1. `cancelLoop_effects`: `cancelOldest` rejects the oldest live slots, in order.
2. `cancelLoop_ids`, `cancelLoop_flags`: it takes no slot out of the queue, and flags
   exactly the slots it rejects.
-/

namespace TmuxccDriver.Parser
open TmuxccDriver.Lib

/-! ## Data -/

/-- The resolved result of a command block. -/
structure CommandResult where
  ok : Bool
  commandNumber : Nat
  body : Bytes
deriving DecidableEq, Repr

/-- A JavaScript `Error`. -/
structure Error where
  message : String
deriving DecidableEq, Repr

/-- What a promise is settled with. -/
inductive Outcome
  | resolved (result : CommandResult)
  | rejected (err : Error)
deriving DecidableEq, Repr

/-- One entry of the pending FIFO. -/
structure PendingCommand where
  id : Nat
  expectedCommandNumber : Option Nat
  cancelled : Bool
deriving DecidableEq, Repr

/-- The block between its `%begin` and its terminator. `bodyLen` is the length of the
chunks together. -/
structure InFlight where
  commandNumber : Nat
  bodyChunks : List Bytes
  bodyLen : Nat
  isStartupBlock : Bool
  bodyLen_eq : bodyLen = bodyChunks.flatten.length

theorem InFlight.no_chunks : 0 = ([] : List Bytes).flatten.length := rfl

/-- The fields of `CommandCorrelator`; `registered` counts the promises handed out. -/
structure CommandCorrelator where
  pending : List PendingCommand
  inFlight : Option InFlight
  registered : Nat

/-- What the correlator does to the outside, in order. -/
inductive Effect
  | write (data : Bytes)
  | settle (id : Nat) (outcome : Outcome)
  | notify (keyword : String) (rawLine : Bytes)
  | unsolicitedBlock
deriving DecidableEq, Repr

namespace CommandCorrelator

def init : CommandCorrelator := ⟨[], none, 0⟩

/-! ## Registering commands -/

/-- `expectCommand`. -/
def expectCommand (corr : CommandCorrelator) : CommandCorrelator :=
  { corr with
    pending := corr.pending ++ [⟨corr.registered, none, false⟩]
    registered := corr.registered + 1 }

/-- `send`: one slot, then the command and an LF. -/
def send (corr : CommandCorrelator) (command : Bytes) : CommandCorrelator × List Effect :=
  (corr.expectCommand, [.write (command ++ [LF])])

/-- The registration loop of `sendBatch`. -/
def expectCommands (corr : CommandCorrelator) : Nat → CommandCorrelator
  | 0 => corr
  | n + 1 => expectCommands corr.expectCommand n

/-- `sendBatch`: a slot for each command, then all lines in one write. -/
def sendBatch (corr : CommandCorrelator) (commands : List Bytes) :
    CommandCorrelator × List Effect :=
  if commands.length = 0 then (corr, [])
  else (corr.expectCommands commands.length, [.write (terminated commands)])

/-- The loop of `cancelOldest`, with the number of slots still to cancel. -/
def cancelLoop (err : Error) : List PendingCommand → Nat → List PendingCommand × List Effect
  | [], _ => ([], [])
  | p :: ps, count =>
    if count = 0 then (p :: ps, [])
    else if p.cancelled then
      let (ps', out) := cancelLoop err ps count
      (p :: ps', out)
    else
      let (ps', out) := cancelLoop err ps (count - 1)
      ({ p with cancelled := true } :: ps', .settle p.id (.rejected err) :: out)

/-- `cancelOldest`: the slots stay in the queue. -/
def cancelOldest (corr : CommandCorrelator) (count : Nat) (err : Error) :
    CommandCorrelator × List Effect :=
  let (pending, out) := cancelLoop err corr.pending count
  ({ corr with pending }, out)

/-! ## Token handling -/

/-- `_rejectOldest`. -/
def rejectOldest (corr : CommandCorrelator) (err : Error) : CommandCorrelator × List Effect :=
  match corr.pending with
  | [] => (corr, [])
  | p :: ps => ({ corr with pending := ps }, [.settle p.id (.rejected err)])

/-- `_collectBody`: the lines joined by `\n`. -/
def collectBody (inFlight : InFlight) : Bytes := joinLf inFlight.bodyChunks

/-- Bind the command number of a `%begin` to the oldest slot. -/
def bindOldest (commandNumber : Nat) : List PendingCommand → List PendingCommand
  | [] => []
  | p :: ps => { p with expectedCommandNumber := some commandNumber } :: ps

/-- `_handleBegin`. -/
def handleBegin (corr : CommandCorrelator) (token : GuardFields) :
    CommandCorrelator × List Effect :=
  let (corr, out) := match corr.inFlight with
    | some open_ => corr.rejectOldest
        ⟨s!"correlator: %begin (cmdnum={token.commandNumber}) arrived while block " ++
          s!"{open_.commandNumber} is still open"⟩
    | none => (corr, [])
  let isStartupBlock := token.flags = 0
  let inFlight := some ⟨token.commandNumber, [], 0, isStartupBlock, InFlight.no_chunks⟩
  if isStartupBlock then ({ corr with inFlight }, out)
  else ({ corr with inFlight, pending := bindOldest token.commandNumber corr.pending }, out)

/-- `_handleBody`. -/
def handleBody (corr : CommandCorrelator) (bytes : Bytes) : CommandCorrelator :=
  match corr.inFlight with
  | none => corr
  | some f =>
    { corr with
      inFlight := some
        { f with
          bodyChunks := f.bodyChunks ++ [bytes]
          bodyLen := f.bodyLen + bytes.length
          bodyLen_eq := by simp [f.bodyLen_eq] } }

/-- The error of a terminator with another number than the open block's. -/
def mismatchError (opened closing : Nat) : Error :=
  ⟨s!"correlator: commandNumber mismatch — %begin had {opened}" ++
    s!", but closing guard has {closing}"⟩

/-- `_closeBlock`. -/
def closeBlock (corr : CommandCorrelator) (closingCmdNum : Nat) (ok : Bool) :
    CommandCorrelator × List Effect :=
  match corr.inFlight with
  | none => (corr, [])
  | some f =>
    if f.commandNumber ≠ closingCmdNum then
      { corr with inFlight := none }.rejectOldest (mismatchError f.commandNumber closingCmdNum)
    else if f.isStartupBlock then ({ corr with inFlight := none }, [])
    else
      match corr.pending with
      | [] => ({ corr with inFlight := none }, [.unsolicitedBlock])
      | p :: ps =>
        let corr := { corr with inFlight := none, pending := ps }
        if p.cancelled then (corr, [])
        else
          match p.expectedCommandNumber with
          | some expected =>
            if expected ≠ closingCmdNum then
              (corr, [.settle p.id (.rejected
                ⟨s!"correlator: expected cmdnum {expected} but got {closingCmdNum}"⟩)])
            else (corr, [.settle p.id (.resolved ⟨ok, closingCmdNum, collectBody f⟩)])
          | none => (corr, [.settle p.id (.resolved ⟨ok, closingCmdNum, collectBody f⟩)])

/-- `push`. -/
def push (corr : CommandCorrelator) (token : ControlToken) : CommandCorrelator × List Effect :=
  match token with
  | .blockBegin guard => corr.handleBegin guard
  | .blockBody bytes => (corr.handleBody bytes, [])
  | .blockEnd guard => corr.closeBlock guard.commandNumber true
  | .blockError guard => corr.closeBlock guard.commandNumber false
  | .notification keyword rawLine => (corr, [.notify keyword rawLine])
  | .dcsOpen => (corr, [])
  | .dcsClose => (corr, [])

/-! ## Lemmas -/

/-- `sendBatch` registers a slot for each command. -/
theorem expectCommands_registered (corr : CommandCorrelator) (n : Nat) :
    (corr.expectCommands n).registered = corr.registered + n := by
  induction n generalizing corr with
  | zero => rfl
  | succ n ih =>
    rw [expectCommands, ih]
    simp only [expectCommand]
    omega

/-- Nothing is registered and nothing is written. -/
def Frame (corr : CommandCorrelator) (r : CommandCorrelator × List Effect) : Prop :=
  r.1.registered = corr.registered ∧ ∀ data, .write data ∉ r.2

theorem rejectOldest_frame (corr : CommandCorrelator) (err : Error) :
    corr.Frame (corr.rejectOldest err) := by
  unfold rejectOldest
  split
  · exact ⟨rfl, by simp⟩
  · exact ⟨rfl, by simp⟩

theorem handleBegin_frame (corr : CommandCorrelator) (token : GuardFields) :
    corr.Frame (corr.handleBegin token) := by
  have hreject : ∀ r, corr.Frame r → corr.Frame
      (if token.flags = 0 then
        ({ r.1 with inFlight := some ⟨token.commandNumber, [], 0, token.flags = 0, rfl⟩ }, r.2)
      else
        ({ r.1 with
          inFlight := some ⟨token.commandNumber, [], 0, token.flags = 0, rfl⟩
          pending := bindOldest token.commandNumber r.1.pending }, r.2)) := by
    intro r hr
    split
    · exact hr
    · exact hr
  unfold handleBegin
  cases corr.inFlight with
  | none => exact hreject (corr, []) ⟨rfl, by simp⟩
  | some f => exact hreject _ (rejectOldest_frame corr _)

theorem closeBlock_frame (corr : CommandCorrelator) (closingCmdNum : Nat) (ok : Bool) :
    corr.Frame (corr.closeBlock closingCmdNum ok) := by
  unfold closeBlock
  split
  · exact ⟨rfl, by simp⟩
  · split
    · exact rejectOldest_frame { corr with inFlight := none } _
    · split
      · exact ⟨rfl, by simp⟩
      · split
        · exact ⟨rfl, by simp⟩
        · split
          · exact ⟨rfl, by simp⟩
          · split
            · split
              · exact ⟨rfl, by simp⟩
              · exact ⟨rfl, by simp⟩
            · exact ⟨rfl, by simp⟩

/-- Tokens register no command and write nothing. -/
theorem push_frame (corr : CommandCorrelator) (token : ControlToken) :
    corr.Frame (corr.push token) := by
  cases token with
  | notification keyword rawLine => exact ⟨rfl, by simp [push]⟩
  | blockBegin guard => exact handleBegin_frame corr guard
  | blockBody bytes =>
    refine ⟨?_, by simp [push]⟩
    simp only [push, handleBody]
    split
    · rfl
    · rfl
  | blockEnd guard => exact closeBlock_frame corr guard.commandNumber true
  | blockError guard => exact closeBlock_frame corr guard.commandNumber false
  | dcsOpen => exact ⟨rfl, by simp [push]⟩
  | dcsClose => exact ⟨rfl, by simp [push]⟩

/-- The slots `cancelOldest` still counts. -/
def live (pending : List PendingCommand) : List Nat :=
  (pending.filter fun p => !p.cancelled).map (·.id)

theorem cancelLoop_effects (err : Error) (pending : List PendingCommand) (count : Nat) :
    (cancelLoop err pending count).2 =
      ((live pending).take count).map fun id => .settle id (.rejected err) := by
  induction pending generalizing count with
  | nil => simp [cancelLoop, live]
  | cons p ps ih =>
    simp only [cancelLoop]
    cases count with
    | zero => simp
    | succ n =>
      cases hp : p.cancelled with
      | true => simp [live, hp, ih]
      | false => simp [live, hp, ih]

theorem cancelLoop_ids (err : Error) (pending : List PendingCommand) (count : Nat) :
    (cancelLoop err pending count).1.map (·.id) = pending.map (·.id) := by
  induction pending generalizing count with
  | nil => rfl
  | cons p ps ih =>
    simp only [cancelLoop]
    split
    · rfl
    · split
      · simp [ih]
      · simp [ih]

theorem cancelLoop_head (err : Error) (pending : List PendingCommand) (count : Nat) :
    ((cancelLoop err pending count).1.head?.map (·.expectedCommandNumber)) =
      pending.head?.map (·.expectedCommandNumber) := by
  cases pending with
  | nil => rfl
  | cons p ps =>
    simp only [cancelLoop]
    split
    · rfl
    · split
      · rfl
      · rfl

/-- A slot is cancelled afterwards if it was before, or is one of those rejected now. -/
theorem cancelLoop_flags (err : Error) (pending : List PendingCommand) (count : Nat)
    (hnodup : (pending.map (·.id)).Nodup) :
    ∀ q ∈ (cancelLoop err pending count).1,
      ∃ p ∈ pending, p.id = q.id ∧
        (q.cancelled = true ↔ p.cancelled = true ∨ p.id ∈ (live pending).take count) := by
  induction pending generalizing count with
  | nil => simp [cancelLoop]
  | cons p ps ih =>
    simp only [List.map_cons, List.nodup_cons] at hnodup
    have hfresh : p.id ∉ live ps := fun h => by
      obtain ⟨q, hq, hid⟩ := List.mem_map.mp h
      exact hnodup.1 (List.mem_map.mpr ⟨q, (List.mem_filter.mp hq).1, hid⟩)
    intro q hq
    cases count with
    | zero =>
      simp only [cancelLoop, if_true] at hq
      exact ⟨q, hq, rfl, by simp⟩
    | succ n =>
      cases hp : p.cancelled with
      | true =>
        simp only [cancelLoop, hp, if_true, Nat.add_one_ne_zero, if_false, List.mem_cons] at hq
        have hlive : live (p :: ps) = live ps := by simp [live, hp]
        rw [hlive]
        rcases hq with rfl | hq
        · exact ⟨q, List.mem_cons_self, rfl, by simp [hp]⟩
        · obtain ⟨r, hr, hid, hflag⟩ := ih (n + 1) hnodup.2 q hq
          exact ⟨r, List.mem_cons_of_mem _ hr, hid, hflag⟩
      | false =>
        simp only [cancelLoop, hp, Nat.add_one_ne_zero, if_false, Nat.add_one_sub_one,
          Bool.false_eq_true, List.mem_cons] at hq
        have hlive : live (p :: ps) = p.id :: live ps := by simp [live, hp]
        rw [hlive]
        rcases hq with rfl | hq
        · exact ⟨p, List.mem_cons_self, rfl, by simp⟩
        · obtain ⟨r, hr, hid, hflag⟩ := ih n hnodup.2 q hq
          refine ⟨r, List.mem_cons_of_mem _ hr, hid, ?_⟩
          have hne : r.id ≠ p.id := fun h =>
            hnodup.1 (List.mem_map.mpr ⟨r, hr, h⟩)
          rw [hflag, List.take_succ_cons, List.mem_cons]
          simp [hne]

end CommandCorrelator

end TmuxccDriver.Parser
