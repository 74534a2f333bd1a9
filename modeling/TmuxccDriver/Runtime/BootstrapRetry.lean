import TmuxccDriver.Lib.Run
import TmuxccDriver.Parser.ControlChannel
import TmuxccDriver.State.Requery

/-!
# The bootstrap requery and its retry

`_bootstrapRequeryWithRetry` of `runtime/pipeline.ts`: each attempt races the requery against a
timer. When the timer wins, the two oldest live slots of the correlator are cancelled, the
promise of the attempt is awaited, and the next attempt submits its listing again. A timer
fires only when no microtask is left.

The slots are taken by their number, not by their owner: they are the bootstrap's only if
nobody else's slot is live before them, or, with one listing answered, anywhere.

Results:
1. `take_eq_iff`: when the oldest of a queue are those that are meant.
2. `retryInv_step`: the correlator, the engine and the retry agree after every event.
3. `retry_iff`: every cancellation takes exactly the outstanding slots of the bootstrap if and
   only if every stall is clear of other callers; late replies never go astray.
-/

namespace TmuxccDriver.Runtime.BootstrapRetry
open TmuxccDriver.Lib TmuxccDriver.Parser TmuxccDriver.State

/-! ## State -/

def BOOTSTRAP_SLOT_COUNT : Nat := 2

def MAX_BOUNDED_ATTEMPTS : Nat := 3

/-- Where `_bootstrapRequeryWithRetry` stands. -/
inductive Phase
  | notStarted
  /-- The requery races the timer. -/
  | racing (attempt : Nat)
  /-- The slots were cancelled; the promise of the attempt is awaited. -/
  | cancelled (attempt : Nat)
  /-- A requery without a timer is awaited. -/
  | unbounded
  | returned
deriving DecidableEq, Repr

/-- The pipeline during the bootstrap. `slots` are those of the engine's last cycle, and
`settled` tells that the promise of `requery` was settled and its callback has not run. -/
structure Pipeline where
  channel : Channel
  engine : RequeryEngine
  slots : Nat × Nat
  phase : Phase
  settled : Bool
  stopped : Bool
  timeoutMs : Int

namespace Pipeline

/-- A pipeline that is not started; tmux may open a DCS first. -/
def new (dcs : Bool) (sessionName : Option String) (timeoutMs : Int) : Pipeline where
  channel := .start dcs
  engine := createRequeryEngine { sessionName := sessionName }
  slots := (0, 0)
  phase := .notStarted
  settled := false
  stopped := false
  timeoutMs := timeoutMs

/-! ## Steps -/

/-- `_send`: a stopped pipeline registers the slot and drops the write. -/
def send (p : Pipeline) (command : Bytes) : Pipeline :=
  { p with channel :=
      if p.stopped then { p.channel with corr := p.channel.corr.expectCommand }
      else p.channel.after (p.channel.corr.send command) }

def sendBatch (p : Pipeline) (commands : List Bytes) : Pipeline :=
  { p with channel :=
      if p.stopped then { p.channel with corr := p.channel.corr.expectCommands commands.length }
      else p.channel.after (p.channel.corr.sendBatch commands) }

/-- The engine submits the two commands of a cycle that begins. -/
def submit (p : Pipeline) : Pipeline :=
  match p.engine.flight with
  | .cycling cycle =>
    { (p.send (utf8 cycle.commands.1)).send (utf8 cycle.commands.2) with
      slots := (p.channel.corr.registered, p.channel.corr.registered + 1) }
  | _ => p

/-- `engine.requery()`. -/
def requery (p : Pipeline) : Pipeline :=
  match p.engine.flight with
  | .idle => { p with engine := p.engine.requery }.submit
  | _ => p

/-- The head of the loop, for one attempt. -/
def attempt (p : Pipeline) (n : Nat) : Pipeline :=
  if n ≤ MAX_BOUNDED_ATTEMPTS ∧ ¬p.stopped then { p with phase := .racing n }.requery
  else { p with phase := .unbounded }.requery

/-- `_bootstrapRequeryWithRetry` is called. -/
def start (p : Pipeline) : Pipeline :=
  if p.timeoutMs ≤ 0 then { p with phase := .unbounded }.requery else p.attempt 1

/-- The bootstrap's slots that are not settled. -/
def outstanding (p : Pipeline) : List Nat :=
  [p.slots.1, p.slots.2].filter fun k => p.channel.settlements k = []

def stallError (p : Pipeline) (n : Nat) : Error :=
  ⟨s!"bootstrap requery attempt {n} stalled past {p.timeoutMs} ms — " ++
    "cancelling slots and re-issuing (tc-hfxb.15)"⟩

/-- The timer fires first: cancel the two oldest live slots. -/
def cancelStalled (p : Pipeline) (n : Nat) : Pipeline :=
  { p with
    channel :=
      { p.channel.after (p.channel.corr.cancelOldest BOOTSTRAP_SLOT_COUNT (p.stallError n)) with
      cancels := p.channel.cancels ++
        (p.channel.unsettled.take BOOTSTRAP_SLOT_COUNT).map fun k => (k, p.stallError n) }
    phase := .cancelled n }

/-- What follows when the promise of the requery was settled. -/
def afterRequery (p : Pipeline) : Pipeline :=
  match p.phase with
  | .racing _ => { p with phase := .returned }
  | .cancelled n => p.attempt (n + 1)
  | .unbounded => { p with phase := .returned }
  | _ => p

end Pipeline

/-- The callbacks of promises. -/
inductive Micro
  | windowsReply
  | panesReply
  | resume
  | release
  | afterRequery
deriving DecidableEq, Repr

/-- Run a callback, if its promise is settled. -/
def microStep (decode : Bytes → String) (p : Pipeline) : Micro → Option Pipeline
  | .windowsReply =>
    (p.channel.settlements p.slots.1).head?.bind fun outcome =>
      (Requery.step decode p.engine (.windowsReply outcome)).map fun engine => { p with engine }
  | .panesReply =>
    (p.channel.settlements p.slots.2).head?.bind fun outcome =>
      (Requery.step decode p.engine (.panesReply outcome)).map fun engine => { p with engine }
  | .resume =>
    (Requery.step decode p.engine .resume).map fun engine => Pipeline.submit { p with engine }
  | .release =>
    (Requery.step decode p.engine .release).map fun engine => { p with engine, settled := true }
  | .afterRequery =>
    if p.settled then some (Pipeline.afterRequery { p with settled := false }) else none

/-- No callback is left to run. -/
def quiescent (decode : Bytes → String) (p : Pipeline) : Bool :=
  [Micro.windowsReply, .panesReply, .resume, .release, .afterRequery].all fun m =>
    (microStep decode p m).isNone

/-- The attempt whose timer can fire now. -/
def stalled (decode : Bytes → String) (p : Pipeline) : Option Nat :=
  match p.phase with
  | .racing n => if quiescent decode p then some n else none
  | _ => none

inductive Event
  | start
  /-- Another caller's command, tmux, or the reader of its bytes. -/
  | channel (action : ChannelAction)
  | markDirty
  | setModel (model : SessionModel)
  | micro (m : Micro)
  | timeout
  | stop

/-- One event; `none` if it cannot happen now. Bytes are read from the start to the stop. -/
def step (decode : Bytes → String) (p : Pipeline) : Event → Option Pipeline
  | .start => if p.phase = .notStarted then some p.start else none
  | .channel action =>
    match action with
    | .send command => some (p.send command)
    | .sendBatch commands => some (p.sendBatch commands)
    | .cancelOldest _ _ => none
    | .chunk _ | .token =>
      if p.phase = .notStarted ∨ p.stopped then none
      else (p.channel.step action).map fun channel => { p with channel }
    | _ => if p.stopped then none else (p.channel.step action).map fun channel => { p with channel }
  | .markDirty => some { p with engine := p.engine.markDirty }
  | .setModel model => some { p with engine := p.engine.setModel model }
  | .micro m => microStep decode p m
  | .timeout => (stalled decode p).map p.cancelStalled
  | .stop => some { p with stopped := true }

/-! ## The oldest of a queue -/

/-- The first `n` of a sorted list are the given part of it exactly if whatever else is in the
list comes after the whole part, and the part has `n` members. -/
theorem take_eq_iff {queue part : List Nat} {n : Nat} (hsorted : queue.Pairwise (· < ·))
    (hpart : part.Sublist queue) (hlen : part.length ≤ n) :
    queue.take n = part ↔ ∀ k ∈ queue, k ∉ part → part.length = n ∧ ∀ o ∈ part, o < k := by
  induction queue generalizing part n with
  | nil =>
    rw [List.sublist_nil.mp hpart]
    simp
  | cons a queue ih =>
    obtain ⟨hafter, htail⟩ := List.pairwise_cons.mp hsorted
    cases part with
    | nil =>
      refine ⟨fun htake k _ _ => ?_, fun hall => ?_⟩
      · cases n with
        | zero => exact ⟨rfl, fun o ho => absurd ho List.not_mem_nil⟩
        | succ n => cases htake
      · rw [← (hall a List.mem_cons_self List.not_mem_nil).1]
        rfl
    | cons b part =>
      obtain ⟨m, rfl⟩ : ∃ m, n = m + 1 :=
        Nat.exists_eq_succ_of_ne_zero (Nat.ne_of_gt (Nat.lt_of_lt_of_le (Nat.succ_pos _) hlen))
      rcases List.sublist_cons_iff.mp hpart with hskip | ⟨rest, heq, hrest⟩
      · -- The part leaves out the head, so the head comes before it.
        have hb : b ∈ queue := hskip.subset List.mem_cons_self
        have hlt := hafter b hb
        refine iff_of_false (fun htake => ?_) (fun hall => ?_)
        · exact absurd (List.cons.inj htake).1 hlt.ne
        · have hout : a ∉ b :: part := fun ha => absurd (hafter a (hskip.subset ha)) (lt_irrefl a)
          exact absurd ((hall a List.mem_cons_self hout).2 b List.mem_cons_self) hlt.not_gt
      · obtain ⟨rfl, rfl⟩ := List.cons.inj heq
        rw [List.take_succ_cons, List.cons_inj_right, ih htail hrest (Nat.le_of_succ_le_succ hlen)]
        constructor
        · intro hall k hk hout
          rcases List.mem_cons.mp hk with rfl | hin
          · exact absurd List.mem_cons_self hout
          · obtain ⟨hcount, hbefore⟩ := hall k hin fun hmem => hout (List.mem_cons_of_mem _ hmem)
            refine ⟨congrArg Nat.succ hcount, fun o ho => ?_⟩
            rcases List.mem_cons.mp ho with rfl | ho
            · exact hafter k hin
            · exact hbefore o ho
        · intro hall k hk hout
          have hne : k ∉ b :: part := by
            intro hmem
            rcases List.mem_cons.mp hmem with rfl | hmem
            · exact absurd (hafter k hk) (lt_irrefl k)
            · exact hout hmem
          obtain ⟨hcount, hbefore⟩ := hall k (List.mem_cons_of_mem _ hk) hne
          exact ⟨Nat.succ.inj hcount, fun o ho => hbefore o (List.mem_cons_of_mem _ ho)⟩

/-! ## Commands -/

theorem oneLine_format {ρ : Type} (row : ReplyRow ρ) (h : ∀ f ∈ row.schema.formats, OneLine f) :
    OneLine row.format :=
  (oneLine_intercalate (by decide) _).mpr h

theorem oneLine_listWindows {format : String} (hformat : OneLine format) (id : Option Nat) :
    OneLine (listWindows format id) := by
  have hhead : OneLine ("list-windows -F " ++ quoteArg format) :=
    (oneLine_append _ _).mpr ⟨by decide, (oneLine_quoteArg _).mpr hformat⟩
  cases id with
  | none => exact (oneLine_append _ _).mpr ⟨hhead, by decide⟩
  | some id =>
    exact (oneLine_append _ _).mpr ⟨hhead, (oneLine_append _ _).mpr ⟨by decide, oneLine_nat id⟩⟩

theorem oneLine_listPanes {format : String} (hformat : OneLine format) :
    OneLine (listPanes format) :=
  (oneLine_append _ _).mpr ⟨by decide, (oneLine_quoteArg _).mpr hformat⟩

theorem oneLine_listSessionPanes {format : String} (hformat : OneLine format) (id : Nat) :
    OneLine (listSessionPanes id format) := by
  have htarget : OneLine ("list-panes -s -t $" ++ id.repr) :=
    (oneLine_append _ _).mpr ⟨by decide, oneLine_nat id⟩
  have hhead : OneLine ("list-panes -s -t $" ++ id.repr ++ " -F ") :=
    (oneLine_append _ _).mpr ⟨htarget, by decide⟩
  exact (oneLine_append _ _).mpr ⟨hhead, (oneLine_quoteArg _).mpr hformat⟩

theorem oneLine_bootstrapCommands (target : Option SessionTarget)
    (htarget : ∀ name, target = some (.name name) → OneLine name) :
    OneLine (bootstrapCommands target).1 ∧ OneLine (bootstrapCommands target).2 := by
  have hwindows := oneLine_format WINDOWS_ROW (by decide +kernel)
  have hpanes := oneLine_format PANES_ROW (by decide +kernel)
  unfold bootstrapCommands
  generalize WINDOWS_ROW.format = windowsFormat at hwindows ⊢
  generalize PANES_ROW.format = panesFormat at hpanes ⊢
  have hall : OneLine (listWindows windowsFormat none ++ " -a") ∧
      OneLine (listPanes panesFormat ++ " -a") :=
    ⟨(oneLine_append _ _).mpr ⟨oneLine_listWindows hwindows none, by decide⟩,
      (oneLine_append _ _).mpr ⟨oneLine_listPanes hpanes, by decide⟩⟩
  rcases target with _ | (id | name)
  · exact hall
  · exact ⟨oneLine_listWindows hwindows _, oneLine_listSessionPanes hpanes id⟩
  · have hname := htarget name rfl
    dsimp only
    split
    · simp only [oneLine_append, hname, oneLine_listWindows hwindows, oneLine_listPanes hpanes]
      decide
    · exact hall

/-- The session name is one line, and so are the commands of the cycle. -/
structure OneLiners (engine : RequeryEngine) : Prop where
  name : ∀ name, engine.sessionName = some name → OneLine name
  commands : ∀ cycle, engine.flight = .cycling cycle →
    OneLine cycle.commands.1 ∧ OneLine cycle.commands.2

variable {engine engine' : RequeryEngine}

theorem OneLiners.beginCycle (h : ∀ name, engine.sessionName = some name → OneLine name)
    (startModel : SessionModel) (attempt : Nat)
    (pendingTeardown : Option (SessionModel × TeardownFractions)) :
    OneLiners (engine.beginCycle startModel attempt pendingTeardown) := by
  refine ⟨h, fun cycle hflight => ?_⟩
  cases hflight
  refine oneLine_bootstrapCommands _ fun name htarget => h name ?_
  unfold RequeryEngine.sessionTarget RequeryEngine.scopeName at htarget
  split at htarget
  · cases htarget
  · obtain ⟨name', hname, heq⟩ := Option.map_eq_some_iff.mp htarget
    cases heq
    exact (Option.filter_eq_some_iff.mp hname).1

theorem OneLiners.nextCycle (h : ∀ name, engine.sessionName = some name → OneLine name)
    (cycle : Cycle) (pendingTeardown : Option (SessionModel × TeardownFractions)) :
    OneLiners (engine.nextCycle cycle pendingTeardown) := by
  unfold RequeryEngine.nextCycle
  split
  · exact .beginCycle h _ _ _
  · exact ⟨h, fun cycle hflight => by cases hflight⟩

theorem OneLiners.afterReplies (decode : Bytes → String)
    (h : ∀ name, engine.sessionName = some name → OneLine name) (cycle : Cycle)
    (winResult paneResult : CommandResult) :
    OneLiners (engine.afterReplies decode cycle winResult paneResult) := by
  have hsettled : ∀ engine' : RequeryEngine, engine'.sessionName = engine.sessionName →
      (∀ c, engine'.flight ≠ .cycling c) → OneLiners engine' := by
    intro engine' hname hflight
    exact ⟨hname ▸ h, fun c hc => absurd hc (hflight c)⟩
  unfold RequeryEngine.afterReplies
  split
  · exact hsettled _ rfl fun c hc => by cases hc
  · split
    · exact hsettled _ rfl fun c hc => by cases hc
    · next windowRows _ =>
      split
      · exact hsettled _ rfl fun c hc => by cases hc
      · next paneRows _ =>
        have hcaptured : ∀ name, (engine.captureSessionId windowRows paneRows).sessionName =
            some name → OneLine name := by
          unfold RequeryEngine.captureSessionId
          split <;> exact h
        dsimp only
        split
        · exact .nextCycle hcaptured _ _
        · unfold RequeryEngine.decideClean
          dsimp only
          repeat' split
          · exact .nextCycle hcaptured _ _
          · exact ⟨hcaptured, fun c hc => by cases hc⟩
          · exact ⟨hcaptured, fun c hc => by cases hc⟩
          · exact ⟨hcaptured, fun c hc => by cases hc⟩

theorem OneLiners.requery (h : OneLiners engine) : OneLiners engine.requery := by
  unfold RequeryEngine.requery
  split
  · exact .beginCycle h.name _ _ _
  · exact h

theorem OneLiners.step (decode : Bytes → String) (h : OneLiners engine) {event : Requery.Event}
    (hstep : Requery.step decode engine event = some engine') : OneLiners engine' := by
  cases event with
  | requery =>
    cases hstep
    exact h.requery
  | markDirty =>
    cases hstep
    exact ⟨h.name, h.commands⟩
  | setModel model =>
    cases hstep
    exact ⟨h.name, h.commands⟩
  | windowsReply reply =>
    simp only [Requery.step] at hstep
    split at hstep
    · next cycle hflight =>
      split at hstep <;> cases hstep
      exact ⟨h.name, fun c hc => by cases hc; exact h.commands cycle hflight⟩
    · cases hstep
  | panesReply reply =>
    simp only [Requery.step] at hstep
    split at hstep
    · next cycle hflight =>
      split at hstep <;> cases hstep
      exact ⟨h.name, fun c hc => by cases hc; exact h.commands cycle hflight⟩
    · cases hstep
  | resume =>
    simp only [Requery.step] at hstep
    split at hstep
    · split at hstep <;> cases hstep
      · exact ⟨h.name, fun c hc => by cases hc⟩
      · exact .afterReplies decode h.name _ _ _
    · cases hstep
  | release =>
    simp only [Requery.step] at hstep
    split at hstep <;> cases hstep
    exact ⟨h.name, fun c hc => by cases hc⟩

/-! ## The invariant -/

/-- The slots of the correlator are in step with the replies. -/
structure InStep (p : Pipeline) : Prop where
  slots : ∃ read, Slots p.channel read
  lines : p.stopped = false → p.channel.stdin.count LF = p.channel.corr.registered
  oneLiners : OneLiners p.engine

/-- The slots of the last cycle are two of the correlator's, one after the other. -/
def Ordered (p : Pipeline) : Prop :=
  p.slots.2 = p.slots.1 + 1 ∧ p.slots.2 < p.channel.corr.registered

/-- Before the start nothing is in flight; from then on the engine has had a cycle. -/
structure RetryInv (p : Pipeline) : Prop where
  inStep : InStep p
  waiting : p.phase = .notStarted → p.engine.flight = .idle ∧ p.settled = false
  ordered : p.phase ≠ .notStarted → Ordered p

theorem registered_le_sendBatch (corr : CommandCorrelator) (commands : List Bytes) :
    corr.registered ≤ (corr.sendBatch commands).1.registered := by
  unfold CommandCorrelator.sendBatch
  split
  · exact Nat.le_refl _
  · exact CommandCorrelator.expectCommands_registered corr _ ▸ Nat.le_add_right _ _

namespace Pipeline

variable {p p' : Pipeline}

theorem registered_send (p : Pipeline) (command : Bytes) :
    (p.send command).channel.corr.registered = p.channel.corr.registered + 1 := by
  unfold send
  dsimp only
  split <;> rfl

theorem inStep_send (h : InStep p) {command : Bytes} (hc : LF ∉ command) :
    InStep (p.send command) := by
  obtain ⟨read, hslots⟩ := h.slots
  unfold send
  cases hstopped : p.stopped with
  | true =>
    exact ⟨⟨read, Channel.slots_expectCommand hslots⟩, fun hrun => (by cases hrun), h.oneLiners⟩
  | false =>
    have hinv := Channel.inv_send command hc ⟨h.slots, h.lines hstopped⟩
    exact ⟨hinv.1, fun _ => hinv.2, h.oneLiners⟩

theorem inStep_sendBatch (h : InStep p) {commands : List Bytes} (hc : ∀ c ∈ commands, LF ∉ c) :
    InStep (p.sendBatch commands) := by
  obtain ⟨read, hslots⟩ := h.slots
  unfold sendBatch
  cases hstopped : p.stopped with
  | true =>
    exact ⟨⟨read, Channel.slots_expectCommands _ hslots⟩, fun hrun => (by cases hrun), h.oneLiners⟩
  | false =>
    have hinv := Channel.inv_sendBatch commands hc ⟨h.slots, h.lines hstopped⟩
    exact ⟨hinv.1, fun _ => hinv.2, h.oneLiners⟩

theorem registered_sendBatch (p : Pipeline) (commands : List Bytes) :
    p.channel.corr.registered ≤ (p.sendBatch commands).channel.corr.registered := by
  unfold sendBatch
  dsimp only
  split
  · exact CommandCorrelator.expectCommands_registered p.channel.corr _ ▸ Nat.le_add_right _ _
  · exact registered_le_sendBatch _ _

/-- A cycle that begins has the two newest slots. -/
theorem inStep_submit (h : InStep p) :
    InStep p.submit ∧
      (Ordered p ∨ (∃ cycle, p.engine.flight = .cycling cycle) → Ordered p.submit) := by
  unfold submit
  cases hflight : p.engine.flight with
  | cycling cycle =>
    obtain ⟨hwindows, hpanes⟩ := h.oneLiners.commands cycle hflight
    have hlf : ∀ s, OneLine s → LF ∉ utf8 s := fun s hs hmem => (lf_mem_utf8 s).mp hmem hs
    have hsent := inStep_send (inStep_send h (hlf _ hwindows)) (hlf _ hpanes)
    refine ⟨⟨hsent.slots, hsent.lines, hsent.oneLiners⟩, fun _ => ⟨rfl, ?_⟩⟩
    show p.channel.corr.registered + 1 < _
    rw [registered_send, registered_send]
    exact Nat.lt_succ_self _
  | idle => exact ⟨h, fun hcase => hcase.resolve_right (by simp)⟩
  | settled outcome => exact ⟨h, fun hcase => hcase.resolve_right (by simp)⟩

theorem inStep_requery (h : InStep p) (hready : p.engine.flight = .idle ∨ Ordered p) :
    InStep p.requery ∧ Ordered p.requery := by
  unfold requery
  cases hflight : p.engine.flight with
  | idle =>
    have hbegun : InStep { p with engine := p.engine.requery } :=
      ⟨h.slots, h.lines, h.oneLiners.requery⟩
    obtain ⟨hstep, hordered⟩ := inStep_submit hbegun
    refine ⟨hstep, hordered (.inr ?_)⟩
    unfold RequeryEngine.requery
    rw [hflight]
    exact ⟨_, rfl⟩
  | cycling cycle => exact ⟨h, hready.resolve_left (by simp [hflight])⟩
  | settled outcome => exact ⟨h, hready.resolve_left (by simp [hflight])⟩

theorem phase_submit (p : Pipeline) : p.submit.phase = p.phase := by
  unfold submit
  split <;> rfl

theorem phase_requery (p : Pipeline) : p.requery.phase = p.phase := by
  unfold requery
  split
  · exact phase_submit _
  · rfl

/-- A requery that begins, or is awaited already, in a new phase. -/
theorem retryInv_requery (h : InStep p) (hready : p.engine.flight = .idle ∨ Ordered p)
    {phase : Phase} (hphase : phase ≠ .notStarted) :
    RetryInv (requery { p with phase := phase }) := by
  have hbegun : InStep { p with phase := phase } := ⟨h.slots, h.lines, h.oneLiners⟩
  obtain ⟨hstep, hordered⟩ := inStep_requery hbegun hready
  exact ⟨hstep, fun hnot => absurd ((phase_requery _).symm.trans hnot) hphase, fun _ => hordered⟩

theorem retryInv_attempt (h : InStep p) (hready : p.engine.flight = .idle ∨ Ordered p) (n : Nat) :
    RetryInv (p.attempt n) := by
  unfold attempt
  split
  · exact retryInv_requery h hready (by simp)
  · exact retryInv_requery h hready (by simp)

end Pipeline

/-- What the FIFO needs of an event: one line for each command of another caller, and blocks
that their own body does not close. -/
def Event.Admissible : Event → Prop
  | .channel action => action.Admissible
  | _ => True

instance : DecidablePred Event.Admissible
  | .channel action => inferInstanceAs (Decidable action.Admissible)
  | .start | .markDirty | .setModel _ | .micro _ | .timeout | .stop => isTrue trivial

variable {decode : Bytes → String} {p p' : Pipeline}

/-- Tokens and answers register no slot. -/
theorem registered_channelStep {w w' : Channel} {action : ChannelAction}
    (hstep : w.step action = some w') : w.corr.registered ≤ w'.corr.registered := by
  cases action with
  | send command =>
    cases hstep
    exact Nat.le_succ _
  | sendBatch commands =>
    cases hstep
    exact registered_le_sendBatch w.corr commands
  | cancelOldest count err =>
    cases hstep
    exact Nat.le_refl _
  | reply block =>
    simp only [Channel.step] at hstep
    split at hstep <;> cases hstep
    exact Nat.le_refl _
  | startup block =>
    simp only [Channel.step] at hstep
    split at hstep <;> cases hstep
    exact Nat.le_refl _
  | notify note =>
    cases hstep
    exact Nat.le_refl _
  | chunk n =>
    cases hstep
    exact Nat.le_refl _
  | token =>
    simp only [Channel.step] at hstep
    split at hstep <;> cases hstep
    next t ts _ =>
    exact (CommandCorrelator.push_frame w.corr t).1.ge

/-- What changes the channel only. -/
theorem RetryInv.setChannel (h : RetryInv p) {channel : Channel}
    (hstep : InStep { p with channel := channel })
    (hle : p.channel.corr.registered ≤ channel.corr.registered) :
    RetryInv { p with channel := channel } :=
  ⟨hstep, h.waiting, fun hne => ⟨(h.ordered hne).1, Nat.lt_of_lt_of_le (h.ordered hne).2 hle⟩⟩

/-- What changes the engine only, while it is in flight or after it was. -/
theorem RetryInv.setEngine (h : RetryInv p) {engine : RequeryEngine} (hlines : OneLiners engine)
    (hwaiting : p.engine.flight = .idle → engine.flight = .idle) :
    RetryInv { p with engine := engine } :=
  ⟨⟨h.inStep.slots, h.inStep.lines, hlines⟩,
    fun hnot => ⟨hwaiting (h.waiting hnot).1, (h.waiting hnot).2⟩, h.ordered⟩

/-- tmux and the reader of its bytes. -/
theorem retryInv_channelStep (h : RetryInv p) (hrun : p.stopped = false) {action : ChannelAction}
    (hadmissible : action.Admissible) {channel : Channel}
    (hstep : p.channel.step action = some channel) : RetryInv { p with channel := channel } := by
  have hinv := Channel.step_inv p.channel action channel
    ⟨h.inStep.slots, h.inStep.lines hrun⟩ hadmissible hstep
  exact h.setChannel ⟨hinv.1, fun _ => hinv.2, h.inStep.oneLiners⟩ (registered_channelStep hstep)

theorem retryInv_microStep (h : RetryInv p) {m : Micro} (hstep : microStep decode p m = some p') :
    RetryInv p' := by
  have hstarted : ∀ event engine, p.engine.flight ≠ .idle →
      Requery.step decode p.engine event = some engine → RetryInv { p with engine := engine } :=
    fun event engine hne hengine =>
      h.setEngine (h.inStep.oneLiners.step decode hengine) fun hidle => absurd hidle hne
  cases m with
  | windowsReply =>
    obtain ⟨outcome, -, hmap⟩ := Option.bind_eq_some_iff.mp hstep
    obtain ⟨engine, hengine, rfl⟩ := Option.map_eq_some_iff.mp hmap
    exact hstarted _ engine (fun hidle => by simp [Requery.step, hidle] at hengine) hengine
  | panesReply =>
    obtain ⟨outcome, -, hmap⟩ := Option.bind_eq_some_iff.mp hstep
    obtain ⟨engine, hengine, rfl⟩ := Option.map_eq_some_iff.mp hmap
    exact hstarted _ engine (fun hidle => by simp [Requery.step, hidle] at hengine) hengine
  | resume =>
    obtain ⟨engine, hengine, rfl⟩ := Option.map_eq_some_iff.mp hstep
    have hne : p.engine.flight ≠ .idle := fun hidle => by simp [Requery.step, hidle] at hengine
    have hbegun := hstarted _ engine hne hengine
    have hphase : p.phase ≠ .notStarted := fun hnot => hne (h.waiting hnot).1
    obtain ⟨hsubmitted, hordered⟩ := Pipeline.inStep_submit hbegun.inStep
    exact ⟨hsubmitted, fun hnot => absurd ((Pipeline.phase_submit _).symm.trans hnot) hphase,
      fun _ => hordered (.inl (hbegun.ordered hphase))⟩
  | release =>
    obtain ⟨engine, hengine, rfl⟩ := Option.map_eq_some_iff.mp hstep
    have hne : p.engine.flight ≠ .idle := fun hidle => by simp [Requery.step, hidle] at hengine
    have hdone := hstarted _ engine hne hengine
    exact ⟨⟨hdone.inStep.slots, hdone.inStep.lines, hdone.inStep.oneLiners⟩,
      fun hnot => absurd (h.waiting hnot).1 hne, hdone.ordered⟩
  | afterRequery =>
    simp only [microStep] at hstep
    split at hstep
    · next hsettled =>
      cases hstep
      have hphase : p.phase ≠ .notStarted := fun hnot => by
        cases hsettled.symm.trans (h.waiting hnot).2
      have hstep : InStep { p with settled := false } :=
        ⟨h.inStep.slots, h.inStep.lines, h.inStep.oneLiners⟩
      have hreturned : RetryInv { p with settled := false, phase := .returned } :=
        ⟨⟨h.inStep.slots, h.inStep.lines, h.inStep.oneLiners⟩, fun hnot => (by cases hnot),
          fun _ => h.ordered hphase⟩
      unfold Pipeline.afterRequery
      split
      · exact hreturned
      · exact Pipeline.retryInv_attempt hstep (.inr (h.ordered hphase)) _
      · exact hreturned
      · exact ⟨hstep, fun _ => absurd ‹_› hphase, fun _ => h.ordered hphase⟩
    · cases hstep

theorem retryInv_cancelStalled (h : RetryInv p) (hphase : p.phase ≠ .notStarted) (n : Nat) :
    RetryInv (p.cancelStalled n) ∧
      (p.cancelStalled n).channel.ledger = p.channel.ledger ++
        (p.channel.unsettled.take BOOTSTRAP_SLOT_COUNT).map fun k =>
          (k, .rejected (p.stallError n)) := by
  obtain ⟨read, hslots⟩ := h.inStep.slots
  have hcancelled := Channel.slots_cancelOldest BOOTSTRAP_SLOT_COUNT (p.stallError n) hslots
  have hstate := Channel.cancelOldest_state hslots BOOTSTRAP_SLOT_COUNT (p.stallError n)
  have hstdin := congrArg Channel.stdin hstate
  have hregistered := congrArg (fun w => w.corr.registered) hstate
  refine ⟨⟨⟨⟨read, hcancelled⟩, fun hrun => ?_, h.inStep.oneLiners⟩, fun hnot => (by cases hnot),
    fun _ => ⟨(h.ordered hphase).1, ?_⟩⟩, congrArg Channel.ledger hstate⟩
  · exact (congrArg (List.count LF) hstdin).trans ((h.inStep.lines hrun).trans hregistered.symm)
  · exact lt_of_lt_of_eq (h.ordered hphase).2 hregistered.symm

theorem phase_of_stalled {n : Nat} (h : stalled decode p = some n) : p.phase = .racing n := by
  unfold stalled at h
  split at h
  · split at h
    · cases h
      assumption
    · cases h
  · cases h

/-- Every admissible event keeps the invariant. -/
theorem retryInv_step (h : RetryInv p) {event : Event} (hadmissible : event.Admissible)
    (hstep : step decode p event = some p') : RetryInv p' := by
  cases event with
  | start =>
    simp only [step] at hstep
    split at hstep
    · next hnot =>
      cases hstep
      have hidle := (h.waiting hnot).1
      unfold Pipeline.start
      split
      · exact Pipeline.retryInv_requery h.inStep (.inl hidle) (by simp)
      · exact Pipeline.retryInv_attempt h.inStep (.inl hidle) 1
    · cases hstep
  | channel action =>
    have hread : ∀ q, (if p.stopped then none
        else (p.channel.step action).map fun channel => { p with channel }) = some q →
        RetryInv q := by
      intro q hq
      split at hq
      · cases hq
      · next hrun =>
        obtain ⟨channel, hchannel, rfl⟩ := Option.map_eq_some_iff.mp hq
        exact retryInv_channelStep h (Bool.not_eq_true _ ▸ hrun) hadmissible hchannel
    cases action with
    | send command =>
      cases hstep
      exact h.setChannel (Pipeline.inStep_send h.inStep hadmissible)
        ((Pipeline.registered_send p command).symm ▸ Nat.le_succ _)
    | sendBatch commands =>
      cases hstep
      exact h.setChannel (Pipeline.inStep_sendBatch h.inStep hadmissible)
        (Pipeline.registered_sendBatch p commands)
    | cancelOldest count err => cases hstep
    | reply block => exact hread p' hstep
    | startup block => exact hread p' hstep
    | notify note => exact hread p' hstep
    | chunk n =>
      refine hread p' ?_
      simp only [step] at hstep
      split at hstep
      · cases hstep
      · next hopen => rwa [if_neg fun hstopped => hopen (.inr hstopped)]
    | token =>
      refine hread p' ?_
      simp only [step] at hstep
      split at hstep
      · cases hstep
      · next hopen => rwa [if_neg fun hstopped => hopen (.inr hstopped)]
  | markDirty =>
    cases hstep
    exact h.setEngine ⟨h.inStep.oneLiners.name, h.inStep.oneLiners.commands⟩ fun hidle => hidle
  | setModel model =>
    cases hstep
    exact h.setEngine ⟨h.inStep.oneLiners.name, h.inStep.oneLiners.commands⟩ fun hidle => hidle
  | micro m => exact retryInv_microStep h hstep
  | timeout =>
    obtain ⟨n, hn, rfl⟩ := Option.map_eq_some_iff.mp hstep
    exact (retryInv_cancelStalled h (by simp [phase_of_stalled hn]) n).1
  | stop =>
    cases hstep
    exact ⟨⟨h.inStep.slots, fun hrun => (by cases hrun), h.inStep.oneLiners⟩, h.waiting, h.ordered⟩

/-! ## Cancellations -/

theorem outstanding_sublist (h : Ordered p) : p.outstanding.Sublist p.channel.unsettled := by
  refine List.Sublist.filter _ ?_
  obtain ⟨m, hm⟩ := Nat.exists_eq_add_of_lt h.2
  have hsplit : List.range p.channel.corr.registered =
      List.range p.slots.1 ++ ([p.slots.1, p.slots.2] ++ List.range' (p.slots.1 + 2) m) := by
    have htail : [p.slots.1, p.slots.2] ++ List.range' (p.slots.1 + 2) m =
        List.range' p.slots.1 (2 + m) := by
      rw [h.1, ← List.range'_append_1]
      rfl
    rw [htail, List.range_eq_range', List.range_eq_range', hm, h.1]
    have happend := @List.range'_append_1 0 p.slots.1 (2 + m)
    rw [Nat.zero_add] at happend
    rw [happend]
    congr 1
    omega
  rw [hsplit]
  exact (List.sublist_append_left _ _).trans (List.sublist_append_right _ _)

/-- A timeout settles the outstanding slots of the bootstrap, in order, and no others. -/
def CancelsOwn (decode : Bytes → String) (p : Pipeline) : Event → Prop
  | .timeout => ∀ p', step decode p .timeout = some p' →
      ∃ err, p'.channel.ledger = p.channel.ledger ++ p.outstanding.map fun k => (k, .rejected err)
  | _ => True

/-- At a stall, no live slot of another caller is before the outstanding slots, and there is
none at all if one of the two listings was answered. -/
def Clear (decode : Bytes → String) (p : Pipeline) : Event → Prop
  | .timeout => (stalled decode p).isSome → ∀ k ∈ p.channel.unsettled, k ∉ p.outstanding →
      p.outstanding.length = BOOTSTRAP_SLOT_COUNT ∧ ∀ o ∈ p.outstanding, o < k
  | _ => True

instance (decode : Bytes → String) (p : Pipeline) : DecidablePred (Clear decode p)
  | .timeout => inferInstanceAs (Decidable (_ → _))
  | .start | .channel _ | .markDirty | .setModel _ | .micro _ | .stop => isTrue trivial

theorem cancelsOwn_iff (h : RetryInv p) (event : Event) :
    CancelsOwn decode p event ↔ Clear decode p event := by
  cases event with
  | timeout =>
    have hstep : ∀ p', step decode p .timeout = some p' ↔
        ∃ n, stalled decode p = some n ∧ p.cancelStalled n = p' := fun p' =>
      Option.map_eq_some_iff
    cases hstalled : stalled decode p with
    | none =>
      refine iff_of_true (fun p' hp' => ?_) fun hsome => ?_
      · obtain ⟨n, hn, -⟩ := (hstep p').mp hp'
        cases hstalled.symm.trans hn
      · simp [hstalled] at hsome
    | some n =>
      have hphase : p.phase ≠ .notStarted := by simp [phase_of_stalled hstalled]
      have hsorted : p.channel.unsettled.Pairwise (· < ·) := List.pairwise_lt_range.filter _
      have hlen : p.outstanding.length ≤ BOOTSTRAP_SLOT_COUNT := List.length_filter_le _ _
      have htake := take_eq_iff hsorted (outstanding_sublist (h.ordered hphase)) hlen
      obtain ⟨-, hledger⟩ := retryInv_cancelStalled h hphase n
      constructor
      · intro hown _
        obtain ⟨err, heq⟩ := hown _ ((hstep _).mpr ⟨n, hstalled, rfl⟩)
        rw [hledger] at heq
        have hids := congrArg (List.map Prod.fst) (List.append_cancel_left heq)
        rw [List.map_map, List.map_map] at hids
        exact htake.mp (by simpa [Function.comp_def] using hids)
      · intro hclear p' hp'
        obtain ⟨m, hm, rfl⟩ := (hstep p').mp hp'
        obtain rfl := Option.some.inj (hstalled.symm.trans hm)
        exact ⟨_, by rw [hledger, htake.mpr (hclear (by simp [hstalled]))]⟩
  | start => exact Iff.rfl
  | channel action => exact Iff.rfl
  | markDirty => exact Iff.rfl
  | setModel model => exact Iff.rfl
  | micro m => exact Iff.rfl
  | stop => exact Iff.rfl

theorem along_cancelsOwn_iff (h : RetryInv p) {events : List Event}
    (hevents : ∀ event ∈ events, event.Admissible) :
    Along (step decode) (CancelsOwn decode) p events ↔
      Along (step decode) (Clear decode) p events := by
  induction events generalizing p with
  | nil => exact Iff.rfl
  | cons event events ih =>
    rw [Along, Along, cancelsOwn_iff h]
    refine and_congr_right fun _ => forall_congr' fun p' => forall_congr' fun hstep => ?_
    exact ih (retryInv_step h (hevents event List.mem_cons_self) hstep)
      fun e he => hevents e (List.mem_cons_of_mem _ he)

theorem retryInv_new (dcs : Bool) {sessionName : Option String} (timeoutMs : Int)
    (hname : ∀ name, sessionName = some name → OneLine name) :
    RetryInv (.new dcs sessionName timeoutMs) := by
  obtain ⟨hslots, hlines⟩ := Channel.inv_start dcs
  exact ⟨⟨hslots, fun _ => hlines, hname, fun cycle hflight => by cases hflight⟩,
    fun _ => ⟨rfl, rfl⟩, fun hne => absurd rfl hne⟩

/-- Every cancellation of a run takes the bootstrap's outstanding slots and no others, and every
promise is settled by its own reply or its own cancellation, if and only if every stall of the
run is clear of other callers. -/
theorem retry_iff (decode : Bytes → String) (dcs : Bool) (sessionName : Option String)
    (timeoutMs : Int) (events : List Event)
    (hname : ∀ name, sessionName = some name → OneLine name)
    (hevents : ∀ event ∈ events, event.Admissible) :
    (Along (step decode) (CancelsOwn decode) (.new dcs sessionName timeoutMs) events ∧
        ∀ done p, done <+: events →
          exec (step decode) (.new dcs sessionName timeoutMs) done = some p →
          ∀ k, p.channel.FifoLaw k) ↔
      Along (step decode) (Clear decode) (.new dcs sessionName timeoutMs) events := by
  have hinit := retryInv_new dcs timeoutMs hname
  rw [along_cancelsOwn_iff hinit hevents]
  refine and_iff_left fun done p hdone hrun k => ?_
  have hinv := exec_invariant (fun _ _ _ h hadmissible hstep => retryInv_step h hadmissible hstep)
    hinit (along_of_forall _ (fun event he => hevents event (hdone.subset he)) _) hrun
  obtain ⟨read, hslots⟩ := hinv.inStep.slots
  exact Channel.fifoLaw_of_slots hslots k

/-- Neither listing is answered, and another caller's command was sent after them; the
listings are cancelled and sent again. -/
theorem retry_iff_stall :
    Along (step fromCharCodes) (CancelsOwn fromCharCodes) (.new false (some "main") 3500)
        [.start, .channel (.send (ascii "list-keys")), .timeout, .micro .windowsReply,
          .micro .resume, .micro .release, .micro .afterRequery] ∧
      ∀ done p, done <+: [.start, .channel (.send (ascii "list-keys")), .timeout,
          .micro .windowsReply, .micro .resume, .micro .release, .micro .afterRequery] →
        exec (step fromCharCodes) (.new false (some "main") 3500) done = some p →
        ∀ k, p.channel.FifoLaw k :=
  (retry_iff fromCharCodes false (some "main") 3500
    [.start, .channel (.send (ascii "list-keys")), .timeout, .micro .windowsReply, .micro .resume,
      .micro .release, .micro .afterRequery]
    (fun name hname => Option.some.inj hname ▸ by decide) (by decide)).mpr (by decide +kernel)

/-- An empty answer to the first command. -/
def firstAnswer : Block := ⟨⟨1, 2, 1⟩, [], .ok, by simp⟩

theorem firstAnswer_tokens : (ControlTokenizer.init.push (firstAnswer.bytes.take 100)).2 =
    [.blockBegin ⟨1, 2, 1⟩, .blockEnd ⟨1, 2, 1⟩] := by
  rw [push_realises.out_push]
  decide

/-- tmux answers the first command of a channel, and the answer is tokenized. -/
theorem exec_firstAnswer (hstarted : p.phase ≠ .notStarted) (hrun : p.stopped = false)
    (htok : p.channel.tok = .init) (hqueue : p.channel.queue = []) (hwire : p.channel.wire = [])
    (hreplies : p.channel.replies = []) (hsent : 0 < p.channel.stdin.count LF) :
    exec (step decode) p [.channel (.reply firstAnswer), .channel (.chunk 100)] =
      some { p with channel := { p.channel with
        tok := (ControlTokenizer.init.push (firstAnswer.bytes.take 100)).1
        queue := [.blockBegin ⟨1, 2, 1⟩, .blockEnd ⟨1, 2, 1⟩]
        wire := firstAnswer.bytes.drop 100
        replies := [firstAnswer] } } := by
  have hflags : firstAnswer.guard.flags ≠ 0 := by decide
  rw [← firstAnswer_tokens]
  simp [exec_cons, step, Channel.step, hstarted, hrun, htok, hqueue, hwire, hreplies, hsent, hflags]

/-- A bootstrap, and another caller's command behind its listings. -/
def busyStart : Pipeline := (Pipeline.new false none 3500).start.send (ascii "list-keys")

/-- The first listing is answered, and the second one stalls while another caller waits. -/
def halfAnswered : List Event :=
  [.start, .channel (.send (ascii "list-keys"))] ++
    ([.channel (.reply firstAnswer), .channel (.chunk 100)] ++
      [.channel .token, .channel .token, .micro .windowsReply, .timeout])

/-- The other caller's slot is cancelled. -/
theorem foreign_cancelled :
    ¬Along (step fromCharCodes) (CancelsOwn fromCharCodes) (.new false none 3500) halfAnswered := by
  rw [along_cancelsOwn_iff (retryInv_new false 3500 (by simp)) (by decide)]
  intro halong
  have hbusy := ((along_append _).mp halong).2 busyStart rfl
  have hread := @exec_firstAnswer fromCharCodes busyStart (by decide +kernel) rfl rfl rfl rfl rfl
    (by decide +kernel)
  exact absurd (((along_append _).mp hbusy).2 _ hread) (by decide +kernel)

end TmuxccDriver.Runtime.BootstrapRetry
