import Mathlib.Data.List.Nodup
import TmuxccDriver.Lib.Run
import TmuxccDriver.Parser.Correlator
import TmuxccDriver.Parser.Framing

/-!
# The control channel

The driver and tmux together: the driver calls `send`, `sendBatch` and `cancelOldest`
and reads the stream in chunks; tmux answers the command lines in the order they were
written, with startup blocks and notifications anywhere between the answers.

The tokens of a chunk are handed to the correlator one by one, and a handler or a
promise continuation may call the correlator between any two of them, so a chunk and
each of its tokens are separate actions.

Results:
1. `step_inv`: every action that `Admissible` allows keeps the invariant `Inv`.
2. `fifo_law_of_run`: in every run of such actions each command line's promise is
   settled at most once, by its own reply or its own cancellation, and is settled once
   the stream has been read past its reply.
-/

namespace TmuxccDriver.Parser
open TmuxccDriver.Lib

/-! ## What tmux writes -/

/-- One block of the stream. -/
structure Block where
  guard : GuardFields
  body : List Bytes
  terminator : Terminator
  body_lines : ∀ l ∈ body, LF ∉ l

namespace Block

def bytes (b : Block) : Bytes := terminated (blockLines b.guard b.body b.terminator)

/-- The lines of the body as the tokenizer hands them on: without a trailing CR. -/
def rows (b : Block) : List Bytes := b.body.map stripTrailingCr

def tokens (b : Block) : List ControlToken := blockTokens b.guard b.rows b.terminator

/-- What a caller gets when this block answers its command. -/
def result (b : Block) : CommandResult :=
  ⟨b.terminator = .ok, b.guard.commandNumber, joinLf b.rows⟩

/-- No body line is taken for the end of the block. -/
def Opaque (b : Block) : Prop := ∀ l ∈ b.body, closes (stripTrailingCr l) = false

theorem run_bytes (b : Block) (h : b.Opaque) :
    byteTokenizer.run (.atLine .outside) b.bytes = (.atLine .outside, b.tokens) :=
  run_block b.guard b.body b.body_lines h b.terminator

end Block

/-- A line between two blocks: it starts with `%`, reaches its LF and opens no block. -/
structure NotificationLine where
  line : Bytes
  head_eq : line.head? = some PERCENT
  reads : ReadsLine .outside line
  not_begin : (lineTokenizer.step .outside line).1 = .outside

/-! ## The system -/

/-- The driver's side and tmux's side of the channel. `ledger` and `cancels` record the
settle calls and the cancellations, `replies` the answers tmux has written. -/
structure Channel where
  corr : CommandCorrelator
  tok : ControlTokenizer
  /-- Tokens of the current chunk that the correlator has not seen. -/
  queue : List ControlToken
  /-- All bytes written to tmux. -/
  stdin : Bytes
  /-- Bytes of tmux that the driver has not read. -/
  wire : Bytes
  replies : List Block
  ledger : List (Nat × Outcome)
  cancels : List (Nat × Error)

/-- What can happen next. -/
inductive ChannelAction
  | send (command : Bytes)
  | sendBatch (commands : List Bytes)
  | cancelOldest (count : Nat) (err : Error)
  | reply (block : Block)
  | startup (block : Block)
  | notify (note : NotificationLine)
  /-- Read the next `n` bytes and tokenize them. -/
  | chunk (n : Nat)
  /-- Hand the next token to the correlator. -/
  | token

namespace Channel

/-- Before anything was written; tmux may open a DCS first. -/
def start (dcs : Bool) : Channel :=
  ⟨.init, .init, [], [], if dcs then DCS_INTRO else [], [], [], []⟩

/-- The settle calls on the promise `k`, in order. -/
def settlements (w : Channel) (k : Nat) : List Outcome :=
  (w.ledger.filter fun e => e.1 = k).map Prod.snd

/-- The command lines whose promise is not settled, oldest first. -/
def unsettled (w : Channel) : List Nat :=
  (List.range w.corr.registered).filter fun k => w.settlements k = []

def perform (w : Channel) : Effect → Channel
  | .write data => { w with stdin := w.stdin ++ data }
  | .settle id outcome => { w with ledger := w.ledger ++ [(id, outcome)] }
  | .notify _ _ => w
  | .unsolicitedBlock => w

/-- Continue with the result of a call of the correlator. -/
def after (w : Channel) (result : CommandCorrelator × List Effect) : Channel :=
  { result.2.foldl perform w with corr := result.1 }

/-- One action; `none` when it is not enabled. tmux answers a command line only after
reading it, with the flags of a client's command, and uses flags 0 for startup blocks. -/
def step (w : Channel) : ChannelAction → Option Channel
  | .send command => some (w.after (w.corr.send command))
  | .sendBatch commands => some (w.after (w.corr.sendBatch commands))
  | .cancelOldest count err =>
    some { w.after (w.corr.cancelOldest count err) with
      cancels := w.cancels ++ (w.unsettled.take count).map fun k => (k, err) }
  | .reply block =>
    if block.guard.flags ≠ 0 ∧ w.replies.length < w.stdin.count LF then
      some { w with wire := w.wire ++ block.bytes, replies := w.replies ++ [block] }
    else none
  | .startup block =>
    if block.guard.flags = 0 then some { w with wire := w.wire ++ block.bytes } else none
  | .notify note => some { w with wire := w.wire ++ (note.line ++ [LF]) }
  | .chunk n =>
    let (tok, tokens) := w.tok.push (w.wire.take n)
    some { w with tok, queue := w.queue ++ tokens, wire := w.wire.drop n }
  | .token =>
    match w.queue with
    | [] => none
    | t :: ts => some ({ w with queue := ts }.after (w.corr.push t))

/-- The law for the `k`-th command line. -/
structure FifoLaw (w : Channel) (k : Nat) : Prop where
  /-- Never settled twice, and only with its own reply or its own cancellation. -/
  settled : w.settlements k = [] ∨
    (∃ err, w.settlements k = [.rejected err] ∧ (k, err) ∈ w.cancels) ∨
    (∃ b, w.replies[k]? = some b ∧ w.settlements k = [.resolved b.result])
  /-- Settled when everything tmux wrote has been read and it was answered. -/
  answered : w.wire = [] → w.queue = [] → k < w.replies.length → w.settlements k ≠ []

end Channel

/-- What the law needs of an action: one line for each command, and blocks that their
own body does not close. -/
def ChannelAction.Admissible : ChannelAction → Prop
  | .send command => LF ∉ command
  | .sendBatch commands => ∀ c ∈ commands, LF ∉ c
  | .reply block => block.Opaque
  | .startup block => block.Opaque
  | _ => True

instance (b : Block) : Decidable b.Opaque :=
  inferInstanceAs (Decidable (∀ l ∈ b.body, closes (stripTrailingCr l) = false))

instance : DecidablePred ChannelAction.Admissible
  | .send command => inferInstanceAs (Decidable (LF ∉ command))
  | .sendBatch commands => inferInstanceAs (Decidable (∀ c ∈ commands, LF ∉ c))
  | .reply block => inferInstanceAs (Decidable block.Opaque)
  | .startup block => inferInstanceAs (Decidable block.Opaque)
  | .cancelOldest _ _ | .notify _ | .chunk _ | .token => isTrue trivial

/-! ## The stream ahead of the correlator -/

/-- A token that the correlator does not act on. -/
def Inert : ControlToken → Prop
  | .notification _ _ => True
  | .dcsOpen => True
  | _ => False

/-- The tokens of whole blocks, with the replies among them in order. -/
inductive Stream : List ControlToken → List Block → Prop
  | nil : Stream [] []
  | inert {t ts bs} (h : Inert t) (rest : Stream ts bs) : Stream (t :: ts) bs
  | reply {ts bs} (b : Block) (h : b.guard.flags ≠ 0) (rest : Stream ts bs) :
      Stream (b.tokens ++ ts) (b :: bs)
  | startup {ts bs} (b : Block) (h : b.guard.flags = 0) (rest : Stream ts bs) :
      Stream (b.tokens ++ ts) bs

/-- The tokens after what the correlator has read: the rest of the open block, if there
is one, and whole blocks. -/
inductive Ahead : Option InFlight → List ControlToken → List Block → Prop
  | idle {ts bs} (rest : Stream ts bs) : Ahead none ts bs
  | inside {ts bs} (f : InFlight) (b : Block) (later : List Bytes)
      (hnum : f.commandNumber = b.guard.commandNumber)
      (hflags : f.isStartupBlock = true ↔ b.guard.flags = 0)
      (hrows : f.bodyChunks ++ later = b.rows) (rest : Stream ts bs) :
      Ahead (some f) (later.map .blockBody ++ b.terminator.token b.guard :: ts)
        (if f.isStartupBlock then bs else b :: bs)

theorem Stream.append {ts us : List ControlToken} {bs cs : List Block} (h : Stream ts bs)
    (h' : Stream us cs) : Stream (ts ++ us) (bs ++ cs) := by
  induction h with
  | nil => exact h'
  | inert ht _ ih => exact .inert ht ih
  | reply b hb _ ih =>
    rw [List.append_assoc]
    exact .reply b hb ih
  | startup b hb _ ih =>
    rw [List.append_assoc]
    exact .startup b hb ih

theorem Ahead.append {f : Option InFlight} {ts us : List ControlToken} {bs cs : List Block}
    (h : Ahead f ts bs) (h' : Stream us cs) : Ahead f (ts ++ us) (bs ++ cs) := by
  cases h with
  | idle rest => exact .idle (rest.append h')
  | inside f b later hnum hflags hrows rest =>
    have hin := Ahead.inside f b later hnum hflags hrows (rest.append h')
    rw [List.append_assoc, List.cons_append]
    cases hs : f.isStartupBlock with
    | true => simpa [hs] using hin
    | false => simpa [hs] using hin

theorem Stream.eq_nil {ts : List ControlToken} {bs : List Block} (h : Stream ts bs)
    (hts : ts = []) : bs = [] := by
  cases h with
  | nil => rfl
  | inert ht rest => cases hts
  | reply b hb rest => simp [Block.tokens, blockTokens] at hts
  | startup b hb rest => simp [Block.tokens, blockTokens] at hts

theorem Ahead.eq_nil {f : Option InFlight} {ts : List ControlToken} {bs : List Block}
    (h : Ahead f ts bs) (hts : ts = []) : bs = [] := by
  cases h with
  | idle rest => exact rest.eq_nil hts
  | inside f b later hnum hflags hrows rest => simp at hts

/-! ## The invariant -/

/-- The tokens between tmux and the correlator. -/
def Channel.ahead (w : Channel) : List ControlToken :=
  w.queue ++ byteTokenizer.output w.tok.abs w.wire

/-- Where the promise `k` stands when `read` replies have been handed out. -/
def Channel.Stands (w : Channel) (read k : Nat) : Prop :=
  (w.settlements k = [] ∧ read ≤ k) ∨
  (∃ err, w.settlements k = [.rejected err] ∧ (k, err) ∈ w.cancels) ∨
  (k < read ∧ ∃ b, w.replies[k]? = some b ∧ w.settlements k = [.resolved b.result])

/-- `read` replies have been handed out; the slots are those of the command lines after
them, in order, and the replies still ahead are those after them, in order. -/
structure Slots (w : Channel) (read : Nat) : Prop where
  ids : w.corr.pending.map (·.id) = List.range' read w.corr.pending.length
  registered : read + w.corr.pending.length = w.corr.registered
  replies_le : w.replies.length ≤ w.corr.registered
  read_le : read ≤ w.replies.length
  flags : ∀ p ∈ w.corr.pending, (p.cancelled = true ↔ w.settlements p.id ≠ [])
  stands : ∀ k < w.corr.registered, w.Stands read k
  fresh : ∀ e ∈ w.ledger, e.1 < w.corr.registered
  /-- The open block of a reply is bound to the oldest slot. -/
  bound : ∀ f, w.corr.inFlight = some f → f.isStartupBlock = false →
    w.corr.pending.head?.map (·.expectedCommandNumber) = some (some f.commandNumber)
  ahead : Ahead w.corr.inFlight w.ahead (w.replies.drop read)
  ready : byteTokenizer.final w.tok.abs w.wire = .atLine .outside ∨
    byteTokenizer.final w.tok.abs w.wire = ControlTokenizer.init.abs

/-- The invariant: the slots are in step with the replies, and there are as many slots
as command lines. -/
def Inv (w : Channel) : Prop :=
  (∃ read, Slots w read) ∧ w.stdin.count LF = w.corr.registered

namespace Channel

theorem settlements_of_fresh {w : Channel} {read k : Nat} (h : Slots w read)
    (hk : w.corr.registered ≤ k) : w.settlements k = [] := by
  have hnone : (w.ledger.filter fun e => e.1 = k) = [] := by
    rw [List.filter_eq_nil_iff]
    intro e he
    have hlt := h.fresh e he
    simp only [decide_eq_true_eq]
    omega
  rw [settlements, hnone, List.map_nil]

/-- The law is what the invariant says about one promise. -/
theorem fifoLaw_of_slots {w : Channel} {read : Nat} (h : Slots w read) (k : Nat) : FifoLaw w k := by
  by_cases hk : k < w.corr.registered
  · refine ⟨?_, ?_⟩
    · rcases h.stands k hk with ⟨hs, _⟩ | hs | ⟨_, hs⟩
      · exact .inl hs
      · exact .inr (.inl hs)
      · exact .inr (.inr hs)
    · intro hwire hqueue hreply
      -- Nothing is ahead, so every reply has been handed out.
      have hahead := h.ahead
      rw [show w.ahead = [] by simp [ahead, hwire, hqueue]] at hahead
      have hdrop : w.replies.drop read = [] := hahead.eq_nil rfl
      have hread : w.replies.length ≤ read := List.drop_eq_nil_iff.mp hdrop
      rcases h.stands k hk with ⟨_, hle⟩ | ⟨err, hs, _⟩ | ⟨_, b, _, hs⟩
      · omega
      · simp [hs]
      · simp [hs]
  · have hnone := settlements_of_fresh h (Nat.le_of_not_lt hk)
    refine ⟨.inl hnone, fun _ _ hreply => ?_⟩
    have hle := h.replies_le
    omega

/-! ## Calls of the driver -/

theorem slots_expectCommand {w : Channel} {read : Nat} (h : Slots w read) :
    Slots { w with corr := w.corr.expectCommand } read := by
  have hle := h.replies_le
  have hreg := h.registered
  refine ⟨?_, ?_, ?_, h.read_le, ?_, ?_, ?_, ?_, h.ahead, h.ready⟩
  · simp only [CommandCorrelator.expectCommand, List.map_append, h.ids, List.length_append,
      List.map_cons, List.map_nil, List.length_cons, List.length_nil, ← hreg]
    rw [← List.range'_append_1]
    simp
  · simp only [CommandCorrelator.expectCommand, List.length_append, List.length_cons,
      List.length_nil]
    omega
  · simp only [CommandCorrelator.expectCommand]
    omega
  · intro p hp
    rcases List.mem_append.mp hp with hp | hp
    · exact h.flags p hp
    · obtain rfl : p = ⟨w.corr.registered, none, false⟩ := by simpa using hp
      have hnone := settlements_of_fresh h (Nat.le_refl _)
      constructor
      · intro hc
        cases hc
      · intro hne
        exact absurd hnone hne
  · intro k hk
    simp only [CommandCorrelator.expectCommand] at hk
    by_cases hlt : k < w.corr.registered
    · exact h.stands k hlt
    · have hnone := settlements_of_fresh h (Nat.le_of_not_lt hlt)
      exact .inl ⟨hnone, by omega⟩
  · intro e he
    have hlt := h.fresh e he
    simp only [CommandCorrelator.expectCommand]
    omega
  · intro f hf hs
    have hb := h.bound f hf hs
    -- The oldest slot is still the oldest.
    cases hpend : w.corr.pending with
    | nil => simp [hpend] at hb
    | cons p ps =>
      rw [hpend] at hb
      simpa [CommandCorrelator.expectCommand, hpend] using hb

theorem slots_expectCommands {w : Channel} {read : Nat} (n : Nat) (h : Slots w read) :
    Slots { w with corr := w.corr.expectCommands n } read := by
  induction n generalizing w with
  | zero => exact h
  | succ n ih => exact ih (slots_expectCommand h)

theorem slots_write {w : Channel} {read : Nat} (data : Bytes) (h : Slots w read) :
    Slots { w with stdin := w.stdin ++ data } read :=
  ⟨h.ids, h.registered, h.replies_le, h.read_le, h.flags, h.stands, h.fresh, h.bound, h.ahead,
    h.ready⟩

theorem inv_send {w : Channel} (command : Bytes) (hc : LF ∉ command) (h : Inv w) :
    Inv (w.after (w.corr.send command)) := by
  obtain ⟨⟨read, hslots⟩, hlines⟩ := h
  refine ⟨⟨read, slots_write (command ++ [LF]) (slots_expectCommand hslots)⟩, ?_⟩
  have hzero : command.count LF = 0 := List.count_eq_zero.mpr hc
  simp [after, perform, CommandCorrelator.send, CommandCorrelator.expectCommand, hlines, hzero]

theorem inv_sendBatch {w : Channel} (commands : List Bytes) (hc : ∀ c ∈ commands, LF ∉ c)
    (h : Inv w) : Inv (w.after (w.corr.sendBatch commands)) := by
  obtain ⟨⟨read, hslots⟩, hlines⟩ := h
  by_cases hlen : commands.length = 0
  · have hsame : w.after (w.corr.sendBatch commands) = w := by
      simp [after, CommandCorrelator.sendBatch, hlen]
    rw [hsame]
    exact ⟨⟨read, hslots⟩, hlines⟩
  · have hafter : w.after (w.corr.sendBatch commands) =
        { w with
          corr := w.corr.expectCommands commands.length
          stdin := w.stdin ++ terminated commands } := by
      simp [after, perform, CommandCorrelator.sendBatch, hlen]
    rw [hafter]
    refine ⟨⟨read, slots_write (terminated commands)
      (slots_expectCommands commands.length hslots)⟩, ?_⟩
    simp only [List.count_append, hlines, count_terminated commands hc,
      CommandCorrelator.expectCommands_registered]

/-! ## Cancellation -/

/-- Performing settle calls is appending them to the ledger. -/
theorem foldl_perform_settle (w : Channel) (err : Error) (ids : List Nat) :
    (ids.map fun id => Effect.settle id (.rejected err)).foldl perform w =
      { w with ledger := w.ledger ++ ids.map fun id => (id, .rejected err) } := by
  induction ids generalizing w with
  | nil => simp
  | cons id ids ih =>
    rw [List.map_cons, List.foldl_cons, ih]
    simp [perform]

/-- The promises that are not settled are those of the live slots. -/
theorem unsettled_eq_live {w : Channel} {read : Nat} (h : Slots w read) :
    w.unsettled = CommandCorrelator.live w.corr.pending := by
  have hsplit : List.range w.corr.registered =
      List.range read ++ w.corr.pending.map (·.id) := by
    rw [h.ids, ← h.registered, List.range_eq_range', List.range_eq_range', ← List.range'_append_1]
    simp
  have hread : (List.range read).filter (fun k => w.settlements k = []) = [] := by
    rw [List.filter_eq_nil_iff]
    intro k hk
    have hlt : k < read := List.mem_range.mp hk
    have hreg := h.registered
    rcases h.stands k (by omega) with ⟨_, hle⟩ | ⟨err, hs, _⟩ | ⟨_, b, _, hs⟩
    · omega
    · simp [hs]
    · simp [hs]
  rw [unsettled, hsplit, List.filter_append, hread, List.nil_append, List.filter_map,
    CommandCorrelator.live]
  refine congrArg _ (List.filter_congr fun p hp => ?_)
  have hflag := h.flags p hp
  cases hc : p.cancelled with
  | true => simpa [hc] using hflag
  | false => simpa [hc] using hflag

/-- One more settle call for each of `ids`. -/
theorem settlements_append {w w' : Channel} {outcome : Outcome} (ids : List Nat)
    (hnodup : ids.Nodup) (h : w'.ledger = w.ledger ++ ids.map fun id => (id, outcome)) (k : Nat) :
    w'.settlements k = w.settlements k ++ if k ∈ ids then [outcome] else [] := by
  have hnew : ((ids.map fun id => (id, outcome)).filter fun e => e.1 = k).map Prod.snd =
      if k ∈ ids then [outcome] else [] := by
    rw [List.filter_map, List.map_map]
    simp only [Function.comp_def, List.filter_eq, List.map_replicate]
    by_cases hk : k ∈ ids
    · simp [hk, List.nodup_iff_count_eq_one.mp hnodup k hk]
    · simp [hk, List.count_eq_zero.mpr hk]
  rw [settlements, h, List.filter_append, List.map_append, hnew]
  rfl

theorem nodup_ids {w : Channel} {read : Nat} (h : Slots w read) :
    (w.corr.pending.map (·.id)).Nodup := by
  rw [h.ids]
  exact List.nodup_range'

/-- A cancellation rejects the oldest promises that are not settled, and nothing else. -/
theorem cancelOldest_state {w : Channel} {read : Nat} (h : Slots w read) (count : Nat)
    (err : Error) :
    ({ w.after (w.corr.cancelOldest count err) with
        cancels := w.cancels ++ (w.unsettled.take count).map fun k => (k, err) } : Channel) =
      { w with
        corr := { w.corr with pending := (CommandCorrelator.cancelLoop err w.corr.pending count).1 }
        ledger := w.ledger ++ (w.unsettled.take count).map fun id => (id, .rejected err)
        cancels := w.cancels ++ (w.unsettled.take count).map fun k => (k, err) } := by
  rw [unsettled_eq_live h]
  simp only [after, CommandCorrelator.cancelOldest, CommandCorrelator.cancelLoop_effects,
    foldl_perform_settle]

theorem slots_cancelOldest {w : Channel} {read : Nat} (count : Nat) (err : Error)
    (h : Slots w read) :
    Slots { w.after (w.corr.cancelOldest count err) with
      cancels := w.cancels ++ (w.unsettled.take count).map fun k => (k, err) } read := by
  have hnodup := nodup_ids h
  rw [cancelOldest_state h count err, unsettled_eq_live h]
  -- The slots cancelled by this call: the oldest `count` live ones.
  generalize hids : (CommandCorrelator.live w.corr.pending).take count = ids
  have hlive : ∀ k ∈ ids, k ∈ CommandCorrelator.live w.corr.pending := by
    intro k hk
    rw [← hids] at hk
    exact List.mem_of_mem_take hk
  have hidsNodup : ids.Nodup := by
    rw [← hids]
    exact ((hnodup.sublist (List.filter_sublist.map _)).sublist (List.take_sublist _ _))
  have hopen : ∀ k ∈ ids, w.settlements k = [] ∧ k < w.corr.registered := by
    intro k hk
    have hun := hlive k hk
    rw [← unsettled_eq_live h, unsettled, List.mem_filter, List.mem_range] at hun
    exact ⟨by simpa using hun.2, hun.1⟩
  have hlen : (CommandCorrelator.cancelLoop err w.corr.pending count).1.length =
      w.corr.pending.length := by
    have := congrArg List.length (CommandCorrelator.cancelLoop_ids err w.corr.pending count)
    simpa using this
  generalize hw' : ({ w with
        corr := { w.corr with pending := (CommandCorrelator.cancelLoop err w.corr.pending count).1 }
        ledger := w.ledger ++ ids.map fun id => (id, .rejected err)
        cancels := w.cancels ++ ids.map fun k => (k, err) } : Channel) = w'
  have hset : ∀ k, w'.settlements k = w.settlements k ++ if k ∈ ids then [.rejected err] else [] :=
    fun k => settlements_append ids hidsNodup (by rw [← hw']) k
  have hcancels : w'.cancels = w.cancels ++ ids.map fun k => (k, err) := by rw [← hw']
  have hpending : w'.corr.pending = (CommandCorrelator.cancelLoop err w.corr.pending count).1 := by
    rw [← hw']
  refine ⟨?_, ?_, ?_, ?_, ?_, ?_, ?_, ?_, ?_, ?_⟩
  · rw [hpending, hlen, CommandCorrelator.cancelLoop_ids, h.ids]
  · rw [hpending, hlen, ← hw']
    exact h.registered
  · rw [← hw']
    exact h.replies_le
  · rw [← hw']
    exact h.read_le
  · intro q hq
    rw [hpending] at hq
    obtain ⟨p, hp, hid, hflag⟩ :=
      CommandCorrelator.cancelLoop_flags err w.corr.pending count hnodup q hq
    rw [hflag, h.flags p hp, hset, ← hid, hids]
    by_cases hk : p.id ∈ ids
    · simp [hk]
    · simp [hk]
  · intro k hk
    have hk' : k < w.corr.registered := by
      rw [← hw'] at hk
      exact hk
    by_cases hmem : k ∈ ids
    · refine .inr (.inl ⟨err, ?_, ?_⟩)
      · rw [hset, (hopen k hmem).1, if_pos hmem, List.nil_append]
      · rw [hcancels]
        exact List.mem_append_right _ (List.mem_map.mpr ⟨k, hmem, rfl⟩)
    · have hsame : w'.settlements k = w.settlements k := by
        rw [hset, if_neg hmem, List.append_nil]
      have hreplies : w'.replies = w.replies := by rw [← hw']
      rw [Stands, hsame, hreplies, hcancels]
      rcases h.stands k hk' with hs | ⟨err', hs, hc⟩ | hs
      · exact .inl hs
      · exact .inr (.inl ⟨err', hs, List.mem_append_left _ hc⟩)
      · exact .inr (.inr hs)
  · intro e he
    rw [← hw'] at he ⊢
    rcases List.mem_append.mp he with he | he
    · exact h.fresh e he
    · obtain ⟨k, hk, rfl⟩ := List.mem_map.mp he
      exact (hopen k hk).2
  · intro f hf hs
    have hb := h.bound f (by rw [← hw'] at hf; exact hf) hs
    rw [hpending, CommandCorrelator.cancelLoop_head]
    exact hb
  · rw [← hw']
    exact h.ahead
  · rw [← hw']
    exact h.ready

theorem inv_cancelOldest {w : Channel} (count : Nat) (err : Error) (h : Inv w) :
    Inv { w.after (w.corr.cancelOldest count err) with
      cancels := w.cancels ++ (w.unsettled.take count).map fun k => (k, err) } := by
  obtain ⟨⟨read, h⟩, hlines⟩ := h
  refine ⟨⟨read, slots_cancelOldest count err h⟩, ?_⟩
  rw [cancelOldest_state h count err]
  exact hlines

/-! ## tmux writes -/

/-- More whole blocks and notifications on the wire. -/
theorem slots_emit {w : Channel} {read : Nat} (h : Slots w read) {bytes : Bytes}
    {tokens : List ControlToken} (hhead : bytes.head? = some PERCENT)
    (hrun : byteTokenizer.run (.atLine .outside) bytes = (.atLine .outside, tokens))
    {added : List Block} (hstream : Stream tokens added)
    (hroom : w.replies.length + added.length ≤ w.corr.registered) :
    Slots { w with wire := w.wire ++ bytes, replies := w.replies ++ added } read := by
  obtain ⟨b, bs, rfl⟩ : ∃ b bs, bytes = b :: bs := by
    cases bytes with
    | nil => cases hhead
    | cons b bs => exact ⟨b, bs, rfl⟩
  obtain rfl : b = PERCENT := by simpa using hhead
  have hrun' : byteTokenizer.run (byteTokenizer.final w.tok.abs w.wire) (PERCENT :: bs) =
      (.atLine .outside, tokens) := by
    rcases h.ready with hr | hr
    · rw [hr]
      exact hrun
    · rw [hr, ← hrun]
      exact Transducer.run_cons_congr byteTokenizer rfl bs
  have hle := h.read_le
  refine ⟨h.ids, h.registered, ?_, ?_, h.flags, ?_, h.fresh, h.bound, ?_, ?_⟩
  · simpa using hroom
  · simp only [List.length_append]
    omega
  · intro k hk
    rcases h.stands k hk with hs | hs | ⟨hlt, b', hb', hs⟩
    · exact .inl hs
    · exact .inr (.inl hs)
    · refine .inr (.inr ⟨hlt, b', ?_, hs⟩)
      exact (List.getElem?_append_left (by omega)).trans hb'
  · have hahead : ({ w with wire := w.wire ++ PERCENT :: bs, replies := w.replies ++ added } :
        Channel).ahead = w.ahead ++ tokens := by
      simp only [ahead, Transducer.output_append, List.append_assoc]
      rw [Transducer.output, Transducer.output, hrun']
    rw [hahead, List.drop_append_of_le_length h.read_le]
    exact h.ahead.append hstream
  · refine .inl ?_
    simp only [Transducer.final_append]
    rw [Transducer.final, hrun']

theorem inert_notification {line : Bytes}
    (h : (lineTokenizer.step .outside line).1 = .outside) :
    Stream (lineTokenizer.step .outside line).2 [] := by
  simp only [lineTokenizer, classifyLine, parseNotificationOrBegin] at h ⊢
  split
  · next hp =>
    rw [if_pos hp] at h
    split
    · next hk =>
      rw [if_pos hk] at h
      cases hg : parseGuardFields (stripTrailingCr line) with
      | some guard => simp [hg] at h
      | none => exact .inert trivial .nil
    · exact .inert trivial .nil
  · exact .nil

/-! ## The driver reads -/

theorem slots_chunk {w : Channel} {read : Nat} (n : Nat) (h : Slots w read) :
    Slots { w with
      tok := (w.tok.push (w.wire.take n)).1
      queue := w.queue ++ (w.tok.push (w.wire.take n)).2
      wire := w.wire.drop n } read := by
  have hcut : w.wire.take n ++ w.wire.drop n = w.wire := List.take_append_drop n w.wire
  refine ⟨h.ids, h.registered, h.replies_le, h.read_le, h.flags, h.stands, h.fresh, h.bound, ?_, ?_⟩
  · have hsame : w.queue ++ (w.tok.push (w.wire.take n)).2 ++
        byteTokenizer.output (w.tok.push (w.wire.take n)).1.abs (w.wire.drop n) = w.ahead := by
      rw [push_realises.out_push, push_realises.abs_push, List.append_assoc,
        ← Transducer.output_append, hcut, ahead]
    simp only [ahead, hsame]
    exact h.ahead
  · simp only [push_realises.abs_push, ← Transducer.final_append, hcut]
    exact h.ready

/-- A token that settles nothing: the slots stay, up to the number they expect. -/
theorem slots_progress {w : Channel} {read : Nat} (h : Slots w read) {corr : CommandCorrelator}
    {queue : List ControlToken}
    (hslots : corr.pending.map (fun p => (p.id, p.cancelled)) =
      w.corr.pending.map (fun p => (p.id, p.cancelled)))
    (hreg : corr.registered = w.corr.registered)
    (hbound : ∀ f, corr.inFlight = some f → f.isStartupBlock = false →
      corr.pending.head?.map (·.expectedCommandNumber) = some (some f.commandNumber))
    (hahead : Ahead corr.inFlight (queue ++ byteTokenizer.output w.tok.abs w.wire)
      (w.replies.drop read)) :
    Slots { w with corr, queue } read := by
  have hlen : corr.pending.length = w.corr.pending.length := by
    simpa using congrArg List.length hslots
  have hids : corr.pending.map (·.id) = w.corr.pending.map (·.id) := by
    simpa [Function.comp_def] using congrArg (List.map Prod.fst) hslots
  refine ⟨?_, ?_, ?_, h.read_le, ?_, ?_, ?_, hbound, hahead, h.ready⟩
  · rw [hids, hlen]
    exact h.ids
  · rw [hlen, hreg]
    exact h.registered
  · rw [hreg]
    exact h.replies_le
  · intro p hp
    have hmem : (p.id, p.cancelled) ∈ w.corr.pending.map (fun p => (p.id, p.cancelled)) := by
      rw [← hslots]
      exact List.mem_map.mpr ⟨p, hp, rfl⟩
    obtain ⟨q, hq, heq⟩ := List.mem_map.mp hmem
    obtain ⟨hid, hcancelled⟩ := Prod.mk.injEq .. ▸ heq
    rw [← hcancelled, ← hid]
    exact h.flags q hq
  · intro k hk
    rw [hreg] at hk
    exact h.stands k hk
  · intro e he
    rw [hreg]
    exact h.fresh e he

/-- The end of a reply: the oldest slot takes it, or absorbs it when it is cancelled. -/
theorem slots_closeReply {w : Channel} {read : Nat} (h : Slots w read) {f : InFlight}
    {queue : List ControlToken} {b : Block} {bs : List Block} (hf : w.corr.inFlight = some f)
    (hkind : f.isStartupBlock = false) (hnum : f.commandNumber = b.guard.commandNumber)
    (hrows : f.bodyChunks = b.rows) (hreplies : w.replies.drop read = b :: bs)
    (hahead : Stream (queue ++ byteTokenizer.output w.tok.abs w.wire) bs) :
    Slots ({ w with queue }.after
      (w.corr.closeBlock b.guard.commandNumber b.result.ok)) (read + 1) := by
  have hbound := h.bound f hf hkind
  have hget : w.replies[read]? = some b := by
    rw [← List.head?_drop, hreplies, List.head?_cons]
  have hlt : read < w.replies.length := (List.getElem?_eq_some_iff.mp hget).1
  have hdrop : w.replies.drop (read + 1) = bs := by
    rw [← List.tail_drop, hreplies, List.tail_cons]
  have hle := h.replies_le
  have hreg := h.registered
  cases hpend : w.corr.pending with
  | nil =>
    simp only [hpend, List.length_nil] at hreg
    omega
  | cons p ps =>
    have hids := h.ids
    simp only [hpend, List.map_cons, List.length_cons, List.range'_succ, List.cons.injEq] at hids
    obtain ⟨hid, hids⟩ := hids
    simp only [hpend, List.length_cons] at hreg
    simp only [hpend, List.head?_cons, Option.map_some, Option.some.injEq] at hbound
    have hflag := h.flags p (by rw [hpend]; exact List.mem_cons_self)
    have hlater : ∀ q ∈ ps, q.id ≠ read := by
      intro q hq heq
      have hmem : q.id ∈ List.range' (read + 1) ps.length := by
        rw [← hids]
        exact List.mem_map.mpr ⟨q, hq, rfl⟩
      rw [List.mem_range'_1] at hmem
      omega
    have hresult : (⟨b.result.ok, b.guard.commandNumber,
        CommandCorrelator.collectBody f⟩ : CommandResult) = b.result := by
      rw [CommandCorrelator.collectBody, hrows, Block.result]
    cases hc : p.cancelled with
    | true =>
      have hstate : { w with queue }.after
          (w.corr.closeBlock b.guard.commandNumber b.result.ok) =
          { w with queue, corr := { w.corr with inFlight := none, pending := ps } } := by
        simp [after, CommandCorrelator.closeBlock, hf, hnum, hkind, hpend, hc]
      rw [hstate]
      refine ⟨hids, by simp only; omega, hle, hlt, ?_, ?_, h.fresh, ?_, ?_, h.ready⟩
      · intro q hq
        exact h.flags q (by rw [hpend]; exact List.mem_cons_of_mem _ hq)
      · intro k hk
        rcases h.stands k hk with ⟨hs, hge⟩ | hs | ⟨hlt', hs⟩
        · -- The cancelled slot is settled already.
          refine .inl ⟨hs, ?_⟩
          have hne : k ≠ read := by
            rintro rfl
            rw [hid] at hflag
            exact hflag.mp hc hs
          omega
        · exact .inr (.inl hs)
        · exact .inr (.inr ⟨by omega, hs⟩)
      · intro f' hf'
        cases hf'
      · rw [hdrop]
        exact .idle hahead
    | false =>
      have hnone : w.settlements read = [] := by
        by_contra hne
        rw [hid, hc] at hflag
        exact Bool.noConfusion (hflag.mpr hne)
      have hstate : { w with queue }.after
          (w.corr.closeBlock b.guard.commandNumber b.result.ok) =
          { w with
            queue
            corr := { w.corr with inFlight := none, pending := ps }
            ledger := w.ledger ++ [read].map fun id => (id, Outcome.resolved b.result) } := by
        simp only [after, CommandCorrelator.closeBlock, hf, hnum, hkind, hpend, hc, hbound,
          hresult, hid]
        simp [perform]
      rw [hstate]
      generalize hw' : ({ w with
            queue
            corr := { w.corr with inFlight := none, pending := ps }
            ledger := w.ledger ++ [read].map fun id => (id, Outcome.resolved b.result) } :
              Channel) = w'
      have hset : ∀ k, w'.settlements k =
          w.settlements k ++ if k ∈ [read] then [.resolved b.result] else [] :=
        fun k => settlements_append [read] (List.nodup_singleton read) (by rw [← hw']) k
      have hother : ∀ k, k ≠ read → w'.settlements k = w.settlements k := by
        intro k hk
        rw [hset, if_neg (by simpa using hk), List.append_nil]
      have hreplies' : w'.replies = w.replies := by rw [← hw']
      have hcancels : w'.cancels = w.cancels := by rw [← hw']
      refine ⟨?_, ?_, ?_, ?_, ?_, ?_, ?_, ?_, ?_, ?_⟩
      · rw [← hw']
        exact hids
      · rw [← hw']
        simp only
        omega
      · rw [← hw']
        exact hle
      · rw [← hw']
        exact hlt
      · intro q hq
        have hq' : q ∈ ps := by
          rw [← hw'] at hq
          exact hq
        rw [hother q.id (hlater q hq')]
        exact h.flags q (by rw [hpend]; exact List.mem_cons_of_mem _ hq')
      · intro k hk
        by_cases hread : k = read
        · subst hread
          refine .inr (.inr ⟨Nat.lt_succ_self _, b, ?_, ?_⟩)
          · rw [hreplies']
            exact hget
          · rw [hset, hnone]
            simp
        · have hk' : k < w.corr.registered := by
            rw [← hw'] at hk
            exact hk
          rw [Stands, hother k hread, hreplies', hcancels]
          rcases h.stands k hk' with ⟨hs, hge⟩ | hs | ⟨hlt', hs⟩
          · exact .inl ⟨hs, by omega⟩
          · exact .inr (.inl hs)
          · exact .inr (.inr ⟨by omega, hs⟩)
      · intro e he
        rw [← hw'] at he ⊢
        rcases List.mem_append.mp he with he | he
        · exact h.fresh e he
        · obtain rfl : e = (read, .resolved b.result) := by simpa using he
          simp only
          omega
      · intro f' hf'
        rw [← hw'] at hf'
        cases hf'
      · rw [hreplies', hdrop, ← hw']
        exact .idle hahead
      · rw [← hw']
        exact h.ready

/-- Handing the correlator its next token. -/
theorem slots_token {w : Channel} {read : Nat} (h : Slots w read) {t : ControlToken}
    {ts : List ControlToken} (hq : w.queue = t :: ts) :
    ∃ read', Slots ({ w with queue := ts }.after (w.corr.push t)) read' := by
  have hahead := h.ahead
  rw [ahead, hq, List.cons_append] at hahead
  generalize hrest : ts ++ byteTokenizer.output w.tok.abs w.wire = rest at hahead
  generalize htokens : t :: rest = tokens at hahead
  generalize hbs : w.replies.drop read = bs at hahead
  cases hf : w.corr.inFlight with
  | none =>
    rw [hf] at hahead
    cases hahead with
    | idle stream =>
      cases stream with
      | nil => cases htokens
      | @inert t' _ _ ht stream =>
        obtain ⟨rfl, rfl⟩ := List.cons.injEq .. ▸ htokens
        -- Notifications and the DCS start change nothing.
        have hstate : { w with queue := ts }.after (w.corr.push t) = { w with queue := ts } := by
          cases t with
          | notification keyword rawLine => rfl
          | dcsOpen => rfl
          | blockBegin guard => cases ht
          | blockBody bytes => cases ht
          | blockEnd guard => cases ht
          | blockError guard => cases ht
          | dcsClose => cases ht
        refine ⟨read, ?_⟩
        rw [hstate]
        refine slots_progress h rfl rfl h.bound ?_
        rw [hrest, hf, hbs]
        exact .idle stream
      | @reply ts' bs' b hb stream =>
        obtain ⟨rfl, hts⟩ := List.cons.injEq .. ▸ htokens
        have hts' : rest = b.rows.map .blockBody ++ b.terminator.token b.guard :: ts' :=
          hts.trans (List.append_assoc _ _ _)
        have hlt : read < w.replies.length := by
          by_contra hge
          rw [List.drop_eq_nil_iff.mpr (Nat.le_of_not_lt hge)] at hbs
          cases hbs
        have hle := h.replies_le
        have hreg := h.registered
        cases hpend : w.corr.pending with
        | nil =>
          simp only [hpend, List.length_nil] at hreg
          omega
        | cons p ps =>
          have hstate : { w with queue := ts }.after (w.corr.push (.blockBegin b.guard)) =
              { w with
                queue := ts
                corr := { w.corr with
                  inFlight := some ⟨b.guard.commandNumber, [], 0, false, rfl⟩
                  pending :=
                    { p with expectedCommandNumber := some b.guard.commandNumber } :: ps } } := by
            simp [after, CommandCorrelator.push, CommandCorrelator.handleBegin, hf, hb, hpend,
              CommandCorrelator.bindOldest]
          refine ⟨read, ?_⟩
          rw [hstate]
          refine slots_progress h (by simp [hpend]) rfl ?_ ?_
          · rintro f ⟨⟩ _
            rfl
          · rw [hrest, hts', hbs]
            exact .inside _ b b.rows rfl (by simp [hb]) rfl stream
      | @startup ts' _ b hb stream =>
        obtain ⟨rfl, hts⟩ := List.cons.injEq .. ▸ htokens
        have hts' : rest = b.rows.map .blockBody ++ b.terminator.token b.guard :: ts' :=
          hts.trans (List.append_assoc _ _ _)
        have hstate : { w with queue := ts }.after (w.corr.push (.blockBegin b.guard)) =
            { w with
              queue := ts
              corr := { w.corr with
                inFlight := some ⟨b.guard.commandNumber, [], 0, true, rfl⟩ } } := by
          simp [after, CommandCorrelator.push, CommandCorrelator.handleBegin, hf, hb]
        refine ⟨read, ?_⟩
        rw [hstate]
        refine slots_progress h rfl rfl ?_ ?_
        · rintro f ⟨⟩ hkind
          cases hkind
        · rw [hrest, hts', hbs]
          exact @Ahead.inside ts' bs ⟨b.guard.commandNumber, [], 0, true, rfl⟩ b b.rows rfl
            (by simp [hb]) rfl stream
  | some f =>
    rw [hf] at hahead
    cases hahead with
    | @inside ts' bs' f b later hnum hflags hrows stream =>
      cases later with
      | cons row later =>
        -- One more body line of the open block.
        obtain ⟨rfl, hts⟩ := List.cons.injEq .. ▸ htokens
        have hstate : { w with queue := ts }.after (w.corr.push (.blockBody row)) =
            { w with
              queue := ts
              corr := { w.corr with
                inFlight := some
                  { f with
                    bodyChunks := f.bodyChunks ++ [row]
                    bodyLen := f.bodyLen + row.length
                    bodyLen_eq := by simp [f.bodyLen_eq] } } } := by
          simp [after, CommandCorrelator.push, CommandCorrelator.handleBody, hf]
        refine ⟨read, ?_⟩
        rw [hstate]
        refine slots_progress h rfl rfl ?_ ?_
        · rintro f' ⟨⟩ hkind
          exact h.bound f hf hkind
        · rw [hrest, hts, hbs]
          exact .inside { f with
            bodyChunks := f.bodyChunks ++ [row]
            bodyLen := f.bodyLen + row.length
            bodyLen_eq := by simp [f.bodyLen_eq] } b later hnum hflags (by simpa using hrows) stream
      | nil =>
        obtain ⟨rfl, hts⟩ := List.cons.injEq .. ▸ htokens
        have hpush : w.corr.push (b.terminator.token b.guard) =
            w.corr.closeBlock b.guard.commandNumber b.result.ok := by
          rw [Block.result]
          cases b.terminator with
          | ok => rfl
          | error => rfl
        rw [hpush]
        cases hkind : f.isStartupBlock with
        | true =>
          have hstate : { w with queue := ts }.after
              (w.corr.closeBlock b.guard.commandNumber b.result.ok) =
              { w with queue := ts, corr := { w.corr with inFlight := none } } := by
            simp [after, CommandCorrelator.closeBlock, hf, hnum, hkind]
          refine ⟨read, ?_⟩
          rw [hstate]
          refine slots_progress h rfl rfl (by rintro f' ⟨⟩) ?_
          rw [hrest, hts, hbs, hkind]
          exact .idle stream
        | false =>
          rw [hkind] at hbs
          refine ⟨read + 1, slots_closeReply h hf hkind hnum (by simpa using hrows) hbs ?_⟩
          rw [hrest, hts]
          exact stream

/-- What is not written stays out of tmux's input. -/
theorem foldl_perform_stdin (w : Channel) (effects : List Effect)
    (h : ∀ data, .write data ∉ effects) : (effects.foldl perform w).stdin = w.stdin := by
  induction effects generalizing w with
  | nil => rfl
  | cons e es ih =>
    have hes : ∀ data, .write data ∉ es := fun data hd => h data (List.mem_cons_of_mem _ hd)
    rw [List.foldl_cons, ih _ hes]
    cases e with
    | write data => exact absurd List.mem_cons_self (h data)
    | settle id outcome => rfl
    | notify keyword rawLine => rfl
    | unsolicitedBlock => rfl

theorem inv_start (dcs : Bool) : Inv (start dcs) := by
  refine ⟨⟨0, rfl, rfl, Nat.le_refl _, Nat.le_refl _, by simp [start, CommandCorrelator.init], ?_,
    by simp [start], ?_, ?_, ?_⟩, rfl⟩
  · intro k hk
    exact absurd hk (Nat.not_lt_zero k)
  · intro f hf
    cases hf
  · cases dcs with
    | false => exact .idle .nil
    | true => exact .idle (.inert trivial .nil)
  · cases dcs with
    | false => exact .inr rfl
    | true => exact .inl rfl

/-- Every admissible action keeps the invariant. -/
theorem step_inv (w : Channel) (a : ChannelAction) (w' : Channel) (h : Inv w)
    (ha : a.Admissible) (hstep : w.step a = some w') : Inv w' := by
  cases a with
  | send command =>
    cases hstep
    exact inv_send command ha h
  | sendBatch commands =>
    cases hstep
    exact inv_sendBatch commands ha h
  | cancelOldest count err =>
    cases hstep
    exact inv_cancelOldest count err h
  | reply block =>
    obtain ⟨⟨read, hslots⟩, hlines⟩ := h
    simp only [step] at hstep
    split at hstep
    · next hguard =>
      cases hstep
      obtain ⟨hflags, hroom⟩ := hguard
      have hstream : Stream block.tokens [block] := by
        simpa using Stream.reply block hflags .nil
      rw [hlines] at hroom
      exact ⟨⟨read, slots_emit hslots rfl (block.run_bytes ha) hstream hroom⟩, hlines⟩
    · cases hstep
  | startup block =>
    obtain ⟨⟨read, hslots⟩, hlines⟩ := h
    simp only [step] at hstep
    split at hstep
    · next hflags =>
      cases hstep
      have hstream : Stream block.tokens [] := by
        simpa using Stream.startup block hflags .nil
      have hemit := slots_emit hslots rfl (block.run_bytes ha) hstream hslots.replies_le
      simp only [List.append_nil] at hemit
      exact ⟨⟨read, hemit⟩, hlines⟩
    · cases hstep
  | notify note =>
    obtain ⟨⟨read, hslots⟩, hlines⟩ := h
    cases hstep
    have hrun := run_line .outside note.line note.reads
    rw [note.not_begin] at hrun
    have hhead : (note.line ++ [LF]).head? = some PERCENT := by
      rw [List.head?_append, note.head_eq]
      rfl
    have hemit := slots_emit hslots hhead hrun (inert_notification note.not_begin) hslots.replies_le
    simp only [List.append_nil] at hemit
    exact ⟨⟨read, hemit⟩, hlines⟩
  | chunk n =>
    obtain ⟨⟨read, hslots⟩, hlines⟩ := h
    cases hstep
    exact ⟨⟨read, slots_chunk n hslots⟩, hlines⟩
  | token =>
    obtain ⟨⟨read, hslots⟩, hlines⟩ := h
    simp only [step] at hstep
    split at hstep
    · cases hstep
    · next t ts hq =>
      cases hstep
      refine ⟨slots_token hslots hq, ?_⟩
      obtain ⟨hreg, hwrite⟩ := CommandCorrelator.push_frame w.corr t
      simp only [after, hreg]
      rw [foldl_perform_stdin _ _ hwrite]
      exact hlines

/-- **FIFO law.** In every run whose commands are single lines and whose blocks are not
closed by their own body, the promise of each command line is settled at most once, with
its own reply or its own cancellation, and is settled when its reply has been read. -/
theorem fifo_law_of_run (dcs : Bool) (actions : List ChannelAction) (w : Channel)
    (hactions : ∀ a ∈ actions, a.Admissible)
    (hrun : exec step (start dcs) actions = some w) (k : Nat) : FifoLaw w k := by
  have hinv : Inv w := exec_invariant step_inv (inv_start dcs)
    (along_of_forall step hactions (start dcs)) hrun
  obtain ⟨⟨read, hslots⟩, _⟩ := hinv
  exact fifoLaw_of_slots hslots k

/-- tmux's answer to a `capture-pane` of a screen with one row. -/
def captureReply (row : Bytes) (hrow : LF ∉ row) : Block :=
  ⟨⟨1, 2, 1⟩, [row], .ok, by simpa using hrow⟩

/-- tmux's answer to a `list-windows`. -/
def windowsReply : Block := ⟨⟨1, 3, 1⟩, [ascii "@1"], .ok, by decide⟩

/-- Two commands are sent and answered, and the first is cancelled before its answer is read. -/
def cancelledRun : List ChannelAction :=
  [.send (ascii "capture-pane -p"), .send (ascii "list-windows"),
    .reply (captureReply (ascii "$ ls") (by decide)), .cancelOldest 1 ⟨"too late"⟩,
    .reply windowsReply, .chunk 100, .token, .token, .token, .token, .token, .token]

/-- The channel when both answers have been read in one chunk. -/
def cancelledRead : Channel :=
  let wire := (captureReply (ascii "$ ls") (by decide)).bytes ++ windowsReply.bytes
  { corr := ⟨[⟨0, none, true⟩, ⟨1, none, false⟩], none, 2⟩
    tok := (ControlTokenizer.init.push (wire.take 100)).1
    queue := (ControlTokenizer.init.push (wire.take 100)).2
    stdin := ascii "capture-pane -p" ++ [LF] ++ (ascii "list-windows" ++ [LF])
    wire := wire.drop 100
    replies := [captureReply (ascii "$ ls") (by decide), windowsReply]
    ledger := [(0, .rejected ⟨"too late"⟩)]
    cancels := [(0, ⟨"too late"⟩)] }

theorem fifo_law_of_capture :
    ∃ w, exec step (start false) cancelledRun = some w ∧
      w.settlements 0 = [.rejected ⟨"too late"⟩] ∧
      w.settlements 1 = [.resolved ⟨true, 3, ascii "@1"⟩] ∧ ∀ k, FifoLaw w k := by
  have htokens : cancelledRead.queue =
      [.blockBegin ⟨1, 2, 1⟩, .blockBody (ascii "$ ls"), .blockEnd ⟨1, 2, 1⟩,
        .blockBegin ⟨1, 3, 1⟩, .blockBody (ascii "@1"), .blockEnd ⟨1, 3, 1⟩] := by
    show (ControlTokenizer.init.push _).2 = _
    rw [push_realises.out_push]
    decide
  have hread : { cancelledRead with queue := cancelledRead.queue } = cancelledRead := rfl
  rw [htokens] at hread
  have hrun : exec step (start false) cancelledRun =
      exec step cancelledRead [.token, .token, .token, .token, .token, .token] := rfl
  have hadmissible : ∀ a ∈ cancelledRun, a.Admissible := by decide
  have hlaw := fun w hrun k => fifo_law_of_run false cancelledRun w hadmissible hrun k
  rw [hrun, ← hread] at hlaw ⊢
  exact ⟨_, rfl, rfl, rfl, hlaw _ rfl⟩

/-- The command is sent and answered, and the answer is read. -/
def captureRun (row : Bytes) (hrow : LF ∉ row) : List ChannelAction :=
  [.send (ascii "capture-pane -p"), .reply (captureReply row hrow), .chunk 100, .token, .token,
    .token]

theorem exec_captureRun (row : Bytes) (hrow : LF ∉ row) :
    exec step (start false) (captureRun row hrow) =
      exec step
        ⟨⟨[⟨0, none, false⟩], none, 1⟩,
          (ControlTokenizer.init.push ((captureReply row hrow).bytes.take 100)).1,
          (ControlTokenizer.init.push ((captureReply row hrow).bytes.take 100)).2,
          ascii "capture-pane -p" ++ [LF], (captureReply row hrow).bytes.drop 100,
          [captureReply row hrow], [], []⟩ [.token, .token, .token] := rfl

/-- The row `%end 9 9 9` ends the block early with another block's number: the command is
answered by tmux, and its promise is rejected although nobody cancelled it. -/
theorem fifo_law_fails_foreign_end :
    ∃ w, exec step (start false) (captureRun (ascii "%end 9 9 9") (by decide)) = some w ∧
      w.cancels = [] ∧
      w.settlements 0 = [.rejected
        ⟨"correlator: commandNumber mismatch — %begin had 2, but closing guard has 9"⟩] ∧
      ¬FifoLaw w 0 := by
  have htokens : (ControlTokenizer.init.push
      ((captureReply (ascii "%end 9 9 9") (by decide)).bytes.take 100)).2 =
      [.blockBegin ⟨1, 2, 1⟩, .blockEnd ⟨9, 9, 9⟩, .notification "end" (ascii "%end 1 2 1")] := by
    rw [push_realises.out_push]
    decide
  rw [exec_captureRun, htokens]
  refine ⟨_, rfl, rfl, rfl, fun hlaw => ?_⟩
  rcases hlaw.settled with hs | ⟨err, _, hc⟩ | ⟨b, _, hs⟩
  · cases hs
  · cases hc
  · cases hs

end Channel

end TmuxccDriver.Parser
