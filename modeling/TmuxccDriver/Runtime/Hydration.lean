import TmuxccDriver.Parser.ControlChannel

/-!
# Hydration replay

`runtime/hydration.ts`: a pane's captured rows are replayed to a freshly attached
client as one data frame: clear, the rows with CR LF between them, and the cursor
position. `capture-pane`'s reply reaches `_deliverReplay` through the tokenizer
(one token for each row), the correlator (rows joined by LF) and
`stripOneTrailingLf`, which expects a final LF that the correlator's body never has.

Results:
1. `lfToCrlf_joinLf`: `lfToCrlf` turns row separators into row separators.
2. `promise_of_block`: what the first terminator of a reply settles the promise with.
3. `hydration_faithful_iff`: the replay holds exactly the captured rows if and only if
   no row closes the block, there is a row, and the last of several is not blank.
-/

namespace TmuxccDriver.Runtime
open TmuxccDriver.Lib TmuxccDriver.Parser

/-! ## The replay frame -/

/-- `ESC [ H`, `ESC [ 2 J`, `ESC [ 3 J`. -/
def CLEAR_AND_SCROLLBACK : Bytes :=
  [0x1b, 0x5b, 0x48, 0x1b, 0x5b, 0x32, 0x4a, 0x1b, 0x5b, 0x33, 0x4a]

/-- The loop of `lfToCrlf`, which looks back one byte: a LF after a CR stays as it is. -/
def lfToCrlfFrom (prev : Option UInt8) : Bytes → Bytes
  | [] => []
  | b :: bs =>
    if b = LF ∧ prev ≠ some CR then CR :: b :: lfToCrlfFrom (some b) bs
    else b :: lfToCrlfFrom (some b) bs

/-- `lfToCrlf`. -/
def lfToCrlf (src : Bytes) : Bytes := lfToCrlfFrom none src

/-- `stripOneTrailingLf`. -/
def stripOneTrailingLf (src : Bytes) : Bytes :=
  if src.getLast? = some LF then src.dropLast else src

/-- `PaneGridFacts`, as far as the replay uses them. -/
structure PaneGridFacts where
  cursorX : Nat
  cursorY : Nat

/-- `cursorPositionEscape`: `ESC [ row ; col H`, 1-based. -/
def cursorPositionEscape (cursorX cursorY : Nat) : Bytes :=
  [0x1b, 0x5b] ++ decimal (cursorY + 1) ++ [0x3b] ++ decimal (cursorX + 1) ++ [0x48]

/-- The bytes that restore the cursor; none when the facts could not be read. -/
def cursorRestore (facts : Option PaneGridFacts) : Bytes :=
  match facts with
  | some f => cursorPositionEscape f.cursorX f.cursorY
  | none => []

/-- The frame `_deliverReplay` sends. -/
def deliverReplay (body : Bytes) (facts : Option PaneGridFacts) : Bytes :=
  CLEAR_AND_SCROLLBACK ++ lfToCrlf (stripOneTrailingLf body) ++ cursorRestore facts

/-- `_hydrateOnePane` after the capture's promise settled: a rejected or failed capture
sends nothing. -/
def hydrateOnePane (capture : Option Outcome) (facts : Option PaneGridFacts) : Option Bytes :=
  match capture with
  | some (.resolved result) => if result.ok then some (deliverReplay result.body facts) else none
  | _ => none

/-! ## Rows of the replay -/

/-- The rows that survive `stripOneTrailingLf`. -/
def keptRows (rows : List Bytes) : List Bytes :=
  if 2 ≤ rows.length ∧ rows.getLast? = some [] then rows.dropLast else rows

theorem lfToCrlfFrom_row (prev : Option UInt8) (row : Bytes) (hrow : LF ∉ row) (rest : Bytes) :
    lfToCrlfFrom prev (row ++ rest) = row ++ lfToCrlfFrom (row.getLast?.or prev) rest := by
  induction row generalizing prev with
  | nil => rfl
  | cons b bs ih =>
    have hb : b ≠ LF := fun h => hrow (h ▸ List.mem_cons_self)
    have hprev : bs.getLast?.or (some b) = (b :: bs).getLast?.or prev := by
      rw [List.getLast?_cons]
      cases bs.getLast? with
      | none => rfl
      | some c => rfl
    rw [List.cons_append, lfToCrlfFrom, if_neg fun h => hb h.1,
      ih (some b) fun h => hrow (List.mem_cons_of_mem _ h), hprev]
    rfl

/-- LF between rows becomes CR LF between rows: no row ends in the CR that would make
`lfToCrlf` keep the LF as it is. -/
theorem lfToCrlf_joinLf (rows : List Bytes) (hrows : ∀ r ∈ rows, IsBodyLine r)
    (prev : Option UInt8) (hprev : prev ≠ some CR) :
    lfToCrlfFrom prev (joinLf rows) = joinWith [CR, LF] rows := by
  induction rows generalizing prev with
  | nil => rfl
  | cons r rs ih =>
    obtain ⟨hlf, hcr⟩ := hrows r List.mem_cons_self
    cases rs with
    | nil => simpa [joinWith, lfToCrlfFrom] using lfToCrlfFrom_row prev r hlf []
    | cons q qs =>
      have hrest := ih (fun x hx => hrows x (List.mem_cons_of_mem _ hx)) (some LF) (by decide)
      have hend : r.getLast?.or prev ≠ some CR := by
        cases hlast : r.getLast? with
        | none => exact hprev
        | some c =>
          rw [hlast] at hcr
          exact hcr
      rw [joinLf_cons_cons, lfToCrlfFrom_row prev r hlf, lfToCrlfFrom, if_pos ⟨rfl, hend⟩, hrest]
      rfl

theorem joinLf_getLast (rows : List Bytes) (hrows : ∀ r ∈ rows, LF ∉ r)
    (hkeep : ¬(2 ≤ rows.length ∧ rows.getLast? = some [])) :
    (joinLf rows).getLast? ≠ some LF := by
  induction rows with
  | nil => simp [joinWith]
  | cons r rs ih =>
    cases rs with
    | nil => exact fun h => hrows r List.mem_cons_self (List.mem_of_getLast? h)
    | cons q qs =>
      have hq : ∀ x ∈ q :: qs, LF ∉ x := fun x hx => hrows x (List.mem_cons_of_mem _ hx)
      have hlast : (q :: qs).getLast? ≠ some [] := fun h =>
        hkeep ⟨by simp, by rw [List.getLast?_cons_cons]; exact h⟩
      have hrest := ih hq fun h => hlast h.2
      -- The joined rest is not empty, so its last byte is the last byte of all.
      have hne : joinLf (q :: qs) ≠ [] := by
        cases qs with
        | nil =>
          intro hnil
          exact hlast (congrArg some hnil)
        | cons p ps => simp [joinLf_cons_cons]
      rw [joinLf_cons_cons, List.append_cons, List.getLast?_append_of_ne_nil _ hne]
      exact hrest

/-- `stripOneTrailingLf` takes the separator before a blank last row for a row end. -/
theorem stripOneTrailingLf_joinLf (rows : List Bytes) (hrows : ∀ r ∈ rows, LF ∉ r) :
    stripOneTrailingLf (joinLf rows) = joinLf (keptRows rows) := by
  unfold keptRows
  split
  · next h =>
    obtain ⟨hlen, hlast⟩ := h
    have hcut : rows = rows.dropLast ++ [[]] := (List.dropLast_append_getLast? [] hlast).symm
    have hne : rows.dropLast ≠ [] := by
      intro hnil
      rw [hcut, hnil] at hlen
      simp at hlen
    have hjoin : joinLf rows = joinLf rows.dropLast ++ [LF] := by
      conv_lhs => rw [hcut]
      simpa using joinWith_append_singleton [LF] hne []
    rw [stripOneTrailingLf, hjoin, if_pos (by simp), List.dropLast_concat]
  · next h => rw [stripOneTrailingLf, if_neg (joinLf_getLast rows hrows h)]

/-- The rows a terminal reads from the replay of a body. -/
theorem replay_rows (rows : List Bytes) (hrows : ∀ r ∈ rows, IsBodyLine r) :
    splitCrlf (lfToCrlf (stripOneTrailingLf (joinLf rows))) =
      if rows = [] then [[]] else keptRows rows := by
  have hkept : ∀ r ∈ keptRows rows, IsBodyLine r := by
    intro r hr
    unfold keptRows at hr
    split at hr
    · exact hrows r (List.mem_of_mem_dropLast hr)
    · exact hrows r hr
  have hnil : keptRows rows = [] ↔ rows = [] := by
    unfold keptRows
    split
    · next h =>
      have hpos := h.1
      rw [← List.length_eq_zero_iff, List.length_dropLast, ← List.length_eq_zero_iff]
      omega
    · exact Iff.rfl
  rw [stripOneTrailingLf_joinLf rows fun r hr => (hrows r hr).1, lfToCrlf,
    lfToCrlf_joinLf _ hkept none (by decide), splitCrlf_join _ fun r hr => (hkept r hr).1]
  by_cases h : rows = []
  · simp [h, keptRows]
  · simp [h, hnil]

theorem keptRows_eq_self {rows : List Bytes} :
    keptRows rows = rows ↔ ¬(2 ≤ rows.length ∧ rows.getLast? = some []) := by
  unfold keptRows
  split
  · next h =>
    have hlt : rows.dropLast.length < rows.length := by
      rw [List.length_dropLast]
      omega
    exact ⟨fun heq => absurd (congrArg List.length heq) (by omega), fun hn => absurd h hn⟩
  · next h => exact ⟨fun _ => h, fun _ => rfl⟩

theorem keptRows_length_le (rows : List Bytes) : (keptRows rows).length ≤ rows.length := by
  unfold keptRows
  split
  · simp
  · exact Nat.le_refl _

/-! ## The capture's promise -/

/-- The correlator as a machine over tokens. -/
def tokenCorrelator : Transducer CommandCorrelator ControlToken Effect := ⟨CommandCorrelator.push⟩

/-- What a promise is settled with: its first settle call. -/
def promise (id : Nat) : List Effect → Option Outcome
  | [] => none
  | .settle i outcome :: es => if i = id then some outcome else promise id es
  | _ :: es => promise id es

/-- The effects of reading a stream, cut into chunks. -/
def receive (tok : ControlTokenizer) (corr : CommandCorrelator) (chunks : List Bytes) :
    List Effect :=
  tokenCorrelator.output corr (pushAll ControlTokenizer.push tok chunks).2

/-- The oldest slot waits for its reply, and no block is open. -/
structure Awaits (corr : CommandCorrelator) (id : Nat) : Prop where
  idle : corr.inFlight = none
  oldest : ∃ p ps, corr.pending = p :: ps ∧ p.id = id ∧ p.cancelled = false

/-- The open block with the given lines. -/
def openBlock (commandNumber : Nat) (chunks : List Bytes) : InFlight :=
  ⟨commandNumber, chunks, chunks.flatten.length, false, rfl⟩

theorem push_body_open (pending : List PendingCommand) (registered n : Nat) (chunks : List Bytes)
    (line : Bytes) :
    tokenCorrelator.step ⟨pending, some (openBlock n chunks), registered⟩ (.blockBody line) =
      (⟨pending, some (openBlock n (chunks ++ [line])), registered⟩, []) := by
  simp [tokenCorrelator, CommandCorrelator.push, CommandCorrelator.handleBody, openBlock]

theorem run_body_open (pending : List PendingCommand) (registered n : Nat)
    (chunks lines : List Bytes) (rest : List ControlToken) :
    tokenCorrelator.output ⟨pending, some (openBlock n chunks), registered⟩
        (lines.map .blockBody ++ rest) =
      tokenCorrelator.output ⟨pending, some (openBlock n (chunks ++ lines)), registered⟩ rest := by
  induction lines generalizing chunks with
  | nil => simp
  | cons line lines ih =>
    rw [List.map_cons, List.cons_append, Transducer.output_cons, push_body_open, List.nil_append,
      ih, List.append_assoc]
    rfl

/-- The first terminator settles the promise: with the lines before it when it carries
the number of the open block, and with a rejection otherwise. -/
theorem promise_of_block {corr : CommandCorrelator} {id : Nat} (h : Awaits corr id)
    (guard : GuardFields) (hguard : guard.flags ≠ 0) (lines : List Bytes) (t : Terminator)
    (closing : GuardFields) (rest : List ControlToken) :
    promise id (tokenCorrelator.output corr
        (.blockBegin guard :: (lines.map .blockBody ++ t.token closing :: rest))) =
      some (if guard.commandNumber = closing.commandNumber then
          .resolved ⟨t = .ok, closing.commandNumber, joinLf lines⟩
        else
          .rejected
            (CommandCorrelator.mismatchError guard.commandNumber closing.commandNumber)) := by
  obtain ⟨hidle, p, ps, hpending, hid, hlive⟩ := h
  have hbegin : tokenCorrelator.step corr (.blockBegin guard) =
      (⟨⟨p.id, some guard.commandNumber, p.cancelled⟩ :: ps,
        some (openBlock guard.commandNumber []), corr.registered⟩, []) := by
    simp [tokenCorrelator, CommandCorrelator.push, CommandCorrelator.handleBegin, hidle, hpending,
      hguard, CommandCorrelator.bindOldest, openBlock]
  rw [Transducer.output_cons, hbegin, List.nil_append, run_body_open, List.nil_append,
    Transducer.output_cons]
  have hpush : tokenCorrelator.step
      ⟨⟨p.id, some guard.commandNumber, p.cancelled⟩ :: ps,
        some (openBlock guard.commandNumber lines), corr.registered⟩ (t.token closing) =
      CommandCorrelator.closeBlock
        ⟨⟨p.id, some guard.commandNumber, p.cancelled⟩ :: ps,
          some (openBlock guard.commandNumber lines), corr.registered⟩
        closing.commandNumber (t = .ok) := by
    cases t with
    | ok => rfl
    | error => rfl
  rw [hpush]
  by_cases hnum : guard.commandNumber = closing.commandNumber
  · simp [CommandCorrelator.closeBlock, openBlock, hnum, hlive, hid, promise,
      CommandCorrelator.collectBody]
  · simp [CommandCorrelator.closeBlock, openBlock, hnum, hid, promise,
      CommandCorrelator.rejectOldest]

/-! ## Fidelity -/

/-- What the frame of a body shows: the body's rows, as far as they are kept. -/
theorem deliverReplay_rows_iff (lines : List Bytes) (hlines : ∀ l ∈ lines, IsBodyLine l)
    (facts : Option PaneGridFacts) (rows : List Bytes) :
    (∃ replay, deliverReplay (joinLf lines) facts =
        CLEAR_AND_SCROLLBACK ++ replay ++ cursorRestore facts ∧ splitCrlf replay = rows) ↔
      (if lines = [] then [[]] else keptRows lines) = rows := by
  rw [← replay_rows lines hlines]
  constructor
  · rintro ⟨replay, hframe, hrows⟩
    have hreplay : lfToCrlf (stripOneTrailingLf (joinLf lines)) = replay :=
      List.append_cancel_left (List.append_cancel_right hframe)
    rw [hreplay]
    exact hrows
  · intro hrows
    exact ⟨_, rfl, hrows⟩

/-- The tokens of a capture's reply: its rows up to the first one that closes the block,
and the terminator read there. -/
theorem output_capture (guard : GuardFields) (rows : List Bytes)
    (hrows : ∀ r ∈ rows, IsBodyLine r) :
    ∃ pre t closing rest,
      byteTokenizer.output (.atLine .outside) (terminated (blockLines guard rows .ok)) =
        .blockBegin guard :: (pre.map .blockBody ++ Terminator.token t closing :: rest) ∧
      (((∀ r ∈ rows, closes r = false) ∧ pre = rows ∧ t = .ok ∧ closing = guard) ∨
        ∃ l post, rows = pre ++ l :: post ∧ closes l = true) := by
  have hstrip : ∀ ls : List Bytes, (∀ l ∈ ls, IsBodyLine l) →
      ls.map (fun l => ControlToken.blockBody (stripTrailingCr l)) = ls.map .blockBody := by
    intro ls hls
    exact List.map_congr_left fun l hl => by rw [stripTrailingCr_of_body (hls l hl)]
  have hopen : ∀ ls : List Bytes, (∀ l ∈ ls, IsBodyLine l) → (∀ l ∈ ls, closes l = false) →
      ∀ l ∈ ls, closes (stripTrailingCr l) = false := by
    intro ls hls hcl l hl
    rw [stripTrailingCr_of_body (hls l hl)]
    exact hcl l hl
  rw [terminated_blockLines, Transducer.output_append, Transducer.output, Transducer.final,
    run_begin]
  cases hfind : rows.find? closes with
  | none =>
    have hcl : ∀ r ∈ rows, closes r = false := by
      intro r hr
      simpa using List.find?_eq_none.mp hfind r hr
    have hbody := (output_body_iff rows (fun r hr => (hrows r hr).1)
      (renderGuard Terminator.ok.keyword guard ++ [LF]) _).mpr ⟨hopen rows hrows hcl, rfl⟩
    refine ⟨rows, .ok, guard, [], ?_, .inl ⟨hcl, rfl, rfl, rfl⟩⟩
    rw [hbody, hstrip rows hrows, Transducer.output, run_terminator]
    rfl
  | some l =>
    obtain ⟨hclose, pre, post, hsplit, hpre⟩ := List.find?_eq_some_iff_append.mp hfind
    have hpreRows : ∀ r ∈ pre, IsBodyLine r := fun r hr =>
      hrows r (by rw [hsplit]; exact List.mem_append_left _ hr)
    have hl : IsBodyLine l := hrows l (by rw [hsplit]; simp)
    have hpreOpen : ∀ r ∈ pre, closes r = false := by
      intro r hr
      simpa using hpre r hr
    obtain ⟨t, closing, hclass⟩ := classifyLine_closes hclose
    have hline : byteTokenizer.run (.atLine .inside) (l ++ [LF]) =
        (.atLine .outside, [t.token closing]) := by
      rw [run_line .inside l (readsLine_body hl.1)]
      simp only [lineTokenizer, stripTrailingCr_of_body hl, hclass]
    have hcut : terminated rows ++ (renderGuard Terminator.ok.keyword guard ++ [LF]) =
        terminated pre ++ ((l ++ [LF]) ++
          (terminated post ++ (renderGuard Terminator.ok.keyword guard ++ [LF]))) := by
      rw [hsplit, terminated_append]
      simp
    have hbody := (output_body_iff pre (fun r hr => (hpreRows r hr).1)
      ((l ++ [LF]) ++ (terminated post ++ (renderGuard Terminator.ok.keyword guard ++ [LF])))
      _).mpr ⟨hopen pre hpreRows hpreOpen, rfl⟩
    have hafter : byteTokenizer.output (.atLine .inside) ((l ++ [LF]) ++
        (terminated post ++ (renderGuard Terminator.ok.keyword guard ++ [LF]))) =
        t.token closing :: byteTokenizer.output (.atLine .outside)
          (terminated post ++ (renderGuard Terminator.ok.keyword guard ++ [LF])) := by
      rw [Transducer.output_append, Transducer.final, Transducer.output, hline]
      rfl
    generalize byteTokenizer.output (.atLine .outside)
      (terminated post ++ (renderGuard Terminator.ok.keyword guard ++ [LF])) = rest at hafter
    refine ⟨pre, t, closing, rest, ?_, .inr ⟨l, post, hsplit, hclose⟩⟩
    rw [hcut, hbody, hstrip pre hpreRows, hafter]
    rfl

/-- Hydration shows exactly the captured rows if and only if no row is taken for the end
of the reply, there is a row, and the last of several rows is not blank. -/
theorem hydration_faithful_iff (tok : ControlTokenizer) (htok : tok.Ready)
    (corr : CommandCorrelator) (id : Nat) (hcorr : Awaits corr id) (guard : GuardFields)
    (hguard : guard.flags ≠ 0) (rows : List Bytes) (hrows : ∀ r ∈ rows, IsBodyLine r)
    (chunks : List Bytes) (hchunks : chunks.flatten = terminated (blockLines guard rows .ok))
    (facts : Option PaneGridFacts) :
    (∃ replay, hydrateOnePane (promise id (receive tok corr chunks)) facts =
        some (CLEAR_AND_SCROLLBACK ++ replay ++ cursorRestore facts) ∧ splitCrlf replay = rows) ↔
      (∀ r ∈ rows, closes r = false) ∧ rows ≠ [] ∧
        ¬(2 ≤ rows.length ∧ rows.getLast? = some []) := by
  obtain ⟨pre, t, closing, rest, hout, hcase⟩ := output_capture guard rows hrows
  have hstart : ∃ bytes, terminated (blockLines guard rows .ok) = PERCENT :: bytes := by
    simp [blockLines, renderGuard]
  obtain ⟨bytes, hbytes⟩ := hstart
  have htokens : (pushAll ControlTokenizer.push tok chunks).2 =
      .blockBegin guard :: (pre.map .blockBody ++ t.token closing :: rest) := by
    rw [push_realises.out_pushAll, hchunks, hbytes, Transducer.output, ready_run htok, ← hbytes,
      ← hout, Transducer.output]
  rw [receive, htokens, promise_of_block hcorr guard hguard pre t closing rest]
  rcases hcase with ⟨hopen, rfl, rfl, rfl⟩ | ⟨l, post, hsplit, hclose⟩
  · -- The whole reply: what is lost is a blank last row.
    simp only [if_true, hydrateOnePane, decide_true, Option.some.injEq,
      deliverReplay_rows_iff pre hrows]
    by_cases hnil : pre = []
    · subst hnil
      simp
    · rw [if_neg hnil, keptRows_eq_self]
      exact ⟨fun h => ⟨hopen, hnil, h⟩, fun h => h.2.2⟩
  · -- The reply was cut short before `l`, which is never shown.
    have hpre : ∀ r ∈ pre, IsBodyLine r := fun r hr =>
      hrows r (by rw [hsplit]; exact List.mem_append_left _ hr)
    constructor
    · rintro ⟨replay, hframe, hsame⟩
      exfalso
      have hcut : (if pre = [] then [[]] else keptRows pre) = rows := by
        by_cases hnum : guard.commandNumber = closing.commandNumber
        · cases t with
          | ok =>
            simp only [hnum, if_true, hydrateOnePane, decide_true, Option.some.injEq] at hframe
            exact (deliverReplay_rows_iff pre hpre facts rows).mp ⟨replay, hframe, hsame⟩
          | error =>
            simp [hnum, hydrateOnePane] at hframe
        · simp [hnum, hydrateOnePane] at hframe
      by_cases hnil : pre = []
      · rw [if_pos hnil, hsplit, hnil, List.nil_append, List.cons.injEq] at hcut
        rw [← hcut.1] at hclose
        exact absurd hclose (by decide)
      · rw [if_neg hnil] at hcut
        have hle := keptRows_length_le pre
        rw [hcut, hsplit, List.length_append, List.length_cons] at hle
        omega
    · rintro ⟨hopen, _⟩
      have hl := hopen l (by rw [hsplit]; simp)
      rw [hclose] at hl
      cases hl

/-- A correlator whose only slot is the capture's. -/
def awaitingCapture : CommandCorrelator := CommandCorrelator.init.expectCommand

theorem awaitingCapture_awaits : Awaits awaitingCapture 0 :=
  ⟨rfl, _, _, rfl, rfl, rfl⟩

theorem hydration_faithful_prompt :
    ∃ replay, hydrateOnePane (promise 0 (receive .init awaitingCapture
        [terminated (blockLines ⟨1, 2, 1⟩ [ascii "$ ls", [], ascii "$ "] .ok)])) (some ⟨2, 2⟩) =
      some (CLEAR_AND_SCROLLBACK ++ replay ++ cursorRestore (some ⟨2, 2⟩)) ∧
      splitCrlf replay = [ascii "$ ls", [], ascii "$ "] :=
  (hydration_faithful_iff .init ControlTokenizer.ready_init awaitingCapture 0
    awaitingCapture_awaits ⟨1, 2, 1⟩ (by decide) [ascii "$ ls", [], ascii "$ "]
    (by unfold IsBodyLine; decide) _ (by simp) (some ⟨2, 2⟩)).mpr (by decide)

/-- A fresh screen, a prompt with a blank row below it: the blank row is lost. -/
theorem hydration_loses_blank_row :
    (∀ r ∈ [ascii "$ ", []], IsBodyLine r ∧ closes r = false) ∧
    ¬∃ replay, hydrateOnePane (promise 0 (receive .init awaitingCapture
        [terminated (blockLines ⟨1, 2, 1⟩ [ascii "$ ", []] .ok)])) none =
      some (CLEAR_AND_SCROLLBACK ++ replay ++ cursorRestore none) ∧
      splitCrlf replay = [ascii "$ ", []] := by
  have htokens : (pushAll ControlTokenizer.push .init
      [terminated (blockLines ⟨1, 2, 1⟩ [ascii "$ ", []] .ok)]).2 =
      [.blockBegin ⟨1, 2, 1⟩, .blockBody (ascii "$ "), .blockBody [], .blockEnd ⟨1, 2, 1⟩] := by
    rw [push_realises.out_pushAll]
    decide
  refine ⟨by unfold IsBodyLine; decide, ?_⟩
  rintro ⟨replay, hframe, hrows⟩
  have hsent : hydrateOnePane (promise 0 (receive .init awaitingCapture
      [terminated (blockLines ⟨1, 2, 1⟩ [ascii "$ ", []] .ok)])) none =
      some (CLEAR_AND_SCROLLBACK ++ ascii "$ " ++ cursorRestore none) := by
    rw [receive, htokens]
    decide
  rw [hsent, Option.some.injEq, List.append_left_inj, List.append_right_inj] at hframe
  rw [← hframe] at hrows
  exact absurd hrows (by decide)

end TmuxccDriver.Runtime
