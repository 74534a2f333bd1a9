import Mathlib.Data.List.TakeWhile
import TmuxccDriver.Lib.Bytes
import TmuxccDriver.Lib.Transducer

/-!
# The control-mode tokenizer

`parser/tokenizer.ts`: raw bytes of `tmux -CC` to `ControlToken`s. The tokenizer
works on whole chunks: it scans ahead for the next LF (or ESC at top level),
keeps partial lines in a list of chunk pieces and tracks a DCS envelope.

The second half of the module is the specification of the same thing one byte at
a time (`ByteState`, `byteTokenizer`), over a flat line buffer.

Results:
1. `push_realises`: one `push` is a run of the byte machine.
2. `push_chunk_invariant`: every way of cutting a stream into chunks yields the
   tokens of the uncut stream.
-/

namespace TmuxccDriver.Parser
open TmuxccDriver.Lib

/-! ## Tokens -/

/-- The three numeric fields of a `%begin` / `%end` / `%error` guard line. -/
structure GuardFields where
  timestamp : Nat
  commandNumber : Nat
  flags : Nat
deriving DecidableEq, Repr

/-- All token kinds emitted by the tokenizer. -/
inductive ControlToken
  | notification (keyword : String) (rawLine : Bytes)
  | blockBegin (guard : GuardFields)
  | blockBody (bytes : Bytes)
  | blockEnd (guard : GuardFields)
  | blockError (guard : GuardFields)
  | dcsOpen
  | dcsClose
deriving DecidableEq, Repr

/-- `ESC P 1 0 0 0 p`. -/
def DCS_INTRO : Bytes := [0x1b, 0x50, 0x31, 0x30, 0x30, 0x30, 0x70]

inductive DcsState
  | beforeDcs
  | matchingDcsIntro
  | inside
  | maybeSt
  | afterDcs
deriving DecidableEq, Repr

/-- Iterations of the loop that consume nothing go to `INSIDE`, which consumes. -/
def DcsState.rank : DcsState → Nat
  | .inside => 0
  | _ => 1

inductive BlockState
  | outside
  | inside
deriving DecidableEq, Repr

/-! ## Line recognisers -/

/-- `_extractKeyword`: the characters after `%` up to a space, LF or CR. -/
def extractKeyword (line : Bytes) : String :=
  fromCharCodes ((line.drop 1).takeWhile fun b => b ≠ SPACE ∧ b ≠ LF ∧ b ≠ CR)

/-- The digit loop of `_readDecimalField`: the value read so far, whether a digit
was seen, and the bytes that are left. -/
def readDigits (value : Nat) (hasDigit : Bool) : Bytes → Option (Nat × Bytes)
  | [] => if hasDigit then some (value, []) else none
  | b :: bs =>
    if 0x30 ≤ b ∧ b ≤ 0x39 then readDigits (value * 10 + (b.toNat - 0x30)) true bs
    else if hasDigit then some (value, b :: bs) else none

/-- `_readDecimalField`: a decimal integer and what follows it. -/
def readDecimalField (line : Bytes) : Option (Nat × Bytes) := readDigits 0 false line

/-- One space, as required between two guard fields. -/
def skipSpace : Bytes → Option Bytes
  | [] => none
  | b :: bs => if b = SPACE then some bs else none

/-- `_parseGuardFields`. What follows the third field is not looked at. -/
def parseGuardFields (line : Bytes) : Option GuardFields := do
  let afterKeyword ← skipSpace ((line.drop 1).dropWhile (· ≠ SPACE))
  let (timestamp, rest) ← readDecimalField afterKeyword
  let (commandNumber, rest) ← readDecimalField (← skipSpace rest)
  let (flags, _) ← readDecimalField (← skipSpace rest)
  return ⟨timestamp, commandNumber, flags⟩

/-- `_tryParseGuardLine`: the terminator token of a `%end` / `%error` line. -/
def tryParseGuardLine (line : Bytes) : Option ControlToken :=
  if extractKeyword line = "end" ∨ extractKeyword line = "error" then
    (parseGuardFields line).map fun guard =>
      if extractKeyword line = "end" then .blockEnd guard else .blockError guard
  else none

/-- `_parseNotificationOrBegin`: a well-formed `%begin` opens a block, every other
`%` line is a notification. -/
def parseNotificationOrBegin (line : Bytes) : BlockState × List ControlToken :=
  if extractKeyword line = "begin" then
    match parseGuardFields line with
    | some guard => (.inside, [.blockBegin guard])
    | none => (.outside, [.notification (extractKeyword line) line])
  else (.outside, [.notification (extractKeyword line) line])

/-- The part of `_flushLine` after the line was collected: the token of one line,
and the block state after it. -/
def classifyLine (block : BlockState) (line : Bytes) : BlockState × List ControlToken :=
  match block with
  | .inside =>
    match (if line.head? = some PERCENT then tryParseGuardLine line else none) with
    | some terminator => (.outside, [terminator])
    | none => (.inside, [.blockBody line])
  | .outside =>
    if line.head? = some PERCENT then parseNotificationOrBegin line else (.outside, [])

/-- CRLF normalisation: one trailing CR is dropped. -/
def stripTrailingCr (line : Bytes) : Bytes :=
  if line.getLast? = some CR then line.dropLast else line

/-! ## The tokenizer -/

/-- The fields of `ControlTokenizer`. The line buffer is the list of chunk pieces
seen since the last LF, `lineBufLen` their total length, and a partial DCS intro
is shorter than the intro. -/
structure ControlTokenizer where
  lineBuf : List Bytes
  lineBufLen : Nat
  dcsState : DcsState
  dcsIntroMatched : Nat
  blockState : BlockState
  lineBufLen_eq : lineBufLen = lineBuf.flatten.length
  intro_lt : dcsState = .matchingDcsIntro → dcsIntroMatched < DCS_INTRO.length

namespace ControlTokenizer

/-- A new tokenizer. -/
def init : ControlTokenizer :=
  ⟨[], 0, .beforeDcs, 0, .outside, rfl, by decide⟩

/-- `_appendToLine`. -/
def appendToLine (tok : ControlTokenizer) (bytes : Bytes) : ControlTokenizer :=
  if bytes.length = 0 then tok
  else
    { tok with
      lineBuf := tok.lineBuf ++ [bytes]
      lineBufLen := tok.lineBufLen + bytes.length
      lineBufLen_eq := by simp [tok.lineBufLen_eq] }

/-- The line `_collectLine` returns: one piece is used as it is, several are copied
one after the other. -/
def collectLine (tok : ControlTokenizer) : Bytes :=
  match tok.lineBuf with
  | [] => []
  | [piece] => stripTrailingCr piece
  | pieces => stripTrailingCr pieces.flatten

/-- `_flushLine`. -/
def flushLine (tok : ControlTokenizer) : ControlTokenizer × List ControlToken :=
  let (block, out) := classifyLine tok.blockState tok.collectLine
  ({ tok with lineBuf := [], lineBufLen := 0, blockState := block, lineBufLen_eq := rfl }, out)

/-- Continue in a state other than the partial intro. -/
def enter (tok : ControlTokenizer) (state : DcsState) (h : state ≠ .matchingDcsIntro) :
    ControlTokenizer :=
  { tok with dcsState := state, intro_lt := fun e => absurd e h }

/-- Leave the partial intro for `INSIDE`. -/
def leaveIntro (tok : ControlTokenizer) : ControlTokenizer :=
  { tok with dcsState := .inside, dcsIntroMatched := 0, intro_lt := by simp }

/-- What a state handler leaves behind: the tokenizer, the tokens it pushed and the
bytes of the chunk it did not consume. -/
structure Progress where
  tok : ControlTokenizer
  out : List ControlToken
  rest : Bytes

/-- `_processBefore`. -/
def processBefore (tok : ControlTokenizer) (b : UInt8) (bs : Bytes) : Progress :=
  if b = ESC then
    ⟨{ tok with dcsState := .matchingDcsIntro, dcsIntroMatched := 1, intro_lt := by decide }, [],
      bs⟩
  else ⟨tok.enter .inside (by decide), [], b :: bs⟩

/-- `_matchDcsIntro`: consume bytes of the intro while they match. -/
def matchDcsIntro (tok : ControlTokenizer) : Bytes → Progress
  | [] => ⟨tok, [], []⟩
  | b :: bs =>
    if DCS_INTRO[tok.dcsIntroMatched]? = some b then
      if h : tok.dcsIntroMatched + 1 < DCS_INTRO.length then
        matchDcsIntro
          { tok with dcsIntroMatched := tok.dcsIntroMatched + 1, intro_lt := fun _ => h } bs
      else ⟨tok.leaveIntro, [.dcsOpen], bs⟩
    else ⟨(tok.appendToLine (DCS_INTRO.take tok.dcsIntroMatched)).leaveIntro, [], b :: bs⟩

/-- The bytes the fast scan of `_processInside` runs over: an LF always stops it, an
ESC only outside a block. -/
def scans (block : BlockState) (b : UInt8) : Bool :=
  b ≠ LF && !(block = .outside && b = ESC)

/-- `_processInside`. -/
def processInside (tok : ControlTokenizer) (chunk : Bytes) : Progress :=
  let tok' := tok.appendToLine (chunk.takeWhile (scans tok.blockState))
  match chunk.dropWhile (scans tok.blockState) with
  | [] => ⟨tok', [], []⟩
  | b :: bs =>
    if b = LF then ⟨tok'.flushLine.1, tok'.flushLine.2, bs⟩
    else ⟨tok'.enter .maybeSt (by decide), [], bs⟩

/-- `_maybeSt`. -/
def processMaybeSt (tok : ControlTokenizer) (b : UInt8) (bs : Bytes) : Progress :=
  if b = BACKSLASH then
    let (tok', out) := if tok.lineBufLen > 0 then tok.flushLine else (tok, [])
    ⟨tok'.enter .afterDcs (by decide), out ++ [.dcsClose], bs⟩
  else ⟨(tok.appendToLine [ESC]).enter .inside (by decide), [], b :: bs⟩

/-- One iteration of the loop of `_processChunk` at the byte `b`. After the DCS has
closed the rest of the chunk is discarded. -/
def advance (tok : ControlTokenizer) (b : UInt8) (bs : Bytes) : Progress :=
  match tok.dcsState with
  | .beforeDcs => tok.processBefore b bs
  | .matchingDcsIntro => tok.matchDcsIntro (b :: bs)
  | .inside => tok.processInside (b :: bs)
  | .maybeSt => tok.processMaybeSt b bs
  | .afterDcs => ⟨tok, [], []⟩

theorem matchDcsIntro_rest (tok : ControlTokenizer) (chunk : Bytes) :
    (tok.matchDcsIntro chunk).rest.length < chunk.length ∨
      (tok.matchDcsIntro chunk).rest = chunk ∧
        ((tok.matchDcsIntro chunk).tok.dcsState = .inside ∨ chunk = []) := by
  induction chunk generalizing tok with
  | nil => exact .inr ⟨rfl, .inr rfl⟩
  | cons b bs ih =>
    simp only [matchDcsIntro]
    split
    · split
      · next h =>
        refine .inl ?_
        rcases ih { tok with dcsIntroMatched := tok.dcsIntroMatched + 1, intro_lt := fun _ => h }
          with hlt | ⟨heq, _⟩
        · exact Nat.lt_succ_of_lt hlt
        · rw [heq]; exact Nat.lt_succ_self _
      · exact .inl (Nat.lt_succ_self _)
    · exact .inr ⟨rfl, .inl rfl⟩

theorem processInside_rest (tok : ControlTokenizer) (b : UInt8) (bs : Bytes) :
    (tok.processInside (b :: bs)).rest.length < (b :: bs).length := by
  have hle : ((b :: bs).dropWhile (scans tok.blockState)).length ≤ (b :: bs).length :=
    (List.dropWhile_suffix _).length_le
  unfold processInside
  cases hd : (b :: bs).dropWhile (scans tok.blockState) with
  | nil => simp
  | cons c cs =>
    rw [hd] at hle
    simp only
    split
    · exact Nat.lt_of_succ_le hle
    · exact Nat.lt_of_succ_le hle

/-- Every iteration of the loop consumes a byte, or moves to `INSIDE`. -/
theorem advance_decreases (tok : ControlTokenizer) (b : UInt8) (bs : Bytes) :
    (tok.advance b bs).rest.length < (b :: bs).length ∨
      (tok.advance b bs).rest.length = (b :: bs).length ∧
        (tok.advance b bs).tok.dcsState.rank < tok.dcsState.rank := by
  unfold advance
  split
  · next hs =>
    unfold processBefore
    split
    · exact .inl (Nat.lt_succ_self _)
    · exact .inr ⟨rfl, by simp [enter, hs, DcsState.rank]⟩
  · next hs =>
    rcases matchDcsIntro_rest tok (b :: bs) with h | ⟨h, hin | hnil⟩
    · exact .inl h
    · exact .inr ⟨by rw [h], by rw [hin, hs]; decide⟩
    · cases hnil
  · exact .inl (processInside_rest tok b bs)
  · next hs =>
    unfold processMaybeSt
    split
    · exact .inl (Nat.lt_succ_self _)
    · exact .inr ⟨rfl, by simp [enter, hs, DcsState.rank]⟩
  · exact .inl (Nat.succ_pos _)

/-- `_processChunk`: run the handler of the current state until the chunk is used up. -/
def processChunk (tok : ControlTokenizer) : Bytes → ControlTokenizer × List ControlToken
  | [] => (tok, [])
  | b :: bs =>
    let p := tok.advance b bs
    let (tok', out) := processChunk p.tok p.rest
    (tok', p.out ++ out)
termination_by chunk => (chunk.length, tok.dcsState.rank)
decreasing_by
  rcases advance_decreases tok b bs with h | ⟨h, hr⟩
  · exact Prod.Lex.left _ _ h
  · rw [h]; exact Prod.Lex.right _ hr

/-- `push`. -/
def push (tok : ControlTokenizer) (chunk : Bytes) : ControlTokenizer × List ControlToken :=
  if chunk.length = 0 then (tok, []) else tok.processChunk chunk

end ControlTokenizer

/-! ## One byte at a time

The same tokenizer with a flat line buffer and no scanning ahead. -/

/-- The tokenizer state without chunk pieces. -/
@[ext] structure ByteState where
  dcs : DcsState
  matched : Nat
  line : Bytes
  block : BlockState
deriving DecidableEq, Repr

namespace ByteState

/-- At a line start, `INSIDE` and outside any block. -/
def idle : ByteState := ⟨.inside, 0, [], .outside⟩

/-- The line ends here. -/
def flush (s : ByteState) : ByteState × List ControlToken :=
  let (block, out) := classifyLine s.block (stripTrailingCr s.line)
  ({ s with line := [], block }, out)

/-- One byte in `INSIDE`. -/
def stepInside (s : ByteState) (b : UInt8) : ByteState × List ControlToken :=
  if b = LF then s.flush
  else if b = ESC ∧ s.block = .outside then ({ s with dcs := .maybeSt }, [])
  else ({ s with line := s.line ++ [b] }, [])

/-- One byte in any state. -/
def step (s : ByteState) (b : UInt8) : ByteState × List ControlToken :=
  match s.dcs with
  | .beforeDcs =>
    if b = ESC then ({ s with dcs := .matchingDcsIntro, matched := 1 }, [])
    else { s with dcs := .inside }.stepInside b
  | .matchingDcsIntro =>
    if DCS_INTRO[s.matched]? = some b then
      if s.matched + 1 < DCS_INTRO.length then ({ s with matched := s.matched + 1 }, [])
      else ({ s with dcs := .inside, matched := 0 }, [.dcsOpen])
    else
      { s with dcs := .inside, matched := 0, line := s.line ++ DCS_INTRO.take s.matched }.stepInside
        b
  | .inside => s.stepInside b
  | .maybeSt =>
    if b = BACKSLASH then
      let (s', out) := if s.line = [] then (s, []) else s.flush
      ({ s' with dcs := .afterDcs }, out ++ [.dcsClose])
    else { s with dcs := .inside, line := s.line ++ [ESC] }.stepInside b
  | .afterDcs => (s, [])

theorem step_inside {s : ByteState} (hs : s.dcs = .inside) (b : UInt8) :
    s.step b = s.stepInside b := by
  simp only [step, hs]

theorem step_backslash {s : ByteState} (hs : s.dcs = .maybeSt) :
    s.step BACKSLASH =
      ({ (if s.line = [] then (s, []) else s.flush).1 with dcs := .afterDcs },
        (if s.line = [] then (s, []) else s.flush).2 ++ [.dcsClose]) := by
  simp only [step, hs, if_true]

theorem step_maybeSt_other {s : ByteState} (hs : s.dcs = .maybeSt) {b : UInt8}
    (hb : b ≠ BACKSLASH) :
    s.step b = { s with dcs := .inside, line := s.line ++ [ESC] }.stepInside b := by
  simp only [step, hs, if_neg hb]

theorem step_afterDcs {s : ByteState} (hs : s.dcs = .afterDcs) (b : UInt8) :
    s.step b = (s, []) := by
  simp only [step, hs]

end ByteState

/-- The tokenizer as a machine over bytes. -/
def byteTokenizer : Transducer ByteState UInt8 ControlToken := ⟨ByteState.step⟩

namespace ControlTokenizer

/-- Forget how the partial line is cut into pieces. -/
def abs (tok : ControlTokenizer) : ByteState :=
  ⟨tok.dcsState, tok.dcsIntroMatched, tok.lineBuf.flatten, tok.blockState⟩

theorem abs_appendToLine (tok : ControlTokenizer) (bytes : Bytes) :
    (tok.appendToLine bytes).abs = { tok.abs with line := tok.abs.line ++ bytes } := by
  unfold appendToLine
  split
  · next h => simp [abs, List.eq_nil_of_length_eq_zero h]
  · simp [abs]

theorem collectLine_eq (tok : ControlTokenizer) :
    tok.collectLine = stripTrailingCr tok.abs.line := by
  unfold collectLine abs
  split
  · next h => simp [h, stripTrailingCr]
  · next piece h => simp [h]
  · rfl

theorem abs_flushLine (tok : ControlTokenizer) :
    (tok.flushLine.1.abs, tok.flushLine.2) = tok.abs.flush := by
  simp only [flushLine, ByteState.flush, collectLine_eq]
  rfl

/-- `p` did on `chunk` what the byte machine does, and left the rest of it to do. -/
def Advances (tok : ControlTokenizer) (chunk : Bytes) (p : Progress) : Prop :=
  byteTokenizer.run tok.abs chunk =
    (byteTokenizer.final p.tok.abs p.rest, p.out ++ byteTokenizer.output p.tok.abs p.rest)

/-- A handler that consumed one byte the way `ByteState.step` does. -/
theorem advances_of_step {tok : ControlTokenizer} {b : UInt8} {bs : Bytes} {p : Progress}
    (hrest : p.rest = bs) (hstep : tok.abs.step b = (p.tok.abs, p.out)) :
    tok.Advances (b :: bs) p := by
  unfold Advances
  rw [Transducer.run_cons, show byteTokenizer.step = ByteState.step from rfl, hstep, hrest]
  rfl

/-- A handler that consumed nothing, where both states step alike. -/
theorem advances_of_restep {tok : ControlTokenizer} {b : UInt8} {bs : Bytes} {p : Progress}
    (hrest : p.rest = b :: bs) (hout : p.out = [])
    (hstep : tok.abs.step b = p.tok.abs.step b) : tok.Advances (b :: bs) p := by
  unfold Advances
  rw [hrest, hout]
  exact Transducer.run_cons_congr byteTokenizer hstep bs

theorem processBefore_advances (tok : ControlTokenizer) (b : UInt8) (bs : Bytes)
    (hs : tok.dcsState = .beforeDcs) : tok.Advances (b :: bs) (tok.processBefore b bs) := by
  unfold processBefore
  split
  · next hb =>
    refine advances_of_step rfl ?_
    simp [ByteState.step, abs, hs, hb]
  · next hb =>
    refine advances_of_restep rfl rfl ?_
    simp [ByteState.step, abs, enter, hs, hb]

theorem matchDcsIntro_advances (tok : ControlTokenizer) (chunk : Bytes)
    (hs : tok.dcsState = .matchingDcsIntro) : tok.Advances chunk (tok.matchDcsIntro chunk) := by
  induction chunk generalizing tok with
  | nil => rfl
  | cons b bs ih =>
    simp only [matchDcsIntro]
    split
    · next hb =>
      split
      · next h =>
        -- One more byte of the intro matched: the rest is the induction hypothesis.
        have hstep : tok.abs.step b = ({ tok.abs with matched := tok.abs.matched + 1 }, []) := by
          simp only [ByteState.step, abs, hs, hb, h, if_true]
        have hrest :=
          ih { tok with dcsIntroMatched := tok.dcsIntroMatched + 1, intro_lt := fun _ => h } hs
        unfold Advances at hrest ⊢
        rw [Transducer.run_cons_silent byteTokenizer hstep]
        exact hrest
      · next h =>
        refine advances_of_step rfl ?_
        simp only [ByteState.step, abs, leaveIntro, hs, hb, h, if_true, if_false]
    · next hb =>
      refine advances_of_restep rfl rfl ?_
      have habs : (tok.appendToLine (DCS_INTRO.take tok.dcsIntroMatched)).leaveIntro.abs =
          { tok.abs with
            dcs := .inside, matched := 0
            line := tok.abs.line ++ DCS_INTRO.take tok.dcsIntroMatched } := by
        rw [show ∀ t : ControlTokenizer,
          t.leaveIntro.abs = { t.abs with dcs := .inside, matched := 0 } from fun _ => rfl,
          abs_appendToLine]
      rw [habs]
      simp only [ByteState.step, abs, hs, hb, if_false]

/-- Bytes that neither end the line nor may start an ST are collected. -/
theorem run_scanned (s : ByteState) (hs : s.dcs = .inside) (bytes rest : Bytes)
    (hscan : ∀ b ∈ bytes, scans s.block b) :
    byteTokenizer.run s (bytes ++ rest) =
      byteTokenizer.run { s with line := s.line ++ bytes } rest := by
  induction bytes generalizing s with
  | nil => simp
  | cons b bs ih =>
    have hb : scans s.block b := hscan b List.mem_cons_self
    simp only [scans, Bool.and_eq_true, Bool.not_eq_true', decide_eq_true_eq,
      Bool.and_eq_false_imp, decide_eq_false_iff_not] at hb
    have hstep : s.step b = ({ s with line := s.line ++ [b] }, []) := by
      have hesc : ¬(b = ESC ∧ s.block = .outside) := fun h => hb.2 h.2 h.1
      simp only [ByteState.step, ByteState.stepInside, hs, hb.1, hesc, if_false]
    have hrest := ih { s with line := s.line ++ [b] } hs
      fun c hc => hscan c (List.mem_cons_of_mem _ hc)
    rw [List.append_assoc] at hrest
    rw [List.cons_append, Transducer.run_cons_silent byteTokenizer hstep]
    exact hrest

theorem processInside_advances (tok : ControlTokenizer) (chunk : Bytes)
    (hs : tok.dcsState = .inside) : tok.Advances chunk (tok.processInside chunk) := by
  have hcut : chunk.takeWhile (scans tok.blockState) ++ chunk.dropWhile (scans tok.blockState) =
      chunk := List.takeWhile_append_dropWhile
  have hscan := run_scanned tok.abs hs (chunk.takeWhile (scans tok.blockState))
    (chunk.dropWhile (scans tok.blockState)) fun b hb => List.mem_takeWhile_imp hb
  rw [hcut, ← abs_appendToLine] at hscan
  unfold processInside
  unfold Advances
  rw [hscan]
  cases hd : chunk.dropWhile (scans tok.blockState) with
  | nil => rfl
  | cons b bs =>
    have hb : scans tok.blockState b = false := by
      have hhead := List.head_dropWhile_not (l := chunk) (p := scans tok.blockState) (by simp [hd])
      simpa [hd] using hhead
    have hstate :
        (tok.appendToLine (chunk.takeWhile (scans tok.blockState))).abs.dcs = .inside := by
      rw [abs_appendToLine]; exact hs
    have hblock : (tok.appendToLine (chunk.takeWhile (scans tok.blockState))).abs.block =
        tok.blockState := by rw [abs_appendToLine]; rfl
    generalize tok.appendToLine (chunk.takeWhile (scans tok.blockState)) = tok' at hstate hblock
    simp only
    split
    · next hlf =>
      have hstep : tok'.abs.step b = (tok'.flushLine.1.abs, tok'.flushLine.2) := by
        simp only [ByteState.step, ByteState.stepInside, hstate, hlf, if_true, abs_flushLine]
      exact advances_of_step (p := ⟨_, _, bs⟩) rfl hstep
    · next hlf =>
      have hesc : b = ESC ∧ tok'.abs.block = .outside := by
        rw [hblock]
        simp only [scans, hlf, ne_eq, not_false_eq_true, decide_true, Bool.true_and,
          Bool.not_eq_false', Bool.and_eq_true, decide_eq_true_eq] at hb
        exact hb.symm
      have hstep : tok'.abs.step b = ((tok'.enter .maybeSt (by decide)).abs, []) := by
        rw [ByteState.step_inside hstate, ByteState.stepInside, if_neg hlf, if_pos hesc]
        rfl
      exact advances_of_step (p := ⟨_, _, bs⟩) rfl hstep

theorem processMaybeSt_advances (tok : ControlTokenizer) (b : UInt8) (bs : Bytes)
    (hs : tok.dcsState = .maybeSt) : tok.Advances (b :: bs) (tok.processMaybeSt b bs) := by
  have hlen : tok.lineBufLen > 0 ↔ ¬tok.abs.line = [] := by
    rw [tok.lineBufLen_eq, gt_iff_lt, List.length_pos_iff]
    rfl
  unfold processMaybeSt
  split
  · next hb =>
    by_cases hline : tok.abs.line = []
    · have hnot : ¬tok.lineBufLen > 0 := fun h => hlen.mp h hline
      refine advances_of_step rfl ?_
      rw [hb, ByteState.step_backslash hs, if_neg hnot, if_pos hline]
      rfl
    · have hpos : tok.lineBufLen > 0 := hlen.mpr hline
      refine advances_of_step rfl ?_
      rw [hb, ByteState.step_backslash hs, if_pos hpos, if_neg hline, ← abs_flushLine]
      rfl
  · next hb =>
    refine advances_of_restep rfl rfl ?_
    have habs : ((tok.appendToLine [ESC]).enter .inside (by decide)).abs =
        { tok.abs with dcs := .inside, line := tok.abs.line ++ [ESC] } := by
      rw [show ((tok.appendToLine [ESC]).enter .inside (by decide)).abs =
        { (tok.appendToLine [ESC]).abs with dcs := .inside } from rfl, abs_appendToLine]
    rw [habs, ByteState.step_maybeSt_other hs hb, ByteState.step_inside rfl]

theorem run_afterDcs (s : ByteState) (hs : s.dcs = .afterDcs) (bytes : Bytes) :
    byteTokenizer.run s bytes = (s, []) := by
  induction bytes with
  | nil => rfl
  | cons b bs ih =>
    rw [Transducer.run_cons_silent byteTokenizer (ByteState.step_afterDcs hs b), ih]

/-- Every iteration of the loop is a run of the byte machine. -/
theorem advance_advances (tok : ControlTokenizer) (b : UInt8) (bs : Bytes) :
    tok.Advances (b :: bs) (tok.advance b bs) := by
  unfold advance
  split
  · next hs => exact processBefore_advances tok b bs hs
  · next hs => exact matchDcsIntro_advances tok (b :: bs) hs
  · next hs => exact processInside_advances tok (b :: bs) hs
  · next hs => exact processMaybeSt_advances tok b bs hs
  · next hs => exact run_afterDcs tok.abs hs (b :: bs)

theorem processChunk_run (tok : ControlTokenizer) (chunk : Bytes) :
    ((tok.processChunk chunk).1.abs, (tok.processChunk chunk).2) =
      byteTokenizer.run tok.abs chunk := by
  fun_induction processChunk tok chunk with
  | case1 tok => rfl
  | case2 tok b bs p tok' out heq ih =>
    have hadv : tok.Advances (b :: bs) p := advance_advances tok b bs
    unfold Advances at hadv
    rw [heq] at ih
    rw [hadv, Transducer.final, Transducer.output, ← ih]

end ControlTokenizer

/-- One `push` is a run of the byte machine. -/
theorem push_realises :
    Realises ControlTokenizer.abs ControlTokenizer.push byteTokenizer := by
  intro tok chunk
  unfold ControlTokenizer.push
  split
  · next h =>
    rw [List.eq_nil_of_length_eq_zero h]
    rfl
  · exact ControlTokenizer.processChunk_run tok chunk

/-- Every way of cutting a stream yields the tokens of the whole stream pushed at once,
from a new tokenizer as from any other. -/
theorem push_chunk_invariant (tok : ControlTokenizer) (chunks : List Bytes) :
    (pushAll ControlTokenizer.push tok chunks).2 = (tok.push chunks.flatten).2 := by
  rw [push_realises.out_pushAll, push_realises.out_push]

end TmuxccDriver.Parser
