import TmuxccDriver.Lib.Lines
import TmuxccDriver.Parser.Tokenizer

/-!
# Block framing

What the tokenizer makes of a reply block as tmux writes it: `%begin`, the body
lines, `%end` or `%error`, each guard line carrying the same three numbers.

`_tryParseGuardLine` closes the open block at any `%end` / `%error` line with three
numbers, whichever numbers they are: it has no access to the guard that opened the
block. `closes` is exactly its acceptance set.

Results:
1. `run_line`: over an LF-terminated line, the byte machine is a machine over lines.
2. `parseGuardFields_render`: tmux's guard lines are read back.
3. `block_framed_iff`: a block passes as begin, one token for each body line, end, if
   and only if no body line closes it.
-/

namespace TmuxccDriver.Parser
open TmuxccDriver.Lib

/-! ## Lines of the byte machine -/

/-- The tokenizer as a machine over whole lines (without their LF). -/
def lineTokenizer : Transducer BlockState Bytes ControlToken :=
  ⟨fun block line => classifyLine block (stripTrailingCr line)⟩

namespace ByteState

/-- At a line start, in a block or not. -/
def atLine (block : BlockState) : ByteState := ⟨.inside, 0, [], block⟩

end ByteState

/-- A line that reaches its LF: outside a block an ST would close the DCS before. -/
def ReadsLine (block : BlockState) (line : Bytes) : Prop :=
  LF ∉ line ∧ (block = .outside → ¬[ESC, BACKSLASH] <:+: line)

/-- The end of a line, after `acc` was collected. -/
theorem run_lf (acc : Bytes) (block : BlockState) :
    byteTokenizer.run ⟨.inside, 0, acc, block⟩ [LF] =
      (.atLine (classifyLine block (stripTrailingCr acc)).1,
        (classifyLine block (stripTrailingCr acc)).2) := by
  simp [Transducer.run_cons, byteTokenizer, ByteState.step_inside, ByteState.stepInside,
    ByteState.flush, ByteState.atLine]

/-- In a block every byte up to the LF is collected. -/
theorem run_line_inside (acc line : Bytes) (hlf : LF ∉ line) :
    byteTokenizer.run ⟨.inside, 0, acc, .inside⟩ (line ++ [LF]) =
      (.atLine (classifyLine .inside (stripTrailingCr (acc ++ line))).1,
        (classifyLine .inside (stripTrailingCr (acc ++ line))).2) := by
  have hscan : ∀ b ∈ line, ControlTokenizer.scans .inside b := by
    intro b hb
    have hne : b ≠ LF := fun h => hlf (h ▸ hb)
    simp [ControlTokenizer.scans, hne]
  rw [ControlTokenizer.run_scanned ⟨.inside, 0, acc, .inside⟩ rfl line [LF] hscan, run_lf]

/-- An ESC that starts no ST belongs to the line. -/
theorem run_maybeSt_other (acc : Bytes) (b : UInt8) (bs : Bytes) (hb : b ≠ BACKSLASH) :
    byteTokenizer.run ⟨.maybeSt, 0, acc, .outside⟩ (b :: bs) =
      byteTokenizer.run ⟨.inside, 0, acc ++ [ESC], .outside⟩ (b :: bs) := by
  have hstep : byteTokenizer.step ⟨.maybeSt, 0, acc, .outside⟩ b =
      byteTokenizer.step ⟨.inside, 0, acc ++ [ESC], .outside⟩ b := by
    simp only [byteTokenizer, ByteState.step, if_neg hb]
  exact Transducer.run_cons_congr byteTokenizer hstep bs

/-- Outside a block an ESC waits for the next byte, and is collected unless that byte
completes an ST. -/
theorem run_line_outside (line : Bytes) (hlf : LF ∉ line) (acc : Bytes) :
    (¬[ESC, BACKSLASH] <:+: line →
      byteTokenizer.run ⟨.inside, 0, acc, .outside⟩ (line ++ [LF]) =
        (.atLine (classifyLine .outside (stripTrailingCr (acc ++ line))).1,
          (classifyLine .outside (stripTrailingCr (acc ++ line))).2)) ∧
    (¬[ESC, BACKSLASH] <:+: ESC :: line →
      byteTokenizer.run ⟨.maybeSt, 0, acc, .outside⟩ (line ++ [LF]) =
        (.atLine (classifyLine .outside (stripTrailingCr (acc ++ ESC :: line))).1,
          (classifyLine .outside (stripTrailingCr (acc ++ ESC :: line))).2)) := by
  induction line generalizing acc with
  | nil =>
    refine ⟨fun _ => by simpa using run_lf acc .outside, fun _ => ?_⟩
    rw [List.nil_append, run_maybeSt_other acc LF [] (by decide)]
    exact run_lf (acc ++ [ESC]) .outside
  | cons b bs ih =>
    have hb : b ≠ LF := fun h => hlf (h ▸ List.mem_cons_self)
    have ih := ih fun h => hlf (List.mem_cons_of_mem _ h)
    have hinside : ∀ pre : Bytes, ¬[ESC, BACKSLASH] <:+: b :: bs →
        byteTokenizer.run ⟨.inside, 0, pre, .outside⟩ (b :: bs ++ [LF]) =
          (.atLine (classifyLine .outside (stripTrailingCr (pre ++ b :: bs))).1,
            (classifyLine .outside (stripTrailingCr (pre ++ b :: bs))).2) := by
      intro pre hst
      by_cases hesc : b = ESC
      · have hstep : byteTokenizer.step ⟨.inside, 0, pre, .outside⟩ b =
            (⟨.maybeSt, 0, pre, .outside⟩, []) := by
          simp [byteTokenizer, ByteState.step_inside, ByteState.stepInside, hesc,
            show ESC ≠ LF by decide]
        rw [List.cons_append, Transducer.run_cons_silent byteTokenizer hstep, hesc]
        exact (ih pre).2 (hesc ▸ hst)
      · have hstep : byteTokenizer.step ⟨.inside, 0, pre, .outside⟩ b =
            (⟨.inside, 0, pre ++ [b], .outside⟩, []) := by
          simp [byteTokenizer, ByteState.step_inside, ByteState.stepInside, hb, hesc]
        have hbs : ¬[ESC, BACKSLASH] <:+: bs :=
          fun h => hst (h.trans (List.suffix_cons b bs).isInfix)
        rw [List.cons_append, Transducer.run_cons_silent byteTokenizer hstep,
          (ih (pre ++ [b])).1 hbs, List.append_assoc]
        rfl
    refine ⟨hinside acc, fun hst => ?_⟩
    have hback : b ≠ BACKSLASH := by
      rintro rfl
      exact hst ⟨[], bs, rfl⟩
    have hst' : ¬[ESC, BACKSLASH] <:+: b :: bs :=
      fun h => hst (h.trans (List.suffix_cons ESC _).isInfix)
    rw [List.cons_append, run_maybeSt_other acc b _ hback, ← List.cons_append,
      hinside (acc ++ [ESC]) hst', List.append_assoc]
    rfl

theorem run_line (block : BlockState) (line : Bytes) (h : ReadsLine block line) :
    byteTokenizer.run (.atLine block) (line ++ [LF]) =
      (.atLine (lineTokenizer.step block line).1, (lineTokenizer.step block line).2) := by
  cases block with
  | inside => exact run_line_inside [] line h.1
  | outside => exact (run_line_outside line h.1 []).1 (h.2 rfl)

/-! ## Guard lines -/

/-- A guard line as tmux prints it: `%keyword time number flags`. -/
def renderGuard (keyword : String) (guard : GuardFields) : Bytes :=
  PERCENT :: (ascii keyword ++ SPACE :: (decimal guard.timestamp ++
    SPACE :: (decimal guard.commandNumber ++ SPACE :: decimal guard.flags)))

/-- How a block ends. -/
inductive Terminator
  | ok
  | error
deriving DecidableEq, Repr

namespace Terminator

def keyword : Terminator → String
  | ok => "end"
  | error => "error"

def token : Terminator → GuardFields → ControlToken
  | ok => .blockEnd
  | error => .blockError

end Terminator

/-- A keyword of guard lines: it ends at the space, and survives `fromCharCode`. -/
def IsKeyword (keyword : String) : Prop :=
  (∀ b ∈ ascii keyword, b ≠ SPACE ∧ b ≠ LF ∧ b ≠ CR ∧ b ≠ ESC) ∧
    fromCharCodes (ascii keyword) = keyword

-- the list's instance, not the one that goes over all bytes
instance (keyword : String) : Decidable (IsKeyword keyword) :=
  @instDecidableAnd _ _ (List.decidableBAll _ _) inferInstance

theorem isKeyword_begin : IsKeyword "begin" := by decide

theorem isKeyword_terminator (t : Terminator) : IsKeyword t.keyword := by
  cases t <;> decide

theorem extractKeyword_render {keyword : String} (h : IsKeyword keyword) (guard : GuardFields) :
    extractKeyword (renderGuard keyword guard) = keyword := by
  have htake : ∀ rest : Bytes, (ascii keyword ++ SPACE :: rest).takeWhile
      (fun b => b ≠ SPACE ∧ b ≠ LF ∧ b ≠ CR) = ascii keyword := by
    intro rest
    have hstay : ∀ b ∈ ascii keyword, b ≠ SPACE ∧ b ≠ LF ∧ b ≠ CR := fun b hb =>
      ⟨(h.1 b hb).1, (h.1 b hb).2.1, (h.1 b hb).2.2.1⟩
    rw [List.takeWhile_append_of_pos fun b hb => decide_eq_true (hstay b hb),
      List.takeWhile_cons_of_neg (by simp), List.append_nil]
  rw [extractKeyword, renderGuard, List.drop_one, List.tail_cons, htake, h.2]

theorem mem_renderGuard {keyword : String} {guard : GuardFields} {b : UInt8}
    (hb : b ∈ renderGuard keyword guard) :
    b ∈ ascii keyword ∨ b = PERCENT ∨ b = SPACE ∨ 0x30 ≤ b ∧ b ≤ 0x39 := by
  simp only [renderGuard, List.mem_cons, List.mem_append] at hb
  rcases hb with h | h | h | h | h | h | h
  · exact .inr (.inl h)
  · exact .inl h
  · exact .inr (.inr (.inl h))
  · exact .inr (.inr (.inr (decimal_digits _ b h)))
  · exact .inr (.inr (.inl h))
  · exact .inr (.inr (.inr (decimal_digits _ b h)))
  · rcases h with h | h
    · exact .inr (.inr (.inl h))
    · exact .inr (.inr (.inr (decimal_digits _ b h)))

/-- Guard lines hold no control byte. -/
theorem renderGuard_clean {keyword : String} (h : IsKeyword keyword) (guard : GuardFields) :
    LF ∉ renderGuard keyword guard ∧ CR ∉ renderGuard keyword guard ∧
      ESC ∉ renderGuard keyword guard := by
  refine ⟨fun hb => ?_, fun hb => ?_, fun hb => ?_⟩
  · rcases mem_renderGuard hb with hk | hc
    · exact (h.1 _ hk).2.1 rfl
    · revert hc; decide
  · rcases mem_renderGuard hb with hk | hc
    · exact (h.1 _ hk).2.2.1 rfl
    · revert hc; decide
  · rcases mem_renderGuard hb with hk | hc
    · exact (h.1 _ hk).2.2.2 rfl
    · revert hc; decide

/-- The digits of a number are read up to the first byte that is not a digit. -/
theorem readDigits_digits (cs : List Char) (hcs : ∀ c ∈ cs, c.isDigit) (rest : Bytes)
    (hrest : ∀ b, rest.head? = some b → ¬(0x30 ≤ b ∧ b ≤ 0x39)) (value : Nat) (hasDigit : Bool)
    (hsome : hasDigit = true ∨ cs ≠ []) :
    readDigits value hasDigit (cs.map (fun c => UInt8.ofNat c.toNat) ++ rest) =
      some (Nat.ofDigitChars 10 cs value, rest) := by
  induction cs generalizing value hasDigit with
  | nil =>
    have hd : hasDigit = true := hsome.resolve_right fun h => h rfl
    cases rest with
    | nil => simp [readDigits, hd]
    | cons b bs => simp [readDigits, hrest b rfl, hd]
  | cons c cs ih =>
    have hc := hcs c List.mem_cons_self
    have hval : value * 10 + ((UInt8.ofNat c.toNat).toNat - 0x30) =
        10 * value + (c.toNat - '0'.toNat) := by
      rw [(toNat_digit hc).1, Nat.mul_comm]
      rfl
    rw [List.map_cons, List.cons_append, readDigits, if_pos (digit_range hc), hval,
      ih (fun d hd => hcs d (List.mem_cons_of_mem _ hd)) _ _ (.inl rfl), Nat.ofDigitChars_cons]

theorem readDecimalField_decimal (n : Nat) (rest : Bytes)
    (hrest : ∀ b, rest.head? = some b → ¬(0x30 ≤ b ∧ b ≤ 0x39)) :
    readDecimalField (decimal n ++ rest) = some (n, rest) := by
  rw [readDecimalField, decimal, readDigits_digits _
    (fun c hc => Nat.isDigit_of_mem_toDigits (by decide) (by decide) hc) rest hrest 0 false
    (.inr Nat.toDigits_ne_nil), Nat.ofDigitChars_toDigits (by decide) (by decide)]

/-- tmux's guard lines are read back. -/
theorem parseGuardFields_render {keyword : String} (h : IsKeyword keyword) (guard : GuardFields) :
    parseGuardFields (renderGuard keyword guard) = some guard := by
  have hdrop : ∀ rest : Bytes, (ascii keyword ++ SPACE :: rest).dropWhile (· ≠ SPACE) =
      SPACE :: rest := by
    intro rest
    rw [List.dropWhile_append_of_pos fun b hb => decide_eq_true (h.1 b hb).1,
      List.dropWhile_cons_of_neg (by simp)]
  have hspace : ∀ bs : Bytes, ∀ b, (SPACE :: bs).head? = some b → ¬(0x30 ≤ b ∧ b ≤ 0x39) := by
    rintro bs b ⟨⟩
    decide
  have hflags : readDecimalField (decimal guard.flags) = some (guard.flags, []) := by
    simpa using readDecimalField_decimal guard.flags [] (by simp)
  simp only [parseGuardFields, renderGuard, List.drop_one, List.tail_cons, hdrop, skipSpace,
    if_true, readDecimalField_decimal _ _ (hspace _), hflags, Option.bind_eq_bind,
    Option.bind_some, Option.pure_def]

theorem tryParseGuardLine_render (t : Terminator) (guard : GuardFields) :
    tryParseGuardLine (renderGuard t.keyword guard) = some (t.token guard) := by
  have hk := isKeyword_terminator t
  rw [tryParseGuardLine, extractKeyword_render hk, parseGuardFields_render hk]
  cases t <;> rfl

/-! ## What closes a block -/

/-- The body lines `_flushLine` takes for the end of the open block. -/
def closes (line : Bytes) : Bool :=
  line.head? = some PERCENT && (tryParseGuardLine line).isSome

theorem classifyLine_body {line : Bytes} (h : closes line = false) :
    classifyLine .inside line = (.inside, [.blockBody line]) := by
  unfold classifyLine
  by_cases hp : line.head? = some PERCENT
  · have hnone : tryParseGuardLine line = none := by simpa [closes, hp] using h
    simp [hp, hnone]
  · simp [hp]

/-- A line that closes the block is never reported as a body line. -/
theorem classifyLine_closes {line : Bytes} (h : closes line = true) :
    ∃ (t : Terminator) (guard : GuardFields),
      classifyLine .inside line = (.outside, [t.token guard]) := by
  simp only [closes, Bool.and_eq_true, decide_eq_true_eq] at h
  obtain ⟨hp, hsome⟩ := h
  unfold tryParseGuardLine at hsome
  split at hsome
  · next hk =>
    obtain ⟨guard, hguard⟩ : ∃ guard, parseGuardFields line = some guard := by
      cases hg : parseGuardFields line with
      | none => simp [hg] at hsome
      | some guard => exact ⟨guard, rfl⟩
    by_cases hend : extractKeyword line = "end"
    · exact ⟨.ok, guard,
        by simp [classifyLine, hp, tryParseGuardLine, hguard, hend, Terminator.token]⟩
    · exact ⟨.error, guard, by
        simp [classifyLine, hp, tryParseGuardLine, hguard, hk.resolve_left hend, Terminator.token]⟩
  · simp at hsome

/-! ## Whole blocks -/

/-- A body line of a reply: the bytes of a row, whatever they are, without the line
end. -/
def IsBodyLine (line : Bytes) : Prop := LF ∉ line ∧ line.getLast? ≠ some CR

theorem stripTrailingCr_of_body {line : Bytes} (h : IsBodyLine line) :
    stripTrailingCr line = line := by
  simp [stripTrailingCr, h.2]

theorem isBodyLine_render {keyword : String} (h : IsKeyword keyword) (guard : GuardFields) :
    IsBodyLine (renderGuard keyword guard) :=
  ⟨(renderGuard_clean h guard).1,
    fun hlast => (renderGuard_clean h guard).2.1 (List.mem_of_getLast? hlast)⟩

/-- The lines of one block as tmux writes them. -/
def blockLines (guard : GuardFields) (body : List Bytes) (t : Terminator) : List Bytes :=
  renderGuard "begin" guard :: (body ++ [renderGuard t.keyword guard])

/-- The tokens a block should be read as. -/
def blockTokens (guard : GuardFields) (body : List Bytes) (t : Terminator) : List ControlToken :=
  .blockBegin guard :: (body.map .blockBody ++ [t.token guard])

theorem step_begin (guard : GuardFields) :
    lineTokenizer.step .outside (renderGuard "begin" guard) = (.inside, [.blockBegin guard]) := by
  have hhead : (renderGuard "begin" guard).head? = some PERCENT := rfl
  simp only [lineTokenizer, stripTrailingCr_of_body (isBodyLine_render isKeyword_begin guard),
    classifyLine, hhead, if_true, parseNotificationOrBegin,
    extractKeyword_render isKeyword_begin, parseGuardFields_render isKeyword_begin]

theorem step_body {line : Bytes} (hopen : closes (stripTrailingCr line) = false) :
    lineTokenizer.step .inside line = (.inside, [.blockBody (stripTrailingCr line)]) := by
  simp only [lineTokenizer, classifyLine_body hopen]

theorem step_terminator (t : Terminator) (guard : GuardFields) :
    lineTokenizer.step .inside (renderGuard t.keyword guard) = (.outside, [t.token guard]) := by
  have hhead : (renderGuard t.keyword guard).head? = some PERCENT := rfl
  simp only [lineTokenizer,
    stripTrailingCr_of_body (isBodyLine_render (isKeyword_terminator t) guard),
    classifyLine, hhead, if_true, tryParseGuardLine_render]

theorem readsLine_begin (block : BlockState) (guard : GuardFields) :
    ReadsLine block (renderGuard "begin" guard) := by
  obtain ⟨hlf, _, hesc⟩ := renderGuard_clean isKeyword_begin guard
  exact ⟨hlf, fun _ hst => hesc (hst.subset List.mem_cons_self)⟩

theorem readsLine_body {line : Bytes} (h : LF ∉ line) : ReadsLine .inside line :=
  ⟨h, fun hout => nomatch hout⟩

/-- Reading the body lines of an open block: they come out one by one exactly when
none of them closes it. -/
theorem output_body_iff (body : List Bytes) (hbody : ∀ l ∈ body, LF ∉ l) (rest : Bytes)
    (out : List ControlToken) :
    byteTokenizer.output (.atLine .inside) (terminated body ++ rest) =
        (body.map fun l => .blockBody (stripTrailingCr l)) ++ out ↔
      (∀ l ∈ body, closes (stripTrailingCr l) = false) ∧
        byteTokenizer.output (.atLine .inside) rest = out := by
  induction body with
  | nil => simp
  | cons line body ih =>
    have ih := ih fun l hl => hbody l (List.mem_cons_of_mem _ hl)
    have hrun := run_line .inside line (readsLine_body (hbody line List.mem_cons_self))
    have hcut :
        terminated (line :: body) ++ rest = (line ++ [LF]) ++ (terminated body ++ rest) := by
      simp
    rw [hcut, Transducer.output_append, Transducer.output, Transducer.final, hrun]
    by_cases hopen : closes (stripTrailingCr line) = false
    · rw [step_body hopen]
      simp [hopen, ih]
    · -- The terminator token of an early close is no body token.
      obtain ⟨t, guard, hclose⟩ := classifyLine_closes (by simpa using hopen)
      have hstep : lineTokenizer.step .inside line = (.outside, [t.token guard]) := by
        simp only [lineTokenizer, hclose]
      rw [hstep]
      constructor
      · intro heq
        cases t <;> cases heq
      · intro h
        exact absurd (h.1 line List.mem_cons_self) hopen

/-- The tokenizer stands between two lines and outside any block: it is new, or it
has read whole lines only. -/
def ControlTokenizer.Ready (tok : ControlTokenizer) : Prop :=
  tok.abs = .atLine .outside ∨ tok.abs = ControlTokenizer.init.abs

theorem ControlTokenizer.ready_init : ControlTokenizer.init.Ready := .inr rfl

/-- A new tokenizer that meets a `%` first is inside, without a DCS. -/
theorem ready_run {tok : ControlTokenizer} (h : tok.Ready) (bytes : Bytes) :
    byteTokenizer.run tok.abs (PERCENT :: bytes) =
      byteTokenizer.run (.atLine .outside) (PERCENT :: bytes) := by
  rcases h with h | h
  · rw [h]
  · rw [h]
    exact Transducer.run_cons_congr byteTokenizer rfl bytes

/-- The three parts of a block on the wire. -/
theorem terminated_blockLines (guard : GuardFields) (body : List Bytes) (t : Terminator) :
    terminated (blockLines guard body t) =
      (renderGuard "begin" guard ++ [LF]) ++
        (terminated body ++ (renderGuard t.keyword guard ++ [LF])) := by
  simp [blockLines, terminated_append]

theorem run_begin (guard : GuardFields) :
    byteTokenizer.run (.atLine .outside) (renderGuard "begin" guard ++ [LF]) =
      (.atLine .inside, [.blockBegin guard]) := by
  rw [run_line .outside _ (readsLine_begin .outside guard), step_begin]

theorem run_terminator (t : Terminator) (guard : GuardFields) :
    byteTokenizer.run (.atLine .inside) (renderGuard t.keyword guard ++ [LF]) =
      (.atLine .outside, [t.token guard]) := by
  rw [run_line .inside _ (readsLine_body (isBodyLine_render (isKeyword_terminator t) guard).1),
    step_terminator]

theorem output_block_iff (guard : GuardFields) (body : List Bytes)
    (hbody : ∀ l ∈ body, LF ∉ l) (t : Terminator) :
    byteTokenizer.output (.atLine .outside) (terminated (blockLines guard body t)) =
        blockTokens guard (body.map stripTrailingCr) t ↔
      ∀ l ∈ body, closes (stripTrailingCr l) = false := by
  rw [terminated_blockLines, Transducer.output_append, Transducer.output, Transducer.final,
    run_begin, blockTokens]
  simp only [List.cons_append, List.nil_append, List.cons.injEq, true_and, List.map_map,
    Function.comp_def, output_body_iff body hbody, and_iff_left_iff_imp]
  intro _
  rw [Transducer.output, run_terminator]

/-- After a block that nothing closed early the tokenizer is outside again. -/
theorem run_block (guard : GuardFields) (body : List Bytes) (hbody : ∀ l ∈ body, LF ∉ l)
    (hopen : ∀ l ∈ body, closes (stripTrailingCr l) = false) (t : Terminator) :
    byteTokenizer.run (.atLine .outside) (terminated (blockLines guard body t)) =
      (.atLine .outside, blockTokens guard (body.map stripTrailingCr) t) := by
  have hstay : ∀ ls : List Bytes, (∀ l ∈ ls, LF ∉ l) →
      (∀ l ∈ ls, closes (stripTrailingCr l) = false) →
      byteTokenizer.final (.atLine .inside) (terminated ls) = .atLine .inside := by
    intro ls hls hls'
    induction ls with
    | nil => rfl
    | cons l ls ih =>
      have hl := run_line .inside l (readsLine_body (hls l List.mem_cons_self))
      rw [step_body (hls' l List.mem_cons_self)] at hl
      rw [show terminated (l :: ls) = (l ++ [LF]) ++ terminated ls by simp,
        Transducer.final_append, Transducer.final, Transducer.final, hl]
      exact ih (fun m hm => hls m (List.mem_cons_of_mem _ hm))
        fun m hm => hls' m (List.mem_cons_of_mem _ hm)
  refine Prod.ext ?_ ((output_block_iff guard body hbody t).mpr hopen)
  rw [terminated_blockLines, ← Transducer.final, Transducer.final_append,
    Transducer.final_append, Transducer.final, Transducer.final, Transducer.final, run_begin]
  have hin := hstay body hbody hopen
  rw [Transducer.final] at hin
  rw [hin, run_terminator]

/-- A block is read as begin, one token with the exact bytes for each body line, and
end, if and only if no body line is itself taken for a terminator. It does not matter
how the stream is cut. -/
theorem block_framed_iff (tok : ControlTokenizer) (htok : tok.Ready) (guard : GuardFields)
    (body : List Bytes) (hbody : ∀ l ∈ body, IsBodyLine l) (t : Terminator) (chunks : List Bytes)
    (hchunks : chunks.flatten = terminated (blockLines guard body t)) :
    (pushAll ControlTokenizer.push tok chunks).2 = blockTokens guard body t ↔
      ∀ l ∈ body, closes l = false := by
  have hstart : ∃ bytes, terminated (blockLines guard body t) = PERCENT :: bytes := by
    simp [blockLines, renderGuard]
  obtain ⟨bytes, hbytes⟩ := hstart
  have hstrip : ∀ l ∈ body, stripTrailingCr l = l :=
    fun l hl => stripTrailingCr_of_body (hbody l hl)
  have hmap : body.map stripTrailingCr = body :=
    (List.map_congr_left hstrip).trans (List.map_id' body)
  have hiff := output_block_iff guard body (fun l hl => (hbody l hl).1) t
  rw [hmap] at hiff
  rw [push_realises.out_pushAll, hchunks, hbytes, Transducer.output, ready_run htok, ← hbytes]
  rw [← Transducer.output, hiff]
  exact forall₂_congr fun l hl => by rw [hstrip l hl]

theorem block_framed_begin_line :
    (pushAll ControlTokenizer.push .init
      [terminated (blockLines ⟨1, 2, 1⟩ [ascii "%begin 1 2 1"] .ok)]).2 =
      blockTokens ⟨1, 2, 1⟩ [ascii "%begin 1 2 1"] .ok :=
  (block_framed_iff .init ControlTokenizer.ready_init ⟨1, 2, 1⟩ [ascii "%begin 1 2 1"]
    (by unfold IsBodyLine; decide) .ok _ (by simp)).mpr (by decide)

/-- A pane row `%end 9 9 9` inside block 1 2 1 ends the block, although its numbers are
not those of the block. -/
theorem block_not_framed_foreign_end :
    ascii "%end 9 9 9" ≠ renderGuard "end" ⟨1, 2, 1⟩ ∧
    ascii "%end 9 9 9" ≠ renderGuard "error" ⟨1, 2, 1⟩ ∧
    LF ∉ ascii "%end 9 9 9" ∧ (ascii "%end 9 9 9").getLast? ≠ some CR ∧
    (ControlTokenizer.init.push (terminated (blockLines ⟨1, 2, 1⟩ [ascii "%end 9 9 9"] .ok))).2 ≠
      blockTokens ⟨1, 2, 1⟩ [ascii "%end 9 9 9"] .ok := by
  refine ⟨by decide, by decide, by decide, by decide, ?_⟩
  rw [push_realises.out_push]
  decide

end TmuxccDriver.Parser
