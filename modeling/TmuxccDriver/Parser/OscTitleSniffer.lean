import Mathlib.Data.List.Induction
import TmuxccDriver.Lib.Transducer
import TmuxccDriver.Parser.OscGrammar

/-!
# The OSC title sniffer

`parser/osc-title-sniffer.ts`: a state machine for each pane that removes the OSC 0/2
title sequences from the pane's bytes and keeps an unfinished escape from one chunk to
the next. `feed` writes into a typed array of `chunk.length + initialBufLen` bytes,
which ignores what is written past its end, and returns the chunk itself when as many
bytes were written as the chunk has.

Results:
1. `step_represents`: reading one byte is completing the segments it completes.
2. `feed_written`: what `feed` writes for a chunk are the segments the chunk completes.
3. `passthrough_law_iff`: the passthrough law holds at every point of a run if and only
   if every chunk of it is `ChunkOk`.
-/

namespace TmuxccDriver.Parser
open TmuxccDriver.Lib Osc

/-! ## The state machine -/

inductive OscState
  | idle
  | escSeen
  | oscParam
  | oscText
  | inOscEsc
deriving DecidableEq, Repr

/-- The fields of `OscTitleSniffer`; `buf` is the part of `_buf` up to `_bufLen`. -/
structure OscTitleSniffer where
  state : OscState
  buf : Bytes
  isTitleOsc : Bool
  paramDigits : Bytes
deriving DecidableEq, Repr

def MAX_OSC_BUFFER : Nat := 4 * 1024

/-- What the loop of `feed` does for one byte, in order: bytes written to `out`, and
titles found. -/
inductive OscEmit
  | byte (b : UInt8)
  | title (text : String)
deriving DecidableEq, Repr

def OscEmit.byte? : OscEmit → Option UInt8
  | byte b => some b
  | title _ => none

def OscEmit.title? : OscEmit → Option String
  | byte _ => none
  | title text => some text

structure OscSniffResult where
  passthrough : Bytes
  updatedTitle : Option String
deriving DecidableEq, Repr

namespace OscTitleSniffer

def init : OscTitleSniffer := ⟨.idle, [], false, []⟩

/-- `_bufPush`. -/
def bufPush (s : OscTitleSniffer) (b : UInt8) : OscTitleSniffer := { s with buf := s.buf ++ [b] }

/-- `_resetOsc`. -/
def resetOsc (_ : OscTitleSniffer) : OscTitleSniffer := ⟨.idle, [], false, []⟩

/-- The byte loops that copy the buffer to `out`. -/
def emitBytes (bytes : Bytes) : List OscEmit := bytes.map .byte

section
-- `TextDecoder`: UTF-8, or Latin-1 where that fails.
variable (decode : Bytes → String)

/-- `extractTitleFromOscBuffer`. -/
def extractTitleFromOscBuffer (buf : Bytes) : Option String :=
  match buf.dropWhile (· ≠ SEMI) with
  | [] => none
  | _ :: textSlice => if textSlice.length = 0 then some "" else some (decode textSlice)

/-- A terminator was reached: a title sequence is stripped, any other is written with
its terminator. -/
def finishOsc (s : OscTitleSniffer) (terminator : Bytes) : OscTitleSniffer × List OscEmit :=
  if s.isTitleOsc then
    (s.resetOsc, (extractTitleFromOscBuffer decode s.buf).toList.map .title)
  else (s.resetOsc, emitBytes (s.buf ++ terminator))

/-- `_finishOscBEL`. -/
def finishOscBEL (s : OscTitleSniffer) : OscTitleSniffer × List OscEmit :=
  s.finishOsc decode [BEL]

/-- `_finishOscST`. -/
def finishOscST (s : OscTitleSniffer) : OscTitleSniffer × List OscEmit :=
  s.finishOsc decode [ESC, BACKSLASH]

/-- A byte processed in `IDLE`. -/
def feedIdle (s : OscTitleSniffer) (b : UInt8) : OscTitleSniffer × List OscEmit :=
  if b = ESC then ({ s with state := .escSeen }.bufPush b, []) else (s, [.byte b])

/-- The switch in the loop of `feed`. -/
def feedState (s : OscTitleSniffer) (b : UInt8) : OscTitleSniffer × List OscEmit :=
  match s.state with
  | .idle => s.feedIdle b
  | .escSeen =>
    if b = OSC then
      ({ s.bufPush b with state := .oscParam, paramDigits := [], isTitleOsc := false }, [])
    else
      let (s', out) := s.resetOsc.feedIdle b
      (s', .byte ESC :: out)
  | .oscParam =>
    if isDigit b then
      ({ s.bufPush b with paramDigits := s.paramDigits ++ [b] }, [])
    else if b = SEMI then
      ({ s.bufPush b with isTitleOsc := isTitleNumber s.paramDigits, state := .oscText }, [])
    else if b = BEL then
      (s.resetOsc, if isTitleNumber s.paramDigits then [] else emitBytes (s.buf ++ [BEL]))
    else if b = ESC then ({ s with state := .inOscEsc }, [])
    else
      let (s', out) := s.resetOsc.feedIdle b
      (s', emitBytes s.buf ++ out)
  | .oscText =>
    if b = BEL then s.finishOscBEL decode
    else if b = ESC then ({ s with state := .inOscEsc }, [])
    else (s.bufPush b, [])
  | .inOscEsc =>
    if b = BACKSLASH then s.finishOscST decode
    else
      -- The ESC was text: push it, and treat `b` as in the text.
      let s := { s.bufPush ESC with state := .oscText }
      if b = BEL then s.finishOscBEL decode
      else if b = ESC then ({ s with state := .inOscEsc }, [])
      else (s.bufPush b, [])

/-- The body of the loop of `feed`: a buffer that grew too long is thrown away first. -/
def feedByte (s : OscTitleSniffer) (b : UInt8) : OscTitleSniffer × List OscEmit :=
  feedState decode (if s.buf.length ≥ MAX_OSC_BUFFER then s.resetOsc else s) b

/-- The loop of `feed` as a machine over bytes. -/
def loop : Transducer OscTitleSniffer UInt8 OscEmit := ⟨feedByte decode⟩

/-- `containsOscOpener`. -/
def containsOscOpener (chunk : Bytes) : Bool := chunk.any (· = ESC)

/-- `feed`. -/
def feed (s : OscTitleSniffer) (chunk : Bytes) : OscTitleSniffer × OscSniffResult :=
  if s.state = .idle ∧ ¬containsOscOpener chunk then (s, ⟨chunk, none⟩)
  else
    let initialBufLen := s.buf.length
    let (s', emits) := (loop decode).run s chunk
    let written := emits.filterMap OscEmit.byte?
    let out := written.take (chunk.length + initialBufLen)
    (s', ⟨if written.length = chunk.length then chunk else out,
      (emits.filterMap OscEmit.title?).getLast?⟩)

/-- The sniffer after a list of chunks, and the results in order. -/
def feedAll : OscTitleSniffer → List Bytes → OscTitleSniffer × List OscSniffResult
  | s, [] => (s, [])
  | s, c :: cs =>
    let (s₁, r) := s.feed decode c
    let (s₂, rs) := feedAll s₁ cs
    (s₂, r :: rs)

end

/-- The bytes read and not yet decided about: an ESC inside a string is not in the
buffer before the next byte. -/
def pending (s : OscTitleSniffer) : Bytes :=
  s.buf ++ if s.state = .inOscEsc then [ESC] else []

/-! ## The loop and the grammar -/

section
variable (decode : Bytes → String)

/-- A title text as it is reported. -/
def decodeTitle (text : Bytes) : String := if text.length = 0 then "" else decode text

/-- What the loop does when a segment is complete. A bare title number is dropped when
a BEL ends it, and written when an ST ends it. -/
def emits : Segment → List OscEmit
  | .plain b => [.byte b]
  | .osc body ending =>
    match titleText body with
    | some text => [.title (decodeTitle decode text)]
    | none =>
      if isBareTitle body && ending = .bel then [] else emitBytes (Segment.osc body ending).bytes

/-- The state of the machine for the unfinished bytes `p`. -/
inductive Represents : OscTitleSniffer → Bytes → Prop
  | idle : Represents init []
  | escSeen : Represents ⟨.escSeen, [ESC], false, []⟩ [ESC]
  | oscParam (ds : Bytes) (hds : ∀ b ∈ ds, isDigit b = true) :
      Represents ⟨.oscParam, ESC :: OSC :: ds, false, ds⟩ (ESC :: OSC :: ds)
  | oscText (body ds : Bytes) (hopens : Opens body) (hcut : cutString body = none)
      (hlast : body.getLast? ≠ some ESC) :
      Represents ⟨.oscText, ESC :: OSC :: body, (titleText body).isSome, ds⟩ (ESC :: OSC :: body)
  | inOscEsc (body ds : Bytes) (hopens : Opens (body ++ [ESC]))
      (hcut : cutString (body ++ [ESC]) = none) :
      Represents ⟨.inOscEsc, ESC :: OSC :: body, (titleText body).isSome, ds⟩
        (ESC :: OSC :: (body ++ [ESC]))

theorem Represents.pending_eq {s : OscTitleSniffer} {p : Bytes} (h : Represents s p) :
    s.pending = p := by
  cases h with
  | idle => rfl
  | escSeen => rfl
  | oscParam ds hds => simp [pending]
  | oscText body ds hopens hcut hlast => simp [pending]
  | inOscEsc body ds hopens hcut => simp [pending]

/-- What `step_represents` says about one byte. -/
def Completes (s' : OscTitleSniffer) (out : List OscEmit) (bytes : Bytes) : Prop :=
  out = (segments bytes).1.flatMap (emits decode) ∧ Represents s' (segments bytes).2

theorem feedIdle_completes (b : UInt8) :
    Completes decode (init.feedIdle b).1 (init.feedIdle b).2 [b] := by
  unfold feedIdle
  by_cases hb : b = ESC
  · rw [if_pos hb, hb]
    unfold Completes
    rw [segments_esc]
    exact ⟨rfl, .escSeen⟩
  · rw [if_neg hb]
    unfold Completes
    rw [segments_plain [b] (by simpa using hb)]
    exact ⟨rfl, .idle⟩

/-- The title of a finished buffer is what follows the first `;` of its body. -/
theorem extractTitle_of_text {body text : Bytes} (h : titleText body = some text) :
    extractTitleFromOscBuffer decode (ESC :: OSC :: body) = some (decodeTitle decode text) := by
  rcases digits_or_split body with hall | ⟨ds, b, rest, rfl, hds, hb⟩
  · rw [titleText_digits hall] at h
    cases h
  · rw [titleText_digits_cons hds hb] at h
    split at h
    · next hcond =>
      cases h
      simp only [Bool.and_eq_true, decide_eq_true_eq] at hcond
      have hnosemi : ∀ c ∈ ds, c ≠ SEMI := by
        rintro c hc rfl
        exact absurd (hds _ hc) (by decide)
      have hdrop : (ESC :: OSC :: (ds ++ b :: text)).dropWhile (· ≠ SEMI) = SEMI :: text := by
        rw [List.dropWhile_cons_of_pos (by decide), List.dropWhile_cons_of_pos (by decide),
          List.dropWhile_append_of_pos fun c hc => decide_eq_true (hnosemi c hc), hcond.2,
          List.dropWhile_cons_of_neg (by simp)]
      simp only [extractTitleFromOscBuffer, hdrop, decodeTitle]
      split
      · rfl
      · rfl
    · cases h

/-- A terminator after a body that is more than its digits. -/
theorem finishOsc_completes {body bytes ds : Bytes} {ending : StringEnd} {state : OscState}
    (hopens : Opens bytes) (hcut : cutString bytes = some (body, ending, []))
    (hbare : (isBareTitle body && ending = .bel) = false) :
    Completes decode
      (finishOsc decode ⟨state, ESC :: OSC :: body, (titleText body).isSome, ds⟩ ending.bytes).1
      (finishOsc decode ⟨state, ESC :: OSC :: body, (titleText body).isSome, ds⟩ ending.bytes).2
      (ESC :: OSC :: bytes) := by
  unfold Completes
  rw [segments_terminated hopens hcut]
  cases htext : titleText body with
  | some text =>
    refine ⟨?_, .idle⟩
    simp [finishOsc, extractTitle_of_text decode htext, emits, htext]
  | none =>
    refine ⟨?_, .idle⟩
    simp only [finishOsc, Option.isSome_none, Bool.false_eq_true, if_false, List.flatMap_cons,
      List.flatMap_nil, List.append_nil, emits, htext, hbare]
    rfl

theorem isBareTitle_of_opens {body : Bytes} (h : Opens body) : isBareTitle body = false := by
  obtain ⟨d, ds, hd, _⟩ := h
  simp [isBareTitle, hd]

/-- One more byte of a string's text, which neither ends it nor may start an ST. -/
theorem text_completes {body ds : Bytes} {b : UInt8} (hopens : Opens (body ++ [b]))
    (hcut : cutString (body ++ [b]) = none) (hb : b ≠ ESC) (htitle : Bool)
    (hsame : htitle = (titleText (body ++ [b])).isSome) :
    Completes decode ⟨.oscText, ESC :: OSC :: (body ++ [b]), htitle, ds⟩ []
      (ESC :: OSC :: (body ++ [b])) := by
  unfold Completes
  rw [segments_unterminated hopens hcut, hsame]
  exact ⟨rfl, .oscText (body ++ [b]) ds hopens hcut (by simpa using hb)⟩

theorem inOscEsc_completes {body ds : Bytes} (hopens : Opens (body ++ [ESC]))
    (hcut : cutString (body ++ [ESC]) = none) :
    Completes decode ⟨.inOscEsc, ESC :: OSC :: body, (titleText body).isSome, ds⟩ []
      (ESC :: OSC :: (body ++ [ESC])) := by
  unfold Completes
  rw [segments_unterminated hopens hcut]
  exact ⟨rfl, .inOscEsc body ds hopens hcut⟩

theorem escSeen_completes (b : UInt8) :
    Completes decode (feedState decode ⟨.escSeen, [ESC], false, []⟩ b).1
      (feedState decode ⟨.escSeen, [ESC], false, []⟩ b).2 [ESC, b] := by
  by_cases hb : b = OSC
  · subst hb
    have hseg : segments [ESC, OSC] = ([], [ESC, OSC]) := @segments_digits [] (by simp)
    unfold Completes
    rw [hseg]
    exact ⟨rfl, .oscParam [] (by simp)⟩
  · have hfirst : firstSegment [ESC, b] = some (.plain ESC, [b]) := by simp [firstSegment, hb]
    obtain ⟨hout, hrep⟩ := feedIdle_completes decode b
    unfold Completes
    rw [segments_of_some hfirst]
    refine ⟨?_, ?_⟩
    · simp only [feedState, if_neg hb, List.flatMap_cons, emits, ← hout]
      rfl
    · simp only [feedState, if_neg hb]
      exact hrep

theorem flatMap_emits_plain (bytes : Bytes) :
    (bytes.map Segment.plain).flatMap (emits decode) = emitBytes bytes := by
  induction bytes with
  | nil => rfl
  | cons b bs ih =>
    rw [List.map_cons, List.flatMap_cons, ih]
    rfl

theorem oscParam_completes (ds : Bytes) (hds : ∀ c ∈ ds, isDigit c = true) (b : UInt8) :
    Completes decode (feedState decode ⟨.oscParam, ESC :: OSC :: ds, false, ds⟩ b).1
      (feedState decode ⟨.oscParam, ESC :: OSC :: ds, false, ds⟩ b).2
      (ESC :: OSC :: (ds ++ [b])) := by
  have hlast : ds.getLast? ≠ some ESC := by
    intro hl
    exact absurd (hds ESC (List.mem_of_getLast? hl)) (by decide)
  have hcut := cutString_snoc (cutString_digits hds) b
  rw [if_neg (c := b = BACKSLASH ∧ ds.getLast? = some ESC) fun h => hlast h.2] at hcut
  by_cases hdigit : isDigit b = true
  · -- A longer number.
    have hall : ∀ c ∈ ds ++ [b], isDigit c = true := by
      intro c hc
      rcases List.mem_append.mp hc with hc | hc
      · exact hds c hc
      · obtain rfl : c = b := by simpa using hc
        exact hdigit
    simp only [feedState, if_pos hdigit]
    unfold Completes
    rw [segments_digits hall]
    exact ⟨rfl, .oscParam (ds ++ [b]) hall⟩
  · have hfalse : isDigit b = false := by simpa using hdigit
    have hopens : continues b = true → Opens (ds ++ [b]) := fun hc =>
      ⟨b, [], dropWhile_digits hds hfalse [], hc⟩
    by_cases hsemi : b = SEMI
    · -- The text starts.
      rw [if_neg (by rw [hsemi]; decide)] at hcut
      have htitle : isTitleNumber ds = (titleText (ds ++ [b])).isSome := by
        rw [titleText_digits_cons hds hfalse]
        by_cases hnum : isTitleNumber ds = true
        · simp [hnum, hsemi]
        · simp [hnum]
      simp only [feedState, if_neg hdigit, if_pos hsemi]
      exact text_completes decode (hopens (by rw [hsemi]; decide)) hcut (by rw [hsemi]; decide)
        (isTitleNumber ds) htitle
    · by_cases hbel : b = BEL
      · -- No text at all, and a BEL.
        rw [if_pos hbel] at hcut
        have hbare : isBareTitle ds = isTitleNumber ds := by
          simp [isBareTitle, List.dropWhile_eq_nil_iff.mpr hds]
        simp only [feedState, if_neg hdigit, if_neg hsemi, if_pos hbel]
        unfold Completes
        rw [segments_terminated (hopens (by rw [hbel]; decide)) hcut]
        refine ⟨?_, .idle⟩
        by_cases hnum : isTitleNumber ds = true
        · simp [emits, titleText_digits hds, hbare, hnum]
        · simp [emits, titleText_digits hds, hbare, hnum, Segment.bytes, StringEnd.bytes]
      · rw [if_neg hbel] at hcut
        by_cases hesc : b = ESC
        · have hin := @inOscEsc_completes decode ds ds
            (by rw [← hesc]; exact hopens (by rw [hesc]; decide)) (by rw [← hesc]; exact hcut)
          rw [titleText_digits hds] at hin
          simp only [feedState, if_neg hdigit, if_neg hsemi, if_neg hbel, if_pos hesc]
          rw [hesc]
          exact hin
        · -- Not an OSC after all: every byte is plain.
          have hfirst : firstSegment (ESC :: OSC :: (ds ++ [b])) =
              some (.plain ESC, OSC :: (ds ++ [b])) := by
            simp [firstSegment, dropWhile_digits hds hfalse, continues, hsemi, hbel, hesc]
          have hplain : ∀ c ∈ OSC :: (ds ++ [b]), c ≠ ESC := by
            intro c hc
            rcases List.mem_cons.mp hc with rfl | hc
            · decide
            · rcases List.mem_append.mp hc with hc | hc
              · rintro rfl
                exact absurd (hds ESC hc) (by decide)
              · obtain rfl : c = b := by simpa using hc
                exact hesc
          simp only [feedState, if_neg hdigit, if_neg hsemi, if_neg hbel, if_neg hesc, feedIdle]
          unfold Completes
          rw [segments_of_some hfirst, segments_plain _ hplain, List.flatMap_cons,
            flatMap_emits_plain]
          refine ⟨?_, .idle⟩
          simp [emits, emitBytes]

theorem oscText_completes (body ds : Bytes) (hopens : Opens body) (hcut : cutString body = none)
    (hlast : body.getLast? ≠ some ESC) (b : UInt8) :
    Completes decode
      (feedState decode ⟨.oscText, ESC :: OSC :: body, (titleText body).isSome, ds⟩ b).1
      (feedState decode ⟨.oscText, ESC :: OSC :: body, (titleText body).isSome, ds⟩ b).2
      (ESC :: OSC :: (body ++ [b])) := by
  have hnext := cutString_snoc hcut b
  rw [if_neg (c := b = BACKSLASH ∧ body.getLast? = some ESC) fun h => hlast h.2] at hnext
  by_cases hbel : b = BEL
  · rw [if_pos hbel] at hnext
    simp only [feedState, if_pos hbel]
    exact finishOsc_completes decode (hopens.snoc b) hnext (by simp [isBareTitle_of_opens hopens])
  · rw [if_neg hbel] at hnext
    by_cases hesc : b = ESC
    · simp only [feedState, if_neg hbel, if_pos hesc]
      rw [hesc] at hnext ⊢
      exact inOscEsc_completes decode (hopens.snoc ESC) hnext
    · simp only [feedState, if_neg hbel, if_neg hesc]
      exact text_completes decode (hopens.snoc b) hnext hesc _ (titleText_snoc hopens b).symm

theorem inOscEsc_step_completes (body ds : Bytes) (hopens : Opens (body ++ [ESC]))
    (hcut : cutString (body ++ [ESC]) = none) (b : UInt8) :
    Completes decode
      (feedState decode ⟨.inOscEsc, ESC :: OSC :: body, (titleText body).isSome, ds⟩ b).1
      (feedState decode ⟨.inOscEsc, ESC :: OSC :: body, (titleText body).isSome, ds⟩ b).2
      (ESC :: OSC :: (body ++ [ESC] ++ [b])) := by
  have hnext := cutString_snoc hcut b
  have htitle : (titleText (body ++ [ESC])).isSome = (titleText body).isSome := by
    rcases digits_or_split body with hall | ⟨ns, c, rest, rfl, hns, hc⟩
    · rw [titleText_digits hall, titleText_digits_cons hall (by decide)]
      simp [show ESC ≠ SEMI by decide]
    · obtain ⟨d, tail, hd, hcont⟩ := hopens
      have hdrop : (ns ++ c :: rest ++ [ESC]).dropWhile isDigit = c :: (rest ++ [ESC]) := by
        rw [List.append_assoc, List.cons_append, dropWhile_digits hns hc]
      rw [hdrop] at hd
      obtain ⟨rfl, _⟩ := List.cons.injEq .. ▸ hd
      exact titleText_snoc ⟨c, rest, dropWhile_digits hns hc rest, hcont⟩ ESC
  by_cases hback : b = BACKSLASH
  · have hst : cutString (body ++ [ESC] ++ [b]) = some (body, .st, []) := by
      rw [hnext, if_neg (by rw [hback]; decide), if_pos ⟨hback, by simp⟩, List.dropLast_concat]
    simp only [feedState, if_pos hback]
    exact finishOsc_completes decode (hopens.snoc b) hst (by simp)
  · rw [if_neg (c := b = BACKSLASH ∧ (body ++ [ESC]).getLast? = some ESC) fun h => hback h.1]
      at hnext
    by_cases hbel : b = BEL
    · rw [if_pos hbel] at hnext
      simp only [feedState, if_neg hback, if_pos hbel, ← htitle]
      exact finishOsc_completes decode (hopens.snoc b) hnext
        (by simp [isBareTitle_of_opens hopens])
    · rw [if_neg hbel] at hnext
      by_cases hesc : b = ESC
      · simp only [feedState, if_neg hback, if_neg hbel, if_pos hesc, ← htitle]
        rw [hesc] at hnext ⊢
        exact inOscEsc_completes decode (hopens.snoc ESC) hnext
      · simp only [feedState, if_neg hback, if_neg hbel, if_neg hesc, ← htitle]
        exact text_completes decode (hopens.snoc b) hnext hesc _ (titleText_snoc hopens b).symm

/-- Reading one byte completes what the grammar completes there, as long as the buffer
is below its limit. -/
theorem step_represents {s : OscTitleSniffer} {p : Bytes} (h : Represents s p)
    (hlimit : p.length < MAX_OSC_BUFFER) (b : UInt8) :
    Completes decode (feedByte decode s b).1 (feedByte decode s b).2 (p ++ [b]) := by
  have hbuf : s.buf.length ≤ p.length := by
    rw [← h.pending_eq, pending, List.length_append]
    exact Nat.le_add_right _ _
  rw [feedByte, if_neg (Nat.not_le.mpr (Nat.lt_of_le_of_lt hbuf hlimit))]
  cases h with
  | idle => exact feedIdle_completes decode b
  | escSeen => exact escSeen_completes decode b
  | oscParam ds hds => exact oscParam_completes decode ds hds b
  | oscText body ds hopens hcut hlast => exact oscText_completes decode body ds hopens hcut hlast b
  | inOscEsc body ds hopens hcut => exact inOscEsc_step_completes decode body ds hopens hcut b

theorem run_represents {s : OscTitleSniffer} {p : Bytes} (h : Represents s p)
    (hp : segments p = ([], p)) (bytes : Bytes)
    (hlimit : ∀ pre, pre <+: bytes → (segments (p ++ pre)).2.length < MAX_OSC_BUFFER) :
    Completes decode ((loop decode).run s bytes).1 ((loop decode).run s bytes).2 (p ++ bytes) := by
  induction bytes generalizing s p with
  | nil =>
    unfold Completes
    rw [List.append_nil, hp]
    exact ⟨rfl, h⟩
  | cons b bs ih =>
    have hlen : p.length < MAX_OSC_BUFFER := by
      have hnil := hlimit [] List.nil_prefix
      rw [List.append_nil, hp] at hnil
      exact hnil
    obtain ⟨hout, hrep⟩ := step_represents decode h hlen b
    have hsplit : ∀ more, p ++ b :: more = (p ++ [b]) ++ more := by simp
    have hrest := ih hrep (segments_pending _) fun pre hpre => by
      have hb := hlimit (b :: pre) (List.cons_prefix_cons.mpr ⟨rfl, hpre⟩)
      rw [hsplit, segments_append] at hb
      exact hb
    unfold Completes at hrest ⊢
    rw [hsplit, segments_append, Transducer.run_cons,
      show (loop decode).step = feedByte decode from rfl, hout, hrest.1, List.flatMap_append]
    exact ⟨rfl, hrest.2⟩

/-! ## One chunk -/

/-- The bytes the loop writes for a segment. -/
def written : Segment → Bytes
  | .plain b => [b]
  | .osc body ending =>
    if (titleText body).isSome || (isBareTitle body && ending = .bel) then []
    else (Segment.osc body ending).bytes

theorem filterMap_byte_emitBytes (bytes : Bytes) :
    (emitBytes bytes).filterMap OscEmit.byte? = bytes := by
  rw [emitBytes, List.filterMap_map]
  exact List.filterMap_some

theorem filterMap_title_emitBytes (bytes : Bytes) :
    (emitBytes bytes).filterMap OscEmit.title? = [] := by
  rw [emitBytes, List.filterMap_map, List.filterMap_eq_nil_iff]
  exact fun _ _ => rfl

theorem byte_emits (seg : Segment) : (emits decode seg).filterMap OscEmit.byte? = written seg := by
  cases seg with
  | plain b => rfl
  | osc body ending =>
    simp only [emits, written]
    cases titleText body with
    | some text => rfl
    | none =>
      simp only [Option.isSome_none, Bool.false_or]
      split
      · rfl
      · exact filterMap_byte_emitBytes _

theorem title_emits (seg : Segment) :
    (emits decode seg).filterMap OscEmit.title? = (seg.title.map (decodeTitle decode)).toList := by
  cases seg with
  | plain b => rfl
  | osc body ending =>
    simp only [emits, Segment.title]
    cases titleText body with
    | some text => rfl
    | none =>
      simp only
      split
      · rfl
      · exact filterMap_title_emitBytes _

theorem byte_flatMap_emits (segs : List Segment) :
    (segs.flatMap (emits decode)).filterMap OscEmit.byte? = segs.flatMap written := by
  induction segs with
  | nil => rfl
  | cons seg segs ih =>
    rw [List.flatMap_cons, List.filterMap_append, ih, byte_emits, List.flatMap_cons]

theorem title_flatMap_emits (segs : List Segment) :
    (segs.flatMap (emits decode)).filterMap OscEmit.title? =
      (segs.filterMap Segment.title).map (decodeTitle decode) := by
  induction segs with
  | nil => rfl
  | cons seg segs ih =>
    rw [List.flatMap_cons, List.filterMap_append, ih, title_emits, List.filterMap_cons]
    cases seg.title with
    | none => rfl
    | some text => rfl

/-- The result of `feed` in terms of the segments the chunk completes. -/
theorem feed_written {s : OscTitleSniffer} {p : Bytes} (h : Represents s p)
    (hp : segments p = ([], p)) (chunk : Bytes)
    (hlimit : ∀ pre, pre <+: chunk → (segments (p ++ pre)).2.length < MAX_OSC_BUFFER) :
    Represents (s.feed decode chunk).1 (segments (p ++ chunk)).2 ∧
      (s.feed decode chunk).2.passthrough =
        (if ((segments (p ++ chunk)).1.flatMap written).length = chunk.length then chunk
          else ((segments (p ++ chunk)).1.flatMap written).take (chunk.length + s.buf.length)) ∧
      (s.feed decode chunk).2.updatedTitle =
        (((segments (p ++ chunk)).1.filterMap Segment.title).map
          (decodeTitle decode)).getLast? := by
  unfold feed
  split
  · next hfast =>
    obtain ⟨hidle, hesc⟩ := hfast
    have hplain : ∀ b ∈ chunk, b ≠ ESC := by
      rintro b hb rfl
      exact hesc (by simpa [containsOscOpener] using hb)
    cases h with
    | idle =>
      have hsame : ∀ bytes : Bytes, (bytes.map Segment.plain).flatMap written = bytes := by
        intro bytes
        induction bytes with
        | nil => rfl
        | cons b bs ih => rw [List.map_cons, List.flatMap_cons, ih]; rfl
      have htitles : (chunk.map Segment.plain).filterMap Segment.title = [] := by
        rw [List.filterMap_map, List.filterMap_eq_nil_iff]
        exact fun _ _ => rfl
      rw [List.nil_append, segments_plain chunk hplain, hsame, if_pos rfl, htitles]
      exact ⟨.idle, rfl, rfl⟩
    | escSeen => cases hidle
    | oscParam ds hds => cases hidle
    | oscText body ds hopens hcut hlast => cases hidle
    | inOscEsc body ds hopens hcut => cases hidle
  · obtain ⟨hout, hrep⟩ := run_represents decode h hp chunk hlimit
    refine ⟨hrep, ?_, ?_⟩
    · simp only [hout, byte_flatMap_emits]
    · simp only [hout, title_flatMap_emits]

/-! ## The passthrough law -/

/-- The law after a list of chunks, against the stream they were cut from: the output
and the pending bytes are the stream without its title sequences, and the titles
reported are those of the stream. -/
structure PassthroughLaw (chunks : List Bytes) : Prop where
  bytes : ((feedAll decode init chunks).2.flatMap OscSniffResult.passthrough) ++
      (feedAll decode init chunks).1.pending =
    shown chunks.flatten ++ (segments chunks.flatten).2
  titles : (feedAll decode init chunks).2.filterMap OscSniffResult.updatedTitle =
    ((segments chunks.flatten).1.filterMap Segment.title).map (decodeTitle decode)

/-- An OSC 0/2 without text, ended by `ESC \`. -/
def isBareSt : Segment → Bool
  | .plain _ => false
  | .osc body ending => isBareTitle body && ending = .st

/-- The carried bytes end in an ESC inside a string. -/
def endsInEsc (carried : Bytes) : Bool := 2 ≤ carried.length && carried.getLast? = some ESC

/-- What must hold of a chunk, given the stream before it. -/
structure ChunkOk (before chunk : Bytes) : Prop where
  /-- No title sequence without text is ended by `ESC \` here. -/
  noBareSt : ∀ seg ∈ (segments ((segments before).2 ++ chunk)).1, isBareSt seg = false
  /-- At most one title is completed here. -/
  oneTitle : ((segments ((segments before).2 ++ chunk)).1.filterMap Segment.title).length ≤ 1
  /-- What is shown here is not as long as the chunk without being the chunk. -/
  sameLength : (shown ((segments before).2 ++ chunk)).length = chunk.length →
    shown ((segments before).2 ++ chunk) = chunk
  /-- A chunk that follows an ESC inside a string does not show everything carried and
  everything it holds. -/
  room : endsInEsc (segments before).2 = true →
    (shown ((segments before).2 ++ chunk)).length < (segments before).2.length + chunk.length

theorem written_eq_shown {seg : Segment} (h : isBareSt seg = false) : written seg = seg.shown := by
  cases seg with
  | plain b => rfl
  | osc body ending =>
    simp only [written, Segment.shown]
    cases ending with
    | bel => simp
    | st =>
      have hbare : isBareTitle body = false := by simpa [isBareSt] using h
      simp [hbare]

theorem shown_length_le_written (seg : Segment) :
    seg.shown.length + (if isBareSt seg then 2 else 0) ≤ (written seg).length := by
  cases h : isBareSt seg with
  | false => simp [written_eq_shown h]
  | true =>
    cases seg with
    | plain b => cases h
    | osc body ending =>
      simp only [isBareSt, Bool.and_eq_true, decide_eq_true_eq] at h
      obtain ⟨hbare, rfl⟩ := h
      have htext : titleText body = none := by
        simp only [isBareTitle, Bool.and_eq_true, List.isEmpty_iff] at hbare
        simp [titleText, hbare.2]
      simp [Segment.shown, written, hbare, htext, Segment.bytes]

theorem flatMap_length_le {segs : List Segment} :
    (segs.flatMap Segment.shown).length ≤ (segs.flatMap written).length := by
  induction segs with
  | nil => exact Nat.le_refl _
  | cons seg segs ih =>
    have hle := shown_length_le_written seg
    simp only [List.flatMap_cons, List.length_append]
    omega

/-- Writing a bare title number shows at least two bytes too many. -/
theorem flatMap_length_of_bareSt {segs : List Segment} (h : ∃ seg ∈ segs, isBareSt seg = true) :
    (segs.flatMap Segment.shown).length + 2 ≤ (segs.flatMap written).length := by
  induction segs with
  | nil =>
    obtain ⟨seg, hseg, _⟩ := h
    cases hseg
  | cons seg segs ih =>
    have hle := shown_length_le_written seg
    simp only [List.flatMap_cons, List.length_append]
    by_cases hbare : isBareSt seg = true
    · have hrest := @flatMap_length_le segs
      rw [if_pos hbare] at hle
      omega
    · have hrest := ih (by
        obtain ⟨seg', hseg', hbare'⟩ := h
        rcases List.mem_cons.mp hseg' with rfl | hmem
        · exact absurd hbare' hbare
        · exact ⟨seg', hmem, hbare'⟩)
      omega

theorem flatMap_written_eq {segs : List Segment} (h : ∀ seg ∈ segs, isBareSt seg = false) :
    segs.flatMap written = segs.flatMap Segment.shown := by
  induction segs with
  | nil => rfl
  | cons seg segs ih =>
    rw [List.flatMap_cons, List.flatMap_cons, written_eq_shown (h seg List.mem_cons_self),
      ih fun x hx => h x (List.mem_cons_of_mem _ hx)]

theorem written_length_le (seg : Segment) : (written seg).length ≤ seg.bytes.length := by
  cases seg with
  | plain b => exact Nat.le_refl _
  | osc body ending =>
    simp only [written]
    split
    · exact Nat.zero_le _
    · exact Nat.le_refl _

theorem flatMap_written_length_le (segs : List Segment) :
    (segs.flatMap written).length ≤ (segs.flatMap Segment.bytes).length := by
  induction segs with
  | nil => exact Nat.le_refl _
  | cons seg segs ih =>
    have hle := written_length_le seg
    simp only [List.flatMap_cons, List.length_append]
    omega

theorem endsInEsc_osc (body : Bytes) :
    endsInEsc (ESC :: OSC :: body) = true ↔ body.getLast? = some ESC := by
  have hlast : (ESC :: OSC :: body).getLast? = some ESC ↔ body.getLast? = some ESC := by
    rw [List.getLast?_cons, List.getLast?_cons]
    cases body.getLast? with
    | none => simp [show OSC ≠ ESC by decide]
    | some c => simp
  simp only [endsInEsc, hlast, List.length_cons]
  simp

/-- How much of the carried bytes is in the buffer. -/
theorem Represents.buf_length {s : OscTitleSniffer} {p : Bytes} (h : Represents s p) :
    s.buf.length + (if endsInEsc p then 1 else 0) = p.length := by
  cases h with
  | idle => rfl
  | escSeen => rfl
  | oscParam ds hds =>
    have hlast : ds.getLast? ≠ some ESC := by
      intro hl
      exact absurd (hds ESC (List.mem_of_getLast? hl)) (by decide)
    rw [if_neg fun h => hlast ((endsInEsc_osc _).mp h)]
    rfl
  | oscText body ds hopens hcut hlast =>
    rw [if_neg fun h => hlast ((endsInEsc_osc _).mp h)]
    rfl
  | inOscEsc body ds hopens hcut =>
    have hlast : (body ++ [ESC]).getLast? = some ESC := by simp
    rw [if_pos ((endsInEsc_osc _).mpr hlast)]
    simp

/-- One chunk, after a stream whose unfinished bytes the sniffer holds: the output and
the titles are those of the chunk exactly when the chunk is `ChunkOk`. -/
theorem feed_ok_iff {s : OscTitleSniffer} {before : Bytes} (h : Represents s (segments before).2)
    (chunk : Bytes) (hlimit : ∀ pre, pre <+: chunk →
      (segments ((segments before).2 ++ pre)).2.length < MAX_OSC_BUFFER) :
    ((s.feed decode chunk).2.passthrough = shown ((segments before).2 ++ chunk) ∧
      (s.feed decode chunk).2.updatedTitle.toList =
        ((segments ((segments before).2 ++ chunk)).1.filterMap Segment.title).map
          (decodeTitle decode)) ↔ ChunkOk before chunk := by
  obtain ⟨_, hpass, htitle⟩ := feed_written decode h (segments_pending before) chunk hlimit
  have hbuf := h.buf_length
  have hbytes := congrArg List.length (segments_bytes ((segments before).2 ++ chunk))
  simp only [List.length_append] at hbytes
  rw [hpass, htitle]
  generalize hsegs : (segments ((segments before).2 ++ chunk)).1 = segs at *
  have hshown : shown ((segments before).2 ++ chunk) = segs.flatMap Segment.shown := by
    rw [shown, hsegs]
  have hcap := flatMap_written_length_le segs
  rw [hshown]
  constructor
  · rintro ⟨hsame, htitles⟩
    have hlen := congrArg List.length hsame
    -- At most one byte of what is written is missing from the output.
    have hmissing : (segs.flatMap written).length ≤ (segs.flatMap Segment.shown).length + 1 := by
      split at hlen
      · omega
      · rw [List.length_take] at hlen
        split at hbuf
        · omega
        · omega
    have hnoBare : ∀ seg ∈ segs, isBareSt seg = false := by
      intro seg hseg
      by_contra hbare
      have hmore := flatMap_length_of_bareSt ⟨seg, hseg, by simpa using hbare⟩
      omega
    have hwritten := flatMap_written_eq hnoBare
    rw [hwritten] at hsame hlen
    refine ⟨by rw [hsegs]; exact hnoBare, ?_, ?_, ?_⟩
    · have htitlesLen := congrArg List.length htitles
      rw [List.length_map, Option.length_toList] at htitlesLen
      rw [hsegs, ← htitlesLen]
      split
      · exact Nat.le_refl 1
      · exact Nat.zero_le 1
    · intro hequal
      rw [hshown] at hequal ⊢
      rw [if_pos hequal] at hsame
      exact hsame.symm
    · intro hesc
      rw [hshown]
      rw [if_pos hesc] at hbuf
      split at hlen
      · omega
      · rw [List.length_take] at hlen
        omega
  · rintro ⟨hnoBare, hone, hequal, hroom⟩
    rw [hsegs] at hnoBare hone
    rw [hshown] at hequal hroom
    rw [flatMap_written_eq hnoBare] at hcap ⊢
    refine ⟨?_, ?_⟩
    · split
      · next hlen => exact (hequal hlen).symm
      · refine List.take_of_length_le ?_
        by_cases hesc : endsInEsc (segments before).2 = true
        · have hlt := hroom hesc
          rw [if_pos hesc] at hbuf
          omega
        · rw [if_neg hesc] at hbuf
          omega
    · cases htexts : segs.filterMap Segment.title with
      | nil => rfl
      | cons text rest =>
        rw [htexts, List.length_cons] at hone
        have hnil : rest = [] := List.eq_nil_of_length_eq_zero (by omega)
        rw [hnil]
        rfl

/-! ## Runs -/

theorem feedAll_snoc (s : OscTitleSniffer) (chunks : List Bytes) (chunk : Bytes) :
    feedAll decode s (chunks ++ [chunk]) =
      (((feedAll decode s chunks).1.feed decode chunk).1,
        (feedAll decode s chunks).2 ++ [((feedAll decode s chunks).1.feed decode chunk).2]) := by
  induction chunks generalizing s with
  | nil => rfl
  | cons c cs ih =>
    have hrest := ih (s.feed decode c).1
    simp only [List.cons_append, feedAll, hrest]

/-- Every escape sequence of the stream is shorter than the pending limit. -/
def BelowLimit (stream : Bytes) : Prop :=
  ∀ pre, pre <+: stream → (segments pre).2.length < MAX_OSC_BUFFER

theorem BelowLimit.chunk {before chunk : Bytes} (h : BelowLimit (before ++ chunk)) :
    ∀ pre, pre <+: chunk → (segments ((segments before).2 ++ pre)).2.length < MAX_OSC_BUFFER := by
  intro pre hpre
  have hlen := h (before ++ pre) ((List.prefix_append_right_inj before).mpr hpre)
  rw [segments_append] at hlen
  exact hlen

theorem feedAll_represents (chunks : List Bytes) (hlimit : BelowLimit chunks.flatten) :
    Represents (feedAll decode init chunks).1 (segments chunks.flatten).2 := by
  induction chunks using List.reverseRecOn with
  | nil =>
    rw [List.flatten_nil, segments_of_none rfl]
    exact .idle
  | append_singleton chunks chunk ih =>
    rw [List.flatten_append, List.flatten_singleton] at hlimit ⊢
    have hbefore := ih fun pre hpre => hlimit pre (hpre.trans (List.prefix_append _ _))
    obtain ⟨hrep, _⟩ := feed_written decode hbefore (segments_pending _) chunk hlimit.chunk
    rw [feedAll_snoc, segments_append]
    exact hrep

/-- Where the law holds, it goes on holding exactly if the next chunk is `ChunkOk`. -/
theorem law_snoc_iff (chunks : List Bytes) (chunk : Bytes)
    (hlimit : BelowLimit (chunks ++ [chunk]).flatten) (h : PassthroughLaw decode chunks) :
    PassthroughLaw decode (chunks ++ [chunk]) ↔ ChunkOk chunks.flatten chunk := by
  have hafter := feedAll_represents decode (chunks ++ [chunk]) hlimit
  have hflat : (chunks ++ [chunk]).flatten = chunks.flatten ++ chunk := by simp
  rw [hflat] at hlimit
  have hbefore := feedAll_represents decode chunks fun pre hpre =>
    hlimit pre (hpre.trans (List.prefix_append _ _))
  have hbytes := h.bytes
  rw [hbefore.pending_eq, List.append_left_inj] at hbytes
  rw [← feed_ok_iff decode hbefore chunk hlimit.chunk]
  have hout : (feedAll decode init (chunks ++ [chunk])).2.flatMap OscSniffResult.passthrough =
      shown chunks.flatten ++ ((feedAll decode init chunks).1.feed decode chunk).2.passthrough := by
    rw [feedAll_snoc, List.flatMap_append, hbytes]
    simp
  have htitles : (feedAll decode init (chunks ++ [chunk])).2.filterMap OscSniffResult.updatedTitle =
      ((segments chunks.flatten).1.filterMap Segment.title).map (decodeTitle decode) ++
        ((feedAll decode init chunks).1.feed decode chunk).2.updatedTitle.toList := by
    rw [feedAll_snoc, List.filterMap_append, h.titles]
    cases hupd : ((feedAll decode init chunks).1.feed decode chunk).2.updatedTitle with
    | none => simp [hupd]
    | some title => simp [hupd]
  have hnext : (segments (chunks ++ [chunk]).flatten).1 =
      (segments chunks.flatten).1 ++ (segments ((segments chunks.flatten).2 ++ chunk)).1 := by
    rw [hflat, segments_append]
  constructor
  · intro hlaw
    have hb := hlaw.bytes
    have ht := hlaw.titles
    rw [hafter.pending_eq, List.append_left_inj, hout, hflat, shown_append,
      List.append_right_inj] at hb
    rw [htitles, hnext, List.filterMap_append, List.map_append, List.append_right_inj] at ht
    exact ⟨hb, ht⟩
  · rintro ⟨hb, ht⟩
    refine ⟨?_, ?_⟩
    · rw [hafter.pending_eq, hout, hb, hflat, shown_append chunks.flatten chunk]
    · rw [htitles, ht, hnext, List.filterMap_append, List.map_append]

theorem law_nil : PassthroughLaw decode [] := by
  refine ⟨?_, ?_⟩
  · rw [shown, List.flatten_nil, segments_of_none rfl]
    rfl
  · rw [List.flatten_nil, segments_of_none rfl]
    rfl

/-- **Passthrough law.** For a stream whose escape sequences are below the limit, the law
holds at every point of a run if and only if every chunk of the run is `ChunkOk`. -/
theorem passthrough_law_iff (chunks : List Bytes) (hlimit : BelowLimit chunks.flatten) :
    (∀ run, run <+: chunks → PassthroughLaw decode run) ↔
      ∀ before chunk, before ++ [chunk] <+: chunks → ChunkOk before.flatten chunk := by
  have hbelow : ∀ run, run <+: chunks → BelowLimit run.flatten := by
    rintro run ⟨rest, rfl⟩ pre hpre
    refine hlimit pre (hpre.trans ?_)
    rw [List.flatten_append]
    exact List.prefix_append _ _
  constructor
  · intro hlaw before chunk hpre
    have hbefore := hlaw before ((List.prefix_append _ _).trans hpre)
    exact (law_snoc_iff decode before chunk (hbelow _ hpre) hbefore).mp (hlaw _ hpre)
  · intro hok run hrun
    induction run using List.reverseRecOn with
    | nil => exact law_nil decode
    | append_singleton before chunk ih =>
      have hbefore := ih ((List.prefix_append _ _).trans hrun)
      exact (law_snoc_iff decode before chunk (hbelow _ hrun) hbefore).mpr (hok _ _ hrun)

end

theorem belowLimit_of_length {stream : Bytes} (h : stream.length < MAX_OSC_BUFFER) :
    BelowLimit stream := by
  intro pre hpre
  have hbytes := congrArg List.length (segments_bytes pre)
  have hle := hpre.length_le
  rw [List.length_append] at hbytes
  omega

/-- A title cut after its ESC is stripped. -/
theorem passthrough_law_of_split_title :
    PassthroughLaw fromCharCodes [[0x41, ESC], OSC :: ascii "0;hi" ++ [BEL, 0x42]] := by
  have hfirst : segments [0x41, ESC] = ([.plain 0x41], [ESC]) := by
    rw [segments_of_some (firstSegment_plain (by decide) [ESC]), segments_esc]
  have hsecond : segments (ESC :: OSC :: ascii "0;hi" ++ [BEL, 0x42]) =
      ([.osc (ascii "0;hi") .bel, .plain 0x42], []) := by
    have hosc : firstSegment (ESC :: OSC :: ascii "0;hi" ++ [BEL, 0x42]) =
        some (.osc (ascii "0;hi") .bel, [0x42]) := by decide
    rw [segments_of_some hosc, segments_plain [0x42] (by simp [ESC])]
    rfl
  have hok₁ : ChunkOk [] [0x41, ESC] := by
    have hseg : segments ((segments []).2 ++ [0x41, ESC]) = ([.plain 0x41], [ESC]) := by
      rw [@segments_of_none [] rfl]
      exact hfirst
    refine ⟨?_, ?_, ?_, ?_⟩
    · rw [hseg]
      decide
    · rw [hseg]
      decide
    · rw [shown, hseg]
      decide
    · rw [@segments_of_none [] rfl]
      decide
  have hok₂ : ChunkOk [0x41, ESC] (OSC :: ascii "0;hi" ++ [BEL, 0x42]) := by
    have hseg : segments ((segments [0x41, ESC]).2 ++ (OSC :: ascii "0;hi" ++ [BEL, 0x42])) =
        ([.osc (ascii "0;hi") .bel, .plain 0x42], []) := by
      rw [hfirst]
      exact hsecond
    refine ⟨?_, ?_, ?_, ?_⟩
    · rw [hseg]
      decide
    · rw [hseg]
      decide
    · rw [shown, hseg]
      decide
    · rw [hfirst]
      decide
  refine (passthrough_law_iff fromCharCodes _ (belowLimit_of_length (by decide))).mpr ?_ _
    List.prefix_rfl
  intro before chunk hpre
  rcases before with _ | ⟨c, _ | ⟨d, rest⟩⟩
  · obtain ⟨rfl, _⟩ := List.cons_prefix_cons.mp hpre
    exact hok₁
  · obtain ⟨rfl, hrest⟩ := List.cons_prefix_cons.mp hpre
    obtain ⟨rfl, _⟩ := List.cons_prefix_cons.mp hrest
    exact hok₂
  · have hlen := hpre.length_le
    simp at hlen

/-- An ESC is pending, and the chunk `A ESC` follows: two bytes are written, `ESC A`, but
the chunk has two bytes as well and is returned in their place. -/
theorem passthrough_law_fails_carried_esc :
    BelowLimit [ESC, 0x41, ESC] ∧
    (feedAll fromCharCodes init [[ESC], [0x41, ESC]]).2.flatMap OscSniffResult.passthrough =
      [0x41, ESC] ∧
    shown [ESC, 0x41, ESC] = [ESC, 0x41] ∧
    ¬PassthroughLaw fromCharCodes [[ESC], [0x41, ESC]] := by
  have hout : (feedAll fromCharCodes init [[ESC], [0x41, ESC]]).2.flatMap
      OscSniffResult.passthrough = [0x41, ESC] := by decide
  have hpending : (feedAll fromCharCodes init [[ESC], [0x41, ESC]]).1.pending = [ESC] := by decide
  have hseg : segments [ESC, 0x41, ESC] = ([.plain ESC, .plain 0x41], [ESC]) := by
    rw [segments_of_some (show firstSegment [ESC, 0x41, ESC] = some (.plain ESC, [0x41, ESC]) by
        decide),
      segments_of_some (firstSegment_plain (by decide) [ESC]), segments_esc]
  have hshown : shown [ESC, 0x41, ESC] = [ESC, 0x41] := by
    rw [shown, hseg]
    rfl
  refine ⟨belowLimit_of_length (by decide), hout, hshown, fun hlaw => ?_⟩
  have hbytes := hlaw.bytes
  rw [hout, hpending, show [[ESC], [0x41, ESC]].flatten = [ESC, 0x41, ESC] from rfl, hshown,
    hseg] at hbytes
  exact absurd hbytes (by decide)

end OscTitleSniffer

end TmuxccDriver.Parser
