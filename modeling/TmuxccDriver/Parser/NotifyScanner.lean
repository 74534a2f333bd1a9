import TmuxccDriver.Lib.Text
import TmuxccDriver.Lib.Transducer
import TmuxccDriver.Parser.OscGrammar

/-!
# The notification scanner

`parser/notify-scanner.ts`: a state machine for each pane that reports bells and the
OSC 9, 777 and 633 sequences in the pane's bytes, across chunks. Numbers in a payload
are exact; a run of digits beyond the range of a double is not finite.

Results:
1. `scan_realises`: one `scan` is a run of the loop over the bytes of its chunk.
2. `kind_ne_bell`: no OSC sequence reports a bell.
-/

namespace TmuxccDriver.Parser
open TmuxccDriver.Lib Osc

/-! ## Detections -/

inductive PaneNotifyKind
  | osc9
  | bell
  | progress
  | cmdExit
deriving DecidableEq, Repr

inductive PaneNotifySource
  | osc9
  | osc777
deriving DecidableEq, Repr

inductive PaneProgressState
  | remove
  | set
  | error
  | indeterminate
  | paused
deriving DecidableEq, Repr

structure PaneNotifyPayload where
  message : Option String
  title : Option String
  source : Option PaneNotifySource
  progressState : Option PaneProgressState
  progress : Option Int
  exitCode : Option Int
deriving DecidableEq, Repr

def PaneNotifyPayload.empty : PaneNotifyPayload := ⟨none, none, none, none, none, none⟩

structure PaneNotifyDetection where
  kind : PaneNotifyKind
  payload : Option PaneNotifyPayload
deriving DecidableEq, Repr

/-- `BELL_DETECTION`. -/
def BELL_DETECTION : PaneNotifyDetection := ⟨.bell, none⟩

/-! ## The content of an OSC sequence -/

/-- `Number.isFinite` of an integer: what rounds to a double. -/
def isFinite (n : Int) : Bool := n.natAbs < 2 ^ 1024 - 2 ^ 970

/-- `parseInt`, where the result is finite. -/
def parseFinite (cs : List Char) : Option Int := (Lib.parseInt cs).filter isFinite

def clampPercent (n : Int) : Int := if n < 0 then 0 else if n > 100 then 100 else n

/-- `CONEMU_STATE`. -/
def CONEMU_STATE : List Char → Option PaneProgressState
  | ['0'] => some .remove
  | ['1'] => some .set
  | ['2'] => some .error
  | ['3'] => some .indeterminate
  | ['4'] => some .paused
  | _ => none

/-- The states that come with a percentage. -/
def hasPercent (state : Option PaneProgressState) : Bool :=
  state = some .set || state = some .error || state = some .paused

def parseConEmuProgress (args : List Char) : PaneNotifyDetection :=
  let parts := args.splitOn ';'
  let state := parts.head?.bind CONEMU_STATE
  let progress := if hasPercent state then (parts[1]?.bind parseFinite).map clampPercent else none
  ⟨.progress, some { PaneNotifyPayload.empty with progressState := state, progress := progress }⟩

/-- The desktop notification of OSC 9: the body is the full remainder. -/
def desktopNotification (rest : List Char) : PaneNotifyDetection :=
  ⟨.osc9, some { PaneNotifyPayload.empty with
    message := some (String.ofList rest), source := some .osc9 }⟩

/-- `4;` and a digit up to 4 make OSC 9 a progress report. -/
def parseOsc9 (rest : List Char) : PaneNotifyDetection :=
  match rest with
  | '4' :: ';' :: st :: args =>
    if 0x30 ≤ st.toNat ∧ st.toNat ≤ 0x34 then parseConEmuProgress (st :: args)
    else desktopNotification rest
  | _ => desktopNotification rest

def parseOsc777 (rest : List Char) : Option PaneNotifyDetection :=
  let parts := rest.splitOn ';'
  if parts.head? = some "notify".toList then
    let title := (parts[1]?).getD []
    let message := [';'].intercalate (parts.drop 2)
    some ⟨.osc9, some { PaneNotifyPayload.empty with
      message := some (String.ofList message), source := some .osc777
      title := if title.length > 0 then some (String.ofList title) else none }⟩
  else none

def parseOsc633 (rest : List Char) : Option PaneNotifyDetection :=
  let parts := rest.splitOn ';'
  if parts.head? = some ['D'] then
    let code := parts[1]?.bind fun part => if part ≠ [] then parseFinite part else none
    some ⟨.cmdExit, code.map fun code => { PaneNotifyPayload.empty with exitCode := some code }⟩
  else none

/-- `parseOscContent`. -/
def parseOscContent (content : String) : Option PaneNotifyDetection :=
  let param := content.toList.takeWhile (· ≠ ';')
  let rest := (content.toList.dropWhile (· ≠ ';')).drop 1
  if param = ['9'] then some (parseOsc9 rest)
  else if param = ['7', '7', '7'] then parseOsc777 rest
  else if param = ['6', '3', '3'] then parseOsc633 rest
  else none

theorem kind_ne_bell {content : String} {d : PaneNotifyDetection}
    (h : parseOscContent content = some d) : d ≠ BELL_DETECTION := by
  suffices hkind : d.kind ≠ .bell by
    rintro rfl
    exact hkind rfl
  have hosc9 : ∀ rest, (parseOsc9 rest).kind ≠ .bell := by
    intro rest
    unfold parseOsc9
    split
    · split <;> simp [parseConEmuProgress, desktopNotification]
    · simp [desktopNotification]
  unfold parseOscContent at h
  simp only at h
  split at h
  · obtain rfl := Option.some.inj h
    exact hosc9 _
  split at h
  · unfold parseOsc777 at h
    simp only [Option.ite_none_right_eq_some, Option.some.injEq] at h
    obtain ⟨-, rfl⟩ := h
    simp
  split at h
  · unfold parseOsc633 at h
    simp only [Option.ite_none_right_eq_some, Option.some.injEq] at h
    obtain ⟨-, rfl⟩ := h
    simp
  · cases h

/-! ## The state machine -/

inductive ScanState
  | idle
  | esc
  | osc
  | oscEsc
  | str
  | strEsc
deriving DecidableEq, Repr

/-- The fields of `PaneNotifyScanner`; `buf` is the part of `_buf` up to `_bufLen`. -/
structure PaneNotifyScanner where
  state : ScanState
  buf : Bytes
  strLen : Nat
deriving DecidableEq, Repr

def MAX_OSC_BYTES : Nat := 4 * 1024

/-- DCS, SOS, PM or APC: the second byte of a string that is no OSC. -/
def introducesString (b : UInt8) : Bool := b = 0x50 || b = 0x58 || b = 0x5e || b = 0x5f

namespace PaneNotifyScanner

def init : PaneNotifyScanner := ⟨.idle, [], 0⟩

section
-- `TextDecoder`: UTF-8, or Latin-1 where that fails.
variable (decode : Bytes → String)

/-- `decodeUtf8`. -/
def decodeUtf8 (buf : Bytes) : String := if buf.length = 0 then "" else decode buf

/-- `_finishOsc`. -/
def finishOsc (s : PaneNotifyScanner) : PaneNotifyScanner × List PaneNotifyDetection :=
  ({ s with state := .idle, buf := [] }, (parseOscContent (decodeUtf8 decode s.buf)).toList)

/-- A byte processed in `IDLE`. -/
def scanIdle (s : PaneNotifyScanner) (b : UInt8) : PaneNotifyScanner × List PaneNotifyDetection :=
  if b = BEL then ({ s with state := .idle }, [BELL_DETECTION])
  else if b = ESC then ({ s with state := .esc }, [])
  else ({ s with state := .idle }, [])

/-- The switch in the loop of `scan`. -/
def scanByte (s : PaneNotifyScanner) (b : UInt8) : PaneNotifyScanner × List PaneNotifyDetection :=
  match s.state with
  | .idle => s.scanIdle b
  | .esc =>
    if b = OSC then ({ s with state := .osc, buf := [] }, [])
    else if introducesString b then ({ s with state := .str, strLen := 0 }, [])
    else if b = ESC then (s, [])
    else ({ s with state := .idle }, [])
  | .osc =>
    if b = BEL then s.finishOsc decode
    else if b = ESC then ({ s with state := .oscEsc }, [])
    -- `_pushOscByte` fails: the byte is processed again from `IDLE`
    else if s.buf.length ≥ MAX_OSC_BYTES then s.scanIdle b
    else ({ s with buf := s.buf ++ [b] }, [])
  | .oscEsc =>
    if b = BACKSLASH then s.finishOsc decode
    else { s with buf := [] }.scanIdle b
  | .str =>
    if b = BEL then ({ s with state := .idle }, [])
    else if b = ESC then ({ s with state := .strEsc }, [])
    else if s.strLen + 1 > MAX_OSC_BYTES then
      ({ s with state := .idle, strLen := s.strLen + 1 }, [])
    else ({ s with strLen := s.strLen + 1 }, [])
  | .strEsc => if b = BACKSLASH then ({ s with state := .idle }, []) else s.scanIdle b

/-- The loop of `scan` as a machine over bytes. -/
def loop : Transducer PaneNotifyScanner UInt8 PaneNotifyDetection := ⟨scanByte decode⟩

/-- `hasEscOrBel`. -/
def hasEscOrBel (chunk : Bytes) : Bool := chunk.any fun b => b = ESC || b = BEL

/-- `scan`. -/
def scan (s : PaneNotifyScanner) (chunk : Bytes) : PaneNotifyScanner × List PaneNotifyDetection :=
  if s.state = .idle ∧ ¬hasEscOrBel chunk then (s, []) else (loop decode).run s chunk

/-- The fast path skips bytes that the loop would ignore. -/
theorem run_plain {s : PaneNotifyScanner} (hs : s.state = .idle) {chunk : Bytes}
    (hchunk : ¬hasEscOrBel chunk) : (loop decode).run s chunk = (s, []) := by
  induction chunk with
  | nil => rfl
  | cons b chunk ih =>
    simp only [hasEscOrBel, List.any_cons, Bool.or_eq_true, decide_eq_true_eq, not_or] at hchunk
    obtain ⟨⟨hesc, hbel⟩, hrest⟩ := hchunk
    have hstep : (loop decode).step s b = (s, []) := by
      obtain ⟨state, buf, strLen⟩ := s
      obtain rfl : state = .idle := hs
      simp [loop, scanByte, scanIdle, hesc, hbel]
    rw [Transducer.run_cons_silent _ hstep]
    exact ih hrest

theorem scan_realises : Realises id (scan decode) (loop decode) := by
  intro s chunk
  rw [scan]
  split
  · rename_i hfast
    exact (run_plain decode hfast.1 hfast.2).symm
  · rfl

end

end PaneNotifyScanner

end TmuxccDriver.Parser
