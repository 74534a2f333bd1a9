import TmuxccDriver.Lib.Bytes
import TmuxccDriver.Lib.Text
import TmuxccDriver.Protocol.SessionProxyControl

/-!
# Data frames

`framing.ts`: the binary frames that carry the output of panes. A header of eleven bytes
(magic, sequence number, payload length, id length) is followed by the pane id and the
payload. `TextDecoder.decode` is a parameter.

Results:
1. `encodeFrame_ok`: the bytes of a frame that may be encoded.
2. `decodeFrame_encodeFrame`: a frame is read back from its bytes, with its pane id decoded.
-/

namespace TmuxccDriver.Protocol
open TmuxccDriver.Lib

/-! ## Constants -/

def FRAME_MAGIC : UInt8 := 0xcc

def OFF_SEQ : Nat := 1
def OFF_PAYLEN : Nat := 5
def OFF_IDLEN : Nat := 9
def OFF_PANEID : Nat := 11

def MIN_HEADER_BYTES : Nat := 11

/-- 8 MiB. -/
def MAX_FRAME : Nat := 8388608

/-! ## Frames -/

structure DataFrame where
  paneId : PaneId
  seq : Nat
  payload : Bytes
deriving DecidableEq, Repr

/-- A JavaScript `RangeError`. -/
structure RangeError where
  message : String
deriving DecidableEq, Repr

/-- `n >>> 0`. -/
def toUint32 (n : Int) : Nat := (n % 2 ^ 32).toNat

/-- The fixed header. -/
def frameHeader (seq payLen idLen : Nat) : Bytes :=
  FRAME_MAGIC :: (beBytes 4 seq ++ (beBytes 4 payLen ++ beBytes 2 idLen))

def encodeFrame (id : PaneId) (seq : Int) (payload : Bytes) : Except RangeError Bytes :=
  let idBytes := utf8 id.raw
  if idBytes.length > 0xffff then
    .error ⟨"paneId UTF-8 encoding exceeds maximum length of 65535 bytes"⟩
  else if payload.length > 0xffffffff then
    .error ⟨"payload length exceeds maximum of 4294967295 bytes"⟩
  else
    .ok (frameHeader (toUint32 seq) payload.length idBytes.length ++ (idBytes ++ payload))

def decodeFrame (decode : Bytes → String) (buf : Bytes) : Except RangeError DataFrame :=
  if buf.length < MIN_HEADER_BYTES then
    .error ⟨s!"buffer too short: {buf.length} < {MIN_HEADER_BYTES} minimum header bytes"⟩
  else if buf.headD 0 ≠ FRAME_MAGIC then
    .error ⟨"data-plane framing error: expected magic byte 0xCC, got 0x" ++ hexByte (buf.headD 0)⟩
  else
    let seq := readUInt buf OFF_SEQ 4
    let payLen := readUInt buf OFF_PAYLEN 4
    let idLen := readUInt buf OFF_IDLEN 2
    if payLen > MAX_FRAME then
      .error ⟨s!"data-plane framing error: PAYLEN {payLen} exceeds MAX_FRAME cap of {MAX_FRAME} " ++
        "bytes — possible garbage or hostile frame"⟩
    else
      let expectedLen := MIN_HEADER_BYTES + idLen + payLen
      if buf.length < expectedLen then
        .error ⟨s!"buffer too short: {buf.length} bytes, frame requires {expectedLen} bytes"⟩
      else
        .ok ⟨⟨decode ((buf.drop OFF_PANEID).take idLen)⟩, seq,
          (buf.drop (OFF_PANEID + idLen)).take payLen⟩

/-! ## Reading the header -/

theorem toUint32_lt (n : Int) : toUint32 n < 2 ^ 32 := by
  unfold toUint32
  omega

theorem length_frameHeader (seq payLen idLen : Nat) :
    (frameHeader seq payLen idLen).length = MIN_HEADER_BYTES := by
  simp [frameHeader, MIN_HEADER_BYTES]

theorem seq_of_header (seq payLen idLen : Nat) (hseq : seq < 2 ^ 32) (body : Bytes) :
    readUInt (frameHeader seq payLen idLen ++ body) OFF_SEQ 4 = seq := by
  have h := readUInt_append [FRAME_MAGIC] (beBytes 4 payLen ++ beBytes 2 idLen ++ body) 4 seq
  rw [Nat.mod_eq_of_lt (by omega)] at h
  simpa [frameHeader, OFF_SEQ] using h

theorem payLen_of_header (seq payLen idLen : Nat) (hpay : payLen < 2 ^ 32) (body : Bytes) :
    readUInt (frameHeader seq payLen idLen ++ body) OFF_PAYLEN 4 = payLen := by
  have h := readUInt_append (FRAME_MAGIC :: beBytes 4 seq) (beBytes 2 idLen ++ body) 4 payLen
  rw [Nat.mod_eq_of_lt (by omega)] at h
  simpa [frameHeader, OFF_PAYLEN] using h

theorem idLen_of_header (seq payLen idLen : Nat) (hid : idLen < 2 ^ 16) (body : Bytes) :
    readUInt (frameHeader seq payLen idLen ++ body) OFF_IDLEN 2 = idLen := by
  have h := readUInt_append (FRAME_MAGIC :: (beBytes 4 seq ++ beBytes 4 payLen)) body 2 idLen
  rw [Nat.mod_eq_of_lt (by omega)] at h
  simpa [frameHeader, OFF_IDLEN] using h

/-! ## The round trip -/

theorem encodeFrame_ok {id : PaneId} (seq : Int) {payload : Bytes}
    (hid : (utf8 id.raw).length ≤ 0xffff) (hpay : payload.length ≤ MAX_FRAME) :
    encodeFrame id seq payload =
      .ok (frameHeader (toUint32 seq) payload.length (utf8 id.raw).length ++
        (utf8 id.raw ++ payload)) := by
  have hpay' : payload.length ≤ 0xffffffff := by
    rw [MAX_FRAME] at hpay
    omega
  rw [encodeFrame, if_neg (Nat.not_lt.mpr hid), if_neg (Nat.not_lt.mpr hpay')]

theorem decodeFrame_encodeFrame {decode : Bytes → String} {id : PaneId} {seq : Int}
    {payload : Bytes} (hid : (utf8 id.raw).length ≤ 0xffff) (hpay : payload.length ≤ MAX_FRAME)
    {bytes : Bytes} (h : encodeFrame id seq payload = .ok bytes) :
    decodeFrame decode bytes = .ok ⟨⟨decode (utf8 id.raw)⟩, toUint32 seq, payload⟩ := by
  rw [encodeFrame_ok seq hid hpay] at h
  cases h
  have hheader := length_frameHeader (toUint32 seq) payload.length (utf8 id.raw).length
  have hpay32 : payload.length < 2 ^ 32 := by
    rw [MAX_FRAME] at hpay
    omega
  have hpane : (frameHeader (toUint32 seq) payload.length (utf8 id.raw).length ++
      (utf8 id.raw ++ payload)).drop OFF_PANEID = utf8 id.raw ++ payload :=
    List.drop_left' hheader
  unfold decodeFrame
  rw [if_neg (by rw [List.length_append, hheader]; omega), if_neg (by simp [frameHeader]),
    seq_of_header _ _ _ (toUint32_lt seq), payLen_of_header _ _ _ hpay32,
    idLen_of_header _ _ _ (by omega)]
  dsimp only
  rw [if_neg (Nat.not_lt.mpr hpay),
    if_neg (by rw [List.length_append, List.length_append, hheader]; omega), hpane, List.take_left,
    ← List.drop_drop, hpane, List.drop_left, List.take_length]

end TmuxccDriver.Protocol
