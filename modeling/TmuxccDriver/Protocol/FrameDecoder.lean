import TmuxccDriver.Lib.Incremental
import TmuxccDriver.Protocol.DataFrame
import TmuxccDriver.State.RowListings

/-!
# The streaming decoder of data frames

`framing.ts`: `FrameDecoder` keeps the chunks it was given and the number of their bytes. It
looks at a header, and takes a frame, by a slice of the first chunk where that is long enough
and by a copy from several chunks otherwise. `TextDecoder.decode` is a parameter; it drops a
byte order mark at the front of what it decodes.

Results:
1. `peekBytes_eq`, `consumeBytes_spec`: both paths give the front of the concatenated chunks.
2. `pushAll_spec`: the decoder reads the concatenated chunks, however they were cut.
3. `decodeFrame_ok_iff`: `decodeFrame` accepts what the decoder takes as its first frame.
4. `roundTrips_iff`: frames are read back exactly if no pane id begins with a byte order mark.
-/

namespace TmuxccDriver.Protocol
open TmuxccDriver.Lib ItemReader

/-! ## The decoder -/

structure FrameDecoder where
  chunks : List Bytes
  bufferedLen : Nat
deriving DecidableEq, Repr

namespace FrameDecoder

def new : FrameDecoder := ⟨[], 0⟩

/-- A `new Uint8Array(n)` with `out` at its front. -/
def filled (n : Nat) (out : Bytes) : Bytes := out ++ List.replicate (n - out.length) 0

/-- The slow path of `_peekBytes`. -/
def peekLoop (n : Nat) : Bytes → List Bytes → Bytes
  | out, [] => out
  | out, chunk :: chunks =>
    if out.length ≥ n then out
    else
      let needed := n - out.length
      if chunk.length ≤ needed then peekLoop n (out ++ chunk) chunks
      else peekLoop n (out ++ chunk.take needed) chunks

/-- `_peekBytes`. -/
def peekBytes (decoder : FrameDecoder) (n : Nat) : Bytes :=
  match decoder.chunks with
  | [] => filled n (peekLoop n [] [])
  | first :: rest =>
    if first.length ≥ n then first.take n else filled n (peekLoop n [] (first :: rest))

/-- The slow path of `_consumeBytes`: what was written and the chunks that stay. -/
def consumeLoop (n : Nat) : Bytes → List Bytes → Bytes × List Bytes
  | out, [] => (out, [])
  | out, chunk :: chunks =>
    if out.length < n then
      let needed := n - out.length
      if chunk.length ≤ needed then consumeLoop n (out ++ chunk) chunks
      else (out ++ chunk.take needed, chunk.drop needed :: chunks)
    else (out, chunk :: chunks)

/-- `_consumeBytes`. -/
def consumeBytes (decoder : FrameDecoder) (n : Nat) : Bytes × FrameDecoder :=
  let bufferedLen := decoder.bufferedLen - n
  let (out, chunks) := consumeLoop n [] decoder.chunks
  match decoder.chunks with
  | [] => (filled n out, ⟨chunks, bufferedLen⟩)
  | first :: rest =>
    if first.length = n then (first, ⟨rest, bufferedLen⟩)
    else if first.length > n then (first.take n, ⟨first.drop n :: rest, bufferedLen⟩)
    else (filled n out, ⟨chunks, bufferedLen⟩)

def magicError (magic : UInt8) : RangeError :=
  ⟨"data-plane framing error: expected magic byte 0xCC, got 0x" ++ hexByte magic ++
    " — stream may be corrupted"⟩

def capError (payLen : Nat) : RangeError :=
  ⟨s!"data-plane framing error: PAYLEN {payLen} exceeds MAX_FRAME cap of {MAX_FRAME} " ++
    "bytes — possible garbage or hostile frame"⟩

/-- One turn of the loop of `push`; `none` leaves it. -/
def turn (decode : Bytes → String) (decoder : FrameDecoder) :
    Except RangeError (Option (DataFrame × FrameDecoder)) :=
  if decoder.bufferedLen ≥ MIN_HEADER_BYTES then
    let header := decoder.peekBytes MIN_HEADER_BYTES
    let magic := header.headD 0
    if magic ≠ FRAME_MAGIC then .error (magicError magic)
    else
      let payLen := readUInt header OFF_PAYLEN 4
      let idLen := readUInt header OFF_IDLEN 2
      if payLen > MAX_FRAME then .error (capError payLen)
      else
        let totalFrameLen := MIN_HEADER_BYTES + idLen + payLen
        if decoder.bufferedLen < totalFrameLen then .ok none
        else
          let (frameBytes, next) := decoder.consumeBytes totalFrameLen
          let seq := readUInt frameBytes OFF_SEQ 4
          let idStr := decode ((frameBytes.drop OFF_PANEID).take idLen)
          let payload := (frameBytes.drop (OFF_PANEID + idLen)).take payLen
          .ok (some (⟨⟨idStr⟩, seq, payload⟩, next))
  else .ok none

theorem consumeBytes_bufferedLen (decoder : FrameDecoder) (n : Nat) :
    (decoder.consumeBytes n).2.bufferedLen = decoder.bufferedLen - n := by
  rw [consumeBytes]
  dsimp only
  split <;> [rfl; split_ifs <;> rfl]

/-- Every frame takes at least its header. -/
theorem turn_shorter {decode : Bytes → String} {decoder next : FrameDecoder} {frame : DataFrame}
    (h : turn decode decoder = .ok (some (frame, next))) :
    next.bufferedLen < decoder.bufferedLen := by
  simp only [turn] at h
  split_ifs at h with hheader hmagic hcap hshort
  · cases h
  · simp only [Except.ok.injEq, Option.some.injEq, Prod.mk.injEq] at h
    rw [← h.2, consumeBytes_bufferedLen]
    rw [MIN_HEADER_BYTES] at hheader ⊢
    omega
  · cases h

/-- The loop of `push`: the frames that were read, and the decoder after them unless the
loop throws. -/
def pushLoop (decode : Bytes → String) (decoder : FrameDecoder) :
    List DataFrame × Except RangeError FrameDecoder :=
  match _h : turn decode decoder with
  | .ok none => ([], .ok decoder)
  | .error e => ([], .error e)
  | .ok (some (frame, next)) => (frame :: (pushLoop decode next).1, (pushLoop decode next).2)
termination_by decoder.bufferedLen
decreasing_by all_goals exact turn_shorter ‹_›

def push (decode : Bytes → String) (decoder : FrameDecoder) (chunk : Bytes) :
    List DataFrame × Except RangeError FrameDecoder :=
  if chunk.length = 0 then ([], .ok decoder)
  else pushLoop decode ⟨decoder.chunks ++ [chunk], decoder.bufferedLen + chunk.length⟩

/-- One `push` after the other, until one throws. -/
def pushAll (decode : Bytes → String) :
    FrameDecoder → List Bytes → List DataFrame × Except RangeError FrameDecoder
  | decoder, [] => ([], .ok decoder)
  | decoder, chunk :: chunks =>
    match push decode decoder chunk with
    | (frames, .error e) => (frames, .error e)
    | (frames, .ok next) =>
      (frames ++ (pushAll decode next chunks).1, (pushAll decode next chunks).2)

/-- What the caller gets: a throw discards the frames read before it. -/
def returned (result : List DataFrame × Except RangeError FrameDecoder) :
    Except RangeError (List DataFrame) :=
  result.2.map fun _ => result.1

/-! ## Peeking and consuming -/

/-- The bytes that were not consumed. -/
def buffer (decoder : FrameDecoder) : Bytes := decoder.chunks.flatten

/-- `_bufferedLen` is the length of the buffer. -/
def Counted (decoder : FrameDecoder) : Prop := decoder.bufferedLen = decoder.buffer.length

theorem filled_of_length {n : Nat} {out : Bytes} (h : out.length = n) : filled n out = out := by
  rw [filled, h, Nat.sub_self, List.replicate_zero, List.append_nil]

theorem peekLoop_eq (n : Nat) (out : Bytes) (chunks : List Bytes) :
    peekLoop n out chunks = out ++ chunks.flatten.take (n - out.length) := by
  induction chunks generalizing out with
  | nil => rw [peekLoop, List.flatten_nil, List.take_nil, List.append_nil]
  | cons chunk chunks ih =>
    simp only [peekLoop, List.flatten_cons]
    split_ifs with hfull hwhole
    · rw [Nat.sub_eq_zero_of_le hfull, List.take_zero, List.append_nil]
    · rw [ih, List.length_append, List.take_append, List.take_of_length_le hwhole, Nat.sub_add_eq,
        List.append_assoc]
    · have hlen : (chunk.take (n - out.length)).length = n - out.length :=
        List.length_take_of_le (Nat.le_of_not_le hwhole)
      rw [ih, List.length_append, hlen, Nat.sub_add_eq, Nat.sub_self, List.take_zero,
        List.append_nil, List.take_append_of_le_length (Nat.le_of_not_le hwhole)]

/-- What the slow path writes, and what it leaves. -/
theorem consumeLoop_eq (n : Nat) (out : Bytes) (chunks : List Bytes) :
    (consumeLoop n out chunks).1 = out ++ chunks.flatten.take (n - out.length) ∧
      (consumeLoop n out chunks).2.flatten = chunks.flatten.drop (n - out.length) := by
  induction chunks generalizing out with
  | nil => simp [consumeLoop]
  | cons chunk chunks ih =>
    simp only [consumeLoop, List.flatten_cons]
    split_ifs with hmore hwhole
    · obtain ⟨hout, hrest⟩ := ih (out ++ chunk)
      rw [List.length_append, Nat.sub_add_eq] at hout hrest
      rw [List.take_append, List.drop_append, List.take_of_length_le hwhole,
        List.drop_of_length_le hwhole, List.nil_append, ← List.append_assoc]
      exact ⟨hout, hrest⟩
    · have hle := Nat.le_of_not_le hwhole
      rw [List.take_append_of_le_length hle, List.drop_append_of_le_length hle, List.flatten_cons]
      exact ⟨rfl, rfl⟩
    · rw [Nat.sub_eq_zero_of_le (Nat.le_of_not_lt hmore), List.take_zero, List.append_nil,
        List.drop_zero, List.flatten_cons]
      exact ⟨rfl, rfl⟩

theorem peekBytes_eq {decoder : FrameDecoder} {n : Nat} (h : n ≤ decoder.buffer.length) :
    decoder.peekBytes n = decoder.buffer.take n := by
  have hslow : filled n (peekLoop n [] decoder.chunks) = decoder.buffer.take n := by
    rw [peekLoop_eq, List.nil_append, List.length_nil, Nat.sub_zero]
    exact filled_of_length (List.length_take_of_le h)
  rw [peekBytes]
  split
  · next hchunks => rwa [hchunks] at hslow
  · next first rest hchunks =>
    split_ifs with hfast
    · rw [buffer, hchunks, List.flatten_cons, List.take_append_of_le_length hfast]
    · rwa [hchunks] at hslow

theorem consumeBytes_spec {decoder : FrameDecoder} {n : Nat} (h : n ≤ decoder.buffer.length) :
    (decoder.consumeBytes n).1 = decoder.buffer.take n ∧
      (decoder.consumeBytes n).2.buffer = decoder.buffer.drop n := by
  obtain ⟨hout, hrest⟩ := consumeLoop_eq n [] decoder.chunks
  simp only [List.nil_append, List.length_nil, Nat.sub_zero] at hout hrest
  have hslow : filled n (consumeLoop n [] decoder.chunks).1 = decoder.buffer.take n := by
    rw [hout]
    exact filled_of_length (List.length_take_of_le h)
  rw [consumeBytes]
  dsimp only
  split
  · exact ⟨hslow, hrest⟩
  · next first rest hchunks =>
    have hbuffer : decoder.buffer = first ++ rest.flatten := by
      rw [buffer, hchunks, List.flatten_cons]
    split_ifs with hexact hmore
    · rw [hbuffer, ← hexact, List.take_left, List.drop_left]
      exact ⟨rfl, rfl⟩
    · have hle := Nat.le_of_lt hmore
      rw [hbuffer, List.take_append_of_le_length hle, List.drop_append_of_le_length hle]
      exact ⟨rfl, List.flatten_cons⟩
    · exact ⟨hslow, hrest⟩

theorem counted_consumeBytes {decoder : FrameDecoder} {n : Nat} (hcounted : decoder.Counted)
    (h : n ≤ decoder.buffer.length) : (decoder.consumeBytes n).2.Counted := by
  rw [Counted, consumeBytes_bufferedLen, (consumeBytes_spec h).2, List.length_drop, hcounted]

end FrameDecoder

/-! ## The first frame of a buffer -/

open FrameDecoder in
/-- What the decoder makes of the bytes it has. -/
def readFrame (decode : Bytes → String) (buf : Bytes) : Reading UInt8 DataFrame RangeError :=
  if buf.length < MIN_HEADER_BYTES then .wait
  else if buf.headD 0 ≠ FRAME_MAGIC then .fail (magicError (buf.headD 0))
  else
    let payLen := readUInt buf OFF_PAYLEN 4
    let idLen := readUInt buf OFF_IDLEN 2
    if payLen > MAX_FRAME then .fail (capError payLen)
    else
      let totalFrameLen := MIN_HEADER_BYTES + idLen + payLen
      if buf.length < totalFrameLen then .wait
      else
        .item ⟨⟨decode ((buf.drop OFF_PANEID).take idLen)⟩, readUInt buf OFF_SEQ 4,
          (buf.drop (OFF_PANEID + idLen)).take payLen⟩ (buf.drop totalFrameLen)

/-- The length that the header at the front of a buffer announces. -/
def announcedLen (buf : Bytes) : Nat :=
  MIN_HEADER_BYTES + readUInt buf OFF_IDLEN 2 + readUInt buf OFF_PAYLEN 4

/-- The frame at the front of a buffer. -/
def frameAt (decode : Bytes → String) (buf : Bytes) : DataFrame :=
  ⟨⟨decode ((buf.drop OFF_PANEID).take (readUInt buf OFF_IDLEN 2))⟩, readUInt buf OFF_SEQ 4,
    (buf.drop (OFF_PANEID + readUInt buf OFF_IDLEN 2)).take (readUInt buf OFF_PAYLEN 4)⟩

/-- The bytes of one frame and no others. -/
structure WholeFrame (own : Bytes) : Prop where
  header : MIN_HEADER_BYTES ≤ own.length
  magic : own.headD 0 = FRAME_MAGIC
  cap : readUInt own OFF_PAYLEN 4 ≤ MAX_FRAME
  length : own.length = announcedLen own

/-- The fields of a header do not change with what comes after it. -/
structure SameHeader (buf buf' : Bytes) : Prop where
  magic : buf'.headD 0 = buf.headD 0
  seq : readUInt buf' OFF_SEQ 4 = readUInt buf OFF_SEQ 4
  payLen : readUInt buf' OFF_PAYLEN 4 = readUInt buf OFF_PAYLEN 4
  idLen : readUInt buf' OFF_IDLEN 2 = readUInt buf OFF_IDLEN 2

theorem sameHeader_append {buf : Bytes} (h : MIN_HEADER_BYTES ≤ buf.length) (more : Bytes) :
    SameHeader buf (buf ++ more) where
  magic := by
    cases buf with
    | nil => cases h
    | cons b bs => rfl
  seq := readUInt_of_prefix more (Nat.le_trans (by decide) h)
  payLen := readUInt_of_prefix more (Nat.le_trans (by decide) h)
  idLen := readUInt_of_prefix more h

theorem sameHeader_take {buf : Bytes} {n : Nat} (hn : MIN_HEADER_BYTES ≤ n) (h : n ≤ buf.length) :
    SameHeader (buf.take n) buf := by
  have htake : MIN_HEADER_BYTES ≤ (buf.take n).length := by rwa [List.length_take_of_le h]
  simpa using sameHeader_append htake (buf.drop n)

theorem SameHeader.announcedLen_eq {buf buf' : Bytes} (h : SameHeader buf buf') :
    announcedLen buf' = announcedLen buf := by
  rw [announcedLen, announcedLen, h.idLen, h.payLen]

variable {decode : Bytes → String}

/-- The frame lies within the bytes it announces. -/
theorem frameAt_append {own : Bytes} (h : WholeFrame own) (more : Bytes) :
    frameAt decode (own ++ more) = frameAt decode own := by
  have hsame := sameHeader_append h.header more
  have hlen : own.length = OFF_PANEID + readUInt own OFF_IDLEN 2 + readUInt own OFF_PAYLEN 4 :=
    h.length
  have hpane : OFF_PANEID ≤ own.length := h.header
  have hid : readUInt own OFF_IDLEN 2 ≤ (own.drop OFF_PANEID).length := by
    rw [List.length_drop]
    omega
  have hstart : OFF_PANEID + readUInt own OFF_IDLEN 2 ≤ own.length := by omega
  have hpay : readUInt own OFF_PAYLEN 4 ≤
      (own.drop (OFF_PANEID + readUInt own OFF_IDLEN 2)).length := by
    rw [List.length_drop]
    omega
  rw [frameAt, frameAt, hsame.seq, hsame.payLen, hsame.idLen,
    List.drop_append_of_le_length hpane, List.take_append_of_le_length hid,
    List.drop_append_of_le_length hstart, List.take_append_of_le_length hpay]

/-- A whole frame is read, whatever comes after it. -/
theorem readFrame_append {own : Bytes} (h : WholeFrame own) (more : Bytes) :
    readFrame decode (own ++ more) = .item (frameAt decode own) more := by
  have hsame := sameHeader_append h.header more
  have hle : own.length ≤ (own ++ more).length := by
    rw [List.length_append]
    exact Nat.le_add_right _ _
  have hlen : MIN_HEADER_BYTES + readUInt own OFF_IDLEN 2 + readUInt own OFF_PAYLEN 4 =
      own.length := h.length.symm
  have hframe := @frameAt_append decode _ h more
  rw [frameAt, hsame.seq, hsame.payLen, hsame.idLen] at hframe
  rw [readFrame, if_neg (Nat.not_lt.mpr (Nat.le_trans h.header hle)), hsame.magic,
    if_neg (not_not_intro h.magic), hsame.payLen, hsame.idLen, hsame.seq]
  dsimp only
  rw [if_neg (Nat.not_lt.mpr h.cap), hlen, if_neg (Nat.not_lt.mpr hle), hframe, List.drop_left]

theorem min_le_announcedLen (buf : Bytes) : MIN_HEADER_BYTES ≤ announcedLen buf := by
  rw [announcedLen, Nat.add_assoc]
  exact Nat.le_add_right _ _

/-- The front of a buffer with a good header and enough bytes. -/
theorem wholeFrame_take {buf : Bytes} (hmagic : buf.headD 0 = FRAME_MAGIC)
    (hcap : readUInt buf OFF_PAYLEN 4 ≤ MAX_FRAME) (hlen : announcedLen buf ≤ buf.length) :
    WholeFrame (buf.take (announcedLen buf)) := by
  have hsame := sameHeader_take (min_le_announcedLen buf) hlen
  refine ⟨?_, hsame.magic ▸ hmagic, hsame.payLen ▸ hcap, ?_⟩
  · rw [List.length_take_of_le hlen]
    exact min_le_announcedLen buf
  · rw [List.length_take_of_le hlen, ← hsame.announcedLen_eq]

/-- What is read as a frame is one at the front. -/
theorem wholeFrame_of_item {buf rest : Bytes} {frame : DataFrame}
    (h : readFrame decode buf = .item frame rest) :
    ∃ own, WholeFrame own ∧ buf = own ++ rest ∧ frame = frameAt decode own := by
  simp only [readFrame] at h
  split_ifs at h with hheader hmagic hcap hshort
  cases h
  have hwhole : WholeFrame (buf.take (announcedLen buf)) :=
    wholeFrame_take (not_not.mp hmagic) (Nat.not_lt.mp hcap) (Nat.not_lt.mp hshort)
  refine ⟨_, hwhole, (List.take_append_drop _ _).symm, ?_⟩
  rw [← frameAt_append hwhole (buf.drop (announcedLen buf)), List.take_append_drop]
  rfl

/-- A refused header stays refused. -/
theorem readFrame_fail_append {buf : Bytes} {e : RangeError} (more : Bytes)
    (h : readFrame decode buf = .fail e) : readFrame decode (buf ++ more) = .fail e := by
  simp only [readFrame] at h
  split_ifs at h with hheader hmagic hcap
  all_goals
    have hmin := Nat.not_lt.mp hheader
    have hsame := sameHeader_append hmin more
    have hlong : ¬(buf ++ more).length < MIN_HEADER_BYTES := by
      rw [List.length_append]
      omega
    simp only [readFrame, hsame.magic, hsame.payLen, if_neg hlong]
  · rw [if_pos hmagic, ← h]
  · rw [if_neg hmagic, if_pos hcap, ← h]

/-- The reader that the decoder implements. -/
def frameReader (decode : Bytes → String) : ItemReader UInt8 DataFrame RangeError where
  read := readFrame decode
  item_front h := by
    obtain ⟨own, hwhole, hbuf, rfl⟩ := wholeFrame_of_item h
    have hne : own ≠ [] := List.ne_nil_of_length_pos (Nat.lt_of_lt_of_le (by decide) hwhole.header)
    exact ⟨own, hne, hbuf, readFrame_append hwhole⟩
  fail_append more h := readFrame_fail_append more h

theorem read_nil (decode : Bytes → String) : (frameReader decode).read [] = .wait := by
  have hshort : ([] : Bytes).length < MIN_HEADER_BYTES := by decide
  have hread : readFrame decode [] = .wait := by rw [readFrame, if_pos hshort]
  exact hread

/-- `decodeFrame` accepts what is read as a frame. -/
theorem decodeFrame_ok_iff {buf : Bytes} {frame : DataFrame} :
    decodeFrame decode buf = .ok frame ↔ ∃ rest, readFrame decode buf = .item frame rest := by
  simp only [decodeFrame, readFrame]
  split_ifs <;> simp

/-! ## The loop -/

namespace FrameDecoder

/-- One turn takes the first frame of the buffer. -/
theorem turn_spec {decoder : FrameDecoder} (hcounted : decoder.Counted) :
    match readFrame decode decoder.buffer with
    | .wait => turn decode decoder = .ok none
    | .fail e => turn decode decoder = .error e
    | .item frame rest => ∃ next, turn decode decoder = .ok (some (frame, next)) ∧
        next.buffer = rest ∧ next.Counted := by
  rw [Counted] at hcounted
  by_cases hheader : decoder.buffer.length < MIN_HEADER_BYTES
  · rw [readFrame, if_pos hheader, turn, hcounted]
    exact if_neg (Nat.not_le.mpr hheader)
  have hmin := Nat.not_lt.mp hheader
  have hpeek := peekBytes_eq hmin
  have hsame := sameHeader_take (Nat.le_refl _) hmin
  rw [← hpeek] at hsame
  simp only [readFrame, turn, hcounted, if_neg hheader, if_pos hmin, ← hsame.magic, ← hsame.payLen,
    ← hsame.idLen]
  by_cases hmagic : decoder.buffer.headD 0 ≠ FRAME_MAGIC
  · simp only [if_pos hmagic]
  by_cases hcap : readUInt decoder.buffer OFF_PAYLEN 4 > MAX_FRAME
  · simp only [if_neg hmagic, if_pos hcap]
  by_cases hshort : decoder.buffer.length < announcedLen decoder.buffer
  · rw [announcedLen] at hshort
    simp only [if_neg hmagic, if_neg hcap, if_pos hshort]
  have hlen := Nat.not_lt.mp hshort
  have hwhole := wholeFrame_take (not_not.mp hmagic) (Nat.not_lt.mp hcap) hlen
  have htaken := sameHeader_take (min_le_announcedLen _) hlen
  obtain ⟨hfront, hrest⟩ := consumeBytes_spec hlen
  have hframe := @frameAt_append decode _ hwhole
    (decoder.buffer.drop (announcedLen decoder.buffer))
  rw [List.take_append_drop, ← hfront, frameAt, frameAt, hfront, ← htaken.idLen, ← htaken.payLen,
    ← hfront] at hframe
  rw [announcedLen] at hshort
  simp only [if_neg hmagic, if_neg hcap, if_neg hshort]
  exact ⟨_, by rw [hframe]; rfl, hrest, counted_consumeBytes hcounted hlen⟩

/-- The loop drains the buffer. -/
theorem pushLoop_spec {decoder : FrameDecoder} (hcounted : decoder.Counted) :
    (pushLoop decode decoder).1 = ((frameReader decode).drain decoder.buffer).1 ∧
      (pushLoop decode decoder).2.map buffer = ((frameReader decode).drain decoder.buffer).2 ∧
      ∀ next, (pushLoop decode decoder).2 = .ok next → next.Counted := by
  induction decoder using pushLoop.induct decode with
  | case1 decoder hnone =>
    have hturn := @turn_spec decode _ hcounted
    have hwait : (frameReader decode).read decoder.buffer = .wait := by
      cases hread : readFrame decode decoder.buffer with
      | wait => exact hread
      | fail e => simp [hread, hnone] at hturn
      | item frame rest => simp [hread, hnone] at hturn
    have hloop : pushLoop decode decoder = ([], .ok decoder) := by
      rw [pushLoop]
      split <;> simp_all
    rw [hloop, drain_wait hwait]
    exact ⟨rfl, rfl, fun next h => Except.ok.inj h ▸ hcounted⟩
  | case2 decoder e herror =>
    have hturn := @turn_spec decode _ hcounted
    have hfail : (frameReader decode).read decoder.buffer = .fail e := by
      cases hread : readFrame decode decoder.buffer with
      | wait => simp [hread, herror] at hturn
      | fail e' =>
        rw [hread, herror] at hturn
        exact hread.trans (congrArg _ (Except.error.inj hturn).symm)
      | item frame rest => simp [hread, herror] at hturn
    have hloop : pushLoop decode decoder = ([], .error e) := by
      rw [pushLoop]
      split <;> simp_all
    rw [hloop, drain_fail hfail]
    exact ⟨rfl, rfl, fun next h => absurd h (by simp)⟩
  | case3 decoder frame next hsome ih =>
    have hturn := @turn_spec decode _ hcounted
    have hitem : (frameReader decode).read decoder.buffer = .item frame next.buffer ∧
        next.Counted := by
      cases hread : readFrame decode decoder.buffer with
      | wait => simp [hread, hsome] at hturn
      | fail e => simp [hread, hsome] at hturn
      | item frame' rest =>
        rw [hread, hsome] at hturn
        obtain ⟨next', hnext, rfl, hcounted'⟩ := hturn
        cases hnext
        exact ⟨hread, hcounted'⟩
    have hloop : pushLoop decode decoder =
        (frame :: (pushLoop decode next).1, (pushLoop decode next).2) := by
      rw [pushLoop]
      split <;> simp_all
    obtain ⟨hframes, hleft, hkept⟩ := ih hitem.2
    rw [hloop, drain_item hitem.1]
    exact ⟨congrArg (frame :: ·) hframes, hleft, hkept⟩

/-- A push drains what was left with the chunk behind it. -/
theorem push_spec {decoder : FrameDecoder} (hcounted : decoder.Counted)
    (hwait : readFrame decode decoder.buffer = .wait) (chunk : Bytes) :
    (push decode decoder chunk).1 =
        ((frameReader decode).drain (decoder.buffer ++ chunk)).1 ∧
      (push decode decoder chunk).2.map buffer =
        ((frameReader decode).drain (decoder.buffer ++ chunk)).2 ∧
      ∀ next, (push decode decoder chunk).2 = .ok next → next.Counted := by
  rw [push]
  split_ifs with hempty
  · have hread : (frameReader decode).read decoder.buffer = .wait := hwait
    rw [List.eq_nil_of_length_eq_zero hempty, List.append_nil, drain_wait hread]
    exact ⟨rfl, rfl, fun next h => Except.ok.inj h ▸ hcounted⟩
  · have hbuffer : (⟨decoder.chunks ++ [chunk], decoder.bufferedLen + chunk.length⟩ :
        FrameDecoder).buffer = decoder.buffer ++ chunk := by
      simp [buffer]
    rw [← hbuffer]
    refine pushLoop_spec ?_
    rw [Counted, hbuffer, List.length_append]
    exact congrArg (· + chunk.length) hcounted

/-- The pushes read what the concatenated chunks hold. -/
theorem pushAll_spec {decoder : FrameDecoder} (hcounted : decoder.Counted)
    (hwait : readFrame decode decoder.buffer = .wait) (chunks : List Bytes) :
    (pushAll decode decoder chunks).1 =
        ((frameReader decode).drain (decoder.buffer ++ chunks.flatten)).1 ∧
      (pushAll decode decoder chunks).2.map buffer =
        ((frameReader decode).drain (decoder.buffer ++ chunks.flatten)).2 := by
  have hread : (frameReader decode).read decoder.buffer = .wait := hwait
  rw [← feed_eq_drain hread]
  clear hread
  induction chunks generalizing decoder with
  | nil => exact ⟨rfl, rfl⟩
  | cons chunk chunks ih =>
    obtain ⟨hframes, hleft, hkept⟩ := push_spec hcounted hwait chunk
    rw [pushAll, feed]
    rcases hpush : push decode decoder chunk with ⟨frames, e | next⟩
    · rcases hdrain : (frameReader decode).drain (decoder.buffer ++ chunk) with ⟨items, e' | rest⟩
      · rw [hpush, hdrain] at hframes hleft
        exact ⟨hframes, hleft⟩
      · simp [hpush, hdrain, Except.map] at hleft
    · rcases hdrain : (frameReader decode).drain (decoder.buffer ++ chunk) with ⟨items, e' | rest⟩
      · simp [hpush, hdrain, Except.map] at hleft
      · rw [hpush, hdrain] at hframes hleft
        have hrest : next.buffer = rest := Except.ok.inj hleft
        have hnext : readFrame decode next.buffer = .wait := hrest ▸ read_of_drain hdrain
        obtain ⟨hmore, hend⟩ := ih (hkept next (by rw [hpush])) hnext
        refine ⟨?_, hrest ▸ hend⟩
        exact congrArg₂ (· ++ ·) hframes (hrest ▸ hmore)

/-- The same for a new decoder. -/
theorem pushAll_new (decode : Bytes → String) (chunks : List Bytes) :
    (pushAll decode .new chunks).1 = ((frameReader decode).drain chunks.flatten).1 ∧
      (pushAll decode .new chunks).2.map buffer = ((frameReader decode).drain chunks.flatten).2 :=
  have hcounted : new.Counted := rfl
  pushAll_spec hcounted (read_nil decode) chunks

end FrameDecoder

/-! ## Encoded frames -/

/-- A call of `encodeFrame`. -/
structure Outgoing where
  id : PaneId
  seq : Int
  payload : Bytes

namespace Outgoing

def encode (out : Outgoing) : Except RangeError Bytes := encodeFrame out.id out.seq out.payload

/-- The frame that is to be read back. -/
def frame (out : Outgoing) : DataFrame := ⟨out.id, toUint32 out.seq, out.payload⟩

def Fits (out : Outgoing) : Prop :=
  (utf8 out.id.raw).length ≤ 0xffff ∧ out.payload.length ≤ MAX_FRAME

instance (out : Outgoing) : Decidable out.Fits := inferInstanceAs (Decidable (_ ∧ _))

/-- The bytes of a frame that fits. -/
def bytes (out : Outgoing) : Bytes :=
  frameHeader (toUint32 out.seq) out.payload.length (utf8 out.id.raw).length ++
    (utf8 out.id.raw ++ out.payload)

/-- The frame with the pane id as it is decoded. -/
def decoded (decode : Bytes → String) (out : Outgoing) : DataFrame :=
  ⟨⟨decode (utf8 out.id.raw)⟩, toUint32 out.seq, out.payload⟩

theorem encode_ok {out : Outgoing} (h : out.Fits) : out.encode = .ok out.bytes :=
  encodeFrame_ok out.seq h.1 h.2

theorem mapM_encode {outs : List Outgoing} (h : ∀ out ∈ outs, out.Fits) :
    outs.mapM encode = .ok (outs.map bytes) := by
  induction outs with
  | nil => rfl
  | cons out outs ih =>
    have hrest := ih fun o ho => h o (List.mem_cons_of_mem out ho)
    rw [List.mapM_cons, encode_ok (h out List.mem_cons_self), hrest]
    rfl

/-- The encoding is the bytes of one frame, which hold what was encoded. -/
theorem wholeFrame_bytes {out : Outgoing} (h : out.Fits) :
    WholeFrame out.bytes ∧ frameAt decode out.bytes = out.decoded decode := by
  obtain ⟨hid, hpay⟩ := h
  have hpay32 : out.payload.length < 2 ^ 32 := by
    rw [MAX_FRAME] at hpay
    omega
  have hheader := length_frameHeader (toUint32 out.seq) out.payload.length (utf8 out.id.raw).length
  have hlen : out.bytes.length = OFF_PANEID + (utf8 out.id.raw).length + out.payload.length := by
    rw [bytes, List.length_append, hheader, List.length_append, Nat.add_assoc]
    rfl
  have hseq : readUInt out.bytes OFF_SEQ 4 = toUint32 out.seq :=
    seq_of_header _ _ _ (toUint32_lt _) _
  have hpayLen : readUInt out.bytes OFF_PAYLEN 4 = out.payload.length :=
    payLen_of_header _ _ _ hpay32 _
  have hidLen : readUInt out.bytes OFF_IDLEN 2 = (utf8 out.id.raw).length :=
    idLen_of_header _ _ _ (by omega) _
  have hpane : out.bytes.drop OFF_PANEID = utf8 out.id.raw ++ out.payload :=
    List.drop_left' hheader
  refine ⟨⟨?_, rfl, hpayLen ▸ hpay, ?_⟩, ?_⟩
  · rw [hlen, Nat.add_assoc]
    exact Nat.le_add_right _ _
  · rw [announcedLen, hidLen, hpayLen, hlen]
    rfl
  · rw [frameAt, hseq, hpayLen, hidLen, ← List.drop_drop, hpane, List.take_left, List.drop_left,
      List.take_length]
    rfl

end Outgoing

open FrameDecoder

/-- The frames are returned in order, whatever the chunks, and `decodeFrame` reads each of them
from its own encoding. -/
def RoundTrips (decode : Bytes → String) (outs : List Outgoing) : Prop :=
  ∃ encodings, outs.mapM Outgoing.encode = .ok encodings ∧
    (∀ chunks, chunks.flatten = encodings.flatten →
      returned (pushAll decode .new chunks) = .ok (outs.map Outgoing.frame)) ∧
    ∀ out ∈ outs, ∀ bytes, out.encode = .ok bytes → decodeFrame decode bytes = .ok out.frame

/-- What is returned has the pane ids as they are decoded. -/
theorem pushAll_bytes {outs : List Outgoing} (hfits : ∀ out ∈ outs, out.Fits)
    {chunks : List Bytes} (hcut : chunks.flatten = (outs.map Outgoing.bytes).flatten) :
    returned (pushAll decode .new chunks) = .ok (outs.map (Outgoing.decoded decode)) := by
  have hread : ∀ out ∈ outs, ∀ more, (frameReader decode).read (out.bytes ++ more) =
      .item (out.decoded decode) more := by
    intro out hout more
    obtain ⟨hwhole, hframe⟩ := @Outgoing.wholeFrame_bytes decode _ (hfits out hout)
    rw [← hframe]
    exact readFrame_append hwhole more
  obtain ⟨hframes, hleft⟩ := pushAll_new decode chunks
  rw [hcut, ← List.flatMap_def, drain_flatMap (read_nil decode) hread] at hframes hleft
  rw [returned, hframes]
  cases hend : (pushAll decode .new chunks).2 with
  | error e => simp [hend, Except.map] at hleft
  | ok next => rfl

theorem decodeFrame_bytes {out : Outgoing} (hfits : out.Fits) :
    decodeFrame decode out.bytes = .ok (out.decoded decode) := by
  obtain ⟨hwhole, hframe⟩ := @Outgoing.wholeFrame_bytes decode _ hfits
  have hread := @readFrame_append decode _ hwhole []
  rw [List.append_nil, hframe] at hread
  exact decodeFrame_ok_iff.mpr ⟨[], hread⟩

/-! ## The first frame -/

/-- `decodeFrame` and the decoder treat the first frame of a buffer alike, however it is cut. A
frame is refused for good when no bytes after it make it one; before that the decoder waits. -/
structure FirstAlike (decode : Bytes → String) (buf : Bytes) : Prop where
  accepts : ∀ chunks, chunks.flatten = buf → ∀ frame,
    decodeFrame decode buf = .ok frame ↔ (pushAll decode .new chunks).1.head? = some frame
  refuses : ∀ chunks, chunks.flatten = buf →
    (((pushAll decode .new chunks).1 = [] ∧ ∃ e, (pushAll decode .new chunks).2 = .error e) ↔
      MIN_HEADER_BYTES ≤ buf.length ∧ ∀ more frame, decodeFrame decode (buf ++ more) ≠ .ok frame)
  alone : ∀ frame, decodeFrame decode buf = .ok frame → ∃ own, own <+: buf ∧
    ∀ chunks, chunks.flatten = own → returned (pushAll decode .new chunks) = .ok [frame]

/-- Zeros complete a frame whose header is good. -/
theorem completes {buf : Bytes} (hheader : MIN_HEADER_BYTES ≤ buf.length)
    (hwait : readFrame decode buf = .wait) :
    ∃ more frame, decodeFrame decode (buf ++ more) = .ok frame := by
  simp only [readFrame, if_neg (Nat.not_lt.mpr hheader)] at hwait
  split_ifs at hwait with hmagic hcap hshort
  have hsame := sameHeader_append hheader (List.replicate (announcedLen buf - buf.length) 0)
  have hlen : buf.length < announcedLen buf := hshort
  have hwhole : WholeFrame (buf ++ List.replicate (announcedLen buf - buf.length) 0) := by
    refine ⟨?_, hsame.magic.trans (not_not.mp hmagic), ?_, ?_⟩
    · rw [List.length_append]
      exact Nat.le_trans hheader (Nat.le_add_right _ _)
    · rw [hsame.payLen]
      exact Nat.not_lt.mp hcap
    · rw [hsame.announcedLen_eq, List.length_append, List.length_replicate]
      omega
  have hread := @readFrame_append decode _ hwhole []
  rw [List.append_nil] at hread
  exact ⟨_, _, decodeFrame_ok_iff.mpr ⟨[], hread⟩⟩

theorem readFrame_fail_iff {buf : Bytes} :
    (∃ e, readFrame decode buf = .fail e) ↔
      MIN_HEADER_BYTES ≤ buf.length ∧
        ∀ more frame, decodeFrame decode (buf ++ more) ≠ .ok frame := by
  constructor
  · rintro ⟨e, hfail⟩
    refine ⟨Nat.not_lt.mp fun hshort => ?_, fun more frame hok => ?_⟩
    · simp [readFrame, hshort] at hfail
    · obtain ⟨rest, hread⟩ := decodeFrame_ok_iff.mp hok
      rw [readFrame_fail_append more hfail] at hread
      cases hread
  · rintro ⟨hheader, hnever⟩
    cases hread : readFrame decode buf with
    | wait =>
      obtain ⟨more, frame, hok⟩ := completes hheader hread
      exact absurd hok (hnever more frame)
    | fail e => exact ⟨e, rfl⟩
    | item frame rest =>
      have hok := decodeFrame_ok_iff.mpr ⟨rest, hread⟩
      rw [← List.append_nil buf] at hok
      exact absurd hok (hnever [] frame)

theorem firstAlike (decode : Bytes → String) (buf : Bytes) : FirstAlike decode buf where
  accepts chunks hcut frame := by
    obtain ⟨hframes, -⟩ := pushAll_new decode chunks
    rw [hframes, hcut, decodeFrame_ok_iff, head?_drain]
    rfl
  refuses chunks hcut := by
    obtain ⟨hframes, hleft⟩ := pushAll_new decode chunks
    rw [hcut] at hframes hleft
    rw [← readFrame_fail_iff, hframes]
    constructor
    · rintro ⟨hnone, e, herror⟩
      rw [herror] at hleft
      exact ⟨e, (drain_refused buf e).mp (Prod.ext hnone hleft.symm)⟩
    · rintro ⟨e, hfail⟩
      have hdrain := (@drain_refused _ _ _ (frameReader decode) buf e).mpr hfail
      rw [hdrain] at hleft ⊢
      cases hend : (pushAll decode .new chunks).2 with
      | error e' => exact ⟨rfl, e', rfl⟩
      | ok next => simp [hend, Except.map] at hleft
  alone frame hok := by
    obtain ⟨rest, hread⟩ := decodeFrame_ok_iff.mp hok
    obtain ⟨own, hwhole, hbuf, rfl⟩ := wholeFrame_of_item hread
    refine ⟨own, ⟨rest, hbuf.symm⟩, fun chunks hcut => ?_⟩
    have hitem := @readFrame_append decode _ hwhole []
    rw [List.append_nil] at hitem
    have hdrain := @drain_item _ _ _ (frameReader decode) own [] _ hitem
    rw [drain_wait (read_nil decode)] at hdrain
    obtain ⟨hframes, hleft⟩ := pushAll_new decode chunks
    rw [hcut, hdrain] at hframes hleft
    rw [returned, hframes]
    cases hend : (pushAll decode .new chunks).2 with
    | error e => simp [hend, Except.map] at hleft
    | ok next => rfl

/-! ## Byte order marks -/

/-- The byte order mark. -/
def BOM : Char := Char.ofNat 0xfeff

/-- What `TextDecoder` makes of the encoding of a text. -/
def stripBom (s : String) : String :=
  if s.toList.head? = some BOM then String.ofList s.toList.tail else s

theorem stripBom_eq_iff (s : String) : stripBom s = s ↔ s.toList.head? ≠ some BOM := by
  rw [stripBom]
  split_ifs with hbom
  · refine iff_of_false (fun h => ?_) (not_not_intro hbom)
    have hlen := congrArg (fun t => t.toList.length) h
    rw [String.toList_ofList, List.length_tail] at hlen
    have hpos := List.length_pos_of_mem (List.mem_of_head? hbom)
    omega
  · exact iff_of_true rfl hbom

/-- A frame survives exactly if its pane id does not begin with a byte order mark. -/
theorem roundTrips_iff (hdecode : ∀ s, decode (utf8 s) = stripBom s) {outs : List Outgoing}
    (hfits : ∀ out ∈ outs, out.Fits) :
    RoundTrips decode outs ↔ ∀ out ∈ outs, out.id.raw.toList.head? ≠ some BOM := by
  have hframe : ∀ out : Outgoing, out.decoded decode = out.frame ↔
      out.id.raw.toList.head? ≠ some BOM := by
    intro out
    rw [Outgoing.decoded, Outgoing.frame, hdecode, ← stripBom_eq_iff]
    refine ⟨fun h => congrArg (fun frame => frame.paneId.raw) h, fun h => ?_⟩
    rw [h]
  constructor
  · rintro ⟨encodings, -, -, hown⟩ out hout
    have hread := hown out hout out.bytes (Outgoing.encode_ok (hfits out hout))
    rw [decodeFrame_bytes (hfits out hout)] at hread
    exact (hframe out).mp (Except.ok.inj hread)
  · intro hplain
    refine ⟨outs.map Outgoing.bytes, Outgoing.mapM_encode hfits, fun chunks hcut => ?_, ?_⟩
    · rw [pushAll_bytes hfits hcut]
      exact congrArg _ (List.map_congr_left fun out hout => (hframe out).mpr (hplain out hout))
    · intro out hout bytes hbytes
      rw [Outgoing.encode_ok (hfits out hout)] at hbytes
      cases hbytes
      rw [decodeFrame_bytes (hfits out hout), (hframe out).mpr (hplain out hout)]

/-- The codec of data frames, under any chunking. -/
theorem frameCodec_iff (decode : Bytes → String) (hdecode : ∀ s, decode (utf8 s) = stripBom s)
    (outs : List Outgoing) (hfits : ∀ out ∈ outs, out.Fits) (buf : Bytes) :
    (RoundTrips decode outs ∧ FirstAlike decode buf) ↔
      ∀ out ∈ outs, out.id.raw.toList.head? ≠ some BOM := by
  rw [roundTrips_iff hdecode hfits]
  exact and_iff_left (firstAlike decode buf)

/-- `TextDecoder.decode`, on UTF-8. -/
def textDecode (bytes : Bytes) : String := stripBom (State.decodeUtf8 bytes)

theorem textDecode_utf8 (s : String) : textDecode (utf8 s) = stripBom s := by
  rw [textDecode, State.decodeUtf8_utf8]

/-- Two frames of two panes; the sequence number of the second wraps. -/
theorem frameCodec_iff_twoPanes :
    RoundTrips textDecode [⟨⟨"p0"⟩, 7, [0xcc, 0x00]⟩, ⟨⟨"s0-p3"⟩, -1, []⟩] ∧
      FirstAlike textDecode [0xcc] :=
  (frameCodec_iff textDecode textDecode_utf8 [⟨⟨"p0"⟩, 7, [0xcc, 0x00]⟩, ⟨⟨"s0-p3"⟩, -1, []⟩]
    (by decide) [0xcc]).mpr (by decide)

/-- A pane id that begins with a byte order mark loses it. -/
theorem markedId_lost : ¬RoundTrips textDecode [⟨⟨"\ufeffp0"⟩, 0, []⟩] := by
  rw [roundTrips_iff textDecode_utf8 (by decide)]
  decide

end TmuxccDriver.Protocol
