import Mathlib.Data.List.Chain
import TmuxccDriver.Lib.Run
import TmuxccDriver.Protocol.FrameDecoder

/-!
# The socket transport

`socket-transport.ts`: control messages and data frames share one byte stream. A unit that
begins with the magic byte is a data frame, any other one is a length and the JSON text of a
message. A control handler that is replaced while it runs stops the loop over the buffer;
the rest is left to a `setImmediate`, or to the next chunk if that comes first.

JSON and the decoders of Node are parameters. What a handler does to the transport may
depend on everything that was dispatched before.

Results:
1. `nextUnit_short`, `nextUnit_whole`: what the receiver makes of the first bytes of a unit.
2. `processLoop_keeps`: no unit is lost, repeated or moved.
3. `dispatches_run`: under every chunking, the messages and frames that were sent are
dispatched in their order, with the pane ids as they are decoded.
4. `mux_round_trip_iff`: the pane ids come out unchanged exactly if none begins with a byte order
mark, and then the frames of a pane are numbered.
-/

namespace TmuxccDriver.Transport
open TmuxccDriver.Lib TmuxccDriver.Protocol

/-! ## Parameters -/

/-- JSON, `Buffer.toString("utf8")` and `TextDecoder.decode`. -/
structure Codec (Msg : Type) where
  stringify : Msg → String
  /-- `none` is a `SyntaxError`. -/
  parse : String → Option Msg
  bufferToString : Bytes → String
  decode : Bytes → String

/-- What a handler is called with. -/
inductive Item (Msg : Type)
  | control (msg : Msg)
  | data (paneId : PaneId) (payload : Bytes)
deriving DecidableEq, Repr

/-- What a handler does to the transport while it runs. -/
structure Reaction (H : Type) where
  onControl : Option H := none
  onData : Option H := none
  close : Bool := false

section

variable {Msg H : Type}

/-! ## Sending -/

def CTRL_LEN_SIZE : Nat := 4

/-- `n & MAX_U32`: a signed number. -/
def toInt32 (n : Int) : Int := (n + 2 ^ 31) % 2 ^ 32 - 2 ^ 31

/-- `_dataSeqs`, with 0 for a pane without an entry. -/
structure Sender where
  dataSeqs : PaneId → Int

def Sender.new : Sender := ⟨fun _ => 0⟩

/-- The bytes `sendControl` writes. -/
def controlBytes (codec : Codec Msg) (msg : Msg) : Except RangeError Bytes :=
  let payload := utf8 (codec.stringify msg ++ "\n")
  if payload.length > 0xffffffff then
    .error ⟨s!"The value of \"value\" is out of range. Received {payload.length}"⟩
  else .ok (beBytes CTRL_LEN_SIZE payload.length ++ payload)

/-- `sendControl` and `sendData`: what is written. -/
def Sender.send (codec : Codec Msg) (sender : Sender) :
    Item Msg → Sender × Except RangeError Bytes
  | .control msg => (sender, controlBytes codec msg)
  | .data paneId bytes =>
    let seq := sender.dataSeqs paneId
    (⟨Function.update sender.dataSeqs paneId (toInt32 (seq + 1))⟩, encodeFrame paneId seq bytes)

/-- The results of one call after the other. -/
def Sender.sendAll (codec : Codec Msg) : Sender → List (Item Msg) → List (Except RangeError Bytes)
  | _, [] => []
  | sender, item :: items =>
    (sender.send codec item).2 :: sendAll codec (sender.send codec item).1 items

/-- What reaches the socket: a call that throws writes nothing. -/
def written (results : List (Except RangeError Bytes)) : Bytes :=
  results.flatMap fun result =>
    match result with
    | .ok bytes => bytes
    | .error _ => []

/-! ## Receiving -/

structure Socket (H Msg : Type) where
  controlHandler : Option H
  dataHandler : Option H
  buf : Bytes
  closed : Bool
  /-- The `setImmediate` callbacks that have not run. -/
  scheduled : Nat
  /-- The calls of handlers so far. -/
  dispatched : List (H × Item Msg)

/-- A transport whose two handlers are installed. -/
def Socket.new (controlHandler dataHandler : H) : Socket H Msg :=
  ⟨some controlHandler, some dataHandler, [], false, 0, []⟩

/-- What the buffer begins with. -/
inductive NextUnit
  /-- Wait for more bytes. -/
  | incomplete
  | framingError
  | data (frame : DataFrame) (rest : Bytes)
  | control (payload rest : Bytes)

/-- The data-plane branch of the loop. -/
def nextFrame (decode : Bytes → String) (buf : Bytes) : NextUnit :=
  if buf.length < MIN_HEADER_BYTES then .incomplete
  else
    let payLen := readUInt buf OFF_PAYLEN 4
    let idLen := readUInt buf OFF_IDLEN 2
    if payLen > MAX_FRAME then .framingError
    else
      let totalFrameLen := MIN_HEADER_BYTES + idLen + payLen
      if buf.length < totalFrameLen then .incomplete
      else
        match decodeFrame decode (buf.take totalFrameLen) with
        | .error _ => .framingError
        | .ok frame => .data frame (buf.drop totalFrameLen)

/-- The control-plane branch of the loop. -/
def nextControl (buf : Bytes) : NextUnit :=
  if buf.length < CTRL_LEN_SIZE then .incomplete
  else
    let totalLen := CTRL_LEN_SIZE + readUInt buf 0 4
    if buf.length < totalLen then .incomplete
    else .control ((buf.take totalLen).drop CTRL_LEN_SIZE) (buf.drop totalLen)

def nextUnit (decode : Bytes → String) (buf : Bytes) : NextUnit :=
  match buf with
  | [] => .incomplete
  | firstByte :: _ => if firstByte = FRAME_MAGIC then nextFrame decode buf else nextControl buf

namespace Socket

variable (codec : Codec Msg) (react : List (H × Item Msg) → Reaction H)

/-- Call a handler, if there is one. -/
def dispatch (socket : Socket H Msg) (handler : Option H) (item : Item Msg) : Socket H Msg :=
  match handler with
  | none => socket
  | some h =>
    let dispatched := socket.dispatched ++ [(h, item)]
    let reaction := react dispatched
    { socket with
      controlHandler := reaction.onControl.or socket.controlHandler
      dataHandler := reaction.onData.or socket.dataHandler
      closed := socket.closed || reaction.close
      dispatched := dispatched }

/-- A text that is no JSON is discarded. -/
def receiveControl (socket : Socket H Msg) (payload : Bytes) : Socket H Msg :=
  match codec.parse (String.ofList (trim (codec.bufferToString payload).toList)) with
  | none => socket
  | some msg => socket.dispatch react socket.controlHandler (.control msg)

/-- The loop of `_processBuffer`; every turn takes bytes from the buffer. -/
def processLoop [DecidableEq H] : Nat → Socket H Msg → Socket H Msg
  | 0, socket => socket
  | fuel + 1, socket =>
    if socket.closed then socket
    else
      match nextUnit codec.decode socket.buf with
      | .incomplete => socket
      | .framingError => { socket with closed := true }
      | .data frame rest =>
        processLoop fuel
          (dispatch react { socket with buf := rest } socket.dataHandler
            (.data frame.paneId frame.payload))
      | .control payload rest =>
        let after := receiveControl codec react { socket with buf := rest } payload
        if after.controlHandler ≠ socket.controlHandler ∧ after.buf ≠ [] then
          { after with scheduled := after.scheduled + 1 }
        else processLoop fuel after

/-- `_processBuffer`. -/
def processBuffer [DecidableEq H] (socket : Socket H Msg) : Socket H Msg :=
  processLoop codec react socket.buf.length socket

/-- `_onData`. -/
def onData [DecidableEq H] (socket : Socket H Msg) (chunk : Bytes) : Socket H Msg :=
  processBuffer codec react { socket with buf := socket.buf ++ chunk }

end Socket

inductive Event
  | chunk (bytes : Bytes)
  | immediate
deriving DecidableEq, Repr

/-- One event; `none` if it cannot happen now. -/
def step [DecidableEq H] (codec : Codec Msg) (react : List (H × Item Msg) → Reaction H)
    (socket : Socket H Msg) : Event → Option (Socket H Msg)
  | .chunk bytes => some (socket.onData codec react bytes)
  | .immediate =>
    if socket.scheduled = 0 then none
    else some (Socket.processBuffer codec react { socket with scheduled := socket.scheduled - 1 })

/-- The bytes a list of events brings. -/
def received (events : List Event) : Bytes :=
  events.flatMap fun event =>
    match event with
    | .chunk bytes => bytes
    | .immediate => []

/-! ## Units -/

/-- What may be sent: a control length below the magic byte, a payload and a pane id that fit
into a frame. -/
def Item.Fits (codec : Codec Msg) : Item Msg → Prop
  | .control msg => (utf8 (codec.stringify msg ++ "\n")).length < FRAME_MAGIC.toNat * 2 ^ 24
  | .data paneId payload => payload.length ≤ MAX_FRAME ∧ (utf8 paneId.raw).length ≤ 0xffff

/-- JSON reads back the text of a message. -/
def Item.Parses (codec : Codec Msg) : Item Msg → Prop
  | .control msg =>
    codec.parse (String.ofList
      (trim (codec.bufferToString (utf8 (codec.stringify msg ++ "\n"))).toList)) = some msg
  | .data .. => True

/-- The item with the pane id as it is decoded. -/
def Item.decoded (codec : Codec Msg) : Item Msg → Item Msg
  | .control msg => .control msg
  | .data paneId payload => .data ⟨codec.decode (utf8 paneId.raw)⟩ payload

/-- The decoders read back what the encoders made of the item. -/
def Item.ReadsBack (codec : Codec Msg) (item : Item Msg) : Prop :=
  item.Parses codec ∧ item.decoded codec = item

/-- The bytes of an item on the stream. -/
inductive Encodes (codec : Codec Msg) : Bytes → Item Msg → Prop
  | control {msg : Msg} {payload : Bytes} (hlen : payload.length < FRAME_MAGIC.toNat * 2 ^ 24)
      (hparse :
        codec.parse (String.ofList (trim (codec.bufferToString payload).toList)) = some msg) :
      Encodes codec (beBytes CTRL_LEN_SIZE payload.length ++ payload) (.control msg)
  | data {paneId : PaneId} {seq : Int} {payload bytes : Bytes}
      (hfits : (Item.data paneId payload : Item Msg).Fits codec)
      (hencode : encodeFrame paneId seq payload = .ok bytes) :
      Encodes codec bytes (.data ⟨codec.decode (utf8 paneId.raw)⟩ payload)

variable {codec : Codec Msg}

theorem encodes_send (sender : Sender) {item : Item Msg} (hfits : item.Fits codec)
    (hparses : item.Parses codec) :
    ∃ bytes, (sender.send codec item).2 = .ok bytes ∧ Encodes codec bytes (item.decoded codec) := by
  cases item with
  | control msg =>
    have hlen : ¬(utf8 (codec.stringify msg ++ "\n")).length > 0xffffffff := by
      have hmagic : FRAME_MAGIC.toNat = 0xcc := rfl
      rw [Item.Fits, hmagic] at hfits
      omega
    exact ⟨_, if_neg hlen, .control hfits hparses⟩
  | data paneId payload =>
    have hencode := encodeFrame_ok (sender.dataSeqs paneId) hfits.2 hfits.1
    exact ⟨_, hencode, .data hfits hencode⟩

/-- The first byte of a control unit is not the magic byte. -/
theorem control_first {n : Nat} (hlen : n < FRAME_MAGIC.toNat * 2 ^ 24) (payload : Bytes) :
    ∃ b bs, beBytes CTRL_LEN_SIZE n ++ payload = b :: bs ∧ b ≠ FRAME_MAGIC := by
  refine ⟨_, _, rfl, fun h => ?_⟩
  have hbyte : n / 256 ^ 3 % 256 = 0xcc := by
    rw [← UInt8.toNat_inj] at h
    exact UInt8.toNat_ofNat'.symm.trans h
  have hmagic : FRAME_MAGIC.toNat = 0xcc := rfl
  rw [hmagic] at hlen
  omega

/-- The frame length that the header of a unit announces. -/
theorem length_frame {paneId : PaneId} {seq : Int} {payload bytes : Bytes}
    (hfits : (Item.data paneId payload : Item Msg).Fits codec)
    (hencode : encodeFrame paneId seq payload = .ok bytes) :
    (∃ bs, bytes = FRAME_MAGIC :: bs) ∧
      bytes.length = MIN_HEADER_BYTES + (utf8 paneId.raw).length + payload.length ∧
      readUInt bytes OFF_PAYLEN 4 = payload.length ∧
      readUInt bytes OFF_IDLEN 2 = (utf8 paneId.raw).length := by
  obtain ⟨hpay, hid⟩ := hfits
  rw [encodeFrame_ok _ hid hpay] at hencode
  cases hencode
  rw [MAX_FRAME] at hpay
  refine ⟨⟨_, rfl⟩, ?_, payLen_of_header _ _ _ (by omega) _, idLen_of_header _ _ _ (by omega) _⟩
  rw [List.length_append, length_frameHeader, List.length_append, Nat.add_assoc]

theorem length_pos_of_encodes {bytes : Bytes} {item : Item Msg} (h : Encodes codec bytes item) :
    0 < bytes.length := by
  cases h with
  | control hlen hparse =>
    rw [List.length_append, length_beBytes]
    exact Nat.add_pos_left (by decide) _
  | data hfits hencode =>
    obtain ⟨⟨bs, rfl⟩, -⟩ := length_frame hfits hencode
    exact Nat.succ_pos _

/-- The length that begins a control unit. -/
theorem length_of_control {payload : Bytes} (hlen : payload.length < FRAME_MAGIC.toNat * 2 ^ 24)
    (rest : Bytes) :
    readUInt (beBytes CTRL_LEN_SIZE payload.length ++ (payload ++ rest)) 0 4 = payload.length := by
  have hread := readUInt_append [] (payload ++ rest) CTRL_LEN_SIZE payload.length
  have hmagic : FRAME_MAGIC.toNat = 0xcc := rfl
  rw [hmagic] at hlen
  have hlt : payload.length < 256 ^ CTRL_LEN_SIZE := by
    rw [CTRL_LEN_SIZE]
    omega
  rwa [List.nil_append, Nat.mod_eq_of_lt hlt] at hread

/-- A proper part of a unit is waited out. -/
theorem nextUnit_short {bytes buf more : Bytes} {item : Item Msg} (h : Encodes codec bytes item)
    (hpart : bytes = buf ++ more) (hmore : more ≠ []) :
    nextUnit codec.decode buf = .incomplete := by
  have hlt : buf.length < bytes.length := by
    rw [hpart, List.length_append]
    exact Nat.lt_add_of_pos_right (List.length_pos_iff.mpr hmore)
  cases buf with
  | nil => rfl
  | cons firstByte tail =>
    cases h with
    | @control msg payload hlen hparse =>
      obtain ⟨b, bs, hfirst, hb⟩ := control_first hlen payload
      have hcontrol : firstByte ≠ FRAME_MAGIC := by
        rw [hpart] at hfirst
        exact (List.cons.inj hfirst).1 ▸ hb
      rw [nextUnit, if_neg hcontrol, nextControl]
      by_cases hprefix : (firstByte :: tail).length < CTRL_LEN_SIZE
      · rw [if_pos hprefix]
      · have hread : readUInt (firstByte :: tail) 0 4 = payload.length := by
          rw [← readUInt_of_prefix more (Nat.not_lt.mp hprefix), ← hpart]
          simpa using length_of_control hlen []
        rw [if_neg hprefix, hread]
        refine if_pos (lt_of_lt_of_eq hlt ?_)
        rw [List.length_append, length_beBytes]
    | data hfits hencode =>
      obtain ⟨⟨bs, hbytes⟩, hlength, hpayLen, hidLen⟩ := length_frame hfits hencode
      have hmagic : firstByte = FRAME_MAGIC := by
        rw [hpart] at hbytes
        exact (List.cons.inj hbytes).1
      rw [nextUnit, if_pos hmagic, nextFrame]
      by_cases hprefix : (firstByte :: tail).length < MIN_HEADER_BYTES
      · rw [if_pos hprefix]
      · have hheader := Nat.not_lt.mp hprefix
        rw [hpart, readUInt_of_prefix _ (Nat.le_trans (by decide) hheader)] at hpayLen
        rw [hpart, readUInt_of_prefix _ hheader] at hidLen
        rw [if_neg hprefix, hpayLen, hidLen]
        dsimp only
        rw [if_neg (Nat.not_lt.mpr hfits.1)]
        exact if_pos (lt_of_lt_of_eq hlt hlength)

/-- What the receiver makes of an item. -/
def Reads (codec : Codec Msg) (item : Item Msg) (rest : Bytes) (unit : NextUnit) : Prop :=
  match item with
  | .control msg => ∃ payload, unit = .control payload rest ∧
      codec.parse (String.ofList (trim (codec.bufferToString payload).toList)) = some msg
  | .data paneId payload => ∃ seq, unit = .data ⟨paneId, seq, payload⟩ rest

/-- A whole unit is read, whatever comes after it. -/
theorem nextUnit_whole {bytes : Bytes} {item : Item Msg} (h : Encodes codec bytes item)
    (rest : Bytes) : Reads codec item rest (nextUnit codec.decode (bytes ++ rest)) := by
  cases h with
  | @control msg payload hlen hparse =>
    refine ⟨payload, ?_, hparse⟩
    obtain ⟨b, bs, hfirst, hb⟩ := control_first hlen payload
    have htotal : (beBytes CTRL_LEN_SIZE payload.length ++ payload).length =
        CTRL_LEN_SIZE + payload.length := by
      rw [List.length_append, length_beBytes]
    have hbranch : nextUnit codec.decode (beBytes CTRL_LEN_SIZE payload.length ++ payload ++ rest) =
        nextControl (beBytes CTRL_LEN_SIZE payload.length ++ payload ++ rest) := by
      rw [hfirst]
      exact if_neg hb
    have hread : readUInt (beBytes CTRL_LEN_SIZE payload.length ++ payload ++ rest) 0 4 =
        payload.length := by
      rw [List.append_assoc]
      exact length_of_control hlen rest
    have hlength : CTRL_LEN_SIZE + payload.length ≤
        (beBytes CTRL_LEN_SIZE payload.length ++ payload ++ rest).length := by
      rw [List.length_append, htotal]
      exact Nat.le_add_right _ _
    rw [hbranch, nextControl, if_neg (Nat.not_lt.mpr (Nat.le_trans (Nat.le_add_right _ _) hlength)),
      hread]
    dsimp only
    rw [if_neg (Nat.not_lt.mpr hlength), List.take_left' htotal, List.drop_left' htotal,
      List.drop_left' (length_beBytes _ _)]
  | @data paneId seq payload bytes hfits hencode =>
    refine ⟨toUint32 seq, ?_⟩
    obtain ⟨⟨bs, hbytes⟩, hlength, hpayLen, hidLen⟩ := length_frame hfits hencode
    have hheader : MIN_HEADER_BYTES ≤ bytes.length := by
      rw [hlength, Nat.add_assoc]
      exact Nat.le_add_right _ _
    have hbranch :
        nextUnit codec.decode (bytes ++ rest) = nextFrame codec.decode (bytes ++ rest) := by
      rw [hbytes, List.cons_append, nextUnit, if_pos rfl]
    have htotal : bytes.length ≤ (bytes ++ rest).length := by
      rw [List.length_append]
      exact Nat.le_add_right _ _
    rw [hbranch, nextFrame, if_neg (Nat.not_lt.mpr (Nat.le_trans hheader htotal)),
      readUInt_of_prefix _ (Nat.le_trans (by decide) hheader), hpayLen,
      readUInt_of_prefix _ hheader, hidLen]
    dsimp only
    rw [if_neg (Nat.not_lt.mpr hfits.1), ← hlength, if_neg (Nat.not_lt.mpr htotal), List.take_left,
      List.drop_left, decodeFrame_encodeFrame hfits.2 hfits.1 hencode]

/-! ## The loop -/

section Loop

variable {react : List (H × Item Msg) → Reaction H}

/-- The items of `done` were dispatched, and the bytes of those after them are still to be
read, in the buffer or past it. -/
structure Delivering (codec : Codec Msg) (react : List (H × Item Msg) → Reaction H)
    (units : List (Bytes × Item Msg)) (unread : Bytes) (socket : Socket H Msg) : Prop where
  control_installed : socket.controlHandler.isSome = true
  data_installed : socket.dataHandler.isSome = true
  progress : ∃ done todo, units = done ++ todo ∧
    socket.dispatched.map Prod.snd = done.map Prod.snd ∧
    (socket.closed = false → socket.buf ++ unread = todo.flatMap Prod.fst)
  /-- Only a handler closes the transport, and none is called after that. -/
  closing : socket.closed = true → (react socket.dispatched).close = true

/-- The loop has nothing left to do: it waits for bytes or for its `setImmediate`. -/
def Settled (codec : Codec Msg) (socket : Socket H Msg) : Prop :=
  socket.closed = true ∨ 0 < socket.scheduled ∨
    nextUnit codec.decode socket.buf = .incomplete

theorem dispatch_buf (socket : Socket H Msg) (handler : Option H) (item : Item Msg) :
    (socket.dispatch react handler item).buf = socket.buf := by
  unfold Socket.dispatch
  split <;> rfl

/-- One dispatch moves one item from what is to come to what is done. -/
theorem Delivering.dispatch {socket : Socket H Msg} {done todo : List (Bytes × Item Msg)}
    {bytes rest unread : Bytes} {item : Item Msg} {handler : Option H}
    (h : Delivering codec react (done ++ (bytes, item) :: todo) unread socket)
    (hopen : socket.closed = false)
    (hdone : socket.dispatched.map Prod.snd = done.map Prod.snd)
    (hrest : rest ++ unread = todo.flatMap Prod.fst) (hhandler : handler.isSome = true) :
    Delivering codec react (done ++ (bytes, item) :: todo) unread
      (Socket.dispatch react { socket with buf := rest } handler item) := by
  obtain ⟨handlerRef, rfl⟩ := Option.isSome_iff_exists.mp hhandler
  refine ⟨?_, ?_, ⟨done ++ [(bytes, item)], todo, by simp, ?_, fun _ => hrest⟩, ?_⟩
  · rw [Socket.dispatch, Option.isSome_or, h.control_installed, Bool.or_true]
  · rw [Socket.dispatch, Option.isSome_or, h.data_installed, Bool.or_true]
  · rw [Socket.dispatch, List.map_append, List.map_append, hdone]
    rfl
  · intro hclosed
    rwa [Socket.dispatch, hopen, Bool.false_or] at hclosed

/-- The buffer holds a whole unit, or the loop waits for bytes that are still to come. -/
theorem nextUnit_cases {todo : List (Bytes × Item Msg)} {buf unread : Bytes}
    (htodo : ∀ unit ∈ todo, Encodes codec unit.1 unit.2)
    (hbytes : buf ++ unread = todo.flatMap Prod.fst) :
    (nextUnit codec.decode buf = .incomplete ∧ (unread = [] → todo = [])) ∨
      ∃ bytes item later rest, todo = (bytes, item) :: later ∧ buf = bytes ++ rest ∧
        rest ++ unread = later.flatMap Prod.fst ∧ Encodes codec bytes item ∧
        Reads codec item rest (nextUnit codec.decode buf) := by
  rcases todo with _ | ⟨⟨bytes, item⟩, later⟩
  · have hempty : buf = [] := (List.append_eq_nil_iff.mp hbytes).1
    rw [hempty]
    exact .inl ⟨rfl, fun _ => rfl⟩
  · have hencodes : Encodes codec bytes item := htodo (bytes, item) List.mem_cons_self
    rw [List.flatMap_cons] at hbytes
    by_cases hwhole : bytes.length ≤ buf.length
    · obtain ⟨rest, rfl⟩ : bytes <+: buf :=
        List.prefix_of_prefix_length_le ⟨_, hbytes.symm⟩ ⟨unread, rfl⟩ hwhole
      rw [List.append_assoc, List.append_cancel_left_eq] at hbytes
      exact .inr
        ⟨bytes, item, later, rest, rfl, rfl, hbytes, hencodes, nextUnit_whole hencodes rest⟩
    · obtain ⟨more, hmore⟩ : buf <+: bytes :=
        List.prefix_of_prefix_length_le ⟨unread, hbytes⟩ ⟨_, rfl⟩ (Nat.le_of_not_le hwhole)
      have hne : more ≠ [] := by
        rintro rfl
        rw [List.append_nil] at hmore
        exact hwhole (hmore ▸ Nat.le_refl _)
      refine .inl ⟨nextUnit_short hencodes hmore.symm hne, fun hunread => absurd ?_ hwhole⟩
      rw [hunread, List.append_nil] at hbytes
      rw [hbytes, List.length_append]
      exact Nat.le_add_right _ _

/-- The loop loses, repeats and moves no item, and stops where it has to wait. -/
theorem processLoop_keeps [DecidableEq H] {units : List (Bytes × Item Msg)} {unread : Bytes}
    (hunits : ∀ unit ∈ units, Encodes codec unit.1 unit.2) {fuel : Nat} {socket : Socket H Msg}
    (h : Delivering codec react units unread socket) (hfuel : socket.buf.length ≤ fuel) :
    Delivering codec react units unread (socket.processLoop codec react fuel) ∧
      Settled codec (socket.processLoop codec react fuel) := by
  induction fuel generalizing socket with
  | zero =>
    refine ⟨h, .inr (.inr ?_)⟩
    rw [Socket.processLoop, List.eq_nil_of_length_eq_zero (Nat.le_zero.mp hfuel)]
    rfl
  | succ fuel ih =>
    rw [Socket.processLoop]
    by_cases hended : socket.closed = true
    · rw [if_pos hended]
      exact ⟨h, .inl hended⟩
    · have hclosed : socket.closed = false := Bool.eq_false_of_not_eq_true hended
      rw [if_neg hended]
      obtain ⟨done, todo, rfl, hdone, hbytes⟩ := h.progress
      rcases nextUnit_cases (fun unit hunit => hunits unit (List.mem_append_right _ hunit))
        (hbytes hclosed) with ⟨hwait, -⟩
          | ⟨bytes, item, later, rest, rfl, hbuf, hrest, hencodes, hreads⟩
      · rw [hwait]
        exact ⟨h, .inr (.inr hwait)⟩
      · have hshorter : rest.length ≤ fuel := by
          have hpos := length_pos_of_encodes hencodes
          rw [hbuf, List.length_append] at hfuel
          omega
        cases item with
        | control msg =>
          obtain ⟨payload, hnext, hparse⟩ := hreads
          rw [hnext]
          dsimp only
          have hafter : Socket.receiveControl codec react { socket with buf := rest } payload =
              Socket.dispatch react { socket with buf := rest } socket.controlHandler
                (.control msg) := by
            rw [Socket.receiveControl, hparse]
          have hstep := h.dispatch hclosed hdone hrest h.control_installed
          rw [hafter]
          split
          · exact ⟨{ hstep with progress := hstep.progress, closing := hstep.closing },
              .inr (.inl (Nat.succ_pos _))⟩
          · exact ih hstep (by rwa [dispatch_buf])
        | data paneId payload =>
          obtain ⟨seq, hnext⟩ := hreads
          rw [hnext]
          exact ih (h.dispatch hclosed hdone hrest h.data_installed) (by rwa [dispatch_buf])

/-- A rule for streams of control messages: `P` holds before every turn of the loop, and `Q`
where it stops, for one of three reasons. -/
theorem processLoop_rule [DecidableEq H] {units : List (Bytes × Item Msg)} {unread : Bytes}
    (hunits : ∀ unit ∈ units, Encodes codec unit.1 unit.2)
    (hcontrol : ∀ unit ∈ units, ∃ msg, unit.2 = .control msg) {P Q : Socket H Msg → Prop}
    (hdone : ∀ socket, P socket →
      socket.closed = true ∨ nextUnit codec.decode socket.buf = .incomplete → Q socket)
    (hturn : ∀ socket payload rest msg, socket.closed = false →
      nextUnit codec.decode socket.buf = .control payload rest → P socket →
      let after := Socket.dispatch react { socket with buf := rest } socket.controlHandler
        (.control msg)
      if after.controlHandler ≠ socket.controlHandler ∧ after.buf ≠ [] then
        Q { after with scheduled := after.scheduled + 1 }
      else P after) {fuel : Nat} {socket : Socket H Msg}
    (h : Delivering codec react units unread socket) (hfuel : socket.buf.length ≤ fuel)
    (hP : P socket) : Q (socket.processLoop codec react fuel) := by
  induction fuel generalizing socket with
  | zero =>
    refine hdone socket hP (.inr ?_)
    rw [List.eq_nil_of_length_eq_zero (Nat.le_zero.mp hfuel)]
    rfl
  | succ fuel ih =>
    rw [Socket.processLoop]
    by_cases hended : socket.closed = true
    · rw [if_pos hended]
      exact hdone socket hP (.inl hended)
    · have hclosed : socket.closed = false := Bool.eq_false_of_not_eq_true hended
      rw [if_neg hended]
      obtain ⟨done, todo, rfl, hdispatched, hbytes⟩ := h.progress
      rcases nextUnit_cases (fun unit hunit => hunits unit (List.mem_append_right _ hunit))
        (hbytes hclosed) with ⟨hwait, -⟩
          | ⟨bytes, item, later, rest, rfl, hbuf, hrest, hencodes, hreads⟩
      · rw [hwait]
        exact hdone socket hP (.inr hwait)
      · obtain ⟨msg, hmsg⟩ := hcontrol (bytes, item)
          (List.mem_append_right _ List.mem_cons_self)
        obtain rfl : item = .control msg := hmsg
        obtain ⟨payload, hnext, hparse⟩ := hreads
        have hshorter : rest.length ≤ fuel := by
          have hpos := length_pos_of_encodes hencodes
          rw [hbuf, List.length_append] at hfuel
          omega
        have hafter : Socket.receiveControl codec react { socket with buf := rest } payload =
            Socket.dispatch react { socket with buf := rest } socket.controlHandler
              (.control msg) := by
          rw [Socket.receiveControl, hparse]
        have hstep := h.dispatch hclosed hdispatched hrest h.control_installed
        have hresult := hturn socket payload rest msg hclosed hnext hP
        rw [hnext]
        dsimp only at hresult ⊢
        rw [hafter]
        split
        · next hchanged => rwa [if_pos hchanged] at hresult
        · next hsame =>
          rw [if_neg hsame] at hresult
          exact ih hstep (by rwa [dispatch_buf]) hresult

/-- More is sent. -/
theorem Delivering.append {units : List (Bytes × Item Msg)} {unread : Bytes} {socket : Socket H Msg}
    (h : Delivering codec react units unread socket) (unit : Bytes × Item Msg) :
    Delivering codec react (units ++ [unit]) (unread ++ unit.1) socket := by
  obtain ⟨done, todo, rfl, hdone, hbytes⟩ := h.progress
  refine { h with progress := ⟨done, todo ++ [unit], by simp, hdone, fun hopen => ?_⟩ }
  rw [← List.append_assoc, hbytes hopen]
  simp

/-- Everything that was sent has been dispatched when nothing is on its way. -/
theorem Delivering.all_dispatched {units : List (Bytes × Item Msg)} {socket : Socket H Msg}
    (hunits : ∀ unit ∈ units, Encodes codec unit.1 unit.2)
    (h : Delivering codec react units [] socket) (hsettled : Settled codec socket)
    (hopen : socket.closed = false) (hidle : socket.scheduled = 0) :
    socket.dispatched.map Prod.snd = units.map Prod.snd := by
  obtain ⟨done, todo, rfl, hdone, htodo⟩ := h.progress
  -- nothing is buffered: the loop would have read it
  have hwaits : nextUnit codec.decode socket.buf = .incomplete := by
    rcases hsettled with hclosed | hscheduled | hwaits
    · rw [hopen] at hclosed
      cases hclosed
    · rw [hidle] at hscheduled
      cases hscheduled
    · exact hwaits
  rcases nextUnit_cases (fun unit hunit => hunits unit (List.mem_append_right _ hunit))
    (htodo hopen) with ⟨-, hnone⟩ | ⟨bytes, item, more, rest, -, -, -, -, hread⟩
  · rw [hdone, hnone rfl, List.append_nil]
  · rw [hwaits] at hread
    cases item with
    | control msg =>
      obtain ⟨payload, hcontrol, -⟩ := hread
      cases hcontrol
    | data paneId payload =>
      obtain ⟨seq, hdata⟩ := hread
      cases hdata

/-! ## Runs -/

theorem step_keeps [DecidableEq H] {units : List (Bytes × Item Msg)}
    (hunits : ∀ unit ∈ units, Encodes codec unit.1 unit.2) {event : Event} {later : Bytes}
    {socket next : Socket H Msg}
    (h : Delivering codec react units (received [event] ++ later) socket)
    (hstep : step codec react socket event = some next) :
    Delivering codec react units later next ∧ Settled codec next := by
  cases event with
  | chunk bytes =>
    cases hstep
    refine processLoop_keeps hunits ⟨h.control_installed, h.data_installed, ?_, h.closing⟩ le_rfl
    obtain ⟨done, todo, hunits, hdone, hbytes⟩ := h.progress
    refine ⟨done, todo, hunits, hdone, fun hopen => ?_⟩
    rw [← hbytes hopen, List.append_assoc]
    simp [received]
  | immediate =>
    rw [step] at hstep
    split at hstep
    · cases hstep
    · cases hstep
      exact processLoop_keeps hunits { h with } le_rfl

theorem run_keeps [DecidableEq H] {units : List (Bytes × Item Msg)}
    (hunits : ∀ unit ∈ units, Encodes codec unit.1 unit.2) {events : List Event} {later : Bytes}
    {socket next : Socket H Msg}
    (h : Delivering codec react units (received events ++ later) socket)
    (hsettled : Settled codec socket) (hrun : exec (step codec react) socket events = some next) :
    Delivering codec react units later next ∧ Settled codec next := by
  induction events generalizing socket with
  | nil =>
    cases hrun
    exact ⟨h, hsettled⟩
  | cons event events ih =>
    rw [exec_cons] at hrun
    obtain ⟨between, hstep, hrest⟩ := Option.bind_eq_some_iff.mp hrun
    have hcut : received (event :: events) ++ later =
        received [event] ++ (received events ++ later) := by
      rw [← List.append_assoc]
      simp [received]
    rw [hcut] at h
    obtain ⟨hdelivering, hwaits⟩ := step_keeps hunits h hstep
    exact ih hdelivering hwaits hrest

/-! ## The callbacks run out -/

/-- What is left of the buffer when the unit is taken from it. -/
def NextUnit.rest : NextUnit → Option Bytes
  | .incomplete => none
  | .framingError => none
  | .data _ rest => some rest
  | .control _ rest => some rest

theorem nextUnit_shorter {decode : Bytes → String} {buf rest : Bytes}
    (h : (nextUnit decode buf).rest = some rest) : rest.length < buf.length := by
  rcases buf with _ | ⟨firstByte, tail⟩
  · cases h
  · have hdrop : ∀ {n : Nat}, 0 < n →
        ((firstByte :: tail).drop n).length < (firstByte :: tail).length := by
      intro n hn
      rw [List.length_drop]
      exact Nat.sub_lt (Nat.succ_pos _) hn
    rw [nextUnit] at h
    split at h
    · rw [nextFrame] at h
      split at h
      · cases h
      · dsimp only at h
        split at h
        · cases h
        · split at h
          · cases h
          · split at h
            · cases h
            · cases h
              exact hdrop (Nat.add_pos_left (Nat.add_pos_left (by decide) _) _)
    · rw [nextControl] at h
      split at h
      · cases h
      · dsimp only at h
        split at h
        · cases h
        · cases h
          exact hdrop (Nat.add_pos_left (by decide) _)

variable (codec react) in
theorem receiveControl_frame (socket : Socket H Msg) (payload : Bytes) :
    (socket.receiveControl codec react payload).buf = socket.buf ∧
      (socket.receiveControl codec react payload).scheduled = socket.scheduled := by
  unfold Socket.receiveControl
  split
  · exact ⟨rfl, rfl⟩
  · unfold Socket.dispatch
    split <;> exact ⟨rfl, rfl⟩

variable (codec react) in
/-- A run of the loop schedules a callback only after it took bytes. -/
theorem processLoop_schedules [DecidableEq H] (fuel : Nat) (socket : Socket H Msg) :
    (socket.processLoop codec react fuel).buf.length ≤ socket.buf.length ∧
      ((socket.processLoop codec react fuel).scheduled = socket.scheduled ∨
        (socket.processLoop codec react fuel).scheduled = socket.scheduled + 1 ∧
        (socket.processLoop codec react fuel).buf.length < socket.buf.length) := by
  induction fuel generalizing socket with
  | zero => exact ⟨le_rfl, .inl rfl⟩
  | succ fuel ih =>
    rw [Socket.processLoop]
    split
    · exact ⟨le_rfl, .inl rfl⟩
    · split
      · exact ⟨le_rfl, .inl rfl⟩
      · exact ⟨le_rfl, .inl rfl⟩
      · next frame rest hnext =>
        have hshorter := nextUnit_shorter (congrArg NextUnit.rest hnext)
        obtain ⟨hbuf, hscheduled⟩ := ih (Socket.dispatch react { socket with buf := rest }
          socket.dataHandler (.data frame.paneId frame.payload))
        rw [dispatch_buf] at hbuf hscheduled
        have hsame : (Socket.dispatch react { socket with buf := rest } socket.dataHandler
            (.data frame.paneId frame.payload)).scheduled = socket.scheduled := by
          unfold Socket.dispatch
          split <;> rfl
        rw [hsame] at hscheduled
        exact ⟨(hbuf.trans_lt hshorter).le, hscheduled.imp_right fun h =>
          ⟨h.1, h.2.trans hshorter⟩⟩
      · next payload rest hnext =>
        have hshorter := nextUnit_shorter (congrArg NextUnit.rest hnext)
        obtain ⟨hafter, hsame⟩ := receiveControl_frame codec react
          { socket with buf := rest } payload
        dsimp only
        split
        · refine ⟨?_, .inr ⟨?_, ?_⟩⟩
          · rw [hafter]
            exact hshorter.le
          · rw [hsame]
          · rw [hafter]
            exact hshorter
        · obtain ⟨hbuf, hscheduled⟩ := ih (Socket.receiveControl codec react
            { socket with buf := rest } payload)
          rw [hafter] at hbuf hscheduled
          rw [hsame] at hscheduled
          exact ⟨(hbuf.trans_lt hshorter).le, hscheduled.imp_right fun h =>
            ⟨h.1, h.2.trans hshorter⟩⟩

/-- Without new bytes, finitely many callbacks run. -/
theorem callbacks_run_out [DecidableEq H] (socket : Socket H Msg) :
    ∃ n drained, exec (step codec react) socket (List.replicate n .immediate) = some drained ∧
      drained.scheduled = 0 := by
  suffices h : ∀ bound (socket : Socket H Msg), 2 * socket.buf.length + socket.scheduled ≤ bound →
      ∃ n drained, exec (step codec react) socket (List.replicate n .immediate) = some drained ∧
        drained.scheduled = 0 from h _ socket le_rfl
  intro bound
  induction bound with
  | zero =>
    intro socket hbound
    exact ⟨0, socket, rfl, (Nat.add_eq_zero_iff.mp (Nat.le_zero.mp hbound)).2⟩
  | succ bound ih =>
    intro socket hbound
    by_cases hnone : socket.scheduled = 0
    · exact ⟨0, socket, rfl, hnone⟩
    · obtain ⟨hbuf, hscheduled⟩ := processLoop_schedules codec react
        socket.buf.length { socket with scheduled := socket.scheduled - 1 }
      obtain ⟨n, drained, hrun, hdrained⟩ := ih
        (Socket.processBuffer codec react { socket with scheduled := socket.scheduled - 1 }) (by
          rw [Socket.processBuffer]
          dsimp only at hbuf hscheduled ⊢
          omega)
      refine ⟨n + 1, drained, ?_, hdrained⟩
      rw [List.replicate_succ, exec_cons, step, if_neg hnone]
      exact hrun

end Loop

/-! ## The sender's side -/

/-- The units that are written for items that fit. -/
theorem units_of_decoded {items : List (Item Msg)} (hfits : ∀ item ∈ items, item.Fits codec)
    (hparses : ∀ item ∈ items, item.Parses codec) (sender : Sender) :
    ∃ units : List (Bytes × Item Msg), units.map Prod.snd = items.map (Item.decoded codec) ∧
      (∀ unit ∈ units, Encodes codec unit.1 unit.2) ∧
      written (sender.sendAll codec items) = units.flatMap Prod.fst := by
  induction items generalizing sender with
  | nil => exact ⟨[], rfl, fun _ h => absurd h List.not_mem_nil, rfl⟩
  | cons item items ih =>
    obtain ⟨bytes, hsend, hencodes⟩ := encodes_send sender
      (hfits item List.mem_cons_self) (hparses item List.mem_cons_self)
    obtain ⟨units, hmap, hall, hwritten⟩ := ih (fun i hi => hfits i (List.mem_cons_of_mem _ hi))
      (fun i hi => hparses i (List.mem_cons_of_mem _ hi)) (sender.send codec item).1
    refine ⟨(bytes, item.decoded codec) :: units, by rw [List.map_cons, hmap]; rfl,
      List.forall_mem_cons.mpr ⟨hencodes, hall⟩, ?_⟩
    rw [Sender.sendAll, hsend, written, List.flatMap_cons, List.flatMap_cons]
    exact congrArg (bytes ++ ·) hwritten

/-- Items that are read back come out as they are. -/
theorem map_decoded {items : List (Item Msg)} (hreads : ∀ item ∈ items, item.ReadsBack codec) :
    items.map (Item.decoded codec) = items :=
  (List.map_congr_left fun item hitem => (hreads item hitem).2).trans (List.map_id' items)

theorem units_of_sendAll {items : List (Item Msg)} (hfits : ∀ item ∈ items, item.Fits codec)
    (hreads : ∀ item ∈ items, item.ReadsBack codec) (sender : Sender) :
    ∃ units : List (Bytes × Item Msg), units.map Prod.snd = items ∧
      (∀ unit ∈ units, Encodes codec unit.1 unit.2) ∧
      written (sender.sendAll codec items) = units.flatMap Prod.fst := by
  have hunits := units_of_decoded hfits (fun item hitem => (hreads item hitem).1) sender
  rwa [map_decoded hreads] at hunits

/-- The frame in what one call wrote. -/
def frameOf (decode : Bytes → String) : Except RangeError Bytes → Option DataFrame
  | .ok bytes => (decodeFrame decode bytes).toOption
  | .error _ => none

/-- The pane and the payload of a data item. -/
def Item.frame : Item Msg → Option (PaneId × Bytes)
  | .control _ => none
  | .data paneId payload => some (paneId, payload)

/-- The frames of each pane carry consecutive numbers modulo `2 ^ 32`. -/
def Numbered (frames : List DataFrame) : Prop :=
  ∀ paneId, (frames.filter fun frame => frame.paneId = paneId).IsChain fun frame next =>
    next.seq = (frame.seq + 1) % 2 ^ 32

theorem toUint32_toInt32 (n : Int) : toUint32 (toInt32 (n + 1)) = (toUint32 n + 1) % 2 ^ 32 := by
  unfold toUint32 toInt32
  omega

theorem frameOf_control {msg : Msg} (hfits : (Item.control msg).Fits codec) :
    frameOf codec.decode (controlBytes codec msg) = none := by
  unfold controlBytes
  dsimp only
  split
  · rfl
  · obtain ⟨b, bs, hfirst, hb⟩ := control_first hfits (utf8 (codec.stringify msg ++ "\n"))
    have hfail : ∃ err, decodeFrame codec.decode (b :: bs) = .error err := by
      unfold decodeFrame
      split
      · exact ⟨_, rfl⟩
      · exact ⟨_, if_pos hb⟩
    obtain ⟨err, herr⟩ := hfail
    rw [frameOf, hfirst, herr]
    rfl

/-- What the frames of one run of calls are, for the counters it starts with. -/
theorem frames_of_sendAll {items : List (Item Msg)} (hfits : ∀ item ∈ items, item.Fits codec)
    (hreads : ∀ item ∈ items, item.ReadsBack codec) (sender : Sender) :
    ((sender.sendAll codec items).filterMap (frameOf codec.decode)).map
        (fun frame => (frame.paneId, frame.payload)) = items.filterMap Item.frame ∧
      Numbered ((sender.sendAll codec items).filterMap (frameOf codec.decode)) ∧
      ∀ paneId, ∀ frame ∈ (((sender.sendAll codec items).filterMap
        (frameOf codec.decode)).filter fun frame => frame.paneId = paneId).head?,
        frame.seq = toUint32 (sender.dataSeqs paneId) := by
  induction items generalizing sender with
  | nil => exact ⟨rfl, fun _ => .nil, fun _ _ h => by cases h⟩
  | cons item items ih =>
    obtain ⟨hmap, hnumbered, hfirst⟩ := ih (fun i hi => hfits i (List.mem_cons_of_mem _ hi))
      (fun i hi => hreads i (List.mem_cons_of_mem _ hi)) (sender.send codec item).1
    rw [Sender.sendAll]
    cases item with
    | control msg =>
      have hnone : frameOf codec.decode (sender.send codec (.control msg)).2 = none :=
        frameOf_control (hfits _ List.mem_cons_self)
      rw [List.filterMap_cons_none hnone]
      exact ⟨hmap, hnumbered, hfirst⟩
    | data id payload =>
      obtain ⟨hpay, hid⟩ := hfits _ List.mem_cons_self
      have hframe : frameOf codec.decode (sender.send codec (.data id payload)).2 =
          some ⟨id, toUint32 (sender.dataSeqs id), payload⟩ := by
        have hencode := encodeFrame_ok (sender.dataSeqs id) hid hpay
        have hdecoded : decodeFrame codec.decode _ = .ok _ :=
          decodeFrame_encodeFrame hid hpay hencode
        have hread : (⟨codec.decode (utf8 id.raw)⟩ : PaneId) = id :=
          (Item.data.inj (hreads _ List.mem_cons_self).2).1
        rw [Sender.send, hencode, frameOf, hdecoded, hread]
        rfl
      rw [List.filterMap_cons_some hframe]
      refine ⟨by rw [List.map_cons, hmap]; rfl, fun paneId => ?_, fun paneId frame hframe => ?_⟩
      · by_cases hpane : id = paneId
        · subst hpane
          rw [List.filter_cons_of_pos (by simp)]
          refine List.isChain_cons.mpr ⟨fun next hnext => ?_, hnumbered id⟩
          rw [hfirst id next hnext, ← toUint32_toInt32]
          exact congrArg toUint32 (Function.update_self _ _ _)
        · rw [List.filter_cons_of_neg (by simpa using hpane)]
          exact hnumbered paneId
      · by_cases hpane : id = paneId
        · subst hpane
          rw [List.filter_cons_of_pos (by simp)] at hframe
          cases hframe
          rfl
        · rw [List.filter_cons_of_neg (by simpa using hpane)] at hframe
          rw [hfirst paneId frame hframe]
          exact congrArg toUint32 (Function.update_of_ne (Ne.symm hpane) _ _)

/-- What comes out of a transport, of items of which `later` bytes have not come in: a part of
it while bytes or callbacks are outstanding, all of it after that. Only a handler can close the
transport, which ends the dispatching. -/
structure Dispatches [DecidableEq H] (codec : Codec Msg)
    (react : List (H × Item Msg) → Reaction H) (items : List (Item Msg)) (later : Bytes)
    (socket : Socket H Msg) : Prop where
  order : socket.dispatched.map Prod.snd <+: items
  closing : socket.closed = true → (react socket.dispatched).close = true
  all : later = [] → socket.closed = false → socket.scheduled = 0 →
    socket.dispatched.map Prod.snd = items
  callbacks : ∃ n drained, exec (step codec react) socket (List.replicate n .immediate) =
    some drained ∧ drained.scheduled = 0

/-- Under every chunking of the bytes, and whichever handlers are put in place meanwhile, the
items are dispatched in their order, with the pane ids as they are decoded. -/
theorem dispatches_run [DecidableEq H] (react : List (H × Item Msg) → Reaction H)
    (controlHandler dataHandler : H) {items : List (Item Msg)}
    (hfits : ∀ item ∈ items, item.Fits codec) (hparses : ∀ item ∈ items, item.Parses codec)
    {events : List Event} {later : Bytes}
    (hbytes : received events ++ later = written (Sender.new.sendAll codec items))
    {socket : Socket H Msg}
    (hrun : exec (step codec react) (Socket.new controlHandler dataHandler) events = some socket) :
    Dispatches codec react (items.map (Item.decoded codec)) later socket := by
  obtain ⟨units, hmap, hunits, hwritten⟩ := units_of_decoded hfits hparses .new
  have hstart : Delivering codec react units (received events ++ later)
      (Socket.new controlHandler dataHandler) :=
    ⟨rfl, rfl, ⟨[], units, rfl, rfl, fun _ => hbytes.trans hwritten⟩, fun h => by cases h⟩
  obtain ⟨hdelivering, hsettled⟩ := run_keeps hunits hstart (.inr (.inr rfl)) hrun
  rw [← hmap]
  refine ⟨?_, hdelivering.closing, fun hlater hopen hidle => ?_, callbacks_run_out socket⟩
  · obtain ⟨done, todo, rfl, hdone, -⟩ := hdelivering.progress
    rw [hdone, List.map_append]
    exact List.prefix_append _ _
  · subst hlater
    exact hdelivering.all_dispatched hunits hsettled hopen hidle

/-- The bytes in one chunk, and the callbacks after it, dispatch everything. -/
theorem dispatched_in_one_chunk {items : List (Item Msg)}
    (hfits : ∀ item ∈ items, item.Fits codec) (hparses : ∀ item ∈ items, item.Parses codec) :
    ∃ events socket, received events = written (Sender.new.sendAll codec items) ∧
      exec (step codec fun _ => ({} : Reaction Unit)) (Socket.new () ()) events = some socket ∧
      socket.closed = false ∧ socket.scheduled = 0 ∧
      socket.dispatched.map Prod.snd = items.map (Item.decoded codec) := by
  obtain ⟨n, drained, hdrain, hscheduled⟩ : ∃ n drained,
      exec (step codec fun _ => ({} : Reaction Unit)) ((Socket.new () ()).onData codec (fun _ => {})
        (written (Sender.new.sendAll codec items))) (List.replicate n .immediate) = some drained ∧
      drained.scheduled = 0 := callbacks_run_out _
  have hreceived : received (.chunk (written (Sender.new.sendAll codec items)) ::
      List.replicate n .immediate) = written (Sender.new.sendAll codec items) := by
    rw [received, List.flatMap_cons, List.flatMap_replicate]
    simp
  have hrun : exec (step codec fun _ => ({} : Reaction Unit)) (Socket.new () ())
      (.chunk (written (Sender.new.sendAll codec items)) :: List.replicate n .immediate) =
        some drained := hdrain
  have hdispatches := dispatches_run (fun _ => ({} : Reaction Unit)) () () hfits hparses
    ((List.append_nil _).trans hreceived) hrun
  have hopen : drained.closed = false :=
    Bool.eq_false_of_not_eq_true fun hclosed => Bool.false_ne_true (hdispatches.closing hclosed)
  exact ⟨_, drained, hreceived, hrun, hopen, hscheduled, hdispatches.all rfl hopen hscheduled⟩

/-- What was sent comes out, under every chunking and with any handlers, and the frames on the
stream are those that were sent, numbered for each pane. -/
structure RoundTrips (codec : Codec Msg) (items : List (Item Msg)) : Prop where
  dispatches : ∀ (H : Type) [DecidableEq H] (react : List (H × Item Msg) → Reaction H)
    (controlHandler dataHandler : H) (events : List Event) (later : Bytes) (socket : Socket H Msg),
    received events ++ later = written (Sender.new.sendAll codec items) →
    exec (step codec react) (Socket.new controlHandler dataHandler) events = some socket →
    Dispatches codec react items later socket
  frames : ((Sender.new.sendAll codec items).filterMap (frameOf codec.decode)).map
    (fun frame => (frame.paneId, frame.payload)) = items.filterMap Item.frame
  numbered : Numbered ((Sender.new.sendAll codec items).filterMap (frameOf codec.decode))

/-- The pane id of a frame does not begin with a byte order mark. -/
def Item.Unmarked : Item Msg → Prop
  | .control _ => True
  | .data paneId _ => paneId.raw.toList.head? ≠ some BOM

theorem decoded_eq_iff (hdecode : ∀ s, codec.decode (utf8 s) = stripBom s) (item : Item Msg) :
    item.decoded codec = item ↔ item.Unmarked := by
  cases item with
  | control msg => exact iff_of_true rfl trivial
  | data paneId payload =>
    show Item.data _ _ = _ ↔ paneId.raw.toList.head? ≠ some BOM
    rw [← stripBom_eq_iff, ← hdecode, Item.data.injEq, and_iff_left rfl]
    exact ⟨fun h => congrArg (·.raw) h, fun h => congrArg PaneId.mk h⟩

/-- Whatever was sent comes out exactly if no pane id begins with a byte order mark. -/
theorem mux_round_trip_iff (codec : Codec Msg)
    (hdecode : ∀ s, codec.decode (utf8 s) = stripBom s) (items : List (Item Msg))
    (hfits : ∀ item ∈ items, item.Fits codec) (hparses : ∀ item ∈ items, item.Parses codec) :
    RoundTrips codec items ↔ ∀ item ∈ items, item.Unmarked := by
  constructor
  · intro h item hitem
    obtain ⟨events, socket, hbytes, hrun, hopen, hidle, hall⟩ :=
      dispatched_in_one_chunk hfits hparses
    have hdispatches := h.dispatches Unit (fun _ => {}) () () events [] socket
      ((List.append_nil _).trans hbytes) hrun
    have hsame : items.map (Item.decoded codec) = items.map id := by
      rw [← hall, hdispatches.all rfl hopen hidle, List.map_id]
    exact (decoded_eq_iff hdecode item).mp (List.map_inj_left.mp hsame item hitem)
  · intro hunmarked
    have hreads : ∀ item ∈ items, item.ReadsBack codec := fun item hitem =>
      ⟨hparses item hitem, (decoded_eq_iff hdecode item).mpr (hunmarked item hitem)⟩
    obtain ⟨hframes, hnumbered, -⟩ := frames_of_sendAll hfits hreads .new
    refine ⟨fun H _ react controlHandler dataHandler events later socket hbytes hrun => ?_, hframes,
      hnumbered⟩
    have hdispatches := dispatches_run react controlHandler dataHandler hfits hparses hbytes hrun
    rwa [map_decoded hreads] at hdispatches

end

/-- Messages that are their own JSON text. -/
def plainCodec : Codec String where
  stringify msg := msg
  parse text := some text
  bufferToString := fromCharCodes
  decode := textDecode

/-- The first message replaces the control handler. -/
def replaceOnce (dispatched : List (String × Item String)) : Reaction String :=
  if dispatched.length = 1 then { onControl := some "next" } else {}

/-- A handshake message, a command and a frame. -/
def handshakeItems : List (Item String) :=
  [.control "\x7b\x7d", .control "[]", .data ⟨"p0"⟩ [0x41]]

/-- Their bytes, in two chunks. -/
def handshakeEvents : List Event :=
  [.chunk [0, 0, 0, 3, 0x7b, 0x7d, 0x0a, 0, 0, 0],
    .chunk [3, 0x5b, 0x5d, 0x0a, 0xcc, 0, 0, 0, 0, 0, 0, 0, 1, 0, 2, 0x70, 0x30, 0x41],
    .immediate]

theorem mux_round_trip_handshake :
    RoundTrips plainCodec handshakeItems ∧
      ∃ socket, exec (step plainCodec replaceOnce) (Socket.new "handshake" "data")
        handshakeEvents = some socket ∧ socket.dispatched.map Prod.snd = handshakeItems := by
  have hdecode : ∀ s, plainCodec.decode (utf8 s) = stripBom s := by
    intro s
    dsimp only [plainCodec]
    exact textDecode_utf8 s
  have hfits : ∀ item ∈ handshakeItems, item.Fits plainCodec := by
    simp only [handshakeItems, List.forall_mem_cons, List.not_mem_nil, false_imp_iff, implies_true,
      and_true, Item.Fits]
    exact ⟨by decide +kernel, by decide +kernel, by decide +kernel, by decide +kernel⟩
  have hparses : ∀ item ∈ handshakeItems, item.Parses plainCodec := by
    simp only [handshakeItems, List.forall_mem_cons, List.not_mem_nil, false_imp_iff, implies_true,
      and_true, Item.Parses]
    exact ⟨by decide +kernel, by decide +kernel⟩
  have hunmarked : ∀ item ∈ handshakeItems, item.Unmarked := by
    simp only [handshakeItems, List.forall_mem_cons, List.not_mem_nil, false_imp_iff, implies_true,
      and_true, true_and, Item.Unmarked]
    decide +kernel
  have htrips := (mux_round_trip_iff plainCodec hdecode _ hfits hparses).mpr hunmarked
  have hrun : (exec (step plainCodec replaceOnce) (Socket.new "handshake" "data")
      handshakeEvents).map (fun socket => (socket.closed, socket.scheduled)) = some (false, 0) := by
    decide +kernel
  obtain ⟨socket, hsocket, hidle⟩ := Option.map_eq_some_iff.mp hrun
  obtain ⟨hopen, hscheduled⟩ := Prod.mk.inj hidle
  have hbytes : received handshakeEvents ++ [] =
      written (Sender.new.sendAll plainCodec handshakeItems) := by
    decide +kernel
  have hdispatches := htrips.dispatches String replaceOnce "handshake" "data" handshakeEvents []
    socket hbytes hsocket
  exact ⟨htrips, socket, hsocket, hdispatches.all rfl hopen hscheduled⟩

/-- A frame of a pane whose id begins with a byte order mark is dispatched for another pane. -/
theorem marked_pane_lost : ¬RoundTrips plainCodec [.data ⟨"\ufeffp0"⟩ [0x41]] := by
  intro h
  have hframes := h.frames
  revert hframes
  decide +kernel

end TmuxccDriver.Transport
