import NorbitDriver.Connection.DataSocket

/-!
# Frames on a data socket

A `Frame` is what the sonar puts on the wire: a common header of 24 bytes with
the preamble, and exactly as many payload bytes as its size field announces. The
receive loop reads a stream of supported frames frame by frame as long as every
receive operation brings a whole header: each turn of the loop takes one frame
off the stream, and calls the callbacks of its type when its CRC matches.
-/

namespace NorbitDriver

open Bytes Transition

/-- A frame: header and payload, with the size the header announces. -/
structure Frame where
  header : List UInt8
  payload : List UInt8
  header_length : header.length = 24
  preable : (Message.fromBoostArray header).preable =
    CommonHeader.NORBIT_PREAMBLE_KEY
  size : (Message.fromBoostArray header).size.toNat = payload.length + 24

namespace Frame

def commonHeader (f : Frame) : CommonHeader :=
  Message.fromBoostArray f.header

def bytes (f : Frame) : List UInt8 :=
  f.header ++ f.payload

/-- The driver reads frames of this type and version. -/
def Supported (f : Frame) : Prop :=
  (f.commonHeader.type, f.commonHeader.version) ∈
    [((1 : UInt32), (4 : UInt32)), (1, 8), (2, 4), (2, 9)]

/-- The CRC-32 of the payload is the one in the header. -/
def Intact (f : Frame) : Prop :=
  CRC.Calculate f.payload CRC.CRC_32 = f.commonHeader.crc.toBitVec

instance (f : Frame) : Decidable f.Supported := by
  unfold Supported
  infer_instance

instance (f : Frame) : Decidable f.Intact := by
  unfold Intact
  infer_instance

/-- The payload is long enough for the header and the counts it declares. -/
def Declared (f : Frame) : Prop :=
  (f.commonHeader.type = 1 →
    (BathymetricData.setBits f.commonHeader f.payload).Complete) ∧
  (f.commonHeader.type = 2 → WaterColumnData.Complete f.payload)

/-- A water-column payload has the 28 bytes that end with the element type. -/
def Headed (f : Frame) : Prop :=
  f.commonHeader.type = 2 → 28 ≤ f.payload.length

/-- The calls a supported frame with a matching CRC gives rise to. -/
def calls {β ω : Type*} (cbs : Callbacks β ω) (f : Frame) :
    List (Invocation β ω) :=
  if f.commonHeader.type = 1 then
    cbs.bathymetry_callbacks.map fun cb =>
      .bathymetry cb (BathymetricData.setBits f.commonHeader f.payload)
  else
    cbs.watercolumn_callbacks.map fun cb =>
      .watercolumn cb (WaterColumnData.view f.commonHeader f.payload)

/-- The calls a supported frame gives rise to: none with a wrong CRC. -/
def invocations {β ω : Type*} (cbs : Callbacks β ω) (f : Frame) :
    List (Invocation β ω) :=
  if f.Intact then f.calls cbs else []

/-- The message a supported frame with a matching CRC is dispatched as. -/
def message (f : Frame) : Message where
  commonHeader := f.commonHeader
  bits := f.payload
  bathy :=
    if f.commonHeader.type = 1 then
      some (BathymetricData.setBits f.commonHeader f.payload)
    else none
  water_column :=
    if f.commonHeader.type = 1 then none
    else some (WaterColumnData.view f.commonHeader f.payload)

/-- The bytes of a sequence of frames. -/
def stream (fs : List Frame) : List UInt8 :=
  fs.flatMap bytes

@[simp] theorem stream_nil : stream [] = [] := rfl

theorem stream_cons (f : Frame) (fs : List Frame) :
    stream (f :: fs) = f.bytes ++ stream fs :=
  List.flatMap_cons

theorem stream_append (fs gs : List Frame) :
    stream (fs ++ gs) = stream fs ++ stream gs :=
  List.flatMap_append

theorem bytes_length (f : Frame) : f.bytes.length = 24 + f.payload.length := by
  rw [bytes, List.length_append, f.header_length]

theorem take_bytes_append (f : Frame) (rest : List UInt8) :
    (f.bytes ++ rest).take 24 = f.header := by
  rw [bytes, List.append_assoc, ← f.header_length, List.take_left]

theorem drop_bytes_append (f : Frame) (rest : List UInt8) :
    (f.bytes ++ rest).drop 24 = f.payload ++ rest := by
  rw [bytes, List.append_assoc, ← f.header_length, List.drop_left]

theorem size_le (f : Frame) : 24 ≤ f.commonHeader.size.toNat := by
  rw [commonHeader, f.size]
  exact Nat.le_add_left 24 f.payload.length

theorem dataSize_eq (f : Frame) :
    (dataSize f.commonHeader).toNat = f.payload.length := by
  rw [dataSize_toNat f.size_le, commonHeader, f.size, Nat.add_sub_cancel]

theorem crcSize_eq (f : Frame) :
    (Message.crcSize f.commonHeader).toNat = f.payload.length := by
  rw [Message.crcSize_toNat f.size_le, commonHeader, f.size,
    Nat.add_sub_cancel]

theorem headerValid_iff (f : Frame) :
    Message.headerValid f.commonHeader = true ↔ f.Supported := by
  rw [Message.headerValid_iff]
  exact and_iff_right f.preable

/-- The CRC check of a frame compares its payload with its header. -/
theorem msgValid_eq (f : Frame) :
    Message.msgValid f.commonHeader f.payload = some (decide f.Intact) := by
  rw [Message.msgValid, crcSize_eq, if_pos (Nat.le_refl _), List.take_length]
  rfl

/-- A supported frame has one of the two types that have a reader. -/
theorem Supported.type_eq {f : Frame} (h : f.Supported) :
    f.commonHeader.type = 1 ∨ f.commonHeader.type = 2 :=
  Message.type_of_headerValid (f.headerValid_iff.mpr h)

theorem Declared.headed {f : Frame} (h : f.Declared) : f.Headed :=
  fun htype => Nat.le_trans (by decide) (h.2 htype).le

theorem setBits_of_intact {f : Frame} (hs : f.Supported) (hi : f.Intact)
    (hh : f.Headed) :
    Message.setBits f.commonHeader f.payload = some (true, f.message) := by
  have hvalid := f.msgValid_eq
  rw [decide_eq_true hi] at hvalid
  rcases hs.type_eq with htype | htype
  · simp [Message.setBits, hvalid, htype, TypeId.value, message]
  · have hview := WaterColumnData.setBits_of_le f.commonHeader (hh htype)
    simp [Message.setBits, hvalid, htype, TypeId.value, message, hview]

theorem setBits_of_not_intact {f : Frame} (hi : ¬ f.Intact) :
    ∃ m, Message.setBits f.commonHeader f.payload = some (false, m) := by
  have hvalid := f.msgValid_eq
  rw [decide_eq_false hi] at hvalid
  exact ⟨{ commonHeader := f.commonHeader, bits := f.payload },
    by simp [Message.setBits, hvalid]⟩

/-- `processHdrMsg` on the header of a supported frame takes exactly its
payload, and dispatches it when its CRC matches. -/
theorem processHdrMsg_eq {f : Frame} (hs : f.Supported)
    (hh : f.Intact → f.Headed) (rest : List UInt8) :
    processHdrMsg f.header (f.payload ++ rest) =
      .ok (if f.Intact then some f.message else none, rest) := by
  have hsize := f.dataSize_eq
  have hvalid := f.headerValid_iff.mpr hs
  rw [commonHeader] at hsize hvalid
  apply processHdrMsg_eq_ok_iff.mpr
  refine Or.inr ⟨hvalid, ?_, ?_, ?_⟩
  · rw [hsize, List.length_append]
    exact Nat.le_add_right _ _
  · rw [hsize, List.drop_left]
  · rw [hsize, List.take_left]
    by_cases hi : f.Intact
    · exact ⟨true, f.message, setBits_of_intact hs hi (hh hi), by simp [hi]⟩
    · obtain ⟨m, hm⟩ := setBits_of_not_intact hi
      exact ⟨false, m, hm, by simp [hi]⟩

/-- The observations of the turn that reads a supported frame. -/
def actions {β ω : Type*} (cbs : Callbacks β ω) (offset : ℕ) (f : Frame) :
    List (DataAction β ω) :=
  cbs.processed offset (if f.Intact then some f.message else none) ++
    [.receiveStarted]

theorem dispatch_message {β ω : Type*} (cbs : Callbacks β ω) {f : Frame}
    (hs : f.Supported) : cbs.dispatch f.message = f.calls cbs := by
  rcases hs.type_eq with htype | htype
  · simp [Callbacks.dispatch, message, calls, htype, TypeId.value,
      Callbacks.bathyCallback]
  · simp [Callbacks.dispatch, message, calls, htype, TypeId.value,
      Callbacks.wcCallback]

theorem invoked_actions {β ω : Type*} (cbs : Callbacks β ω) (offset : ℕ)
    {f : Frame} (hs : f.Supported) :
    DataSocket.invoked (f.actions cbs offset) = f.invocations cbs := by
  have hdispatch := dispatch_message cbs hs
  unfold actions invocations
  by_cases hi : f.Intact
  · simp [if_pos hi, hdispatch]
  · simp [if_neg hi]

/-- A frame is intact when the register behind its payload is the complement of
its CRC. -/
theorem intact_of_remainder {f : Frame} {r : BitVec 32}
    (hr : f.payload.foldl (CRC.remainderByte 0xEDB88320) 0xFFFFFFFF = r)
    (hcrc : ~~~ r = f.commonHeader.crc.toBitVec) : f.Intact := by
  rw [Intact, CRC.Calculate_CRC_32, hr, hcrc]

/-- A bathymetric frame of version 8 that announces no points and holds nothing
but zeros. -/
def ping : Frame where
  header := [0xEF, 0xBE, 0xAD, 0xDE, 1, 0, 0, 0, 136, 0, 0, 0, 8, 0, 0, 0,
    0, 0, 0, 0, 0xBD, 0xAD, 0xBE, 0x1B]
  payload := List.replicate 112 0
  header_length := rfl
  preable := by decide
  size := by decide

theorem ping_supported : ping.Supported := by
  decide

/-- The register after half of the payload, and after the other half. -/
theorem ping_intact : ping.Intact := by
  have hfront : (ping.payload.take 56).foldl
      (CRC.remainderByte 0xEDB88320) 0xFFFFFFFF = 741825206 := by
    decide +kernel
  have hback : (ping.payload.drop 56).foldl
      (CRC.remainderByte 0xEDB88320) 741825206 = 3829486146 := by
    decide +kernel
  have hpayload := CRC.remainder_of_take_drop 56 hfront hback
  exact intact_of_remainder hpayload (by decide)

theorem ping_declared : ping.Declared := by
  refine ⟨fun _ => ?_, fun htype => absurd htype (by decide)⟩
  refine ⟨BathymetricHeader.layout.read (List.replicate 112 0), ?_, ?_⟩
  · decide +kernel
  · decide +kernel

/-- The payload of `ping` under a CRC that is not its own. -/
def garbled : Frame where
  header := [0xEF, 0xBE, 0xAD, 0xDE, 1, 0, 0, 0, 136, 0, 0, 0, 8, 0, 0, 0,
    0, 0, 0, 0, 0, 0, 0, 0]
  payload := ping.payload
  header_length := rfl
  preable := by decide
  size := by decide

theorem garbled_supported : garbled.Supported := by
  decide

theorem garbled_not_intact : ¬ garbled.Intact := by
  have hping : CRC.Calculate garbled.payload CRC.CRC_32 =
      ping.commonHeader.crc.toBitVec := ping_intact
  rw [Intact, hping]
  decide

/-- A bathymetric frame of version 8 with one detection. -/
def sounding : Frame where
  header := [0xEF, 0xBE, 0xAD, 0xDE, 1, 0, 0, 0, 184, 0, 0, 0, 8, 0, 0, 0,
    0, 0, 0, 0, 0x4F, 0x45, 0xB6, 0xDB]
  payload := BathymetricData.oneDetection
  header_length := rfl
  preable := by decide
  size := by decide +kernel

theorem sounding_supported : sounding.Supported := by
  decide

/-- The register after half of the payload, and after the other half. -/
theorem sounding_intact : sounding.Intact := by
  have hfront : (sounding.payload.take 80).foldl
      (CRC.remainderByte 0xEDB88320) 0xFFFFFFFF = 890980650 := by
    decide +kernel
  have hback : (sounding.payload.drop 80).foldl
      (CRC.remainderByte 0xEDB88320) 890980650 = 608811696 := by
    decide +kernel
  have hpayload := CRC.remainder_of_take_drop 80 hfront hback
  exact intact_of_remainder hpayload (by decide)

theorem sounding_declared : sounding.Declared :=
  ⟨fun _ => BathymetricData.oneDetection_complete _,
    fun htype => absurd htype (by decide)⟩

/-- A water-column frame of version 9 with one beam of two samples. -/
def image : Frame where
  header := [0xEF, 0xBE, 0xAD, 0xDE, 2, 0, 0, 0, 212, 0, 0, 0, 9, 0, 0, 0,
    0, 0, 0, 0, 0x57, 0x92, 0xA4, 0xCD]
  payload := WaterColumnData.twoPixels
  header_length := rfl
  preable := by decide
  size := by decide +kernel

theorem image_supported : image.Supported := by
  decide

/-- The register after the first 64 bytes of the payload, after the next 64 and
at its end. -/
theorem image_intact : image.Intact := by
  have hfront : (image.payload.take 64).foldl
      (CRC.remainderByte 0xEDB88320) 0xFFFFFFFF = 3997158223 := by
    decide +kernel
  have hmiddle : ((image.payload.drop 64).take 64).foldl
      (CRC.remainderByte 0xEDB88320) 3997158223 = 3294654322 := by
    decide +kernel
  have hback : ((image.payload.drop 64).drop 64).foldl
      (CRC.remainderByte 0xEDB88320) 3294654322 = 844852648 := by
    decide +kernel
  have hrest := CRC.remainder_of_take_drop 64 hmiddle hback
  have hpayload := CRC.remainder_of_take_drop 64 hfront hrest
  exact intact_of_remainder hpayload (by decide)

theorem image_declared : image.Declared :=
  ⟨fun htype => absurd htype (by decide),
    fun _ => WaterColumnData.twoPixels_complete⟩

end Frame

namespace DataSocket

variable {β ω : Type*}

theorem full_possible_iff (s : DataSocket) :
    Receive.full.Possible s ↔ 24 ≤ s.unread.length := by
  simp [Receive.Possible, Receive.full]

/-- One turn of the loop takes a supported frame off the stream. -/
theorem step_frame (cbs : Callbacks β ω) {f : Frame} (hs : f.Supported)
    (hh : f.Intact → f.Headed) (position : ℕ) (rest : List UInt8) :
    (machine cbs).step ⟨position, f.bytes ++ rest⟩ Receive.full =
      some (⟨position + f.bytes.length, rest⟩, f.actions cbs position) := by
  have hlen := f.header_length
  apply (machine_step_eq_some_iff cbs).mpr
  refine ⟨?_, if f.Intact then some f.message else none, rest, ?_, ?_, rfl⟩
  · rw [full_possible_iff, List.length_append, f.bytes_length]
    omega
  · change processHdrMsg (headerBuffer ((f.bytes ++ rest).take 24))
      ((f.bytes ++ rest).drop ((f.bytes ++ rest).take 24).length) = _
    rw [f.take_bytes_append, headerBuffer_of_length hlen, hlen,
      f.drop_bytes_append, Frame.processHdrMsg_eq hs hh]
  · congr
    change f.bytes.length = (f.bytes ++ rest).length - rest.length
    rw [List.length_append, Nat.add_sub_cancel]

/-- The loop reads a sequence of supported frames, one in each turn. -/
theorem run_frames (cbs : Callbacks β ω) {fs : List Frame}
    (hs : ∀ f ∈ fs, f.Supported) (hh : ∀ f ∈ fs, f.Intact → f.Headed)
    (position : ℕ) (rest : List UInt8) :
    ∃ os, (machine cbs).run ⟨position, Frame.stream fs ++ rest⟩
        (List.replicate fs.length Receive.full) =
          some (⟨position + (Frame.stream fs).length, rest⟩, os) ∧
      invoked os = fs.flatMap (Frame.invocations cbs) := by
  induction fs generalizing position with
  | nil => exact ⟨[], rfl, rfl⟩
  | cons f fs ih =>
      have hf := hs f List.mem_cons_self
      have hstep := step_frame cbs hf (hh f List.mem_cons_self) position
        (Frame.stream fs ++ rest)
      obtain ⟨os, hrun, hinv⟩ := ih
        (fun g hg => hs g (List.mem_cons_of_mem f hg))
        (fun g hg => hh g (List.mem_cons_of_mem f hg))
        (position + f.bytes.length)
      refine ⟨f.actions cbs position ++ os, ?_, ?_⟩
      · rw [List.length_cons, List.replicate_succ, Frame.stream_cons,
          List.append_assoc, List.length_append, ← Nat.add_assoc]
        exact (machine cbs).run_cons_eq_some_iff.mpr
          ⟨_, _, _, hstep, hrun, rfl⟩
      · rw [invoked_append, Frame.invoked_actions cbs position hf, hinv,
          List.flatMap_cons]

end DataSocket

end NorbitDriver
