import NorbitDriver.Types.RoundTrip
import NorbitDriver.Connection.Frame

/-!
# Pings and their frames

A ping is what the sonar measures: a header, and the points or the pixels and
beam directions that the header counts. Its frame is the message in front of
which the common header announces type, version, size and CRC. The structures
hold only pings that can be sent: the counts are right, the version is one that
the driver reads, and the size fits the size field.
-/

namespace NorbitDriver

open Bytes

/-- A bathymetric ping. -/
structure BathymetricPing where
  version : UInt32
  reserved : UInt32
  bathymetric_header : BathymetricHeader
  detections : List BathymetricPoint
  supported : version = 4 ∨ version = 8
  count : detections.length = bathymetric_header.n.toNat
  fits : 112 + 48 * detections.length + 24 < 2 ^ 32

/-- A water-column ping. -/
structure WaterColumnPing where
  version : UInt32
  reserved : UInt32
  water_column_header : WaterColumnHeader
  pixel_data : List UInt8
  beam_directions : List Binary32
  supported : version = 4 ∨ version = 9
  dtype : water_column_header.dtype ∈ WaterColumnHeader.dtypes
  pixels : pixel_data.length =
    water_column_header.n.toNat * water_column_header.m.toNat *
      (WaterColumnData.dataSize water_column_header.dtype).toNat
  directions : beam_directions.length = water_column_header.n.toNat
  fits : 168 + pixel_data.length + 4 * beam_directions.length + 24 < 2 ^ 32

/-- The common header in front of a payload. -/
def CommonHeader.announce (type version reserved : UInt32)
    (payload : List UInt8) : CommonHeader where
  preable := CommonHeader.NORBIT_PREAMBLE_KEY
  type := type
  size := UInt32.ofNat (payload.length + 24)
  version := version
  reserved := reserved
  crc := ⟨CRC.Calculate payload CRC.CRC_32⟩

/-- The frame of a payload that fits the size field. -/
def Frame.announce (type version reserved : UInt32) (payload : List UInt8)
    (fits : payload.length + 24 < 2 ^ 32) : Frame where
  header := CommonHeader.layout.write
    (CommonHeader.announce type version reserved payload)
  payload := payload
  header_length := CommonHeader.layout.write_length _
  preable := by
    rw [Message.fromBoostArray, CommonHeader.layout.read_write]
    rfl
  size := by
    rw [Message.fromBoostArray, CommonHeader.layout.read_write]
    change (UInt32.ofNat (payload.length + 24)).toNat = payload.length + 24
    rw [UInt32.toNat_ofNat', Nat.mod_eq_of_lt fits]

namespace Frame

variable {type version reserved : UInt32} {payload : List UInt8}
  (fits : payload.length + 24 < 2 ^ 32)

@[simp] theorem commonHeader_announce :
    (announce type version reserved payload fits).commonHeader =
      CommonHeader.announce type version reserved payload :=
  CommonHeader.layout.read_write _

/-- The CRC of an announced payload is right. -/
theorem announce_intact :
    (announce type version reserved payload fits).Intact := by
  rw [Intact, commonHeader_announce]
  rfl

theorem announce_supported
    (h : (type, version) ∈ Message.supported) :
    (announce type version reserved payload fits).Supported := by
  rw [Supported, commonHeader_announce]
  exact h

end Frame

namespace BathymetricPing

def payload (p : BathymetricPing) : List UInt8 :=
  BathymetricHeader.layout.write p.bathymetric_header ++
    BathymetricPoint.layout.writeList p.detections

theorem payload_length (p : BathymetricPing) :
    p.payload.length = 112 + 48 * p.detections.length := by
  rw [payload, List.length_append, BathymetricHeader.layout.write_length,
    Layout.writeList_length, Nat.mul_comm]
  rfl

def frame (p : BathymetricPing) : Frame :=
  Frame.announce CommonHeader.TYPE_BATHYMETRIC p.version p.reserved p.payload
    (by rw [payload_length]; exact p.fits)

/-- The message of a ping. -/
def message (p : BathymetricPing) (frame_id : List Char) :
    BathymetricStamped where
  header := { stamp := p.bathymetric_header.time, frame_id }
  bathy :=
    { common_header := p.frame.commonHeader
      bathymetric_header := p.bathymetric_header
      detections := p.detections }

theorem frame_supported (p : BathymetricPing) : p.frame.Supported := by
  apply Frame.announce_supported _
  rcases p.supported with h | h
  · rw [h]
    decide
  · rw [h]
    decide

theorem frame_intact (p : BathymetricPing) : p.frame.Intact :=
  Frame.announce_intact _

theorem frame_type (p : BathymetricPing) : p.frame.commonHeader.type = 1 := by
  rw [frame, Frame.commonHeader_announce]
  rfl

/-- The data that the driver makes of the frame of a ping. -/
def data (p : BathymetricPing) : BathymetricData :=
  BathymetricData.setBits p.frame.commonHeader p.payload

theorem getRosMsg_data (p : BathymetricPing) (frame_id : List Char) :
    p.data.getRosMsg frame_id = some (p.message frame_id) :=
  BathymetricData.getRosMsg_write p.frame.commonHeader p.count frame_id

theorem data_complete (p : BathymetricPing) : p.data.Complete := by
  apply (p.data.getRosMsg_isSome_iff []).mp
  rw [p.getRosMsg_data]
  rfl

theorem bathymetricHeader_data (p : BathymetricPing) :
    p.data.bathymetricHeader = some p.bathymetric_header :=
  BathymetricData.bathymetricHeader_of_getRosMsg (p.getRosMsg_data [])

/-- The detections of a ping are read where they have been written. -/
theorem data_data (p : BathymetricPing) {i : ℕ} (hi : i < p.detections.length) :
    p.data.data i = p.detections[i]? := by
  rw [p.count] at hi
  exact BathymetricData.data_of_getRosMsg (p.getRosMsg_data []) hi

end BathymetricPing

namespace WaterColumnPing

def payload (p : WaterColumnPing) : List UInt8 :=
  WaterColumnHeader.layout.write p.water_column_header ++
    (Layout.uint8.writeList p.pixel_data ++
      Layout.binary32.writeList p.beam_directions)

theorem payload_length (p : WaterColumnPing) :
    p.payload.length =
      168 + p.pixel_data.length + 4 * p.beam_directions.length := by
  rw [payload, List.length_append, List.length_append,
    WaterColumnHeader.layout.write_length, Layout.writeList_length,
    Layout.writeList_length, Layout.uint8_width, Layout.binary32_width,
    Nat.mul_one, Nat.mul_comm, Nat.add_assoc]
  rfl

def frame (p : WaterColumnPing) : Frame :=
  Frame.announce CommonHeader.TYPE_WATERCOLUMN p.version p.reserved p.payload
    (by rw [payload_length]; exact p.fits)

/-- The message of a ping. -/
def message (p : WaterColumnPing) (frame_id : List Char) :
    WaterColumnStamped where
  header := { stamp := p.water_column_header.time, frame_id }
  water_column :=
    { common_header := p.frame.commonHeader
      water_column_header := p.water_column_header
      pixel_data := p.pixel_data
      beam_directions := p.beam_directions }

theorem frame_supported (p : WaterColumnPing) : p.frame.Supported := by
  apply Frame.announce_supported _
  rcases p.supported with h | h
  · rw [h]
    decide
  · rw [h]
    decide

theorem frame_intact (p : WaterColumnPing) : p.frame.Intact :=
  Frame.announce_intact _

theorem frame_type (p : WaterColumnPing) : p.frame.commonHeader.type = 2 := by
  rw [frame, Frame.commonHeader_announce]
  rfl

/-- The data that the driver makes of the frame of a ping. -/
def data (p : WaterColumnPing) : WaterColumnData :=
  WaterColumnData.view p.frame.commonHeader p.payload

theorem payload_le (p : WaterColumnPing) : 28 ≤ p.payload.length := by
  rw [payload_length]
  omega

theorem setBits_data (p : WaterColumnPing) :
    WaterColumnData.setBits p.frame.commonHeader p.payload = some p.data :=
  WaterColumnData.setBits_of_le p.frame.commonHeader p.payload_le

/-- The size that the driver computes is the size of the pixels. -/
theorem pixel_data_size (p : WaterColumnPing) :
    (WaterColumnData.pixel_data_size p.water_column_header).toNat =
      p.pixel_data.length := by
  have hfits := p.fits
  rw [p.pixels]
  exact WaterColumnData.pixel_data_size_of_fits p.dtype
    (Nat.lt_of_le_of_lt (by omega) hfits) (Nat.le_of_eq p.pixels.symm)

theorem getRosMsg_data (p : WaterColumnPing) (frame_id : List Char) :
    p.data.getRosMsg frame_id = some (p.message frame_id) := by
  have hheader := WaterColumnHeader.layout.write_length p.water_column_header
  rw [WaterColumnHeader.layout_width] at hheader
  have hpixels := Layout.uint8.writeList_length p.pixel_data
  rw [Layout.uint8_width, Nat.mul_one] at hpixels
  apply (WaterColumnData.getRosMsg_setBits_eq_some_iff p.setBits_data).mpr
  refine ⟨p.water_column_header, p.pixel_data, p.beam_directions, ?_, ?_, ?_,
    rfl⟩
  · have hload := WaterColumnHeader.layout.load?_append []
      p.water_column_header (Layout.uint8.writeList p.pixel_data ++
        Layout.binary32.writeList p.beam_directions)
    rw [List.nil_append, List.length_nil] at hload
    rw [payload]
    exact hload
  · have hload := Layout.uint8.loadArray?_append
      (WaterColumnHeader.layout.write p.water_column_header) p.pixel_data
      (Layout.binary32.writeList p.beam_directions)
    rw [hheader] at hload
    rw [payload, p.pixel_data_size]
    exact hload
  · have hload := Layout.binary32.loadArray?_append
      (WaterColumnHeader.layout.write p.water_column_header ++
        Layout.uint8.writeList p.pixel_data) p.beam_directions []
    rw [List.length_append, hheader, hpixels, List.append_nil,
      List.append_assoc] at hload
    rw [payload, p.pixel_data_size, ← p.directions]
    exact hload

end WaterColumnPing

/-- What the sonar sends a frame of. -/
inductive Ping
  | bathymetric (p : BathymetricPing)
  | water_column (p : WaterColumnPing)

namespace Ping

def frame : Ping → Frame
  | bathymetric p => p.frame
  | water_column p => p.frame

/-- The frame of a ping is read, passes the CRC, and holds what it declares. -/
theorem frame_supported (p : Ping) : p.frame.Supported := by
  cases p with
  | bathymetric p => exact p.frame_supported
  | water_column p => exact p.frame_supported

theorem frame_intact (p : Ping) : p.frame.Intact := by
  cases p with
  | bathymetric p => exact p.frame_intact
  | water_column p => exact p.frame_intact

theorem frame_headed (p : Ping) : p.frame.Headed := by
  cases p with
  | bathymetric p =>
      intro htype
      rw [frame, p.frame_type] at htype
      exact absurd htype (by decide)
  | water_column p => exact fun _ => p.payload_le

end Ping

end NorbitDriver
