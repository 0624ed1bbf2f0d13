import NorbitDriver.Bytes.Layout

/-!
# Messages of the driver

The messages of `norbit_interfaces`: the header of 24 bytes that every frame on
a data socket starts with, the header and the points of a bathymetric payload,
the header of a water-column payload, and the two messages the driver publishes
for them. The structs are generated from the message definitions with the
fields in order; `layout` is the memory image of a struct on a little-endian
host, in which natural alignment leaves no padding.
-/

namespace NorbitDriver

open Bytes

/-- `CommonHeader.msg`; the spelling of `preable` is that of the message. -/
structure CommonHeader where
  preable : UInt32
  type : UInt32
  size : UInt32
  version : UInt32
  reserved : UInt32
  crc : UInt32
deriving DecidableEq

namespace CommonHeader

def NORBIT_PREAMBLE_KEY : UInt32 := 3735928559

def TYPE_BATHYMETRIC : UInt32 := 1

def TYPE_WATERCOLUMN : UInt32 := 2

def TYPE_SNIPPET : UInt32 := 4

def TYPE_SIDESCAN : UInt32 := 5

/-- The memory image of the header: six words without padding. -/
def layout : Layout CommonHeader :=
  Layout.uint32
    |>.pair Layout.uint32
    |>.pair Layout.uint32
    |>.pair Layout.uint32
    |>.pair Layout.uint32
    |>.pair Layout.uint32
    |>.map
      (fun (((((preable, type), size), version), reserved), crc) =>
        { preable, type, size, version, reserved, crc })
      (fun h =>
        (((((h.preable, h.type), h.size), h.version), h.reserved), h.crc))
      (fun _ => rfl) (fun _ => rfl)

/-- `sizeof(norbit_interfaces::msg::CommonHeader)`. -/
@[simp] theorem layout_width : layout.width = 24 := rfl

/-- The preamble is the word at offset 0. -/
theorem layout_preable : layout.At Layout.uint32 0 preable := by
  refine Layout.At.map ?_
  exact Layout.At.self.fst.fst.fst.fst.fst

theorem layout_type : layout.At Layout.uint32 4 type := by
  refine Layout.At.map ?_
  exact Layout.At.snd.fst.fst.fst.fst

theorem layout_version : layout.At Layout.uint32 12 version := by
  refine Layout.At.map ?_
  exact Layout.At.snd.fst.fst

end CommonHeader

/-- `BathymetricHeader.msg`. -/
structure BathymetricHeader where
  sound_velocity : Binary32
  sample_rate : Binary32
  n : UInt32
  ping_number : UInt32
  time : Binary64
  time_net : Binary64
  ping_rate : Binary32
  type : UInt16
  beam_dist_mode : UInt8
  sonar_mode : UInt8
  reserved1 : UInt32
  reserved2 : UInt8
  multiping_seq_sz : UInt8
  reserved3 : UInt8
  multiping_seq_idx : UInt8
  tx_angle : Binary32
  gain : Binary32
  tx_freq : Binary32
  tx_bw : Binary32
  tx_len : Binary32
  reserved4 : Binary32
  tx_voltage : Binary32
  swath_dir : Binary32
  swath_open : Binary32
  gate_tilt : Binary32
  reserved5 : List.Vector UInt8 24
deriving DecidableEq

namespace BathymetricHeader

/-- The memory image of the header. -/
def layout : Layout BathymetricHeader :=
  Layout.binary32
    |>.pair Layout.binary32
    |>.pair Layout.uint32
    |>.pair Layout.uint32
    |>.pair Layout.binary64
    |>.pair Layout.binary64
    |>.pair Layout.binary32
    |>.pair Layout.uint16
    |>.pair Layout.uint8
    |>.pair Layout.uint8
    |>.pair Layout.uint32
    |>.pair Layout.uint8
    |>.pair Layout.uint8
    |>.pair Layout.uint8
    |>.pair Layout.uint8
    |>.pair Layout.binary32
    |>.pair Layout.binary32
    |>.pair Layout.binary32
    |>.pair Layout.binary32
    |>.pair Layout.binary32
    |>.pair Layout.binary32
    |>.pair Layout.binary32
    |>.pair Layout.binary32
    |>.pair Layout.binary32
    |>.pair Layout.binary32
    |>.pair (Layout.uint8.array 24)
    |>.map
      (fun
        (((((((((((((((((((((((((sound_velocity, sample_rate), n),
        ping_number), time), time_net), ping_rate), type), beam_dist_mode),
        sonar_mode), reserved1), reserved2), multiping_seq_sz), reserved3),
        multiping_seq_idx), tx_angle), gain), tx_freq), tx_bw), tx_len),
        reserved4), tx_voltage), swath_dir), swath_open), gate_tilt),
        reserved5) =>
          { sound_velocity, sample_rate, n, ping_number, time, time_net,
            ping_rate, type, beam_dist_mode, sonar_mode, reserved1, reserved2,
            multiping_seq_sz, reserved3, multiping_seq_idx, tx_angle, gain,
            tx_freq, tx_bw, tx_len, reserved4, tx_voltage, swath_dir,
            swath_open, gate_tilt, reserved5 })
      (fun h =>
        (((((((((((((((((((((((((h.sound_velocity, h.sample_rate), h.n),
        h.ping_number), h.time), h.time_net), h.ping_rate), h.type),
        h.beam_dist_mode), h.sonar_mode), h.reserved1), h.reserved2),
        h.multiping_seq_sz), h.reserved3), h.multiping_seq_idx), h.tx_angle),
        h.gain), h.tx_freq), h.tx_bw), h.tx_len), h.reserved4), h.tx_voltage),
        h.swath_dir), h.swath_open), h.gate_tilt), h.reserved5))
      (fun _ => rfl) (fun _ => rfl)

@[simp] theorem layout_width : layout.width = 112 := rfl

@[simp] theorem layout_sizeof : layout.sizeof = 112 := by decide

/-- The count of points is the word at offset 8. -/
theorem layout_n : layout.At Layout.uint32 8 n := by
  refine Layout.At.map ?_
  exact Layout.At.snd
    |>.fst.fst.fst.fst.fst.fst.fst.fst
    |>.fst.fst.fst.fst.fst.fst.fst.fst
    |>.fst.fst.fst.fst.fst.fst.fst

theorem layout_sound_velocity :
    layout.At Layout.binary32 0 sound_velocity := by
  refine Layout.At.map ?_
  exact Layout.At.self
    |>.fst.fst.fst.fst.fst.fst.fst.fst
    |>.fst.fst.fst.fst.fst.fst.fst.fst
    |>.fst.fst.fst.fst.fst.fst.fst.fst
    |>.fst

theorem layout_sample_rate : layout.At Layout.binary32 4 sample_rate := by
  refine Layout.At.map ?_
  exact Layout.At.snd
    |>.fst.fst.fst.fst.fst.fst.fst.fst
    |>.fst.fst.fst.fst.fst.fst.fst.fst
    |>.fst.fst.fst.fst.fst.fst.fst.fst

theorem layout_time : layout.At Layout.binary64 16 time := by
  refine Layout.At.map ?_
  exact Layout.At.snd
    |>.fst.fst.fst.fst.fst.fst.fst.fst
    |>.fst.fst.fst.fst.fst.fst.fst.fst
    |>.fst.fst.fst.fst.fst

theorem layout_tx_angle : layout.At Layout.binary32 48 tx_angle := by
  refine Layout.At.map ?_
  exact Layout.At.snd
    |>.fst.fst.fst.fst.fst.fst.fst.fst
    |>.fst.fst

end BathymetricHeader

/-- `BathymetricPoint.msg`, for version 8 of the bathymetric packets. -/
structure BathymetricPoint where
  sample_number : Binary32
  angle : Binary32
  reserved1 : List.Vector UInt32 3
  intensity : Binary32
  reserved2 : List.Vector UInt8 6
  quality_flag : UInt8
  quality_val : UInt8
  reserved3 : List.Vector UInt8 16
deriving DecidableEq

namespace BathymetricPoint

/-- The memory image of a point. -/
def layout : Layout BathymetricPoint :=
  Layout.binary32
    |>.pair Layout.binary32
    |>.pair (Layout.uint32.array 3)
    |>.pair Layout.binary32
    |>.pair (Layout.uint8.array 6)
    |>.pair Layout.uint8
    |>.pair Layout.uint8
    |>.pair (Layout.uint8.array 16)
    |>.map
      (fun
        (((((((sample_number, angle), reserved1), intensity), reserved2),
        quality_flag), quality_val), reserved3) =>
          { sample_number, angle, reserved1, intensity, reserved2,
            quality_flag, quality_val, reserved3 })
      (fun h =>
        (((((((h.sample_number, h.angle), h.reserved1), h.intensity),
        h.reserved2), h.quality_flag), h.quality_val), h.reserved3))
      (fun _ => rfl) (fun _ => rfl)

@[simp] theorem layout_width : layout.width = 48 := rfl

@[simp] theorem layout_sizeof : layout.sizeof = 48 := by decide

theorem layout_sample_number :
    layout.At Layout.binary32 0 sample_number := by
  refine Layout.At.map ?_
  exact Layout.At.self.fst.fst.fst.fst.fst.fst.fst

theorem layout_angle : layout.At Layout.binary32 4 angle := by
  refine Layout.At.map ?_
  exact Layout.At.snd.fst.fst.fst.fst.fst.fst

theorem layout_intensity : layout.At Layout.binary32 20 intensity := by
  refine Layout.At.map ?_
  exact Layout.At.snd.fst.fst.fst.fst

/-- The quality flags are the byte at offset 30. -/
theorem layout_quality_flag : layout.At Layout.uint8 30 quality_flag := by
  refine Layout.At.map ?_
  exact Layout.At.snd.fst.fst

end BathymetricPoint

/-- `Bathymetric.msg`. -/
structure Bathymetric where
  common_header : CommonHeader
  bathymetric_header : BathymetricHeader
  detections : List BathymetricPoint
deriving DecidableEq

/-- `std_msgs/Header`. The stamp is kept as the ping time in seconds that
`rclcpp::Time` is built from. -/
structure Header where
  stamp : Binary64
  frame_id : List Char
deriving DecidableEq

/-- `BathymetricStamped.msg`. -/
structure BathymetricStamped where
  header : Header
  bathy : Bathymetric
deriving DecidableEq

/-- `WaterColumnHeader.msg`. -/
structure WaterColumnHeader where
  sound_velocity : Binary32
  sample_rate : Binary32
  n : UInt32
  m : UInt32
  time : Binary64
  dtype : UInt32
  t0 : Int32
  gain : Binary32
  reserved1 : UInt32
  swath_dir : Binary32
  swath_open : Binary32
  tx_freq : Binary32
  tx_bw : Binary32
  tx_len : Binary32
  tx_amp : UInt32
  reserved2 : List.Vector UInt32 3
  ping_rate : Binary32
  reserved3 : Binary32
  ping_number : UInt32
  time_net : Binary64
  beams : UInt32
  vga_t1 : Int32
  vga_g1 : Binary32
  vga_t2 : Int32
  vga_g2 : Binary32
  reserved4 : UInt8
  multiping_seq_sz : UInt8
  reserved5 : UInt8
  multiping_seq_idx : UInt8
  tx_angle : Binary32
  tx_voltage : Binary32
  beam_distribution_mode : UInt8
  sonar_mode : UInt8
  reserved6 : UInt16
  gate_tilt : Binary32
  reserved7 : Binary32
  reserved8 : List.Vector UInt8 28
deriving DecidableEq

namespace WaterColumnHeader

/-- The memory image of the header. -/
def layout : Layout WaterColumnHeader :=
  Layout.binary32
    |>.pair Layout.binary32
    |>.pair Layout.uint32
    |>.pair Layout.uint32
    |>.pair Layout.binary64
    |>.pair Layout.uint32
    |>.pair Layout.int32
    |>.pair Layout.binary32
    |>.pair Layout.uint32
    |>.pair Layout.binary32
    |>.pair Layout.binary32
    |>.pair Layout.binary32
    |>.pair Layout.binary32
    |>.pair Layout.binary32
    |>.pair Layout.uint32
    |>.pair (Layout.uint32.array 3)
    |>.pair Layout.binary32
    |>.pair Layout.binary32
    |>.pair Layout.uint32
    |>.pair Layout.binary64
    |>.pair Layout.uint32
    |>.pair Layout.int32
    |>.pair Layout.binary32
    |>.pair Layout.int32
    |>.pair Layout.binary32
    |>.pair Layout.uint8
    |>.pair Layout.uint8
    |>.pair Layout.uint8
    |>.pair Layout.uint8
    |>.pair Layout.binary32
    |>.pair Layout.binary32
    |>.pair Layout.uint8
    |>.pair Layout.uint8
    |>.pair Layout.uint16
    |>.pair Layout.binary32
    |>.pair Layout.binary32
    |>.pair (Layout.uint8.array 28)
    |>.map
      (fun
        ((((((((((((((((((((((((((((((((((((sound_velocity, sample_rate), n),
        m), time), dtype), t0), gain), reserved1), swath_dir), swath_open),
        tx_freq), tx_bw), tx_len), tx_amp), reserved2), ping_rate),
        reserved3), ping_number), time_net), beams), vga_t1), vga_g1),
        vga_t2), vga_g2), reserved4), multiping_seq_sz), reserved5),
        multiping_seq_idx), tx_angle), tx_voltage), beam_distribution_mode),
        sonar_mode), reserved6), gate_tilt), reserved7), reserved8) =>
          { sound_velocity, sample_rate, n, m, time, dtype, t0, gain,
            reserved1, swath_dir, swath_open, tx_freq, tx_bw, tx_len, tx_amp,
            reserved2, ping_rate, reserved3, ping_number, time_net, beams,
            vga_t1, vga_g1, vga_t2, vga_g2, reserved4, multiping_seq_sz,
            reserved5, multiping_seq_idx, tx_angle, tx_voltage,
            beam_distribution_mode, sonar_mode, reserved6, gate_tilt, reserved7,
            reserved8 })
      (fun h =>
        ((((((((((((((((((((((((((((((((((((h.sound_velocity, h.sample_rate),
        h.n), h.m), h.time), h.dtype), h.t0), h.gain), h.reserved1),
        h.swath_dir), h.swath_open), h.tx_freq), h.tx_bw), h.tx_len),
        h.tx_amp), h.reserved2), h.ping_rate), h.reserved3), h.ping_number),
        h.time_net), h.beams), h.vga_t1), h.vga_g1), h.vga_t2), h.vga_g2),
        h.reserved4), h.multiping_seq_sz), h.reserved5), h.multiping_seq_idx),
        h.tx_angle), h.tx_voltage), h.beam_distribution_mode), h.sonar_mode),
        h.reserved6), h.gate_tilt), h.reserved7), h.reserved8))
      (fun _ => rfl) (fun _ => rfl)

@[simp] theorem layout_width : layout.width = 168 := rfl

@[simp] theorem layout_sizeof : layout.sizeof = 168 := by decide

/-- The count of beams is the word at offset 8. -/
theorem layout_n : layout.At Layout.uint32 8 n := by
  refine Layout.At.map ?_
  exact Layout.At.snd
    |>.fst.fst.fst.fst.fst.fst.fst.fst
    |>.fst.fst.fst.fst.fst.fst.fst.fst
    |>.fst.fst.fst.fst.fst.fst.fst.fst
    |>.fst.fst.fst.fst.fst.fst.fst.fst
    |>.fst.fst

/-- The count of samples in each beam is the word at offset 12. -/
theorem layout_m : layout.At Layout.uint32 12 m := by
  refine Layout.At.map ?_
  exact Layout.At.snd
    |>.fst.fst.fst.fst.fst.fst.fst.fst
    |>.fst.fst.fst.fst.fst.fst.fst.fst
    |>.fst.fst.fst.fst.fst.fst.fst.fst
    |>.fst.fst.fst.fst.fst.fst.fst.fst
    |>.fst

/-- The element type of the pixels is the word at offset 24. -/
theorem layout_dtype : layout.At Layout.uint32 24 dtype := by
  refine Layout.At.map ?_
  exact Layout.At.snd
    |>.fst.fst.fst.fst.fst.fst.fst.fst
    |>.fst.fst.fst.fst.fst.fst.fst.fst
    |>.fst.fst.fst.fst.fst.fst.fst.fst
    |>.fst.fst.fst.fst.fst.fst.fst

end WaterColumnHeader

/-- `WaterColumn.msg`. -/
structure WaterColumn where
  common_header : CommonHeader
  water_column_header : WaterColumnHeader
  pixel_data : List UInt8
  beam_directions : List Binary32
deriving DecidableEq

/-- `WaterColumnStamped.msg`. -/
structure WaterColumnStamped where
  header : Header
  water_column : WaterColumn
deriving DecidableEq

end NorbitDriver
