import NorbitDriver.Containers.Loop
import NorbitDriver.Interfaces.MarineAcoustic
import NorbitDriver.Types.WaterColumnData

/-!
# Water-column images

`norbitWC2RawSonarImage` overwrites a `RawSonarImage` with the contents of a
water-column message. It indexes the beam directions without a check, so it is
an `Option`, which is `none` when there are fewer directions than beams.
-/

namespace NorbitDriver

open Bytes Containers WaterColumnHeader

namespace Conversions

variable {D : Type*}

/-- The switch over the element types, which keeps the old code for a value
that is not listed. -/
def imageDtype (constants : ElementType → D) (dtype : UInt32) (old : D) : D :=
  if dtype = DTYPE_UINT8 then constants .uint8
  else if dtype = DTYPE_INT8 then constants .int8
  else if dtype = DTYPE_UINT16 then constants .uint16
  else if dtype = DTYPE_INT16 then constants .int16
  else if dtype = DTYPE_UINT32 then constants .uint32
  else if dtype = DTYPE_INT32 then constants .int32
  else if dtype = DTYPE_UINT64 then constants .uint64
  else if dtype = DTYPE_INT64 then constants .int64
  else if dtype = DTYPE_FLOAT32 then constants .float32
  else if dtype = DTYPE_FLOAT64 then constants .float64
  else old

/-- The zero that `resize` appends and the delays are set to. -/
def zero : Binary32 := ⟨0⟩

/-- One turn of the loop over the beams. -/
def imageBeam (h : WaterColumnHeader) (beam_directions : List Binary32)
    (out : RawSonarImage D) (i : ℕ) : Option (RawSonarImage D) :=
  beam_directions[i]?.map fun direction =>
    { out with
      tx_delays := out.tx_delays.set i zero
      tx_angles := out.tx_angles.set i h.tx_angle
      rx_angles := out.rx_angles.set i direction }

def norbitWC2RawSonarImage (constants : ElementType → D)
    (msg : WaterColumnStamped) (out : RawSonarImage D) :
    Option (RawSonarImage D) := do
  let h := msg.water_column.water_column_header
  let num_beams := h.n
  let num_samples := h.m
  let out :=
    { out with
      header := msg.header
      ping_info :=
        { frequency := h.tx_freq
          sound_speed := h.sound_velocity
          tx_beamwidths :=
            resize out.ping_info.tx_beamwidths num_beams.toNat zero
          rx_beamwidths :=
            resize out.ping_info.rx_beamwidths num_beams.toNat zero }
      sample_rate := h.sample_rate
      samples_per_beam := num_samples
      sample0 := if h.t0 < 0 then 0 else h.t0.toUInt32
      tx_delays := resize out.tx_delays num_beams.toNat zero
      tx_angles := resize out.tx_angles num_beams.toNat zero
      rx_angles := resize out.rx_angles num_beams.toNat zero }
  let out ← (List.range num_beams.toNat).foldlM
    (imageBeam h msg.water_column.beam_directions) out
  pure
    { out with
      image :=
        { is_bigendian := false
          dtype := imageDtype constants h.dtype out.image.dtype
          beam_count := num_beams
          data := msg.water_column.pixel_data } }

/-- The image a message is converted to: only the lengths of the beam widths
are set, and an element type that is not listed leaves the old code. -/
def imageOf (constants : ElementType → D) (msg : WaterColumnStamped)
    (out : RawSonarImage D) : RawSonarImage D where
  header := msg.header
  ping_info :=
    { frequency := msg.water_column.water_column_header.tx_freq
      sound_speed := msg.water_column.water_column_header.sound_velocity
      tx_beamwidths := resize out.ping_info.tx_beamwidths
        msg.water_column.water_column_header.n.toNat zero
      rx_beamwidths := resize out.ping_info.rx_beamwidths
        msg.water_column.water_column_header.n.toNat zero }
  sample_rate := msg.water_column.water_column_header.sample_rate
  samples_per_beam := msg.water_column.water_column_header.m
  sample0 :=
    if msg.water_column.water_column_header.t0 < 0 then 0
    else msg.water_column.water_column_header.t0.toUInt32
  tx_delays := List.replicate msg.water_column.water_column_header.n.toNat zero
  tx_angles := List.replicate msg.water_column.water_column_header.n.toNat
    msg.water_column.water_column_header.tx_angle
  rx_angles := msg.water_column.beam_directions
  image :=
    { is_bigendian := false
      dtype := imageDtype constants
        msg.water_column.water_column_header.dtype out.image.dtype
      beam_count := msg.water_column.water_column_header.n
      data := msg.water_column.pixel_data }

/-- The output after `k` turns of the loop over the beams. -/
def imageTurn (constants : ElementType → D) (msg : WaterColumnStamped)
    (out : RawSonarImage D) (k : ℕ) : RawSonarImage D :=
  { imageOf constants msg out with
    tx_delays := fill k (fun _ => zero)
      (resize out.tx_delays msg.water_column.water_column_header.n.toNat zero)
    tx_angles := fill k
      (fun _ => msg.water_column.water_column_header.tx_angle)
      (resize out.tx_angles msg.water_column.water_column_header.n.toNat zero)
    rx_angles := fill k
      (fun i => msg.water_column.beam_directions.getD i zero)
      (resize out.rx_angles msg.water_column.water_column_header.n.toNat zero)
    image := out.image }

theorem imageBeam_imageTurn (constants : ElementType → D)
    {msg : WaterColumnStamped} (out : RawSonarImage D) {k : ℕ}
    (hk : k < msg.water_column.water_column_header.n.toNat)
    (hlen : k < msg.water_column.beam_directions.length) :
    imageBeam msg.water_column.water_column_header
        msg.water_column.beam_directions (imageTurn constants msg out k) k =
      some (imageTurn constants msg out (k + 1)) := by
  have hdirection : msg.water_column.beam_directions[k]? =
      some (msg.water_column.beam_directions.getD k zero) := by
    rw [List.getD_eq_getElem?_getD, List.getElem?_eq_getElem hlen]
    rfl
  have hset : ∀ (f : ℕ → Binary32) (l : List Binary32),
      (fill k f (resize l
        msg.water_column.water_column_header.n.toNat zero)).set k (f k) =
      fill (k + 1) f (resize l
        msg.water_column.water_column_header.n.toNat zero) := by
    intro f l
    apply set_fill
    rwa [length_resize]
  rw [imageBeam, hdirection, Option.map_some]
  simp only [imageTurn]
  rw [hset (fun _ => zero),
    hset (fun _ => msg.water_column.water_column_header.tx_angle),
    hset (fun i => msg.water_column.beam_directions.getD i zero)]

/-- After the last turn the arrays hold nothing of their earlier contents. -/
theorem imageTurn_last (constants : ElementType → D)
    {msg : WaterColumnStamped} (out : RawSonarImage D)
    (hlen : msg.water_column.beam_directions.length =
      msg.water_column.water_column_header.n.toNat) :
    imageTurn constants msg out
        msg.water_column.water_column_header.n.toNat =
      { imageOf constants msg out with image := out.image } := by
  have hfill : ∀ (f : ℕ → Binary32) (l : List Binary32),
      fill msg.water_column.water_column_header.n.toNat f (resize l
        msg.water_column.water_column_header.n.toNat zero) =
      (List.range msg.water_column.water_column_header.n.toNat).map f :=
    fun f l => fill_length f (length_resize l _ zero)
  have hdirections : (List.range
      msg.water_column.water_column_header.n.toNat).map
        (fun i => msg.water_column.beam_directions.getD i zero) =
      msg.water_column.beam_directions := by
    rw [← hlen]
    exact map_getD_range _ _
  simp only [imageTurn, hfill, hdirections, imageOf]
  congr 1
  · simp
  · simp

/-- A message with as many directions as beams is converted. -/
theorem norbitWC2RawSonarImage_eq_some (constants : ElementType → D)
    {msg : WaterColumnStamped}
    (hlen : msg.water_column.beam_directions.length =
      msg.water_column.water_column_header.n.toNat) (out : RawSonarImage D) :
    norbitWC2RawSonarImage constants msg out =
      some (imageOf constants msg out) := by
  have hloop := foldlM_range_eq_some
    (imageBeam msg.water_column.water_column_header
      msg.water_column.beam_directions) (imageTurn constants msg out)
    (fun k hk => imageBeam_imageTurn constants out hk (hlen ▸ hk))
  rw [imageTurn_last constants out hlen] at hloop
  unfold norbitWC2RawSonarImage
  change Option.bind ((List.range _).foldlM _ (imageTurn constants msg out 0))
    _ = _
  rw [hloop]
  rfl

end Conversions

end NorbitDriver
