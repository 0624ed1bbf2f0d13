import Mathlib.Algebra.Order.Ring.Rat
import Mathlib.Algebra.Field.Rat
import NorbitDriver.Node.PointCloud

/-!
# The clouds of a ping

The detections that belong in the cloud of a ping are those with a sample number
above one and the quality flag set, and the cloud that is published in the turn
of a detection has those of them that have been seen so far. As a cloud is
published in every turn, one cloud is published for the ping, with all its
detections, exactly when there is one detection.
-/

namespace NorbitDriver

open Bytes BathymetricData

variable {R : Type*} [Field R] [LinearOrder R]

/-- The points that the loop has collected are those of the accepted ones of
the detections it has seen, in order. -/
theorem soundings_eq (A : Arithmetic R) {data : BathymetricData}
    {h : BathymetricHeader} (hh : data.bathymetricHeader = some h)
    {beams : List BathymetricPoint}
    (hbeams : ∀ i < beams.length, data.data i = beams[i]?) {k : ℕ}
    (hk : k ≤ beams.length) :
    soundings A data k =
      ((beams.take k).filter (Accepted A)).map (pointOf A h) := by
  induction k with
  | zero => rfl
  | succ k ih =>
      have hlt : k < beams.length := hk
      have hpoint := List.getElem?_eq_getElem hlt
      have hsounding := soundingAt_eq A hh ((hbeams k hlt).trans hpoint)
      rw [soundings_succ A hsounding, ih (Nat.le_of_lt hlt), sounding_eq,
        List.take_add_one, hpoint, Option.toList_some, List.filter_append,
        List.map_append]
      congr 1
      by_cases haccepted : Accepted A beams[k]
      · simp [haccepted]
      · simp [haccepted]

/-- Detection `i` of a payload belongs in the cloud: its sample number is above
one and its quality flags are 3. -/
def BathymetricData.accepts (A : Arithmetic R) (data : BathymetricData)
    (i : ℕ) : Bool :=
  (data.pointField Layout.binary32 0 i).any (fun sample_number =>
    1 < A.value sample_number) &&
  data.pointField Layout.uint8 30 i = some 3

/-- What a turn of the loop contributes: the point of the detection where it
belongs in the cloud. -/
theorem soundingAt_toList (A : Arithmetic R) {data : BathymetricData} {i : ℕ}
    {p : Option (PointXYZI R)} (hp : data.soundingAt A i = some p) :
    p.toList.map some =
      ([i].filter (data.accepts A)).map (data.pointAt A) := by
  obtain ⟨sample_number, hsample, hrest⟩ := Option.bind_eq_some_iff.mp hp
  by_cases hone : 1 < A.value sample_number
  · rw [if_pos hone, Option.bind_eq_some_iff] at hrest
    obtain ⟨point, hpoint, hflag⟩ := hrest
    obtain ⟨quality_flag, hquality, rfl⟩ := Option.map_eq_some_iff.mp hflag
    by_cases hthree : quality_flag = 3
    · have haccepts : data.accepts A i = true := by
        simp [accepts, hsample, hone, hquality, hthree]
      simp [haccepts, hthree, hpoint]
    · have haccepts : data.accepts A i = false := by
        simp [accepts, hquality, hthree]
      simp [haccepts, hthree]
  · rw [if_neg hone, Option.some.injEq] at hrest
    have haccepts : data.accepts A i = false := by
      simp [accepts, hsample, hone]
    simp [haccepts, ← hrest]

/-- The same for the turns up to `k`. -/
theorem soundings_map_some (A : Arithmetic R) {data : BathymetricData} {k : ℕ}
    (hall : ∀ i < k, (data.soundingAt A i).isSome) :
    (soundings A data k).map some =
      ((List.range k).filter (data.accepts A)).map (data.pointAt A) := by
  induction k with
  | zero => rfl
  | succ k ih =>
      obtain ⟨p, hp⟩ :=
        Option.isSome_iff_exists.mp (hall k (Nat.lt_succ_self k))
      rw [soundings_succ A hp, List.map_append,
        ih fun i hi => hall i (Nat.lt_succ_of_lt hi), soundingAt_toList A hp,
        List.range_succ, List.filter_append, List.map_append]

/-- One cloud is published for the ping, with the accepted ones of all its
detections, in order. -/
def OneCloud (A : Arithmetic R) (sensor_frame : List Char)
    (data : BathymetricData) : Prop :=
  ∃ (n : UInt32) (pc2 : PointCloud2 R),
    data.headerField Layout.uint32 8 = some n ∧
    pointcloudCallback A sensor_frame data = some [pc2] ∧
    pc2.points.map some =
      ((List.range n.toNat).filter (data.accepts A)).map (data.pointAt A)

/-- As many clouds are published as there are detections. -/
theorem length_of_pointcloudCallback (A : Arithmetic R)
    (sensor_frame : List Char) {data : BathymetricData} {n : UInt32}
    (hn : data.headerField Layout.uint32 8 = some n)
    {clouds : List (PointCloud2 R)}
    (hrun : pointcloudCallback A sensor_frame data = some clouds) :
    clouds.length = n.toNat := by
  obtain ⟨stamp, n', -, hn', -, rfl⟩ :=
    (pointcloudCallback_eq_some_iff A sensor_frame).mp hrun
  obtain rfl := Option.some.inj (hn.symm.trans hn')
  rw [List.length_map, List.length_range]

omit [LinearOrder R] in
/-- The fields of a point end in front of the quality flags. -/
theorem pointAt_isSome (A : Arithmetic R) {data : BathymetricData} {i : ℕ}
    (hle : 143 + i * 48 ≤ data.bits.length) : (data.pointAt A i).isSome := by
  have hheader : ∀ off, off ≤ 48 →
      ∃ field, data.headerField Layout.binary32 off = some field := by
    intro off hoff
    rw [← Option.isSome_iff_exists, headerField_isSome_iff,
      Layout.binary32_width]
    omega
  have hpoint : ∀ off, off ≤ 20 →
      ∃ field, data.pointField Layout.binary32 off i = some field := by
    intro off hoff
    rw [← Option.isSome_iff_exists, pointField_isSome_iff,
      Layout.binary32_width]
    omega
  obtain ⟨sample_number, hsample⟩ := hpoint 0 (by decide)
  obtain ⟨sound_velocity, hvelocity⟩ := hheader 0 (by decide)
  obtain ⟨sample_rate, hrate⟩ := hheader 4 (by decide)
  obtain ⟨tx_angle, htx⟩ := hheader 48 (by decide)
  obtain ⟨angle, hangle⟩ := hpoint 4 (by decide)
  obtain ⟨intensity, hintensity⟩ := hpoint 20 (by decide)
  rw [pointAt, hsample, hvelocity, hrate, htx, hangle, hintensity]
  rfl

/-- A turn reads the sample number of its detection, and the bytes up to the
quality flags when it is above one. -/
theorem soundingAt_isSome_iff (A : Arithmetic R) (data : BathymetricData)
    (i : ℕ) :
    (data.soundingAt A i).isSome ↔
      ∃ sample_number,
        data.pointField Layout.binary32 0 i = some sample_number ∧
        (1 < A.value sample_number → 143 + i * 48 ≤ data.bits.length) := by
  have hquality : (data.pointField Layout.uint8 30 i).isSome ↔
      143 + i * 48 ≤ data.bits.length := by
    rw [pointField_isSome_iff, Layout.uint8_width]
    omega
  constructor
  · intro hsome
    obtain ⟨p, hp⟩ := Option.isSome_iff_exists.mp hsome
    obtain ⟨sample_number, hsample, hrest⟩ := Option.bind_eq_some_iff.mp hp
    refine ⟨sample_number, hsample, fun hone => hquality.mp ?_⟩
    rw [if_pos hone, Option.bind_eq_some_iff] at hrest
    obtain ⟨p, -, hflag⟩ := hrest
    obtain ⟨quality_flag, hflag, -⟩ := Option.map_eq_some_iff.mp hflag
    exact Option.isSome_iff_exists.mpr ⟨quality_flag, hflag⟩
  · rintro ⟨sample_number, hsample, hle⟩
    rw [soundingAt, hsample, Option.bind_some]
    by_cases hone : 1 < A.value sample_number
    · obtain ⟨p, hp⟩ :=
        Option.isSome_iff_exists.mp (pointAt_isSome A (hle hone))
      obtain ⟨quality_flag, hflag⟩ :=
        Option.isSome_iff_exists.mp (hquality.mpr (hle hone))
      rw [if_pos hone, hp, hflag]
      rfl
    · rw [if_neg hone]
      rfl

/-- One cloud is published for a ping exactly when it announces one detection
and its payload holds what the loop reads of it: the sample number, and where
this is above one the bytes up to the quality flags. -/
theorem oneCloud_iff (A : Arithmetic R) (sensor_frame : List Char)
    (data : BathymetricData) :
    OneCloud A sensor_frame data ↔
      data.headerField Layout.uint32 8 = some 1 ∧
        ∃ sample_number,
          data.pointField Layout.binary32 0 0 = some sample_number ∧
          (1 < A.value sample_number → 143 ≤ data.bits.length) := by
  constructor
  · rintro ⟨n, pc2, hn, hrun, -⟩
    have hone : n = 1 := UInt32.toNat_inj.mp
      (length_of_pointcloudCallback A sensor_frame hn hrun).symm
    obtain ⟨-, n', -, hn', hall, -⟩ :=
      (pointcloudCallback_eq_some_iff A sensor_frame).mp hrun
    obtain rfl := Option.some.inj (hn.symm.trans hn')
    rw [hone] at hn hall
    exact ⟨hn, (soundingAt_isSome_iff A data 0).mp (hall 0 Nat.one_pos)⟩
  · rintro ⟨hn, hread⟩
    have hall : ∀ i < 1, (data.soundingAt A i).isSome := by
      intro i hi
      rw [Nat.lt_one_iff.mp hi]
      exact (soundingAt_isSome_iff A data 0).mpr hread
    have hroom : 24 ≤ data.bits.length := by
      obtain ⟨sample_number, hsample, -⟩ := hread
      have hin := Option.isSome_of_eq_some hsample
      rw [pointField_isSome_iff] at hin
      omega
    obtain ⟨stamp, hstamp⟩ := Option.isSome_iff_exists.mp
      ((headerField_isSome_iff data Layout.binary64 16).mpr hroom)
    exact ⟨1, _, hn, (pointcloudCallback_eq_some_iff A sensor_frame).mpr
      ⟨stamp, 1, hstamp, hn, hall, rfl⟩, soundings_map_some A hall⟩

/-- A payload that ends with the quality flags of its only detection. -/
example : (pointcloudCallback
    (⟨fun w => (w.bits.toNat : ℚ), id, id⟩ : Arithmetic ℚ) []
    { comm_hdr := CommonHeader.layout.read []
      bits := BathymetricData.oneDetection.take 143 }).map
        (List.map fun pc2 => pc2.points.length) = some [1] := by
  decide +kernel

/-- A payload that announces two detections and holds them. -/
def twoDetections : BathymetricData where
  comm_hdr := CommonHeader.layout.read []
  bits := [0, 0, 0, 0, 0, 0, 0, 0, 2, 0, 0, 0] ++ List.replicate 196 0

theorem twoDetections_not_oneCloud :
    twoDetections.Complete ∧
      ¬ OneCloud (⟨fun _ => 0, id, id⟩ : Arithmetic ℚ) [] twoDetections := by
  have hheader : 112 ≤ twoDetections.bits.length := by decide +kernel
  have hpoints : 112 + 48 * (BathymetricHeader.layout.read
      (twoDetections.bits.take 112)).n.toNat ≤ twoDetections.bits.length := by
    decide +kernel
  refine ⟨⟨_, bathymetricHeader_eq_some_iff.mpr ⟨hheader, rfl⟩, hpoints⟩, ?_⟩
  rintro ⟨n, pc2, hn, hrun, -⟩
  have htwo : twoDetections.headerField Layout.uint32 8 = some 2 := by
    decide +kernel
  have hlen : 1 = 2 := length_of_pointcloudCallback _ _ htwo hrun
  exact absurd hlen (by decide)

end NorbitDriver
