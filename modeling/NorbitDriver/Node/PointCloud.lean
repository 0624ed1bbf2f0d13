import Mathlib.Algebra.Field.Basic
import NorbitDriver.Containers.Loop
import NorbitDriver.Interfaces.Arithmetic
import NorbitDriver.Types.BathymetricData

/-!
# Point clouds

`pointcloudCallback` turns the points of a bathymetric payload into soundings
and publishes them. It reads the payload in place, field by field, without the
message that `getRosMsg` makes; the fields behind the test of the sample number
are read only for the detections that pass it. The floating point arithmetic is
read as exact arithmetic in an ordered field `R`, with the value of a bit
pattern and the two trigonometric functions as parameters.
-/

namespace NorbitDriver

open Bytes Containers

/-- `pcl::PointXYZI`. -/
structure PointXYZI (R : Type*) where
  x : R
  y : R
  z : R
  intensity : R
deriving DecidableEq

/-- `sensor_msgs/PointCloud2`, with its points. -/
structure PointCloud2 (R : Type*) where
  header : Header
  points : List (PointXYZI R)
deriving DecidableEq

variable {R : Type*} [Field R] [LinearOrder R]

/-- The point that a detection contributes to the cloud, if any. -/
def sounding (A : Arithmetic R) (h : BathymetricHeader)
    (point : BathymetricPoint) : Option (PointXYZI R) :=
  if 1 < A.value point.sample_number then
    let range := A.value point.sample_number * A.value h.sound_velocity /
      (2 * A.value h.sample_rate)
    let p : PointXYZI R :=
      { x := range * A.sinf (A.value h.tx_angle)
        y := range * A.sinf (A.value point.angle)
        z := range * A.cosf (A.value point.angle)
        intensity := A.value point.intensity / 10 ^ 9 }
    if point.quality_flag = 3 then some p else none
  else none

/-- The detection belongs in the cloud. -/
def Accepted (A : Arithmetic R) (point : BathymetricPoint) : Prop :=
  1 < A.value point.sample_number ∧ point.quality_flag = 3

instance (A : Arithmetic R) : DecidablePred (Accepted A) := fun point =>
  inferInstanceAs (Decidable (1 < A.value point.sample_number ∧
    point.quality_flag = 3))

/-- The point of a detection. -/
def pointOf (A : Arithmetic R) (h : BathymetricHeader)
    (point : BathymetricPoint) : PointXYZI R :=
  let range := A.value point.sample_number * A.value h.sound_velocity /
    (2 * A.value h.sample_rate)
  { x := range * A.sinf (A.value h.tx_angle)
    y := range * A.sinf (A.value point.angle)
    z := range * A.cosf (A.value point.angle)
    intensity := A.value point.intensity / 10 ^ 9 }

theorem sounding_eq (A : Arithmetic R) (h : BathymetricHeader)
    (point : BathymetricPoint) :
    sounding A h point =
      if Accepted A point then some (pointOf A h point) else none := by
  by_cases hsample : 1 < A.value point.sample_number
  · by_cases hquality : point.quality_flag = 3
    · have haccepted : Accepted A point := ⟨hsample, hquality⟩
      rw [if_pos haccepted, sounding, if_pos hsample, if_pos hquality]
      rfl
    · have hrejected : ¬ Accepted A point := fun h => hquality h.2
      rw [if_neg hrejected, sounding, if_pos hsample, if_neg hquality]
  · have hrejected : ¬ Accepted A point := fun h => hsample h.1
    rw [if_neg hrejected, sounding, if_neg hsample]

namespace BathymetricData

/-- The point of detection `i`, from the fields that the loop reads of it and
of the header. -/
def pointAt (A : Arithmetic R) (data : BathymetricData) (i : ℕ) :
    Option (PointXYZI R) :=
  (data.pointField Layout.binary32 0 i).bind fun sample_number =>
  (data.headerField Layout.binary32 0).bind fun sound_velocity =>
  (data.headerField Layout.binary32 4).bind fun sample_rate =>
  (data.headerField Layout.binary32 48).bind fun tx_angle =>
  (data.pointField Layout.binary32 4 i).bind fun angle =>
  (data.pointField Layout.binary32 20 i).map fun intensity =>
    let range := A.value sample_number * A.value sound_velocity /
      (2 * A.value sample_rate)
    { x := range * A.sinf (A.value tx_angle)
      y := range * A.sinf (A.value angle)
      z := range * A.cosf (A.value angle)
      intensity := A.value intensity / 10 ^ 9 }

/-- The point that detection `i` contributes to the cloud, if any. -/
def soundingAt (A : Arithmetic R) (data : BathymetricData) (i : ℕ) :
    Option (Option (PointXYZI R)) :=
  (data.pointField Layout.binary32 0 i).bind fun sample_number =>
    if 1 < A.value sample_number then
      (data.pointAt A i).bind fun p =>
      (data.pointField Layout.uint8 30 i).map fun quality_flag =>
        if quality_flag = 3 then some p else none
    else some none

omit [LinearOrder R] in
/-- Of a whole header and a whole detection, `pointOf` makes the point. -/
theorem pointAt_eq (A : Arithmetic R) {data : BathymetricData}
    {h : BathymetricHeader} (hh : data.bathymetricHeader = some h) {i : ℕ}
    {point : BathymetricPoint} (hpoint : data.data i = some point) :
    data.pointAt A i = some (pointOf A h point) := by
  rw [pointAt, pointField_eq hpoint BathymetricPoint.layout_sample_number,
    headerField_eq hh BathymetricHeader.layout_sound_velocity,
    headerField_eq hh BathymetricHeader.layout_sample_rate,
    headerField_eq hh BathymetricHeader.layout_tx_angle,
    pointField_eq hpoint BathymetricPoint.layout_angle,
    pointField_eq hpoint BathymetricPoint.layout_intensity]
  rfl

theorem soundingAt_eq (A : Arithmetic R) {data : BathymetricData}
    {h : BathymetricHeader} (hh : data.bathymetricHeader = some h) {i : ℕ}
    {point : BathymetricPoint} (hpoint : data.data i = some point) :
    data.soundingAt A i = some (sounding A h point) := by
  rw [soundingAt, pointField_eq hpoint BathymetricPoint.layout_sample_number,
    pointAt_eq A hh hpoint,
    pointField_eq hpoint BathymetricPoint.layout_quality_flag, sounding_eq]
  by_cases hsample : 1 < A.value point.sample_number
  · by_cases hquality : point.quality_flag = 3
    · simp [Accepted, hsample, hquality]
    · simp [Accepted, hsample, hquality]
  · simp [Accepted, hsample]

end BathymetricData

/-- One turn of the loop over the detections. The clouds published so far are
carried along, because the cloud is published inside the loop. -/
def pointcloudTurn (A : Arithmetic R) (sensor_frame : List Char)
    (data : BathymetricData) (stamp : Binary64)
    (s : List (PointXYZI R) × List (PointCloud2 R)) (i : ℕ) :
    Option (List (PointXYZI R) × List (PointCloud2 R)) :=
  (data.soundingAt A i).map fun p =>
    let detections := s.1 ++ p.toList
    let pc2 : PointCloud2 R :=
      { header := { stamp, frame_id := sensor_frame }, points := detections }
    (detections, s.2 ++ [pc2])

/-- The clouds that `pointcloudCallback` publishes, in order. Of the header it
reads `time` at offset 16 and the count `n` at offset 8. -/
def pointcloudCallback (A : Arithmetic R) (sensor_frame : List Char)
    (data : BathymetricData) : Option (List (PointCloud2 R)) :=
  (data.headerField Layout.binary64 16).bind fun stamp =>
  (data.headerField Layout.uint32 8).bind fun n =>
    ((List.range n.toNat).foldlM
      (pointcloudTurn A sensor_frame data stamp) ([], [])).map Prod.snd

/-- The soundings of the first `k` detections. -/
def soundings (A : Arithmetic R) (data : BathymetricData) (k : ℕ) :
    List (PointXYZI R) :=
  (List.range k).flatMap fun i => (data.soundingAt A i).join.toList

/-- The cloud that is published in the turn of detection `i`. -/
def cloudAt (A : Arithmetic R) (sensor_frame : List Char)
    (data : BathymetricData) (stamp : Binary64) (i : ℕ) : PointCloud2 R where
  header := { stamp, frame_id := sensor_frame }
  points := soundings A data (i + 1)

theorem soundings_succ (A : Arithmetic R) {data : BathymetricData} {k : ℕ}
    {p : Option (PointXYZI R)} (hp : data.soundingAt A k = some p) :
    soundings A data (k + 1) = soundings A data k ++ p.toList := by
  rw [soundings, List.range_succ, List.flatMap_append, List.flatMap_singleton,
    hp]
  rfl

theorem pointcloudTurn_eq_some (A : Arithmetic R) (sensor_frame : List Char)
    {data : BathymetricData} (stamp : Binary64) {k : ℕ}
    (hk : (data.soundingAt A k).isSome) :
    pointcloudTurn A sensor_frame data stamp
        (soundings A data k,
          (List.range k).map (cloudAt A sensor_frame data stamp)) k =
      some (soundings A data (k + 1),
        (List.range (k + 1)).map (cloudAt A sensor_frame data stamp)) := by
  obtain ⟨p, hp⟩ := Option.isSome_iff_exists.mp hk
  have hsucc := soundings_succ A hp
  rw [pointcloudTurn, hp, Option.map_some, List.range_succ, List.map_append,
    ← hsucc]
  rfl

/-- The callback comes to its end when the fields that it reads are there, and
then it has published a cloud in every turn, with the soundings up to it. -/
theorem pointcloudCallback_eq_some_iff (A : Arithmetic R)
    (sensor_frame : List Char) {data : BathymetricData}
    {clouds : List (PointCloud2 R)} :
    pointcloudCallback A sensor_frame data = some clouds ↔
      ∃ stamp n, data.headerField Layout.binary64 16 = some stamp ∧
        data.headerField Layout.uint32 8 = some n ∧
        (∀ i < n.toNat, (data.soundingAt A i).isSome) ∧
        clouds = (List.range n.toNat).map
          (cloudAt A sensor_frame data stamp) := by
  have hloop : ∀ stamp (n : UInt32),
      (∀ i < n.toNat, (data.soundingAt A i).isSome) →
      (List.range n.toNat).foldlM (pointcloudTurn A sensor_frame data stamp)
        ([], []) =
        some (soundings A data n.toNat,
          (List.range n.toNat).map (cloudAt A sensor_frame data stamp)) :=
    fun stamp n hall =>
      foldlM_range_eq_some (pointcloudTurn A sensor_frame data stamp)
        (fun k => (soundings A data k,
          (List.range k).map (cloudAt A sensor_frame data stamp)))
        (fun k hk => pointcloudTurn_eq_some A sensor_frame stamp (hall k hk))
  simp only [pointcloudCallback, Option.bind_eq_some_iff,
    Option.map_eq_some_iff]
  constructor
  · rintro ⟨stamp, hstamp, n, hn, s, hs, rfl⟩
    have hall : ∀ i < n.toNat, (data.soundingAt A i).isSome := by
      intro i hi
      obtain ⟨u, v, hturn⟩ := exists_turn_of_foldlM hs hi
      rw [pointcloudTurn, Option.map_eq_some_iff] at hturn
      obtain ⟨p, hp, -⟩ := hturn
      exact Option.isSome_iff_exists.mpr ⟨p, hp⟩
    obtain rfl := Option.some.inj (hs.symm.trans (hloop stamp n hall))
    exact ⟨stamp, n, hstamp, hn, hall, rfl⟩
  · rintro ⟨stamp, n, hstamp, hn, hall, rfl⟩
    exact ⟨stamp, hstamp, n, hn, _, hloop stamp n hall, rfl⟩

/-- From a complete payload one cloud is published for each detection, with
the soundings up to this detection. -/
theorem pointcloudCallback_eq_some (A : Arithmetic R)
    (sensor_frame : List Char) {data : BathymetricData}
    (hd : data.Complete) {h : BathymetricHeader}
    (hh : data.bathymetricHeader = some h) :
    pointcloudCallback A sensor_frame data =
      some ((List.range h.n.toNat).map
        (cloudAt A sensor_frame data h.time)) := by
  apply (pointcloudCallback_eq_some_iff A sensor_frame).mpr
  refine ⟨h.time, h.n,
    BathymetricData.headerField_eq hh BathymetricHeader.layout_time,
    BathymetricData.headerField_eq hh BathymetricHeader.layout_n, ?_, rfl⟩
  intro i hi
  obtain ⟨point, hpoint⟩ :=
    Option.isSome_iff_exists.mp (hd.data_isSome hh hi)
  rw [BathymetricData.soundingAt_eq A hh hpoint]
  rfl

end NorbitDriver
