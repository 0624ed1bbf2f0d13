import Mathlib.Analysis.Complex.Trigonometric
import NorbitDriver.Bytes.Binary32
import NorbitDriver.Conversions.Bathymetric
import NorbitDriver.Node.Clouds
import NorbitDriver.Types.RoundTrip

/-!
# Where the beams point

The driver turns a beam into a position twice: `pointcloudCallback` into a point
and `bathymetric2SonarRanges` into a range and a direction. The ranges are the
same, but only the direction has the cosine of the transmit angle in its third
component, so the two agree as long as that cosine makes no difference.

The direction is not a unit vector either. Its first two components are the
sines of the two angles and the third is the product of their cosines, and the
square of its length is one more than the product of the squared sines.
-/

namespace NorbitDriver

open Bytes Binary32 Conversions BathymetricData

/-- The reading of floating point values in the real numbers. -/
noncomputable def Arithmetic.real (value : Binary32 → ℝ) : Arithmetic ℝ where
  value := value
  sinf := Real.sin
  cosf := Real.cos

namespace Vector3

/-- `r` times the vector. -/
def scale {R : Type*} [Mul R] (r : R) (v : Vector3 R) : Vector3 R where
  x := r * v.x
  y := r * v.y
  z := r * v.z

def normSq (v : Vector3 ℝ) : ℝ :=
  v.x ^ 2 + v.y ^ 2 + v.z ^ 2

/-- The distance from the origin. -/
noncomputable def norm (v : Vector3 ℝ) : ℝ :=
  √v.normSq

theorem norm_scale (r : ℝ) {v : Vector3 ℝ} (hv : v.normSq = 1) :
    (v.scale r).norm = |r| := by
  have hsq : (v.scale r).normSq = r ^ 2 := by
    calc (v.scale r).normSq = r ^ 2 * v.normSq := by
          simp only [normSq, scale]
          ring
      _ = r ^ 2 := by rw [hv, mul_one]
  rw [norm, hsq, Real.sqrt_sq_eq_abs]

end Vector3

def PointXYZI.position {R : Type*} (p : PointXYZI R) : Vector3 R where
  x := p.x
  y := p.y
  z := p.z

variable {D : Type*} [Zero D] {value : Binary32 → ℝ}
  {codes : DetectionCode → D}

/-- The directions of the first `n` beams are unit vectors, so that the ranges
along them are distances. -/
structure UnitBeams (n : ℕ) (out : SonarRanges D ℝ) : Prop where
  unit : ∀ i < n, ∃ v, out.beam_unit_vec[i]? = some v ∧ v.normSq = 1
  distance : ∀ i < n, ∃ v r, out.beam_unit_vec[i]? = some v ∧
    out.ranges[i]? = some r ∧ (v.scale r).norm = |r|

theorem normSq_beamUnitVec (h : BathymetricHeader) (d : BathymetricPoint) :
    (beamUnitVec (.real value) h d).normSq =
      1 + (Real.sin (value h.tx_angle) * Real.sin (value d.angle)) ^ 2 := by
  have htx := Real.cos_sq' (value h.tx_angle)
  have hrx := Real.cos_sq' (value d.angle)
  simp only [beamUnitVec, Arithmetic.real, Vector3.normSq, mul_pow, htx, hrx]
  ring

/-- The direction of a beam is a unit vector exactly when it is not steered in
one of the two angles. -/
theorem normSq_beamUnitVec_eq_one_iff (h : BathymetricHeader)
    (d : BathymetricPoint) :
    (beamUnitVec (.real value) h d).normSq = 1 ↔
      Real.sin (value h.tx_angle) = 0 ∨ Real.sin (value d.angle) = 0 := by
  rw [normSq_beamUnitVec, add_eq_left, sq_eq_zero_iff, mul_eq_zero]

/-- The directions of a converted message are unit vectors exactly when the
sine of the transmit angle is zero, or that of each receive angle. -/
theorem unitBeams_iff {msg : BathymetricStamped} {out out' : SonarRanges D ℝ}
    (h : bathymetric2SonarRanges (.real value) codes msg out = some out') :
    UnitBeams msg.bathy.bathymetric_header.n.toNat out' ↔
      Real.sin (value msg.bathy.bathymetric_header.tx_angle) = 0 ∨
        ∀ i < msg.bathy.bathymetric_header.n.toNat,
          ∀ d, msg.bathy.detections[i]? = some d →
            Real.sin (value d.angle) = 0 := by
  constructor
  · intro hunit
    by_cases htx : Real.sin (value msg.bathy.bathymetric_header.tx_angle) = 0
    · exact Or.inl htx
    · right
      intro i hi d hd
      obtain ⟨v, hv, hone⟩ := hunit.unit i hi
      have hvec := (beam_of_bathymetric2SonarRanges h hi hd).1
      obtain rfl := Option.some.inj (hvec.symm.trans hv)
      exact ((normSq_beamUnitVec_eq_one_iff _ d).mp hone).resolve_left htx
  · intro hzero
    have hlen := ((bathymetric2SonarRanges_eq_some_iff _ codes).mp h).1
    have hone : ∀ i < msg.bathy.bathymetric_header.n.toNat,
        ∃ v r, out'.beam_unit_vec[i]? = some v ∧ out'.ranges[i]? = some r ∧
          v.normSq = 1 := by
      intro i hi
      have hd := List.getElem?_eq_getElem (hi.trans_le hlen)
      obtain ⟨hvec, hrange⟩ := beam_of_bathymetric2SonarRanges h hi hd
      refine ⟨_, _, hvec, hrange, ?_⟩
      exact (normSq_beamUnitVec_eq_one_iff _ _).mpr
        (hzero.imp_right fun hall => hall i hi _ hd)
    refine ⟨fun i hi => ?_, fun i hi => ?_⟩
    · obtain ⟨v, -, hv, -, hnorm⟩ := hone i hi
      exact ⟨v, hv, hnorm⟩
    · obtain ⟨v, r, hv, hr, hnorm⟩ := hone i hi
      exact ⟨v, r, hv, hr, Vector3.norm_scale r hnorm⟩

/-- A beam that is steered by half a radian in both angles. -/
def steeredPoint : BathymetricPoint :=
  { BathymetricPoint.layout.read [] with
    sample_number := ⟨0x40000000⟩
    angle := ⟨0x3F000000⟩
    quality_flag := 3 }

/-- A ping with the one beam, transmitted at half a radian. -/
def steered : BathymetricStamped where
  header := { stamp := ⟨0⟩, frame_id := [] }
  bathy :=
    { common_header := CommonHeader.layout.read []
      bathymetric_header :=
        { BathymetricHeader.layout.read [] with
          sound_velocity := ⟨0x3F800000⟩
          sample_rate := ⟨0x3F800000⟩
          n := 1
          tx_angle := ⟨0x3F000000⟩ }
      detections := [steeredPoint] }

/-- The number that a value stands for, as a real number. -/
def realValue (b : Binary32) : ℝ :=
  b.value

theorem steered_ranges : ∃ out : SonarRanges ℕ ℝ,
    bathymetric2SonarRanges (.real realValue) (fun _ => 1) steered .fresh =
      some out :=
  ⟨_, (bathymetric2SonarRanges_eq_some_iff _ _).mpr ⟨Nat.le_refl 1, rfl⟩⟩

theorem unitBeams_iff_steered : ∃ out : SonarRanges ℕ ℝ,
    bathymetric2SonarRanges (.real realValue) (fun _ => 1) steered .fresh =
        some out ∧
      (UnitBeams steered.bathy.bathymetric_header.n.toNat out ↔
        Real.sin (realValue steered.bathy.bathymetric_header.tx_angle) = 0 ∨
          ∀ i < steered.bathy.bathymetric_header.n.toNat,
            ∀ d, steered.bathy.detections[i]? = some d →
              Real.sin (realValue d.angle) = 0) := by
  obtain ⟨out, hout⟩ := steered_ranges
  exact ⟨out, hout, unitBeams_iff hout⟩

theorem sin_half_ne_zero : Real.sin (realValue ⟨0x3F000000⟩) ≠ 0 := by
  rw [realValue, value_half]
  exact (Real.sin_pos_of_pos_of_le_one (by norm_num) (by norm_num)).ne'

/-- Its direction is longer than a unit vector. -/
theorem steered_not_unitBeams : ∃ out : SonarRanges ℕ ℝ,
    bathymetric2SonarRanges (.real realValue) (fun _ => 1) steered .fresh =
        some out ∧
      ¬ UnitBeams steered.bathy.bathymetric_header.n.toNat out := by
  obtain ⟨out, hout⟩ := steered_ranges
  refine ⟨out, hout, fun hunit => ?_⟩
  have hvec := (beam_of_bathymetric2SonarRanges (i := 0) hout Nat.one_pos
    (rfl : _ = some steeredPoint)).1
  obtain ⟨v, hv, hone⟩ := hunit.unit 0 Nat.one_pos
  obtain rfl := Option.some.inj (hvec.symm.trans hv)
  rcases (normSq_beamUnitVec_eq_one_iff _ _).mp hone with htx | hrx
  · exact sin_half_ne_zero htx
  · exact sin_half_ne_zero hrx

/-- The points that the cloud gets of a ping are where its ranges lie along the
directions of the beams. -/
def SameGeometry (A : Arithmetic ℝ) (data : BathymetricData)
    (out : SonarRanges D ℝ) : Prop :=
  ∀ h, data.bathymetricHeader = some h → ∀ i < h.n.toNat,
    ∀ point p, data.data i = some point → sounding A h point = some p →
      ∃ v r, out.beam_unit_vec[i]? = some v ∧ out.ranges[i]? = some r ∧
        p.position = v.scale r

/-- The range, as the loop over the points of the cloud computes it. -/
theorem beamRange_eq (h : BathymetricHeader) (point : BathymetricPoint) :
    beamRange (.real value) h point =
      value point.sample_number * value h.sound_velocity /
        (2 * value h.sample_rate) := by
  simp only [beamRange, Arithmetic.real]
  ring

/-- The range of a detection in the cloud is not zero unless the sound velocity
is. -/
theorem beamRange_eq_zero_iff {h : BathymetricHeader}
    {point : BathymetricPoint} (hrate : value h.sample_rate ≠ 0)
    (hpoint : Accepted (.real value) point) :
    beamRange (.real value) h point = 0 ↔ value h.sound_velocity = 0 := by
  have hsample : value point.sample_number ≠ 0 :=
    (zero_lt_one.trans hpoint.1).ne'
  have hdouble : 2 * value h.sample_rate ≠ 0 := mul_ne_zero two_ne_zero hrate
  rw [beamRange_eq, div_eq_zero_iff, or_iff_left hdouble, mul_eq_zero,
    or_iff_right hsample]

theorem position_pointOf (h : BathymetricHeader) (point : BathymetricPoint) :
    (pointOf (.real value) h point).position =
      { x := beamRange (.real value) h point * Real.sin (value h.tx_angle)
        y := beamRange (.real value) h point * Real.sin (value point.angle)
        z := beamRange (.real value) h point *
          Real.cos (value point.angle) } := by
  rw [beamRange_eq]
  rfl

theorem scale_beamUnitVec (h : BathymetricHeader) (point : BathymetricPoint)
    (r : ℝ) :
    (beamUnitVec (.real value) h point).scale r =
      { x := r * Real.sin (value h.tx_angle)
        y := r * Real.sin (value point.angle)
        z := r * (Real.cos (value h.tx_angle) *
          Real.cos (value point.angle)) } := rfl

/-- The two positions of a detection agree when the transmit angle does not
shorten the third component. -/
theorem position_eq_iff {h : BathymetricHeader} {point : BathymetricPoint}
    (hrate : value h.sample_rate ≠ 0)
    (hpoint : Accepted (.real value) point) :
    (pointOf (.real value) h point).position =
        (beamUnitVec (.real value) h point).scale
          (beamRange (.real value) h point) ↔
      Real.cos (value h.tx_angle) = 1 ∨ value h.sound_velocity = 0 ∨
        Real.cos (value point.angle) = 0 := by
  have hrange := beamRange_eq_zero_iff hrate hpoint
  rw [position_pointOf, scale_beamUnitVec, Vector3.mk.injEq]
  generalize beamRange (.real value) h point = r at hrange ⊢
  generalize Real.cos (value h.tx_angle) = ctx
  generalize Real.cos (value point.angle) = crx
  have hdiff : r * crx - r * (ctx * crx) = r * (crx * (1 - ctx)) := by
    ring
  have hthird : r * crx = r * (ctx * crx) ↔ r = 0 ∨ crx = 0 ∨ ctx = 1 := by
    rw [← sub_eq_zero, hdiff, mul_eq_zero, mul_eq_zero, sub_eq_zero,
      eq_comm (a := (1 : ℝ))]
  simp only [true_and]
  rw [hthird, hrange]
  tauto

/-- The cloud agrees with the ranges exactly when each of its points does. -/
theorem sameGeometry_iff_beams {frame_id : List Char} {data : BathymetricData}
    {msg : BathymetricStamped} {out out' : SonarRanges D ℝ}
    (hmsg : data.getRosMsg frame_id = some msg)
    (hranges : bathymetric2SonarRanges (.real value) codes msg out =
      some out') :
    SameGeometry (.real value) data out' ↔
      ∀ i < msg.bathy.bathymetric_header.n.toNat,
        ∀ point, msg.bathy.detections[i]? = some point →
          Accepted (.real value) point →
            (pointOf (.real value) msg.bathy.bathymetric_header
                point).position =
              (beamUnitVec (.real value) msg.bathy.bathymetric_header
                point).scale (beamRange (.real value)
                  msg.bathy.bathymetric_header point) := by
  have hheader := bathymetricHeader_of_getRosMsg hmsg
  constructor
  · intro hsame i hi point hpoint haccepted
    have hdata := (data_of_getRosMsg hmsg hi).trans hpoint
    have hsounding := sounding_eq (.real value) msg.bathy.bathymetric_header
      point
    rw [if_pos haccepted] at hsounding
    obtain ⟨v, r, hv, hr, hpos⟩ :=
      hsame _ hheader i hi point _ hdata hsounding
    obtain ⟨hvec, hrange⟩ := beam_of_bathymetric2SonarRanges hranges hi hpoint
    obtain rfl := Option.some.inj (hvec.symm.trans hv)
    obtain rfl := Option.some.inj (hrange.symm.trans hr)
    exact hpos
  · intro hall h hh i hi point p hdata hsounding
    obtain rfl := Option.some.inj (hheader.symm.trans hh)
    have hpoint := (data_of_getRosMsg hmsg hi).symm.trans hdata
    obtain ⟨hvec, hrange⟩ := beam_of_bathymetric2SonarRanges hranges hi hpoint
    rw [sounding_eq, Option.ite_none_right_eq_some, Option.some.injEq]
      at hsounding
    obtain ⟨haccepted, rfl⟩ := hsounding
    exact ⟨_, _, hvec, hrange, hall i hi point hpoint haccepted⟩

/-- The cloud and the ranges of a ping describe the same geometry exactly when
the cosine of the transmit angle is one, the sound velocity is zero, or the
cosine of the angle of each accepted detection is zero. -/
theorem sameGeometry_iff {frame_id : List Char} {data : BathymetricData}
    {msg : BathymetricStamped} {out out' : SonarRanges D ℝ}
    (hmsg : data.getRosMsg frame_id = some msg)
    (hranges : bathymetric2SonarRanges (.real value) codes msg out =
      some out')
    (hrate : value msg.bathy.bathymetric_header.sample_rate ≠ 0) :
    SameGeometry (.real value) data out' ↔
      Real.cos (value msg.bathy.bathymetric_header.tx_angle) = 1 ∨
        value msg.bathy.bathymetric_header.sound_velocity = 0 ∨
        ∀ i < msg.bathy.bathymetric_header.n.toNat,
          ∀ point, msg.bathy.detections[i]? = some point →
            Accepted (.real value) point →
              Real.cos (value point.angle) = 0 := by
  rw [sameGeometry_iff_beams hmsg hranges]
  constructor
  · intro hall
    by_cases hcos :
        Real.cos (value msg.bathy.bathymetric_header.tx_angle) = 1
    · exact Or.inl hcos
    · by_cases hsound :
          value msg.bathy.bathymetric_header.sound_velocity = 0
      · exact Or.inr (Or.inl hsound)
      · refine Or.inr (Or.inr fun i hi point hpoint haccepted => ?_)
        have hpos := hall i hi point hpoint haccepted
        exact (((position_eq_iff hrate haccepted).mp hpos).resolve_left
          hcos).resolve_left hsound
  · intro hcond i hi point hpoint haccepted
    rw [position_eq_iff hrate haccepted]
    exact hcond.imp_right fun h =>
      h.imp_right fun hall => hall i hi point hpoint haccepted

/-- The payload of the steered ping. -/
def steeredPayload : BathymetricData :=
  setBits steered.bathy.common_header
    (BathymetricHeader.layout.write steered.bathy.bathymetric_header ++
      BathymetricPoint.layout.writeList steered.bathy.detections)

theorem steeredPayload_getRosMsg :
    steeredPayload.getRosMsg [] = some steered :=
  getRosMsg_write _ rfl []

theorem steered_rate :
    realValue steered.bathy.bathymetric_header.sample_rate ≠ 0 := by
  change realValue ⟨0x3F800000⟩ ≠ 0
  rw [realValue, value_one]
  norm_num

theorem sameGeometry_iff_steered : ∃ out : SonarRanges ℕ ℝ,
    bathymetric2SonarRanges (.real realValue) (fun _ => 1) steered .fresh =
        some out ∧
      (SameGeometry (.real realValue) steeredPayload out ↔
        Real.cos (realValue steered.bathy.bathymetric_header.tx_angle) = 1 ∨
          realValue steered.bathy.bathymetric_header.sound_velocity = 0 ∨
          ∀ i < steered.bathy.bathymetric_header.n.toNat,
            ∀ point, steered.bathy.detections[i]? = some point →
              Accepted (.real realValue) point →
                Real.cos (realValue point.angle) = 0) := by
  obtain ⟨out, hout⟩ := steered_ranges
  exact ⟨out, hout,
    sameGeometry_iff steeredPayload_getRosMsg hout steered_rate⟩

theorem steered_accepted : Accepted (.real realValue) steeredPoint := by
  refine ⟨?_, rfl⟩
  change (1 : ℝ) < realValue ⟨0x40000000⟩
  rw [realValue, value_two]
  norm_num

/-- Its point in the cloud is deeper than its range along its direction. -/
theorem steered_not_sameGeometry : ∃ out : SonarRanges ℕ ℝ,
    steeredPayload.getRosMsg [] = some steered ∧
      bathymetric2SonarRanges (.real realValue) (fun _ => 1) steered .fresh =
        some out ∧
      realValue steered.bathy.bathymetric_header.sample_rate ≠ 0 ∧
      ¬ SameGeometry (.real realValue) steeredPayload out := by
  obtain ⟨out, hout⟩ := steered_ranges
  refine ⟨out, steeredPayload_getRosMsg, hout, steered_rate, fun hsame => ?_⟩
  have hpos := (sameGeometry_iff_beams steeredPayload_getRosMsg hout).mp hsame
    0 Nat.one_pos steeredPoint rfl steered_accepted
  rcases (position_eq_iff steered_rate steered_accepted).mp hpos with
    hcos | hsound | hangle
  · have hsq := Real.sin_sq_add_cos_sq (realValue ⟨0x3F000000⟩)
    change Real.cos (realValue ⟨0x3F000000⟩) = 1 at hcos
    rw [hcos, one_pow, add_eq_right, sq_eq_zero_iff] at hsq
    exact sin_half_ne_zero hsq
  · change realValue ⟨0x3F800000⟩ = 0 at hsound
    rw [realValue, value_one] at hsound
    exact absurd hsound (by norm_num)
  · change Real.cos (realValue ⟨0x3F000000⟩) = 0 at hangle
    rw [realValue, value_half] at hangle
    have hpositive := Real.cos_pos_of_le_one (x := ((1 / 2 : ℚ) : ℝ))
      (by norm_num [abs_of_pos])
    exact hpositive.ne' hangle

end NorbitDriver
