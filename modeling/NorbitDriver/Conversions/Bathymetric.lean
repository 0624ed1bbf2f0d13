import Mathlib.Algebra.Group.Defs
import NorbitDriver.Conversions.RawSonarImage
import NorbitDriver.Interfaces.Arithmetic

/-!
# Bathymetric messages

`bathymetric2SonarRanges` and `bathymetric2SonarDetections` overwrite their
output with the contents of a bathymetric message. Both index the detections up
to the number in the header without a check, so they are `Option`s, which are
`none` when there are fewer detections.

Every array of the output is resized, and all but the beam widths are then
assigned entry by entry. So the output does not depend on what was in it before,
apart from the beam widths that were kept.
-/

namespace NorbitDriver

open Bytes Containers

namespace Conversions

variable {D R : Type*} [Zero D] [Zero R] [Div R]

/-- The flag of a detection, in both conversions. -/
def detectionFlag (codes : DetectionCode → D) (detection : BathymetricPoint) :
    DetectionFlag D :=
  if detection.quality_flag = 3 then { flag := codes .DETECT_OK }
  else { flag := codes .DETECT_BAD_SONAR }

section Ranges

variable [Mul R] [OfScientific R]

/-- The direction of a beam. -/
def beamUnitVec (A : Arithmetic R) (h : BathymetricHeader)
    (detection : BathymetricPoint) : Vector3 R :=
  let tx := A.value h.tx_angle
  let rx := A.value detection.angle
  { x := A.sinf tx
    y := A.sinf rx
    z := A.cosf tx * A.cosf rx }

/-- The range of a detection. -/
def beamRange (A : Arithmetic R) (h : BathymetricHeader)
    (detection : BathymetricPoint) : R :=
  let sos := A.value h.sound_velocity
  let twtt := A.value detection.sample_number / A.value h.sample_rate
  0.5 * twtt * sos

/-- One turn of the loop of `bathymetric2SonarRanges`. -/
def rangesBeam (A : Arithmetic R) (codes : DetectionCode → D)
    (h : BathymetricHeader) (detections : List BathymetricPoint)
    (out : SonarRanges D R) (i : ℕ) : Option (SonarRanges D R) :=
  detections[i]?.map fun detection =>
    { out with
      flags := out.flags.set i (detectionFlag codes detection)
      transmit_delays := out.transmit_delays.set i zero
      intensities := out.intensities.set i detection.intensity
      beam_unit_vec := out.beam_unit_vec.set i (beamUnitVec A h detection)
      ranges := out.ranges.set i (beamRange A h detection) }

def bathymetric2SonarRanges (A : Arithmetic R) (codes : DetectionCode → D)
    (msg : BathymetricStamped) (out : SonarRanges D R) :
    Option (SonarRanges D R) :=
  let h := msg.bathy.bathymetric_header
  let num_beams := h.n.toNat
  let out :=
    { out with
      header := msg.header
      ping_info :=
        { frequency := h.tx_freq
          sound_speed := h.sound_velocity
          tx_beamwidths := resize out.ping_info.tx_beamwidths num_beams zero
          rx_beamwidths := resize out.ping_info.rx_beamwidths num_beams zero }
      flags := resize out.flags num_beams { flag := 0 }
      transmit_delays := resize out.transmit_delays num_beams zero
      intensities := resize out.intensities num_beams zero
      beam_unit_vec :=
        resize out.beam_unit_vec num_beams { x := 0, y := 0, z := 0 }
      ranges := resize out.ranges num_beams 0 }
  (List.range num_beams).foldlM (rangesBeam A codes h msg.bathy.detections) out

/-- The message that `bathymetric2SonarRanges` makes: only the lengths of the
beam widths are set. -/
def rangesOf (A : Arithmetic R) (codes : DetectionCode → D)
    (msg : BathymetricStamped) (out : SonarRanges D R) : SonarRanges D R :=
  let h := msg.bathy.bathymetric_header
  let detections := msg.bathy.detections.take h.n.toNat
  { header := msg.header
    ping_info :=
      { frequency := h.tx_freq
        sound_speed := h.sound_velocity
        tx_beamwidths := resize out.ping_info.tx_beamwidths h.n.toNat zero
        rx_beamwidths := resize out.ping_info.rx_beamwidths h.n.toNat zero }
    flags := detections.map (detectionFlag codes)
    transmit_delays := detections.map fun _ => zero
    intensities := detections.map BathymetricPoint.intensity
    beam_unit_vec := detections.map (beamUnitVec A h)
    ranges := detections.map (beamRange A h) }

/-- The output after `k` turns of the loop. -/
def rangesTurn (A : Arithmetic R) (codes : DetectionCode → D)
    (msg : BathymetricStamped) (out : SonarRanges D R) (k : ℕ) :
    SonarRanges D R :=
  let n := msg.bathy.bathymetric_header.n.toNat
  let last := rangesOf A codes msg out
  { last with
    flags := copied k last.flags (resize out.flags n { flag := 0 })
    transmit_delays :=
      copied k last.transmit_delays (resize out.transmit_delays n zero)
    intensities := copied k last.intensities (resize out.intensities n zero)
    beam_unit_vec := copied k last.beam_unit_vec
      (resize out.beam_unit_vec n { x := 0, y := 0, z := 0 })
    ranges := copied k last.ranges (resize out.ranges n 0) }

theorem rangesBeam_rangesTurn (A : Arithmetic R) (codes : DetectionCode → D)
    {msg : BathymetricStamped} (out : SonarRanges D R) {k : ℕ}
    (hk : k < msg.bathy.bathymetric_header.n.toNat)
    (hlen : k < msg.bathy.detections.length) :
    rangesBeam A codes msg.bathy.bathymetric_header msg.bathy.detections
        (rangesTurn A codes msg out k) k =
      some (rangesTurn A codes msg out (k + 1)) := by
  have hd := List.getElem?_eq_getElem hlen
  rw [rangesBeam, hd, Option.map_some]
  simp only [rangesTurn, rangesOf]
  rw [set_copied_map (detectionFlag codes) hd hk,
    set_copied_map (fun _ => zero) hd hk,
    set_copied_map BathymetricPoint.intensity hd hk,
    set_copied_map (beamUnitVec A msg.bathy.bathymetric_header) hd hk,
    set_copied_map (beamRange A msg.bathy.bathymetric_header) hd hk]

/-- After the last turn the arrays hold nothing of their earlier contents. -/
theorem rangesTurn_last (A : Arithmetic R) (codes : DetectionCode → D)
    {msg : BathymetricStamped} (out : SonarRanges D R)
    (hlen : msg.bathy.bathymetric_header.n.toNat ≤
      msg.bathy.detections.length) :
    rangesTurn A codes msg out msg.bathy.bathymetric_header.n.toNat =
      rangesOf A codes msg out := by
  simp only [rangesTurn, rangesOf, copied_map _ hlen]

/-- A message is converted to `SonarRanges` exactly when it has as many
detections as it announces. -/
theorem bathymetric2SonarRanges_eq_some_iff (A : Arithmetic R)
    (codes : DetectionCode → D) {msg : BathymetricStamped}
    {out out' : SonarRanges D R} :
    bathymetric2SonarRanges A codes msg out = some out' ↔
      msg.bathy.bathymetric_header.n.toNat ≤ msg.bathy.detections.length ∧
        rangesOf A codes msg out = out' := by
  have hconverts : msg.bathy.bathymetric_header.n.toNat ≤
      msg.bathy.detections.length →
      bathymetric2SonarRanges A codes msg out =
        some (rangesOf A codes msg out) := by
    intro hlen
    have hloop := foldlM_range_eq_some
      (rangesBeam A codes msg.bathy.bathymetric_header msg.bathy.detections)
      (rangesTurn A codes msg out)
      (fun k hk => rangesBeam_rangesTurn A codes out hk (hk.trans_le hlen))
    rwa [rangesTurn_last A codes out hlen] at hloop
  constructor
  · intro h
    have hlen : msg.bathy.bathymetric_header.n.toNat ≤
        msg.bathy.detections.length := by
      by_contra hlt
      obtain ⟨u, v, hv⟩ := exists_turn_of_foldlM h (Nat.lt_of_not_le hlt)
      obtain ⟨d, hd, -⟩ := Option.map_eq_some_iff.mp hv
      exact absurd (List.getElem?_eq_some_iff.mp hd).1 (lt_irrefl _)
    rw [hconverts hlen, Option.some.injEq] at h
    exact ⟨hlen, h⟩
  · rintro ⟨hlen, rfl⟩
    exact hconverts hlen

/-- The direction and the range of an announced beam. -/
theorem beam_of_bathymetric2SonarRanges {A : Arithmetic R}
    {codes : DetectionCode → D} {msg : BathymetricStamped}
    {out out' : SonarRanges D R}
    (h : bathymetric2SonarRanges A codes msg out = some out') {i : ℕ}
    (hi : i < msg.bathy.bathymetric_header.n.toNat)
    {detection : BathymetricPoint}
    (hd : msg.bathy.detections[i]? = some detection) :
    out'.beam_unit_vec[i]? =
        some (beamUnitVec A msg.bathy.bathymetric_header detection) ∧
      out'.ranges[i]? =
        some (beamRange A msg.bathy.bathymetric_header detection) := by
  obtain ⟨-, rfl⟩ := (bathymetric2SonarRanges_eq_some_iff A codes).mp h
  constructor
  · simp only [rangesOf, List.getElem?_map, List.getElem?_take_of_lt hi, hd,
      Option.map_some]
  · simp only [rangesOf, List.getElem?_map, List.getElem?_take_of_lt hi, hd,
      Option.map_some]

end Ranges

/-- One turn of the loop of `bathymetric2SonarDetections`. -/
def detectionsBeam (A : Arithmetic R) (codes : DetectionCode → D)
    (h : BathymetricHeader) (detections : List BathymetricPoint)
    (out : SonarDetections D R) (i : ℕ) : Option (SonarDetections D R) :=
  detections[i]?.map fun detection =>
    { out with
      flags := out.flags.set i (detectionFlag codes detection)
      two_way_travel_times := out.two_way_travel_times.set i
        (A.value detection.sample_number / A.value h.sample_rate)
      tx_delays := out.tx_delays.set i zero
      intensities := out.intensities.set i detection.intensity
      tx_angles := out.tx_angles.set i h.tx_angle
      rx_angles := out.rx_angles.set i detection.angle }

def bathymetric2SonarDetections (A : Arithmetic R)
    (codes : DetectionCode → D) (msg : BathymetricStamped)
    (out : SonarDetections D R) : Option (SonarDetections D R) :=
  let h := msg.bathy.bathymetric_header
  let num_beams := h.n.toNat
  let out :=
    { out with
      header := msg.header
      ping_info :=
        { frequency := h.tx_freq
          sound_speed := h.sound_velocity
          tx_beamwidths := resize out.ping_info.tx_beamwidths num_beams zero
          rx_beamwidths := resize out.ping_info.rx_beamwidths num_beams zero }
      flags := resize out.flags num_beams { flag := 0 }
      two_way_travel_times := resize out.two_way_travel_times num_beams 0
      tx_delays := resize out.tx_delays num_beams zero
      intensities := resize out.intensities num_beams zero
      tx_angles := resize out.tx_angles num_beams zero
      rx_angles := resize out.rx_angles num_beams zero }
  (List.range num_beams).foldlM
    (detectionsBeam A codes h msg.bathy.detections) out

/-- The message that `bathymetric2SonarDetections` makes. -/
def detectionsOf (A : Arithmetic R) (codes : DetectionCode → D)
    (msg : BathymetricStamped) (out : SonarDetections D R) :
    SonarDetections D R :=
  let h := msg.bathy.bathymetric_header
  let detections := msg.bathy.detections.take h.n.toNat
  { header := msg.header
    ping_info :=
      { frequency := h.tx_freq
        sound_speed := h.sound_velocity
        tx_beamwidths := resize out.ping_info.tx_beamwidths h.n.toNat zero
        rx_beamwidths := resize out.ping_info.rx_beamwidths h.n.toNat zero }
    flags := detections.map (detectionFlag codes)
    two_way_travel_times := detections.map fun detection =>
      A.value detection.sample_number / A.value h.sample_rate
    tx_delays := detections.map fun _ => zero
    intensities := detections.map BathymetricPoint.intensity
    tx_angles := detections.map fun _ => h.tx_angle
    rx_angles := detections.map BathymetricPoint.angle }

/-- The output after `k` turns of the loop. -/
def detectionsTurn (A : Arithmetic R) (codes : DetectionCode → D)
    (msg : BathymetricStamped) (out : SonarDetections D R) (k : ℕ) :
    SonarDetections D R :=
  let n := msg.bathy.bathymetric_header.n.toNat
  let last := detectionsOf A codes msg out
  { last with
    flags := copied k last.flags (resize out.flags n { flag := 0 })
    two_way_travel_times := copied k last.two_way_travel_times
      (resize out.two_way_travel_times n 0)
    tx_delays := copied k last.tx_delays (resize out.tx_delays n zero)
    intensities := copied k last.intensities (resize out.intensities n zero)
    tx_angles := copied k last.tx_angles (resize out.tx_angles n zero)
    rx_angles := copied k last.rx_angles (resize out.rx_angles n zero) }

theorem detectionsBeam_detectionsTurn (A : Arithmetic R)
    (codes : DetectionCode → D) {msg : BathymetricStamped}
    (out : SonarDetections D R) {k : ℕ}
    (hk : k < msg.bathy.bathymetric_header.n.toNat)
    (hlen : k < msg.bathy.detections.length) :
    detectionsBeam A codes msg.bathy.bathymetric_header msg.bathy.detections
        (detectionsTurn A codes msg out k) k =
      some (detectionsTurn A codes msg out (k + 1)) := by
  have hd := List.getElem?_eq_getElem hlen
  rw [detectionsBeam, hd, Option.map_some]
  simp only [detectionsTurn, detectionsOf]
  rw [set_copied_map (detectionFlag codes) hd hk,
    set_copied_map (fun detection => A.value detection.sample_number /
      A.value msg.bathy.bathymetric_header.sample_rate) hd hk,
    set_copied_map (fun _ => zero) hd hk,
    set_copied_map BathymetricPoint.intensity hd hk,
    set_copied_map (fun _ => msg.bathy.bathymetric_header.tx_angle) hd hk,
    set_copied_map BathymetricPoint.angle hd hk]

theorem detectionsTurn_last (A : Arithmetic R) (codes : DetectionCode → D)
    {msg : BathymetricStamped} (out : SonarDetections D R)
    (hlen : msg.bathy.bathymetric_header.n.toNat ≤
      msg.bathy.detections.length) :
    detectionsTurn A codes msg out msg.bathy.bathymetric_header.n.toNat =
      detectionsOf A codes msg out := by
  simp only [detectionsTurn, detectionsOf, copied_map _ hlen]

/-- A message that has as many detections as it announces is converted to
`SonarDetections`. -/
theorem bathymetric2SonarDetections_eq_some (A : Arithmetic R)
    (codes : DetectionCode → D) {msg : BathymetricStamped}
    (hlen : msg.bathy.bathymetric_header.n.toNat ≤
      msg.bathy.detections.length) (out : SonarDetections D R) :
    bathymetric2SonarDetections A codes msg out =
      some (detectionsOf A codes msg out) := by
  have hloop := foldlM_range_eq_some
    (detectionsBeam A codes msg.bathy.bathymetric_header msg.bathy.detections)
    (detectionsTurn A codes msg out)
    (fun k hk => detectionsBeam_detectionsTurn A codes out hk
      (hk.trans_le hlen))
  rwa [detectionsTurn_last A codes out hlen] at hloop

end Conversions

end NorbitDriver
