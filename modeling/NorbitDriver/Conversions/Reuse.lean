import Mathlib.Algebra.Field.Rat
import NorbitDriver.Conversions.Bathymetric
import NorbitDriver.Transition.Machine

/-!
# Reused output messages

The program `norbit_msgs2acoustic_msgs` converts the messages of a bag one after
the other into output messages that it makes once. The conversions leave the
beam widths at what `resize` makes of them. These are zero in a message that
has been default-constructed, and growing and shrinking keeps them zero, so
after any number of messages a conversion gives what it gives on a new message.
-/

namespace NorbitDriver

open Bytes Containers Transition Conversions

/-- `ros::Time`. -/
structure Time where
  sec : UInt32
  nsec : UInt32
deriving DecidableEq

/-- The content of a message of the bag: of one of the types that `main` asks
for, or of another. -/
inductive BagContent (M : Type*)
  | bathymetric (i : BathymetricStamped)
  | watercolumn (wc : WaterColumnStamped)
  | other (content : M)
deriving DecidableEq

/-- `rosbag::MessageInstance`. -/
structure BagMessage (M : Type*) where
  topic : List Char
  time : Time
  content : BagContent M
deriving DecidableEq

/-- The output messages of `main`. -/
structure Outputs (D E R : Type*) where
  detections_msg : SonarDetections D R
  ranges_msg : SonarRanges D R
  wc_pointer : RawSonarImage E

/-- The content of a message of the output bag. -/
inductive WrittenContent (D E R M : Type*)
  | mb_detections (msg : SonarDetections D R)
  | sonar_ranges (msg : SonarRanges D R)
  | mb_wc (msg : RawSonarImage E)
  | message (m : BagContent M)

/-- What `main` writes to the output bag. -/
structure Written (D E R M : Type*) where
  topic : List Char
  time : Time
  content : WrittenContent D E R M

/-- The output messages before the first message of the bag. -/
def Outputs.fresh {D E R : Type*} (dtype : E) : Outputs D E R where
  detections_msg := SonarDetections.fresh
  ranges_msg := SonarRanges.fresh
  wc_pointer := RawSonarImage.fresh dtype

variable {D E R M : Type*}

/-- The message has as many beams as its header announces. -/
def BagMessage.WellFormed (m : BagMessage M) : Prop :=
  match m.content with
  | .bathymetric i =>
      i.bathy.detections.length = i.bathy.bathymetric_header.n.toNat
  | .watercolumn wc => wc.water_column.beam_directions.length =
      wc.water_column.water_column_header.n.toNat
  | .other _ => True

/-- A message that is written beside `m`, under the topic of `m` with `suffix`
behind it. -/
def BagMessage.beside (m : BagMessage M) (suffix : String)
    (content : WrittenContent D E R M) : Written D E R M where
  topic := m.topic ++ suffix.toList
  time := m.time
  content := content

/-- The message itself, as it is written. -/
def BagMessage.itself (m : BagMessage M) : Written D E R M where
  topic := m.topic
  time := m.time
  content := .message m.content

/-- The beam widths are zero. -/
def PingInfo.Blank (p : PingInfo) : Prop :=
  (∃ m, p.tx_beamwidths = List.replicate m zero) ∧
    ∃ m, p.rx_beamwidths = List.replicate m zero

/-- The beam widths of both bathymetric outputs are zero. -/
structure Outputs.Blank (s : Outputs D E R) : Prop where
  detections_msg : s.detections_msg.ping_info.Blank
  ranges_msg : s.ranges_msg.ping_info.Blank

/-- The lengths of the arrays with an entry for each beam. -/
def SonarDetections.beamCounts (msg : SonarDetections D R) : List ℕ :=
  [msg.ping_info.tx_beamwidths.length, msg.ping_info.rx_beamwidths.length,
    msg.flags.length, msg.two_way_travel_times.length, msg.tx_delays.length,
    msg.intensities.length, msg.tx_angles.length, msg.rx_angles.length]

/-- The lengths of the arrays with an entry for each beam. -/
def SonarRanges.beamCounts (msg : SonarRanges D R) : List ℕ :=
  [msg.ping_info.tx_beamwidths.length, msg.ping_info.rx_beamwidths.length,
    msg.flags.length, msg.transmit_delays.length, msg.intensities.length,
    msg.beam_unit_vec.length, msg.ranges.length]

theorem blank_nil : ∃ m, ([] : List Binary32) = List.replicate m zero :=
  ⟨0, rfl⟩

theorem resize_blank {l : List Binary32} (h : ∃ m, l = List.replicate m zero)
    (n : ℕ) : resize l n zero = List.replicate n zero := by
  obtain ⟨m, rfl⟩ := h
  exact resize_replicate m n zero

theorem Outputs.fresh_blank (dtype : E) :
    (Outputs.fresh dtype : Outputs D E R).Blank :=
  ⟨⟨blank_nil, blank_nil⟩, ⟨blank_nil, blank_nil⟩⟩

/-- With beam widths that are zero, nothing of the old message is left. -/
theorem detectionsOf_of_blank [Div R] (A : Arithmetic R)
    (codes : DetectionCode → D) (i : BathymetricStamped)
    {out : SonarDetections D R} (h : out.ping_info.Blank) :
    detectionsOf A codes i out = detectionsOf A codes i .fresh := by
  simp only [detectionsOf, SonarDetections.fresh, resize_blank h.1,
    resize_blank h.2, resize_blank blank_nil]

/-- With beam widths that are zero, nothing of the old message is left. -/
theorem rangesOf_of_blank [Mul R] [Div R] [OfScientific R]
    (A : Arithmetic R) (codes : DetectionCode → D) (i : BathymetricStamped)
    {out : SonarRanges D R} (h : out.ping_info.Blank) :
    rangesOf A codes i out = rangesOf A codes i .fresh := by
  simp only [rangesOf, SonarRanges.fresh, resize_blank h.1, resize_blank h.2,
    resize_blank blank_nil]

theorem beamCounts_detectionsOf [Div R] (A : Arithmetic R)
    (codes : DetectionCode → D) {i : BathymetricStamped}
    (hi : i.bathy.detections.length = i.bathy.bathymetric_header.n.toNat)
    (out : SonarDetections D R) :
    ∀ k ∈ (detectionsOf A codes i out).beamCounts,
      k = i.bathy.bathymetric_header.n.toNat := by
  simp [SonarDetections.beamCounts, detectionsOf, hi]

theorem beamCounts_rangesOf [Mul R] [Div R] [OfScientific R]
    (A : Arithmetic R) (codes : DetectionCode → D) {i : BathymetricStamped}
    (hi : i.bathy.detections.length = i.bathy.bathymetric_header.n.toNat)
    (out : SonarRanges D R) :
    ∀ k ∈ (rangesOf A codes i out).beamCounts,
      k = i.bathy.bathymetric_header.n.toNat := by
  simp [SonarRanges.beamCounts, rangesOf, hi]

/-- The outputs behind a bathymetric message. -/
def Outputs.convert [Mul R] [Div R] [OfScientific R] (A : Arithmetic R)
    (codes : DetectionCode → D) (i : BathymetricStamped)
    (s : Outputs D E R) : Outputs D E R :=
  { s with
    detections_msg := detectionsOf A codes i s.detections_msg
    ranges_msg := rangesOf A codes i s.ranges_msg }

/-- What `main` writes for a bathymetric message. -/
def Outputs.written (m : BagMessage M) (s : Outputs D E R) :
    List (Written D E R M) :=
  [m.beside "/mb_detections" (.mb_detections s.detections_msg),
    m.beside "/sonar_ranges" (.sonar_ranges s.ranges_msg), m.itself]

/-- Growing and shrinking keeps the beam widths zero. -/
theorem Outputs.blank_convert [Mul R] [Div R] [OfScientific R]
    {s : Outputs D E R} (h : s.Blank) (A : Arithmetic R)
    (codes : DetectionCode → D) (i : BathymetricStamped) :
    (s.convert A codes i).Blank where
  detections_msg :=
    ⟨⟨_, resize_blank h.detections_msg.1 _⟩,
      ⟨_, resize_blank h.detections_msg.2 _⟩⟩
  ranges_msg :=
    ⟨⟨_, resize_blank h.ranges_msg.1 _⟩, ⟨_, resize_blank h.ranges_msg.2 _⟩⟩

variable [Zero D] [Zero R] [Mul R] [Div R] [OfScientific R]

/-- The loop of `main` over the messages of the bag. -/
def converter (A : Arithmetic R) (codes : DetectionCode → D)
    (constants : ElementType → E) :
    Machine (Outputs D E R) (BagMessage M) (Written D E R M) where
  step s m :=
    match m.content with
    | .bathymetric i =>
        (bathymetric2SonarDetections A codes i s.detections_msg).bind
          fun detections_msg =>
            (bathymetric2SonarRanges A codes i s.ranges_msg).map
              fun ranges_msg =>
                ({ s with detections_msg, ranges_msg },
                  [m.beside "/mb_detections" (.mb_detections detections_msg),
                    m.beside "/sonar_ranges" (.sonar_ranges ranges_msg),
                    m.itself])
    | .watercolumn wc =>
        (norbitWC2RawSonarImage constants wc s.wc_pointer).map
          fun wc_pointer =>
            ({ s with wc_pointer },
              [m.beside "/mb_wc" (.mb_wc wc_pointer), m.itself])
    | .other _ => some (s, [m.itself])

/-- The outputs are what the conversions of the message make of new ones, with
an entry for each beam in every array. -/
structure ConvertedAfresh (A : Arithmetic R) (codes : DetectionCode → D)
    (i : BathymetricStamped) (s : Outputs D E R) : Prop where
  detections_msg :
    bathymetric2SonarDetections A codes i SonarDetections.fresh =
      some s.detections_msg
  ranges_msg : bathymetric2SonarRanges A codes i SonarRanges.fresh =
    some s.ranges_msg
  detections_beams : ∀ k ∈ s.detections_msg.beamCounts,
    k = i.bathy.bathymetric_header.n.toNat
  ranges_beams : ∀ k ∈ s.ranges_msg.beamCounts,
    k = i.bathy.bathymetric_header.n.toNat

theorem step_bathymetric (A : Arithmetic R) (codes : DetectionCode → D)
    (constants : ElementType → E) {topic : List Char} {time : Time}
    {i : BathymetricStamped}
    (hi : (⟨topic, time, .bathymetric i⟩ : BagMessage M).WellFormed)
    (s : Outputs D E R) :
    (converter A codes constants).step s ⟨topic, time, .bathymetric i⟩ =
      some (s.convert A codes i,
        (s.convert A codes i).written
          (⟨topic, time, .bathymetric i⟩ : BagMessage M)) := by
  have hlen := Nat.le_of_eq hi.symm
  have hdetections :=
    bathymetric2SonarDetections_eq_some A codes hlen s.detections_msg
  have hranges := (bathymetric2SonarRanges_eq_some_iff A codes).mpr
    ⟨hlen, (rfl : rangesOf A codes i s.ranges_msg = _)⟩
  simp only [converter, hdetections, hranges, Option.bind_some,
    Option.map_some]
  rfl

/-- A conversion into outputs with beam widths that are zero is a conversion
into new ones. -/
theorem Outputs.Blank.convertedAfresh {s : Outputs D E R} (h : s.Blank)
    (A : Arithmetic R) (codes : DetectionCode → D) {i : BathymetricStamped}
    (hi : i.bathy.detections.length = i.bathy.bathymetric_header.n.toNat) :
    ConvertedAfresh A codes i (s.convert A codes i) := by
  have hlen := Nat.le_of_eq hi.symm
  refine ⟨?_, ?_, ?_, ?_⟩
  · rw [bathymetric2SonarDetections_eq_some A codes hlen, Outputs.convert,
      detectionsOf_of_blank A codes i h.detections_msg]
  · rw [bathymetric2SonarRanges_eq_some_iff, Outputs.convert,
      rangesOf_of_blank A codes i h.ranges_msg]
    exact ⟨hlen, rfl⟩
  · exact beamCounts_detectionsOf A codes hi _
  · exact beamCounts_rangesOf A codes hi _

theorem step_watercolumn (A : Arithmetic R) (codes : DetectionCode → D)
    (constants : ElementType → E) {topic : List Char} {time : Time}
    {wc : WaterColumnStamped}
    (hwc : (⟨topic, time, .watercolumn wc⟩ : BagMessage M).WellFormed)
    (s : Outputs D E R) :
    (converter A codes constants).step s ⟨topic, time, .watercolumn wc⟩ =
      some ({ s with wc_pointer := imageOf constants wc s.wc_pointer },
        [(⟨topic, time, .watercolumn wc⟩ : BagMessage M).beside "/mb_wc"
            (.mb_wc (imageOf constants wc s.wc_pointer)),
          BagMessage.itself ⟨topic, time, .watercolumn wc⟩]) := by
  simp only [converter,
    norbitWC2RawSonarImage_eq_some constants hwc s.wc_pointer,
    Option.map_some]

/-- Every message of the bag with as many beams as it announces is converted,
and keeps the beam widths zero. -/
theorem exists_step (A : Arithmetic R) (codes : DetectionCode → D)
    (constants : ElementType → E) {s : Outputs D E R} {m : BagMessage M}
    (h : s.Blank) (hm : m.WellFormed) :
    ∃ t os, (converter A codes constants).step s m = some (t, os) ∧
      t.Blank := by
  obtain ⟨topic, time, content⟩ := m
  cases content with
  | bathymetric i =>
      exact ⟨_, _, step_bathymetric A codes constants hm s,
        Outputs.blank_convert h A codes i⟩
  | watercolumn wc =>
      exact ⟨_, _, step_watercolumn A codes constants hm s,
        ⟨h.detections_msg, h.ranges_msg⟩⟩
  | other content => exact ⟨s, _, rfl, h⟩

/-- After any messages of the bag, the conversions of a bathymetric message
leave in the reused outputs what they make of new ones. -/
theorem convertedAfresh_of_run (A : Arithmetic R) (codes : DetectionCode → D)
    (constants : ElementType → E) (dtype : E) {before : List (BagMessage M)}
    {topic : List Char} {time : Time} {i : BathymetricStamped}
    (h : ∀ m ∈ before ++ [⟨topic, time, .bathymetric i⟩], m.WellFormed) :
    ∃ s os, (converter A codes constants).run (Outputs.fresh dtype)
        (before ++ [⟨topic, time, .bathymetric i⟩]) =
          some (s, os ++ s.written
            (⟨topic, time, .bathymetric i⟩ : BagMessage M)) ∧
      ConvertedAfresh A codes i s := by
  obtain ⟨t, os, hrun, ht⟩ := (converter A codes constants).exists_run
    (fun s m => exists_step A codes constants) (Outputs.fresh_blank dtype)
    (fun m hm => h m (List.mem_append_left _ hm))
  have hi := h _ (List.mem_append_right before List.mem_cons_self)
  refine ⟨t.convert A codes i, os, ?_, ht.convertedAfresh A codes hi⟩
  apply (converter A codes constants).run_append_of_eq_some hrun
  rw [Machine.run_singleton, step_bathymetric A codes constants hi]

/-- A message of silence with `n` detections. -/
def silent (n : UInt32) : BathymetricStamped where
  header := { stamp := ⟨0⟩, frame_id := [] }
  bathy :=
    { common_header := CommonHeader.layout.read []
      bathymetric_header := { BathymetricHeader.layout.read [] with n }
      detections :=
        List.replicate n.toNat (BathymetricPoint.layout.read []) }

/-- An output that has shrunk from two beams to one. -/
theorem convertedAfresh_of_run_shrunk :
    ∃ s os, (converter (⟨fun _ => 0, id, id⟩ : Arithmetic ℚ)
        (fun _ => (1 : ℕ)) (fun _ => (2 : ℕ))).run (Outputs.fresh 0)
        ([⟨['a'], ⟨7, 0⟩, .bathymetric (silent 2)⟩,
            ⟨['b'], ⟨7, 0⟩, .other true⟩] ++
          [⟨['a'], ⟨8, 0⟩, .bathymetric (silent 1)⟩]) =
          some (s, os ++ s.written
            (⟨['a'], ⟨8, 0⟩, .bathymetric (silent 1)⟩ : BagMessage Bool)) ∧
      ConvertedAfresh ⟨fun _ => 0, id, id⟩ (fun _ => 1) (silent 1) s := by
  apply convertedAfresh_of_run
  intro m hm
  simp only [List.cons_append, List.nil_append, List.mem_cons,
    List.not_mem_nil, or_false] at hm
  rcases hm with rfl | rfl | rfl
  · exact List.length_replicate
  · trivial
  · exact List.length_replicate

end NorbitDriver
