import NorbitDriver.Conversions.Reuse

/-!
# The output bag

What `norbit_msgs2acoustic_msgs` writes for a whole bag, compared with what it
writes for each message when that is the only one. The messages of the bag are
written as they are, in their order. The bathymetric conversions leave nothing
behind. The image keeps the code of its element type when the next message has
one that is not listed, so the output is that of the single messages exactly
when no such message comes behind a listed one with a code that is not the one
of a new image.
-/

namespace NorbitDriver

open Bytes Containers Transition Conversions

variable {D E R M : Type*}

/-- The message of the bag that is written as it is. -/
def Written.asMessage : Written D E R M → Option (BagMessage M)
  | ⟨topic, time, .message content⟩ => some ⟨topic, time, content⟩
  | _ => none

/-- The messages of the bag that have been written. -/
def Written.messages (os : List (Written D E R M)) : List (BagMessage M) :=
  os.filterMap Written.asMessage

/-- A water-column message whose element type is not listed. -/
def BagContent.Unlisted : BagContent M → Prop
  | watercolumn wc =>
      wc.water_column.water_column_header.dtype ∉ WaterColumnHeader.dtypes
  | _ => False

/-- The code of the element type that a message leaves in the image. -/
def BagContent.leaves (constants : ElementType → E) (code : E) :
    BagContent M → E
  | watercolumn wc => imageDtype constants
      wc.water_column.water_column_header.dtype code
  | _ => code

/-- Whenever the element type of a message is not listed, the code that is left
in the image, `code` at first, is the one of a new image. -/
def Settled (constants : ElementType → E) (dtype : E) :
    E → List (BagMessage M) → Prop
  | _, [] => True
  | code, m :: ms => (m.content.Unlisted → code = dtype) ∧
      Settled constants dtype (m.content.leaves constants code) ms

/-- The code of a listed element type does not depend on the old one. -/
theorem imageDtype_of_mem (constants : ElementType → E) {dtype : UInt32}
    (h : dtype ∈ WaterColumnHeader.dtypes) (old old' : E) :
    imageDtype constants dtype old = imageDtype constants dtype old' := by
  simp only [WaterColumnHeader.dtypes, List.mem_cons, List.not_mem_nil,
    or_false] at h
  rcases h with rfl | rfl | rfl | rfl | rfl | rfl | rfl | rfl | rfl | rfl
  all_goals rfl

theorem imageDtype_of_not_mem (constants : ElementType → E) {dtype : UInt32}
    (h : dtype ∉ WaterColumnHeader.dtypes) (old : E) :
    imageDtype constants dtype old = old := by
  simp only [WaterColumnHeader.dtypes, List.mem_cons, List.not_mem_nil,
    or_false, not_or] at h
  simp only [imageDtype, h, if_false]

/-- The outputs with beam widths that are zero, and the code that is left in the
image. -/
structure Outputs.Leaves (code : E) (s : Outputs D E R) : Prop where
  blank : s.Blank
  wc_blank : s.wc_pointer.ping_info.Blank
  dtype : s.wc_pointer.image.dtype = code

theorem Outputs.fresh_leaves (dtype : E) :
    (Outputs.fresh dtype : Outputs D E R).Leaves dtype :=
  ⟨Outputs.fresh_blank dtype, ⟨blank_nil, blank_nil⟩, rfl⟩

/-- The image of a message is that of a new one when the code is the same. -/
theorem imageOf_eq_iff (constants : ElementType → E)
    (wc : WaterColumnStamped) {out : RawSonarImage E} (dtype : E)
    (h : out.ping_info.Blank) :
    imageOf constants wc out = imageOf constants wc (.fresh dtype) ↔
      ((BagContent.watercolumn wc : BagContent M).Unlisted →
        out.image.dtype = dtype) := by
  have hsame : imageOf constants wc out =
      imageOf constants wc (.fresh out.image.dtype) := by
    simp only [imageOf, RawSonarImage.fresh, resize_blank h.1,
      resize_blank h.2, resize_blank blank_nil]
  rw [hsame]
  constructor
  · intro heq hunlisted
    have hcode := congrArg (fun image => image.image.dtype) heq
    change imageDtype _ _ _ = imageDtype _ _ _ at hcode
    rw [imageDtype_of_not_mem constants hunlisted,
      imageDtype_of_not_mem constants hunlisted] at hcode
    exact hcode
  · intro hcode
    by_cases hlisted : wc.water_column.water_column_header.dtype ∈
        WaterColumnHeader.dtypes
    · rw [imageOf, imageOf, imageDtype_of_mem constants hlisted _
        (RawSonarImage.fresh dtype).image.dtype]
      rfl
    · rw [hcode hlisted]

variable [Zero D] [Zero R] [Mul R] [Div R] [OfScientific R]

/-- What the program writes for a message that is alone in its bag. -/
def BagMessage.alone (A : Arithmetic R) (codes : DetectionCode → D)
    (constants : ElementType → E) (dtype : E) (m : BagMessage M) :
    List (Written D E R M) :=
  (((converter A codes constants).step (Outputs.fresh dtype) m).map
    Prod.snd).getD []

/-- Behind outputs with beam widths that are zero, a bathymetric message is
written as it is alone. -/
theorem written_bathymetric (A : Arithmetic R) (codes : DetectionCode → D)
    (constants : ElementType → E) (dtype : E) {s : Outputs D E R}
    (hs : s.Blank) {topic : List Char} {time : Time} {i : BathymetricStamped}
    (hi : (⟨topic, time, .bathymetric i⟩ : BagMessage M).WellFormed) :
    (s.convert A codes i).written
        (⟨topic, time, .bathymetric i⟩ : BagMessage M) =
      BagMessage.alone A codes constants dtype
        ⟨topic, time, .bathymetric i⟩ := by
  have hfresh := step_bathymetric A codes constants hi
    (Outputs.fresh dtype : Outputs D E R)
  rw [BagMessage.alone, hfresh, Outputs.written, Outputs.convert,
    detectionsOf_of_blank A codes i hs.detections_msg,
    rangesOf_of_blank A codes i hs.ranges_msg]
  rfl

/-- A water-column message that is alone is written behind its image. -/
theorem alone_watercolumn (A : Arithmetic R) (codes : DetectionCode → D)
    (constants : ElementType → E) (dtype : E) {topic : List Char} {time : Time}
    {wc : WaterColumnStamped}
    (hwc : (⟨topic, time, .watercolumn wc⟩ : BagMessage M).WellFormed) :
    BagMessage.alone A codes constants dtype
        (⟨topic, time, .watercolumn wc⟩ : BagMessage M) =
      [BagMessage.beside ⟨topic, time, .watercolumn wc⟩ "/mb_wc"
          (.mb_wc (imageOf constants wc (.fresh dtype))),
        BagMessage.itself ⟨topic, time, .watercolumn wc⟩] := by
  rw [BagMessage.alone, step_watercolumn A codes constants hwc]
  rfl

/-- One message: what is written for it, and what it leaves behind. -/
theorem exists_step_leaves (A : Arithmetic R) (codes : DetectionCode → D)
    (constants : ElementType → E) (dtype : E) {code : E}
    {s : Outputs D E R} {m : BagMessage M} (hs : s.Leaves code)
    (hm : m.WellFormed) :
    ∃ t os, (converter A codes constants).step s m = some (t, os) ∧
      t.Leaves (m.content.leaves constants code) ∧
      Written.messages os = [m] ∧
      os.length = (m.alone A codes constants dtype).length ∧
      (os = m.alone A codes constants dtype ↔
        (m.content.Unlisted → code = dtype)) := by
  obtain ⟨topic, time, content⟩ := m
  cases content with
  | bathymetric i =>
      have hwritten := written_bathymetric A codes constants dtype hs.blank hm
      refine ⟨_, _, step_bathymetric A codes constants hm s,
        ⟨Outputs.blank_convert hs.blank A codes i, hs.wc_blank, hs.dtype⟩,
        rfl, congrArg List.length hwritten, ?_⟩
      exact iff_of_true hwritten fun h => absurd h id
  | watercolumn wc =>
      have halone := alone_watercolumn A codes constants dtype hm
      refine ⟨_, _, step_watercolumn A codes constants hm s,
        ⟨⟨hs.blank.detections_msg, hs.blank.ranges_msg⟩,
          ⟨⟨_, resize_blank hs.wc_blank.1 _⟩,
            ⟨_, resize_blank hs.wc_blank.2 _⟩⟩, ?_⟩, rfl, ?_, ?_⟩
      · change imageDtype _ _ _ = imageDtype _ _ _
        rw [hs.dtype]
      · rw [halone]
        rfl
      · have himage :=
          imageOf_eq_iff (M := M) constants wc dtype hs.wc_blank
        rw [hs.dtype] at himage
        rw [halone, ← himage]
        simp [BagMessage.beside]
  | other content =>
      exact ⟨s, _, rfl, hs, rfl, rfl, iff_of_true rfl fun h => absurd h id⟩

/-- A bag of messages that have as many beams as they announce is converted. -/
theorem exists_run_leaves (A : Arithmetic R) (codes : DetectionCode → D)
    (constants : ElementType → E) (dtype : E) {code : E}
    {s : Outputs D E R} {bag : List (BagMessage M)} (hs : s.Leaves code)
    (h : ∀ m ∈ bag, m.WellFormed) :
    ∃ t os, (converter A codes constants).run s bag = some (t, os) ∧
      Written.messages os = bag ∧
      os.length =
        (bag.flatMap (BagMessage.alone A codes constants dtype)).length ∧
      (os = bag.flatMap (BagMessage.alone A codes constants dtype) ↔
        Settled constants dtype code bag) := by
  induction bag generalizing s code with
  | nil => exact ⟨s, [], rfl, rfl, rfl, iff_of_true rfl trivial⟩
  | cons m bag ih =>
      obtain ⟨u, os, hstep, hu, hm, hlen, hfirst⟩ := exists_step_leaves A codes
        constants dtype hs (h m List.mem_cons_self)
      obtain ⟨t, ps, hrun, hbag, hlens, hrest⟩ :=
        ih hu fun m' hm' => h m' (List.mem_cons_of_mem m hm')
      refine ⟨t, os ++ ps,
        (converter A codes constants).run_cons_eq_some_iff.mpr
          ⟨u, os, ps, hstep, hrun, rfl⟩, ?_, ?_, ?_⟩
      · rw [Written.messages, List.filterMap_append]
        exact congrArg₂ (· ++ ·) hm hbag
      · rw [List.flatMap_cons, List.length_append, List.length_append, hlen,
          hlens]
      · rw [List.flatMap_cons, Settled, ← hfirst, ← hrest]
        constructor
        · intro heq
          exact List.append_inj heq hlen
        · rintro ⟨rfl, rfl⟩
          rfl

/-- The output bag: the messages of the input bag in their order, and what is
written for the single messages exactly when no code is left over that matters
to one of them. -/
theorem converted_bag (A : Arithmetic R) (codes : DetectionCode → D)
    (constants : ElementType → E) (dtype : E) {bag : List (BagMessage M)}
    (h : ∀ m ∈ bag, m.WellFormed) :
    ∃ s os, (converter A codes constants).run (Outputs.fresh dtype) bag =
        some (s, os) ∧
      Written.messages os = bag ∧
      (os = bag.flatMap (BagMessage.alone A codes constants dtype) ↔
        Settled constants dtype dtype bag) := by
  obtain ⟨s, os, hrun, hbag, -, hiff⟩ := exists_run_leaves A codes constants
    dtype (Outputs.fresh_leaves dtype) h
  exact ⟨s, os, hrun, hbag, hiff⟩

/-- A water-column message without beams, of element type `dtype`. -/
def beamless (dtype : UInt32) : WaterColumnStamped where
  header := { stamp := ⟨0⟩, frame_id := [] }
  water_column :=
    { common_header := CommonHeader.layout.read []
      water_column_header :=
        { WaterColumnHeader.layout.read [] with n := 0, dtype }
      pixel_data := []
      beam_directions := [] }

/-- An element type that is not listed, behind one that is. -/
def unlistedBag : List (BagMessage Bool) :=
  [⟨['a'], ⟨7, 0⟩, .bathymetric (silent 1)⟩,
    ⟨['b'], ⟨7, 5⟩, .watercolumn (beamless 2)⟩,
    ⟨['c'], ⟨8, 0⟩, .other true⟩,
    ⟨['b'], ⟨8, 5⟩, .watercolumn (beamless 8)⟩]

theorem converted_bag_unlisted :
    ∃ s os, (converter (⟨fun _ => 0, id, id⟩ : Arithmetic ℚ)
        (fun _ => (1 : ℕ)) (fun _ => (2 : ℕ))).run (Outputs.fresh 0)
        unlistedBag = some (s, os) ∧
      Written.messages os = unlistedBag ∧
      (os = unlistedBag.flatMap (BagMessage.alone
            (⟨fun _ => 0, id, id⟩ : Arithmetic ℚ) (fun _ => (1 : ℕ))
            (fun _ => (2 : ℕ)) 0) ↔
        Settled (fun _ => 2) 0 0 unlistedBag) := by
  apply converted_bag
  intro m hm
  simp only [unlistedBag, List.mem_cons, List.not_mem_nil, or_false] at hm
  rcases hm with rfl | rfl | rfl | rfl
  · exact List.length_replicate
  · rfl
  · trivial
  · rfl

end NorbitDriver
