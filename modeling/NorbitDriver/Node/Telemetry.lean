import NorbitDriver.Connection.Slices
import NorbitDriver.Node.Clouds
import NorbitDriver.Node.Lifecycle
import NorbitDriver.Node.Publications
import NorbitDriver.Types.Pings

/-!
# From the sonar to the topics

What a node publishes of the pings that a sonar sends. The bytes of the pings go
over TCP, are read by the receive loop in any order of the handlers of the
connection, decoded, and converted in the callbacks that have been registered.
What comes out is stated over the pings themselves: every message of every
intact ping, in the order of the pings and of the callbacks, and nothing of the
frames that were damaged on the way.
-/

namespace NorbitDriver

open Bytes Conversions Transition

/-- What the callbacks convert and publish with. -/
structure Publishing (D E R : Type*) where
  arithmetic : Arithmetic R
  codes : DetectionCode → D
  constants : ElementType → E
  dtype : E
  sensor_frame : List Char

/-- A message on one of the topics of the node. -/
inductive Publication (D E R : Type*)
  | pointcloud (msg : PointCloud2 R)
  | detections (msg : SonarDetections D R)
  | ranges (msg : SonarRanges D R)
  | bathymetry (msg : BathymetricStamped)
  | norbit_watercolumn (msg : WaterColumnStamped)
  | watercolumn (msg : RawSonarImage E)

/-- A frame as it arrives: one of a ping, or one whose payload has been damaged
on the way. -/
inductive Arrival
  | ping (p : Ping)
  | damaged (f : Frame) (supported : f.Supported) (damage : ¬ f.Intact)

namespace Arrival

def frame : Arrival → Frame
  | ping p => p.frame
  | damaged f _ _ => f

theorem frame_supported (a : Arrival) : a.frame.Supported := by
  cases a with
  | ping p => exact p.frame_supported
  | damaged f supported _ => exact supported

theorem frame_headed (a : Arrival) (h : a.frame.Intact) : a.frame.Headed := by
  cases a with
  | ping p => exact p.frame_headed
  | damaged f _ damage => exact absurd h damage

/-- The callbacks that are invoked for a frame, with the data of its ping. -/
def invocations {β ω : Type*} (cbs : Callbacks β ω) :
    Arrival → List (Invocation β ω)
  | ping (.bathymetric p) =>
      cbs.bathymetry_callbacks.map fun cb => .bathymetry cb p.data
  | ping (.water_column p) =>
      cbs.watercolumn_callbacks.map fun cb => .watercolumn cb p.data
  | damaged _ _ _ => []

theorem invocations_frame {β ω : Type*} (cbs : Callbacks β ω) (a : Arrival) :
    a.frame.invocations cbs = a.invocations cbs := by
  cases a with
  | ping p =>
      have hcalls : p.frame.invocations cbs = p.frame.calls cbs :=
        if_pos p.frame_intact
      refine hcalls.trans ?_
      cases p with
      | bathymetric p => exact if_pos p.frame_type
      | water_column p =>
          have htype : p.frame.commonHeader.type ≠ 1 := by
            rw [p.frame_type]
            decide
          exact if_neg htype
  | damaged f _ damage => exact if_neg damage

end Arrival

namespace Publishing

variable {D E R : Type*} (P : Publishing D E R)

/-- What the callback of a water-column publisher publishes. -/
def onWaterColumn (data : WaterColumnData) :
    WaterColumnPublisher → Option (List (Publication D E R))
  | .norbit_watercolumn =>
      (norbitWatercolumnCallback P.sensor_frame data).map
        fun msg => [.norbit_watercolumn msg]
  | .watercolumn =>
      (watercolumnCallback P.constants P.dtype P.sensor_frame data).map
        fun msg => [.watercolumn msg]

/-- What is to be published of a water-column ping. -/
def ofWaterColumn (p : WaterColumnPing) :
    WaterColumnPublisher → List (Publication D E R)
  | .norbit_watercolumn => [.norbit_watercolumn (p.message P.sensor_frame)]
  | .watercolumn =>
      [.watercolumn (imageOf P.constants (p.message P.sensor_frame)
        (.fresh P.dtype))]

theorem onWaterColumn_data (p : WaterColumnPing) (k : WaterColumnPublisher) :
    P.onWaterColumn p.data k = some (P.ofWaterColumn p k) := by
  have hmsg := p.getRosMsg_data P.sensor_frame
  cases k with
  | norbit_watercolumn =>
      rw [onWaterColumn, norbitWatercolumnCallback, hmsg]
      rfl
  | watercolumn =>
      have hlen : (p.message P.sensor_frame).water_column.beam_directions.length
          = p.water_column_header.n.toNat := p.directions
      have hconvert := norbitWC2RawSonarImage_eq_some P.constants hlen
        (.fresh P.dtype)
      rw [onWaterColumn, watercolumnCallback, hmsg, Option.bind_some, hconvert]
      rfl

variable [Field R] [LinearOrder R]

/-- The clouds that are to be published of a bathymetric ping: one for each
detection, with the accepted ones of the detections up to it. -/
def cloudsOf (p : BathymetricPing) : List (PointCloud2 R) :=
  (List.range p.detections.length).map fun i =>
    { header := (p.message P.sensor_frame).header
      points := ((p.detections.take (i + 1)).filter
        (Accepted P.arithmetic)).map
          (pointOf P.arithmetic p.bathymetric_header) }

theorem pointcloudCallback_data (p : BathymetricPing) :
    pointcloudCallback P.arithmetic P.sensor_frame p.data =
      some (P.cloudsOf p) := by
  rw [pointcloudCallback_eq_some P.arithmetic P.sensor_frame p.data_complete
    p.bathymetricHeader_data, ← p.count, cloudsOf]
  congr 1
  apply List.map_congr_left
  intro i hi
  have hsoundings := soundings_eq P.arithmetic p.bathymetricHeader_data
    (fun _ hj => p.data_data hj) (List.mem_range.mp hi)
  rw [cloudAt, hsoundings]
  rfl

variable [Zero D] [OfScientific R]

/-- What the callback of a bathymetry publisher publishes. -/
def onBathymetry (data : BathymetricData) :
    BathymetryPublisher → Option (List (Publication D E R))
  | .pointcloud =>
      (pointcloudCallback P.arithmetic P.sensor_frame data).map
        fun clouds => clouds.map .pointcloud
  | .detections =>
      (detectionsCallback P.arithmetic P.codes P.sensor_frame data).map
        fun msg => [.detections msg]
  | .ranges =>
      (rangesCallback P.arithmetic P.codes P.sensor_frame data).map
        fun msg => [.ranges msg]
  | .bathymetry =>
      (bathymetryCallback P.sensor_frame data).map fun msg => [.bathymetry msg]

/-- What is to be published of a bathymetric ping. -/
def ofBathymetric (p : BathymetricPing) :
    BathymetryPublisher → List (Publication D E R)
  | .pointcloud => (P.cloudsOf p).map .pointcloud
  | .detections =>
      [.detections (detectionsOf P.arithmetic P.codes
        (p.message P.sensor_frame) .fresh)]
  | .ranges =>
      [.ranges (rangesOf P.arithmetic P.codes
        (p.message P.sensor_frame) .fresh)]
  | .bathymetry => [.bathymetry (p.message P.sensor_frame)]

theorem onBathymetry_data (p : BathymetricPing) (k : BathymetryPublisher) :
    P.onBathymetry p.data k = some (P.ofBathymetric p k) := by
  have hmsg := p.getRosMsg_data P.sensor_frame
  have hlen : (p.message P.sensor_frame).bathy.bathymetric_header.n.toNat ≤
      (p.message P.sensor_frame).bathy.detections.length :=
    Nat.le_of_eq p.count.symm
  cases k with
  | pointcloud =>
      rw [onBathymetry, P.pointcloudCallback_data]
      rfl
  | detections =>
      have hconvert := bathymetric2SonarDetections_eq_some P.arithmetic
        P.codes hlen .fresh
      rw [onBathymetry, detectionsCallback, hmsg, Option.bind_some, hconvert]
      rfl
  | ranges =>
      have hconvert := (bathymetric2SonarRanges_eq_some_iff P.arithmetic
        P.codes).mpr
          ⟨hlen, (rfl : rangesOf P.arithmetic P.codes _ .fresh = _)⟩
      rw [onBathymetry, rangesCallback, hmsg, Option.bind_some, hconvert]
      rfl
  | bathymetry =>
      rw [onBathymetry, bathymetryCallback, hmsg]
      rfl

/-- What one call of a callback publishes. -/
def onInvocation :
    Invocation BathymetryPublisher WaterColumnPublisher →
      Option (List (Publication D E R))
  | .bathymetry k data => P.onBathymetry data k
  | .watercolumn k data => P.onWaterColumn data k

/-- What a sequence of calls publishes. A call that reads behind its data or
stores behind an array has no defined outcome. -/
def published :
    List (Invocation BathymetryPublisher WaterColumnPublisher) →
      Option (List (Publication D E R))
  | [] => some []
  | inv :: invs => do
      let front ← P.onInvocation inv
      let back ← published invs
      return front ++ back

/-- What is to be published of a frame. -/
def ofArrival (cbs : Callbacks BathymetryPublisher WaterColumnPublisher) :
    Arrival → List (Publication D E R)
  | .ping (.bathymetric p) =>
      cbs.bathymetry_callbacks.flatMap (P.ofBathymetric p)
  | .ping (.water_column p) =>
      cbs.watercolumn_callbacks.flatMap (P.ofWaterColumn p)
  | .damaged _ _ _ => []

theorem published_append
    {invs invs' : List (Invocation BathymetryPublisher WaterColumnPublisher)}
    {ps ps' : List (Publication D E R)} (h : P.published invs = some ps)
    (h' : P.published invs' = some ps') :
    P.published (invs ++ invs') = some (ps ++ ps') := by
  induction invs generalizing ps with
  | nil =>
      cases h
      exact h'
  | cons inv invs ih =>
      obtain ⟨front, hfront, htail⟩ := Option.bind_eq_some_iff.mp h
      obtain ⟨back, hback, hps⟩ := Option.bind_eq_some_iff.mp htail
      cases hps
      rw [List.cons_append, published, hfront, ih hback, List.append_assoc]
      rfl

/-- Calls that each publish something publish it in their order. -/
theorem published_map {κ : Type*} {f : κ → List (Publication D E R)}
    {inv : κ → Invocation BathymetryPublisher WaterColumnPublisher}
    (h : ∀ k, P.onInvocation (inv k) = some (f k)) (ks : List κ) :
    P.published (ks.map inv) = some (ks.flatMap f) := by
  induction ks with
  | nil => rfl
  | cons k ks ih =>
      rw [List.map_cons, published, h, ih]
      rfl

theorem published_invocations
    (cbs : Callbacks BathymetryPublisher WaterColumnPublisher) (a : Arrival) :
    P.published (a.invocations cbs) = some (P.ofArrival cbs a) := by
  cases a with
  | ping p =>
      cases p with
      | bathymetric p => exact P.published_map (P.onBathymetry_data p) _
      | water_column p => exact P.published_map (P.onWaterColumn_data p) _
  | damaged f _ _ => rfl

/-- What the calls for a sequence of frames publish. -/
theorem published_frames
    (cbs : Callbacks BathymetryPublisher WaterColumnPublisher)
    (arrivals : List Arrival) :
    P.published ((arrivals.map Arrival.frame).flatMap (Frame.invocations cbs)) =
      some (arrivals.flatMap (P.ofArrival cbs)) := by
  induction arrivals with
  | nil => rfl
  | cons a arrivals ih =>
      rw [List.map_cons, List.flatMap_cons, Arrival.invocations_frame,
        List.flatMap_cons]
      exact P.published_append (P.published_invocations cbs a) ih

/-- In every order of the handlers of a connection, as long as headers are
received whole, each data socket has published the messages of the frames that
it has read, and of each of them exactly what is to be published of its ping. -/
theorem telemetry
    (cbs : Callbacks BathymetryPublisher WaterColumnPublisher)
    (cmd_timeout : ℤ) (arrivals : DataSock → List Arrival) (cmd : CmdSocket)
    {es : List NorbitConnection.Event} {s' : NorbitConnection.State}
    {os : List (NorbitConnection.Action BathymetryPublisher
      WaterColumnPublisher)}
    (hrun : (NorbitConnection.machine cbs cmd_timeout).run
      (NorbitConnection.start
        (fun k => Frame.stream ((arrivals k).map Arrival.frame)) cmd) es =
          some (s', os))
    (hfull : ∀ k, ∀ r ∈ NorbitConnection.receives k es, r = Receive.full)
    (k : DataSock) :
    (NorbitConnection.receives k es).length ≤ (arrivals k).length ∧
      P.published (DataSocket.invoked (NorbitConnection.dataActions k os)) =
        some (((arrivals k).take (NorbitConnection.receives k es).length).flatMap
          (P.ofArrival cbs)) := by
  have hk := NorbitConnection.run_data hrun k
  have hreplicate : NorbitConnection.receives k es =
      List.replicate (NorbitConnection.receives k es).length Receive.full :=
    List.eq_replicate_of_mem (hfull k)
  have hs : ∀ f ∈ (arrivals k).map Arrival.frame, f.Supported :=
    List.forall_mem_map.mpr fun a _ => a.frame_supported
  have hh : ∀ f ∈ (arrivals k).map Arrival.frame, f.Intact → f.Headed :=
    List.forall_mem_map.mpr fun a _ => a.frame_headed
  rw [hreplicate] at hk
  obtain ⟨hle, -, hinvoked⟩ := DataSocket.run_frames_take cbs hs hh hk
  rw [List.length_map] at hle
  rw [hinvoked, ← List.map_take]
  exact ⟨hle, P.published_frames cbs _⟩

/-- A ping with one detection, and a frame without a payload whose CRC is not
that of its payload. -/
def pingAndDamaged : List Arrival :=
  [.ping (.bathymetric
      { version := 8
        reserved := 0
        bathymetric_header :=
          { BathymetricHeader.layout.read [] with n := 1 }
        detections := [BathymetricPoint.layout.read []]
        supported := Or.inr rfl
        count := rfl
        fits := by decide }),
    .damaged
      { header := [0xEF, 0xBE, 0xAD, 0xDE, 1, 0, 0, 0, 24, 0, 0, 0, 8, 0, 0, 0,
          0, 0, 0, 0, 1, 0, 0, 0]
        payload := []
        header_length := rfl
        preable := by decide
        size := by decide }
      (by decide) (by decide)]

/-- Two callbacks of the bathymetry. -/
def twoCallbacks : Callbacks BathymetryPublisher WaterColumnPublisher :=
  ⟨[.ranges, .bathymetry], []⟩

/-- Publishing with one value for every float. -/
def plainPublishing : Publishing ℕ ℕ ℚ where
  arithmetic := ⟨fun _ => 0, id, id⟩
  codes := fun _ => 0
  constants := fun _ => 0
  dtype := 0
  sensor_frame := []

/-- On both sockets a ping and a damaged frame. -/
theorem telemetry_pingAndDamaged :
    ∃ s' os, (NorbitConnection.machine twoCallbacks 5).run
        (NorbitConnection.start
          (fun _ => Frame.stream (pingAndDamaged.map Arrival.frame))
          CmdSocket.closed)
        (NorbitConnection.frameEvents
          fun _ => pingAndDamaged.map Arrival.frame) = some (s', os) ∧
      ∀ k, plainPublishing.published
          (DataSocket.invoked (NorbitConnection.dataActions k os)) =
        some (pingAndDamaged.flatMap
          (plainPublishing.ofArrival twoCallbacks)) := by
  obtain ⟨s', os, hrun⟩ := NorbitConnection.exists_run_frameEvents
    twoCallbacks 5 (fun _ => pingAndDamaged.map Arrival.frame)
    CmdSocket.closed
    (fun _ => List.forall_mem_map.mpr fun a _ => a.frame_supported)
    (fun _ => List.forall_mem_map.mpr fun a _ => a.frame_headed)
  refine ⟨s', os, hrun, fun k => ?_⟩
  have hreceives := NorbitConnection.receives_frameEvents
    (fun _ => pingAndDamaged.map Arrival.frame)
  obtain ⟨-, hpublished⟩ := telemetry plainPublishing twoCallbacks 5
    (fun _ => pingAndDamaged) CmdSocket.closed hrun
    (fun k r hr => by
      rw [hreceives] at hr
      exact List.eq_of_mem_replicate hr) k
  rw [hreceives, List.length_replicate, List.length_map, List.take_length]
    at hpublished
  exact hpublished

end Publishing

end NorbitDriver
