import NorbitDriver.Connection.Slices
import NorbitDriver.Node.Pointers
import NorbitDriver.Node.Projection

/-!
# What is registered is what is read and called

The connection that a node holds has the callbacks of the publishers that the
last accepted configuration has enabled. So its data sockets are read exactly as
long as there is such a publisher for them and no handler of theirs has thrown,
and a message is passed to the callbacks of exactly the publishers of its type
that have been enabled, to each once and in the order in which they were made.
When the address is refused behind the first callback, there is that callback
alone, and it never runs.
-/

namespace NorbitDriver

open Transition

namespace Publisher

def asBathymetry : Publisher → Option BathymetryPublisher
  | bathymetry p => some p
  | watercolumn _ => none

def asWaterColumn : Publisher → Option WaterColumnPublisher
  | bathymetry _ => none
  | watercolumn p => some p

/-- The callbacks of publishers that have been added in this order. -/
def callbacksOf (ps : List Publisher) :
    Callbacks BathymetryPublisher WaterColumnPublisher where
  bathymetry_callbacks := ps.filterMap asBathymetry
  watercolumn_callbacks := ps.filterMap asWaterColumn

/-- The publisher is one for messages of this type. -/
def reads (type : UInt32) : Publisher → Bool
  | bathymetry _ => type = TypeId.bathymetric.value
  | watercolumn _ => type = TypeId.watercolum.value

/-- Adding the callbacks of publishers. -/
theorem added_map (ps : List Publisher) :
    Registration.added (ps.map added) = callbacksOf ps := by
  rw [Registration.added, callbacksOf, List.filterMap_map, List.filterMap_map]
  congr 2
  · funext p
    cases p with
    | _ => rfl
  · funext p
    cases p with
    | _ => rfl

theorem wanted_callbacksOf (ps : List Publisher) (k : DataSock) :
    Registration.wanted (callbacksOf ps) k = ps.any (·.sock = k) := by
  induction ps with
  | nil =>
      cases k with
      | _ => rfl
  | cons p ps ih =>
      rw [List.any_cons, ← ih]
      cases k with
      | _ =>
          cases p with
          | _ => rfl

theorem map_bathymetry_filterMap (ps : List Publisher) :
    (ps.filterMap asBathymetry).map bathymetry =
      ps.filter (reads TypeId.bathymetric.value) := by
  induction ps with
  | nil => rfl
  | cons p ps ih =>
      cases p with
      | bathymetry p => exact congrArg (List.cons (bathymetry p)) ih
      | watercolumn p => exact ih

theorem map_watercolumn_filterMap (ps : List Publisher) :
    (ps.filterMap asWaterColumn).map watercolumn =
      ps.filter (reads TypeId.watercolum.value) := by
  induction ps with
  | nil => rfl
  | cons p ps ih =>
      cases p with
      | bathymetry p => exact ih
      | watercolumn p => exact congrArg (List.cons (watercolumn p)) ih

end Publisher

namespace Message

/-- A valid message has the reader of its type. -/
theorem reader_of_setBits {header : CommonHeader} {bits : List UInt8}
    {m : Message} (h : setBits header bits = some (true, m)) :
    (m.commonHeader.type = TypeId.bathymetric.value → m.bathy.isSome) ∧
      (m.commonHeader.type = TypeId.watercolum.value →
        m.water_column.isSome) := by
  have hvalid := msgValid_of_setBits h
  simp only [setBits, hvalid, Option.bind_eq_bind, Option.bind_some, if_true,
    Option.pure_def] at h
  split_ifs at h with hbathy hwc
  · cases h
    exact ⟨fun _ => rfl, fun hwc => absurd (hbathy.symm.trans hwc) (by decide)⟩
  · obtain ⟨_, -, hm⟩ := Option.bind_eq_some_iff.mp h
    cases hm
    exact ⟨fun h => absurd h hbathy, fun _ => rfl⟩
  · cases h
    exact ⟨fun h => absurd h hbathy, fun h => absurd h hwc⟩

end Message

/-- A message is dispatched to the callbacks of its type, in their order. -/
theorem Publisher.ofInvocation_dispatch {header : CommonHeader}
    {bits : List UInt8} {m : Message}
    (hvalid : Message.headerValid header = true)
    (h : Message.setBits header bits = some (true, m)) (ps : List Publisher) :
    ((callbacksOf ps).dispatch m).map ofInvocation =
      ps.filter (reads m.commonHeader.type) := by
  have hreader := Message.reader_of_setBits h
  rw [← (Message.fields_of_setBits h).1] at hvalid
  rcases Message.type_of_headerValid hvalid with htype | htype
  · obtain ⟨data, hdata⟩ := Option.isSome_iff_exists.mp (hreader.1 htype)
    have hcalls : (callbacksOf ps).dispatch m =
        (callbacksOf ps).bathyCallback data := by
      simp [Callbacks.dispatch, htype, hdata, TypeId.value]
    have hmap := map_bathymetry_filterMap ps
    rw [hcalls, Callbacks.bathyCallback, List.map_map, htype]
    exact hmap
  · obtain ⟨data, hdata⟩ := Option.isSome_iff_exists.mp (hreader.2 htype)
    have hcalls : (callbacksOf ps).dispatch m =
        (callbacksOf ps).wcCallback data := by
      simp [Callbacks.dispatch, htype, hdata, TypeId.value]
    have hmap := map_watercolumn_filterMap ps
    rw [hcalls, Callbacks.wcCallback, List.map_map, htype]
    exact hmap

/-- One if a handler of the data socket throws in the event. -/
def NodeEvent.failure (k : DataSock) : NodeEvent → ℕ
  | connected (.data j) false => if j = k then 1 else 0
  | payloadFails j _ => if j = k then 1 else 0
  | _ => 0

namespace Registration

variable {β ω : Type}

theorem added_append (es fs : List (RegistrationEvent β ω)) :
    added (es ++ fs) =
      ⟨(added es).bathymetry_callbacks ++ (added fs).bathymetry_callbacks,
        (added es).watercolumn_callbacks ++
          (added fs).watercolumn_callbacks⟩ := by
  rw [added, List.filterMap_append, List.filterMap_append]
  rfl

/-- The handlers add no callbacks. -/
theorem added_handlers (gs : List NodeEvent) :
    added (gs.flatMap NodeEvent.handlers) = ⟨[], []⟩ := by
  induction gs with
  | nil => rfl
  | cons e gs ih =>
      have hnone : added e.handlers = ⟨[], []⟩ := by
        cases e with
        | connected k ok =>
            cases k with
            | cmd => cases ok with
              | _ => rfl
            | data k => cases ok with
              | _ => rfl
        | _ => rfl
      rw [List.flatMap_cons, added_append, ih, hnone]
      rfl

theorem added_projected (ps : List Publisher) (gs : List NodeEvent) :
    added (ps.map Publisher.added ++ gs.flatMap NodeEvent.handlers) =
      Publisher.callbacksOf ps := by
  rw [added_append, added_handlers, Publisher.added_map, List.append_nil,
    List.append_nil]

/-- The first event of a run, with the failures that it adds. -/
theorem tally_cons {address_ok : Bool} {r t : Registration β ω}
    {e : RegistrationEvent β ω} {es : List (RegistrationEvent β ω)}
    {os : List (RegistrationAction β ω)}
    (h : (machine address_ok).run r (e :: es) = some (t, os)) (k : DataSock) :
    ∃ u o o', Step address_ok r e u o ∧
      (machine address_ok).run u es = some (t, o') ∧
      (machine address_ok).tally (failure k) r (e :: es) =
        failure k r e + (machine address_ok).tally (failure k) u es := by
  obtain ⟨u, o, o', hstep, hes, -⟩ :=
    (machine address_ok).run_cons_eq_some_iff.mp h
  exact ⟨u, o, o', step_of_machine hstep, hes,
    (machine address_ok).tally_cons_of_step hstep es⟩

/-- The handlers of an event fail when the event does. -/
theorem tally_handlers {address_ok : Bool} {r t : NodeRegistration}
    {e : NodeEvent} {os : List NodeRegistrationAction} (hr : r.reading = none)
    (h : (machine address_ok).run r e.handlers = some (t, os)) (k : DataSock) :
    t.reading = none ∧
      (machine address_ok).tally (failure k) r e.handlers = e.failure k := by
  have hquiet : e.handlers = [] → e.failure k = 0 → t.reading = none ∧
      (machine address_ok).tally (failure k) r e.handlers = e.failure k := by
    intro he hf
    rw [he, Machine.run_nil_eq_some_iff] at h
    rw [he, hf, ← h.1]
    exact ⟨hr, rfl⟩
  cases e with
  | connected j ok =>
      cases j with
      | cmd => cases ok with
        | _ => exact hquiet rfl rfl
      | data j =>
          cases ok with
          | true =>
              obtain ⟨_, _, _, spin, h, hspin⟩ := tally_cons h k
              obtain ⟨_, _, _, step, h, hstep⟩ := tally_cons h k
              obtain ⟨_, _, _, ends, h, hends⟩ := tally_cons h k
              rw [NodeEvent.handlers, hspin, hstep, hends]
              cases spin
              cases step
              cases ends
              cases h
              exact ⟨hr, by simp [failure, NodeEvent.failure, Machine.tally]⟩
          | false =>
              obtain ⟨_, _, _, spin, h, hspin⟩ := tally_cons h k
              obtain ⟨_, _, _, step, h, hstep⟩ := tally_cons h k
              rw [NodeEvent.handlers, hspin, hstep]
              cases spin
              cases step
              cases h
              exact ⟨hr, by simp [failure, NodeEvent.failure, Machine.tally]⟩
  | received j bytes unread =>
      obtain ⟨_, _, _, spin, h, hspin⟩ := tally_cons h k
      obtain ⟨_, _, _, step, h, hstep⟩ := tally_cons h k
      obtain ⟨_, _, _, read, h, hread⟩ := tally_cons h k
      obtain ⟨_, _, _, ends, h, hends⟩ := tally_cons h k
      rw [NodeEvent.handlers, hspin, hstep, hread, hends]
      cases spin
      cases step
      cases read
      cases ends
      cases h
      exact ⟨rfl, rfl⟩
  | payloadFails j bytes =>
      obtain ⟨_, _, _, spin, h, hspin⟩ := tally_cons h k
      obtain ⟨_, _, _, step, h, hstep⟩ := tally_cons h k
      obtain ⟨_, _, _, fails, h, hfails⟩ := tally_cons h k
      rw [NodeEvent.handlers, hspin, hstep, hfails]
      cases spin
      cases step
      cases fails
      cases h
      exact ⟨rfl, by simp [failure, NodeEvent.failure, Machine.tally, busy]⟩
  | _ => exact hquiet rfl rfl

theorem tally_added {address_ok : Bool} {r t : NodeRegistration}
    {ps : List Publisher} {os : List NodeRegistrationAction}
    (hr : r.reading = none)
    (h : (machine address_ok).run r (ps.map Publisher.added) = some (t, os))
    (k : DataSock) :
    t.reading = none ∧ (machine address_ok).tally (failure k) r
      (ps.map Publisher.added) = 0 := by
  induction ps generalizing r os with
  | nil =>
      rw [List.map_nil, Machine.run_nil_eq_some_iff] at h
      rw [← h.1]
      exact ⟨hr, rfl⟩
  | cons p ps ih =>
      rw [List.map_cons] at h ⊢
      obtain ⟨u, _, _, step, hps, htally⟩ := tally_cons h k
      have hu : u.reading = none ∧ failure k r p.added = 0 := by
        cases p with
        | _ =>
            cases step
            exact ⟨hr, rfl⟩
      rw [htally, hu.2, Nat.zero_add]
      exact ih hu.1 hps

/-- The failures of a connection that is projected are those of the node. -/
theorem failures_projected {address_ok : Bool} {ps : List Publisher}
    {gs : List NodeEvent} {r : NodeRegistration}
    {os : List NodeRegistrationAction}
    (h : (machine address_ok).run start
      (ps.map Publisher.added ++ gs.flatMap NodeEvent.handlers) =
        some (r, os)) (k : DataSock) :
    failures address_ok k
        (ps.map Publisher.added ++ gs.flatMap NodeEvent.handlers) =
      (gs.map (NodeEvent.failure k)).sum := by
  obtain ⟨u, o, o', hps, hgs, -⟩ :=
    (machine address_ok).run_append_eq_some_iff.mp h
  obtain ⟨hu, hadded⟩ := tally_added rfl hps k
  have hhandlers := (machine address_ok).tally_flatMap NodeEvent.handlers
    (J := fun r => r.reading = none)
    (fun _ _ _ _ hr hrun => tally_handlers hr hrun k) hu hgs
  rw [failures, (machine address_ok).tally_append hps, hadded, hhandlers,
    Nat.zero_add]

end Registration

namespace Node

/-- The callbacks of the connection are those of the registered publishers. -/
theorem Configured.callbacks {address_ok : List Char → Bool} {t : Node}
    {es gs : List NodeEvent} {os qs : List NodeAction} {p : Parameters}
    {c : NodeConnection} (hconfigured : Configured address_ok es os p gs qs)
    (h : (machine address_ok).run start es = some (t, os))
    (held : t.connection_ = some c) :
    c.callbacks =
      Publisher.callbacksOf (p.registered (address_ok p.sonar_ip)) := by
  obtain ⟨r, ps, hrun, hprojects, -⟩ := hconfigured.projected h held
  rw [← hprojects.callbacks, Registration.run_callbacks hrun,
    Registration.added_projected]
  rfl

/-- The operations on a data socket of the connection and its failures since the
configuration. -/
theorem Configured.chains {address_ok : List Char → Bool} {t : Node}
    {es gs : List NodeEvent} {os qs : List NodeAction} {p : Parameters}
    {c : NodeConnection} (hconfigured : Configured address_ok es os p gs qs)
    (h : (machine address_ok).run start es = some (t, os))
    (held : t.connection_ = some c) (k : DataSock) :
    (c.sockets_ (.data k)).connecting + (c.sockets_ (.data k)).reading +
        (gs.map (NodeEvent.failure k)).sum =
      if address_ok p.sonar_ip && p.enabled.any (·.sock = k) then 1 else 0 := by
  obtain ⟨r, ps, hrun, hprojects, -⟩ := hconfigured.projected h held
  have hchains := Registration.run_chains hrun k
  have hbusy : r.busy k = 0 := by
    rw [Registration.busy, hprojects.reading]
    rfl
  rw [Registration.failures_projected hrun, Registration.added_projected,
    Publisher.wanted_callbacksOf, Registration.chains, hprojects.socket,
    hbusy] at hchains
  cases hok : address_ok p.sonar_ip with
  | true =>
      rw [hok] at hchains
      exact hchains
  | false =>
      rw [hok] at hchains
      exact hchains

/-- In every run a data socket of the connection is connected or read exactly as
long as the last accepted configuration enables a publisher for it and no
handler of it has thrown since. -/
theorem run_reads {address_ok : List Char → Bool} {t : Node}
    {es : List NodeEvent} {os : List NodeAction} {c : NodeConnection}
    (h : (machine address_ok).run start es = some (t, os))
    (held : t.connection_ = some c) :
    ∃ p gs qs, Configured address_ok es os p gs qs ∧ ∀ k,
      (c.sockets_ (.data k)).connecting + (c.sockets_ (.data k)).reading +
          (gs.map (NodeEvent.failure k)).sum =
        if address_ok p.sonar_ip && p.enabled.any (·.sock = k) then 1
        else 0 := by
  obtain ⟨p, gs, qs, hconfigured⟩ := run_configured h held
  exact ⟨p, gs, qs, hconfigured, hconfigured.chains h held⟩

theorem run_reads_unreachable :
    ∃ t os c, (machine fun _ => true).run start unreachable = some (t, os) ∧
      t.connection_ = some c ∧
      ∃ p gs qs, Configured (fun _ => true) unreachable os p gs qs ∧ ∀ k,
        (c.sockets_ (.data k)).connecting + (c.sockets_ (.data k)).reading +
            (gs.map (NodeEvent.failure k)).sum =
          if true && p.enabled.any (·.sock = k) then 1 else 0 := by
  have hrun : ∃ t os c, (machine fun _ => true).run start unreachable =
      some (t, os) ∧ t.connection_ = some c := ⟨_, _, _, rfl, rfl⟩
  obtain ⟨t, os, c, hrun, held⟩ := hrun
  exact ⟨t, os, c, hrun, held, run_reads hrun held⟩

/-- A connection that reads has the callbacks of the enabled publishers. -/
theorem callbacks_of_reading {address_ok : List Char → Bool} {t : Node}
    {es : List NodeEvent} {os : List NodeAction} {c : NodeConnection}
    {k : DataSock} (h : (machine address_ok).run start es = some (t, os))
    (held : t.connection_ = some c)
    (hk : 0 < (c.sockets_ (.data k)).reading) :
    ∃ p, lastConfigured es = some p ∧
      c.callbacks = Publisher.callbacksOf p.enabled := by
  obtain ⟨p, gs, qs, hconfigured⟩ := run_configured h held
  have hcallbacks := hconfigured.callbacks h held
  have hchains := hconfigured.chains h held k
  cases hok : address_ok p.sonar_ip with
  | true =>
      rw [hok] at hcallbacks
      exact ⟨p, hconfigured.last, hcallbacks⟩
  | false =>
      rw [hok] at hchains
      simp only [Bool.false_and, Bool.false_eq_true, if_false] at hchains
      omega

/-- What `processHdrMsg` dispatches goes to the callbacks of its type. -/
theorem ofInvocation_processed {hdr unread rest : List UInt8}
    {msg : Option Message} (h : processHdrMsg hdr unread = .ok (msg, rest))
    (ps : List Publisher) :
    (msg.toList.flatMap (Publisher.callbacksOf ps).dispatch).map
        Publisher.ofInvocation =
      msg.toList.flatMap fun m =>
        ps.filter (Publisher.reads m.commonHeader.type) := by
  cases msg with
  | none => rfl
  | some m =>
      rcases processHdrMsg_eq_ok_iff.mp h with
        ⟨-, hnone, -⟩ | ⟨hvalid, -, -, valid, m', hset, hm⟩
      · exact absurd hnone (Option.some_ne_none m)
      · cases valid with
        | false => exact absurd hm (Option.some_ne_none m)
        | true =>
            obtain rfl : m = m' := Option.some.inj hm
            have hdispatch := Publisher.ofInvocation_dispatch hvalid hset ps
            rw [Option.toList_some, List.flatMap_singleton,
              List.flatMap_singleton]
            exact hdispatch

/-- Which callbacks a receive operation calls, in every run: with the message
that it brings, if it brings one, those of the publishers of its type that the
last accepted configuration has enabled, each once and in their order. -/
theorem run_called {address_ok : List Char → Bool} {t : Node}
    {es : List NodeEvent} {k : DataSock} {bytes unread : List UInt8}
    {os : List NodeAction}
    (h : (machine address_ok).run start (es ++ [.received k bytes unread]) =
      some (t, os)) :
    ∃ p msg rest ps, lastConfigured es = some p ∧
      processHdrMsg (headerBuffer bytes) unread = .ok (msg, rest) ∧
      (machine address_ok).run start es = some (t, ps) ∧
      os = ps ++ .socketUsed (.data k) true ::
        (msg.toList.flatMap fun m =>
          p.enabled.filter (Publisher.reads m.commonHeader.type)).map
            (.publisherUsed · true) := by
  obtain ⟨n, ps, o, hrun, hlast, rfl⟩ :=
    (machine address_ok).run_append_eq_some_iff.mp h
  rw [Machine.run_singleton] at hlast
  have hn := run_holds hrun
  obtain ⟨hgone, hlast⟩ := Option.ite_none_left_eq_some.mp hlast
  obtain ⟨c, held, hlast⟩ := Option.bind_eq_some_iff.mp hlast
  obtain ⟨-, hlast⟩ := Option.ite_none_right_eq_some.mp hlast
  obtain ⟨hguard, hlast⟩ := Option.ite_none_right_eq_some.mp hlast
  simp only [Bool.and_eq_true, decide_eq_true_eq] at hguard
  have hk := Endpoint.pending_of_reading hguard.1
  obtain ⟨p, hp, hcallbacks⟩ := callbacks_of_reading hrun held hguard.1
  have hsound := hn.sound c held
  cases hprocess : processHdrMsg (headerBuffer bytes) unread with
  | error fault => simp [hprocess] at hlast
  | ok q =>
      obtain ⟨msg, rest⟩ := q
      simp only [hprocess, Option.some.injEq] at hlast
      have hused := ofInvocation_processed hprocess p.enabled
      have hset := hsound.publisher_of_dispatch msg.toList
      rw [← hcallbacks] at hused
      rw [hused] at hset
      rw [useSocket_of_pending hsound hk, hused,
        List.all_eq_true.mpr hset, Bool.not_true, Bool.or_false,
        List.map_congr_left fun q hq => by rw [hset q hq]] at hlast
      obtain ⟨rfl, rfl⟩ := Prod.mk.inj hlast
      exact ⟨p, msg, rest, ps, hp, rfl, hrun, rfl⟩

/-- The defaults are configured, and a frame with one detection is received. -/
theorem run_called_sounding :
    ∃ t os, (machine fun _ => true).run start (configured ++
        [.received .bathymetric Frame.sounding.header
          (Frame.sounding.payload ++ [])]) = some (t, os) ∧
      ∃ p msg rest ps, lastConfigured configured = some p ∧
        processHdrMsg (headerBuffer Frame.sounding.header)
          (Frame.sounding.payload ++ []) = .ok (msg, rest) ∧
        (machine fun _ => true).run start configured = some (t, ps) ∧
        os = ps ++ .socketUsed (.data .bathymetric) true ::
          (msg.toList.flatMap fun m =>
            p.enabled.filter (Publisher.reads m.commonHeader.type)).map
              (.publisherUsed · true) := by
  obtain ⟨t, hstep⟩ := step_sounding
  have hreceived := (machine fun _ => true).run_append_of_eq_some
    run_configured_events
    (((machine fun _ => true).run_singleton configuredNode _).trans hstep)
  exact ⟨_, _, hreceived, run_called hreceived⟩

end Node

end NorbitDriver
