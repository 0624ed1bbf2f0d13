import NorbitDriver.Connection.Reception
import NorbitDriver.Node.Steps
import NorbitDriver.Transition.Simulation

/-!
# The connection in a run of the node

A node and the connection that it holds are two levels of one design. On the
upper one `on_configure` adds the callbacks of the enabled publishers, and from
then on a handler of the connection is one event among the transitions, ticks
and requests. On the lower one there are callbacks and handlers only. What
happens to a node since a configuration has been accepted is, for the data
sockets of the connection, a run of the connection in which every handler has a
spin of its own, and both levels call the same publishers. What holds of every
run of a connection therefore holds of the connections of nodes.
-/

namespace NorbitDriver

open Transition

/-- A connection whose callbacks publish, and what happens to it. -/
abbrev NodeRegistration :=
  Registration BathymetryPublisher WaterColumnPublisher

abbrev NodeRegistrationEvent :=
  RegistrationEvent BathymetryPublisher WaterColumnPublisher

abbrev NodeRegistrationAction :=
  RegistrationAction BathymetryPublisher WaterColumnPublisher

namespace Publisher

/-- The callback of the publisher is added. -/
def added : Publisher → NodeRegistrationEvent
  | bathymetry p => .addBathymetryCallback p
  | watercolumn p => .addWaterColumnCallback p

end Publisher

namespace Parameters

/-- The publishers that the parameters enable, as they are made. -/
def enabled (p : Parameters) : List Publisher :=
  publisherOrder.filter p.publish

/-- The publishers whose callbacks are added: all of them, or the first one when
connecting its socket throws. -/
def registered (p : Parameters) (address_ok : Bool) : List Publisher :=
  if address_ok then p.enabled else p.enabled.take 1

end Parameters

/-- The handler that runs in an event, in a spin of its own. An exception ends
the spin. -/
def NodeEvent.handlers : NodeEvent → List NodeRegistrationEvent
  | connected (.data k) true => [.spin_once, .connected k true, .spinEnds]
  | connected (.data k) false => [.spin_once, .connected k false]
  | received k bytes unread =>
      [.spin_once, .received k bytes, .processed unread, .spinEnds]
  | payloadFails k bytes => [.spin_once, .received k bytes, .payloadFails]
  | _ => []

/-- The publisher that an observation of the node is the use of. -/
def NodeAction.publisher : NodeAction → List Publisher
  | publisherUsed p _ => [p]
  | _ => []

/-- The publisher whose callback is invoked in an observation of the
connection. -/
def publisherInvoked : NodeRegistrationAction → List Publisher
  | .invoked inv => [.ofInvocation inv]
  | _ => []

/-- The connection is, in its callbacks and data sockets, the one of the
registration between two spins. -/
structure Projects (c : NodeConnection) (r : NodeRegistration) : Prop where
  callbacks : r.handles.callbacks = c.callbacks
  socket : ∀ k, r.handles.sockets_ (.data k) = c.sockets_ (.data k)
  spinning : r.spinning = false
  reading : r.reading = none

namespace Projects

variable {c : NodeConnection} {r : NodeRegistration}

/-- Both sides change the data socket in the same way. -/
theorem update (h : Projects c r) (k : DataSock) (f : Endpoint → Endpoint) :
    Projects (c.update (.data k) f)
      { r with handles := r.handles.update (.data k) f } where
  callbacks := h.callbacks
  socket j := by
    by_cases hj : j = k
    · rw [hj, Handles.update_self, Handles.update_self, h.socket]
    · have hne : Sock.data j ≠ .data k := fun heq => hj (Sock.data.inj heq)
      rw [Handles.update_of_ne _ f hne, Handles.update_of_ne _ f hne, h.socket]
  spinning := h.spinning
  reading := h.reading

/-- A change of the connection that keeps its callbacks and data sockets. -/
theorem congr (h : Projects c r) {c' : NodeConnection}
    (hcallbacks : c'.callbacks = c.callbacks)
    (hsocket : ∀ k, c'.sockets_ (.data k) = c.sockets_ (.data k)) :
    Projects c' r where
  callbacks := h.callbacks.trans hcallbacks.symm
  socket k := (h.socket k).trans (hsocket k).symm
  spinning := h.spinning
  reading := h.reading

variable (address_ok : Bool)

/-- The connect handler of a data socket. -/
theorem run_connected (h : Projects c r) {k : DataSock}
    (hk : 0 < (c.sockets_ (.data k)).connecting) :
    ∃ r' os, (Registration.machine address_ok).run r
        (NodeEvent.connected (.data k) true).handlers = some (r', os) ∧
      Projects (c.update (.data k) Endpoint.connected) r' ∧
      os.flatMap publisherInvoked = [] := by
  refine ⟨_, [.receiveStarted k], ?_, h.update k Endpoint.connected, rfl⟩
  simp [NodeEvent.handlers, Machine.run, Registration.machine,
    Registration.free, h.spinning, h.reading, h.socket, hk]

/-- A connect that fails. -/
theorem run_connectFailed (h : Projects c r) {k : DataSock}
    (hk : 0 < (c.sockets_ (.data k)).connecting) :
    ∃ r' os, (Registration.machine address_ok).run r
        (NodeEvent.connected (.data k) false).handlers = some (r', os) ∧
      Projects (c.update (.data k) Endpoint.connectFailed) r' ∧
      os.flatMap publisherInvoked = [] := by
  refine ⟨_, [], ?_, h.update k Endpoint.connectFailed, rfl⟩
  simp [NodeEvent.handlers, Machine.run, Registration.machine,
    Registration.free, h.spinning, h.reading, h.socket, hk]

/-- A receive whose payload does not come. -/
theorem run_payloadFails (h : Projects c r) {k : DataSock} {bytes : List UInt8}
    (hk : 0 < (c.sockets_ (.data k)).reading) (hlen : bytes.length ≤ 24)
    (hvalid : Message.headerValid
      (Message.fromBoostArray (headerBuffer bytes)) = true) :
    ∃ r' os, (Registration.machine address_ok).run r
        (NodeEvent.payloadFails k bytes).handlers = some (r', os) ∧
      Projects (c.update (.data k) Endpoint.received) r' ∧
      os.flatMap publisherInvoked = [] := by
  refine ⟨_, [], ?_, h.update k Endpoint.received, rfl⟩
  simp [NodeEvent.handlers, Machine.run, Registration.machine,
    Registration.free, h.spinning, h.reading, h.socket, hk, hlen, hvalid]

/-- A receive that comes to its end: the next one is started, and the callbacks
are invoked for the message. -/
theorem run_received (h : Projects c r) {k : DataSock}
    {bytes unread rest : List UInt8} {msg : Option Message}
    (hk : 0 < (c.sockets_ (.data k)).reading) (hlen : bytes.length ≤ 24)
    (hprocess : processHdrMsg (headerBuffer bytes) unread = .ok (msg, rest)) :
    ∃ r' os, (Registration.machine address_ok).run r
        (NodeEvent.received k bytes unread).handlers = some (r', os) ∧
      Projects c r' ∧
      os.flatMap publisherInvoked =
        (msg.toList.flatMap c.callbacks.dispatch).map
          Publisher.ofInvocation := by
  have hsame : Endpoint.receive (Endpoint.received (c.sockets_ (.data k))) =
      c.sockets_ (.data k) := by
    rw [Endpoint.receive, Endpoint.received, Nat.sub_add_cancel hk]
  have hprojects := (h.update k Endpoint.received).update k Endpoint.receive
  refine ⟨{ r with handles := (r.handles.update (.data k)
      Endpoint.received).update (.data k) Endpoint.receive },
    (msg.toList.flatMap r.handles.callbacks.dispatch).map .invoked ++
      [.receiveStarted k], ?_, hprojects.congr rfl fun j => ?_, ?_⟩
  · simp [NodeEvent.handlers, Machine.run, Registration.machine,
      Registration.free, h.spinning, h.reading, h.socket, hk, hlen, hprocess]
  · by_cases hj : j = k
    · rw [hj, Handles.update_self, Handles.update_self, hsame]
    · have hne : Sock.data j ≠ .data k := fun heq => hj (Sock.data.inj heq)
      rw [Handles.update_of_ne _ _ hne, Handles.update_of_ne _ _ hne]
  · rw [List.flatMap_append, List.flatMap_map, h.callbacks]
    simp [publisherInvoked, List.map_eq_flatMap]

end Projects

namespace Node

/-- The connection behind a step is the one in front of it with the same
callbacks and data sockets, and no publisher is used. -/
structure Quiet (n : Node) (res : Result) : Prop where
  same : ∀ c', res.1.connection_ = some c' → ∃ c, n.connection_ = some c ∧
    c'.callbacks = c.callbacks ∧
      ∀ k, c'.sockets_ (.data k) = c.sockets_ (.data k)
  silent : res.2.flatMap NodeAction.publisher = []

namespace Quiet

variable {n : Node} {res : Result}

theorem keep (h : res.1.connection_ = n.connection_)
    (silent : res.2.flatMap NodeAction.publisher = []) : n.Quiet res where
  same c' held := ⟨c', h ▸ held, rfl, fun _ => rfl⟩
  silent := silent

theorem drop (h : res.1.connection_ = none)
    (silent : res.2.flatMap NodeAction.publisher = []) : n.Quiet res where
  same _ held := nomatch h.symm.trans held
  silent := silent

theorem cmd {c : NodeConnection} {f : Endpoint → Endpoint}
    (held : n.connection_ = some c)
    (h : res.1.connection_ = some (c.update .cmd f))
    (silent : res.2.flatMap NodeAction.publisher = []) : n.Quiet res where
  same c' held' := by
    rw [h, Option.some.injEq] at held'
    rw [← held']
    exact ⟨c, held, rfl, fun k => Handles.update_of_ne c f Sock.noConfusion⟩
  silent := silent

end Quiet

/-- The callbacks that are no handlers of the connection leave its data sockets
alone, unless they make a new one. -/
theorem Step.quiet {n : Node} {e : NodeEvent} {res : Result}
    (h : n.Step e res) (completes : ¬ Completes e) (throws : ¬ Throws e)
    (refused : ∀ p, e = .configure p → p.sonar_ip = []) : n.Quiet res := by
  cases h with
  | noAddress p => exact Quiet.keep rfl rfl
  | configure p idle lifecycle address => exact absurd (refused p rfl) address
  | connect idle lifecycle held => exact Quiet.cmd held rfl rfl
  | connectThrows idle lifecycle held => exact Quiet.cmd held rfl rfl
  | nullUsed => exact Quiet.keep rfl rfl
  | started => exact Quiet.keep rfl rfl
  | starting starts held => exact Quiet.cmd held rfl rfl
  | stopped => exact Quiet.drop rfl rfl
  | stopping stops held => exact Quiet.cmd held rfl rfl
  | cleanup =>
      exact Quiet.drop rfl (by simp [on_cleanup, finish, NodeAction.publisher])
  | shutdown => exact Quiet.keep rfl rfl
  | destroy => exact Quiet.keep rfl (by simp [NodeAction.publisher])
  | tickNull => exact Quiet.keep rfl rfl
  | tick => exact Quiet.keep rfl rfl
  | requested idle requests held => exact Quiet.cmd held rfl rfl
  | refused => exact Quiet.keep rfl rfl
  | returned => exact Quiet.keep rfl rfl
  | handled used h => exact absurd h completes
  | failed h => exact absurd h throws
  | terminated h => exact absurd h throws

/-- The connection that a node holds, if any, is the one of the registration. -/
def Holds (n : Node) (r : NodeRegistration) : Prop :=
  ∀ c, n.connection_ = some c → Projects c r

/-- The connection answers a step of the node: it has been there in front of the
step, its handlers run and lead to the connection behind the step, and both have
used the same publishers. -/
structure Answers (address_ok : Bool) (n : Node) (e : NodeEvent)
    (res : Result) : Prop where
  held : ∀ c, res.1.connection_ = some c → n.connection_ ≠ none
  run : ∀ r, n.Holds r →
    ∃ r' os, (Registration.machine address_ok).run r e.handlers =
        some (r', os) ∧ res.1.Holds r' ∧
      res.2.flatMap NodeAction.publisher = os.flatMap publisherInvoked

theorem Quiet.answers {n : Node} {res : Result} (h : n.Quiet res)
    {e : NodeEvent} (he : e.handlers = []) (address_ok : Bool) :
    n.Answers address_ok e res := by
  constructor
  · intro c' held' hnone
    obtain ⟨c, held, -⟩ := h.same c' held'
    exact nomatch hnone.symm.trans held
  · intro r hr
    refine ⟨r, [], by rw [he, Machine.run_nil], fun c' held' => ?_, h.silent⟩
    obtain ⟨c, held, hcallbacks, hsocket⟩ := h.same c' held'
    exact (hr c held).congr hcallbacks hsocket

theorem Answers.of_held {address_ok : Bool} {n : Node} {e : NodeEvent}
    {res : Result} {c c' : NodeConnection} (held : n.connection_ = some c)
    (held' : res.1.connection_ = some c')
    (h : ∀ r, Projects c r →
      ∃ r' os, (Registration.machine address_ok).run r e.handlers =
          some (r', os) ∧ Projects c' r' ∧
        os.flatMap publisherInvoked = res.2.flatMap NodeAction.publisher) :
    n.Answers address_ok e res := by
  constructor
  · intro _ _ hnone
    exact nomatch hnone.symm.trans held
  · intro r hr
    obtain ⟨r', os, hrun, hprojects, hused⟩ := h r (hr c held)
    refine ⟨r', os, hrun, fun d hd => ?_, hused.symm⟩
    rw [held', Option.some.injEq] at hd
    rw [← hd]
    exact hprojects

theorem throw_connection (n : Node) :
    n.throw.1.connection_ = n.connection_ := by
  rw [throw]
  cases n.task with
  | _ => rfl

theorem throw_silent (n : Node) :
    n.throw.2.flatMap NodeAction.publisher = [] := by
  rw [throw]
  cases n.task with
  | _ => rfl

theorem flatMap_publisherUsed (ps : List Publisher) (set : Publisher → Bool) :
    (ps.map fun p => NodeAction.publisherUsed p (set p)).flatMap
      NodeAction.publisher = ps := by
  rw [List.flatMap_map]
  exact List.flatMap_singleton' ps

theorem handler_answers {n : Node} {c : NodeConnection} {e : NodeEvent}
    {res : Result} (held : n.connection_ = some c)
    (sound : Sound n.publishers c) (h : n.handler c e = some res)
    (address_ok : Bool) : n.Answers address_ok e res := by
  cases e with
  | connected k ok =>
      obtain ⟨hpending, h⟩ := Option.ite_none_right_eq_some.mp h
      cases ok with
      | true =>
          obtain rfl := Option.some.inj h
          rw [useSocket_of_pending sound
            (Endpoint.pending_of_connecting hpending)]
          cases k with
          | cmd => exact (Quiet.cmd held rfl rfl).answers rfl address_ok
          | data k =>
              exact Answers.of_held held rfl fun r hr =>
                hr.run_connected address_ok hpending
      | false =>
          obtain rfl := Option.some.inj h
          have hsilent := throw_silent
            { n with connection_ := some (c.update k Endpoint.connectFailed) }
          cases k with
          | cmd =>
              exact (Quiet.cmd held (throw_connection _) hsilent).answers rfl
                address_ok
          | data k =>
              refine Answers.of_held held (throw_connection _) fun r hr => ?_
              rw [hsilent]
              exact hr.run_connectFailed address_ok hpending
  | received k bytes unread =>
      obtain ⟨hguard, h⟩ := Option.ite_none_right_eq_some.mp h
      simp only [Bool.and_eq_true, decide_eq_true_eq] at hguard
      cases hprocess : processHdrMsg (headerBuffer bytes) unread with
      | error fault => simp [hprocess] at h
      | ok q =>
          simp only [hprocess, Option.some.injEq] at h
          rw [← h, useSocket_of_pending sound
            (Endpoint.pending_of_reading hguard.1)]
          refine Answers.of_held held held fun r hr => ?_
          obtain ⟨r', os, hrun, hprojects, hused⟩ :=
            hr.run_received address_ok hguard.1 hguard.2 hprocess
          exact ⟨r', os, hrun, hprojects,
            hused.trans (flatMap_publisherUsed _ _).symm⟩
  | payloadFails k bytes =>
      obtain ⟨hguard, h⟩ := Option.ite_none_right_eq_some.mp h
      simp only [Bool.and_eq_true, decide_eq_true_eq] at hguard
      obtain rfl := Option.some.inj h
      rw [useSocket_of_pending sound
        (Endpoint.pending_of_reading hguard.1.1)]
      refine Answers.of_held held (throw_connection _) fun r hr => ?_
      rw [List.flatMap_cons, throw_silent]
      exact hr.run_payloadFails address_ok hguard.1.1 hguard.1.2 hguard.2
  | receiveCmd =>
      obtain ⟨hpending, h⟩ := Option.ite_none_right_eq_some.mp h
      obtain rfl := Option.some.inj h
      rw [useSocket_of_pending sound (Endpoint.pending_of_reading hpending)]
      have hquiet : n.Quiet (n, [.socketUsed .cmd true]) := Quiet.keep rfl rfl
      exact hquiet.answers rfl address_ok
  | written =>
      obtain ⟨hpending, h⟩ := Option.ite_none_right_eq_some.mp h
      obtain rfl := Option.some.inj h
      rw [useSocket_of_pending sound (Endpoint.pending_of_writing hpending)]
      exact (Quiet.cmd held rfl rfl).answers rfl address_ok
  | _ => cases h

/-- Every step of the node is answered by the connection, unless a configuration
makes a new one. -/
theorem step_answers {address_ok : List Char → Bool} {n : Node}
    (hn : n.Invariant) {e : NodeEvent} {res : Result}
    (refused : ∀ p, e = .configure p → p.sonar_ip = [])
    (h : (machine address_ok).step n e = some res) (ok : Bool) :
    n.Answers ok e res := by
  have hhandler : (if n.gone then none else n.connection_.bind fun c =>
      if n.spins c then n.handler c e else none) = some res →
        n.Answers ok e res := by
    intro h
    obtain ⟨-, h⟩ := Option.ite_none_left_eq_some.mp h
    obtain ⟨c, held, h⟩ := Option.bind_eq_some_iff.mp h
    obtain ⟨-, h⟩ := Option.ite_none_right_eq_some.mp h
    exact handler_answers held (hn.sound c held) h ok
  cases e with
  | connected k ok' => exact hhandler h
  | received k bytes unread => exact hhandler h
  | payloadFails k bytes => exact hhandler h
  | receiveCmd => exact hhandler h
  | written => exact hhandler h
  | _ =>
      exact ((step_of_machine hn h).quiet nofun nofun refused).answers rfl ok

theorem step_added (address_ok : Bool) (c : NodeConnection) (q : Publisher) :
    (Registration.machine address_ok).step ⟨c, false, none⟩ q.added =
      some (⟨q.addCallback address_ok c, false, none⟩,
        Registration.connectActions address_ok c q.sock) := by
  cases q with
  | bathymetry q => rfl
  | watercolumn q => rfl

theorem connectActions_silent (address_ok : Bool) (c : NodeConnection)
    (k : DataSock) :
    (Registration.connectActions address_ok c k).flatMap publisherInvoked =
      [] := by
  rw [Registration.connectActions]
  split_ifs
  · rfl
  · rfl

/-- With an address all the enabled callbacks are added. -/
theorem run_register (publish : Publisher → Bool) (qs : List Publisher)
    (publishers : Publisher → Bool) (c : NodeConnection) :
    ∃ os, (Registration.machine true).run ⟨c, false, none⟩
        ((qs.filter publish).map Publisher.added) =
          some (⟨(register true publish qs publishers c).2.1, false, none⟩,
            os) ∧ os.flatMap publisherInvoked = [] := by
  induction qs generalizing publishers c with
  | nil => exact ⟨[], rfl, rfl⟩
  | cons q qs ih =>
      rw [register, List.filter_cons]
      cases publish q with
      | true =>
          obtain ⟨os, hrun, hsilent⟩ :=
            ih (Function.update publishers q true) (q.addCallback true c)
          refine ⟨Registration.connectActions true c q.sock ++ os, ?_, ?_⟩
          · simp only [if_true, Bool.not_true, Bool.and_false,
              Bool.false_eq_true, if_false, List.map_cons]
            exact (Registration.machine true).run_cons_eq_some_iff.mpr
              ⟨_, _, _, step_added true c q, hrun, rfl⟩
          · rw [List.flatMap_append, connectActions_silent, hsilent]
            rfl
      | false =>
          simp only [Bool.false_eq_true, if_false]
          exact ih publishers c

/-- Without one the first of them is. -/
theorem run_register_of_not (publish : Publisher → Bool) (qs : List Publisher)
    (publishers : Publisher → Bool) {c : NodeConnection}
    (hneeds : ∀ k, c.needsConnect k = true) :
    ∃ os, (Registration.machine false).run ⟨c, false, none⟩
        (((qs.filter publish).take 1).map Publisher.added) =
          some (⟨(register false publish qs publishers c).2.1, false, none⟩,
            os) ∧ os.flatMap publisherInvoked = [] := by
  induction qs with
  | nil => exact ⟨[], rfl, rfl⟩
  | cons q qs ih =>
      rw [register, List.filter_cons]
      cases publish q with
      | true =>
          refine ⟨_, ?_, connectActions_silent false c q.sock⟩
          simp only [if_true, hneeds, Bool.not_false, Bool.and_self,
            List.take_succ_cons, List.take_zero, List.map_cons, List.map_nil,
            Machine.run_singleton]
          exact step_added false c q
      | false =>
          simp only [Bool.false_eq_true, if_false]
          exact ih

/-- A configuration that is accepted makes a connection with the callbacks of
the publishers that it registers. -/
theorem on_configure_registered {address_ok : List Char → Bool} {n t : Node}
    {p : Parameters} {os : List NodeAction} (accepted : p.sonar_ip ≠ [])
    (h : (machine address_ok).step n (.configure p) = some (t, os)) :
    ∃ r ps, (Registration.machine (address_ok p.sonar_ip)).run
        Registration.start
        ((p.registered (address_ok p.sonar_ip)).map Publisher.added) =
          some (r, ps) ∧ t.Holds r ∧ ps.flatMap publisherInvoked = [] := by
  obtain ⟨-, -, hresult⟩ := of_ready h
  rw [on_configure, if_neg accepted] at hresult
  have hconnection : t.connection_ = some (register (address_ok p.sonar_ip)
      p.publish publisherOrder n.publishers Handles.new).2.1 :=
    (congrArg (fun res => res.1.connection_) hresult).symm
  have hholds : t.Holds ⟨(register (address_ok p.sonar_ip) p.publish
      publisherOrder n.publishers Handles.new).2.1, false, none⟩ := by
    intro c held
    obtain rfl := Option.some.inj (hconnection.symm.trans held)
    exact ⟨rfl, fun _ => rfl, rfl, rfl⟩
  cases hok : address_ok p.sonar_ip with
  | true =>
      obtain ⟨ps, hrun, hsilent⟩ :=
        run_register p.publish publisherOrder n.publishers Handles.new
      rw [hok] at hholds
      exact ⟨_, ps, hrun, hholds, hsilent⟩
  | false =>
      obtain ⟨ps, hrun, hsilent⟩ := run_register_of_not p.publish
        publisherOrder n.publishers (c := Handles.new) fun _ => rfl
      rw [hok] at hholds
      exact ⟨_, ps, hrun, hholds, hsilent⟩

/-- The invariant holds behind every run. -/
theorem run_holds {address_ok : List Char → Bool} {t : Node}
    {es : List NodeEvent} {os : List NodeAction}
    (h : (machine address_ok).run start es = some (t, os)) : t.Invariant :=
  (run_keeps (I := fun _ _ => True) trivial (fun _ _ _ => trivial) h).1

/-- The last configuration that has been accepted. -/
def configuredBy (before : Option Parameters) : NodeEvent → Option Parameters
  | .configure p => if p.sonar_ip = [] then before else some p
  | _ => before

def lastConfigured (es : List NodeEvent) : Option Parameters :=
  es.foldl configuredBy none

theorem lastConfigured_append_singleton (es : List NodeEvent) (e : NodeEvent) :
    lastConfigured (es ++ [e]) = configuredBy (lastConfigured es) e := by
  rw [lastConfigured, List.foldl_append]
  rfl

theorem configuredBy_of_ne {e : NodeEvent} (he : ∀ p, e ≠ .configure p)
    (before : Option Parameters) : configuredBy before e = before := by
  cases e with
  | configure p => exact absurd rfl (he p)
  | _ => rfl

/-- `gs` is what has happened since the configuration `p` was accepted, the last
one that was, and `qs` is what has been observed. -/
structure Configured (address_ok : List Char → Bool) (es : List NodeEvent)
    (os : List NodeAction) (p : Parameters) (gs : List NodeEvent)
    (qs : List NodeAction) : Prop where
  accepted : p.sonar_ip ≠ []
  refused : ∀ q, .configure q ∈ gs → q.sonar_ip = []
  made : ∃ fs n ps, es = fs ++ .configure p :: gs ∧ os = ps ++ qs ∧
    (machine address_ok).run start (fs ++ [.configure p]) = some (n, ps)

theorem Configured.last {address_ok : List Char → Bool}
    {es gs : List NodeEvent} {os qs : List NodeAction} {p : Parameters}
    (h : Configured address_ok es os p gs qs) : lastConfigured es = some p := by
  obtain ⟨fs, n, ps, rfl, -⟩ := h.made
  have hkept : ∀ gs : List NodeEvent,
      (∀ q, .configure q ∈ gs → q.sonar_ip = []) →
        gs.foldl configuredBy (some p) = some p := by
    intro gs refused
    induction gs with
    | nil => rfl
    | cons e gs ih =>
        have he : configuredBy (some p) e = some p := by
          cases e with
          | configure q => exact if_pos (refused q List.mem_cons_self)
          | _ => rfl
        rw [List.foldl_cons, he]
        exact ih fun q hq => refused q (List.mem_cons_of_mem e hq)
  rw [lastConfigured, List.foldl_append, List.foldl_cons, configuredBy,
    if_neg h.accepted]
  exact hkept gs h.refused

/-- A node that holds a connection has been configured. -/
theorem run_configured {address_ok : List Char → Bool} {t : Node}
    {es : List NodeEvent} {os : List NodeAction} {c : NodeConnection}
    (h : (machine address_ok).run start es = some (t, os))
    (held : t.connection_ = some c) :
    ∃ p gs qs, Configured address_ok es os p gs qs := by
  have hrecord := (machine address_ok).run_record
    (I := fun n es os => (machine address_ok).run start es = some (n, os) ∧
      n.Invariant ∧ (n.connection_ ≠ none →
        ∃ p gs qs, Configured address_ok es os p gs qs))
    (fun n es os e u o hkept _ hstep => ?_)
    ⟨rfl, start_invariant, fun hnone => absurd rfl hnone⟩
    ((machine address_ok).meets_true start es) h
  · exact hrecord.2.2 (held ▸ Option.some_ne_none c)
  · obtain ⟨hrun, hn, hconfigured⟩ := hkept
    have hnext := (machine address_ok).run_append_of_eq_some hrun
      (((machine address_ok).run_singleton n e).trans hstep)
    refine ⟨hnext, (step_of_machine hn hstep).invariant hn, fun hsome => ?_⟩
    by_cases he : ∃ p, e = .configure p ∧ p.sonar_ip ≠ []
    · obtain ⟨p, rfl, accepted⟩ := he
      exact ⟨p, [], [], accepted, fun _ hq => absurd hq List.not_mem_nil,
        es, u, os ++ o, rfl, (List.append_nil _).symm, hnext⟩
    · have hrefused : ∀ p, e = .configure p → p.sonar_ip = [] := by
        intro p hp
        by_contra haccepted
        exact he ⟨p, hp, haccepted⟩
      obtain ⟨c', hc'⟩ := Option.ne_none_iff_exists'.mp hsome
      have hanswers := step_answers hn hrefused hstep true
      obtain ⟨p, gs, qs, accepted, refused, fs, m, ps, rfl, rfl, hfs⟩ :=
        hconfigured (hanswers.held c' hc')
      refine ⟨p, gs ++ [e], qs ++ o, accepted, fun q hq => ?_, fs, m, ps, ?_,
        List.append_assoc _ _ _, hfs⟩
      · rcases List.mem_append.mp hq with hgs | hlast
        · exact refused q hgs
        · exact hrefused q (List.mem_singleton.mp hlast).symm
      · rw [List.append_assoc, List.cons_append]

/-- Since the configuration the connection of the node has run on its own: the
callbacks of the configuration have been added, and each handler has run as it
has in the node and called the same publishers. -/
theorem Configured.projected {address_ok : List Char → Bool} {t : Node}
    {es gs : List NodeEvent} {os qs : List NodeAction} {p : Parameters}
    {c : NodeConnection} (hconfigured : Configured address_ok es os p gs qs)
    (h : (machine address_ok).run start es = some (t, os))
    (held : t.connection_ = some c) :
    ∃ r ps, (Registration.machine (address_ok p.sonar_ip)).run
        Registration.start
        ((p.registered (address_ok p.sonar_ip)).map Publisher.added ++
          gs.flatMap NodeEvent.handlers) = some (r, ps) ∧
      Projects c r ∧
      qs.flatMap NodeAction.publisher = ps.flatMap publisherInvoked := by
  obtain ⟨fs, n, ps, rfl, rfl, hfs⟩ := hconfigured.made
  rw [List.append_cons] at h
  obtain ⟨n', o, o', hfs', hgs, ho⟩ :=
    (machine address_ok).run_append_eq_some_iff.mp h
  obtain ⟨rfl, rfl⟩ := Prod.mk.inj (Option.some.inj (hfs.symm.trans hfs'))
  obtain rfl := List.append_cancel_left ho
  obtain ⟨m, ps', qs', hm, hstep, -⟩ :=
    (machine address_ok).run_append_eq_some_iff.mp hfs
  rw [Machine.run_singleton] at hstep
  obtain ⟨r, rs, hadded, hholds, hsilent⟩ :=
    on_configure_registered hconfigured.accepted hstep
  have hn := run_holds hfs
  have hrefused := (machine address_ok).meets_of_forall
    (C := fun e => ∀ q, e = .configure q → q.sonar_ip = [])
    (fun _ he q hq => hconfigured.refused q (Eq.subst hq he)) n
  obtain ⟨r', rs', hanswered, -, hholds', hused⟩ :=
    (machine address_ok).run_simulates
      (Registration.machine (address_ok p.sonar_ip)) NodeEvent.handlers
      (R := fun n os r rs => n.Invariant ∧ n.Holds r ∧
        os.flatMap NodeAction.publisher = rs.flatMap publisherInvoked)
      (fun u qs s rs e v o hkept hrefused hstep => by
        obtain ⟨hu, hs, hused⟩ := hkept
        obtain ⟨s', rs', hrun, hs', hused'⟩ :=
          (step_answers hu hrefused hstep _).run s hs
        refine ⟨s', rs', hrun, (step_of_machine hu hstep).invariant hu, hs', ?_⟩
        rw [List.flatMap_append, List.flatMap_append, hused, hused'])
      ⟨hn, hholds, rfl⟩ hrefused hgs
  refine ⟨r', rs ++ rs',
    (Registration.machine _).run_append_of_eq_some hadded hanswered,
    hholds' c held, ?_⟩
  rw [List.flatMap_append, hsilent, hused]
  rfl

/-- In every run the connection that the node holds is the one of a run of its
own, which begins with the last configuration that has been accepted. -/
theorem run_projected {address_ok : List Char → Bool} {t : Node}
    {es : List NodeEvent} {os : List NodeAction} {c : NodeConnection}
    (h : (machine address_ok).run start es = some (t, os))
    (held : t.connection_ = some c) :
    ∃ p gs qs r ps, Configured address_ok es os p gs qs ∧
      (Registration.machine (address_ok p.sonar_ip)).run Registration.start
        ((p.registered (address_ok p.sonar_ip)).map Publisher.added ++
          gs.flatMap NodeEvent.handlers) = some (r, ps) ∧
      Projects c r ∧
      qs.flatMap NodeAction.publisher = ps.flatMap publisherInvoked := by
  obtain ⟨p, gs, qs, hconfigured⟩ := run_configured h held
  obtain ⟨r, ps, hrun, hprojects, hused⟩ := hconfigured.projected h held
  exact ⟨p, gs, qs, r, ps, hconfigured, hrun, hprojects, hused⟩

/-- A node whose connect fails in the first tick of the timer. -/
def unreachable : List NodeEvent :=
  [.configure (Parameters.defaults ['s']), .tick,
    .connected (.data .bathymetric) false]

theorem run_projected_unreachable :
    ∃ t os c, (machine fun _ => true).run start unreachable = some (t, os) ∧
      t.connection_ = some c ∧
      ∃ p gs qs r ps, Configured (fun _ => true) unreachable os p gs qs ∧
        (Registration.machine true).run Registration.start
          ((p.registered true).map Publisher.added ++
            gs.flatMap NodeEvent.handlers) = some (r, ps) ∧
        Projects c r ∧
        qs.flatMap NodeAction.publisher = ps.flatMap publisherInvoked := by
  have hrun : ∃ t os c, (machine fun _ => true).run start unreachable =
      some (t, os) ∧ t.connection_ = some c := ⟨_, _, _, rfl, rfl⟩
  obtain ⟨t, os, c, hrun, held⟩ := hrun
  exact ⟨t, os, c, hrun, held, run_projected hrun held⟩

end Node

end NorbitDriver
