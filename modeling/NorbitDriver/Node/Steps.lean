import NorbitDriver.Node.Sound

/-!
# What the node can do

The connection of a node is sound, and while the node is active, or
`on_activate` waits, its command socket is open. With these facts a step of the
node has no pointer left to look at but `connection_` in `on_activate` and in
the services. `Step` lists the steps, in the form in which the properties of
runs are read off them.
-/

namespace NorbitDriver

open Transition

/-- The state in which a transition is requested while the node is managed. -/
def LifecycleTransition.source : LifecycleTransition → Lifecycle
  | configure => .unconfigured
  | deactivate => .active
  | _ => .inactive

/-- The transition whose callback is running. -/
def Task.transition : Task → Option LifecycleTransition
  | connect => some .activate
  | startup _ _ => some .activate
  | shutdown _ => some .deactivate
  | _ => none

namespace Node

/-- What holds of the node between two events. -/
structure Invariant (n : Node) : Prop where
  sound : ∀ c, n.connection_ = some c → Sound n.publishers c
  running : ∀ tr, n.task.transition = some tr → n.lifecycle = tr.source
  cmd_open : n.lifecycle = .active ∨ n.task.transition.isSome →
    ∃ c, n.connection_ = some c ∧ cmdOpen c = true

/-- The events behind which `on_activate` is in front of the startup settings
`rest`. -/
inductive Starts (n : Node) : NodeEvent → List (List Char) → Prop
  | connectReturns (task : n.task = .connect) :
      Starts n .connectReturns n.startup_settings
  | acked {param : List Char} {rest : List (List Char)}
      (task : n.task = .startup param rest) :
      Starts n (.sendCmdReturns true) rest
  | again {param : List Char} {rest : List (List Char)}
      (task : n.task = .startup param rest) :
      Starts n (.sendCmdReturns false) (param :: rest)

/-- The events behind which `on_deactivate` is in front of the shutdown settings
`rest`. -/
inductive Stops (n : Node) : NodeEvent → List (List Char) → Prop
  | deactivate (idle : n.task = .idle) (lifecycle : n.lifecycle = .active) :
      Stops n .deactivate n.shutdown_settings
  | returns {rest : List (List Char)} {ack : Bool}
      (task : n.task = .shutdown rest) : Stops n (.sendCmdReturns ack) rest

/-- The requests of the services, with the command that they send. -/
inductive Requests : NodeEvent → Site → List Char → List Char → Prop
  | norbit_cmd (cmd val : List Char) :
      Requests (.norbit_cmd cmd val) .norbitCmdCallback cmd val
  | set_power (on : UInt8) :
      Requests (.set_power on) .setPowerCallback
        ['s', 'e', 't', '_', 'p', 'o', 'w', 'e', 'r'] (to_string on)

/-- The events whose callback uses `connection_` without a check, while no
callback is running. -/
inductive Uses : NodeEvent → Site → Prop
  | activate : Uses .activate .on_activate
  | requests {e : NodeEvent} {site : Site} {cmd val : List Char}
      (h : Requests e site cmd val) : Uses e site

/-- The events in which a handler throws. -/
inductive Throws : NodeEvent → Prop
  | connected (k : Sock) : Throws (.connected k false)
  | payloadFails (k : DataSock) (bytes : List UInt8) :
      Throws (.payloadFails k bytes)

/-- The events in which a handler comes to its end. -/
inductive Completes : NodeEvent → Prop
  | connected (k : Sock) : Completes (.connected k true)
  | received (k : DataSock) (bytes unread : List UInt8) :
      Completes (.received k bytes unread)
  | receiveCmd : Completes .receiveCmd
  | written : Completes .written

/-- The events behind which a callback comes to its end. -/
inductive Returns : NodeEvent → Prop
  | spinEnds : Returns .spinEnds
  | sendCmdReturns (ack : Bool) : Returns (.sendCmdReturns ack)

/-- What the node can do when the invariant holds. -/
inductive Step (n : Node) : NodeEvent → Result → Prop
  | noAddress (p : Parameters) (idle : n.task = .idle)
      (lifecycle : n.lifecycle = .unconfigured) (address : p.sonar_ip = []) :
      Step n (.configure p) (n.finish .configure .unconfigured)
  | configure (p : Parameters) {publishers : Publisher → Bool}
      {c : NodeConnection} {services spin_timer : Bool} {goal : Lifecycle}
      (idle : n.task = .idle) (lifecycle : n.lifecycle = .unconfigured)
      (address : p.sonar_ip ≠ []) (sound : Sound publishers c)
      (goal_ne : goal ≠ .active) :
      Step n (.configure p)
        ({ lifecycle := goal
           startup_settings := p.startup_settings
           shutdown_settings := p.shutdown_settings
           sonar_ip := p.sonar_ip
           connection_ := some c
           publishers, services, spin_timer
           task := .idle
           gone := n.gone },
          n.connection_.toList.map (fun c => .connectionDestroyed c.closed) ++
            [.transitioned .configure goal])
  | connect {c : NodeConnection} (idle : n.task = .idle)
      (lifecycle : n.lifecycle = .inactive) (held : n.connection_ = some c) :
      Step n .activate
        ({ n with connection_ := some (c.connect true), task := .connect },
          [.connectionUsed .on_activate true])
  | connectThrows {c : NodeConnection} (idle : n.task = .idle)
      (lifecycle : n.lifecycle = .inactive) (held : n.connection_ = some c) :
      Step n .activate
        ({ n with
            lifecycle := .unconfigured
            connection_ := some (c.connect false)
            task := .idle },
          [.connectionUsed .on_activate true,
            .transitioned .activate .unconfigured])
  | nullUsed {e : NodeEvent} {site : Site} (idle : n.task = .idle)
      (uses : Uses e site) (null : n.connection_ = none)
      (accepted : n.lifecycle = .inactive ∨ n.services = true) :
      Step n e ({ n with gone := true }, [.connectionUsed site false])
  | started {e : NodeEvent} (starts : n.Starts e []) :
      Step n e (n.finish .activate .active)
  | starting {e : NodeEvent} {c : NodeConnection} {param : List Char}
      {rest : List (List Char)} (starts : n.Starts e (param :: rest))
      (held : n.connection_ = some c) (is_open : cmdOpen c = true) :
      Step n e
        ({ n with
            connection_ := some (c.update .cmd Endpoint.async_write)
            task := .startup param rest },
          [.connectionUsed .on_activate true,
            .sent .on_activate (splitCmd param).1 (splitCmd param).2])
  | stopped {e : NodeEvent} (stops : n.Stops e []) :
      Step n e
        ({ n with lifecycle := .inactive, connection_ := none, task := .idle },
          [.connectionUsed .on_deactivate true, .connectionDestroyed true,
            .transitioned .deactivate .inactive])
  | stopping {e : NodeEvent} {c : NodeConnection} {param : List Char}
      {rest : List (List Char)} (stops : n.Stops e (param :: rest))
      (held : n.connection_ = some c) (is_open : cmdOpen c = true) :
      Step n e
        ({ n with
            connection_ := some (c.update .cmd Endpoint.async_write)
            task := .shutdown rest },
          [.connectionUsed .on_deactivate true,
            .sent .on_deactivate (splitCmd param).1 (splitCmd param).2])
  | cleanup (idle : n.task = .idle) (lifecycle : n.lifecycle = .inactive) :
      Step n .cleanup n.on_cleanup
  | shutdown (idle : n.task = .idle) :
      Step n .shutdown (n.finish .shutdown .finalized)
  | destroy (idle : n.task = .idle) :
      Step n .destroy
        ({ n with gone := true },
          n.connection_.toList.map fun c => .connectionDestroyed c.closed)
  | tickNull (idle : n.task = .idle) (null : n.connection_ = none) :
      Step n .tick (n, [])
  | tick {c : NodeConnection} (idle : n.task = .idle)
      (held : n.connection_ = some c) :
      Step n .tick
        ({ n with task := .spin_once }, [.connectionUsed .spin_once true])
  | requested {e : NodeEvent} {site : Site} {cmd val : List Char}
      {c : NodeConnection} (idle : n.task = .idle)
      (requests : Requests e site cmd val) (held : n.connection_ = some c)
      (is_open : cmdOpen c = true) :
      Step n e
        ({ n with
            connection_ := some (c.update .cmd Endpoint.async_write)
            task := .service },
          [.connectionUsed site true, .sent site cmd val])
  | refused {e : NodeEvent} {site : Site} {cmd val : List Char}
      {c : NodeConnection} (idle : n.task = .idle)
      (requests : Requests e site cmd val) (held : n.connection_ = some c) :
      Step n e ({ n with task := .service }, [.connectionUsed site true])
  | returned {e : NodeEvent} (returns : Returns e)
      (running : n.task.transition = none) :
      Step n e ({ n with task := .idle }, [])
  | handled {e : NodeEvent} {c c' : NodeConnection} {k : Sock}
      (used : List Publisher) (completes : Completes e)
      (held : n.connection_ = some c) (is_open : cmdOpen c' = cmdOpen c)
      (sound : Sound n.publishers c') :
      Step n e
        ({ n with connection_ := some c' },
          .socketUsed k true :: used.map fun p => .publisherUsed p true)
  | failed {e : NodeEvent} {c : NodeConnection} {tr : LifecycleTransition}
      {os : List NodeAction} (throws : Throws e)
      (running : n.task.transition = some tr) (sound : Sound n.publishers c)
      (found : ∀ a ∈ os, ∃ k, a = .socketUsed k true) :
      Step n e
        ({ n with
            lifecycle := .unconfigured
            connection_ := some c
            task := .idle },
          os ++ [.transitioned tr .unconfigured])
  | terminated {e : NodeEvent} {c c' : NodeConnection} {os : List NodeAction}
      (throws : Throws e) (running : n.task.transition = none)
      (held : n.connection_ = some c) (is_open : cmdOpen c' = cmdOpen c)
      (sound : Sound n.publishers c')
      (found : ∀ a ∈ os, ∃ k, a = .socketUsed k true) :
      Step n e ({ n with connection_ := some c', gone := true }, os)

/-- A handler that throws has used its socket at most. -/
theorem not_mem_of_found {os : List NodeAction}
    (found : ∀ a ∈ os, ∃ k, a = .socketUsed k true) {a : NodeAction}
    (ha : ∀ k, a ≠ .socketUsed k true) : a ∉ os := by
  intro hmem
  obtain ⟨k, hk⟩ := found a hmem
  exact ha k hk

theorem Stops.active {n : Node} {e : NodeEvent} {rest : List (List Char)}
    (h : n.Stops e rest) (hn : n.Invariant) : n.lifecycle = .active := by
  cases h with
  | deactivate idle lifecycle => exact lifecycle
  | returns task => exact hn.running .deactivate (by rw [task]; rfl)

theorem Starts.transition {n : Node} {e : NodeEvent} {rest : List (List Char)}
    (h : n.Starts e rest) : n.task.transition = some .activate := by
  cases h with
  | connectReturns task => rw [task]; rfl
  | acked task => rw [task]; rfl
  | again task => rw [task]; rfl

theorem useConnection_some {n : Node} {c : NodeConnection}
    (h : n.connection_ = some c) (site : Site) (f : NodeConnection → Result) :
    n.useConnection site f =
      ((f c).1, .connectionUsed site true :: (f c).2) := by
  rw [useConnection, h]

theorem useConnection_none {n : Node} (h : n.connection_ = none) (site : Site)
    (f : NodeConnection → Result) :
    n.useConnection site f =
      ({ n with gone := true }, [.connectionUsed site false]) := by
  rw [useConnection, h]

theorem sendCmd_of_open {n : Node} {c : NodeConnection}
    (h : n.connection_ = some c) (hopen : cmdOpen c = true) (site : Site)
    (cmd val : List Char) (task : Task) :
    n.sendCmd site cmd val task =
      ({ n with
          connection_ := some (c.update .cmd Endpoint.async_write)
          task },
        [.connectionUsed site true, .sent site cmd val]) := by
  have his : (c.sockets_ .cmd).is_open = true := hopen
  rw [sendCmd, useConnection_some h, if_pos his]

theorem sendCmd_of_not_open {n : Node} {c : NodeConnection}
    (h : n.connection_ = some c) (hopen : cmdOpen c = false) (site : Site)
    (cmd val : List Char) (task : Task) :
    n.sendCmd site cmd val task =
      ({ n with task }, [.connectionUsed site true]) := by
  have hnot : ¬ (c.sockets_ .cmd).is_open = true := by
    rw [cmdOpen] at hopen
    rw [hopen]
    exact Bool.false_ne_true
  rw [sendCmd, useConnection_some h, if_neg hnot]

/-- A handler finds the socket that its operation was started on. -/
theorem useSocket_of_pending {n : Node} {publishers : Publisher → Bool}
    {c : NodeConnection} (h : Sound publishers c) {k : Sock}
    (hk : 0 < (c.sockets_ k).pending) (r : Result) :
    n.useSocket c k r = (r.1, .socketUsed k true :: r.2) := by
  rw [useSocket, if_pos (h.socket k hk)]

theorem step_startNext {n : Node} (hn : n.Invariant) {e : NodeEvent}
    {rest : List (List Char)} (h : n.Starts e rest) :
    n.Step e (n.startNext rest) := by
  cases rest with
  | nil => exact Step.started h
  | cons param rest =>
      have htransition := h.transition
      obtain ⟨c, held, hopen⟩ := hn.cmd_open (Or.inr (by rw [htransition]; rfl))
      rw [startNext, sendCmd_of_open held hopen]
      exact Step.starting h held hopen

theorem step_stopNext {n : Node} (hn : n.Invariant) {e : NodeEvent}
    {rest : List (List Char)} (h : n.Stops e rest) :
    n.Step e (n.stopNext rest) := by
  obtain ⟨c, held, hopen⟩ := hn.cmd_open (Or.inl (h.active hn))
  cases rest with
  | nil =>
      rw [stopNext, useConnection_some held]
      exact Step.stopped h
  | cons param rest =>
      rw [stopNext, sendCmd_of_open held hopen]
      exact Step.stopping h held hopen

/-- A request of a service. -/
theorem step_request {n : Node} {e : NodeEvent} {site : Site}
    {cmd val : List Char} (idle : n.task = .idle) (services : n.services = true)
    (h : Requests e site cmd val) :
    n.Step e (n.sendCmd site cmd val .service) := by
  cases held : n.connection_ with
  | none =>
      rw [sendCmd, useConnection_none held]
      exact Step.nullUsed idle (Uses.requests h) held (Or.inr services)
  | some c =>
      cases hopen : cmdOpen c with
      | true =>
          rw [sendCmd_of_open held hopen]
          exact Step.requested idle h held hopen
      | false =>
          rw [sendCmd_of_not_open held hopen]
          exact Step.refused idle h held

theorem throw_of_transition {n : Node} {tr : LifecycleTransition}
    (h : n.task.transition = some tr) :
    n.throw = n.finish tr .unconfigured := by
  rw [throw]
  cases htask : n.task with
  | connect =>
      rw [htask] at h
      rw [← Option.some.inj h]
  | startup param rest =>
      rw [htask] at h
      rw [← Option.some.inj h]
  | shutdown rest =>
      rw [htask] at h
      rw [← Option.some.inj h]
  | _ =>
      rw [htask] at h
      cases h

theorem throw_of_no_transition {n : Node} (h : n.task.transition = none) :
    n.throw = ({ n with gone := true }, []) := by
  rw [throw]
  cases htask : n.task with
  | connect =>
      rw [htask] at h
      cases h
  | startup param rest =>
      rw [htask] at h
      cases h
  | shutdown rest =>
      rw [htask] at h
      cases h
  | _ => rfl

/-- An exception of a handler, behind the uses of its socket. -/
theorem step_throw {n : Node} {e : NodeEvent} {c c' : NodeConnection}
    (os : List NodeAction) (throws : Throws e) (held : n.connection_ = some c)
    (is_open : cmdOpen c' = cmdOpen c) (sound : Sound n.publishers c')
    (found : ∀ a ∈ os, ∃ k, a = NodeAction.socketUsed k true) :
    n.Step e ((throw { n with connection_ := some c' }).1,
      os ++ (throw { n with connection_ := some c' }).2) := by
  cases running : n.task.transition with
  | some tr =>
      rw [throw_of_transition (n := { n with connection_ := some c' }) running]
      exact Step.failed throws running sound found
  | none =>
      rw [throw_of_no_transition (n := { n with connection_ := some c' })
        running, List.append_nil]
      exact Step.terminated throws running held is_open sound found

theorem cmdOpen_update (c : NodeConnection) (k : Sock)
    {f : Endpoint → Endpoint} (hf : ∀ e : Endpoint, (f e).socket = e.socket) :
    cmdOpen (c.update k f) = cmdOpen c := by
  rw [cmdOpen, cmdOpen, Endpoint.is_open, Endpoint.is_open]
  by_cases hk : Sock.cmd = k
  · rw [hk, Handles.update_self, hf]
  · rw [Handles.update_of_ne c f hk]

theorem with_connection {n : Node} {c : NodeConnection}
    (held : n.connection_ = some c) : { n with connection_ := some c } = n := by
  rw [← held]

/-- The handlers of the connection that the node holds. -/
theorem step_handler {n : Node} {e : NodeEvent} {c : NodeConnection}
    {r : Result} (held : n.connection_ = some c) (sound : Sound n.publishers c)
    (h : n.handler c e = some r) : n.Step e r := by
  cases e with
  | connected k ok =>
      obtain ⟨hpending, h⟩ := Option.ite_none_right_eq_some.mp h
      have hk := Endpoint.pending_of_connecting hpending
      cases ok with
      | true =>
          obtain rfl := Option.some.inj h
          rw [useSocket_of_pending sound hk]
          exact Step.handled [] (Completes.connected k) held
            (cmdOpen_update c k fun _ => rfl)
            (sound.update_of_pending hk fun _ => rfl)
      | false =>
          obtain rfl := Option.some.inj h
          exact step_throw [] (Throws.connected k) held
            (cmdOpen_update c k fun _ => rfl)
            (sound.update_of_pending hk fun _ => rfl) (by simp)
  | received k bytes unread =>
      obtain ⟨hguard, h⟩ := Option.ite_none_right_eq_some.mp h
      simp only [Bool.and_eq_true, decide_eq_true_eq] at hguard
      have hk := Endpoint.pending_of_reading hguard.1
      cases hprocess : processHdrMsg (headerBuffer bytes) unread with
      | error fault => simp [hprocess] at h
      | ok q =>
          simp only [hprocess, Option.some.injEq] at h
          have hused := sound.publisher_of_dispatch q.1.toList
          have hstep := Step.handled (k := .data k)
            ((q.1.toList.flatMap c.callbacks.dispatch).map
              Publisher.ofInvocation) (Completes.received k bytes unread) held
            rfl sound
          rw [with_connection held] at hstep
          rw [← h, useSocket_of_pending sound hk, List.all_eq_true.mpr hused,
            List.map_congr_left fun p hp => by rw [hused p hp]]
          simpa using hstep
  | payloadFails k bytes =>
      obtain ⟨hguard, h⟩ := Option.ite_none_right_eq_some.mp h
      simp only [Bool.and_eq_true, decide_eq_true_eq] at hguard
      have hk := Endpoint.pending_of_reading hguard.1.1
      obtain rfl := Option.some.inj h
      rw [useSocket_of_pending sound hk]
      exact step_throw [.socketUsed (.data k) true]
        (Throws.payloadFails k bytes) held
        (cmdOpen_update c (.data k) fun _ => rfl)
        (sound.update_of_pending hk fun _ => rfl) (by simp)
  | receiveCmd =>
      obtain ⟨hpending, h⟩ := Option.ite_none_right_eq_some.mp h
      have hk := Endpoint.pending_of_reading hpending
      have hstep := Step.handled (k := .cmd) [] Completes.receiveCmd held rfl
        sound
      rw [with_connection held] at hstep
      obtain rfl := Option.some.inj h
      rw [useSocket_of_pending sound hk]
      exact hstep
  | written =>
      obtain ⟨hpending, h⟩ := Option.ite_none_right_eq_some.mp h
      have hk := Endpoint.pending_of_writing hpending
      obtain rfl := Option.some.inj h
      rw [useSocket_of_pending sound hk]
      exact Step.handled [] Completes.written held
        (cmdOpen_update c .cmd fun _ => rfl)
        (sound.update_of_pending hk fun _ => rfl)
  | _ => cases h

theorem step_configure {n : Node} (address_ok : List Char → Bool)
    (p : Parameters) (idle : n.task = .idle)
    (lifecycle : n.lifecycle = .unconfigured) :
    n.Step (.configure p) (n.on_configure address_ok p) := by
  rw [on_configure]
  by_cases address : p.sonar_ip = []
  · rw [if_pos address]
    exact Step.noAddress p idle lifecycle address
  · rw [if_neg address]
    have goal_ne : ∀ ok : Bool,
        (if ok then Lifecycle.inactive else .unconfigured) ≠ .active := by
      decide
    exact Step.configure p idle lifecycle address (Sound.new.register
      (address_ok p.sonar_ip) p.publish publisherOrder) (goal_ne _)

theorem step_on_activate {n : Node} (address_ok : List Char → Bool)
    (idle : n.task = .idle) (lifecycle : n.lifecycle = .inactive) :
    n.Step .activate (n.on_activate address_ok) := by
  rw [on_activate]
  cases held : n.connection_ with
  | none =>
      rw [useConnection_none held]
      exact Step.nullUsed idle Uses.activate held (Or.inl lifecycle)
  | some c =>
      rw [useConnection_some held]
      cases address_ok n.sonar_ip with
      | true => exact Step.connect idle lifecycle held
      | false => exact Step.connectThrows idle lifecycle held

theorem step_spin_once {n : Node} (idle : n.task = .idle) :
    n.Step .tick n.spin_once := by
  cases held : n.connection_ with
  | none =>
      have hspin : n.spin_once = (n, []) := by
        simp only [spin_once, held]
      rw [hspin]
      exact Step.tickNull idle held
  | some c =>
      have hspin : n.spin_once = ({ n with task := .spin_once },
          [.connectionUsed .spin_once true]) := by
        simp only [spin_once, useConnection, held]
      rw [hspin]
      exact Step.tick idle held

theorem idle_of_ready {n : Node} (h : n.ready = true) : n.task = .idle := by
  simp only [ready, Bool.and_eq_true, decide_eq_true_eq] at h
  exact h.2

/-- A callback that the executor begins. -/
theorem of_ready {n : Node} {b : Bool} {r r' : Result}
    (h : (if n.ready && b then some r' else none) = some r) :
    n.task = .idle ∧ b = true ∧ r' = r := by
  obtain ⟨hguard, h⟩ := Option.ite_none_right_eq_some.mp h
  rw [Bool.and_eq_true] at hguard
  exact ⟨idle_of_ready hguard.1, hguard.2, Option.some.inj h⟩

/-- Every step of the machine is one of these. -/
theorem step_of_machine {address_ok : List Char → Bool} {n : Node}
    (hn : n.Invariant) {e : NodeEvent} {r : Result}
    (h : (machine address_ok).step n e = some r) : n.Step e r := by
  have hhandler : (if n.gone then none else n.connection_.bind fun c =>
      if n.spins c then n.handler c e else none) = some r → n.Step e r := by
    intro h
    obtain ⟨-, h⟩ := Option.ite_none_left_eq_some.mp h
    obtain ⟨c, held, h⟩ := Option.bind_eq_some_iff.mp h
    obtain ⟨-, h⟩ := Option.ite_none_right_eq_some.mp h
    exact step_handler held (hn.sound c held) h
  cases e with
  | configure p =>
      obtain ⟨idle, hguard, rfl⟩ := of_ready h
      exact step_configure address_ok p idle (of_decide_eq_true hguard)
  | activate =>
      obtain ⟨idle, hguard, rfl⟩ := of_ready h
      exact step_on_activate address_ok idle (of_decide_eq_true hguard)
  | deactivate =>
      obtain ⟨idle, hguard, rfl⟩ := of_ready h
      exact step_stopNext hn (Stops.deactivate idle (of_decide_eq_true hguard))
  | cleanup =>
      obtain ⟨idle, hguard, rfl⟩ := of_ready h
      exact Step.cleanup idle (of_decide_eq_true hguard)
  | shutdown =>
      obtain ⟨idle, -, rfl⟩ := of_ready h
      exact Step.shutdown idle
  | destroy =>
      obtain ⟨hready, h⟩ := Option.ite_none_right_eq_some.mp h
      obtain rfl := Option.some.inj h
      exact Step.destroy (idle_of_ready hready)
  | tick =>
      obtain ⟨idle, -, rfl⟩ := of_ready h
      exact step_spin_once idle
  | norbit_cmd cmd val =>
      obtain ⟨idle, hservices, rfl⟩ := of_ready h
      exact step_request idle hservices (Requests.norbit_cmd cmd val)
  | set_power on =>
      obtain ⟨idle, hservices, rfl⟩ := of_ready h
      exact step_request idle hservices (Requests.set_power on)
  | spinEnds =>
      obtain ⟨hguard, h⟩ := Option.ite_none_right_eq_some.mp h
      simp only [Bool.and_eq_true, decide_eq_true_eq] at hguard
      obtain rfl := Option.some.inj h
      exact Step.returned Returns.spinEnds (by rw [hguard.2]; rfl)
  | connectReturns =>
      obtain ⟨hguard, h⟩ := Option.ite_none_right_eq_some.mp h
      simp only [Bool.and_eq_true, decide_eq_true_eq] at hguard
      obtain rfl := Option.some.inj h
      exact step_startNext hn (Starts.connectReturns hguard.2)
  | sendCmdReturns ack =>
      obtain ⟨-, h⟩ := Option.ite_none_left_eq_some.mp h
      obtain ⟨c, held, h⟩ := Option.bind_eq_some_iff.mp h
      obtain ⟨-, h⟩ := Option.ite_none_left_eq_some.mp h
      cases htask : n.task with
      | service =>
          simp only [htask, Option.some.injEq] at h
          rw [← h]
          exact Step.returned (Returns.sendCmdReturns ack) (by rw [htask]; rfl)
      | startup param rest =>
          simp only [htask] at h
          cases ack with
          | true =>
              obtain rfl := Option.some.inj h
              exact step_startNext hn (Starts.acked htask)
          | false =>
              obtain rfl := Option.some.inj h
              exact step_startNext hn (Starts.again htask)
      | shutdown rest =>
          simp only [htask, Option.some.injEq] at h
          rw [← h]
          exact step_stopNext hn (Stops.returns htask)
      | _ => simp [htask] at h
  | _ => exact hhandler h

/-- The invariant while no transition is running. -/
theorem Invariant.of_no_transition {n : Node}
    (sound : ∀ c, n.connection_ = some c → Sound n.publishers c)
    (idle : n.task.transition = none)
    (cmd_open : n.lifecycle = .active →
      ∃ c, n.connection_ = some c ∧ cmdOpen c = true) : n.Invariant where
  sound := sound
  running tr h := by
    rw [idle] at h
    cases h
  cmd_open h := by
    cases h with
    | inl h => exact cmd_open h
    | inr h =>
        rw [idle] at h
        cases h

/-- The invariant while a transition is running. -/
theorem Invariant.of_transition {n : Node} {c : NodeConnection}
    {tr : LifecycleTransition} (held : n.connection_ = some c)
    (sound : Sound n.publishers c) (running : n.task.transition = some tr)
    (source : n.lifecycle = tr.source) (is_open : cmdOpen c = true) :
    n.Invariant where
  sound d hd := by
    rw [held] at hd
    exact Option.some.inj hd ▸ sound
  running tr' h := by
    rw [running] at h
    exact Option.some.inj h ▸ source
  cmd_open _ := ⟨c, held, is_open⟩

/-- The invariant behind a change of the connection. -/
theorem Invariant.with_connection {n : Node} (hn : n.Invariant)
    {c c' : NodeConnection} (held : n.connection_ = some c)
    (is_open : cmdOpen c' = cmdOpen c) (sound : Sound n.publishers c') :
    Invariant { n with connection_ := some c' } where
  sound _ hd := Option.some.inj hd ▸ sound
  running := hn.running
  cmd_open h := by
    obtain ⟨d, hd, hopen⟩ := hn.cmd_open h
    rw [held] at hd
    rw [← Option.some.inj hd, ← is_open] at hopen
    exact ⟨c', rfl, hopen⟩

theorem start_invariant : start.Invariant :=
  Invariant.of_no_transition
    (fun c h => absurd h (Option.some_ne_none c).symm) rfl
    fun h => Lifecycle.noConfusion h

/-- Every step keeps the invariant. -/
theorem Step.invariant {n t : Node} {e : NodeEvent} {os : List NodeAction}
    (hn : n.Invariant) (h : n.Step e (t, os)) : t.Invariant := by
  have hopen : n.lifecycle = .active →
      ∃ c, n.connection_ = some c ∧ cmdOpen c = true :=
    fun active => hn.cmd_open (Or.inl active)
  cases h with
  | noAddress p idle lifecycle address =>
      exact Invariant.of_no_transition hn.sound rfl
        fun h => Lifecycle.noConfusion h
  | configure p idle lifecycle address sound goal_ne =>
      exact Invariant.of_no_transition
        (fun _ hd => Option.some.inj hd ▸ sound) rfl fun h => absurd h goal_ne
  | @connect c idle lifecycle held =>
      refine Invariant.of_transition rfl
        ((hn.sound c held).async_connect .cmd true) rfl lifecycle ?_
      simp [cmdOpen, Handles.connect, Endpoint.async_connect, Endpoint.is_open]
  | @connectThrows c idle lifecycle held =>
      have sound := (hn.sound c held).async_connect .cmd false
      exact Invariant.of_no_transition
        (fun _ hd => Option.some.inj hd ▸ sound) rfl
        fun h => Lifecycle.noConfusion h
  | nullUsed idle uses null accepted =>
      exact ⟨hn.sound, hn.running, hn.cmd_open⟩
  | started starts =>
      have running := starts.transition
      exact Invariant.of_no_transition hn.sound rfl fun _ =>
        hn.cmd_open (Or.inr (by rw [running]; rfl))
  | @starting e c param rest starts held is_open =>
      exact Invariant.of_transition rfl ((hn.sound c held).async_write is_open)
        rfl (hn.running .activate starts.transition)
        ((cmdOpen_update c .cmd fun _ => rfl).trans is_open)
  | stopped stops =>
      exact Invariant.of_no_transition
        (fun c hd => absurd hd (Option.some_ne_none c).symm) rfl
        fun h => Lifecycle.noConfusion h
  | @stopping e c param rest stops held is_open =>
      exact Invariant.of_transition rfl ((hn.sound c held).async_write is_open)
        rfl (stops.active hn)
        ((cmdOpen_update c .cmd fun _ => rfl).trans is_open)
  | cleanup idle lifecycle =>
      exact Invariant.of_no_transition
        (fun c hd => absurd hd (Option.some_ne_none c).symm) rfl
        fun h => Lifecycle.noConfusion h
  | shutdown idle =>
      exact Invariant.of_no_transition hn.sound rfl
        fun h => Lifecycle.noConfusion h
  | destroy idle => exact ⟨hn.sound, hn.running, hn.cmd_open⟩
  | tickNull idle null => exact hn
  | tick idle held => exact Invariant.of_no_transition hn.sound rfl hopen
  | @requested e site cmd val c idle requests held is_open =>
      have sound := (hn.sound c held).async_write is_open
      exact Invariant.of_no_transition
        (fun _ hd => Option.some.inj hd ▸ sound) rfl fun _ =>
          ⟨_, rfl, (cmdOpen_update c .cmd fun _ => rfl).trans is_open⟩
  | refused idle requests held =>
      exact Invariant.of_no_transition hn.sound rfl hopen
  | returned returns running =>
      exact Invariant.of_no_transition hn.sound rfl hopen
  | handled used completes held is_open sound =>
      exact hn.with_connection held is_open sound
  | failed throws running sound found =>
      exact Invariant.of_no_transition
        (fun _ hd => Option.some.inj hd ▸ sound) rfl
        fun h => Lifecycle.noConfusion h
  | terminated throws running held is_open sound found =>
      obtain ⟨hsound, hrunning, hcmd⟩ := hn.with_connection held is_open sound
      exact ⟨hsound, hrunning, hcmd⟩

/-- A run keeps the invariant, and what its steps keep of the history under the
invariant. -/
theorem run_keeps {address_ok : List Char → Bool}
    {I : Node → List NodeAction → Prop} (hstart : I start [])
    (hstep : ∀ {n t : Node} {e : NodeEvent} {ps os : List NodeAction},
      n.Invariant → I n ps → n.Step e (t, os) → I t (ps ++ os))
    {t : Node} {es : List NodeEvent} {os : List NodeAction}
    (h : (machine address_ok).run start es = some (t, os)) :
    t.Invariant ∧ I t os := by
  refine (machine address_ok).run_history
    (I := fun n ps => n.Invariant ∧ I n ps) ?_ ⟨start_invariant, hstart⟩ h
  rintro n ps e t os ⟨hn, hI⟩ hmachine
  have step := step_of_machine hn hmachine
  exact ⟨step.invariant hn, hstep hn hI step⟩

end Node

end NorbitDriver
