import NorbitDriver.Connection.Handles
import NorbitDriver.Node.Settings

/-!
# The lifecycle of the node

A `NorbitNode` is a managed node: transitions between its primary states are
requested from outside, and run `on_configure`, `on_activate`, `on_deactivate`
and `on_cleanup`; the others succeed and do nothing. A transition that ends in
an error, or whose callback throws, leads to `unconfigured`. The executor runs
one callback at a time: a transition, a tick of the spin timer, or a service
request. A callback that lets the handlers of the connection run (`spin_once`,
the loop of `connect`, the loop of `sendCmd`) is a task of the machine, and the
handlers run in any order while it lasts.

`connection_`, the publishers, the services and the timer are pointers, and the
machine reports each use of one with whether it is set. It goes no further
(`gone`) when a null pointer is used, when an exception leaves a timer or
service callback, which ends the process, and when the node is destroyed. The
settings and addresses are what the parameters are when the node is configured.
-/

namespace NorbitDriver

open Transition

/-- The primary states of a managed node. -/
inductive Lifecycle
  | unconfigured
  | inactive
  | active
  | finalized
deriving DecidableEq

inductive LifecycleTransition
  | configure
  | activate
  | deactivate
  | cleanup
  | shutdown
deriving DecidableEq

/-- The publishers of the bathymetry callbacks. -/
inductive BathymetryPublisher
  | pointcloud
  | detections
  | ranges
  | bathymetry
deriving DecidableEq

/-- The publishers of the water-column callbacks. -/
inductive WaterColumnPublisher
  | norbit_watercolumn
  | watercolumn
deriving DecidableEq

inductive Publisher
  | bathymetry (p : BathymetryPublisher)
  | watercolumn (p : WaterColumnPublisher)
deriving DecidableEq

/-- A connection whose callbacks publish. -/
abbrev NodeConnection := Handles BathymetryPublisher WaterColumnPublisher

/-- The parameters that `on_configure` reads. -/
structure Parameters where
  sonar_ip : List Char
  publish : Publisher → Bool
  startup_settings : List (List Char)
  shutdown_settings : List (List Char)

/-- The parameters of a node for which only the address has been set. -/
def Parameters.defaults (sonar_ip : List Char) : Parameters where
  sonar_ip
  publish p := p = .bathymetry .pointcloud
  startup_settings := [['s', 'e', 't', '_', 'p', 'o', 'w', 'e', 'r', ' ', '0']]
  shutdown_settings := [['s', 'e', 't', '_', 'p', 'o', 'w', 'e', 'r', ' ', '0']]

/-- The callback that is running: `spin_once` of the timer, a service, the loop
of `connect` in `on_activate`, `sendCmd` for a startup setting with those behind
it, and `sendCmd` in `on_deactivate` with the shutdown settings behind it. -/
inductive Task
  | idle
  | spin_once
  | service
  | connect
  | startup (param : List Char) (rest : List (List Char))
  | shutdown (rest : List (List Char))
deriving DecidableEq

/-- The functions that use `connection_`. -/
inductive Site
  | on_activate
  | on_deactivate
  | norbitCmdCallback
  | setPowerCallback
  | spin_once
deriving DecidableEq

/-- What is observed. `publisherUsed` stands for a call of the callback of a
publisher, with whether the publisher is set; how often the callback publishes
is not part of it. -/
inductive NodeAction
  | connectionUsed (site : Site) (nonnull : Bool)
  | socketUsed (k : Sock) (nonnull : Bool)
  | publisherUsed (p : Publisher) (nonnull : Bool)
  | sent (site : Site) (cmd val : List Char)
  | connectionDestroyed (closed : Bool)
  | transitioned (t : LifecycleTransition) (goal : Lifecycle)
deriving DecidableEq

inductive NodeEvent
  | configure (p : Parameters)
  | activate
  | deactivate
  | cleanup
  | shutdown
  | destroy
  | tick
  | norbit_cmd (cmd val : List Char)
  | set_power (on : UInt8)
  | spinEnds
  | connectReturns
  | sendCmdReturns (ack : Bool)
  | connected (k : Sock) (ok : Bool)
  | received (k : DataSock) (bytes unread : List UInt8)
  | payloadFails (k : DataSock) (bytes : List UInt8)
  | receiveCmd
  | written

structure Node where
  lifecycle : Lifecycle
  startup_settings : List (List Char)
  shutdown_settings : List (List Char)
  sonar_ip : List Char
  connection_ : Option NodeConnection
  publishers : Publisher → Bool
  services : Bool
  spin_timer : Bool
  task : Task
  gone : Bool

/-- The order in which `on_configure` makes the publishers. -/
def publisherOrder : List Publisher :=
  [.bathymetry .pointcloud, .bathymetry .detections, .bathymetry .ranges,
    .bathymetry .bathymetry, .watercolumn .norbit_watercolumn,
    .watercolumn .watercolumn]

namespace Publisher

/-- The data socket that the callback of a publisher needs. -/
def sock : Publisher → DataSock
  | bathymetry _ => .bathymetric
  | watercolumn _ => .water_column

/-- `addCallback` with the callback of a publisher. -/
def addCallback (address_ok : Bool) (c : NodeConnection) :
    Publisher → NodeConnection
  | bathymetry p => c.addBathymetryCallback address_ok p
  | watercolumn p => c.addWaterColumnCallback address_ok p

/-- The publisher that the callback in an invocation publishes on. -/
def ofInvocation :
    Invocation BathymetryPublisher WaterColumnPublisher → Publisher
  | .bathymetry p _ => bathymetry p
  | .watercolumn p _ => watercolumn p

end Publisher

namespace Node

/-- What a callback does to the node, and what is observed of it. -/
abbrev Result := Node × List NodeAction

/-- A node as it is made. -/
def start : Node where
  lifecycle := .unconfigured
  startup_settings := [['s', 'e', 't', '_', 'p', 'o', 'w', 'e', 'r', ' ', '0']]
  shutdown_settings := [['s', 'e', 't', '_', 'p', 'o', 'w', 'e', 'r', ' ', '0']]
  sonar_ip := []
  connection_ := none
  publishers _ := false
  services := false
  spin_timer := false
  task := .idle
  gone := false

/-- A transition ends in the state `goal`. -/
def finish (n : Node) (t : LifecycleTransition) (goal : Lifecycle) : Result :=
  ({ n with lifecycle := goal, task := .idle }, [.transitioned t goal])

/-- An exception leaves the callback that is running. -/
def throw (n : Node) : Result :=
  match n.task with
  | .connect => n.finish .activate .unconfigured
  | .startup _ _ => n.finish .activate .unconfigured
  | .shutdown _ => n.finish .deactivate .unconfigured
  | _ => ({ n with gone := true }, [])

/-- `connection_->`, in the function `site`. -/
def useConnection (n : Node) (site : Site) (f : NodeConnection → Result) :
    Result :=
  match n.connection_ with
  | none => ({ n with gone := true }, [.connectionUsed site false])
  | some c => ((f c).1, .connectionUsed site true :: (f c).2)

/-- `sockets_.k->` in a handler of the connection `c`. -/
def useSocket (n : Node) (c : NodeConnection) (k : Sock) (r : Result) :
    Result :=
  if (c.sockets_ k).socket.isSome then (r.1, .socketUsed k true :: r.2)
  else ({ n with gone := true }, [.socketUsed k false])

/-- The publishers that `on_configure` makes, each with its callback; `false`
when `addCallback` throws. -/
def register (address_ok : Bool) (publish : Publisher → Bool) :
    List Publisher → (Publisher → Bool) → NodeConnection →
      (Publisher → Bool) × NodeConnection × Bool
  | [], publishers, c => (publishers, c, true)
  | p :: ps, publishers, c =>
      if publish p then
        let publishers := Function.update publishers p true
        let c' := p.addCallback address_ok c
        if c.needsConnect p.sock && !address_ok then (publishers, c', false)
        else register address_ok publish ps publishers c'
      else register address_ok publish ps publishers c

def on_configure (address_ok : List Char → Bool) (n : Node) (p : Parameters) :
    Result :=
  if p.sonar_ip = [] then n.finish .configure .unconfigured
  else
    let destroyed := n.connection_.toList.map fun c =>
      NodeAction.connectionDestroyed c.closed
    let (publishers, c, ok) := register (address_ok p.sonar_ip) p.publish
      publisherOrder n.publishers Handles.new
    let n' :=
      { n with
        startup_settings := p.startup_settings
        shutdown_settings := p.shutdown_settings
        sonar_ip := p.sonar_ip
        connection_ := some c
        publishers
        services := n.services || ok
        spin_timer := n.spin_timer || ok }
    let r := n'.finish .configure (if ok then .inactive else .unconfigured)
    (r.1, destroyed ++ r.2)

/-- `sendCmd` up to its loop. -/
def sendCmd (n : Node) (site : Site) (cmd val : List Char) (task : Task) :
    Result :=
  n.useConnection site fun c =>
    if (c.sockets_ .cmd).is_open then
      ({ n with
        connection_ := some (c.update .cmd Endpoint.async_write)
        task }, [.sent site cmd val])
    else ({ n with task }, [])

/-- `on_activate` up to the loop of `connect`. -/
def on_activate (address_ok : List Char → Bool) (n : Node) : Result :=
  n.useConnection .on_activate fun c =>
    let n' := { n with connection_ := some (c.connect (address_ok n.sonar_ip)) }
    if address_ok n.sonar_ip then ({ n' with task := .connect }, [])
    else n'.finish .activate .unconfigured

/-- `on_activate` in front of the startup settings `rest`. -/
def startNext (n : Node) : List (List Char) → Result
  | [] => n.finish .activate .active
  | param :: rest =>
      n.sendCmd .on_activate (splitCmd param).1 (splitCmd param).2
        (.startup param rest)

/-- `on_deactivate` in front of the shutdown settings `rest`. -/
def stopNext (n : Node) : List (List Char) → Result
  | [] =>
      n.useConnection .on_deactivate fun c =>
        let r := { n with connection_ := none }.finish .deactivate .inactive
        (r.1, .connectionDestroyed c.closeConnections.closed :: r.2)
  | param :: rest =>
      n.sendCmd .on_deactivate (splitCmd param).1 (splitCmd param).2
        (.shutdown rest)

def on_cleanup (n : Node) : Result :=
  let destroyed := n.connection_.toList.map fun c =>
    NodeAction.connectionDestroyed c.closeConnections.closed
  let n' :=
    { n with
      connection_ := none
      publishers := fun _ => false
      services := false
      spin_timer := false }
  let r := n'.finish .cleanup .unconfigured
  (r.1, destroyed ++ r.2)

/-- The timer callback `spin_once`. -/
def spin_once (n : Node) : Result :=
  match n.connection_ with
  | none => (n, [])
  | some _ =>
      n.useConnection .spin_once fun _ => ({ n with task := .spin_once }, [])

/-- `std::to_string` of a `uint8`. -/
def to_string (on : UInt8) : List Char :=
  (Nat.repr on.toNat).toList

/-- The command socket is open, so that `sendCmd` waits in its loop. -/
def cmdOpen (c : NodeConnection) : Bool :=
  (c.sockets_ .cmd).is_open

/-- The task lets the handlers of the connection run. -/
def spins (n : Node) (c : NodeConnection) : Bool :=
  match n.task with
  | .idle => false
  | .spin_once => true
  | .connect => true
  | _ => cmdOpen c

/-- `sendCmd` returns to the callback that has called it. -/
def sendCmdReturns (n : Node) (c : NodeConnection) (ack : Bool) :
    Option Result :=
  if ack && !cmdOpen c then none
  else
    match n.task with
    | .service => some ({ n with task := .idle }, [])
    | .startup param rest =>
        if ack then some (n.startNext rest)
        else some (n.startNext (param :: rest))
    | .shutdown rest => some (n.stopNext rest)
    | _ => none

/-- The handlers of the connection. -/
def handler (n : Node) (c : NodeConnection) : NodeEvent → Option Result
  | .connected k ok =>
      if 0 < (c.sockets_ k).connecting then
        if ok then
          some (n.useSocket c k
            ({ n with connection_ := some (c.update k Endpoint.connected) },
              []))
        else
          some ({ n with
            connection_ := some (c.update k Endpoint.connectFailed) }.throw)
      else none
  | .received k bytes unread =>
      if 0 < (c.sockets_ (.data k)).reading && bytes.length ≤ 24 then
        match processHdrMsg (headerBuffer bytes) unread with
        | .error _ => none
        | .ok (msg, _) =>
            let used := (msg.toList.flatMap c.callbacks.dispatch).map
              Publisher.ofInvocation
            some (n.useSocket c (.data k)
              ({ n with gone := n.gone || !used.all n.publishers },
                used.map (fun p => .publisherUsed p (n.publishers p))))
      else none
  | .payloadFails k bytes =>
      if 0 < (c.sockets_ (.data k)).reading && bytes.length ≤ 24 &&
          Message.headerValid (Message.fromBoostArray (headerBuffer bytes)) then
        some (n.useSocket c (.data k)
          ({ n with
            connection_ := some (c.update (.data k) Endpoint.received) }.throw))
      else none
  | .receiveCmd =>
      if 0 < (c.sockets_ .cmd).reading then
        some (n.useSocket c .cmd (n, []))
      else none
  | .written =>
      if 0 < (c.sockets_ .cmd).writing then
        some (n.useSocket c .cmd
          ({ n with connection_ := some (c.update .cmd Endpoint.written) }, []))
      else none
  | _ => none

/-- The executor can begin a callback. -/
def ready (n : Node) : Bool :=
  !n.gone && n.task = .idle

/-- The node under every order of transitions, ticks, service requests and
handlers. `address_ok` says which addresses `from_string` accepts. -/
def machine (address_ok : List Char → Bool) :
    Machine Node NodeEvent NodeAction where
  step n
    | .configure p =>
        if n.ready && n.lifecycle = .unconfigured then
          some (n.on_configure address_ok p)
        else none
    | .activate =>
        if n.ready && n.lifecycle = .inactive then
          some (n.on_activate address_ok)
        else none
    | .deactivate =>
        if n.ready && n.lifecycle = .active then
          some (n.stopNext n.shutdown_settings)
        else none
    | .cleanup =>
        if n.ready && n.lifecycle = .inactive then some n.on_cleanup else none
    | .shutdown =>
        if n.ready && n.lifecycle ≠ .finalized then
          some (n.finish .shutdown .finalized)
        else none
    | .destroy =>
        if n.ready then
          some ({ n with gone := true },
            n.connection_.toList.map fun c => .connectionDestroyed c.closed)
        else none
    | .tick =>
        if n.ready && n.spin_timer then some n.spin_once else none
    | .norbit_cmd cmd val =>
        if n.ready && n.services then
          some (n.sendCmd .norbitCmdCallback cmd val .service)
        else none
    | .set_power on =>
        if n.ready && n.services then
          some (n.sendCmd .setPowerCallback
            ['s', 'e', 't', '_', 'p', 'o', 'w', 'e', 'r'] (to_string on)
            .service)
        else none
    | .spinEnds =>
        if !n.gone && n.task = .spin_once then
          some ({ n with task := .idle }, [])
        else none
    | .connectReturns =>
        if !n.gone && n.task = .connect then
          some (n.startNext n.startup_settings)
        else none
    | .sendCmdReturns ack =>
        if n.gone then none
        else n.connection_.bind fun c => n.sendCmdReturns c ack
    | e =>
        if n.gone then none
        else
          n.connection_.bind fun c => if n.spins c then n.handler c e else none

/-- A node is configured with the defaults and activated. -/
def activation : List NodeEvent :=
  [.configure (Parameters.defaults ['s']), .activate, .connected .cmd true,
    .connectReturns, .written, .sendCmdReturns true]

end Node

end NorbitDriver
