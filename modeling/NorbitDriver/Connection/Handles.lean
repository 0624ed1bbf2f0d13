import NorbitDriver.Connection.Connection
import Mathlib.Logic.Function.Basic

/-!
# Sockets and their operations

The handlers of a `NorbitConnection` find their socket through a pointer that
`addCallback` and `connect` set and `closeConnections` resets, while the
operations that have been started on a socket outlive it: closing a socket
completes them, and their handlers run at the next spin unless the connection
is gone by then. An `Endpoint` is such a pointer together with the operations
whose handler has not run.

`async_connect` opens the socket when it is started. An address that is not one
makes `from_string` throw before that, behind the new socket.
-/

namespace NorbitDriver

/-- A socket of a connection: whether there is one and whether it is open, and
the number of connects, reads and writes whose handler has not run. -/
structure Endpoint where
  socket : Option Bool
  connecting : ℕ
  reading : ℕ
  writing : ℕ
deriving DecidableEq

namespace Endpoint

/-- No socket. -/
def null : Endpoint where
  socket := none
  connecting := 0
  reading := 0
  writing := 0

/-- `sock && sock->is_open()`. -/
def is_open (e : Endpoint) : Bool :=
  e.socket = some true

/-- The operations whose handler has not run. -/
def pending (e : Endpoint) : ℕ :=
  e.connecting + e.reading + e.writing

/-- A new socket, and `async_connect` on it unless the address throws. -/
def async_connect (address_ok : Bool) (e : Endpoint) : Endpoint :=
  { e with
    socket := some address_ok
    connecting := if address_ok then e.connecting + 1 else e.connecting }

/-- The handler of a connect that has succeeded starts a read. -/
def connected (e : Endpoint) : Endpoint :=
  { e with connecting := e.connecting - 1, reading := e.reading + 1 }

/-- The handler of a connect that has failed throws. -/
def connectFailed (e : Endpoint) : Endpoint :=
  { e with connecting := e.connecting - 1 }

/-- The handler of a read starts. -/
def received (e : Endpoint) : Endpoint :=
  { e with reading := e.reading - 1 }

/-- A read is started. -/
def receive (e : Endpoint) : Endpoint :=
  { e with reading := e.reading + 1 }

/-- A write is started. -/
def async_write (e : Endpoint) : Endpoint :=
  { e with writing := e.writing + 1 }

/-- The handler of a write starts a read. -/
def written (e : Endpoint) : Endpoint :=
  { e with writing := e.writing - 1, reading := e.reading + 1 }

/-- `close` and `reset`. -/
def close (e : Endpoint) : Endpoint :=
  { e with socket := none }

theorem pending_of_connecting {e : Endpoint} (h : 0 < e.connecting) :
    0 < e.pending :=
  Nat.add_pos_left (Nat.add_pos_left h _) _

theorem pending_of_reading {e : Endpoint} (h : 0 < e.reading) :
    0 < e.pending :=
  Nat.add_pos_left (Nat.add_pos_right _ h) _

theorem pending_of_writing {e : Endpoint} (h : 0 < e.writing) :
    0 < e.pending :=
  Nat.add_pos_right _ h

end Endpoint

/-- A `NorbitConnection` as its handlers find it, and whether
`closeConnections` has been called. -/
structure Handles (β ω : Type) where
  sockets_ : Sock → Endpoint
  callbacks : Callbacks β ω
  closed : Bool

namespace Handles

variable {β ω : Type}

/-- `NorbitConnection()`. -/
def new : Handles β ω where
  sockets_ _ := Endpoint.null
  callbacks := ⟨[], []⟩
  closed := false

/-- The connection with the socket `k` changed. -/
def update (c : Handles β ω) (k : Sock) (f : Endpoint → Endpoint) :
    Handles β ω :=
  { c with sockets_ := Function.update c.sockets_ k (f (c.sockets_ k)) }

/-- `addCallback` connects its socket when it is null or not open. -/
def needsConnect (c : Handles β ω) (k : DataSock) : Bool :=
  !(c.sockets_ (.data k)).is_open

/-- The part that the two overloads of `addCallback` share, behind
`push_back`. -/
def connectData (address_ok : Bool) (c : Handles β ω) (k : DataSock) :
    Handles β ω :=
  if c.needsConnect k then
    c.update (.data k) (Endpoint.async_connect address_ok)
  else c

/-- `bathymetry_callbacks_.push_back`. -/
def pushBathymetry (c : Handles β ω) (cb : β) : Handles β ω :=
  { c with
    callbacks :=
      { c.callbacks with
        bathymetry_callbacks := c.callbacks.bathymetry_callbacks ++ [cb] } }

/-- `watercolumn_callbacks_.push_back`. -/
def pushWaterColumn (c : Handles β ω) (cb : ω) : Handles β ω :=
  { c with
    callbacks :=
      { c.callbacks with
        watercolumn_callbacks := c.callbacks.watercolumn_callbacks ++ [cb] } }

/-- `addCallback(BathymetryCallback)`. -/
def addBathymetryCallback (address_ok : Bool) (c : Handles β ω) (cb : β) :
    Handles β ω :=
  (c.pushBathymetry cb).connectData address_ok .bathymetric

/-- `addCallback(WaterColumnCallback)`. -/
def addWaterColumnCallback (address_ok : Bool) (c : Handles β ω) (cb : ω) :
    Handles β ω :=
  (c.pushWaterColumn cb).connectData address_ok .water_column

/-- `connect` up to its loop. -/
def connect (address_ok : Bool) (c : Handles β ω) : Handles β ω :=
  c.update .cmd (Endpoint.async_connect address_ok)

/-- `closeConnections`. -/
def closeConnections (c : Handles β ω) : Handles β ω :=
  { c with sockets_ := fun k => (c.sockets_ k).close, closed := true }

@[simp] theorem update_callbacks (c : Handles β ω) (k : Sock)
    (f : Endpoint → Endpoint) : (c.update k f).callbacks = c.callbacks := rfl

@[simp] theorem update_self (c : Handles β ω) (k : Sock)
    (f : Endpoint → Endpoint) :
    (c.update k f).sockets_ k = f (c.sockets_ k) :=
  Function.update_self k _ c.sockets_

theorem update_of_ne (c : Handles β ω) {k j : Sock} (f : Endpoint → Endpoint)
    (h : j ≠ k) : (c.update k f).sockets_ j = c.sockets_ j :=
  Function.update_of_ne h _ c.sockets_

/-- A property of all sockets survives the change of one. -/
theorem forall_update {c : Handles β ω} {k : Sock} {f : Endpoint → Endpoint}
    {P : Sock → Endpoint → Prop} (hc : ∀ j, P j (c.sockets_ j))
    (hk : P k (f (c.sockets_ k))) (j : Sock) :
    P j ((c.update k f).sockets_ j) := by
  by_cases h : j = k
  · rw [h, update_self]
    exact hk
  · rw [update_of_ne c f h]
    exact hc j

/-- A change that keeps the socket does not make `addCallback` connect it. -/
theorem needsConnect_update (c : Handles β ω) (k : Sock)
    {f : Endpoint → Endpoint} (hf : ∀ e : Endpoint, (f e).socket = e.socket)
    (j : DataSock) : (c.update k f).needsConnect j = c.needsConnect j := by
  by_cases h : Sock.data j = k
  · simp only [needsConnect, h, update_self, Endpoint.is_open, hf]
  · rw [needsConnect, needsConnect, update_of_ne c f h]

theorem connectData_of_needsConnect {c : Handles β ω} {k : DataSock}
    (h : c.needsConnect k = true) (address_ok : Bool) :
    c.connectData address_ok k =
      c.update (.data k) (Endpoint.async_connect address_ok) :=
  if_pos h

theorem connectData_of_open {c : Handles β ω} {k : DataSock}
    (h : c.needsConnect k = false) (address_ok : Bool) :
    c.connectData address_ok k = c := by
  rw [connectData, h]
  rfl

@[simp] theorem connectData_callbacks (address_ok : Bool) (c : Handles β ω)
    (k : DataSock) :
    (c.connectData address_ok k).callbacks = c.callbacks := by
  cases h : c.needsConnect k with
  | true => rw [connectData_of_needsConnect h, update_callbacks]
  | false => rw [connectData_of_open h]

end Handles

end NorbitDriver
