import NorbitDriver.Connection.Handles

/-!
# Receive chains

A data socket is connected by the first `addCallback` for it, and read by a
chain: the connect handler starts the first receive, and the handler of a
receive starts the next one behind `processHdrMsg`. The machine lets callbacks
be added and the handlers run in any order, the handlers only during
`spin_once`, and keeps apart the two ends of a receive handler, between which
`processHdrMsg` reads the payload. An exception leaves `spin_once`.

There is one connect and one chain for each socket, and a frame goes to the
callbacks that have been added by then.
-/

namespace NorbitDriver

open Transition

/-- A connection before `closeConnections`: whether `spin_once` is running, and
the socket and header that `processHdrMsg` is reading the payload for. -/
structure Registration (β ω : Type) where
  handles : Handles β ω
  spinning : Bool
  reading : Option (DataSock × List UInt8)

inductive RegistrationEvent (β ω : Type)
  | addBathymetryCallback (cb : β)
  | addWaterColumnCallback (cb : ω)
  | spin_once
  | spinEnds
  | connected (k : DataSock) (ok : Bool)
  | received (k : DataSock) (bytes : List UInt8)
  | processed (unread : List UInt8)
  | payloadFails

inductive RegistrationAction (β ω : Type)
  | connectStarted (k : DataSock)
  | receiveStarted (k : DataSock)
  | invoked (inv : Invocation β ω)

namespace Registration

variable {β ω : Type}

/-- A connection as it is made. -/
def start : Registration β ω where
  handles := Handles.new
  spinning := false
  reading := none

/-- The connect that `addCallback` starts. -/
def connectActions (address_ok : Bool) (c : Handles β ω) (k : DataSock) :
    List (RegistrationAction β ω) :=
  if c.needsConnect k && address_ok then [.connectStarted k] else []

/-- The thread runs handlers, and none is running. -/
def free (r : Registration β ω) : Bool :=
  r.spinning && r.reading.isNone

/-- The connection under every order of registrations and handlers. -/
def machine (address_ok : Bool) :
    Machine (Registration β ω) (RegistrationEvent β ω)
      (RegistrationAction β ω) where
  step r
    | .addBathymetryCallback cb =>
        if r.spinning then none
        else
          some ({ r with
            handles := r.handles.addBathymetryCallback address_ok cb },
            connectActions address_ok r.handles .bathymetric)
    | .addWaterColumnCallback cb =>
        if r.spinning then none
        else
          some ({ r with
            handles := r.handles.addWaterColumnCallback address_ok cb },
            connectActions address_ok r.handles .water_column)
    | .spin_once =>
        if r.spinning then none else some ({ r with spinning := true }, [])
    | .spinEnds =>
        if r.free then some ({ r with spinning := false }, []) else none
    | .connected k ok =>
        if r.free && 0 < (r.handles.sockets_ (.data k)).connecting then
          if ok then
            some ({ r with
              handles := r.handles.update (.data k) Endpoint.connected },
              [.receiveStarted k])
          else
            some ({ r with
              handles := r.handles.update (.data k) Endpoint.connectFailed
              spinning := false }, [])
        else none
    | .received k bytes =>
        if r.free && 0 < (r.handles.sockets_ (.data k)).reading &&
            bytes.length ≤ 24 then
          some ({ r with
            handles := r.handles.update (.data k) Endpoint.received
            reading := some (k, headerBuffer bytes) }, [])
        else none
    | .processed unread =>
        match r.reading with
        | none => none
        | some (k, hdr) =>
            match processHdrMsg hdr unread with
            | .error _ => none
            | .ok (msg, _) =>
                some ({ r with
                  handles := r.handles.update (.data k) Endpoint.receive
                  reading := none },
                  (msg.toList.flatMap r.handles.callbacks.dispatch).map
                    .invoked ++ [.receiveStarted k])
    | .payloadFails =>
        match r.reading with
        | none => none
        | some (_, hdr) =>
            if Message.headerValid (Message.fromBoostArray hdr) then
              some ({ r with spinning := false, reading := none }, [])
            else none

/-- The callbacks added in a list of events. -/
def added (es : List (RegistrationEvent β ω)) : Callbacks β ω where
  bathymetry_callbacks := es.filterMap fun
    | .addBathymetryCallback cb => some cb
    | _ => none
  watercolumn_callbacks := es.filterMap fun
    | .addWaterColumnCallback cb => some cb
    | _ => none

/-- The callbacks invoked in a list of observations. -/
def invoked (os : List (RegistrationAction β ω)) : List (Invocation β ω) :=
  os.filterMap fun
    | .invoked inv => some inv
    | _ => none

/-- One if `processHdrMsg` is reading a payload from the socket. -/
def busy (r : Registration β ω) (k : DataSock) : ℕ :=
  if r.reading.any fun p => p.1 = k then 1 else 0

/-- The chains on a socket: connects, receives, and `processHdrMsg`. -/
def chains (r : Registration β ω) (k : DataSock) : ℕ :=
  (r.handles.sockets_ (.data k)).connecting +
    (r.handles.sockets_ (.data k)).reading + r.busy k

/-- A socket that `addCallback` would connect has no chain, and every socket has
at most one. -/
structure OneChain (r : Registration β ω) : Prop where
  le : ∀ k, r.chains k ≤ 1
  fresh : ∀ k, r.handles.needsConnect k = true → r.chains k = 0

/-- What a connection can do. -/
inductive Step (address_ok : Bool) (r : Registration β ω) :
    RegistrationEvent β ω → Registration β ω →
      List (RegistrationAction β ω) → Prop
  | addBathymetryCallback (cb : β) :
      Step address_ok r (.addBathymetryCallback cb)
        { r with handles := r.handles.addBathymetryCallback address_ok cb }
        (connectActions address_ok r.handles .bathymetric)
  | addWaterColumnCallback (cb : ω) :
      Step address_ok r (.addWaterColumnCallback cb)
        { r with handles := r.handles.addWaterColumnCallback address_ok cb }
        (connectActions address_ok r.handles .water_column)
  | spin_once : Step address_ok r .spin_once { r with spinning := true } []
  | spinEnds : Step address_ok r .spinEnds { r with spinning := false } []
  | connected (k : DataSock)
      (pending : 0 < (r.handles.sockets_ (.data k)).connecting) :
      Step address_ok r (.connected k true)
        { r with handles := r.handles.update (.data k) Endpoint.connected }
        [.receiveStarted k]
  | connectFailed (k : DataSock) :
      Step address_ok r (.connected k false)
        { r with
          handles := r.handles.update (.data k) Endpoint.connectFailed
          spinning := false } []
  | received (k : DataSock) (bytes : List UInt8) (none_read : r.reading = none)
      (pending : 0 < (r.handles.sockets_ (.data k)).reading) :
      Step address_ok r (.received k bytes)
        { r with
          handles := r.handles.update (.data k) Endpoint.received
          reading := some (k, headerBuffer bytes) } []
  | processed {k : DataSock} {hdr unread rest : List UInt8}
      {msg : Option Message} (reading : r.reading = some (k, hdr))
      (ok : processHdrMsg hdr unread = .ok (msg, rest)) :
      Step address_ok r (.processed unread)
        { r with
          handles := r.handles.update (.data k) Endpoint.receive
          reading := none }
        ((msg.toList.flatMap r.handles.callbacks.dispatch).map .invoked ++
          [.receiveStarted k])
  | payloadFails :
      Step address_ok r .payloadFails
        { r with spinning := false, reading := none } []

/-- Every step of the machine is one of these. -/
theorem step_of_machine {address_ok : Bool} {r t : Registration β ω}
    {e : RegistrationEvent β ω} {os : List (RegistrationAction β ω)}
    (h : (machine address_ok).step r e = some (t, os)) :
    Step address_ok r e t os := by
  cases e with
  | addBathymetryCallback cb =>
      obtain ⟨-, heq⟩ := Option.ite_none_left_eq_some.mp h
      cases heq
      exact Step.addBathymetryCallback cb
  | addWaterColumnCallback cb =>
      obtain ⟨-, heq⟩ := Option.ite_none_left_eq_some.mp h
      cases heq
      exact Step.addWaterColumnCallback cb
  | spin_once =>
      obtain ⟨-, heq⟩ := Option.ite_none_left_eq_some.mp h
      cases heq
      exact Step.spin_once
  | spinEnds =>
      obtain ⟨-, heq⟩ := Option.ite_none_right_eq_some.mp h
      cases heq
      exact Step.spinEnds
  | connected k ok =>
      obtain ⟨hguard, heq⟩ := Option.ite_none_right_eq_some.mp h
      rw [Bool.and_eq_true, decide_eq_true_eq] at hguard
      cases ok with
      | true =>
          cases heq
          exact Step.connected k hguard.2
      | false =>
          cases heq
          exact Step.connectFailed k
  | received k bytes =>
      obtain ⟨hguard, heq⟩ := Option.ite_none_right_eq_some.mp h
      simp only [free, Bool.and_eq_true, Option.isNone_iff_eq_none,
        decide_eq_true_eq] at hguard
      cases heq
      exact Step.received k bytes hguard.1.1.2 hguard.1.2
  | processed unread =>
      cases hreading : r.reading with
      | none => simp [machine, hreading] at h
      | some p =>
          obtain ⟨k, hdr⟩ := p
          cases hprocess : processHdrMsg hdr unread with
          | error fault => simp [machine, hreading, hprocess] at h
          | ok q =>
              obtain ⟨msg, rest⟩ := q
              simp only [machine, hreading, hprocess, Option.some.injEq,
                Prod.mk.injEq] at h
              rw [← h.1, ← h.2]
              exact Step.processed hreading hprocess
  | payloadFails =>
      cases hreading : r.reading with
      | none => simp [machine, hreading] at h
      | some p =>
          simp only [machine, hreading, Option.ite_none_right_eq_some,
            Option.some.injEq, Prod.mk.injEq] at h
          rw [← h.2.1, ← h.2.2]
          exact Step.payloadFails

theorem busy_of_reading {r : Registration β ω} {k : DataSock}
    {hdr : List UInt8} (h : r.reading = some (k, hdr)) : r.busy k = 1 := by
  simp [busy, h]

/-- A step that leads to no more chains and leaves the sockets open. -/
theorem OneChain.of_le {r t : Registration β ω} (hr : r.OneChain)
    (hle : ∀ k, t.chains k ≤ r.chains k)
    (hopen : ∀ k, t.handles.needsConnect k = r.handles.needsConnect k) :
    t.OneChain where
  le k := (hle k).trans (hr.le k)
  fresh k hk := by
    have hzero := hr.fresh k ((hopen k).symm.trans hk)
    exact Nat.le_zero.mp ((hle k).trans_eq hzero)

/-- A change of one socket concerns the others only through the payload that is
being read. -/
theorem chains_update_of_ne (r : Registration β ω) {j k : DataSock}
    (h : j ≠ k) (f : Endpoint → Endpoint) (spinning : Bool)
    (reading : Option (DataSock × List UInt8)) :
    let t : Registration β ω :=
      { handles := r.handles.update (.data k) f, spinning, reading }
    t.chains j + r.busy j = r.chains j + t.busy j ∧
      t.handles.needsConnect j = r.handles.needsConnect j := by
  have hne : Sock.data j ≠ Sock.data k := fun heq => h (Sock.data.inj heq)
  have hsame := Handles.update_of_ne r.handles f hne
  simp only [chains, Handles.needsConnect, hsame]
  exact ⟨Nat.add_right_comm _ _ _, trivial⟩

/-- So does a change of one socket that adds no chain to it. -/
theorem OneChain.update {r : Registration β ω} (hr : r.OneChain) (k : DataSock)
    {f : Endpoint → Endpoint} {reading : Option (DataSock × List UInt8)}
    (spinning : Bool) (hsocket : ∀ e : Endpoint, (f e).socket = e.socket)
    (hle : Registration.chains
      { handles := r.handles.update (.data k) f, spinning, reading } k ≤
        r.chains k)
    (hother : ∀ j, j ≠ k → Registration.busy
      { handles := r.handles.update (.data k) f, spinning, reading } j ≤
        r.busy j) :
    OneChain
      { handles := r.handles.update (.data k) f, spinning, reading } := by
  refine hr.of_le (fun j => ?_) ?_
  · by_cases hj : j = k
    · rw [hj]
      exact hle
    · obtain ⟨hchains, -⟩ := chains_update_of_ne r hj f spinning reading
      have hbusy := hother j hj
      omega
  · exact r.handles.needsConnect_update (.data k) hsocket

/-- The connect that `addCallback` starts is the only chain on its socket. -/
theorem OneChain.connectData {r : Registration β ω} (hr : r.OneChain)
    (address_ok : Bool) (k : DataSock) :
    OneChain { r with handles := r.handles.connectData address_ok k } := by
  cases hneeds : r.handles.needsConnect k with
  | false =>
      rw [Handles.connectData_of_open hneeds]
      exact hr
  | true =>
      rw [Handles.connectData_of_needsConnect hneeds]
      have hnone := hr.fresh k hneeds
      have hself : ∀ ok : Bool, Registration.chains { r with
          handles :=
            r.handles.update (.data k) (Endpoint.async_connect ok) } k =
              if ok then 1 else 0 := by
        intro ok
        rw [chains] at hnone
        simp only [chains, Handles.update_self, Endpoint.async_connect]
        cases ok with
        | true =>
            change _ + 1 + (r.handles.sockets_ (.data k)).reading +
              r.busy k = 1
            omega
        | false => exact hnone
      constructor
      · intro j
        by_cases hj : j = k
        · rw [hj, hself]
          cases address_ok with
          | true => exact Nat.le_refl 1
          | false => exact Nat.zero_le 1
        · have hle := hr.le j
          obtain ⟨hchains, -⟩ := chains_update_of_ne r hj
            (Endpoint.async_connect address_ok) r.spinning r.reading
          exact (Nat.add_right_cancel hchains).trans_le hle
      · intro j hjneeds
        by_cases hj : j = k
        · rw [hj] at hjneeds ⊢
          rw [hself]
          cases address_ok with
          | true =>
              simp [Handles.needsConnect, Endpoint.is_open,
                Endpoint.async_connect] at hjneeds
          | false => rfl
        · obtain ⟨hchains, hsame⟩ := chains_update_of_ne r hj
            (Endpoint.async_connect address_ok) r.spinning r.reading
          have hzero := hr.fresh j (hsame.symm.trans hjneeds)
          exact (Nat.add_right_cancel hchains).trans hzero

/-- One if the socket is open. -/
def opened (c : Handles β ω) (k : DataSock) : ℕ :=
  if c.needsConnect k then 0 else 1

/-- The callbacks at the end of a run are those at its start and those that
have been added. -/
theorem run_callbacks {address_ok : Bool} {r t : Registration β ω}
    {es : List (RegistrationEvent β ω)} {os : List (RegistrationAction β ω)}
    (h : (machine address_ok).run r es = some (t, os)) :
    t.handles.callbacks =
      ⟨r.handles.callbacks.bathymetry_callbacks ++
          (added es).bathymetry_callbacks,
        r.handles.callbacks.watercolumn_callbacks ++
          (added es).watercolumn_callbacks⟩ :=
  (machine address_ok).run_record
    (I := fun t es _ => t.handles.callbacks =
      ⟨r.handles.callbacks.bathymetry_callbacks ++
          (added es).bathymetry_callbacks,
        r.handles.callbacks.watercolumn_callbacks ++
          (added es).watercolumn_callbacks⟩)
    (fun t fs ps e u o hkept _ hstep => by
      cases step_of_machine hstep with
      | addBathymetryCallback cb =>
          simp [added, Handles.addBathymetryCallback, Handles.pushBathymetry,
            hkept]
      | addWaterColumnCallback cb =>
          simp [added, Handles.addWaterColumnCallback, Handles.pushWaterColumn,
            hkept]
      | _ => simpa [added] using hkept)
    (by simp [added]) ((machine address_ok).meets_true r es) h

/-- Two callbacks, the connect, and a header whose payload is being read. -/
def twoCallbacks : List (RegistrationEvent Bool Unit) :=
  [.addBathymetryCallback false, .addBathymetryCallback true, .spin_once,
    .connected .bathymetric true, .received .bathymetric Frame.ping.header]

end Registration

end NorbitDriver
