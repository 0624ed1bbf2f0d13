import NorbitDriver.Connection.Chains
import NorbitDriver.Transition.Tally

/-!
# How long a socket is read

The chain of a data socket begins with the connect that the first callback for
it starts, and goes on from one handler to the next. It ends in two ways only: a
connect that fails, and a payload whose read throws. Nothing begins it again,
because the socket stays open behind the exception and a further callback does
not connect an open socket. Hence for each socket the chains and the failures of
a run add up to one as soon as a callback has been added, and a socket that has
failed is never read again.
-/

namespace NorbitDriver

open Transition

namespace Registration

variable {β ω : Type}

/-- One if a handler of the socket throws on the event. -/
def failure (k : DataSock) (r : Registration β ω) :
    RegistrationEvent β ω → ℕ
  | .connected j ok => if j = k && !ok then 1 else 0
  | .payloadFails => r.busy k
  | _ => 0

/-- The failures of a socket in the run from the start. -/
def failures (address_ok : Bool) (k : DataSock)
    (es : List (RegistrationEvent β ω)) : ℕ :=
  (machine address_ok).tally (failure k) start es

/-- The socket is connected by the callbacks that have been added. -/
def wanted (cbs : Callbacks β ω) : DataSock → Bool
  | .bathymetric => !cbs.bathymetry_callbacks.isEmpty
  | .water_column => !cbs.watercolumn_callbacks.isEmpty

/-- The event belongs to the chain of the socket. -/
def Concerns (k : DataSock) (r : Registration β ω) :
    RegistrationEvent β ω → Prop
  | .connected j _ => j = k
  | .received j _ => j = k
  | .processed _ => r.busy k = 1
  | .payloadFails => r.busy k = 1
  | _ => False

theorem chains_connectData (r : Registration β ω) (address_ok : Bool)
    (j k : DataSock) :
    Registration.chains
        { r with handles := r.handles.connectData address_ok j } k +
          opened r.handles k =
      r.chains k + opened (r.handles.connectData address_ok j) k := by
  cases hneeds : r.handles.needsConnect j with
  | false => rw [Handles.connectData_of_open hneeds]
  | true =>
      rw [Handles.connectData_of_needsConnect hneeds]
      by_cases hk : k = j
      · rw [hk, opened, if_pos hneeds, opened, Handles.needsConnect]
        simp only [chains, Handles.update_self]
        cases address_ok with
        | true =>
            change _ + 1 + (r.handles.sockets_ (.data j)).reading + r.busy j +
              0 = _ + _ + r.busy j + 1
            omega
        | false => rfl
      · obtain ⟨hchains, hsame⟩ := chains_update_of_ne r hk
          (Endpoint.async_connect address_ok) r.spinning r.reading
        rw [opened, opened, hsame]
        exact congrArg (· + _) (Nat.add_right_cancel hchains)

/-- A change of a socket that stays moves its chains only. -/
theorem chains_update (r : Registration β ω) (j k : DataSock)
    (f : Endpoint → Endpoint) (spinning : Bool)
    (reading : Option (DataSock × List UInt8))
    (hsocket : ∀ e : Endpoint, (f e).socket = e.socket) {n : ℕ}
    (hself : k = j → Registration.chains
      { handles := r.handles.update (.data j) f, spinning, reading } j + n =
        r.chains j)
    (hother : k ≠ j → n = 0 ∧ r.busy k = Registration.busy
      { handles := r.handles.update (.data j) f, spinning, reading } k) :
    Registration.chains
        { handles := r.handles.update (.data j) f, spinning, reading } k + n +
          opened r.handles k =
      r.chains k + opened (r.handles.update (.data j) f) k := by
  rw [opened, opened, r.handles.needsConnect_update (.data j) hsocket]
  congr 1
  by_cases hk : k = j
  · rw [hk]
    exact hself hk
  · obtain ⟨hn, hbusy⟩ := hother hk
    obtain ⟨hchains, -⟩ := chains_update_of_ne r hk f spinning reading
    rw [hn, Nat.add_zero]
    rw [← hbusy] at hchains
    exact Nat.add_right_cancel hchains

/-- The chains of a socket change by the connects that are started and the
handlers that throw. -/
theorem step_chains {address_ok : Bool} {r t : Registration β ω}
    {e : RegistrationEvent β ω} {os : List (RegistrationAction β ω)}
    (h : (machine address_ok).step r e = some (t, os)) (k : DataSock) :
    t.chains k + failure k r e + opened r.handles k =
      r.chains k + opened t.handles k := by
  have hguard : ∀ j, e = .connected j false →
      0 < (r.handles.sockets_ (.data j)).connecting := by
    rintro j rfl
    obtain ⟨hguard, -⟩ := Option.ite_none_right_eq_some.mp h
    rw [Bool.and_eq_true, decide_eq_true_eq] at hguard
    exact hguard.2
  cases step_of_machine h with
  | addBathymetryCallback cb =>
      exact chains_connectData
        { r with handles := r.handles.pushBathymetry cb } address_ok
        .bathymetric k
  | addWaterColumnCallback cb =>
      exact chains_connectData
        { r with handles := r.handles.pushWaterColumn cb } address_ok
        .water_column k
  | spin_once => rfl
  | spinEnds => rfl
  | connected j pending =>
      have hnone : failure k r (.connected j true) = 0 := by
        rw [failure, Bool.not_true, Bool.and_false]
        rfl
      rw [hnone]
      refine chains_update r j k Endpoint.connected r.spinning r.reading
        (fun _ => rfl)
        (fun _ => ?_) (fun _ => ⟨rfl, rfl⟩)
      simp only [chains, Handles.update_self, Endpoint.connected]
      change _ + r.busy j + 0 = _
      omega
  | connectFailed j =>
      have pending := hguard j rfl
      refine chains_update r j k Endpoint.connectFailed false r.reading
        (fun _ => rfl)
        (fun hk => ?_) (fun hk => ⟨?_, rfl⟩)
      · have hone : failure k r (.connected j false) = 1 := by
          simp [failure, hk]
        rw [hone]
        simp only [chains, Handles.update_self, Endpoint.connectFailed]
        change _ + r.busy j + 1 = _
        omega
      · simp [failure, Ne.symm hk]
  | received j bytes none_read pending =>
      refine chains_update r j k Endpoint.received r.spinning _ (fun _ => rfl)
        (fun _ => ?_) (fun hk => ⟨rfl, ?_⟩)
      · have hidle : r.busy j = 0 := by simp [busy, none_read]
        simp only [chains, Handles.update_self, Endpoint.received]
        rw [busy_of_reading rfl, hidle]
        change _ + _ + 1 + 0 = _
        omega
      · simp [busy, none_read, Ne.symm hk]
  | @processed j hdr unread rest msg reading ok =>
      refine chains_update r j k Endpoint.receive r.spinning none (fun _ => rfl)
        (fun _ => ?_) (fun hk => ⟨rfl, ?_⟩)
      · simp only [chains, Handles.update_self, Endpoint.receive]
        rw [busy_of_reading reading]
        rfl
      · simp [busy, reading, Ne.symm hk]
  | payloadFails => rfl

theorem opened_connectData (address_ok : Bool) (c : Handles β ω)
    (j k : DataSock) :
    opened (c.connectData address_ok j) k =
      if address_ok && j = k then 1 else opened c k := by
  cases hneeds : c.needsConnect j with
  | false =>
      rw [Handles.connectData_of_open hneeds]
      split_ifs with hjk
      · rw [Bool.and_eq_true, decide_eq_true_eq] at hjk
        rw [opened, ← hjk.2, hneeds]
        rfl
      · rfl
  | true =>
      rw [Handles.connectData_of_needsConnect hneeds]
      by_cases hk : k = j
      · rw [hk, opened, opened, Handles.needsConnect, Handles.update_self]
        cases address_ok with
        | true => rw [decide_eq_true rfl]; rfl
        | false => rw [if_pos hneeds]; rfl
      · have hne : Sock.data k ≠ Sock.data j :=
          fun heq => hk (Sock.data.inj heq)
        rw [opened, opened, Handles.needsConnect,
          Handles.update_of_ne c _ hne, decide_eq_false (Ne.symm hk),
          Bool.and_false]
        rfl

/-- A socket is open behind a callback for it that could connect. -/
theorem run_opened {address_ok : Bool} {t : Registration β ω}
    {es : List (RegistrationEvent β ω)} {os : List (RegistrationAction β ω)}
    (h : (machine address_ok).run start es = some (t, os)) (k : DataSock) :
    opened t.handles k =
      if address_ok && wanted (added es) k then 1 else 0 := by
  have hkept : ∀ (c : Handles β ω) (j : DataSock) (f : Endpoint → Endpoint),
      (∀ e : Endpoint, (f e).socket = e.socket) →
        opened (c.update (.data j) f) k = opened c k := by
    intro c j f hf
    rw [opened, opened, c.needsConnect_update (.data j) hf]
  refine (machine address_ok).run_record
    (I := fun t es _ => opened t.handles k =
      if address_ok && wanted (added es) k then 1 else 0)
    (fun t fs ps e u o hopened _ hstep => ?_) ?_
    ((machine address_ok).meets_true start es) h
  · cases step_of_machine hstep with
    | addBathymetryCallback cb =>
        refine (opened_connectData address_ok
          (t.handles.pushBathymetry cb) .bathymetric k).trans ?_
        change (if _ then 1 else opened t.handles k) = _
        rw [hopened]
        cases k with
        | bathymetric => cases address_ok <;> simp [wanted, added]
        | water_column => simp [wanted, added]
    | addWaterColumnCallback cb =>
        refine (opened_connectData address_ok
          (t.handles.pushWaterColumn cb) .water_column k).trans ?_
        change (if _ then 1 else opened t.handles k) = _
        rw [hopened]
        cases k with
        | bathymetric => simp [wanted, added]
        | water_column => cases address_ok <;> simp [wanted, added]
    | connected j =>
        refine (hkept t.handles j Endpoint.connected fun _ => rfl).trans ?_
        simpa [added] using hopened
    | connectFailed j =>
        refine (hkept t.handles j Endpoint.connectFailed
          fun _ => rfl).trans ?_
        simpa [added] using hopened
    | received j =>
        refine (hkept t.handles j Endpoint.received fun _ => rfl).trans ?_
        simpa [added] using hopened
    | @processed j =>
        refine (hkept t.handles j Endpoint.receive fun _ => rfl).trans ?_
        simpa [added] using hopened
    | _ => simpa [added] using hopened
  · cases k with
    | _ => simp [wanted, added, opened, start, Handles.needsConnect,
        Handles.new, Endpoint.is_open, Endpoint.null]

/-- A handler of the socket runs only in a chain. -/
theorem chains_pos_of_concerns {address_ok : Bool} {r : Registration β ω}
    {e : RegistrationEvent β ω}
    {q : Registration β ω × List (RegistrationAction β ω)} {k : DataSock}
    (h : (machine address_ok).step r e = some q) (hc : Concerns k r e) :
    0 < r.chains k := by
  cases e with
  | connected j ok =>
      obtain ⟨hguard, -⟩ := Option.ite_none_right_eq_some.mp h
      rw [Bool.and_eq_true, decide_eq_true_eq] at hguard
      rw [← show j = k from hc]
      exact Nat.add_pos_left (Nat.add_pos_left hguard.2 _) _
  | received j bytes =>
      obtain ⟨hguard, -⟩ := Option.ite_none_right_eq_some.mp h
      simp only [Bool.and_eq_true, decide_eq_true_eq] at hguard
      rw [← show j = k from hc]
      exact Nat.add_pos_left (Nat.add_pos_right _ hguard.1.2) _
  | processed unread => exact Nat.add_pos_right _ (Nat.lt_of_lt_of_eq
      Nat.zero_lt_one (Eq.symm hc))
  | payloadFails => exact Nat.add_pos_right _ (Nat.lt_of_lt_of_eq
      Nat.zero_lt_one (Eq.symm hc))
  | _ => exact absurd hc id

/-- The chains and the failures of a socket add up to one when a callback for it
has been added to an address, and to zero otherwise. -/
theorem run_chains {address_ok : Bool} {t : Registration β ω}
    {es : List (RegistrationEvent β ω)} {os : List (RegistrationAction β ω)}
    (h : (machine address_ok).run start es = some (t, os)) (k : DataSock) :
    t.chains k + failures address_ok k es =
      if address_ok && wanted (added es) k then 1 else 0 := by
  have hbalance := (machine address_ok).run_balance
    (a := fun r => r.chains k) (b := fun r => opened r.handles k)
    (fun _ _ _ _ hstep => step_chains hstep k) h
  have hstart : opened (start : Registration β ω).handles k = 0 := rfl
  have hnone : (start : Registration β ω).chains k = 0 := rfl
  rw [hstart, hnone, run_opened h k] at hbalance
  rw [failures]
  omega

/-- How long a socket is read in a run: as long as a callback has been added for
it and nothing on it has failed, and never again behind a failure. -/
structure Reception (address_ok : Bool) (k : DataSock)
    (es : List (RegistrationEvent β ω)) (t : Registration β ω) : Prop where
  read : t.chains k = 1 ↔
    address_ok = true ∧ wanted (added es) k = true ∧
      failures address_ok k es = 0
  silent : ∀ fs e u ps, fs ++ [e] <+: es →
    (machine address_ok).run start fs = some (u, ps) →
      0 < failures address_ok k fs → ¬ Concerns k u e

/-- The reception of a socket, in every run of callbacks that are added,
handlers and exceptions. -/
theorem run_reception {address_ok : Bool} {t : Registration β ω}
    {es : List (RegistrationEvent β ω)} {os : List (RegistrationAction β ω)}
    (h : (machine address_ok).run start es = some (t, os)) (k : DataSock) :
    Reception address_ok k es t := by
  constructor
  · have hchains := run_chains h k
    split_ifs at hchains with hwanted
    · rw [Bool.and_eq_true] at hwanted
      constructor
      · intro hone
        exact ⟨hwanted.1, hwanted.2, by omega⟩
      · rintro ⟨-, -, hnone⟩
        omega
    · constructor
      · intro hone
        omega
      · rintro ⟨hok, hadded, -⟩
        rw [hok, hadded] at hwanted
        exact absurd rfl hwanted
  · intro fs e u ps hfs hrun hfailed hc
    obtain ⟨v, o, hstep⟩ := (machine address_ok).exists_step_behind h hfs hrun
    have hpos := chains_pos_of_concerns hstep hc
    have hchains := run_chains hrun k
    split_ifs at hchains
    · omega
    · omega

/-- A callback, a connect that fails, and another callback. -/
def failedConnect : List (RegistrationEvent Bool Unit) :=
  [.addBathymetryCallback false, .spin_once, .connected .bathymetric false,
    .addBathymetryCallback true, .spin_once, .spinEnds]

theorem run_reception_failedConnect :
    ∃ t os, (machine true).run start failedConnect = some (t, os) ∧
      Reception true .bathymetric failedConnect t := by
  have hsome : ((machine true).run start failedConnect).isSome := by
    decide +kernel
  obtain ⟨⟨t, os⟩, hrun⟩ := Option.isSome_iff_exists.mp hsome
  exact ⟨t, os, hrun, run_reception hrun .bathymetric⟩

end Registration

end NorbitDriver
