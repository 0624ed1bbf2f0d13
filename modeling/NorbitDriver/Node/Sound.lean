import NorbitDriver.Node.Lifecycle

/-!
# Sound connections

A handler that runs has an operation that was started on its socket, and a
callback was added behind its publisher; both stay until the connection is gone.
A connection is sound when this holds and `closeConnections` has not been called
on it. `on_configure` makes a sound connection, and `connect`, the commands and
the handlers keep it sound.
-/

namespace NorbitDriver

namespace Publisher

/-- The publishers of the callbacks that a connection has. -/
def registered (c : NodeConnection) : List Publisher :=
  c.callbacks.bathymetry_callbacks.map bathymetry ++
    c.callbacks.watercolumn_callbacks.map watercolumn

/-- A frame is passed to callbacks that the connection has. -/
theorem ofInvocation_mem_registered {c : NodeConnection} {msg : Message}
    {inv : Invocation BathymetryPublisher WaterColumnPublisher}
    (h : inv ∈ c.callbacks.dispatch msg) : ofInvocation inv ∈ registered c := by
  rw [Callbacks.dispatch, List.mem_append] at h
  rw [registered, List.mem_append]
  cases h with
  | inl h =>
      split_ifs at h
      · obtain ⟨data, -, hinv⟩ := List.mem_flatMap.mp h
        obtain ⟨cb, hcb, rfl⟩ := List.mem_map.mp hinv
        exact Or.inl (List.mem_map_of_mem hcb)
      · exact absurd h List.not_mem_nil
  | inr h =>
      split_ifs at h
      · obtain ⟨data, -, hinv⟩ := List.mem_flatMap.mp h
        obtain ⟨cb, hcb, rfl⟩ := List.mem_map.mp hinv
        exact Or.inr (List.mem_map_of_mem hcb)
      · exact absurd h List.not_mem_nil

theorem registered_pushBathymetry (c : NodeConnection)
    (p : BathymetryPublisher) (q : Publisher) :
    q ∈ registered (c.pushBathymetry p) ↔
      q ∈ registered c ∨ q = bathymetry p := by
  simp only [registered, Handles.pushBathymetry, List.map_append,
    List.mem_append, List.map_cons, List.map_nil, List.mem_singleton]
  tauto

theorem registered_pushWaterColumn (c : NodeConnection)
    (p : WaterColumnPublisher) (q : Publisher) :
    q ∈ registered (c.pushWaterColumn p) ↔
      q ∈ registered c ∨ q = watercolumn p := by
  simp only [registered, Handles.pushWaterColumn, List.map_append,
    List.mem_append, List.map_cons, List.map_nil, List.mem_singleton]
  tauto

end Publisher

/-- A connection that the node holds: operations are pending on sockets that
there are, its callbacks have their publishers, and it has not been closed. -/
structure Sound (publishers : Publisher → Bool) (c : NodeConnection) :
    Prop where
  socket : ∀ k, 0 < (c.sockets_ k).pending → (c.sockets_ k).socket.isSome
  publisher : ∀ p ∈ Publisher.registered c, publishers p = true
  closed : c.closed = false

namespace Sound

variable {publishers : Publisher → Bool} {c : NodeConnection}

theorem new : Sound publishers Handles.new where
  socket _ hk := absurd hk (Nat.lt_irrefl 0)
  publisher _ hp := absurd hp List.not_mem_nil
  closed := rfl

/-- The callbacks that messages are passed to have their publishers. -/
theorem publisher_of_dispatch (h : Sound publishers c) (msgs : List Message) :
    ∀ p ∈ (msgs.flatMap c.callbacks.dispatch).map Publisher.ofInvocation,
      publishers p = true := by
  intro p hp
  obtain ⟨inv, hinv, rfl⟩ := List.mem_map.mp hp
  obtain ⟨msg, -, hmsg⟩ := List.mem_flatMap.mp hinv
  exact h.publisher _ (Publisher.ofInvocation_mem_registered hmsg)

theorem update (h : Sound publishers c) (k : Sock) {f : Endpoint → Endpoint}
    (hk : 0 < (f (c.sockets_ k)).pending → (f (c.sockets_ k)).socket.isSome) :
    Sound publishers (c.update k f) where
  socket := Handles.forall_update
    (P := fun _ e => 0 < e.pending → e.socket.isSome) h.socket hk
  publisher := h.publisher
  closed := h.closed

/-- A socket whose handler runs stays. -/
theorem update_of_pending (h : Sound publishers c) {k : Sock}
    {f : Endpoint → Endpoint} (hk : 0 < (c.sockets_ k).pending)
    (hf : ∀ e : Endpoint, (f e).socket = e.socket) :
    Sound publishers (c.update k f) := by
  refine h.update k fun _ => ?_
  rw [hf]
  exact h.socket k hk

theorem async_connect (h : Sound publishers c) (k : Sock) (address_ok : Bool) :
    Sound publishers (c.update k (Endpoint.async_connect address_ok)) :=
  h.update k fun _ => rfl

theorem connectData (h : Sound publishers c) (address_ok : Bool)
    (k : DataSock) : Sound publishers (c.connectData address_ok k) := by
  cases hneeds : c.needsConnect k with
  | true =>
      rw [Handles.connectData_of_needsConnect hneeds]
      exact h.async_connect (.data k) address_ok
  | false =>
      rw [Handles.connectData_of_open hneeds]
      exact h

theorem async_write (h : Sound publishers c)
    (hopen : Node.cmdOpen c = true) :
    Sound publishers (c.update .cmd Endpoint.async_write) := by
  refine h.update .cmd fun _ => ?_
  have hsocket : (c.sockets_ .cmd).socket = some true :=
    of_decide_eq_true hopen
  rw [Endpoint.async_write, hsocket]
  rfl

/-- A callback is added behind its publisher. -/
theorem addCallback (h : Sound publishers c) {p : Publisher}
    (hp : publishers p = true) (address_ok : Bool) :
    Sound publishers (p.addCallback address_ok c) := by
  cases p with
  | bathymetry p =>
      refine connectData (c := c.pushBathymetry p)
        ⟨h.socket, fun q hq => ?_, h.closed⟩ address_ok .bathymetric
      cases (Publisher.registered_pushBathymetry c p q).mp hq with
      | inl hold => exact h.publisher q hold
      | inr hnew => exact hnew ▸ hp
  | watercolumn p =>
      refine connectData (c := c.pushWaterColumn p)
        ⟨h.socket, fun q hq => ?_, h.closed⟩ address_ok .water_column
      cases (Publisher.registered_pushWaterColumn c p q).mp hq with
      | inl hold => exact h.publisher q hold
      | inr hnew => exact hnew ▸ hp

theorem made (h : Sound publishers c) (p : Publisher) :
    Sound (Function.update publishers p true) c := by
  refine ⟨h.socket, fun q hq => ?_, h.closed⟩
  by_cases heq : q = p
  · rw [heq, Function.update_self]
  · rw [Function.update_of_ne heq]
    exact h.publisher q hq

/-- `on_configure` makes a publisher in front of its callback. -/
theorem register (h : Sound publishers c) (address_ok : Bool)
    (publish : Publisher → Bool) (ps : List Publisher) :
    Sound (Node.register address_ok publish ps publishers c).1
      (Node.register address_ok publish ps publishers c).2.1 := by
  induction ps generalizing publishers c with
  | nil => exact h
  | cons p ps ih =>
      have hnext := (h.made p).addCallback
        (Function.update_self p true publishers) address_ok
      rw [Node.register]
      split_ifs
      · exact hnext
      · exact ih hnext
      · exact ih h

end Sound

end NorbitDriver
