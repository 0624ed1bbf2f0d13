import NorbitDriver.Node.Steps

/-!
# The pointers of the node

The handlers and callbacks always find their socket and their publisher. The
connection is another matter: `spin_once` and `on_cleanup` look whether there is
one, `on_activate` and the services do not, and `on_deactivate` has dropped it.
They find it in exactly the runs in which none of them is called between a
deactivation and the next cleanup.
-/

namespace NorbitDriver

open Transition

/-- A pointer that a handler uses is set. -/
def NodeAction.Found : NodeAction → Prop
  | socketUsed _ nonnull => nonnull = true
  | publisherUsed _ nonnull => nonnull = true
  | _ => True

namespace Node

/-- A step of the node finds the sockets and publishers that it uses. -/
theorem Step.found {n t : Node} {e : NodeEvent} {os : List NodeAction}
    (h : n.Step e (t, os)) : ∀ a ∈ os, a.Found := by
  have hsockets : ∀ os : List NodeAction,
      (∀ a ∈ os, ∃ k, a = .socketUsed k true) → ∀ a ∈ os, a.Found := by
    intro os hos a ha
    obtain ⟨k, rfl⟩ := hos a ha
    rfl
  have hdestroyed : ∀ (o : Option NodeConnection) (f : NodeConnection → Bool),
      ∀ a ∈ o.toList.map (fun c => NodeAction.connectionDestroyed (f c)),
        a.Found := by
    intro o f a ha
    obtain ⟨c, -, rfl⟩ := List.mem_map.mp ha
    trivial
  have hfollowed : ∀ (os : List NodeAction) (b : NodeAction),
      (∀ a ∈ os, a.Found) → b.Found → ∀ a ∈ os ++ [b], a.Found := by
    intro os b hos hb
    exact List.forall_mem_append.mpr ⟨hos, List.forall_mem_singleton.mpr hb⟩
  cases h with
  | configure p idle lifecycle address sound goal_ne =>
      exact hfollowed _ _ (hdestroyed n.connection_ _) trivial
  | cleanup idle lifecycle =>
      exact hfollowed _ _ (hdestroyed n.connection_ _) trivial
  | destroy idle => exact hdestroyed n.connection_ _
  | handled used completes held is_open sound => simp [NodeAction.Found]
  | failed throws running sound found =>
      exact hfollowed _ _ (hsockets _ found) trivial
  | terminated throws running held is_open sound found =>
      exact hsockets os found
  | _ => simp [NodeAction.Found]

/-- Every handler that runs finds its socket, and every callback that runs finds
its publisher. -/
theorem run_found {address_ok : List Char → Bool} {t : Node}
    {es : List NodeEvent} {os : List NodeAction}
    (h : (machine address_ok).run start es = some (t, os)) :
    ∀ a ∈ os, a.Found :=
  (machine address_ok).run_observes (C := fun _ _ => True)
    (fun _ _ _ _ hn _ hstep =>
      have step := step_of_machine hn hstep
      ⟨step.invariant hn, step.found⟩)
    start_invariant ((machine address_ok).meets_true start es) h

/-- The publishers that the callbacks for a frame publish on. -/
def publishersUsed (c : NodeConnection) (f : Frame) : List Publisher :=
  (f.invocations c.callbacks).map Publisher.ofInvocation

/-- The handler of a receive passes a supported frame to its callbacks. -/
theorem handler_received {n : Node} {c : NodeConnection} {k : DataSock}
    (hk : 0 < (c.sockets_ (.data k)).reading) {f : Frame} (hs : f.Supported)
    (hh : f.Intact → f.Headed) (rest : List UInt8) :
    n.handler c (.received k f.header (f.payload ++ rest)) =
      some (n.useSocket c (.data k)
        ({ n with gone := n.gone || !(publishersUsed c f).all n.publishers },
          (publishersUsed c f).map fun p =>
            .publisherUsed p (n.publishers p))) := by
  have hlen := f.header_length
  have hcalls : (if f.Intact then some f.message else none).toList.flatMap
      c.callbacks.dispatch = f.invocations c.callbacks := by
    rw [Frame.invocations]
    split_ifs with hi
    · simp [Frame.dispatch_message c.callbacks hs]
    · rfl
  simp only [handler, hk, hlen, headerBuffer_of_length hlen,
    Frame.processHdrMsg_eq hs hh, hcalls, publishersUsed, Nat.le_refl,
    decide_true, Bool.and_self, if_true]

theorem step_received {address_ok : List Char → Bool} {n : Node}
    {c : NodeConnection} (hgone : n.gone = false)
    (held : n.connection_ = some c) (hspins : n.spins c = true) (k : DataSock)
    (bytes unread : List UInt8) :
    (machine address_ok).step n (.received k bytes unread) =
      n.handler c (.received k bytes unread) := by
  simp only [machine, hgone, held, Option.bind_some, hspins, if_true,
    Bool.false_eq_true, if_false]

/-- The defaults are configured, and the bathymetric socket is connected in a
tick of the timer. -/
def configured : List NodeEvent :=
  [.configure (Parameters.defaults ['s']), .tick,
    .connected (.data .bathymetric) true]

/-- The connection that the node holds then: it reads the bathymetric socket. -/
def configuredConnection : NodeConnection :=
  (Handles.new.addBathymetryCallback true .pointcloud).update
    (.data .bathymetric) Endpoint.connected

def configuredNode : Node :=
  { start with
    lifecycle := .inactive
    sonar_ip := ['s']
    connection_ := some configuredConnection
    publishers := Function.update start.publishers (.bathymetry .pointcloud)
      true
    services := true
    spin_timer := true
    task := .spin_once }

theorem run_configured_events : (machine fun _ => true).run start configured =
    some (configuredNode,
      [.transitioned .configure .inactive, .connectionUsed .spin_once true,
        .socketUsed (.data .bathymetric) true]) := rfl

theorem step_sounding : ∃ t, (machine fun _ => true).step configuredNode
    (.received .bathymetric Frame.sounding.header
      (Frame.sounding.payload ++ [])) = some (t,
        [.socketUsed (.data .bathymetric) true,
          .publisherUsed (.bathymetry .pointcloud) true]) := by
  have hused : publishersUsed configuredConnection Frame.sounding =
      [.bathymetry .pointcloud] := by
    rw [publishersUsed, Frame.invocations, if_pos Frame.sounding_intact]
    rfl
  have hsocket : (configuredConnection.sockets_
      (.data .bathymetric)).socket.isSome = true := rfl
  rw [step_received (c := configuredConnection) rfl rfl rfl,
    handler_received Nat.zero_lt_one Frame.sounding_supported
      (fun _ => Frame.sounding_declared.headed), hused, useSocket,
    if_pos hsocket]
  exact ⟨_, rfl⟩

/-- A frame with one detection is passed to the point cloud callback. -/
theorem run_found_sounding :
    ∃ t os, (machine fun _ => true).run start
        (configured ++ [.received .bathymetric Frame.sounding.header
          (Frame.sounding.payload ++ [])]) = some (t, os) ∧
      .publisherUsed (.bathymetry .pointcloud) true ∈ os ∧
      ∀ a ∈ os, a.Found := by
  obtain ⟨t, hstep⟩ := step_sounding
  have hrun := (machine fun _ => true).run_append_of_eq_some
    run_configured_events
    (((machine fun _ => true).run_singleton configuredNode _).trans hstep)
  exact ⟨_, _, hrun, by simp, run_found hrun⟩

/-- Every `connection_` that is used is set. -/
def ConnectionsFound (os : List NodeAction) : Prop :=
  ∀ site nonnull, .connectionUsed site nonnull ∈ os → nonnull = true

/-- The transitions that have ended, with the states that they led to. -/
def transitions (os : List NodeAction) :
    List (LifecycleTransition × Lifecycle) :=
  os.filterMap fun
    | .transitioned tr goal => some (tr, goal)
    | _ => none

/-- Whether the node has been deactivated and not been cleaned up since, behind
a transition. -/
def deactivatedBy (before : Bool) : LifecycleTransition × Lifecycle → Bool
  | (.deactivate, .inactive) => true
  | (.cleanup, _) => false
  | _ => before

/-- The node has been deactivated, and not been cleaned up since. -/
def deactivated (os : List NodeAction) : Bool :=
  (transitions os).foldl deactivatedBy false

/-- `on_activate` and the services are called only while the node is not
deactivated. -/
def NotWhileDeactivated (address_ok : List Char → Bool) (es : List NodeEvent) :
    Prop :=
  ∀ fs e site s ps, fs ++ [e] <+: es → Uses e site →
    (machine address_ok).run start fs = some (s, ps) → deactivated ps = false

theorem transitions_append (os ps : List NodeAction) :
    transitions (os ++ ps) = transitions os ++ transitions ps :=
  List.filterMap_append

theorem deactivated_append (os ps : List NodeAction) :
    deactivated (os ++ ps) =
      (transitions ps).foldl deactivatedBy (deactivated os) := by
  rw [deactivated, transitions_append, List.foldl_append, ← deactivated]

theorem deactivated_of_transitions_nil {os ps : List NodeAction}
    (h : transitions ps = []) : deactivated (os ++ ps) = deactivated os := by
  rw [deactivated_append, h]
  rfl

theorem transitions_eq_nil {os : List NodeAction}
    (h : ∀ tr goal, NodeAction.transitioned tr goal ∉ os) :
    transitions os = [] := by
  refine List.filterMap_eq_nil_iff.mpr fun a ha => ?_
  cases a with
  | transitioned tr goal => exact absurd ha (h tr goal)
  | _ => rfl

/-- What the transitions say of `connection_`. -/
structure Dropped (n : Node) (os : List NodeAction) : Prop where
  null : deactivated os = true →
    n.connection_ = none ∧ n.lifecycle ≠ .unconfigured
  of_null : n.connection_ = none → deactivated os = true ∨
    n.services = false ∧ n.lifecycle ≠ .inactive

namespace Dropped

variable {n t : Node} {c : NodeConnection} {ps os : List NodeAction}

theorem not_deactivated (h : n.Dropped ps) (held : n.connection_ = some c) :
    deactivated ps = false := by
  cases hs : deactivated ps with
  | false => rfl
  | true =>
      rw [(h.null hs).1] at held
      cases held

theorem of_held (held : t.connection_ = some c) (hs : deactivated os = false) :
    t.Dropped os where
  null h := absurd (hs.symm.trans h) Bool.false_ne_true
  of_null h := nomatch held.symm.trans h

/-- A step that keeps a connection. -/
theorem keep (h : n.Dropped ps) (held : n.connection_ = some c)
    {d : NodeConnection} (kept : t.connection_ = some d)
    (hs : Node.deactivated os = Node.deactivated ps) : t.Dropped os :=
  of_held kept (hs.trans (h.not_deactivated held))

theorem same (h : n.Dropped ps) (hconnection : t.connection_ = n.connection_)
    (hservices : t.services = n.services)
    (hlifecycle : t.lifecycle = n.lifecycle)
    (hs : Node.deactivated os = Node.deactivated ps) : t.Dropped os where
  null hdeactivated := by
    rw [hconnection, hlifecycle]
    exact h.null (hs ▸ hdeactivated)
  of_null hnull := by
    rw [hs, hservices, hlifecycle]
    exact h.of_null (hconnection ▸ hnull)

end Dropped

theorem start_dropped : start.Dropped [] where
  null h := nomatch h
  of_null _ := Or.inr ⟨rfl, Lifecycle.noConfusion⟩

/-- Every step keeps what the transitions say of `connection_`. -/
theorem Step.dropped {n t : Node} {e : NodeEvent} {ps os : List NodeAction}
    (hn : n.Invariant) (hd : n.Dropped ps) (h : n.Step e (t, os)) :
    t.Dropped (ps ++ os) := by
  have hdestroyed : ∀ f : NodeConnection → Bool, transitions
      (n.connection_.toList.map fun c => .connectionDestroyed (f c)) = [] :=
    fun f => transitions_eq_nil (by simp)
  cases h with
  | noAddress p idle lifecycle address =>
      exact hd.same rfl rfl lifecycle.symm (deactivated_append ps _)
  | @configure p _ c _ _ goal idle lifecycle address sound goal_ne =>
      have hs : deactivated ps = false := by
        cases hs : deactivated ps with
        | false => rfl
        | true => exact absurd lifecycle (hd.null hs).2
      refine Dropped.of_held (c := c) rfl ?_
      rw [deactivated_append, transitions_append, hdestroyed, hs]
      rfl
  | connect idle lifecycle held =>
      exact hd.keep held rfl (deactivated_append ps _)
  | connectThrows idle lifecycle held =>
      exact hd.keep held rfl (deactivated_append ps _)
  | nullUsed idle uses null accepted =>
      exact hd.same rfl rfl rfl (deactivated_append ps _)
  | started starts =>
      have running := starts.transition
      obtain ⟨c, held, -⟩ := hn.cmd_open (Or.inr (by rw [running]; rfl))
      exact hd.keep held held (deactivated_append ps _)
  | starting starts held is_open =>
      exact hd.keep held rfl (deactivated_append ps _)
  | stopped stops =>
      exact ⟨fun _ => ⟨rfl, Lifecycle.noConfusion⟩,
        fun _ => Or.inl (deactivated_append ps _)⟩
  | stopping stops held is_open =>
      exact hd.keep held rfl (deactivated_append ps _)
  | cleanup idle lifecycle =>
      have hs : deactivated (ps ++ n.on_cleanup.2) = false := by
        rw [deactivated_append, on_cleanup, transitions_append, hdestroyed]
        rfl
      exact ⟨fun h => absurd (hs.symm.trans h) Bool.false_ne_true,
        fun _ => Or.inr ⟨rfl, Lifecycle.noConfusion⟩⟩
  | shutdown idle =>
      have hs := deactivated_append ps [.transitioned .shutdown .finalized]
      refine ⟨fun h => ⟨(hd.null (hs.symm.trans h)).1,
        Lifecycle.noConfusion⟩, fun null => ?_⟩
      cases hd.of_null null with
      | inl h => exact Or.inl (hs.trans h)
      | inr h => exact Or.inr ⟨h.1, Lifecycle.noConfusion⟩
  | destroy idle =>
      exact hd.same rfl rfl rfl
        (deactivated_of_transitions_nil (hdestroyed _))
  | tickNull idle null => exact hd.same rfl rfl rfl (deactivated_append ps _)
  | tick idle held => exact hd.same rfl rfl rfl (deactivated_append ps _)
  | requested idle requests held is_open =>
      exact hd.keep held rfl (deactivated_append ps _)
  | refused idle requests held =>
      exact hd.same rfl rfl rfl (deactivated_append ps _)
  | returned returns running =>
      exact hd.same rfl rfl rfl (deactivated_append ps _)
  | @handled e c c' k used completes held is_open sound =>
      have hnone : transitions (.socketUsed k true ::
          used.map fun p => .publisherUsed p true) = [] :=
        transitions_eq_nil (by simp)
      exact hd.keep held rfl (deactivated_of_transitions_nil hnone)
  | @failed e c tr os throws running sound found =>
      obtain ⟨d, held, -⟩ := hn.cmd_open (Or.inr (by rw [running]; rfl))
      refine Dropped.of_held (c := c) rfl ?_
      have hnone := transitions_eq_nil fun tr goal =>
        not_mem_of_found found fun k => NodeAction.noConfusion
      rw [deactivated_append, transitions_append, hnone,
        hd.not_deactivated held]
      cases tr <;> rfl
  | terminated throws running held is_open sound found =>
      have hnone := transitions_eq_nil fun tr goal =>
        not_mem_of_found found fun k => NodeAction.noConfusion
      exact hd.keep held rfl (deactivated_of_transitions_nil hnone)

theorem run_dropped {address_ok : List Char → Bool} {t : Node}
    {es : List NodeEvent} {os : List NodeAction}
    (h : (machine address_ok).run start es = some (t, os)) :
    t.Invariant ∧ t.Dropped os :=
  run_keeps start_dropped (fun hn hd step => step.dropped hn hd) h

/-- A pointer that is not set is used by `on_activate` or a service. -/
theorem Step.null {n t : Node} {e : NodeEvent} {os : List NodeAction}
    {site : Site} (h : n.Step e (t, os))
    (hmem : .connectionUsed site false ∈ os) :
    Uses e site ∧ n.connection_ = none ∧
      (n.lifecycle = .inactive ∨ n.services = true) := by
  cases h with
  | nullUsed idle uses null accepted =>
      simp only [List.mem_singleton, NodeAction.connectionUsed.injEq,
        and_true] at hmem
      exact ⟨hmem ▸ uses, null, accepted⟩
  | failed throws running sound found =>
      cases List.mem_append.mp hmem with
      | inl h =>
          exact absurd h
            (not_mem_of_found found fun k => NodeAction.noConfusion)
      | inr h => simp at h
  | terminated throws running held is_open sound found =>
      exact absurd hmem
        (not_mem_of_found found fun k => NodeAction.noConfusion)
  | _ => simp [finish] at hmem

/-- `on_activate` and the services use a `connection_` that is not set. -/
theorem null_of_uses {address_ok : List Char → Bool} {n t : Node}
    {e : NodeEvent} {site : Site} {os : List NodeAction}
    (h : (machine address_ok).step n e = some (t, os)) (uses : Uses e site)
    (null : n.connection_ = none) : .connectionUsed site false ∈ os := by
  have hrequest : ∀ cmd val, some (n.sendCmd site cmd val .service) =
      some (t, os) → .connectionUsed site false ∈ os := by
    intro cmd val h
    rw [sendCmd, useConnection_none null] at h
    cases h
    exact List.mem_singleton_self _
  cases uses with
  | activate =>
      obtain ⟨-, h⟩ := Option.ite_none_right_eq_some.mp h
      rw [on_activate, useConnection_none null] at h
      cases h
      exact List.mem_singleton_self _
  | requests requests =>
      cases requests with
      | norbit_cmd =>
          obtain ⟨-, h⟩ := Option.ite_none_right_eq_some.mp h
          exact hrequest _ _ h
      | set_power on =>
          obtain ⟨-, h⟩ := Option.ite_none_right_eq_some.mp h
          exact hrequest _ _ h

/-- `connection_` is always set where it is used if and only if neither
`on_activate` nor a service is called between a deactivation and the next
cleanup. -/
theorem connectionsFound_iff {address_ok : List Char → Bool} {t : Node}
    {es : List NodeEvent} {os : List NodeAction}
    (h : (machine address_ok).run start es = some (t, os)) :
    ConnectionsFound os ↔ NotWhileDeactivated address_ok es := by
  constructor
  · intro hfound fs e site s ps hfs uses hrun
    cases hs : deactivated ps with
    | false => rfl
    | true =>
        obtain ⟨u, o, hstep⟩ :=
          (machine address_ok).exists_step_behind h hfs hrun
        have null := ((run_dropped hrun).2.null hs).1
        have hmem := ((machine address_ok).mem_run_iff h _).mpr
          ⟨fs, e, s, ps, u, o, hfs, hrun, hstep, null_of_uses hstep uses null⟩
        exact (Bool.false_ne_true (hfound site false hmem)).elim
  · intro hdeactivated site nonnull hmem
    cases nonnull with
    | true => rfl
    | false =>
        obtain ⟨fs, e, s, ps, u, o, hfs, hrun, hstep, ho⟩ :=
          ((machine address_ok).mem_run_iff h _).mp hmem
        obtain ⟨hn, hd⟩ := run_dropped hrun
        obtain ⟨uses, null, accepted⟩ := (step_of_machine hn hstep).null ho
        have hs := hdeactivated fs e site s ps hfs uses hrun
        cases hd.of_null null with
        | inl h => exact (Bool.false_ne_true (hs.symm.trans h)).elim
        | inr h =>
            cases accepted with
            | inl inactive => exact absurd inactive h.2
            | inr services =>
                rw [h.1] at services
                exact services

/-- The node is activated and deactivated. -/
def deactivation : List NodeEvent :=
  activation ++ [.deactivate, .written, .sendCmdReturns true]

/-- Behind a cleanup it is configured and activated again. -/
def reactivation : List NodeEvent :=
  deactivation ++ [.tick, .cleanup, .configure (Parameters.defaults ['s']),
    .activate]

theorem connectionsFound_iff_reactivation :
    ∃ t os, (machine fun _ => true).run start reactivation = some (t, os) ∧
      (ConnectionsFound os ↔
        NotWhileDeactivated (fun _ => true) reactivation) := by
  have hsome : ((machine fun _ => true).run start reactivation).isSome := by
    decide +kernel
  obtain ⟨⟨t, os⟩, hrun⟩ := Option.isSome_iff_exists.mp hsome
  exact ⟨t, os, hrun, connectionsFound_iff hrun⟩

/-- Without the cleanup `on_activate` calls `connect` through a null pointer. -/
theorem reactivated_not_connectionsFound :
    ∃ t os, (machine fun _ => true).run start (deactivation ++ [.activate]) =
        some (t, os) ∧ ¬ ConnectionsFound os := by
  have hused : ((machine fun _ => true).run start
      (deactivation ++ [.activate])).any fun p =>
        p.2.contains (.connectionUsed .on_activate false) := by
    decide +kernel
  obtain ⟨⟨t, os⟩, hrun, hmem⟩ := Option.any_eq_true _ _ |>.mp hused
  exact ⟨t, os, hrun, fun h => Bool.false_ne_true
    (h .on_activate false (List.contains_iff_mem.mp hmem))⟩

end Node

end NorbitDriver
