import NorbitDriver.Node.Steps

/-!
# The orderly stop

`on_deactivate` sends the shutdown settings and closes the connection, and
`on_cleanup` closes a connection that is left. A node can go out of service
without either: nothing is done on a shutdown transition, on an exception, and
when the node is destroyed, and a configuration behind one that has failed drops
its connection as it is. Every exit of a run is orderly exactly when none of
these is met with settings to be sent or a connection to be closed.
-/

namespace NorbitDriver

open Transition

namespace Node

/-- The node is active. -/
def InService (n : Node) : Prop :=
  n.lifecycle = .active ∧ n.gone = false

/-- The commands that `on_deactivate` has sent since the node was activated,
behind an observation. -/
def stopSendsBy (sends : List (List Char × List Char)) :
    NodeAction → List (List Char × List Char)
  | .sent .on_deactivate cmd val => sends ++ [(cmd, val)]
  | .transitioned .activate .active => []
  | _ => sends

/-- The commands that `on_deactivate` has sent since the node was activated. -/
def stopSends (os : List NodeAction) : List (List Char × List Char) :=
  os.foldl stopSendsBy []

/-- The shutdown settings that have not been sent. -/
def unsent (n : Node) : List (List Char) :=
  match n.task with
  | .shutdown rest => rest
  | _ => n.shutdown_settings

/-- A step behind the observations `ps` that does not go out of service without
having sent the shutdown settings, nor destroys a connection that has not been
closed. -/
structure OrderlyStep (n : Node) (ps : List NodeAction) (t : Node)
    (os : List NodeAction) : Prop where
  sends : n.InService → ¬ t.InService →
    stopSends (ps ++ os) = n.shutdown_settings.map splitCmd
  closed : ∀ closed, .connectionDestroyed closed ∈ os → closed = true

/-- Every step of a run is orderly. -/
def OrderlyExits (address_ok : List Char → Bool) (es : List NodeEvent) : Prop :=
  ∀ fs e n ps t os, fs ++ [e] <+: es →
    (machine address_ok).run start fs = some (n, ps) →
      (machine address_ok).step n e = some (t, os) → n.OrderlyStep ps t os

/-- The event does not lead past `on_deactivate` and `on_cleanup` while there
are settings to be sent or a connection to be closed. -/
def InOrder (n : Node) : NodeEvent → Prop
  | .configure p => p.sonar_ip = [] ∨ n.connection_ = none
  | .destroy => n.connection_ = none
  | .shutdown => n.lifecycle = .active → n.unsent = []
  | .connected _ ok => ok = false → n.lifecycle = .active → n.unsent = []
  | .payloadFails _ _ => n.lifecycle = .active → n.unsent = []
  | _ => True

/-- What has been sent and what has not are the shutdown settings. -/
def Sending (n : Node) (os : List NodeAction) : Prop :=
  n.lifecycle = .active → stopSends os ++ n.unsent.map splitCmd =
    n.shutdown_settings.map splitCmd

theorem stopSends_append (os ps : List NodeAction) :
    stopSends (os ++ ps) = ps.foldl stopSendsBy (stopSends os) := by
  rw [stopSends, List.foldl_append, ← stopSends]

/-- Handlers send no shutdown settings. -/
theorem stopSends_append_of_forall {os ps : List NodeAction}
    (h : ∀ a ∈ ps, ∀ sends, stopSendsBy sends a = sends) :
    stopSends (os ++ ps) = stopSends os := by
  rw [stopSends_append]
  induction ps with
  | nil => rfl
  | cons a ps ih =>
      rw [List.foldl_cons, h a List.mem_cons_self]
      exact ih fun b hb => h b (List.mem_cons_of_mem a hb)

theorem unsent_of_running {n : Node}
    (h : n.task.transition ≠ some .deactivate) :
    n.unsent = n.shutdown_settings := by
  rw [unsent]
  cases htask : n.task with
  | shutdown rest =>
      rw [htask] at h
      exact absurd rfl h
  | _ => rfl

theorem Stops.unsent {n : Node} {e : NodeEvent} {rest : List (List Char)}
    (h : n.Stops e rest) : n.unsent = rest := by
  cases h with
  | deactivate idle lifecycle =>
      exact unsent_of_running (by rw [idle]; exact nofun)
  | returns task => rw [Node.unsent, task]

theorem Sending.keep {n t : Node} {ps os : List NodeAction} (h : n.Sending ps)
    (hsends : stopSends os = stopSends ps)
    (hlifecycle : t.lifecycle = n.lifecycle)
    (hsettings : t.shutdown_settings = n.shutdown_settings)
    (hunsent : t.unsent = n.unsent) : t.Sending os := by
  intro active
  rw [hsends, hsettings, hunsent]
  exact h (hlifecycle ▸ active)

/-- Nothing is left to be sent exactly when everything has been sent. -/
theorem Sending.sent_iff {n : Node} {ps : List NodeAction} (h : n.Sending ps)
    (active : n.lifecycle = .active) :
    stopSends ps = n.shutdown_settings.map splitCmd ↔ n.unsent = [] := by
  rw [← h active]
  simp

theorem start_sending : start.Sending [] :=
  fun h => nomatch h

theorem socketUsed_sends {os : List NodeAction}
    (found : ∀ a ∈ os, ∃ k, a = .socketUsed k true) :
    ∀ a ∈ os, ∀ sends, stopSendsBy sends a = sends := by
  intro a ha sends
  obtain ⟨k, rfl⟩ := found a ha
  rfl

/-- Every step keeps the account of the shutdown settings. -/
theorem Step.sending {n t : Node} {e : NodeEvent} {ps os : List NodeAction}
    (hn : n.Invariant) (hs : n.Sending ps) (h : n.Step e (t, os)) :
    t.Sending (ps ++ os) := by
  have hidle : n.task.transition = none → n.unsent = n.shutdown_settings := by
    intro running
    exact unsent_of_running (by rw [running]; exact nofun)
  cases h with
  | noAddress p idle lifecycle address => exact fun h => nomatch h
  | configure p idle lifecycle address sound goal_ne =>
      exact fun h => absurd h goal_ne
  | connect idle lifecycle held =>
      exact fun h => nomatch lifecycle.symm.trans h
  | connectThrows idle lifecycle held => exact fun h => nomatch h
  | nullUsed idle uses null accepted =>
      exact hs.keep (stopSends_append ps _) rfl rfl rfl
  | started starts =>
      intro _
      rw [stopSends_append]
      rfl
  | starting starts held is_open =>
      have inactive := hn.running .activate starts.transition
      exact fun h => nomatch inactive.symm.trans h
  | stopped stops => exact fun h => nomatch h
  | @stopping e c param rest stops held is_open =>
      intro active
      have hsent := hs active
      rw [stops.unsent, List.map_cons] at hsent
      rw [stopSends_append, ← hsent]
      change (stopSends ps ++ [splitCmd param]) ++ rest.map splitCmd = _
      rw [List.append_assoc]
      rfl
  | cleanup idle lifecycle => exact fun h => nomatch h
  | shutdown idle => exact fun h => nomatch h
  | destroy idle =>
      refine hs.keep (stopSends_append_of_forall fun a ha sends => ?_) rfl rfl
        rfl
      obtain ⟨c, -, rfl⟩ := List.mem_map.mp ha
      rfl
  | tickNull idle null => exact hs.keep (stopSends_append ps _) rfl rfl rfl
  | tick idle held =>
      exact hs.keep (stopSends_append ps _) rfl rfl
        (hidle (by rw [idle]; rfl)).symm
  | requested idle requests held is_open =>
      refine hs.keep ?_ rfl rfl (hidle (by rw [idle]; rfl)).symm
      rw [stopSends_append]
      cases requests with
      | norbit_cmd => rfl
      | set_power on => rfl
  | refused idle requests held =>
      exact hs.keep (stopSends_append ps _) rfl rfl
        (hidle (by rw [idle]; rfl)).symm
  | returned returns running =>
      exact hs.keep (stopSends_append ps _) rfl rfl (hidle running).symm
  | handled used completes held is_open sound =>
      refine hs.keep (stopSends_append_of_forall fun a ha sends => ?_) rfl rfl
        rfl
      cases List.mem_cons.mp ha with
      | inl h =>
          rw [h]
          rfl
      | inr h =>
          obtain ⟨p, -, rfl⟩ := List.mem_map.mp h
          rfl
  | failed throws running sound found => exact fun h => nomatch h
  | terminated throws running held is_open sound found =>
      exact hs.keep (stopSends_append_of_forall (socketUsed_sends found)) rfl
        rfl rfl

theorem Starts.inOrder {n : Node} {e : NodeEvent} {rest : List (List Char)}
    (h : n.Starts e rest) : n.InOrder e := by
  cases h with
  | _ => trivial

theorem Stops.inOrder {n : Node} {e : NodeEvent} {rest : List (List Char)}
    (h : n.Stops e rest) : n.InOrder e := by
  cases h with
  | _ => trivial

theorem Uses.inOrder {n : Node} {e : NodeEvent} {site : Site}
    (h : Uses e site) : n.InOrder e := by
  cases h with
  | activate => trivial
  | requests requests =>
      cases requests with
      | _ => trivial

theorem inOrder_of_throws {n : Node} {e : NodeEvent} (h : Throws e) :
    n.InOrder e ↔ (n.lifecycle = .active → n.unsent = []) := by
  cases h with
  | connected k => exact ⟨fun h => h rfl, fun h _ => h⟩
  | payloadFails k bytes => exact Iff.rfl

namespace OrderlyStep

variable {n t : Node} {ps os : List NodeAction}

/-- A step that stays in service. -/
theorem of_stays (hlifecycle : t.lifecycle = n.lifecycle)
    (hgone : t.gone = n.gone)
    (hclosed : ∀ closed, .connectionDestroyed closed ∈ os → closed = true) :
    n.OrderlyStep ps t os where
  sends active left := by
    rw [InService, hlifecycle, hgone] at left
    exact absurd active left
  closed := hclosed

/-- A step of a node that is not in service. -/
theorem of_not_active (h : n.lifecycle ≠ .active)
    (hclosed : ∀ closed, .connectionDestroyed closed ∈ os → closed = true) :
    n.OrderlyStep ps t os where
  sends active := absurd active.1 h
  closed := hclosed

/-- A step that goes out of service and sends nothing. -/
theorem iff_of_leaves (hs : n.Sending ps) (hgone : n.gone = false)
    (left : ¬ t.InService) (hsends : stopSends (ps ++ os) = stopSends ps)
    (hclosed : ∀ closed, .connectionDestroyed closed ∉ os) :
    n.OrderlyStep ps t os ↔ (n.lifecycle = .active → n.unsent = []) := by
  constructor
  · intro h active
    have hall := h.sends ⟨active, hgone⟩ left
    rw [hsends] at hall
    exact (hs.sent_iff active).mp hall
  · intro h
    refine ⟨fun active _ => ?_, fun closed hmem => absurd hmem (hclosed closed)⟩
    rw [hsends]
    exact (hs.sent_iff active.1).mpr (h active.1)

end OrderlyStep

theorem Invariant.not_active {n : Node} (hn : n.Invariant)
    (null : n.connection_ = none) : n.lifecycle ≠ .active := by
  intro active
  obtain ⟨c, held, -⟩ := hn.cmd_open (Or.inl active)
  cases null.symm.trans held

/-- A connection that the node holds has not been closed. -/
theorem Invariant.null_of_closed {n : Node} (hn : n.Invariant)
    (hclosed : ∀ closed, .connectionDestroyed closed ∈
      n.connection_.toList.map
        (fun c => NodeAction.connectionDestroyed c.closed) → closed = true) :
    n.connection_ = none := by
  cases held : n.connection_ with
  | none => rfl
  | some c =>
      rw [held] at hclosed
      have hc := hclosed c.closed (List.mem_singleton_self _)
      rw [(hn.sound c held).closed] at hc
      cases hc

/-- A step is orderly exactly when its event is in order. -/
theorem Step.orderly_iff {n t : Node} {e : NodeEvent} {ps os : List NodeAction}
    (hn : n.Invariant) (hs : n.Sending ps) (hgone : n.gone = false)
    (h : n.Step e (t, os)) : n.OrderlyStep ps t os ↔ n.InOrder e := by
  cases h with
  | noAddress p idle lifecycle address =>
      refine iff_of_true (OrderlyStep.of_not_active ?_ (by simp))
        (Or.inl address)
      exact fun h => nomatch lifecycle.symm.trans h
  | configure p idle lifecycle address sound goal_ne =>
      constructor
      · intro h
        exact Or.inr (hn.null_of_closed fun closed hmem =>
          h.closed closed (List.mem_append_left _ hmem))
      · intro h
        have null := h.resolve_left address
        refine OrderlyStep.of_not_active (hn.not_active null) ?_
        simp [null]
  | connect idle lifecycle held =>
      exact iff_of_true (OrderlyStep.of_stays rfl rfl (by simp)) trivial
  | connectThrows idle lifecycle held =>
      refine iff_of_true (OrderlyStep.of_not_active ?_ (by simp)) trivial
      exact fun h => nomatch lifecycle.symm.trans h
  | nullUsed idle uses null accepted =>
      exact iff_of_true (OrderlyStep.of_not_active (hn.not_active null) (by simp))
        uses.inOrder
  | started starts =>
      have inactive := hn.running .activate starts.transition
      refine iff_of_true (OrderlyStep.of_not_active ?_ (by simp)) starts.inOrder
      exact fun h => nomatch inactive.symm.trans h
  | starting starts held is_open =>
      exact iff_of_true (OrderlyStep.of_stays rfl rfl (by simp)) starts.inOrder
  | stopped stops =>
      refine iff_of_true ⟨fun active _ => ?_, by simp⟩ stops.inOrder
      rw [stopSends_append]
      exact (hs.sent_iff active.1).mpr stops.unsent
  | stopping stops held is_open =>
      exact iff_of_true (OrderlyStep.of_stays rfl rfl (by simp)) stops.inOrder
  | cleanup idle lifecycle =>
      refine iff_of_true (OrderlyStep.of_not_active ?_ ?_) trivial
      · exact fun h => nomatch lifecycle.symm.trans h
      · simp [finish, Handles.closeConnections]
  | shutdown idle =>
      exact OrderlyStep.iff_of_leaves hs hgone (fun h => nomatch h.1)
        (stopSends_append ps _) (by simp)
  | destroy idle =>
      constructor
      · exact fun h => hn.null_of_closed h.closed
      · intro null
        have null : n.connection_ = none := null
        refine OrderlyStep.of_not_active (hn.not_active null) ?_
        simp [null]
  | tickNull idle null =>
      exact iff_of_true (OrderlyStep.of_stays rfl rfl (by simp)) trivial
  | tick idle held =>
      exact iff_of_true (OrderlyStep.of_stays rfl rfl (by simp)) trivial
  | requested idle requests held is_open =>
      exact iff_of_true (OrderlyStep.of_stays rfl rfl (by simp))
        (Uses.requests requests).inOrder
  | refused idle requests held =>
      exact iff_of_true (OrderlyStep.of_stays rfl rfl (by simp))
        (Uses.requests requests).inOrder
  | returned returns running =>
      refine iff_of_true (OrderlyStep.of_stays rfl rfl (by simp)) ?_
      cases returns with
      | _ => trivial
  | handled used completes held is_open sound =>
      refine iff_of_true (OrderlyStep.of_stays rfl rfl (by simp)) ?_
      cases completes with
      | connected k => exact fun h => nomatch h
      | _ => trivial
  | @failed e c tr os throws running sound found =>
      rw [inOrder_of_throws throws]
      refine OrderlyStep.iff_of_leaves hs hgone (fun h => nomatch h.1) ?_ ?_
      · rw [← List.append_assoc, stopSends_append,
          stopSends_append_of_forall (socketUsed_sends found)]
        cases tr <;> rfl
      · intro closed hmem
        cases List.mem_append.mp hmem with
        | inl h =>
            exact not_mem_of_found found (fun k => NodeAction.noConfusion) h
        | inr h => simp at h
  | terminated throws running held is_open sound found =>
      rw [inOrder_of_throws throws]
      refine OrderlyStep.iff_of_leaves hs hgone (fun h => nomatch h.2)
        (stopSends_append_of_forall (socketUsed_sends found)) ?_
      exact fun closed =>
        not_mem_of_found found fun k => NodeAction.noConfusion

theorem not_gone_of_step {address_ok : List Char → Bool} {n : Node}
    {e : NodeEvent} {r : Result} (h : (machine address_ok).step n e = some r) :
    n.gone = false := by
  cases hgone : n.gone with
  | false => rfl
  | true =>
      cases e with
      | _ => simp [machine, ready, hgone] at h

theorem run_sending {address_ok : List Char → Bool} {t : Node}
    {es : List NodeEvent} {os : List NodeAction}
    (h : (machine address_ok).run start es = some (t, os)) :
    t.Invariant ∧ t.Sending os :=
  run_keeps start_sending (fun hn hs step => step.sending hn hs) h

/-- The exits of a run are orderly if and only if each of its events is in
order. -/
theorem orderlyExits_iff {address_ok : List Char → Bool} {t : Node}
    {es : List NodeEvent} {os : List NodeAction}
    (h : (machine address_ok).run start es = some (t, os)) :
    OrderlyExits address_ok es ↔
      (machine address_ok).Meets InOrder start es := by
  have hiff : ∀ {fs : List NodeEvent} {e : NodeEvent} {n u : Node}
      {ps o : List NodeAction},
      (machine address_ok).run start fs = some (n, ps) →
        (machine address_ok).step n e = some (u, o) →
          (n.OrderlyStep ps u o ↔ n.InOrder e) := by
    intro fs e n u ps o hrun hstep
    obtain ⟨hn, hs⟩ := run_sending hrun
    exact (step_of_machine hn hstep).orderly_iff hn hs (not_gone_of_step hstep)
  constructor
  · intro horderly
    apply (machine address_ok).meets_of_forall_split
    intro fs e n ps hfs hrun
    obtain ⟨u, o, hstep⟩ := (machine address_ok).exists_step_behind h hfs hrun
    exact (hiff hrun hstep).mp (horderly fs e n ps u o hfs hrun hstep)
  · intro hmeets fs e n ps u o hfs hrun hstep
    exact (hiff hrun hstep).mpr (hmeets.at_split hfs hrun)

/-- The node is activated, deactivated, cleaned up and destroyed. -/
def retirement : List NodeEvent :=
  activation ++ [.deactivate, .written, .sendCmdReturns false, .cleanup,
    .destroy]

theorem orderlyExits_iff_retirement :
    ∃ t os, (machine fun _ => true).run start retirement = some (t, os) ∧
      (OrderlyExits (fun _ => true) retirement ↔
        (machine fun _ => true).Meets InOrder start retirement) := by
  have hsome : ((machine fun _ => true).run start retirement).isSome := by
    decide +kernel
  obtain ⟨⟨t, os⟩, hrun⟩ := Option.isSome_iff_exists.mp hsome
  exact ⟨t, os, hrun, orderlyExits_iff hrun⟩

/-- A shutdown transition leaves an active node without sending anything. -/
theorem shutdown_not_orderlyExits :
    ∃ t os, (machine fun _ => true).run start (activation ++ [.shutdown]) =
        some (t, os) ∧
      ¬ OrderlyExits (fun _ => true) (activation ++ [.shutdown]) := by
  have hany : ((machine fun _ => true).run start activation).any fun p =>
      decide (p.1.lifecycle = .active) && !p.1.gone &&
        ((machine fun _ => true).step p.1 .shutdown).any fun q =>
          decide (q.1.lifecycle ≠ .active) && decide (stopSends (p.2 ++ q.2) ≠
            p.1.shutdown_settings.map splitCmd) := by
    decide +kernel
  obtain ⟨⟨n, ps⟩, hrun, hn⟩ := (Option.any_eq_true _ _).mp hany
  simp only [Bool.and_eq_true, decide_eq_true_eq, Bool.not_eq_true'] at hn
  obtain ⟨⟨active, hgone⟩, hshutdown⟩ := hn
  obtain ⟨⟨t, os⟩, hstep, ht⟩ := (Option.any_eq_true _ _).mp hshutdown
  simp only [Bool.and_eq_true, decide_eq_true_eq] at ht
  have hall := (machine fun _ => true).run_append_of_eq_some hrun
    (((machine fun _ => true).run_singleton n .shutdown).trans hstep)
  refine ⟨t, _, hall, fun h => ?_⟩
  have horderly := h activation .shutdown n ps t os (List.prefix_refl _) hrun
    hstep
  exact ht.2 (horderly.sends ⟨active, hgone⟩ fun hin => ht.1 hin.1)

end Node

end NorbitDriver
