import NorbitDriver.Containers.Retry
import NorbitDriver.Node.Registered

/-!
# What is sent before the node is active

Between the end of a transition and the end of `on_activate` nothing is sent but
the startup settings: the command socket of a new connection is closed until
`connect`, so the services do not write, and while `on_activate` runs no other
callback does. The answers of the calls decide what is sent: each setting is
sent again until it has been acknowledged, and the node is active when all of
them have been.
-/

namespace NorbitDriver

open Containers Transition

namespace Node

/-- A command with the function that has sent it. -/
abbrev Command := Site × List Char × List Char

/-- The commands that have been sent since a transition has ended, behind an
observation. -/
def sinceBy (sends : List Command) : NodeAction → List Command
  | .sent site cmd val => sends ++ [(site, cmd, val)]
  | .transitioned _ _ => []
  | _ => sends

/-- The commands that have been sent since a transition has ended. -/
def since (os : List NodeAction) : List Command :=
  os.foldl sinceBy []

/-- The answers of the calls of `sendCmd` since `on_activate` was called, behind
an event. -/
def answersBy (answers : List Bool) : NodeEvent → List Bool
  | .activate => []
  | .sendCmdReturns ack => answers ++ [ack]
  | _ => answers

/-- The answers of the calls of `sendCmd` since `on_activate` was called. -/
def answers (es : List NodeEvent) : List Bool :=
  es.foldl answersBy []

/-- The command that `on_activate` sends for a setting. -/
def startCommand (param : List Char) : Command :=
  (.on_activate, splitCmd param)

/-- What has been sent before the node is active, and what is left. -/
structure Starting (n : Node) (es : List NodeEvent) (os : List NodeAction) :
    Prop where
  quiet : n.lifecycle = .inactive →
    (∀ param rest, n.task ≠ .startup param rest) → since os = []
  closed : n.lifecycle = .inactive → n.task.transition = none →
    ∀ c, n.connection_ = some c → cmdOpen c = false
  fresh : n.task = .connect → answers es = []
  sent : ∀ param rest, n.task = .startup param rest →
    remaining n.startup_settings (answers es) = param :: rest ∧
      since os = (offered n.startup_settings (answers es)).map startCommand

theorem since_append (os ps : List NodeAction) :
    since (os ++ ps) = ps.foldl sinceBy (since os) := by
  rw [since, List.foldl_append, ← since]

theorem answers_append_singleton (es : List NodeEvent) (e : NodeEvent) :
    answers (es ++ [e]) = answersBy (answers es) e := by
  rw [answers, List.foldl_append]
  rfl

/-- Handlers send nothing. -/
theorem since_append_of_forall {os ps : List NodeAction}
    (h : ∀ a ∈ ps, ∀ sends, sinceBy sends a = sends) :
    since (os ++ ps) = since os := by
  rw [since_append]
  induction ps with
  | nil => rfl
  | cons a ps ih =>
      rw [List.foldl_cons, h a List.mem_cons_self]
      exact ih fun b hb => h b (List.mem_cons_of_mem a hb)

/-- Behind an event of `on_activate`, the settings that are left, and what has
been sent by then. -/
theorem Starting.of_starts {n : Node} {es : List NodeEvent} {e : NodeEvent}
    {os : List NodeAction} {rest : List (List Char)} (hn : n.Invariant)
    (h : n.Starting es os) (hs : n.Starts e rest) :
    remaining n.startup_settings (answers (es ++ [e])) = rest ∧
      (offered n.startup_settings (answers (es ++ [e]))).map startCommand =
        since os ++ (rest.take 1).map startCommand := by
  rw [answers_append_singleton]
  have inactive := hn.running .activate hs.transition
  cases hs with
  | connectReturns task =>
      have hquiet := h.quiet inactive fun param rest => by
        rw [task]
        exact Task.noConfusion
      change remaining _ (answers es) = _ ∧ (offered _ (answers es)).map _ = _
      rw [h.fresh task, hquiet, remaining_no_answer, offered_no_answer]
      exact ⟨rfl, rfl⟩
  | @acked param rest task =>
      obtain ⟨hremaining, hsent⟩ := h.sent param rest task
      change remaining _ (answers es ++ [true]) = _ ∧
        (offered _ (answers es ++ [true])).map _ = _
      rw [remaining_accepted hremaining, offered_accepted hremaining, hsent,
        List.map_append]
      exact ⟨rfl, rfl⟩
  | @again param rest task =>
      obtain ⟨hremaining, hsent⟩ := h.sent param rest task
      change remaining _ (answers es ++ [false]) = _ ∧
        (offered _ (answers es ++ [false])).map _ = _
      rw [remaining_refused hremaining, offered_refused hremaining, hsent,
        List.map_append]
      exact ⟨rfl, rfl⟩

namespace Starting

variable {n t : Node} {es fs : List NodeEvent} {os ps : List NodeAction}

/-- Nothing is starting. -/
theorem of_not_inactive (hlifecycle : t.lifecycle ≠ .inactive)
    (htask : t.task.transition ≠ some .activate) : t.Starting es os where
  quiet h := absurd h hlifecycle
  closed h := absurd h hlifecycle
  fresh h := absurd (by rw [h]; rfl) htask
  sent param rest h := absurd (by rw [h]; rfl) htask

/-- A transition has ended. -/
theorem of_idle (idle : t.task = .idle) (hsince : since os = [])
    (hclosed : ∀ c, t.connection_ = some c → t.lifecycle = .inactive →
      cmdOpen c = false) : t.Starting es os where
  quiet _ _ := hsince
  closed inactive _ c held := hclosed c held inactive
  fresh h := Task.noConfusion (idle.symm.trans h)
  sent _ _ h := Task.noConfusion (idle.symm.trans h)

/-- A step between callbacks that are no transition. -/
theorem keep (h : n.Starting es ps) (hlifecycle : t.lifecycle = n.lifecycle)
    (hn : n.task.transition = none) (ht : t.task.transition = none)
    (hsince : since os = since ps)
    (hopen : ∀ c', t.connection_ = some c' →
      ∃ c, n.connection_ = some c ∧ cmdOpen c' = cmdOpen c) :
    t.Starting fs os where
  quiet inactive _ := by
    rw [hsince]
    refine h.quiet (hlifecycle ▸ inactive) fun param rest htask => ?_
    rw [htask] at hn
    cases hn
  closed inactive _ c' held' := by
    obtain ⟨c, held, hsame⟩ := hopen c' held'
    rw [hsame]
    exact h.closed (hlifecycle ▸ inactive) hn c held
  fresh htask := by
    rw [htask] at ht
    cases ht
  sent param rest htask := by
    rw [htask] at ht
    cases ht

/-- A step that changes nothing but the sockets. -/
theorem same (h : n.Starting es ps) (hlifecycle : t.lifecycle = n.lifecycle)
    (htask : t.task = n.task)
    (hsettings : t.startup_settings = n.startup_settings)
    (hanswers : answers fs = answers es) (hsince : since os = since ps)
    (hopen : ∀ c', t.connection_ = some c' →
      ∃ c, n.connection_ = some c ∧ cmdOpen c' = cmdOpen c) :
    t.Starting fs os where
  quiet inactive hnone := by
    rw [hsince]
    exact h.quiet (hlifecycle ▸ inactive) (htask ▸ hnone)
  closed inactive hnone c' held' := by
    obtain ⟨c, held, hsame⟩ := hopen c' held'
    rw [hsame]
    exact h.closed (hlifecycle ▸ inactive) (htask ▸ hnone) c held
  fresh hconnect := by
    rw [hanswers]
    exact h.fresh (htask ▸ hconnect)
  sent param rest hstartup := by
    rw [hanswers, hsince, hsettings]
    exact h.sent param rest (htask ▸ hstartup)

end Starting

theorem start_starting : start.Starting [] [] :=
  Starting.of_not_inactive Lifecycle.noConfusion nofun

theorem answers_of_completes {e : NodeEvent} (h : Completes e)
    (es : List NodeEvent) : answers (es ++ [e]) = answers es := by
  rw [answers_append_singleton]
  cases h with
  | _ => rfl

theorem answers_of_throws {e : NodeEvent} (h : Throws e)
    (es : List NodeEvent) : answers (es ++ [e]) = answers es := by
  rw [answers_append_singleton]
  cases h with
  | _ => rfl

theorem since_of_found {os ps : List NodeAction}
    (found : ∀ a ∈ os, ∃ k, a = .socketUsed k true) :
    since (ps ++ os) = since ps := by
  refine since_append_of_forall fun a ha sends => ?_
  obtain ⟨k, rfl⟩ := found a ha
  rfl

/-- Every step keeps the account of the startup settings. -/
theorem starting_of_step {n t : Node} {es : List NodeEvent} {e : NodeEvent}
    {ps os : List NodeAction} (hn : n.Invariant) (hs : n.Starting es ps)
    (hnew : ∀ p c, e = .configure p → t.connection_ = some c →
      t.lifecycle = .inactive → cmdOpen c = false)
    (h : n.Step e (t, os)) : t.Starting (es ++ [e]) (ps ++ os) := by
  have hidle : n.task = .idle → n.task.transition = none := by
    intro idle
    rw [idle]
    rfl
  have hheld : ∀ c', n.connection_ = some c' →
      ∃ c, n.connection_ = some c ∧ cmdOpen c' = cmdOpen c :=
    fun c' held => ⟨c', held, rfl⟩
  cases h with
  | noAddress p idle lifecycle address =>
      exact Starting.of_not_inactive Lifecycle.noConfusion nofun
  | configure p idle lifecycle address sound goal_ne =>
      refine Starting.of_idle rfl ?_ fun c held => hnew p c rfl held
      rw [since_append, List.foldl_append]
      rfl
  | connect idle lifecycle held =>
      refine ⟨fun _ _ => ?_, fun _ h => (nomatch h), fun _ => ?_,
        fun _ _ h => Task.noConfusion h⟩
      · rw [since_append]
        exact hs.quiet lifecycle fun param rest htask =>
          Task.noConfusion (idle.symm.trans htask)
      · rw [answers_append_singleton]
        rfl
  | connectThrows idle lifecycle held =>
      exact Starting.of_not_inactive Lifecycle.noConfusion nofun
  | nullUsed idle uses null accepted =>
      exact hs.keep rfl (hidle idle) (hidle idle) (since_append ps _) hheld
  | started starts =>
      exact Starting.of_not_inactive Lifecycle.noConfusion nofun
  | @starting e c param rest starts held is_open =>
      obtain ⟨hremaining, hsent⟩ := hs.of_starts hn starts
      refine ⟨fun _ hnone => absurd rfl (hnone param rest),
        fun _ h => (nomatch h), fun h => Task.noConfusion h,
        fun param' rest' htask => ?_⟩
      obtain ⟨rfl, rfl⟩ := Task.startup.inj htask
      refine ⟨hremaining, ?_⟩
      rw [since_append, hsent]
      rfl
  | stopped stops =>
      refine Starting.of_idle rfl ?_ fun c held => nomatch held
      rw [since_append]
      rfl
  | stopping stops held is_open =>
      have active := stops.active hn
      refine Starting.of_not_inactive (fun h => ?_) nofun
      exact nomatch active.symm.trans h
  | cleanup idle lifecycle =>
      exact Starting.of_not_inactive Lifecycle.noConfusion nofun
  | shutdown idle =>
      exact Starting.of_not_inactive Lifecycle.noConfusion nofun
  | destroy idle =>
      refine hs.keep rfl (hidle idle) (hidle idle)
        (since_append_of_forall fun a ha sends => ?_) hheld
      obtain ⟨c, -, rfl⟩ := List.mem_map.mp ha
      rfl
  | tickNull idle null =>
      exact hs.keep rfl (hidle idle) (hidle idle) (since_append ps _) hheld
  | tick idle held =>
      exact hs.keep rfl (hidle idle) rfl (since_append ps _) hheld
  | @requested e site cmd val c idle requests held is_open =>
      refine Starting.of_not_inactive (fun inactive => ?_) nofun
      have hclosed := hs.closed inactive (hidle idle) c held
      exact Bool.false_ne_true (hclosed.symm.trans is_open)
  | refused idle requests held =>
      exact hs.keep rfl (hidle idle) rfl (since_append ps _) hheld
  | returned returns running =>
      exact hs.keep rfl running rfl (since_append ps _) hheld
  | @handled e c c' k used completes held is_open sound =>
      refine hs.same rfl rfl rfl (answers_of_completes completes es)
        (since_append_of_forall fun a ha sends => ?_) fun d hd => ?_
      · cases List.mem_cons.mp ha with
        | inl h =>
            rw [h]
            rfl
        | inr h =>
            obtain ⟨p, -, rfl⟩ := List.mem_map.mp h
            rfl
      · exact ⟨c, held, Option.some.inj hd ▸ is_open⟩
  | failed throws running sound found =>
      exact Starting.of_not_inactive Lifecycle.noConfusion nofun
  | @terminated e c c' os throws running held is_open sound found =>
      exact hs.same rfl rfl rfl (answers_of_throws throws es)
        (since_of_found found) fun d hd =>
          ⟨c, held, Option.some.inj hd ▸ is_open⟩

theorem cmdOpen_addCallback (address_ok : Bool) (c : NodeConnection)
    (p : Publisher) : cmdOpen (p.addCallback address_ok c) = cmdOpen c := by
  have hconnect : ∀ (c' : NodeConnection) (k : DataSock),
      cmdOpen (c'.connectData address_ok k) = cmdOpen c' := by
    intro c' k
    cases hneeds : c'.needsConnect k with
    | true =>
        rw [Handles.connectData_of_needsConnect hneeds, cmdOpen,
          Handles.update_of_ne c' _ Sock.noConfusion]
        rfl
    | false => rw [Handles.connectData_of_open hneeds]
  cases p with
  | bathymetry p => exact hconnect (c.pushBathymetry p) .bathymetric
  | watercolumn p => exact hconnect (c.pushWaterColumn p) .water_column

/-- `on_configure` leaves the command socket closed. -/
theorem cmdOpen_register (address_ok : Bool) (publish : Publisher → Bool)
    (ps : List Publisher) (publishers : Publisher → Bool)
    (c : NodeConnection) :
    cmdOpen (register address_ok publish ps publishers c).2.1 = cmdOpen c := by
  induction ps generalizing publishers c with
  | nil => rfl
  | cons p ps ih =>
      rw [register]
      split_ifs
      · exact cmdOpen_addCallback address_ok c p
      · exact (ih _ _).trans (cmdOpen_addCallback address_ok c p)
      · exact ih _ _

theorem cmdOpen_of_configure {address_ok : List Char → Bool} {n t : Node}
    {p : Parameters} {os : List NodeAction} {c : NodeConnection}
    (h : (machine address_ok).step n (.configure p) = some (t, os))
    (held : t.connection_ = some c) (inactive : t.lifecycle = .inactive) :
    cmdOpen c = false := by
  obtain ⟨-, -, hresult⟩ := of_ready h
  by_cases haddress : p.sonar_ip = []
  · rw [on_configure, if_pos haddress] at hresult
    obtain ⟨rfl, -⟩ := Prod.mk.inj hresult
    cases inactive
  · rw [on_configure, if_neg haddress] at hresult
    obtain ⟨rfl, -⟩ := Prod.mk.inj hresult
    rw [← Option.some.inj held]
    exact cmdOpen_register (address_ok p.sonar_ip) p.publish publisherOrder
      n.publishers Handles.new

/-- The startup settings are those of the last accepted configuration. -/
def Kept (n : Node) (es : List NodeEvent) : Prop :=
  ∀ p, lastConfigured es = some p → n.startup_settings = p.startup_settings

theorem step_kept {address_ok : List Char → Bool} {n t : Node}
    {es : List NodeEvent} {e : NodeEvent} {os : List NodeAction}
    (hn : n.Invariant) (hk : n.Kept es)
    (h : (machine address_ok).step n e = some (t, os)) :
    t.Kept (es ++ [e]) := by
  intro q hq
  rw [lastConfigured_append_singleton] at hq
  by_cases he : ∃ p, e = .configure p
  · obtain ⟨p, rfl⟩ := he
    obtain ⟨-, -, hresult⟩ := of_ready h
    by_cases haddress : p.sonar_ip = []
    · rw [on_configure, if_pos haddress] at hresult
      obtain ⟨rfl, -⟩ := Prod.mk.inj hresult
      rw [configuredBy, if_pos haddress] at hq
      exact hk q hq
    · rw [on_configure, if_neg haddress] at hresult
      obtain ⟨rfl, -⟩ := Prod.mk.inj hresult
      rw [configuredBy, if_neg haddress] at hq
      rw [← Option.some.inj hq]
      rfl
  · have hne : ∀ p, e ≠ .configure p := fun p hp => he ⟨p, hp⟩
    have hsame : t.startup_settings = n.startup_settings := by
      cases step_of_machine hn h with
      | configure p => exact absurd rfl (hne p)
      | _ => rfl
    rw [configuredBy_of_ne hne] at hq
    exact hsame.trans (hk q hq)

theorem run_starting {address_ok : List Char → Bool} {t : Node}
    {es : List NodeEvent} {os : List NodeAction}
    (h : (machine address_ok).run start es = some (t, os)) :
    t.Invariant ∧ t.Kept es ∧ t.Starting es os :=
  (machine address_ok).run_record
    (I := fun n fs ps => n.Invariant ∧ n.Kept fs ∧ n.Starting fs ps)
    (fun n fs ps e u o hkept _ hstep => by
      obtain ⟨hn, hk, hs⟩ := hkept
      have step := step_of_machine hn hstep
      refine ⟨step.invariant hn, step_kept hn hk hstep,
        starting_of_step hn hs (fun p c he held inactive => ?_) step⟩
      subst he
      exact cmdOpen_of_configure hstep held inactive)
    ⟨start_invariant, nofun, start_starting⟩
    ((machine address_ok).meets_true start es) h

/-- The node becomes active behind `on_activate`. -/
theorem Step.starts_of_active {n t : Node} {e : NodeEvent}
    {os : List NodeAction} (h : n.Step e (t, os))
    (hmem : .transitioned .activate .active ∈ os) : n.Starts e [] := by
  cases h with
  | started starts => exact starts
  | failed throws running sound found =>
      cases List.mem_append.mp hmem with
      | inl h =>
          exact absurd h
            (not_mem_of_found found fun k => NodeAction.noConfusion)
      | inr h => simp at h
  | terminated throws running held is_open sound found =>
      exact absurd hmem
        (not_mem_of_found found fun k => NodeAction.noConfusion)
  | cleanup => simp [finish] at hmem
  | _ => simp at hmem

/-- Whenever the node becomes active in a run, all that has been sent since the
transition before are the startup settings of the last accepted configuration,
in their order, each again for every call of it that has not been acknowledged,
and each of them has been. -/
theorem run_startup {address_ok : List Char → Bool} {n t : Node}
    {es : List NodeEvent} {e : NodeEvent} {ps os : List NodeAction}
    (hrun : (machine address_ok).run start es = some (n, ps))
    (hstep : (machine address_ok).step n e = some (t, os))
    (hactive : .transitioned .activate .active ∈ os) :
    ∃ p, lastConfigured es = some p ∧
      since ps = (offered p.startup_settings (answers (es ++ [e]))).map
        startCommand ∧
      p.startup_settings.length ≤ (answers (es ++ [e])).count true := by
  obtain ⟨hn, hk, hs⟩ := run_starting hrun
  have starts := (step_of_machine hn hstep).starts_of_active hactive
  have running := starts.transition
  obtain ⟨c, held, -⟩ := hn.cmd_open (Or.inr (by rw [running]; rfl))
  obtain ⟨p, gs, qs, hconfigured⟩ := run_configured hrun held
  have hp := hconfigured.last
  obtain ⟨hremaining, hsent⟩ := hs.of_starts hn starts
  rw [hk p hp] at hremaining hsent
  refine ⟨p, hp, ?_, (remaining_eq_nil_iff _ _).mp hremaining⟩
  rw [hsent]
  exact (List.append_nil _).symm

/-- A startup setting whose first call is not acknowledged. -/
def resending : List NodeEvent :=
  [.configure (Parameters.defaults ['s']), .activate, .connected .cmd true,
    .connectReturns, .written, .sendCmdReturns false]

theorem run_startup_resending :
    ∃ n ps t os, (machine fun _ => true).run start resending = some (n, ps) ∧
      (machine fun _ => true).step n (.sendCmdReturns true) = some (t, os) ∧
      .transitioned .activate .active ∈ os ∧
      ∃ p, lastConfigured resending = some p ∧
        since ps = (offered p.startup_settings
          (answers (resending ++ [.sendCmdReturns true]))).map startCommand ∧
        p.startup_settings.length ≤
          (answers (resending ++ [.sendCmdReturns true])).count true := by
  have hactive : ((machine fun _ => true).run start resending).any fun q =>
      ((machine fun _ => true).step q.1 (.sendCmdReturns true)).any fun r =>
        r.2.contains (.transitioned .activate .active) := by
    decide +kernel
  obtain ⟨⟨n, ps⟩, hrun, hnext⟩ := (Option.any_eq_true _ _).mp hactive
  obtain ⟨⟨t, os⟩, hstep, hmem⟩ := (Option.any_eq_true _ _).mp hnext
  have hmem := List.contains_iff_mem.mp hmem
  exact ⟨n, ps, t, os, hrun, hstep, hmem, run_startup hrun hstep hmem⟩

end Node

end NorbitDriver
