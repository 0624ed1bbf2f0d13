import NorbitDriver.Node.Startup

/-!
# The two models of an activation

`on_activate` has been modelled twice: as a function that makes one call of
`sendCmd` after the other and returns the calls, and as a task of the node that
goes on when a call has returned. Whatever the function returns, the node does:
it accepts the answers of the calls in their order, sends what they send, and is
active behind the last of them.
-/

namespace NorbitDriver

open Transition

/-- The command that an observation of the node is the sending of. -/
def NodeAction.command : NodeAction → List Node.Command
  | sent site cmd val => [(site, cmd, val)]
  | _ => []

namespace Node

/-- The calls of `sendCmd` return. -/
def returns (calls : List Sent) : List NodeEvent :=
  calls.map fun s => .sendCmdReturns s.reply.out.ack

/-- The commands of the calls of `sendCmd`. -/
def commands (calls : List Sent) : List Command :=
  calls.map fun s => startCommand s.param

/-- The node is in service, and its command socket is open. -/
structure Connected (n : Node) : Prop where
  gone : n.gone = false
  cmd_open : ∃ c, n.connection_ = some c ∧ cmdOpen c = true

/-- A setting is sent. -/
theorem Connected.startNext {n : Node} (hn : n.Connected) (param : List Char)
    (rest : List (List Char)) :
    ∃ m os, n.startNext (param :: rest) = (m, os) ∧ m.Connected ∧
      m.task = .startup param rest ∧
      os.flatMap NodeAction.command = [startCommand param] := by
  obtain ⟨c, held, hopen⟩ := hn.cmd_open
  have hstays : cmdOpen (c.update .cmd Endpoint.async_write) = true :=
    (cmdOpen_update c .cmd fun _ => rfl).trans hopen
  exact ⟨_, _, sendCmd_of_open held hopen _ _ _ _,
    ⟨hn.gone, _, rfl, hstays⟩, rfl, rfl⟩

/-- The call for a setting returns: the next one is sent, or the same again. -/
theorem Connected.step_returns {n : Node} (hn : n.Connected)
    {param : List Char} {rest : List (List Char)}
    (task : n.task = .startup param rest) (address_ok : List Char → Bool)
    (ack : Bool) :
    (machine address_ok).step n (.sendCmdReturns ack) =
      some (n.startNext (if ack then rest else param :: rest)) := by
  obtain ⟨c, held, hopen⟩ := hn.cmd_open
  simp only [machine, hn.gone, held, Option.bind_some, sendCmdReturns, hopen,
    Bool.not_true, Bool.and_false, task, Bool.false_eq_true, if_false]
  cases ack with
  | _ => rfl

/-- The calls made for a setting, up to what follows the last of them. -/
theorem Connected.run_sendSetting {cmd_timeout : ℤ} {n : Node}
    (hn : n.Connected) {param : List Char} {rest queue : List (List Char)}
    {attempts : List Attempt} {calls : List Sent}
    {left : List (List Char) × List Attempt}
    (task : n.task = .startup param rest) (address_ok : List Char → Bool)
    (h : sendSetting cmd_timeout param queue attempts = some (calls, left)) :
    ∃ (m : Node) (os : List NodeAction), m.Connected ∧
      (machine address_ok).run n (returns calls) =
        some ((m.startNext rest).1, os ++ (m.startNext rest).2) ∧
      startCommand param :: os.flatMap NodeAction.command = commands calls := by
  induction attempts generalizing n queue calls with
  | nil => exact absurd h (by simp [sendSetting])
  | cons attempt attempts ih =>
      rw [sendSetting, Option.bind_eq_some_iff] at h
      obtain ⟨s, hmake, h⟩ := h
      rw [Sent.make, Option.map_eq_some_iff] at hmake
      obtain ⟨reply, -, rfl⟩ := hmake
      have hstep := hn.step_returns task address_ok reply.out.ack
      cases hack : reply.out.ack with
      | true =>
          rw [hack, if_pos rfl] at hstep
          rw [if_pos hack, Option.some.injEq, Prod.mk.injEq] at h
          rw [← h.1]
          refine ⟨n, [], hn, ?_, rfl⟩
          rw [returns, List.map_singleton, Machine.run_singleton, hack]
          exact hstep
      | false =>
          have hnot : ¬ reply.out.ack = true := by
            rw [hack]
            exact Bool.false_ne_true
          rw [hack, if_neg Bool.false_ne_true] at hstep
          rw [if_neg hnot, Option.map_eq_some_iff] at h
          obtain ⟨⟨sents, q⟩, hrest, hq⟩ := h
          rw [Prod.mk.injEq] at hq
          obtain ⟨rfl, rfl⟩ := hq
          obtain ⟨m, os, hagain, hm, mtask, hsent⟩ := hn.startNext param rest
          obtain ⟨u, ps, hu, hrun, hcommands⟩ := ih hm mtask hrest
          rw [hagain] at hstep
          refine ⟨u, os ++ ps, hu, ?_, ?_⟩
          · rw [List.append_assoc, returns, List.map_cons, hack]
            exact (machine address_ok).run_cons_eq_some_iff.mpr
              ⟨m, os, _, hstep, hrun, rfl⟩
          · rw [List.flatMap_append, hsent]
            exact congrArg (List.cons (startCommand param)) hcommands

/-- The calls made for the settings, from the first of them on. -/
theorem Connected.run_settings {cmd_timeout : ℤ} {n : Node} (hn : n.Connected)
    {settings queue : List (List Char)} {attempts : List Attempt}
    {calls : List Sent} (address_ok : List Char → Bool)
    (h : NorbitDriver.on_activate cmd_timeout settings queue attempts =
      some calls) :
    ∃ t os, (machine address_ok).run (n.startNext settings).1 (returns calls) =
        some (t, os) ∧
      t.lifecycle = .active ∧ t.task = .idle ∧
      ((n.startNext settings).2 ++ os).flatMap NodeAction.command =
        commands calls := by
  induction settings generalizing n queue attempts calls with
  | nil =>
      rw [NorbitDriver.on_activate, Option.some.injEq] at h
      rw [← h]
      exact ⟨_, [], rfl, rfl, rfl, rfl⟩
  | cons param settings ih =>
      rw [NorbitDriver.on_activate, Option.bind_eq_some_iff] at h
      obtain ⟨⟨sents, queue', attempts'⟩, hsetting, h⟩ := h
      rw [Option.map_eq_some_iff] at h
      obtain ⟨others, hothers, rfl⟩ := h
      obtain ⟨m, os, hfirst, hm, mtask, hsent⟩ := hn.startNext param settings
      obtain ⟨u, ps, hu, hrun, hcommands⟩ :=
        hm.run_sendSetting mtask address_ok hsetting
      obtain ⟨t, qs, hrest, active, idle, hrests⟩ := ih hu hothers
      rw [hfirst]
      refine ⟨t, ps ++ (u.startNext settings).2 ++ qs, ?_, active, idle, ?_⟩
      · rw [returns, List.map_append]
        exact (machine address_ok).run_append_of_eq_some hrun hrest
      · rw [commands, List.map_append, ← commands, ← commands, ← hcommands,
          ← hrests, List.append_assoc, List.flatMap_append, hsent,
          List.flatMap_append]
        rfl

/-- What `on_activate` does behind `connect` as a function, the node does: it
accepts the answers of the calls, sends their commands and becomes active. -/
theorem run_on_activate {cmd_timeout : ℤ} {address_ok : List Char → Bool}
    {n : Node} {es : List NodeEvent} {os : List NodeAction}
    {queue : List (List Char)} {attempts : List Attempt} {calls : List Sent}
    (hrun : (machine address_ok).run start es = some (n, os))
    (gone : n.gone = false) (task : n.task = .connect)
    (h : NorbitDriver.on_activate cmd_timeout n.startup_settings queue
      attempts = some calls) :
    ∃ t ps, (machine address_ok).run start
        (es ++ .connectReturns :: returns calls) = some (t, os ++ ps) ∧
      t.lifecycle = .active ∧ t.task = .idle ∧
      ps.flatMap NodeAction.command = commands calls := by
  have hn := run_holds hrun
  have hconnected : n.Connected :=
    ⟨gone, hn.cmd_open (Or.inr (by rw [task]; rfl))⟩
  have hstep : (machine address_ok).step n .connectReturns =
      some (n.startNext n.startup_settings) := by
    simp [machine, gone, task]
  obtain ⟨t, ps, hcalls, active, idle, hcommands⟩ :=
    hconnected.run_settings address_ok h
  have hnext := (machine address_ok).run_cons_eq_some_iff.mpr
    ⟨_, _, ps, hstep, hcalls, rfl⟩
  exact ⟨t, _, (machine address_ok).run_append_of_eq_some hrun hnext, active,
    idle, hcommands⟩

/-- A node whose `on_activate` waits in `connect`. -/
def connecting : List NodeEvent :=
  [.configure (Parameters.defaults ['s']), .activate, .connected .cmd true]

/-- The default startup setting, answered behind the deadline of the first call
only. -/
def resent : List Attempt :=
  [⟨0, [⟨[], 6⟩]⟩, ⟨7, [⟨[['p', 'o', 'w', 'e', 'r']], 8⟩]⟩]

theorem run_on_activate_resent :
    ∃ n os calls, (machine fun _ => true).run start connecting =
        some (n, os) ∧
      NorbitDriver.on_activate 5 n.startup_settings [] resent = some calls ∧
      ∃ t ps, (machine fun _ => true).run start
          (connecting ++ .connectReturns :: returns calls) =
            some (t, os ++ ps) ∧
        t.lifecycle = .active ∧ t.task = .idle ∧
        ps.flatMap NodeAction.command = commands calls := by
  have hrun : ∃ n os, (machine fun _ => true).run start connecting =
      some (n, os) ∧ n.gone = false ∧ n.task = .connect ∧
        n.startup_settings = (Parameters.defaults ['s']).startup_settings :=
    ⟨_, _, rfl, rfl, rfl, rfl⟩
  obtain ⟨n, os, hrun, gone, task, hsettings⟩ := hrun
  have hsome : (NorbitDriver.on_activate 5
      (Parameters.defaults ['s']).startup_settings [] resent).isSome := by
    decide +kernel
  rw [← hsettings] at hsome
  obtain ⟨calls, hcalls⟩ := Option.isSome_iff_exists.mp hsome
  exact ⟨n, os, calls, hrun, hcalls, run_on_activate hrun gone task hcalls⟩

end Node

end NorbitDriver
