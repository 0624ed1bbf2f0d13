import NorbitDriver.Connection.Connection
import NorbitDriver.Connection.Lines

/-!
# Failed reads

None of the three read handlers looks at its error argument. The handler of a
failed read does what it does for a successful one: a data socket processes its
zeroed buffer and starts the next receive operation, and the command socket puts
whatever the buffer holds into the response queue and starts the next read. So
failures are contained only in a run in which no handler runs behind them.
-/

namespace NorbitDriver

open Text Transition

namespace Sock

variable {β ω : Type}

/-- A read on the socket completes with an error. -/
def Fails : ∀ i, Event i → Prop
  | data _, r => Receive.error r = true
  | cmd, e => e = CmdEvent.readFails

/-- The start of a read on the socket, or something that comes of a frame. -/
def Active : ∀ i, Action β ω i → Prop
  | data _, _ => True
  | cmd, a => a = CmdAction.readStarted

end Sock

/-- The handlers of the operations on the command socket. -/
def CmdEvent.IsHandler : CmdEvent → Prop
  | connected => True
  | receiveCmd _ => True
  | writeHandler => True
  | _ => False

namespace NorbitConnection

variable {β ω : Type}

/-- Once a read on a socket has failed, no read is started on it and no frame
dispatched from it; the handler of a failed read puts nothing into the response
queue; and every string in the queue is a line the sonar has sent. -/
structure FailuresContained (cbs : Callbacks β ω) (cmd_timeout : ℤ) (s : State)
    (es : List Event) : Prop where
  silent : ∀ (pre post : List Event) (i : Sock) (e : Sock.Event i)
    (t u : State) (os ps : List (Action β ω)), es = pre ++ ⟨i, e⟩ :: post →
    Sock.Fails i e → (machine cbs cmd_timeout).run s pre = some (t, os) →
    (machine cbs cmd_timeout).run t (⟨i, e⟩ :: post) = some (u, ps) →
    ∀ a ∈ restrict i ps, ¬ Sock.Active i a
  discarded : ∀ (pre post : List Event) (t u : State)
    (os ps : List (Action β ω)),
    es = pre ++ ⟨.cmd, CmdEvent.receiveCmd true⟩ :: post →
    (machine cbs cmd_timeout).run s pre = some (t, os) →
    (machine cbs cmd_timeout).step t ⟨.cmd, CmdEvent.receiveCmd true⟩ =
      some (u, ps) →
    ∀ line, .enqueued line ∉ cmdActions ps
  lines : ∀ (u : State) (os : List (Action β ω)),
    (machine cbs cmd_timeout).run s es = some (u, os) →
    ∀ line, .enqueued line ∈ cmdActions os →
      IsLine line (CmdSocket.sentText (cmdEvents es))

/-- On a data socket no receive operation fails, and behind a failed read on
the command socket none of its handlers runs. -/
structure Unhandled (es : List Event) : Prop where
  receives : ∀ k, ∀ r ∈ receives k es, r.error = false
  handlers : ∀ pre post, es = pre ++ ⟨.cmd, CmdEvent.readFails⟩ :: post →
    ∀ e ∈ cmdEvents post, ¬ e.IsHandler

end NorbitConnection

namespace CmdSocket

variable {cmd_timeout : ℤ}

/-- The handlers are what starts a read. -/
theorem readStarted_mem_iff {s t : CmdSocket} {e : CmdEvent}
    {os : List CmdAction}
    (h : (machine cmd_timeout).step s e = some (t, os)) :
    .readStarted ∈ os ↔ e.IsHandler := by
  cases cmdStep_of_step h with
  | waits => simp [CmdEvent.IsHandler, -List.map_take]
  | returns => simp [CmdEvent.IsHandler, -List.map_take]
  | _ => simp [CmdEvent.IsHandler]

/-- Without a handler no read is started. -/
theorem readStarted_not_mem {s t : CmdSocket} {es : List CmdEvent}
    {os : List CmdAction} (hes : ∀ e ∈ es, ¬ e.IsHandler)
    (hrun : (machine cmd_timeout).run s es = some (t, os)) :
    .readStarted ∉ os := by
  have hother := (machine cmd_timeout).run_observes (I := fun _ => True)
    (P := fun a => a ≠ .readStarted)
    (fun s e t o _ he hstep => ⟨trivial, fun a ha heq =>
      he ((readStarted_mem_iff hstep).mp (heq ▸ ha))⟩)
    trivial ((machine cmd_timeout).meets_of_forall hes s) hrun
  exact fun hmem => hother _ hmem rfl

/-- Only a failed read leaves the handler of a failed read to run. -/
theorem step_failed {s t : CmdSocket} {e : CmdEvent} {os : List CmdAction}
    (hs : s.failed = 0) (he : e ≠ .readFails)
    (h : (machine cmd_timeout).step s e = some (t, os)) : t.failed = 0 := by
  cases cmdStep_of_step h with
  | readFails => exact absurd rfl he
  | receiveFailed failed =>
      rw [hs] at failed
      exact absurd failed (Nat.lt_irrefl 0)
  | _ => exact hs

/-- A run that leaves the handler of a failed read to run has a failed read. -/
theorem readFails_mem_of_run {t : CmdSocket} {es : List CmdEvent}
    {os : List CmdAction}
    (hrun : (machine cmd_timeout).run closed es = some (t, os))
    (ht : 0 < t.failed) : .readFails ∈ es := by
  by_contra hnone
  have hreads : ∀ e ∈ es, e ≠ .readFails := by
    intro e he heq
    exact hnone (heq ▸ he)
  have hzero := (machine cmd_timeout).run_invariant
    (I := fun s => s.failed = 0)
    (fun s e t o hs he hstep => step_failed hs he hstep) rfl
    ((machine cmd_timeout).meets_of_forall hreads _) hrun
  rw [hzero] at ht
  exact absurd ht (Nat.lt_irrefl 0)

/-- The handler of a failed read runs only behind a failed read. -/
theorem failed_of_receiveCmd {s t : CmdSocket} {os : List CmdAction}
    (h : (machine cmd_timeout).step s (.receiveCmd true) = some (t, os)) :
    0 < s.failed := by
  cases cmdStep_of_step h with
  | receiveFailed failed => exact failed

end CmdSocket

namespace NorbitConnection

variable {β ω : Type}

theorem mem_receives {k : DataSock} {r : Receive} {es : List Event} :
    r ∈ receives k es ↔ (⟨.data k, r⟩ : Event) ∈ es :=
  mem_restrict (A := Sock.Event) (i := .data k)

theorem mem_cmdEvents {e : CmdEvent} {es : List Event} :
    e ∈ cmdEvents es ↔ (⟨.cmd, e⟩ : Event) ∈ es :=
  mem_restrict (A := Sock.Event) (i := .cmd)

/-- A failed read whose handler does not run is contained, and the queue holds
lines as long as every handler finds a line feed. -/
theorem Unhandled.contained (cbs : Callbacks β ω) {cmd_timeout : ℤ}
    {streams : DataSock → List UInt8} {es : List Event} (h : Unhandled es)
    (hterminated : (CmdSocket.machine cmd_timeout).Meets CmdSocket.Terminated
      CmdSocket.closed (cmdEvents es)) :
    FailuresContained cbs cmd_timeout (start streams CmdSocket.closed) es where
  silent := by
    intro pre post i e t u os ps hes hfails hpre hpost
    cases i with
    | data k =>
        have hmem : (⟨.data k, e⟩ : Event) ∈ es := by
          rw [hes]
          exact List.mem_append_right _ List.mem_cons_self
        have hfalse := h.receives k e (mem_receives.mpr hmem)
        exact absurd (hfails.symm.trans hfalse) (by decide)
    | cmd =>
        have hreads : e = CmdEvent.readFails := hfails
        subst hreads
        have hnone : ∀ e ∈ CmdEvent.readFails :: cmdEvents post,
            ¬ e.IsHandler := by
          intro e he
          rcases List.mem_cons.mp he with heq | hmem
          · rw [heq]
            exact id
          · exact h.handlers pre post hes e hmem
        have htail := run_command hpost
        intro a ha hactive
        have hstarted : a = CmdAction.readStarted := hactive
        rw [hstarted] at ha
        exact CmdSocket.readStarted_not_mem hnone htail ha
  discarded := by
    intro pre post t u os ps hes hrun hstep
    obtain ⟨v, o, hcmd, -, -⟩ := (Machine.interleave_step_eq_some_iff
      (Sock.machine cbs cmd_timeout)).mp hstep
    have hmem := CmdSocket.readFails_mem_of_run (run_command hrun)
      (CmdSocket.failed_of_receiveCmd hcmd)
    obtain ⟨front, back, rfl⟩ := List.append_of_mem (mem_cmdEvents.mp hmem)
    have hhandler := h.handlers front
      (back ++ ⟨.cmd, CmdEvent.receiveCmd true⟩ :: post)
      (hes.trans (List.append_assoc _ _ _)) (.receiveCmd true)
      (mem_cmdEvents.mpr (List.mem_append_right _ List.mem_cons_self))
    exact absurd trivial hhandler
  lines := by
    intro u os hrun line hline
    have hcmd := run_command hrun
    exact ⟨CmdSocket.enqueued (cmdActions os), (u .cmd : CmdSocket).text,
      (CmdSocket.run_text hterminated hcmd).symm,
      CmdSocket.run_enqueued hcmd, CmdSocket.mem_enqueued.mpr hline⟩

/-- A failed receive operation is followed by the next one, and every handler
on the command socket by the next read. -/
theorem FailuresContained.unhandled {cbs : Callbacks β ω} {cmd_timeout : ℤ}
    {s u : State} {es : List Event} {os : List (Action β ω)}
    (h : FailuresContained cbs cmd_timeout s es)
    (hrun : (machine cbs cmd_timeout).run s es = some (u, os)) :
    Unhandled es where
  receives := by
    intro k r hr
    by_contra herror
    obtain ⟨pre, post, t, v, o, p, q, hes, hpre, hstep, hpost, -⟩ :=
      (machine cbs cmd_timeout).exists_step_of_mem (mem_receives.mp hr) hrun
    obtain ⟨w, ps, hdata, -, hp⟩ := (Machine.interleave_step_eq_some_iff
      (Sock.machine cbs cmd_timeout)).mp hstep
    obtain ⟨-, msg, rest, -, -, hps⟩ :=
      (DataSocket.machine_step_eq_some_iff cbs).mp hdata
    have hstarted : DataAction.receiveStarted ∈ dataActions k (p ++ q) := by
      apply mem_restrict.mpr
      apply List.mem_append_left
      rw [hp, hps]
      exact List.mem_map_of_mem (List.mem_append_right _ List.mem_cons_self)
    have htail := (machine cbs cmd_timeout).run_cons_eq_some_iff.mpr
      ⟨v, p, q, hstep, hpost, rfl⟩
    exact h.silent pre post (.data k) r t u o (p ++ q) hes
      (Bool.eq_true_of_not_eq_false herror) hpre htail _ hstarted trivial
  handlers := by
    intro pre post hes e he hhandler
    have hsplit := hrun
    rw [hes, Machine.run_append_eq_some_iff] at hsplit
    obtain ⟨t, o, o', hpre, hpost, -⟩ := hsplit
    have hmem : e ∈ cmdEvents (⟨.cmd, CmdEvent.readFails⟩ :: post) :=
      mem_cmdEvents.mpr (List.mem_cons_of_mem _ (mem_cmdEvents.mp he))
    obtain ⟨-, -, v, w, q, p, q', -, -, hstep, -, hactions⟩ :=
      (CmdSocket.machine cmd_timeout).exists_step_of_mem hmem
        (run_command hpost)
    have hstarted : .readStarted ∈ cmdActions o' := by
      rw [hactions]
      apply List.mem_append_right
      apply List.mem_append_left
      exact (CmdSocket.readStarted_mem_iff hstep).mpr hhandler
    exact h.silent pre post .cmd .readFails t u o o' hes rfl hpre hpost _
      hstarted rfl

/-- Failures are contained only in a run in which no handler runs behind a
failed read, and in such a run they are when every line is complete as it is
taken from the buffer. -/
theorem failuresContained_of_unhandled (cbs : Callbacks β ω)
    (cmd_timeout : ℤ) (streams : DataSock → List UInt8) {es : List Event}
    {u : State} {os : List (Action β ω)}
    (hrun : (machine cbs cmd_timeout).run (start streams CmdSocket.closed) es =
      some (u, os)) :
    ((CmdSocket.machine cmd_timeout).Meets CmdSocket.Terminated
        CmdSocket.closed (cmdEvents es) → Unhandled es →
      FailuresContained cbs cmd_timeout (start streams CmdSocket.closed)
        es) ∧
    (FailuresContained cbs cmd_timeout (start streams CmdSocket.closed) es →
      Unhandled es) :=
  ⟨fun hterminated h => h.contained cbs hterminated,
    fun h => h.unhandled hrun⟩

/-- Events of the command socket alone. -/
def onCmd (es : List CmdEvent) : List Event :=
  es.map (Sigma.mk Sock.cmd)

theorem receives_onCmd (k : DataSock) (es : List CmdEvent) :
    receives k (onCmd es) = [] :=
  restrict_map_of_ne (A := Sock.Event) (i := .data k) (j := .cmd) (by simp) es

theorem cmdEvents_onCmd (es : List CmdEvent) : cmdEvents (onCmd es) = es :=
  restrict_map_self (A := Sock.Event) Sock.cmd es

/-- Events of the command socket alone are accepted by the connection when the
command socket accepts them. -/
theorem run_onCmd_isSome {cbs : Callbacks β ω} {cmd_timeout : ℤ}
    {streams : DataSock → List UInt8} {es : List CmdEvent}
    (h : ((CmdSocket.machine cmd_timeout).run CmdSocket.closed es).isSome) :
    ((machine cbs cmd_timeout).run (start streams CmdSocket.closed)
      (onCmd es)).isSome := by
  apply Machine.interleave_run_isSome
  intro i
  cases i with
  | data k =>
      have hnone : restrict (A := Sock.Event) (.data k) (onCmd es) = [] :=
        receives_onCmd k es
      rw [hnone]
      rfl
  | cmd =>
      have hall : restrict (A := Sock.Event) .cmd (onCmd es) = es :=
        cmdEvents_onCmd es
      rw [hall]
      exact h

/-- The only failed read is one behind which no handler runs. -/
theorem unhandled_onCmd {front back : List CmdEvent}
    (hfront : .readFails ∉ front) (honly : .readFails ∉ back)
    (hback : ∀ e ∈ back, ¬ e.IsHandler) :
    Unhandled (onCmd (front ++ .readFails :: back)) where
  receives k r hr := by
    rw [receives_onCmd] at hr
    exact absurd hr List.not_mem_nil
  handlers pre post hes := by
    have hsplit : cmdEvents (pre ++ ⟨.cmd, CmdEvent.readFails⟩ :: post) =
        cmdEvents pre ++ CmdEvent.readFails :: cmdEvents post :=
      (restrict_append (A := Sock.Event) .cmd pre _).trans (congrArg _
        (restrict_cons_self (A := Sock.Event) .cmd CmdEvent.readFails post))
    rw [← hes, cmdEvents_onCmd] at hsplit
    have hpost := (List.append_cons_inj_of_notMem hfront honly).mp hsplit
    rw [← hpost.2.2]
    exact hback

/-- A line is received on the command socket, and the next read fails without
its handler running. -/
def lineReceived : List CmdEvent :=
  [.connect 0, .connected, .arrive ['p', '\r', '\n'], .transfer 3,
    .receiveCmd false] ++ .readFails :: [.iterate 5, .sendCmd ['p'] ['1'] 6]

/-- The first read on the command socket fails. -/
def readFailed : List CmdEvent :=
  [.connect 0, .connected, .readFails, .receiveCmd true]

/-- Failures are contained in the run that receives a line. -/
theorem lineReceived_failuresContained :
    ∃ u os, (machine (⟨[()], [()]⟩ : Callbacks Unit Unit) 5).run
        (start (fun _ => []) CmdSocket.closed) (onCmd lineReceived) =
          some (u, os) ∧
      FailuresContained (⟨[()], [()]⟩ : Callbacks Unit Unit) 5
        (start (fun _ => []) CmdSocket.closed) (onCmd lineReceived) := by
  have hsome : ((machine (⟨[()], [()]⟩ : Callbacks Unit Unit) 5).run
      (start (fun _ => []) CmdSocket.closed) (onCmd lineReceived)).isSome :=
    run_onCmd_isSome (by decide +kernel)
  obtain ⟨⟨u, os⟩, hrun⟩ := Option.isSome_iff_exists.mp hsome
  have hterminated : (CmdSocket.machine 5).Meets CmdSocket.Terminated
      CmdSocket.closed (cmdEvents (onCmd lineReceived)) := by
    decide +kernel
  have hunhandled : Unhandled (onCmd lineReceived) :=
    unhandled_onCmd (by decide) (by decide) (by simp [CmdEvent.IsHandler])
  exact ⟨u, os, hrun,
    (failuresContained_of_unhandled _ 5 _ hrun).1 hterminated hunhandled⟩

/-- The handler of the first read, which has failed, puts a string into the
queue and starts another read. -/
theorem readFailed_not_failuresContained :
    ¬ FailuresContained (⟨[()], [()]⟩ : Callbacks Unit Unit) 5
      (start (fun _ => []) CmdSocket.closed) (onCmd readFailed) := by
  intro h
  have hsome : ((machine (⟨[()], [()]⟩ : Callbacks Unit Unit) 5).run
      (start (fun _ => []) CmdSocket.closed) (onCmd readFailed)).isSome :=
    run_onCmd_isSome (by decide +kernel)
  obtain ⟨⟨u, os⟩, hrun⟩ := Option.isSome_iff_exists.mp hsome
  have hhandlers := (h.unhandled hrun).handlers
    (onCmd [.connect 0, .connected]) (onCmd [.receiveCmd true]) rfl
  exact hhandlers (.receiveCmd true) (by decide) trivial

end NorbitConnection

end NorbitDriver
