import NorbitDriver.Connection.Lines

/-!
# The greeting of the sonar

While `connect` runs there is at most one read outstanding, and the next one is
started by the handler of the one before. So a handler runs only when the buffer
holds `"\r\n"`, and the line it takes ends at a line feed, whatever the sonar
sends and however the reads cut it. What `connect` returns are the first lines
of the characters that have been read, and the others are in the buffer.
-/

namespace NorbitDriver

open Text Transition

namespace CmdSocket

variable {cmd_timeout : ℤ}

/-- The command socket while `connect` runs and no read has failed. -/
structure Greets (s : CmdSocket) : Prop where
  opened : s.is_open = true
  writing : s.writing = []
  written : s.written = 0
  failed : s.failed = 0
  readers : s.waiting + s.ready ≤ 1
  fresh : s.connected = false → s.waiting + s.ready = 0
  ready_iff : 0 < s.ready ↔ ['\r', '\n'] <:+: s.cmd_resp_buffer

/-- No call of `connect` runs, and none will. -/
def Over (s : CmdSocket) : Prop :=
  s.is_open = true ∧ ∀ responses timeout,
    s.activity ≠ .connect responses timeout

/-- The read that is started when no other is outstanding. -/
theorem listenForCmd_only {s : CmdSocket} (hw : s.waiting = 0)
    (hr : s.ready = 0) :
    s.listenForCmd.waiting + s.listenForCmd.ready ≤ 1 ∧
      (0 < s.listenForCmd.ready ↔ ['\r', '\n'] <:+: s.cmd_resp_buffer) := by
  rw [← find_isSome_iff]
  by_cases h : (find ['\r', '\n'] s.cmd_resp_buffer).isSome
  · simp [listenForCmd, h, hw, hr]
  · simp [listenForCmd, h, hw, hr]

/-- Characters that reach the only read. -/
theorem transfer_only {s : CmdSocket} (hw : 0 < s.waiting)
    (hs : s.waiting + s.ready ≤ 1) (n : ℕ) :
    (s.transfer n).waiting + (s.transfer n).ready ≤ 1 ∧
      (0 < (s.transfer n).ready ↔
        ['\r', '\n'] <:+: (s.transfer n).cmd_resp_buffer) := by
  have hwaiting : s.waiting = 1 := by omega
  have hready : s.ready = 0 := by omega
  rw [← find_isSome_iff]
  by_cases h : (find ['\r', '\n']
      (s.cmd_resp_buffer ++ s.incoming.take n)).isSome
  · simp [transfer, h, hwaiting, hready]
  · simp [transfer, h, hwaiting, hready]

/-- The activity behind a step that is taken while `connect` runs. -/
theorem step_activity {s t : CmdSocket} {e : CmdEvent} {os : List CmdAction}
    {responses : List (List Char)} {timeout : ℤ} (hopen : s.is_open = true)
    (hc : s.activity = .connect responses timeout)
    (h : (machine cmd_timeout).step s e = some (t, os)) :
    t.activity = .connect (responses ++ popped os) timeout ∨ t.Over := by
  have hsame : s.activity = .connect (responses ++ []) timeout := by
    rw [List.append_nil]
    exact hc
  cases cmdStep_of_step h with
  | connect now idle => exact absurd (hc.symm.trans idle) Activity.noConfusion
  | sendCmd cmd val now idle =>
      exact absurd (hc.symm.trans idle) Activity.noConfusion
  | waits running => exact absurd (hc.symm.trans running) Activity.noConfusion
  | returns running =>
      exact absurd (hc.symm.trans running) Activity.noConfusion
  | connecting running early =>
      have heq := Activity.connect.inj (hc.symm.trans running)
      rw [popped_map_popped, heq.1, heq.2]
      exact Or.inl rfl
  | connectReturns running late =>
      exact Or.inr ⟨hopen, fun _ _ h => Activity.noConfusion h⟩
  | _ => exact Or.inl hsame

/-- `connect` is called once. -/
theorem Over.step {s t : CmdSocket} {e : CmdEvent} {os : List CmdAction}
    (hs : s.Over) (h : (machine cmd_timeout).step s e = some (t, os)) :
    t.Over := by
  obtain ⟨hopen, hnone⟩ := hs
  cases cmdStep_of_step h with
  | connect now idle closed =>
      rw [hopen] at closed
      exact absurd closed (by simp)
  | sendCmd => exact ⟨hopen, fun _ _ h => Activity.noConfusion h⟩
  | waits => exact ⟨hopen, fun _ _ h => Activity.noConfusion h⟩
  | returns => exact ⟨hopen, fun _ _ h => Activity.noConfusion h⟩
  | connecting running => exact absurd running (hnone _ _)
  | connectReturns running => exact absurd running (hnone _ _)
  | _ => exact ⟨hopen, hnone⟩

/-- A handler runs only when a line is complete. -/
theorem Greets.terminated {s t : CmdSocket} {e : CmdEvent}
    {os : List CmdAction} (hs : s.Greets)
    (h : (machine cmd_timeout).step s e = some (t, os)) : s.Terminated e := by
  intro err herr
  subst herr
  cases cmdStep_of_step h with
  | receiveReady ready =>
      exact (hs.ready_iff.mp ready).subset (by simp)
  | receiveFailed failed =>
      rw [hs.failed] at failed
      exact absurd failed (Nat.lt_irrefl 0)

/-- A step while `connect` runs keeps the only read. -/
theorem Greets.step {s t : CmdSocket} {e : CmdEvent} {os : List CmdAction}
    {responses : List (List Char)} {timeout : ℤ} (hs : s.Greets)
    (hc : s.activity = .connect responses timeout)
    (h : (machine cmd_timeout).step s e = some (t, os))
    (he : e ≠ .readFails) : t.Greets := by
  obtain ⟨hopen, hwriting, hwritten, hfailed, hreaders, hfresh, hready⟩ := hs
  cases cmdStep_of_step h with
  | connect now idle => exact absurd (hc.symm.trans idle) Activity.noConfusion
  | connected opened new =>
      have hzero := Nat.add_eq_zero_iff.mp (hfresh new)
      obtain ⟨hone, hline⟩ :=
        listenForCmd_only (s := { s with connected := true }) hzero.1 hzero.2
      exact ⟨hopen, hwriting, hwritten, hfailed, hone,
        fun hfalse => Bool.noConfusion hfalse, hline⟩
  | arrive =>
      exact ⟨hopen, hwriting, hwritten, hfailed, hreaders, hfresh, hready⟩
  | transfer n waiting =>
      obtain ⟨hone, hline⟩ := transfer_only waiting hreaders n
      refine ⟨hopen, hwriting, hwritten, hfailed, hone, fun hfalse => ?_, hline⟩
      have hzero := Nat.add_eq_zero_iff.mp (hfresh hfalse)
      rw [hzero.1] at waiting
      exact absurd waiting (Nat.lt_irrefl 0)
  | readFails => exact absurd rfl he
  | receiveReady ready =>
      have hw : s.waiting = 0 := by omega
      have hr : s.ready - 1 = 0 := by omega
      obtain ⟨hone, hline⟩ := listenForCmd_only
        (s := { s with
          ready := s.ready - 1
          cmd_resp_buffer := (getline s.cmd_resp_buffer).2
          cmd_resp_queue :=
            s.cmd_resp_queue ++ [(getline s.cmd_resp_buffer).1] }) hw hr
      refine ⟨hopen, hwriting, hwritten, hfailed, hone, fun hfalse => ?_, hline⟩
      have hzero := Nat.add_eq_zero_iff.mp (hfresh hfalse)
      rw [hzero.2] at ready
      exact absurd ready (Nat.lt_irrefl 0)
  | receiveFailed failed =>
      rw [hfailed] at failed
      exact absurd failed (Nat.lt_irrefl 0)
  | writeFinishes id pending =>
      rw [hwriting] at pending
      exact absurd pending List.not_mem_nil
  | writeHandler written =>
      rw [hwritten] at written
      exact absurd written (Nat.lt_irrefl 0)
  | sendCmd cmd val now idle =>
      exact absurd (hc.symm.trans idle) Activity.noConfusion
  | refused cmd val now idle =>
      exact absurd (hc.symm.trans idle) Activity.noConfusion
  | connecting =>
      exact ⟨hopen, hwriting, hwritten, hfailed, hreaders, hfresh, hready⟩
  | connectReturns =>
      exact ⟨hopen, hwriting, hwritten, hfailed, hreaders, hfresh, hready⟩
  | waits running => exact absurd (hc.symm.trans running) Activity.noConfusion
  | returns running =>
      exact absurd (hc.symm.trans running) Activity.noConfusion

/-- A run during which `connect` does not return: the responses are what has
been taken from the queue. -/
theorem run_greets {s t : CmdSocket} {es : List CmdEvent}
    {os : List CmdAction} {responses responses' : List (List Char)}
    {timeout timeout' : ℤ} (hs : s.Greets)
    (hc : s.activity = .connect responses timeout)
    (hrun : (machine cmd_timeout).run s es = some (t, os))
    (hes : .readFails ∉ es)
    (ht : t.activity = .connect responses' timeout') :
    t.Greets ∧ (machine cmd_timeout).Meets Terminated s es ∧
      responses' = responses ++ popped os := by
  induction es generalizing s os responses with
  | nil =>
      rw [Machine.run_nil_eq_some_iff] at hrun
      obtain ⟨rfl, rfl⟩ := hrun
      have heq := Activity.connect.inj (ht.symm.trans hc)
      exact ⟨hs, trivial, heq.1.trans (List.append_nil _).symm⟩
  | cons e es ih =>
      rw [List.mem_cons, not_or] at hes
      obtain ⟨u, o, o', hstep, hrest, rfl⟩ :=
        (machine cmd_timeout).run_cons_eq_some_iff.mp hrun
      rcases step_activity hs.opened hc hstep with hu | hover
      · have hgreets := hs.step hc hstep (Ne.symm hes.1)
        obtain ⟨hend, hmeets, hresponses⟩ := ih hgreets hu hrest hes.2
        refine ⟨hend, ⟨hs.terminated hstep, fun p hp => ?_⟩, ?_⟩
        · rw [hstep] at hp
          rw [← Option.some.inj hp]
          exact hmeets
        · rw [hresponses, popped_append, List.append_assoc]
      · have hend : t.Over := (machine cmd_timeout).run_invariant
          (C := fun _ _ => True) (fun _ _ _ _ hI _ hstep => hI.step hstep) hover
          ((machine cmd_timeout).meets_true u es) hrest
        exact absurd ht (hend.2 _ _)

theorem greets_connect (now : ℤ) : (closed.connect cmd_timeout now).Greets where
  opened := rfl
  writing := rfl
  written := rfl
  failed := rfl
  readers := Nat.zero_le 1
  fresh _ := rfl
  ready_iff := iff_of_false (Nat.lt_irrefl 0)
    fun h => absurd (List.infix_nil.mp h) (List.cons_ne_nil _ _)

/-- The turn in which `connect` returns. -/
theorem step_connectReturned {s t : CmdSocket} {now : ℤ}
    {os : List CmdAction} {responses : List (List Char)}
    (h : (machine cmd_timeout).step s (.iterate now) = some (t, os))
    (hmem : .connectReturned responses ∈ os) :
    ∃ front timeout, s.activity = .connect front timeout ∧
      responses = front ++ s.cmd_resp_queue ∧
      t = { s with cmd_resp_queue := [], activity := .idle } := by
  have hpopped : ∀ lines : List (List Char),
      .connectReturned responses ∉ lines.map CmdAction.popped := by
    simp
  cases cmdStep_of_step h with
  | connecting => exact absurd hmem (hpopped _)
  | connectReturns running =>
      have hlast := (List.mem_append.mp hmem).resolve_left (hpopped _)
      have hresponses := List.mem_singleton.mp hlast
      exact ⟨_, _, running, CmdAction.connectReturned.inj hresponses, rfl⟩
  | waits => exact absurd hmem (hpopped _)
  | returns =>
      have hlast := (List.mem_append.mp hmem).resolve_left (hpopped _)
      exact absurd (List.mem_singleton.mp hlast) CmdAction.noConfusion

/-- `connect` returns the first lines of the characters that have been read,
and the buffer holds the others. -/
theorem connect_returns {s t : CmdSocket} {es : List CmdEvent}
    {os ps : List CmdAction} {responses : List (List Char)} {now now' : ℤ}
    (hrun : (machine cmd_timeout).run closed (.connect now :: es) =
      some (s, os))
    (hes : .readFails ∉ es)
    (hreturn : (machine cmd_timeout).step s (.iterate now') = some (t, ps))
    (hmem : .connectReturned responses ∈ ps) :
    ∃ received, sentText es = received ++ t.incoming ∧
      received = unlines responses ++ t.cmd_resp_buffer ∧
      (∀ line ∈ responses, '\n' ∉ line) ∧
      t.cmd_resp_queue = [] ∧
      (t.ready = 0 → ¬ ['\r', '\n'] <:+: t.cmd_resp_buffer) := by
  obtain ⟨u, o, o', hstart, hrest, -⟩ :=
    (machine cmd_timeout).run_cons_eq_some_iff.mp hrun
  cases cmdStep_of_step hstart
  obtain ⟨front, timeout, hactivity, hresponses, rfl⟩ :=
    step_connectReturned hreturn hmem
  obtain ⟨hgreets, hmeets, hfront⟩ :=
    run_greets (greets_connect now) rfl hrest hes hactivity
  have hqueue := run_queue hrest
  have htext := run_text hmeets hrest
  have hlines : responses = enqueued o' := by
    rw [hresponses, hfront]
    exact hqueue
  refine ⟨unlines responses ++ s.cmd_resp_buffer, ?_, rfl, ?_, rfl, ?_⟩
  · rw [hlines, List.append_assoc]
    exact htext.symm
  · rw [hlines]
    exact run_enqueued hrest
  · intro hready hline
    have hpos := hgreets.ready_iff.mpr hline
    rw [hready] at hpos
    exact absurd hpos (Nat.lt_irrefl 0)

/-- A greeting of a line and a half, read in one piece. -/
def greeting : List CmdEvent :=
  [.connected, .arrive ['a', '\r', '\n', 'b'], .transfer 4, .iterate 1,
    .receiveCmd false]

/-- The socket when the first line of the greeting is in the queue. -/
def greeted : CmdSocket :=
  { closed.connect 5 0 with
    connected := true
    cmd_resp_buffer := ['b']
    waiting := 1
    cmd_resp_queue := [['a', '\r']] }

theorem connect_returns_greeted :
    ∃ s t os ps, (machine 5).run closed (.connect 0 :: greeting) =
        some (s, os) ∧
      (machine 5).step s (.iterate 6) = some (t, ps) ∧
      .connectReturned [['a', '\r']] ∈ ps ∧
      ∃ received, sentText greeting = received ++ t.incoming ∧
        received = unlines [['a', '\r']] ++ t.cmd_resp_buffer ∧
        (∀ line ∈ [['a', '\r']], '\n' ∉ line) ∧
        t.cmd_resp_queue = [] ∧
        (t.ready = 0 → ¬ ['\r', '\n'] <:+: t.cmd_resp_buffer) := by
  have hrun : (machine 5).run closed (.connect 0 :: greeting) =
      some (greeted, [.readStarted, .enqueued ['a', '\r'], .readStarted]) := by
    decide
  have hreturn : (machine 5).step greeted (.iterate 6) =
      some ({ greeted with cmd_resp_queue := [], activity := .idle },
        [.popped ['a', '\r'], .connectReturned [['a', '\r']]]) := by
    decide
  have hmem : CmdAction.connectReturned [['a', '\r']] ∈
      [.popped ['a', '\r'], .connectReturned [['a', '\r']]] := by
    simp
  exact ⟨_, _, _, _, hrun, hreturn, hmem,
    connect_returns hrun (by decide) hreturn hmem⟩

end CmdSocket

end NorbitDriver
