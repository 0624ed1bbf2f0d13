import NorbitDriver.Connection.CommandSocket

/-!
# Outstanding operations of the command socket

Reads and writes of the command socket are asynchronous, and nothing in the
code counts them. A read is started for the connection, for every completed
write and for every read that has completed, so their number is one more than
the number of write handlers that have run. A write is started by `sendCmd`,
whose loop ends on the state of the response queue and the clock alone.
-/

namespace NorbitDriver

open Text Transition

namespace CmdSocket

variable {cmd_timeout : ℤ}

theorem readers_listenForCmd (s : CmdSocket) :
    s.listenForCmd.readers = s.readers + 1 := by
  cases h : (find ['\r', '\n'] s.cmd_resp_buffer).isSome with
  | true =>
      simp only [listenForCmd, readers, h, if_true]
      omega
  | false =>
      simp only [listenForCmd, readers, h]
      simp
      omega

/-- A handler that has run is replaced by the read it starts. -/
theorem readers_receiveCmd (s : CmdSocket) :
    s.receiveCmd.readers = s.readers + 1 :=
  readers_listenForCmd _

theorem readers_transfer {s : CmdSocket} (h : 0 < s.waiting) (n : ℕ) :
    (s.transfer n).readers = s.readers := by
  cases hfind : (find ['\r', '\n']
      (s.cmd_resp_buffer ++ s.incoming.take n)).isSome with
  | true =>
      simp only [transfer, readers, hfind, if_true]
      omega
  | false =>
      simp only [transfer, readers, hfind]
      rfl

/-- The reads outstanding once the connection is counted in: one for the
connection and one for every write handler that has run. -/
theorem step_readers {s t : CmdSocket} {e : CmdEvent} {os : List CmdAction}
    (h : (machine cmd_timeout).step s e = some (t, os)) :
    t.readers = s.readers + [e].count .connected + [e].count .writeHandler ∧
      t.connected.toNat = s.connected.toNat + [e].count .connected := by
  cases cmdStep_of_step h with
  | connect => exact ⟨rfl, rfl⟩
  | connected opened new =>
      refine ⟨readers_listenForCmd _, ?_⟩
      rw [new]
      rfl
  | arrive => exact ⟨rfl, rfl⟩
  | transfer n waiting => exact ⟨readers_transfer waiting n, rfl⟩
  | readFails waiting =>
      refine ⟨?_, rfl⟩
      change s.waiting - 1 + s.ready + (s.failed + 1) = s.readers
      rw [readers]
      omega
  | receiveReady ready =>
      refine ⟨(readers_receiveCmd _).trans ?_, rfl⟩
      change s.waiting + (s.ready - 1) + s.failed + 1 = s.readers
      rw [readers]
      omega
  | receiveFailed failed =>
      refine ⟨(readers_receiveCmd _).trans ?_, rfl⟩
      change s.waiting + s.ready + (s.failed - 1) + 1 = s.readers
      rw [readers]
      omega
  | writeFinishes => exact ⟨rfl, rfl⟩
  | writeHandler => exact ⟨readers_listenForCmd _, rfl⟩
  | sendCmd => exact ⟨rfl, rfl⟩
  | refused => exact ⟨rfl, rfl⟩
  | connecting => exact ⟨rfl, rfl⟩
  | connectReturns => exact ⟨rfl, rfl⟩
  | waits => exact ⟨rfl, rfl⟩
  | returns => exact ⟨rfl, rfl⟩

/-- The reads outstanding at the end of a run. -/
theorem run_readers {s t : CmdSocket} {es : List CmdEvent}
    {os : List CmdAction} (h : (machine cmd_timeout).run s es = some (t, os)) :
    t.readers = s.readers + es.count .connected + es.count .writeHandler ∧
      t.connected.toNat = s.connected.toNat + es.count .connected :=
  (machine cmd_timeout).run_record
    (I := fun t es _ =>
      t.readers = s.readers + es.count .connected + es.count .writeHandler ∧
        t.connected.toNat = s.connected.toNat + es.count .connected)
    (fun t fs ps e u o hkept _ hstep => by
      have hnext := step_readers hstep
      rw [List.count_append, List.count_append]
      omega)
    ⟨rfl, rfl⟩ ((machine cmd_timeout).meets_true s es) h

/-- Exactly one read is outstanding in every state after the connection is
established. -/
def OneReader (cmd_timeout : ℤ) (es : List CmdEvent) : Prop :=
  ∀ s, (machine cmd_timeout).Passes closed es s → s.connected = true →
    s.readers = 1

/-- A run keeps one read outstanding exactly when no write handler runs in
it. -/
theorem oneReader_iff {es : List CmdEvent} {t : CmdSocket}
    {os : List CmdAction}
    (hrun : (machine cmd_timeout).run closed es = some (t, os)) :
    OneReader cmd_timeout es ↔
      (.connected ∈ es → .writeHandler ∉ es) := by
  constructor
  · intro h hconnected hhandler
    obtain ⟨hreaders, hflag⟩ := run_readers hrun
    have hone : 0 < es.count .connected := List.count_pos_iff.mpr hconnected
    have htwo : 0 < es.count .writeHandler := List.count_pos_iff.mpr hhandler
    have hset : t.connected = true := by
      apply Bool.toNat_eq_one.mp
      have hle := Bool.toNat_le t.connected
      omega
    have hsingle := h t ⟨es, os, List.prefix_rfl, hrun⟩ hset
    change t.readers = 0 + _ + _ at hreaders
    omega
  · intro h s hs hset
    obtain ⟨fs, ps, hfs, hprefix⟩ := hs
    obtain ⟨hreaders, hflag⟩ := run_readers hprefix
    rw [hset] at hflag
    change 1 = 0 + fs.count .connected at hflag
    have hmem : .connected ∈ fs := by
      apply List.count_pos_iff.mp
      omega
    have hnone : .writeHandler ∉ fs :=
      fun hw => h (hfs.subset hmem) (hfs.subset hw)
    change s.readers = 0 + _ + _ at hreaders
    rw [List.count_eq_zero.mpr hnone] at hreaders
    omega

/-- A command that has been written and answered before the handler of its write
has run. -/
def commandPending : List CmdEvent :=
  [.connect 0, .connected, .iterate 5, .sendCmd ['p'] ['1'] 6,
    .writeFinishes 0, .arrive ['p', '\r', '\n'], .transfer 3,
    .receiveCmd false, .iterate 7]

/-- As long as the handler of the write has not run, one read is
outstanding. -/
theorem commandPending_oneReader :
    ∃ t os, (machine 5).run closed commandPending = some (t, os) ∧
      t.written = 1 ∧
      .returned 0 { success := true, ack := true, resp := ['p', '\r'] } ∈ os ∧
      OneReader 5 commandPending := by
  have hend : ((machine 5).run closed commandPending).any fun p =>
      p.1.written = 1 && p.2.contains (.returned 0
        { success := true, ack := true, resp := ['p', '\r'] }) := by
    decide +kernel
  obtain ⟨⟨t, os⟩, hrun, hp⟩ := (Option.any_eq_true _ _).mp hend
  simp only [Bool.and_eq_true, decide_eq_true_eq, List.contains_iff_mem] at hp
  exact ⟨t, os, hrun, hp.1, hp.2, (oneReader_iff hrun).mpr (by decide)⟩

/-- A connection, and a command whose write completes. -/
def commandWritten : List CmdEvent :=
  [.connect 0, .connected, .iterate 5, .sendCmd ['p'] ['1'] 6,
    .writeFinishes 0, .writeHandler]

/-- Behind the first completed write two reads fill the buffer. -/
theorem commandWritten_not_oneReader :
    ∃ t os, (machine 5).run closed commandWritten = some (t, os) ∧
      t.connected = true ∧ t.readers = 2 ∧ ¬ OneReader 5 commandWritten := by
  have hend : ((machine 5).run closed commandWritten).any fun p =>
      p.1.connected && decide (p.1.readers = 2) := by
    decide +kernel
  obtain ⟨⟨t, os⟩, hrun, hp⟩ := (Option.any_eq_true _ _).mp hend
  simp only [Bool.and_eq_true, decide_eq_true_eq] at hp
  refine ⟨t, os, hrun, hp.1, hp.2, fun h => ?_⟩
  have hone := h t ⟨commandWritten, os, List.prefix_rfl, hrun⟩ hp.1
  rw [hp.2] at hone
  exact absurd hone (by decide)

/-- The pending write is the one of the call that is running. -/
def Tidy (s : CmdSocket) : Prop :=
  s.writing = [] ∨ ∃ c, s.activity = .sendCmd c ∧ s.writing = [c.id]

theorem Tidy.length_le {s : CmdSocket} (h : s.Tidy) :
    s.writing.length ≤ 1 := by
  rcases h with h | ⟨c, -, h⟩
  · rw [h]
    exact Nat.zero_le 1
  · rw [h]
    exact Nat.le_refl 1

end CmdSocket

end NorbitDriver
