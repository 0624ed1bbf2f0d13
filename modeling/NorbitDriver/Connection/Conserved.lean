import NorbitDriver.Connection.Lines
import NorbitDriver.Transition.Tally

/-!
# What becomes of the characters of the sonar

Every character that the sonar sends on the command socket stays on its way to
the calls: it has been taken from the response queue in a line, or is in the
queue, in the buffer or in front of the buffer. A handler that finds no line
feed in the buffer takes what there is as a line of its own, and its line has
a line feed that nobody has sent. These are the only characters added: as many
as such handlers have run. So the text that the calls have taken and will take
is the text of the sonar exactly when every handler of a read finds a line feed.
With several reads outstanding this rests on their appending to the buffer in
the order of the characters.
-/

namespace NorbitDriver

open Text Transition

namespace CmdSocket

variable {cmd_timeout : ℤ}

/-- The text of the sonar as the calls see it behind a run. -/
def accounted (t : CmdSocket) (os : List CmdAction) : List Char :=
  unlines (popped os ++ t.cmd_resp_queue) ++ t.text

/-- One if the handler of a read finds no line feed in the buffer. -/
def cut (s : CmdSocket) (e : CmdEvent) : ℕ :=
  if s.Terminated e then 0 else 1

/-- A handler that finds no line feed takes the whole buffer. -/
theorem fed_receiveCmd {s : CmdSocket} (h : '\n' ∉ s.cmd_resp_buffer) :
    Fed 1 s.text (unlines [(getline s.cmd_resp_buffer).1] ++
      ((getline s.cmd_resp_buffer).2 ++ s.incoming)) := by
  have hmiddle := Fed.middle s.cmd_resp_buffer s.incoming
  rw [getline_of_not_mem h, unlines_cons, unlines_nil, List.append_assoc]
  exact hmiddle

theorem cut_eq_zero_iff {s : CmdSocket} {e : CmdEvent} :
    cut s e = 0 ↔ s.Terminated e := by
  by_cases h : s.Terminated e
  · exact iff_of_true (if_pos h) h
  · exact iff_of_false (fun hzero => h (by simpa [cut] using hzero)) h

/-- A step adds what the sonar sends, and a line feed when it cuts a line. -/
theorem step_fed {s t : CmdSocket} {e : CmdEvent} {os : List CmdAction}
    (h : (machine cmd_timeout).step s e = some (t, os)) :
    Fed (cut s e) (s.text ++ sent e) (unlines (enqueued os) ++ t.text) := by
  by_cases he : s.Terminated e
  · rw [step_text he h, cut_eq_zero_iff.mpr he]
    exact Fed.refl _
  · have hhandler : ∃ err, e = .receiveCmd err ∧ '\n' ∉ s.cmd_resp_buffer := by
      by_contra hnone
      refine he fun err herr => ?_
      by_contra hmem
      exact hnone ⟨err, herr, hmem⟩
    obtain ⟨err, rfl, hmem⟩ := hhandler
    have hfed := fed_receiveCmd hmem
    rw [cut, if_neg he]
    change Fed 1 (s.text ++ []) _
    rw [List.append_nil]
    cases cmdStep_of_step h with
    | receiveReady ready => exact hfed
    | receiveFailed failed => exact hfed

theorem run_fed {s t : CmdSocket} {es : List CmdEvent} {os : List CmdAction}
    (h : (machine cmd_timeout).run s es = some (t, os)) :
    Fed ((machine cmd_timeout).tally cut s es) (s.text ++ sentText es)
      (unlines (enqueued os) ++ t.text) :=
  (machine cmd_timeout).run_tally
    (I := fun t es os n =>
      Fed n (s.text ++ sentText es) (unlines (enqueued os) ++ t.text))
    (fun t fs ps n e u o hkept hstep => by
      have hbefore := hkept.append_right (sent e)
      have hbehind := (step_fed hstep).append_left (unlines (enqueued ps))
      rw [List.append_assoc, List.append_assoc] at hbefore
      rw [enqueued_append, unlines_append, List.append_assoc, sentText,
        List.flatMap_append, List.flatMap_singleton, ← sentText]
      exact hbefore.trans hbehind)
    (by
      rw [sentText, List.flatMap_nil, List.append_nil]
      exact Fed.refl _)
    h

theorem accounted_eq {t : CmdSocket} {es : List CmdEvent} {os : List CmdAction}
    (h : (machine cmd_timeout).run closed es = some (t, os)) :
    accounted t os = unlines (enqueued os) ++ t.text := by
  have hqueue := run_queue h
  rw [accounted, hqueue]
  rfl

/-- In every run from a new connection, the text of the sonar has had a line
feed put in for each handler that has cut a line, and it is unchanged exactly
when no handler has. -/
theorem run_accounted {t : CmdSocket} {es : List CmdEvent}
    {os : List CmdAction}
    (h : (machine cmd_timeout).run closed es = some (t, os)) :
    Fed ((machine cmd_timeout).tally cut closed es) (sentText es)
        (accounted t os) ∧
      (accounted t os = sentText es ↔
        (machine cmd_timeout).Meets Terminated closed es) := by
  have hfed := run_fed h
  rw [← accounted_eq h] at hfed
  change Fed _ ([] ++ sentText es) _ at hfed
  rw [List.nil_append] at hfed
  refine ⟨hfed, ?_⟩
  rw [hfed.eq_iff, (machine cmd_timeout).tally_eq_zero_iff h]
  simp only [cut_eq_zero_iff]

/-- A line is received and taken by a command; the next read fails, and its
handler takes the beginning of a line. -/
def cutShort : List CmdEvent :=
  [.connect 0, .connected, .iterate 5, .sendCmd ['p'] ['1'] 6,
    .arrive ['p', '\r', '\n', 'q'], .transfer 4, .receiveCmd false,
    .iterate 7, .readFails, .receiveCmd true]

theorem run_accounted_cutShort :
    ∃ t os, (machine 5).run closed cutShort = some (t, os) ∧
      (machine 5).tally cut closed cutShort = 1 ∧
      Fed ((machine 5).tally cut closed cutShort) (sentText cutShort)
          (accounted t os) ∧
        (accounted t os = sentText cutShort ↔
          (machine 5).Meets Terminated closed cutShort) := by
  have hsome : ((machine 5).run closed cutShort).isSome := by
    decide +kernel
  obtain ⟨⟨t, os⟩, hrun⟩ := Option.isSome_iff_exists.mp hsome
  exact ⟨t, os, hrun, by decide +kernel, run_accounted hrun⟩

end CmdSocket

end NorbitDriver
