import NorbitDriver.Connection.CommandSocket

/-!
# Lines on the command socket

Two conservation laws of the command socket. The response queue loses nothing
and invents nothing: what is taken from it and what it holds is what has been
put in, in this order. And as long as every handler of a read finds a line feed
in the buffer, what has been put in are the first lines of the characters the
sonar has sent, and the others are still in the buffer or on the way to it.
-/

namespace NorbitDriver

open Text Transition

namespace CmdSocket

variable {cmd_timeout : ℤ}

/-- The lines put into the response queue. -/
def enqueued (os : List CmdAction) : List (List Char) :=
  os.filterMap fun
    | .enqueued line => some line
    | _ => none

/-- The lines taken from the response queue. -/
def popped (os : List CmdAction) : List (List Char) :=
  os.filterMap fun
    | .popped line => some line
    | _ => none

/-- The characters the sonar sends in an event. -/
def sent : CmdEvent → List Char
  | .arrive bytes => bytes
  | _ => []

/-- The characters that have not been put into the queue. -/
def text (s : CmdSocket) : List Char :=
  s.cmd_resp_buffer ++ s.incoming

/-- The handler of a read runs only on a buffer with a line feed. -/
def Terminated (s : CmdSocket) (e : CmdEvent) : Prop :=
  ∀ err, e = .receiveCmd err → '\n' ∈ s.cmd_resp_buffer

instance (s : CmdSocket) (e : CmdEvent) : Decidable (s.Terminated e) :=
  inferInstanceAs (Decidable (∀ _ : Bool, _ → _))

theorem enqueued_append (os os' : List CmdAction) :
    enqueued (os ++ os') = enqueued os ++ enqueued os' :=
  List.filterMap_append

theorem popped_append (os os' : List CmdAction) :
    popped (os ++ os') = popped os ++ popped os' :=
  List.filterMap_append

@[simp] theorem popped_map_popped (lines : List (List Char)) :
    popped (lines.map CmdAction.popped) = lines := by
  simp [popped]

@[simp] theorem enqueued_map_popped (lines : List (List Char)) :
    enqueued (lines.map CmdAction.popped) = [] := by
  simp [enqueued]

theorem mem_enqueued {line : List Char} {os : List CmdAction} :
    line ∈ enqueued os ↔ .enqueued line ∈ os := by
  rw [enqueued, List.mem_filterMap]
  constructor
  · intro h
    obtain ⟨a, ha, hline⟩ := h
    cases a with
    | enqueued l =>
        rw [← Option.some.inj hline]
        exact ha
    | _ => exact absurd hline (by simp)
  · intro h
    exact ⟨_, h, rfl⟩

/-- A turn of the loop takes the response it looks at from the queue. -/
theorem take_append_of_turn {c c' : Call} {now : ℤ} {running : Bool}
    {queue rest : List (List Char)} (h : c.Turn now queue running c' rest) :
    queue.take 1 ++ rest = queue := by
  cases h with
  | hit => rfl
  | miss => rfl
  | expire => rfl
  | wait => rfl

/-- The queue holds what has been put in and not been taken out. -/
theorem step_queue {s t : CmdSocket} {e : CmdEvent} {os : List CmdAction}
    (h : (machine cmd_timeout).step s e = some (t, os)) :
    popped os ++ t.cmd_resp_queue = s.cmd_resp_queue ++ enqueued os := by
  cases cmdStep_of_step h with
  | connect => exact (List.append_nil _).symm
  | connected => exact (List.append_nil _).symm
  | arrive => exact (List.append_nil _).symm
  | transfer => exact (List.append_nil _).symm
  | readFails => exact (List.append_nil _).symm
  | receiveReady => rfl
  | receiveFailed => rfl
  | writeFinishes => exact (List.append_nil _).symm
  | writeHandler => exact (List.append_nil _).symm
  | sendCmd => exact (List.append_nil _).symm
  | refused => exact (List.append_nil _).symm
  | connecting => simp
  | connectReturns => simp [popped, enqueued]
  | waits running turn =>
      rw [popped_map_popped, enqueued_map_popped, List.append_nil]
      exact take_append_of_turn turn
  | returns running turn =>
      rw [popped_append, enqueued_append, popped_map_popped,
        enqueued_map_popped]
      change _ ++ [] ++ _ = _ ++ ([] ++ [])
      rw [List.append_nil, List.append_nil, List.append_nil]
      exact take_append_of_turn turn

/-- The handler of a read takes its line off the buffer. -/
theorem unlines_receiveCmd {s : CmdSocket} (h : '\n' ∈ s.cmd_resp_buffer) :
    unlines [(getline s.cmd_resp_buffer).1] ++
      ((getline s.cmd_resp_buffer).2 ++ s.incoming) = s.text := by
  have hline := append_getline h
  rw [unlines_cons, unlines_nil, List.append_assoc, List.cons_append,
    List.nil_append, ← List.cons_append, ← List.append_assoc, hline]
  rfl

/-- No character of the sonar is lost or invented. -/
theorem step_text {s t : CmdSocket} {e : CmdEvent} {os : List CmdAction}
    (he : s.Terminated e)
    (h : (machine cmd_timeout).step s e = some (t, os)) :
    unlines (enqueued os) ++ t.text = s.text ++ sent e := by
  cases cmdStep_of_step h with
  | connect => exact (List.append_nil _).symm
  | connected => exact (List.append_nil _).symm
  | arrive bytes =>
      change s.cmd_resp_buffer ++ (s.incoming ++ bytes) =
        s.cmd_resp_buffer ++ s.incoming ++ bytes
      rw [List.append_assoc]
  | transfer n waiting pos le =>
      change s.cmd_resp_buffer ++ s.incoming.take n ++ s.incoming.drop n =
        s.text ++ []
      rw [List.append_assoc, List.take_append_drop, List.append_nil]
      rfl
  | readFails => exact (List.append_nil _).symm
  | receiveReady =>
      exact (unlines_receiveCmd (he false rfl)).trans (List.append_nil _).symm
  | receiveFailed =>
      exact (unlines_receiveCmd (he true rfl)).trans (List.append_nil _).symm
  | writeFinishes => exact (List.append_nil _).symm
  | writeHandler => exact (List.append_nil _).symm
  | sendCmd => exact (List.append_nil _).symm
  | refused => exact (List.append_nil _).symm
  | connecting =>
      rw [enqueued_map_popped]
      exact (List.append_nil _).symm
  | connectReturns =>
      rw [enqueued_append, enqueued_map_popped]
      exact (List.append_nil _).symm
  | waits =>
      rw [enqueued_map_popped]
      exact (List.append_nil _).symm
  | returns =>
      rw [enqueued_append, enqueued_map_popped]
      exact (List.append_nil _).symm

/-- A line that is put into the queue holds no line feed. -/
theorem step_enqueued {s t : CmdSocket} {e : CmdEvent} {os : List CmdAction}
    (h : (machine cmd_timeout).step s e = some (t, os)) :
    ∀ line ∈ enqueued os, '\n' ∉ line := by
  have hline := getline_fst_not_mem s.cmd_resp_buffer
  have hnone : ∀ lines : List (List Char), ∀ a,
      ∀ line ∈ enqueued (lines.map CmdAction.popped ++ [a]),
        .enqueued line = a := by
    intro lines a line hmem
    rw [mem_enqueued, List.mem_append, List.mem_singleton] at hmem
    rcases hmem with hmem | hmem
    · rw [← mem_enqueued, enqueued_map_popped] at hmem
      exact absurd hmem List.not_mem_nil
    · exact hmem
  cases cmdStep_of_step h with
  | receiveReady => simpa [enqueued] using hline
  | receiveFailed => simpa [enqueued] using hline
  | connecting => simp
  | connectReturns =>
      intro line hmem
      exact absurd (hnone _ _ line hmem) (by simp)
  | waits =>
      rw [enqueued_map_popped]
      simp
  | returns =>
      intro line hmem
      exact absurd (hnone _ _ line hmem) (by simp)
  | _ => simp [enqueued]

/-- The characters the sonar sends in a run. -/
def sentText (es : List CmdEvent) : List Char :=
  es.flatMap sent

/-- What has been put into the queue in a run are the first lines of the
characters sent, and the others have not been put into it. -/
theorem run_text {s t : CmdSocket} {es : List CmdEvent} {os : List CmdAction}
    (hes : (machine cmd_timeout).Meets Terminated s es)
    (hrun : (machine cmd_timeout).run s es = some (t, os)) :
    unlines (enqueued os) ++ t.text = s.text ++ sentText es :=
  (machine cmd_timeout).run_record
    (I := fun t es os =>
      unlines (enqueued os) ++ t.text = s.text ++ sentText es)
    (fun t fs ps e u o hkept hC hstep => by
      rw [enqueued_append, unlines_append, List.append_assoc,
        step_text hC hstep, ← List.append_assoc, hkept, List.append_assoc,
        sentText, sentText, List.flatMap_append, List.flatMap_singleton])
    (List.append_nil _).symm hes hrun

/-- The queue at the end of a run holds what has been put in and not been taken
out, in this order. -/
theorem run_queue {s t : CmdSocket} {es : List CmdEvent} {os : List CmdAction}
    (hrun : (machine cmd_timeout).run s es = some (t, os)) :
    popped os ++ t.cmd_resp_queue = s.cmd_resp_queue ++ enqueued os :=
  (machine cmd_timeout).run_history
    (I := fun t os =>
      popped os ++ t.cmd_resp_queue = s.cmd_resp_queue ++ enqueued os)
    (fun t ps e u o hkept hstep => by
      rw [popped_append, enqueued_append, List.append_assoc, step_queue hstep,
        ← List.append_assoc, hkept, List.append_assoc])
    (List.append_nil _).symm hrun

/-- A line that is put into the queue in a run holds no line feed. -/
theorem run_enqueued {s t : CmdSocket} {es : List CmdEvent}
    {os : List CmdAction}
    (hrun : (machine cmd_timeout).run s es = some (t, os)) :
    ∀ line ∈ enqueued os, '\n' ∉ line := by
  intro line hline
  exact (machine cmd_timeout).run_observes (I := fun _ => True)
    (P := fun a => ∀ l, a = .enqueued l → '\n' ∉ l)
    (fun s e t o _ _ hstep => ⟨trivial, fun a ha l hl =>
      step_enqueued hstep l (mem_enqueued.mpr (hl ▸ ha))⟩)
    trivial ((machine cmd_timeout).meets_true s es) hrun _
    (mem_enqueued.mp hline) line rfl

end CmdSocket

end NorbitDriver
