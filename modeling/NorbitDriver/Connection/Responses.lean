import NorbitDriver.Connection.Lines

/-!
# Responses and the commands they answer

A sonar that answers every command line it receives with one line, in the order
in which it receives them and after any delay. The exchange of the driver with
such a sonar is a machine of its own: it runs the command socket and lets the
sonar receive the line of a command whose write has been started, and answer the
oldest line it has not answered yet.

`sendCmd` takes any response that contains the key of its command for its own.
It is its own as long as no answer to an earlier command that is still to be
consumed contains the key, and every line is complete when its handler takes it
from the buffer.
-/

namespace NorbitDriver

open Text Transition CmdSocket

/-- The answer of the sonar to a command, without the `"\r\n"` behind it. -/
structure Answer where
  text : List Char
  one_line : '\n' ∉ text

/-- The line that the handler of a read takes from the buffer for an answer. -/
def Answer.line (a : Answer) : List Char :=
  a.text ++ ['\r']

/-- The driver and the sonar: the commands whose write has been started, those
the sonar has received, the number it has answered, and the lines the driver has
consumed. -/
structure Exchange where
  socket : CmdSocket
  written : List ℕ
  received : List ℕ
  answered : ℕ
  consumed : List (List Char)

inductive ExchangeEvent
  | driver (e : CmdEvent)
  | receives (id : ℕ)
  | answers
deriving DecidableEq

namespace Exchange

/-- The commands whose write is started in a list of observations. -/
def writes (os : List CmdAction) : List ℕ :=
  os.filterMap fun
    | .writeStarted id _ => some id
    | _ => none

def start : Exchange where
  socket := closed
  written := []
  received := []
  answered := 0
  consumed := []

/-- The exchange with a sonar that answers the command `id` with `answer id`.
Nothing but its answers arrives at the command socket. -/
def machine (cmd_timeout : ℤ) (answer : ℕ → Answer) :
    Machine Exchange ExchangeEvent CmdAction where
  step x
    | .driver e =>
        if CmdSocket.sent e = [] then
          ((CmdSocket.machine cmd_timeout).step x.socket e).map fun p =>
            ({ x with
                socket := p.1
                written := x.written ++ writes p.2
                consumed := x.consumed ++ popped p.2 }, p.2)
        else none
    | .receives id =>
        if id ∈ x.written ∧ id ∉ x.received then
          some ({ x with received := x.received ++ [id] }, [])
        else none
    | .answers =>
        (x.received[x.answered]?).map fun id =>
          ({ x with
              socket :=
                { x.socket with
                  incoming :=
                    x.socket.incoming ++ ((answer id).line ++ ['\n']) }
              answered := x.answered + 1 }, [])

/-- The lines the sonar has sent. -/
def sentLines (answer : ℕ → Answer) (x : Exchange) : List (List Char) :=
  (x.received.take x.answered).map fun id => (answer id).line

/-- The commands whose answer has been consumed. -/
def settled (x : Exchange) : List ℕ :=
  x.received.take x.consumed.length

/-- The sonar's answer to a command contains the key of the command. -/
def AnswersKey (answer : ℕ → Answer) (x : Exchange) : ExchangeEvent → Prop
  | .driver (.sendCmd cmd _ _) =>
      commandKey cmd <:+: (answer x.socket.calls).text
  | _ => True

/-- The handler of a read finds a complete line, and a call of `sendCmd` starts
when the answer to every earlier command has been consumed or does not contain
its key. -/
def Undisturbed (answer : ℕ → Answer) (x : Exchange) : ExchangeEvent → Prop
  | .driver (.receiveCmd _) => '\n' ∈ x.socket.cmd_resp_buffer
  | .driver (.sendCmd cmd _ _) => ∀ id ∈ x.written, id ∉ x.settled →
      ¬ commandKey cmd <:+: (answer id).line
  | _ => True

instance (answer : ℕ → Answer) (x : Exchange) (e : ExchangeEvent) :
    Decidable (x.AnswersKey answer e) := by
  unfold AnswersKey
  split <;> infer_instance

instance (answer : ℕ → Answer) (x : Exchange) (e : ExchangeEvent) :
    Decidable (x.Undisturbed answer e) := by
  unfold Undisturbed
  split <;> infer_instance

/-- Every successful call returns the answer to its own command. -/
def ResponsesBelong (answer : ℕ → Answer) (os : List CmdAction) : Prop :=
  ∀ id out, .returned id out ∈ os → out.success = true →
    out.resp = (answer id).line

/-- What is known of an undisturbed exchange. -/
structure Accounted (answer : ℕ → Answer) (x : Exchange) : Prop where
  lines : unlines (x.consumed ++ x.socket.cmd_resp_queue) ++ x.socket.text =
    unlines (x.sentLines answer)
  complete : ∀ line ∈ x.consumed ++ x.socket.cmd_resp_queue, '\n' ∉ line
  answered_le : x.answered ≤ x.received.length
  written_lt : ∀ id ∈ x.written, id < x.socket.calls
  received_written : ∀ id ∈ x.received, id ∈ x.written
  received_nodup : x.received.Nodup
  call : ∀ c, x.socket.activity = .sendCmd c → c.out.success = false ∧
    ∀ id ∈ x.written, id ∉ x.settled → id ≠ c.id →
      ¬ c.key <:+: (answer id).line

end Exchange

theorem Answer.not_mem_line (a : Answer) : '\n' ∉ a.line := by
  have ha := a.one_line
  rw [line, List.mem_append, not_or]
  exact ⟨ha, by decide⟩

namespace CmdSocket

variable {cmd_timeout : ℤ}

open Exchange

/-- The commands that a step starts to write: the one of a new call. -/
theorem step_writes {s t : CmdSocket} {e : CmdEvent} {os : List CmdAction}
    (h : (machine cmd_timeout).step s e = some (t, os)) :
    s.calls ≤ t.calls ∧ (writes os = [] ∨
      ∃ cmd val now, e = .sendCmd cmd val now ∧ s.activity = .idle ∧
        writes os = [s.calls] ∧ s.calls < t.calls ∧
        t.activity = .sendCmd
          { id := s.calls
            key := commandKey cmd
            timeout := now + cmd_timeout
            out := { success := false, ack := false, resp := [] } }) := by
  have hpopped : ∀ lines : List (List Char),
      writes (lines.map CmdAction.popped) = [] := by
    intro lines
    simp [writes]
  cases cmdStep_of_step h with
  | sendCmd cmd val now idle opened =>
      exact ⟨Nat.le_succ _, Or.inr ⟨cmd, val, now, rfl, idle, rfl,
        Nat.lt_succ_self _, rfl⟩⟩
  | refused => exact ⟨Nat.le_succ _, Or.inl rfl⟩
  | connecting => exact ⟨Nat.le_refl _, Or.inl (hpopped _)⟩
  | connectReturns =>
      refine ⟨Nat.le_refl _, Or.inl ?_⟩
      rw [writes, List.filterMap_append]
      exact congrArg (· ++ []) (hpopped _)
  | waits => exact ⟨Nat.le_refl _, Or.inl (hpopped _)⟩
  | returns =>
      refine ⟨Nat.le_refl _, Or.inl ?_⟩
      rw [writes, List.filterMap_append]
      exact congrArg (· ++ []) (hpopped _)
  | _ => exact ⟨Nat.le_refl _, Or.inl rfl⟩

/-- A call that is running behind a step that starts none was running before
it, with the same command. -/
theorem step_call {s t : CmdSocket} {e : CmdEvent} {os : List CmdAction}
    (h : (machine cmd_timeout).step s e = some (t, os)) (hw : writes os = [])
    {c' : Call} (hc : t.activity = .sendCmd c') :
    ∃ c, s.activity = .sendCmd c ∧ c'.id = c.id ∧ c'.key = c.key ∧
      (c.out.success = false → c'.out.success = false) := by
  cases cmdStep_of_step h with
  | connect => exact absurd hc Activity.noConfusion
  | sendCmd => exact absurd hw (List.cons_ne_nil _ _)
  | connecting => exact absurd hc Activity.noConfusion
  | connectReturns => exact absurd hc Activity.noConfusion
  | returns => exact absurd hc Activity.noConfusion
  | @waits c d queue now running turn =>
      have hd : d = c' := Activity.sendCmd.inj hc
      subst hd
      exact ⟨c, running, turn.id_eq, turn.key_eq, turn.success_eq.trans⟩
  | _ => exact ⟨c', hc, rfl, rfl, id⟩

/-- A successful call returns the first response in the queue, which contains
its key. -/
theorem step_success {s t : CmdSocket} {e : CmdEvent} {os : List CmdAction}
    (hs : ∀ c, s.activity = .sendCmd c → c.out.success = false)
    (h : (machine cmd_timeout).step s e = some (t, os)) {id : ℕ}
    {out : CmdResp} (hmem : .returned id out ∈ os)
    (hout : out.success = true) :
    ∃ c rest, s.activity = .sendCmd c ∧ id = c.id ∧
      s.cmd_resp_queue = out.resp :: rest ∧ c.key <:+: out.resp := by
  have hpopped := returned_not_mem_popped id out
  cases cmdStep_of_step h with
  | refused =>
      rw [List.mem_singleton, CmdAction.returned.injEq] at hmem
      rw [hmem.2] at hout
      exact absurd hout (by decide)
  | connecting => exact absurd hmem (hpopped _)
  | connectReturns =>
      rw [List.mem_append, List.mem_singleton] at hmem
      rcases hmem with hmem | hmem
      · exact absurd hmem (hpopped _)
      · exact absurd hmem CmdAction.noConfusion
  | waits => exact absurd hmem (hpopped _)
  | @returns c c' queue now running turn =>
      rw [List.mem_append, List.mem_singleton] at hmem
      rcases hmem with hmem | hmem
      · exact absurd hmem (hpopped _)
      · rw [CmdAction.returned.injEq] at hmem
        obtain ⟨hid, hresp⟩ := hmem
        rw [hresp] at hout ⊢
        obtain ⟨hqueue, hfound⟩ := turn.found_of_success (hs c running) hout
        exact ⟨c, queue, running, hid.trans turn.id_eq, hqueue, hfound⟩
  | connect => exact absurd hmem List.not_mem_nil
  | _ => simp at hmem

end CmdSocket

namespace Exchange

variable {cmd_timeout : ℤ} {answer : ℕ → Answer}

theorem start_accounted : Accounted answer start where
  lines := rfl
  complete _ h := absurd h List.not_mem_nil
  answered_le := Nat.le_refl 0
  written_lt _ h := absurd h List.not_mem_nil
  received_written _ h := absurd h List.not_mem_nil
  received_nodup := List.nodup_nil
  call _ h := absurd h Activity.noConfusion

/-- Consuming more lines settles more commands. -/
theorem settled_subset {x y : Exchange} (lines : List (List Char))
    (hreceived : x.received <+: y.received)
    (hconsumed : y.consumed = x.consumed ++ lines) : x.settled ⊆ y.settled := by
  obtain ⟨more, hmore⟩ := hreceived
  rw [settled, settled, ← hmore, hconsumed, List.length_append]
  intro id hid
  rw [List.take_append]
  apply List.mem_append_left
  exact List.take_subset_take_left _ (Nat.le_add_right _ _) hid

/-- A step of the driver. -/
theorem Accounted.driver {x : Exchange} (hx : x.Accounted answer)
    {e : CmdEvent} (he : x.Undisturbed answer (.driver e))
    (hsent : CmdSocket.sent e = []) {t : CmdSocket} {os : List CmdAction}
    (hstep : (CmdSocket.machine cmd_timeout).step x.socket e =
      some (t, os)) :
    Accounted answer
      { x with
        socket := t
        written := x.written ++ writes os
        consumed := x.consumed ++ popped os } := by
  have hterminated : x.socket.Terminated e :=
    fun err herr => by
      subst herr
      exact he
  have hqueue : x.consumed ++ popped os ++ t.cmd_resp_queue =
      x.consumed ++ x.socket.cmd_resp_queue ++ enqueued os := by
    rw [List.append_assoc, step_queue hstep, List.append_assoc]
  have htext := step_text hterminated hstep
  obtain ⟨hcalls, hwrites⟩ := step_writes hstep
  refine ⟨?_, ?_, hx.answered_le, ?_, ?_, hx.received_nodup, ?_⟩
  · change unlines (x.consumed ++ popped os ++ t.cmd_resp_queue) ++ t.text = _
    rw [hqueue, unlines_append, List.append_assoc, htext, hsent,
      List.append_nil]
    exact hx.lines
  · intro line hline
    change line ∈ x.consumed ++ popped os ++ t.cmd_resp_queue at hline
    rw [hqueue] at hline
    rcases List.mem_append.mp hline with hold | hnew
    · exact hx.complete line hold
    · exact step_enqueued hstep line hnew
  · intro id hid
    rcases List.mem_append.mp hid with hold | hnew
    · exact Nat.lt_of_lt_of_le (hx.written_lt id hold) hcalls
    · rcases hwrites with hnone | ⟨_, _, _, _, _, hone, hlt, _⟩
      · rw [hnone] at hnew
        exact absurd hnew List.not_mem_nil
      · rw [hone, List.mem_singleton] at hnew
        rw [hnew]
        exact hlt
  · intro id hid
    exact List.mem_append_left _ (hx.received_written id hid)
  · intro c' hc'
    have hsettled := settled_subset (popped os) (x := x)
      (y := { x with
        socket := t
        written := x.written ++ writes os
        consumed := x.consumed ++ popped os }) List.prefix_rfl rfl
    rcases hwrites with hnone | ⟨cmd, val, now, rfl, hidle, hone, hlt, hcall⟩
    · obtain ⟨c, hc, hid, hkey, hsuccess⟩ := step_call hstep hnone hc'
      obtain ⟨hfalse, hother⟩ := hx.call c hc
      refine ⟨hsuccess hfalse, fun id hmem hopen hne => ?_⟩
      rw [hnone, List.append_nil] at hmem
      rw [hkey]
      exact hother id hmem (fun hin => hopen (hsettled hin)) (hid ▸ hne)
    · have hsame := hcall.symm.trans hc'
      rw [Activity.sendCmd.injEq] at hsame
      rw [← hsame]
      refine ⟨rfl, fun id hmem hopen hne => ?_⟩
      rcases List.mem_append.mp hmem with hold | hnew
      · exact he id hold (fun hin => hopen (hsettled hin))
      · rw [hone, List.mem_singleton] at hnew
        exact absurd hnew hne

/-- The sonar receives the line of a command. -/
theorem Accounted.receives {x : Exchange} (hx : x.Accounted answer) {id : ℕ}
    (hwritten : id ∈ x.written) (hnew : id ∉ x.received) :
    Accounted answer { x with received := x.received ++ [id] } := by
  have hsettled := settled_subset [] (x := x)
    (y := { x with received := x.received ++ [id] })
    (List.prefix_append _ _) (List.append_nil _).symm
  refine ⟨?_, hx.complete, ?_, hx.written_lt, ?_, ?_, ?_⟩
  · rw [sentLines]
    change _ = unlines (((x.received ++ [id]).take x.answered).map _)
    rw [List.take_append_of_le_length hx.answered_le]
    exact hx.lines
  · change x.answered ≤ (x.received ++ [id]).length
    rw [List.length_append]
    exact Nat.le_add_right_of_le hx.answered_le
  · intro j hj
    rcases List.mem_append.mp hj with hold | hlast
    · exact hx.received_written j hold
    · rw [List.mem_singleton.mp hlast]
      exact hwritten
  · have hsingle : [id].Nodup :=
      List.nodup_cons.mpr ⟨List.not_mem_nil, List.nodup_nil⟩
    refine List.nodup_append.mpr ⟨hx.received_nodup, hsingle, ?_⟩
    intro a ha b hb hab
    rw [List.mem_singleton.mp hb] at hab
    exact hnew (hab ▸ ha)
  · intro c hc
    obtain ⟨hfalse, hother⟩ := hx.call c hc
    exact ⟨hfalse, fun j hmem hopen =>
      hother j hmem fun hin => hopen (hsettled hin)⟩

/-- The sonar answers the oldest line it has not answered. -/
theorem Accounted.answers {x : Exchange} (hx : x.Accounted answer) {id : ℕ}
    (hnext : x.received[x.answered]? = some id) :
    Accounted answer
      { x with
        socket :=
          { x.socket with
            incoming := x.socket.incoming ++ ((answer id).line ++ ['\n']) }
        answered := x.answered + 1 } := by
  obtain ⟨hlt, hget⟩ := List.getElem?_eq_some_iff.mp hnext
  refine ⟨?_, hx.complete, hlt, hx.written_lt, hx.received_written,
    hx.received_nodup, hx.call⟩
  have hgrow : (x.received.take (x.answered + 1)).map
      (fun id => (answer id).line) =
        x.sentLines answer ++ [(answer id).line] := by
    rw [List.take_succ_eq_append_getElem hlt, hget, List.map_append]
    rfl
  have hlast : unlines [(answer id).line] = (answer id).line ++ ['\n'] := by
    rw [unlines_cons]
    rfl
  change unlines (x.consumed ++ x.socket.cmd_resp_queue) ++
    (x.socket.cmd_resp_buffer ++ (x.socket.incoming ++ _)) =
      unlines ((x.received.take (x.answered + 1)).map _)
  rw [hgrow, unlines_append _ [_], hlast, ← hx.lines, text,
    List.append_assoc, List.append_assoc]

/-- An element of a list without duplicates does not occur before its
place. -/
theorem not_mem_take_of_getElem? {l : List ℕ} (h : l.Nodup) {k a : ℕ}
    (hk : l[k]? = some a) : a ∉ l.take k := by
  obtain ⟨hlt, hget⟩ := List.getElem?_eq_some_iff.mp hk
  rw [← List.take_append_drop k l, List.drop_eq_getElem_cons hlt, hget] at h
  intro hmem
  exact (List.nodup_append.mp h).2.2 a hmem a List.mem_cons_self rfl

/-- A successful call of an accounted exchange returns its own answer. -/
theorem Accounted.response {x : Exchange} (hx : x.Accounted answer)
    {e : CmdEvent} {t : CmdSocket} {os : List CmdAction}
    (hstep : (CmdSocket.machine cmd_timeout).step x.socket e = some (t, os))
    {id : ℕ} {out : CmdResp} (hmem : .returned id out ∈ os)
    (hout : out.success = true) : out.resp = (answer id).line := by
  obtain ⟨c, rest, hc, rfl, hqueue, hfound⟩ :=
    step_success (fun c hc => (hx.call c hc).1) hstep hmem hout
  have hlines := hx.lines
  have hcomplete := hx.complete
  rw [hqueue] at hlines hcomplete
  have hprefix := prefix_of_unlines hcomplete
    (fun line hline => by
      obtain ⟨j, -, rfl⟩ := List.mem_map.mp hline
      exact (answer j).not_mem_line) hlines
  -- the response is the first line that the driver has not consumed
  have hget : (x.sentLines answer)[x.consumed.length]? = some out.resp := by
    obtain ⟨more, hmore⟩ := hprefix
    rw [← hmore, List.append_assoc, List.getElem?_append_right
      (Nat.le_refl _), Nat.sub_self]
    rfl
  rw [sentLines, List.getElem?_map, Option.map_eq_some_iff] at hget
  obtain ⟨j, hj, hresp⟩ := hget
  have hreceived : x.received[x.consumed.length]? = some j := by
    obtain ⟨hlt, hlast⟩ := List.getElem?_eq_some_iff.mp hj
    rw [List.getElem_take] at hlast
    exact List.getElem?_eq_some_iff.mpr
      ⟨Nat.lt_of_lt_of_le hlt (List.take_sublist _ _).length_le, hlast⟩
  have hopen : j ∉ x.settled :=
    not_mem_take_of_getElem? hx.received_nodup hreceived
  have hwritten := hx.received_written j (List.mem_of_getElem? hreceived)
  rw [← hresp] at hfound ⊢
  by_cases hown : j = c.id
  · rw [hown]
  · exact absurd hfound ((hx.call c hc).2 j hwritten hopen hown)

/-- A step of an undisturbed exchange keeps its accounts, and a call that it
returns from successfully returns its own answer. -/
theorem step_accounted {x y : Exchange} {e : ExchangeEvent}
    {os : List CmdAction} (hx : x.Accounted answer)
    (he : x.Undisturbed answer e)
    (h : (machine cmd_timeout answer).step x e = some (y, os)) :
    y.Accounted answer ∧ ResponsesBelong answer os := by
  cases e with
  | driver e =>
      obtain ⟨hsent, hmap⟩ := Option.ite_none_right_eq_some.mp h
      obtain ⟨p, hstep, heq⟩ := Option.map_eq_some_iff.mp hmap
      obtain ⟨t, ps⟩ := p
      cases heq
      exact ⟨hx.driver he hsent hstep,
        fun id out hmem hout => hx.response hstep hmem hout⟩
  | receives id =>
      obtain ⟨hguard, heq⟩ := Option.ite_none_right_eq_some.mp h
      cases heq
      exact ⟨hx.receives hguard.1 hguard.2,
        fun id out hmem => absurd hmem List.not_mem_nil⟩
  | answers =>
      obtain ⟨id, hnext, heq⟩ := Option.map_eq_some_iff.mp h
      cases heq
      exact ⟨hx.answers hnext,
        fun id out hmem => absurd hmem List.not_mem_nil⟩

/-- In an undisturbed exchange every successful call returns the answer to its
own command. -/
theorem responsesBelong_of_undisturbed {es : List ExchangeEvent}
    {x : Exchange} {os : List CmdAction}
    (hrun : (machine cmd_timeout answer).run start es = some (x, os))
    (hes : (machine cmd_timeout answer).Meets (Undisturbed answer) start es) :
    ResponsesBelong answer os := by
  intro id out hmem
  exact (machine cmd_timeout answer).run_observes (I := Accounted answer)
    (P := fun a => ∀ id out, a = .returned id out → out.success = true →
      out.resp = (answer id).line)
    (fun x e y ps hx he hstep => by
      obtain ⟨hy, hps⟩ := step_accounted hx he hstep
      exact ⟨hy, fun a ha id out haeq hout => hps id out (haeq ▸ ha) hout⟩)
    start_accounted hes hrun _ hmem id out rfl

/-- The answer `p` followed by as many `x` as the number of the command. -/
def numbered (id : ℕ) : Answer where
  text := 'p' :: List.replicate id 'x'
  one_line := by
    rw [List.mem_cons, not_or, List.mem_replicate]
    exact ⟨by decide, fun h => absurd h.2 (by decide)⟩

/-- Two commands with the same key, each answered in time. -/
def answeredInTime : List ExchangeEvent :=
  [.driver (.connect 0), .driver .connected, .driver (.iterate 5),
    .driver (.sendCmd ['p'] ['1'] 6), .receives 0, .answers,
    .driver (.transfer 3), .driver (.receiveCmd false), .driver (.iterate 7),
    .driver (.sendCmd ['p'] ['2'] 8), .receives 1, .answers,
    .driver (.transfer 4), .driver (.receiveCmd false), .driver (.iterate 9)]

/-- A command whose answer comes after its deadline, and its retry. -/
def answeredLate : List ExchangeEvent :=
  [.driver (.connect 0), .driver .connected, .driver (.iterate 5),
    .driver (.sendCmd ['p'] ['1'] 6), .receives 0, .driver (.iterate 12),
    .answers, .driver (.transfer 3), .driver (.receiveCmd false),
    .driver (.sendCmd ['p'] ['1'] 13), .driver (.iterate 14)]

/-- The answers that come in time are returned for their own commands. -/
theorem answeredInTime_responsesBelong :
    ∃ x os, (machine 5 numbered).run start answeredInTime = some (x, os) ∧
      .returned 0 { success := true, ack := true, resp := ['p', '\r'] } ∈ os ∧
      .returned 1 { success := true, ack := true, resp := ['p', 'x', '\r'] } ∈
        os ∧
      ResponsesBelong numbered os := by
  have hend : ((machine 5 numbered).run start answeredInTime).any fun p =>
      p.2.contains (.returned 0
        { success := true, ack := true, resp := ['p', '\r'] }) &&
      p.2.contains (.returned 1
        { success := true, ack := true, resp := ['p', 'x', '\r'] }) := by
    decide +kernel
  obtain ⟨⟨x, os⟩, hrun, hp⟩ := (Option.any_eq_true _ _).mp hend
  simp only [Bool.and_eq_true, List.contains_iff_mem] at hp
  exact ⟨x, os, hrun, hp.1, hp.2,
    responsesBelong_of_undisturbed hrun (by decide +kernel)⟩

/-- The retry of a command returns the late answer to the first attempt. -/
theorem answeredLate_not_responsesBelong :
    ∃ x os, (machine 5 numbered).run start answeredLate = some (x, os) ∧
      (machine 5 numbered).Meets (AnswersKey numbered) start answeredLate ∧
      ¬ ResponsesBelong numbered os := by
  have hend : ((machine 5 numbered).run start answeredLate).any fun p =>
      p.2.contains (.returned 1
        { success := true, ack := true, resp := ['p', '\r'] }) := by
    decide +kernel
  obtain ⟨⟨x, os⟩, hrun, hmem⟩ := (Option.any_eq_true _ _).mp hend
  refine ⟨x, os, hrun, by decide +kernel, fun h => ?_⟩
  exact absurd (h 1 _ (List.contains_iff_mem.mp hmem) rfl) (by decide)

end Exchange

end NorbitDriver
