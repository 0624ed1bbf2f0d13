import NorbitDriver.Text.Line
import NorbitDriver.Text.Substring
import NorbitDriver.Transition.Machine

/-!
# The command socket

The command socket carries lines in both directions. A read operation
(`async_read_until`) completes when the shared buffer holds a line, and its
handler `receiveCmd` moves one line from the buffer to the response queue and
starts the next read. `sendCmd` starts a write and then turns a loop that lets
the handlers run and takes one response from the queue in each turn, until a
response contains the key of the command or the queue is empty at the deadline.
Every completed write starts a read as well.

The machine lets the handlers run in any order and at any time, also between two
calls, where the timer of the node runs them. What the sonar sends is first
`incoming`, and a read operation moves any number of these characters to the
buffer. That several reads which are outstanding together append to it in the
order of the characters is an assumption about `boost::asio`, which promises it
for one read only. There is at most one blocking call at a time, either of
`connect` or of `sendCmd`. `connect` is called once: the node activates a
connection once and drops it when it is deactivated. A failed connect throws
out of its handler and has no successor state.
-/

namespace NorbitDriver

open Text Transition

/-- Removes the first occurrence of `p` as often as `fuel` allows. -/
def removeSubstrsLoop (p : List Char) : ℕ → List Char → List Char
  | 0, s => s
  | fuel + 1, s =>
      match find p s with
      | none => s
      | some i => removeSubstrsLoop p fuel (erase s i p.length)

/-- `removeSubstrs`; every turn shortens `s`, so `s.length` turns are enough
for a pattern that is not empty. -/
def removeSubstrs (s p : List Char) : List Char :=
  removeSubstrsLoop p s.length s

/-- `CmdResp.msg`. -/
structure CmdResp where
  success : Bool
  ack : Bool
  resp : List Char
deriving DecidableEq

/-- The call of `sendCmd` that is waiting for its response. -/
structure Call where
  id : ℕ
  key : List Char
  timeout : ℤ
  out : CmdResp
deriving DecidableEq

/-- The blocking call that is running. -/
inductive Activity
  | idle
  | connect (responses : List (List Char)) (timeout : ℤ)
  | sendCmd (call : Call)
deriving DecidableEq

/-- The command socket of a `NorbitConnection` with its operations: `waiting`
read operations, read operations that have completed with or without an error
and whose handler has not run, the calls whose write is pending, and completed
writes whose handler has not run. -/
structure CmdSocket where
  is_open : Bool
  connected : Bool
  incoming : List Char
  cmd_resp_buffer : List Char
  waiting : ℕ
  ready : ℕ
  failed : ℕ
  cmd_resp_queue : List (List Char)
  writing : List ℕ
  written : ℕ
  activity : Activity
  calls : ℕ
deriving DecidableEq

inductive CmdEvent
  | connect (now : ℤ)
  | connected
  | arrive (bytes : List Char)
  | transfer (n : ℕ)
  | readFails
  | receiveCmd (err : Bool)
  | writeFinishes (id : ℕ)
  | writeHandler
  | sendCmd (cmd val : List Char) (now : ℤ)
  | iterate (now : ℤ)
deriving DecidableEq

inductive CmdAction
  | readStarted
  | enqueued (line : List Char)
  | popped (line : List Char)
  | connectReturned (responses : List (List Char))
  | writeStarted (id : ℕ) (message : List Char)
  | returned (id : ℕ) (out : CmdResp)
deriving DecidableEq

/-- The key of a command. -/
def commandKey (cmd : List Char) : List Char :=
  removeSubstrs (removeSubstrs cmd ['s', 'e', 't', '_']) [' ']

/-- One turn of the loop of `sendCmd`, after the handlers have run: whether the
loop goes on, the call, and the queue. -/
def Call.iterate (c : Call) (cmd_resp_queue : List (List Char)) (now : ℤ) :
    Bool × Call × List (List Char) :=
  match cmd_resp_queue with
  | line :: rest =>
      if (find c.key line).isSome then
        (false,
          { c with out := { success := true, ack := true, resp := line } },
          rest)
      else (true, { c with out := { c.out with resp := line } }, rest)
  | [] =>
      if c.timeout < now then
        (false, { c with out := { c.out with ack := c.out.resp ≠ [] } }, [])
      else (true, c, [])

namespace CmdSocket

/-- A connection before `connect`. -/
def closed : CmdSocket where
  is_open := false
  connected := false
  incoming := []
  cmd_resp_buffer := []
  waiting := 0
  ready := 0
  failed := 0
  cmd_resp_queue := []
  writing := []
  written := 0
  activity := .idle
  calls := 0

/-- The read operations that are outstanding, their handlers included. -/
def readers (s : CmdSocket) : ℕ :=
  s.waiting + s.ready + s.failed

/-- A read operation completes at once when the buffer holds a line. -/
def listenForCmd (s : CmdSocket) : CmdSocket :=
  let complete := (find ['\r', '\n'] s.cmd_resp_buffer).isSome
  { s with
    waiting := if complete then s.waiting else s.waiting + 1
    ready := if complete then s.ready + 1 else s.ready }

/-- The argument `err` is not used. -/
def receiveCmd (s : CmdSocket) : CmdSocket :=
  { s with
    cmd_resp_buffer := (getline s.cmd_resp_buffer).2
    cmd_resp_queue :=
      s.cmd_resp_queue ++ [(getline s.cmd_resp_buffer).1] }.listenForCmd

/-- A read operation takes `n` characters from the socket, and appends them to
what the reads have taken before, also where two of them are outstanding. -/
def transfer (s : CmdSocket) (n : ℕ) : CmdSocket :=
  let buffer := s.cmd_resp_buffer ++ s.incoming.take n
  let complete := (find ['\r', '\n'] buffer).isSome
  { s with
    incoming := s.incoming.drop n
    cmd_resp_buffer := buffer
    waiting := if complete then s.waiting - 1 else s.waiting
    ready := if complete then s.ready + 1 else s.ready }

/-- `connect` up to its loop. -/
def connect (cmd_timeout : ℤ) (s : CmdSocket) (now : ℤ) : CmdSocket :=
  { s with is_open := true, activity := .connect [] (now + cmd_timeout) }

/-- `sendCmd` up to its loop. -/
def sendCmd (cmd_timeout : ℤ) (s : CmdSocket) (cmd val : List Char)
    (now : ℤ) : CmdSocket × List CmdAction :=
  let out : CmdResp := { success := false, ack := false, resp := [] }
  let message := cmd ++ ' ' :: val ++ ['\n']
  if s.is_open then
    ({ s with
        writing := s.writing ++ [s.calls]
        activity := .sendCmd
          { id := s.calls
            key := commandKey cmd
            timeout := now + cmd_timeout
            out }
        calls := s.calls + 1 },
      [.writeStarted s.calls message])
  else ({ s with calls := s.calls + 1 }, [.returned s.calls out])

/-- One turn of the loop of the call that is running. -/
def iterate (s : CmdSocket) (now : ℤ) :
    Option (CmdSocket × List CmdAction) :=
  match s.activity with
  | .idle => none
  | .connect responses timeout =>
      let responses := responses ++ s.cmd_resp_queue
      let popped := s.cmd_resp_queue.map CmdAction.popped
      if now < timeout then
        some ({ s with
          cmd_resp_queue := []
          activity := .connect responses timeout }, popped)
      else
        some ({ s with cmd_resp_queue := [], activity := .idle },
          popped ++ [.connectReturned responses])
  | .sendCmd c =>
      let (running, c', queue) := c.iterate s.cmd_resp_queue now
      let popped := (s.cmd_resp_queue.take 1).map CmdAction.popped
      if running then
        some ({ s with cmd_resp_queue := queue, activity := .sendCmd c' },
          popped)
      else
        some ({ s with cmd_resp_queue := queue, activity := .idle },
          popped ++ [.returned c'.id c'.out])

/-- The command socket under every order of events. -/
def machine (cmd_timeout : ℤ) : Machine CmdSocket CmdEvent CmdAction where
  step s
    | .connect now =>
        if s.activity = .idle ∧ s.is_open = false then
          some (s.connect cmd_timeout now, [])
        else none
    | .connected =>
        if s.is_open = true ∧ s.connected = false then
          some ({ s with connected := true }.listenForCmd, [.readStarted])
        else none
    | .arrive bytes => some ({ s with incoming := s.incoming ++ bytes }, [])
    | .transfer n =>
        if 0 < s.waiting ∧ 0 < n ∧ n ≤ s.incoming.length then
          some (s.transfer n, [])
        else none
    | .readFails =>
        if 0 < s.waiting then
          some ({ s with
            waiting := s.waiting - 1
            failed := s.failed + 1 }, [])
        else none
    | .receiveCmd false =>
        if 0 < s.ready then
          some ({ s with ready := s.ready - 1 }.receiveCmd,
            [.enqueued (getline s.cmd_resp_buffer).1, .readStarted])
        else none
    | .receiveCmd true =>
        if 0 < s.failed then
          some ({ s with failed := s.failed - 1 }.receiveCmd,
            [.enqueued (getline s.cmd_resp_buffer).1, .readStarted])
        else none
    | .writeFinishes id =>
        if id ∈ s.writing then
          some ({ s with
            writing := s.writing.erase id
            written := s.written + 1 }, [])
        else none
    | .writeHandler =>
        if 0 < s.written then
          some ({ s with written := s.written - 1 }.listenForCmd,
            [.readStarted])
        else none
    | .sendCmd cmd val now =>
        if s.activity = .idle then some (s.sendCmd cmd_timeout cmd val now)
        else none
    | .iterate now => s.iterate now

end CmdSocket

/-- How the loop of `sendCmd` takes a turn: with the first response of the
queue, which contains the key or not, or with an empty queue after or before
the deadline. -/
inductive Call.Turn (c : Call) (now : ℤ) :
    List (List Char) → Bool → Call → List (List Char) → Prop
  | hit {line rest} (found : c.key <:+: line) :
      Turn c now (line :: rest) false
        { c with out := { success := true, ack := true, resp := line } } rest
  | miss {line rest} (other : ¬ c.key <:+: line) :
      Turn c now (line :: rest) true
        { c with out := { c.out with resp := line } } rest
  | expire (late : c.timeout < now) :
      Turn c now [] false
        { c with out := { c.out with ack := c.out.resp ≠ [] } } []
  | wait (early : ¬ c.timeout < now) : Turn c now [] true c []

theorem Call.turn_iterate (c : Call) (queue : List (List Char)) (now : ℤ) :
    c.Turn now queue (c.iterate queue now).1 (c.iterate queue now).2.1
      (c.iterate queue now).2.2 := by
  cases queue with
  | nil =>
      by_cases h : c.timeout < now
      · rw [iterate, if_pos h]
        exact Turn.expire h
      · rw [iterate, if_neg h]
        exact Turn.wait h
  | cons line rest =>
      by_cases h : (find c.key line).isSome
      · rw [iterate, if_pos h]
        exact Turn.hit (find_isSome_iff.mp h)
      · rw [iterate, if_neg h]
        exact Turn.miss fun hfound => h (find_isSome_iff.mpr hfound)

namespace Call

/-- The loop ends in this turn: the next response contains the key, or there
is none and the deadline has passed. -/
def EndsLoop (c : Call) (now : ℤ) : List (List Char) → Prop
  | line :: _ => c.key <:+: line
  | [] => c.timeout < now

theorem Turn.id_eq {c c' : Call} {now : ℤ} {queue rest : List (List Char)}
    {running : Bool} (h : c.Turn now queue running c' rest) : c'.id = c.id := by
  cases h with
  | hit => rfl
  | miss => rfl
  | expire => rfl
  | wait => rfl

theorem Turn.key_eq {c c' : Call} {now : ℤ} {queue rest : List (List Char)}
    {running : Bool} (h : c.Turn now queue running c' rest) :
    c'.key = c.key := by
  cases h with
  | hit => rfl
  | miss => rfl
  | expire => rfl
  | wait => rfl

theorem Turn.success_eq {c c' : Call} {now : ℤ}
    {queue rest : List (List Char)} (h : c.Turn now queue true c' rest) :
    c'.out.success = c.out.success := by
  cases h with
  | miss => rfl
  | wait => rfl

/-- A call that returns with success has found its key in the first response of
the queue. -/
theorem Turn.found_of_success {c c' : Call} {now : ℤ}
    {queue rest : List (List Char)} (h : c.Turn now queue false c' rest)
    (hc : c.out.success = false) (hc' : c'.out.success = true) :
    queue = c'.out.resp :: rest ∧ c.key <:+: c'.out.resp := by
  cases h with
  | hit found => exact ⟨rfl, found⟩
  | expire late =>
      rw [hc] at hc'
      exact absurd hc' (by decide)

theorem Turn.endsLoop_iff {c c' : Call} {now : ℤ}
    {queue rest : List (List Char)} {running : Bool}
    (h : c.Turn now queue running c' rest) :
    c.EndsLoop now queue ↔ running = false := by
  cases h with
  | hit found => exact iff_of_true found rfl
  | miss other => exact iff_of_false other (by decide)
  | expire late => exact iff_of_true late rfl
  | wait early => exact iff_of_false early (by decide)

end Call

/-- What the command socket can do. -/
inductive CmdStep (cmd_timeout : ℤ) (s : CmdSocket) :
    CmdEvent → CmdSocket → List CmdAction → Prop
  | connect (now : ℤ) (idle : s.activity = .idle) (closed : s.is_open = false) :
      CmdStep cmd_timeout s (.connect now) (s.connect cmd_timeout now) []
  | connected (opened : s.is_open = true) (new : s.connected = false) :
      CmdStep cmd_timeout s .connected { s with connected := true }.listenForCmd
        [.readStarted]
  | arrive (bytes : List Char) :
      CmdStep cmd_timeout s (.arrive bytes)
        { s with incoming := s.incoming ++ bytes } []
  | transfer (n : ℕ) (waiting : 0 < s.waiting) (pos : 0 < n)
      (le : n ≤ s.incoming.length) :
      CmdStep cmd_timeout s (.transfer n) (s.transfer n) []
  | readFails (waiting : 0 < s.waiting) :
      CmdStep cmd_timeout s .readFails
        { s with waiting := s.waiting - 1, failed := s.failed + 1 } []
  | receiveReady (ready : 0 < s.ready) :
      CmdStep cmd_timeout s (.receiveCmd false)
        { s with ready := s.ready - 1 }.receiveCmd
        [.enqueued (getline s.cmd_resp_buffer).1, .readStarted]
  | receiveFailed (failed : 0 < s.failed) :
      CmdStep cmd_timeout s (.receiveCmd true)
        { s with failed := s.failed - 1 }.receiveCmd
        [.enqueued (getline s.cmd_resp_buffer).1, .readStarted]
  | writeFinishes (id : ℕ) (pending : id ∈ s.writing) :
      CmdStep cmd_timeout s (.writeFinishes id)
        { s with writing := s.writing.erase id, written := s.written + 1 } []
  | writeHandler (written : 0 < s.written) :
      CmdStep cmd_timeout s .writeHandler
        { s with written := s.written - 1 }.listenForCmd [.readStarted]
  | sendCmd (cmd val : List Char) (now : ℤ) (idle : s.activity = .idle)
      (opened : s.is_open = true) :
      CmdStep cmd_timeout s (.sendCmd cmd val now)
        { s with
          writing := s.writing ++ [s.calls]
          activity := .sendCmd
            { id := s.calls
              key := commandKey cmd
              timeout := now + cmd_timeout
              out := { success := false, ack := false, resp := [] } }
          calls := s.calls + 1 }
        [.writeStarted s.calls (cmd ++ ' ' :: val ++ ['\n'])]
  | refused (cmd val : List Char) (now : ℤ) (idle : s.activity = .idle)
      (closed : s.is_open = false) :
      CmdStep cmd_timeout s (.sendCmd cmd val now)
        { s with calls := s.calls + 1 }
        [.returned s.calls { success := false, ack := false, resp := [] }]
  | connecting {responses : List (List Char)} {timeout now : ℤ}
      (running : s.activity = .connect responses timeout)
      (early : now < timeout) :
      CmdStep cmd_timeout s (.iterate now)
        { s with
          cmd_resp_queue := []
          activity := .connect (responses ++ s.cmd_resp_queue) timeout }
        (s.cmd_resp_queue.map .popped)
  | connectReturns {responses : List (List Char)} {timeout now : ℤ}
      (running : s.activity = .connect responses timeout)
      (late : ¬ now < timeout) :
      CmdStep cmd_timeout s (.iterate now)
        { s with cmd_resp_queue := [], activity := .idle }
        (s.cmd_resp_queue.map .popped ++
          [.connectReturned (responses ++ s.cmd_resp_queue)])
  | waits {c c' : Call} {queue : List (List Char)} {now : ℤ}
      (running : s.activity = .sendCmd c)
      (turn : c.Turn now s.cmd_resp_queue true c' queue) :
      CmdStep cmd_timeout s (.iterate now)
        { s with cmd_resp_queue := queue, activity := .sendCmd c' }
        ((s.cmd_resp_queue.take 1).map .popped)
  | returns {c c' : Call} {queue : List (List Char)} {now : ℤ}
      (running : s.activity = .sendCmd c)
      (turn : c.Turn now s.cmd_resp_queue false c' queue) :
      CmdStep cmd_timeout s (.iterate now)
        { s with cmd_resp_queue := queue, activity := .idle }
        ((s.cmd_resp_queue.take 1).map .popped ++ [.returned c'.id c'.out])

namespace CmdSocket

theorem returned_not_mem_popped (id : ℕ) (out : CmdResp)
    (lines : List (List Char)) :
    .returned id out ∉ lines.map CmdAction.popped := by
  simp

theorem cmdStep_of_iterate (cmd_timeout : ℤ) {s t : CmdSocket} {now : ℤ}
    {os : List CmdAction} (h : s.iterate now = some (t, os)) :
    CmdStep cmd_timeout s (.iterate now) t os := by
  cases hactivity : s.activity with
  | idle =>
      rw [iterate, hactivity] at h
      exact absurd h (by simp)
  | connect responses timeout =>
      rw [iterate, hactivity] at h
      dsimp only at h
      by_cases hearly : now < timeout
      · rw [if_pos hearly] at h
        cases h
        exact CmdStep.connecting hactivity hearly
      · rw [if_neg hearly] at h
        cases h
        exact CmdStep.connectReturns hactivity hearly
  | sendCmd c =>
      have hturn := c.turn_iterate s.cmd_resp_queue now
      rw [iterate, hactivity] at h
      cases hrunning : (c.iterate s.cmd_resp_queue now).1 with
      | true =>
          rw [hrunning] at hturn
          simp only [hrunning, if_true] at h
          cases h
          exact CmdStep.waits hactivity hturn
      | false =>
          rw [hrunning] at hturn
          simp only [hrunning] at h
          cases h
          exact CmdStep.returns hactivity hturn

/-- Every step of the machine is one of these. -/
theorem cmdStep_of_step {cmd_timeout : ℤ} {s t : CmdSocket} {e : CmdEvent}
    {os : List CmdAction}
    (h : (machine cmd_timeout).step s e = some (t, os)) :
    CmdStep cmd_timeout s e t os := by
  cases e with
  | connect now =>
      obtain ⟨hguard, heq⟩ := Option.ite_none_right_eq_some.mp h
      cases heq
      exact CmdStep.connect now hguard.1 hguard.2
  | connected =>
      obtain ⟨hguard, heq⟩ := Option.ite_none_right_eq_some.mp h
      cases heq
      exact CmdStep.connected hguard.1 hguard.2
  | arrive bytes =>
      cases h
      exact CmdStep.arrive bytes
  | transfer n =>
      obtain ⟨hguard, heq⟩ := Option.ite_none_right_eq_some.mp h
      cases heq
      exact CmdStep.transfer n hguard.1 hguard.2.1 hguard.2.2
  | readFails =>
      obtain ⟨hguard, heq⟩ := Option.ite_none_right_eq_some.mp h
      cases heq
      exact CmdStep.readFails hguard
  | receiveCmd err =>
      cases err with
      | false =>
          obtain ⟨hguard, heq⟩ := Option.ite_none_right_eq_some.mp h
          cases heq
          exact CmdStep.receiveReady hguard
      | true =>
          obtain ⟨hguard, heq⟩ := Option.ite_none_right_eq_some.mp h
          cases heq
          exact CmdStep.receiveFailed hguard
  | writeFinishes id =>
      obtain ⟨hguard, heq⟩ := Option.ite_none_right_eq_some.mp h
      cases heq
      exact CmdStep.writeFinishes id hguard
  | writeHandler =>
      obtain ⟨hguard, heq⟩ := Option.ite_none_right_eq_some.mp h
      cases heq
      exact CmdStep.writeHandler hguard
  | sendCmd cmd val now =>
      obtain ⟨hguard, heq⟩ := Option.ite_none_right_eq_some.mp h
      have hpair := Option.some.inj heq
      cases hopen : s.is_open with
      | true =>
          rw [sendCmd, if_pos hopen] at hpair
          cases hpair
          exact CmdStep.sendCmd cmd val now hguard hopen
      | false =>
          have hnot : ¬ s.is_open = true := by
            rw [hopen]
            exact Bool.false_ne_true
          rw [sendCmd, if_neg hnot] at hpair
          cases hpair
          exact CmdStep.refused cmd val now hguard hopen
  | iterate now => exact cmdStep_of_iterate cmd_timeout h

end CmdSocket

end NorbitDriver
