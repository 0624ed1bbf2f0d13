import NorbitDriver.Connection.SendCmd
import NorbitDriver.Containers.Backlog

/-!
# The command timeout

The loop of `sendCmd` looks at the clock only when the queue is empty after a
spin, and takes one line from the queue in each turn. It ends exactly when a
line with its key arrives at some time, or when in some turn behind the deadline
the loop has caught up with the lines that have arrived. Lines of any content
that arrive as fast as the loop turns keep it running for ever.
-/

namespace NorbitDriver

open Text Containers Transition

namespace Call

/-- The first `n` turns of an endless sequence. -/
def turns (spins : ℕ → Spin) (n : ℕ) : List Spin :=
  (List.range n).map spins

/-- The loop ends after finitely many turns. -/
def Ends (c : Call) (queue : List (List Char)) (spins : ℕ → Spin) : Prop :=
  ∃ n, (c.loop queue (turns spins n)).isSome

/-- The clock passes the deadline and stays past it. -/
def StaysPast (c : Call) (spins : ℕ → Spin) : Prop :=
  ∃ n, ∀ k, n ≤ k → c.timeout < (spins k).now

/-- A clock past the deadline ends the loop. -/
def TimeoutEffective (c : Call) (queue : List (List Char))
    (spins : ℕ → Spin) : Prop :=
  c.StaysPast spins → c.Ends queue spins

/-- A line with the key is in the queue or arrives at some time. -/
def Answered (c : Call) (queue : List (List Char)) (spins : ℕ → Spin) : Prop :=
  ∃ line, (line ∈ queue ∨ ∃ k, line ∈ (spins k).lines) ∧ c.key <:+: line

/-- The number of lines that arrive in each turn. -/
def arrivals (spins : ℕ → Spin) (k : ℕ) : ℕ :=
  (spins k).lines.length

/-- In turn `k` the loop has caught up: counted from the start or from any later
turn, no more lines have arrived than turns in front of `k` could take. -/
def CaughtUp (queue : List (List Char)) (spins : ℕ → Spin) (k : ℕ) : Prop :=
  queue.length + arrived (arrivals spins) 0 k ≤ k ∧
    ∀ j, j ≤ k → arrived (arrivals spins) j k ≤ k - j

theorem turns_succ (spins : ℕ → Spin) (n : ℕ) :
    turns spins (n + 1) = spins 0 :: turns (fun k => spins (k + 1)) n := by
  rw [turns, List.range_succ_eq_map, List.map_cons, List.map_map]
  rfl

/-- A loop that ends in its first turn. -/
theorem ends_of_ended {c c' : Call} {queue rest : List (List Char)}
    {spins : ℕ → Spin}
    (h : c.iterate (queue ++ (spins 0).lines) (spins 0).now =
      (false, c', rest)) : c.Ends queue spins := by
  refine ⟨1, ?_⟩
  rw [turns_succ, loop_of_ended _ h]
  rfl

/-- A loop that goes on ends when it ends from its second turn. -/
theorem ends_iff_of_running {c c' : Call} {queue rest : List (List Char)}
    {spins : ℕ → Spin}
    (h : c.iterate (queue ++ (spins 0).lines) (spins 0).now =
      (true, c', rest)) :
    c.Ends queue spins ↔ c'.Ends rest fun k => spins (k + 1) := by
  constructor
  · rintro ⟨n, hn⟩
    cases n with
    | zero => exact absurd hn (by simp [turns, loop])
    | succ n =>
        rw [turns_succ, loop_of_running _ h, Option.isSome_map] at hn
        exact ⟨n, hn⟩
  · rintro ⟨n, hn⟩
    refine ⟨n + 1, ?_⟩
    rw [turns_succ, loop_of_running _ h, Option.isSome_map]
    exact hn

theorem Turn.timeout_eq {c c' : Call} {now : ℤ}
    {queue rest : List (List Char)} {running : Bool}
    (h : c.Turn now queue running c' rest) : c'.timeout = c.timeout := by
  cases h with
  | hit => rfl
  | miss => rfl
  | expire => rfl
  | wait => rfl

/-- Every turn takes one line from a queue that is not empty. -/
theorem Turn.rest_eq_tail {c c' : Call} {now : ℤ}
    {queue rest : List (List Char)} {running : Bool}
    (h : c.Turn now queue running c' rest) : rest = queue.tail := by
  cases h with
  | hit => rfl
  | miss => rfl
  | expire => rfl
  | wait => rfl

/-- The loop ends in its first turn, or it goes on with the tail of the
queue. -/
theorem ends_or_goes_on (c : Call) (queue : List (List Char))
    (spins : ℕ → Spin) :
    (c.EndsLoop (spins 0).now (queue ++ (spins 0).lines) ∧
        c.Ends queue spins) ∨
      ∃ c' : Call, ¬ c.EndsLoop (spins 0).now (queue ++ (spins 0).lines) ∧
        c'.key = c.key ∧ c'.timeout = c.timeout ∧
        (c.Ends queue spins ↔
          c'.Ends (queue ++ (spins 0).lines).tail fun k => spins (k + 1)) := by
  have hturn := c.turn_iterate (queue ++ (spins 0).lines) (spins 0).now
  generalize hiterate : c.iterate (queue ++ (spins 0).lines) (spins 0).now = p
    at hturn
  obtain ⟨running, c', rest⟩ := p
  cases running with
  | false => exact Or.inl ⟨hturn.endsLoop_iff.mpr rfl, ends_of_ended hiterate⟩
  | true =>
      refine Or.inr ⟨c', fun h => ?_, hturn.key_eq, hturn.timeout_eq, ?_⟩
      · exact absurd (hturn.endsLoop_iff.mp h) (by simp)
      · rw [← hturn.rest_eq_tail]
        exact ends_iff_of_running hiterate

/-- A line with the key that is in the queue is reached. -/
theorem ends_of_mem {c : Call} {queue : List (List Char)} {spins : ℕ → Spin}
    {line : List Char} (hkey : c.key <:+: line)
    (hline : line ∈ queue ++ (spins 0).lines) : c.Ends queue spins := by
  obtain ⟨front, back, hsplit⟩ := List.append_of_mem hline
  clear hline
  induction front generalizing c queue spins back with
  | nil =>
      rcases c.ends_or_goes_on queue spins with ⟨-, hends⟩ | ⟨c', hnot, -⟩
      · exact hends
      · rw [hsplit] at hnot
        exact absurd hkey hnot
  | cons l front ih =>
      rcases c.ends_or_goes_on queue spins with
        ⟨-, hends⟩ | ⟨c', -, hc, -, hiff⟩
      · exact hends
      · rw [hiff, hsplit]
        apply ih (hc ▸ hkey) (back ++ (spins 1).lines)
        rw [List.cons_append, List.tail_cons, List.append_assoc,
          List.cons_append]

/-- So is one that arrives at some time. -/
theorem ends_of_answered {c : Call} {queue : List (List Char)}
    {spins : ℕ → Spin} (h : c.Answered queue spins) : c.Ends queue spins := by
  obtain ⟨line, hqueue | ⟨k, hk⟩, hkey⟩ := h
  · exact ends_of_mem hkey (List.mem_append_left _ hqueue)
  · induction k generalizing c queue spins with
    | zero => exact ends_of_mem hkey (List.mem_append_right _ hk)
    | succ k ih =>
        rcases c.ends_or_goes_on queue spins with
          ⟨-, hends⟩ | ⟨c', -, hc, -, hiff⟩
        · exact hends
        · rw [hiff]
          exact ih (hc ▸ hkey) hk

/-- A queue that is empty behind the deadline ends the loop. -/
theorem ends_of_backlog {c : Call} {queue : List (List Char)}
    {spins : ℕ → Spin} {k : ℕ}
    (h : backlog queue.length (arrivals spins) k + arrivals spins k = 0)
    (hlate : c.timeout < (spins k).now) : c.Ends queue spins := by
  induction k generalizing c queue spins with
  | zero =>
      have hempty : queue ++ (spins 0).lines = [] := by
        rw [← List.length_eq_zero_iff, List.length_append]
        exact h
      rcases c.ends_or_goes_on queue spins with ⟨-, hends⟩ | ⟨c', hnot, -⟩
      · exact hends
      · rw [hempty] at hnot
        exact absurd hlate hnot
  | succ k ih =>
      rcases c.ends_or_goes_on queue spins with
        ⟨-, hends⟩ | ⟨c', -, -, htimeout, hiff⟩
      · exact hends
      · rw [hiff]
        apply ih _ (htimeout ▸ hlate)
        rw [List.length_tail, List.length_append]
        rw [backlog_succ_left] at h
        exact h

/-- These are the only ways in which the loop ends. -/
theorem answered_or_backlog_of_ends {c : Call} {queue : List (List Char)}
    {spins : ℕ → Spin} (h : c.Ends queue spins) :
    c.Answered queue spins ∨
      ∃ k, backlog queue.length (arrivals spins) k + arrivals spins k = 0 ∧
        c.timeout < (spins k).now := by
  obtain ⟨n, hn⟩ := h
  induction n generalizing c queue spins with
  | zero => exact absurd hn (by simp [turns, loop])
  | succ n ih =>
      have hmem : ∀ l ∈ queue ++ (spins 0).lines,
          l ∈ queue ∨ ∃ k, l ∈ (spins k).lines := by
        intro l hl
        exact (List.mem_append.mp hl).imp_right fun h => ⟨0, h⟩
      have hturn := c.turn_iterate (queue ++ (spins 0).lines) (spins 0).now
      generalize hiterate :
        c.iterate (queue ++ (spins 0).lines) (spins 0).now = p at hturn
      obtain ⟨running, c', rest⟩ := p
      dsimp only at hturn
      cases running with
      | false =>
          have hends := hturn.endsLoop_iff.mpr rfl
          cases hqueue : queue ++ (spins 0).lines with
          | nil =>
              rw [hqueue] at hends
              refine Or.inr ⟨0, ?_, hends⟩
              rw [backlog_zero]
              rw [← List.length_eq_zero_iff, List.length_append] at hqueue
              exact hqueue
          | cons l ls =>
              rw [hqueue] at hends
              exact Or.inl ⟨l, hmem l (hqueue ▸ List.mem_cons_self), hends⟩
      | true =>
          rw [turns_succ, loop_of_running _ hiterate, Option.isSome_map] at hn
          rw [hturn.rest_eq_tail] at hn
          rcases ih hn with ⟨l, hl, hkey⟩ | ⟨k, hk, hlate⟩
          · refine Or.inl ⟨l, ?_, hturn.key_eq ▸ hkey⟩
            rcases hl with hl | ⟨k, hl⟩
            · exact hmem l (List.mem_of_mem_tail hl)
            · exact Or.inr ⟨k + 1, hl⟩
          · refine Or.inr ⟨k + 1, ?_, hturn.timeout_eq ▸ hlate⟩
            rw [List.length_tail, List.length_append] at hk
            rw [backlog_succ_left]
            exact hk

/-- When the loop of a call ends. -/
theorem ends_iff (c : Call) (queue : List (List Char)) (spins : ℕ → Spin) :
    c.Ends queue spins ↔ c.Answered queue spins ∨
      ∃ k, CaughtUp queue spins k ∧ c.timeout < (spins k).now := by
  have hiff : ∀ k, CaughtUp queue spins k ↔
      backlog queue.length (arrivals spins) k + arrivals spins k = 0 :=
    fun k => (backlog_add_eq_zero_iff _ _ k).symm
  simp only [hiff]
  constructor
  · exact answered_or_backlog_of_ends
  · rintro (h | ⟨k, hk, hlate⟩)
    · exact ends_of_answered h
    · exact ends_of_backlog hk hlate

/-- The timeout of a command is effective for exactly the arrivals that bring
its key or let the loop catch up behind the deadline. -/
theorem timeoutEffective_iff (cmd_timeout : ℤ) (id : ℕ) (cmd : List Char)
    (now : ℤ) (queue : List (List Char)) (spins : ℕ → Spin) :
    (start cmd_timeout id cmd now).TimeoutEffective queue spins ↔
      ((start cmd_timeout id cmd now).StaysPast spins →
        (start cmd_timeout id cmd now).Answered queue spins ∨
          ∃ k, CaughtUp queue spins k ∧ now + cmd_timeout < (spins k).now) :=
  imp_congr_right fun _ => ends_iff _ queue spins

/-- Empty lines, one in each spin, as they come from a socket whose peer has
closed it, and a clock that goes on. -/
def emptyLines (k : ℕ) : Spin where
  lines := [[]]
  now := k

/-- They keep the loop running for ever. -/
theorem emptyLines_not_timeoutEffective :
    ¬ (start 5 0 ['p'] 0).TimeoutEffective [] emptyLines := by
  intro h
  have hpast : (start 5 0 ['p'] 0).StaysPast emptyLines := by
    refine ⟨6, fun k hk => ?_⟩
    change (5 : ℤ) < (k : ℤ)
    omega
  rcases (ends_iff _ _ _).mp (h hpast) with
    ⟨line, hline, hkey⟩ | ⟨k, ⟨-, hall⟩, -⟩
  · have hempty : line = [] := by
      rcases hline with hline | ⟨k, hline⟩
      · exact absurd hline List.not_mem_nil
      · exact List.mem_singleton.mp hline
    rw [hempty] at hkey
    exact absurd (List.infix_nil.mp hkey) (by decide)
  · have hlast := hall k (Nat.le_refl k)
    rw [arrived_self, Nat.sub_self] at hlast
    exact absurd hlast (Nat.not_succ_le_zero 0)

end Call

namespace CmdSocket

/-- A read fails, its handler runs, and the loop takes a turn. -/
def failedTurn (now : ℤ) : List CmdEvent :=
  [.readFails, .receiveCmd true, .iterate now]

/-- A call with a key is waiting on a socket from which nothing has been
read. -/
structure Starved (s : CmdSocket) : Prop where
  call : ∃ c, s.activity = .sendCmd c ∧ c.key ≠ []
  queue : s.cmd_resp_queue = []
  buffer : s.cmd_resp_buffer = []
  waiting : 0 < s.waiting

/-- A read that fails on an empty buffer puts an empty line into the queue, and
its handler starts the next read. -/
theorem run_readFails {s : CmdSocket} (hbuffer : s.cmd_resp_buffer = [])
    (hwaiting : 0 < s.waiting) (cmd_timeout : ℤ) :
    (machine cmd_timeout).run s [.readFails, .receiveCmd true] =
      some ({ s with cmd_resp_queue := s.cmd_resp_queue ++ [[]] },
        [.enqueued [], .readStarted]) := by
  have hfind : find ['\r', '\n'] [] = none := by decide
  have hcount : s.waiting - 1 + 1 = s.waiting := Nat.sub_add_cancel hwaiting
  simp [Machine.run, machine, receiveCmd, listenForCmd, getline, hbuffer,
    hwaiting, hfind, hcount]

/-- The loop passes over an empty line. -/
theorem run_iterate {s : CmdSocket} {c : Call}
    (hc : s.activity = .sendCmd c) (hkey : c.key ≠ [])
    (hqueue : s.cmd_resp_queue = [[]]) (cmd_timeout now : ℤ) :
    (machine cmd_timeout).run s [.iterate now] =
      some ({ s with
        cmd_resp_queue := []
        activity := .sendCmd { c with out := { c.out with resp := [] } } },
        [.popped []]) := by
  have hmiss : c.iterate [[]] now =
      (true, { c with out := { c.out with resp := [] } }, []) :=
    (Call.Turn.miss fun hin => hkey (List.infix_nil.mp hin)).iterate_eq
  rw [Machine.run_singleton]
  change s.iterate now = _
  rw [iterate, hc]
  dsimp only
  rw [hqueue, hmiss]
  rfl

/-- One failed read feeds the loop with one empty line. -/
theorem Starved.run_failedTurn {s : CmdSocket} (h : s.Starved)
    (cmd_timeout now : ℤ) :
    ∃ t os, (machine cmd_timeout).run s (failedTurn now) = some (t, os) ∧
      t.Starved ∧ ∀ id out, .returned id out ∉ os := by
  obtain ⟨c, hc, hkey⟩ := h.call
  have hread := run_readFails h.buffer h.waiting cmd_timeout
  rw [h.queue] at hread
  have hturn := run_iterate (s := { s with cmd_resp_queue := [] ++ [[]] })
    hc hkey rfl cmd_timeout now
  refine ⟨_, _, (machine cmd_timeout).run_append_of_eq_some hread hturn,
    ⟨⟨_, rfl, hkey⟩, rfl, h.buffer, h.waiting⟩, ?_⟩
  simp

/-- A call waits for ever on a socket that the peer has closed, at every
reading of the clock. -/
theorem Starved.run_failedTurns {s : CmdSocket} (h : s.Starved)
    (cmd_timeout : ℤ) (nows : List ℤ) :
    ∃ t os, (machine cmd_timeout).run s (nows.flatMap failedTurn) =
        some (t, os) ∧ t.Starved ∧ ∀ id out, .returned id out ∉ os := by
  induction nows generalizing s with
  | nil => exact ⟨s, [], rfl, h, fun _ _ => List.not_mem_nil⟩
  | cons now nows ih =>
      obtain ⟨u, o, hturn, hu, hopen⟩ := h.run_failedTurn cmd_timeout now
      obtain ⟨t, o', hrest, ht, hopen'⟩ := ih hu
      refine ⟨t, o ++ o', ?_, ht, fun id out hmem => ?_⟩
      · rw [List.flatMap_cons]
        exact (machine cmd_timeout).run_append_of_eq_some hturn hrest
      · rcases List.mem_append.mp hmem with hmem | hmem
        · exact hopen id out hmem
        · exact hopen' id out hmem

end CmdSocket

end NorbitDriver
