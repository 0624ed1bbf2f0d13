import NorbitDriver.Connection.Lines

/-!
# The loop of `sendCmd`

A call of `sendCmd` reads the clock, then lets the handlers run and takes one
response from the queue, again and again. Here the loop is a function of what
it cannot influence: for each `spin_once` the lines that the handlers put into
the queue and the clock reading behind it. A call that returns has taken its
lines in the order in which they arrived and left the others in the queue.

`loop_of_run` connects this function with the command socket, whose runs are
cut into turns by the turns of its calls, and `run_consumes` states the result
for the runs of the socket.
-/

namespace NorbitDriver

open Text Transition

/-- One turn of the loop of `sendCmd`: the lines put into the queue during
`spin_once`, and the clock reading. -/
structure Spin where
  lines : List (List Char)
  now : ℤ
deriving DecidableEq

/-- What a call of `sendCmd` comes back with: the response, the lines it has
taken from the queue, the queue it leaves, and the number of its spins. -/
structure Reply where
  out : CmdResp
  consumed : List (List Char)
  cmd_resp_queue : List (List Char)
  spins : ℕ
deriving DecidableEq

namespace Call

/-- The call that `sendCmd` starts at the clock reading `now`. -/
def start (cmd_timeout : ℤ) (id : ℕ) (cmd : List Char) (now : ℤ) : Call where
  id := id
  key := commandKey cmd
  timeout := now + cmd_timeout
  out := { success := false, ack := false, resp := [] }

/-- The loop of `sendCmd`. There is no reply when the script ends before the
loop does. -/
def loop (c : Call) (cmd_resp_queue : List (List Char)) :
    List Spin → Option Reply
  | [] => none
  | spin :: script =>
      let queue := cmd_resp_queue ++ spin.lines
      let (running, c', rest) := c.iterate queue spin.now
      if running then
        (c'.loop rest script).map fun r =>
          { r with
            consumed := queue.take 1 ++ r.consumed
            spins := r.spins + 1 }
      else
        some
          { out := c'.out
            consumed := queue.take 1
            cmd_resp_queue := rest
            spins := 1 }

/-- How the loop comes to its reply. -/
inductive Returns : Call → List (List Char) → List Spin → Reply → Prop
  | hit {c queue spin script line rest}
      (first : queue ++ spin.lines = line :: rest) (found : c.key <:+: line) :
      Returns c queue (spin :: script)
        { out := { success := true, ack := true, resp := line }
          consumed := [line]
          cmd_resp_queue := rest
          spins := 1 }
  | miss {c queue spin script line rest r}
      (first : queue ++ spin.lines = line :: rest)
      (other : ¬ c.key <:+: line)
      (next : Returns { c with out := { c.out with resp := line } } rest
        script r) :
      Returns c queue (spin :: script)
        { r with consumed := line :: r.consumed, spins := r.spins + 1 }
  | expire {c queue spin script} (empty : queue ++ spin.lines = [])
      (late : c.timeout < spin.now) :
      Returns c queue (spin :: script)
        { out := { c.out with ack := c.out.resp ≠ [] }
          consumed := []
          cmd_resp_queue := []
          spins := 1 }
  | wait {c queue spin script r} (empty : queue ++ spin.lines = [])
      (early : ¬ c.timeout < spin.now) (next : Returns c [] script r) :
      Returns c queue (spin :: script) { r with spins := r.spins + 1 }

theorem loop_of_running {c c' : Call} {queue rest : List (List Char)}
    (spin : Spin)
    (h : c.iterate (queue ++ spin.lines) spin.now = (true, c', rest))
    (script : List Spin) :
    c.loop queue (spin :: script) =
      (c'.loop rest script).map fun r =>
        { r with
          consumed := (queue ++ spin.lines).take 1 ++ r.consumed
          spins := r.spins + 1 } := by
  rw [loop]
  simp only [h, if_true]

theorem loop_of_ended {c c' : Call} {queue rest : List (List Char)}
    (spin : Spin)
    (h : c.iterate (queue ++ spin.lines) spin.now = (false, c', rest))
    (script : List Spin) :
    c.loop queue (spin :: script) =
      some
        { out := c'.out
          consumed := (queue ++ spin.lines).take 1
          cmd_resp_queue := rest
          spins := 1 } := by
  rw [loop]
  simp only [h]
  rfl

/-- The loop returns in these ways. -/
theorem returns_of_loop {c : Call} {queue : List (List Char)}
    {script : List Spin} {r : Reply} (h : c.loop queue script = some r) :
    Returns c queue script r := by
  induction script generalizing c queue r with
  | nil => exact absurd h (by simp [loop])
  | cons spin script ih =>
      have hturn := c.turn_iterate (queue ++ spin.lines) spin.now
      generalize hiterate : c.iterate (queue ++ spin.lines) spin.now = p
        at hturn
      obtain ⟨running, c', rest⟩ := p
      dsimp only at hturn
      generalize hqueue : queue ++ spin.lines = lines at hturn hiterate
      rw [← hqueue] at hiterate
      cases hturn with
      | hit found =>
          rw [loop_of_ended _ hiterate, Option.some.injEq] at h
          rw [← h, hqueue]
          exact Returns.hit hqueue found
      | miss other =>
          rw [loop_of_running _ hiterate, Option.map_eq_some_iff] at h
          obtain ⟨r', hloop, hr⟩ := h
          rw [← hr, hqueue]
          exact Returns.miss hqueue other (ih hloop)
      | expire late =>
          rw [loop_of_ended _ hiterate, Option.some.injEq] at h
          rw [← h, hqueue]
          exact Returns.expire hqueue late
      | wait early =>
          rw [loop_of_running _ hiterate, Option.map_eq_some_iff] at h
          obtain ⟨r', hloop, hr⟩ := h
          rw [← hr, hqueue]
          exact Returns.wait hqueue early (ih hloop)

/-- What a call that returns has done with the responses: it has taken the
first of the lines in the queue and of those that arrived, in this order, and
stopped at the first line with its key, or with the queue empty behind the
deadline. -/
structure Consumes (c : Call) (queue : List (List Char)) (script : List Spin)
    (r : Reply) : Prop where
  spins : 0 < r.spins ∧ r.spins ≤ script.length
  conserved : r.consumed ++ r.cmd_resp_queue =
    queue ++ (script.take r.spins).flatMap Spin.lines
  success_iff : r.out.success = true ↔
    ∃ line, r.consumed.getLast? = some line ∧ c.key <:+: line
  on_success : r.out.success = true → r.out.ack = true ∧
    ∃ front, r.consumed = front ++ [r.out.resp] ∧
      ∀ line ∈ front, ¬ c.key <:+: line
  on_timeout : r.out.success = false →
    (∀ line ∈ r.consumed, ¬ c.key <:+: line) ∧
      r.cmd_resp_queue = [] ∧
      (∃ spin, script[r.spins - 1]? = some spin ∧ c.timeout < spin.now) ∧
      r.out.resp = r.consumed.getLast?.getD c.out.resp ∧
      (r.out.ack = true ↔ r.out.resp ≠ [])

/-- A turn in front of a call that returns, which takes a line without the key
or no line. -/
theorem Consumes.cons {c c' : Call} {queue rest : List (List Char)}
    {spin : Spin} {script : List Spin} {r : Reply} (taken : List (List Char))
    (h : c'.Consumes rest script r) (hkey : c'.key = c.key)
    (htimeout : c'.timeout = c.timeout)
    (hqueue : queue ++ spin.lines = taken ++ rest)
    (hother : ∀ l ∈ taken, ¬ c.key <:+: l)
    (hresp : c'.out.resp = taken.getLast?.getD c.out.resp) :
    c.Consumes queue (spin :: script)
      { r with consumed := taken ++ r.consumed, spins := r.spins + 1 } := by
  obtain ⟨hpos, hle⟩ := h.spins
  have hlast : ∀ l, (taken ++ r.consumed).getLast? = some l →
      c.key <:+: l → r.consumed.getLast? = some l := by
    intro l hl hfound
    rw [List.getLast?_append] at hl
    cases hr : r.consumed.getLast? with
    | none =>
        rw [hr, Option.none_or] at hl
        exact absurd hfound (hother l (List.mem_of_getLast? hl))
    | some m =>
        rw [hr, Option.some_or] at hl
        exact hl
  refine ⟨⟨Nat.succ_pos _, Nat.succ_le_succ hle⟩, ?_, ?_, ?_, ?_⟩
  · rw [List.append_assoc, h.conserved, List.take_succ_cons,
      List.flatMap_cons, ← List.append_assoc, ← List.append_assoc, hqueue]
  · rw [h.success_iff, hkey]
    constructor
    · rintro ⟨l, hl, hfound⟩
      exact ⟨l, by rw [List.getLast?_append, hl, Option.some_or], hfound⟩
    · rintro ⟨l, hl, hfound⟩
      exact ⟨l, hlast l hl hfound, hfound⟩
  · intro hsuccess
    obtain ⟨hack, front, hfront, hnone⟩ := h.on_success hsuccess
    refine ⟨hack, taken ++ front, ?_, fun l hl => ?_⟩
    · rw [hfront, List.append_assoc]
    · rcases List.mem_append.mp hl with hl | hl
      · exact hother l hl
      · exact hkey ▸ hnone l hl
  · intro hsuccess
    obtain ⟨hnone, hempty, ⟨last, hscript, hlate⟩, hr, hack⟩ :=
      h.on_timeout hsuccess
    refine ⟨fun l hl => ?_, hempty, ⟨last, ?_, htimeout ▸ hlate⟩, ?_, hack⟩
    · rcases List.mem_append.mp hl with hl | hl
      · exact hother l hl
      · exact hkey ▸ hnone l hl
    · obtain ⟨k, hk⟩ := Nat.exists_eq_add_of_lt hpos
      rw [Nat.zero_add] at hk
      rw [hk] at hscript ⊢
      exact hscript
    · rw [hr, hresp, List.getLast?_append]
      cases r.consumed.getLast? with
      | none => rfl
      | some l => rfl

/-- `sendCmd` takes the responses in order and loses none. -/
theorem Returns.consumes {c : Call} {queue : List (List Char)}
    {script : List Spin} {r : Reply} (h : Returns c queue script r)
    (hc : c.out.success = false) : c.Consumes queue script r := by
  induction h with
  | @hit c queue spin script line rest first found =>
      refine ⟨⟨Nat.one_pos, Nat.succ_pos _⟩, ?_, ?_, ?_, ?_⟩
      · rw [List.take_succ_cons, List.take_zero, List.flatMap_cons,
          List.flatMap_nil, List.append_nil spin.lines, first]
        rfl
      · exact iff_of_true rfl ⟨line, rfl, found⟩
      · exact fun _ => ⟨rfl, [], rfl, fun l hl => absurd hl List.not_mem_nil⟩
      · exact fun hfalse => absurd hfalse (by simp)
  | miss first other next ih =>
      refine (ih hc).cons [_] rfl rfl first ?_ rfl
      exact fun l hl => List.mem_singleton.mp hl ▸ other
  | @expire c queue spin script empty late =>
      refine ⟨⟨Nat.one_pos, Nat.succ_pos _⟩, ?_, ?_, ?_, ?_⟩
      · rw [List.take_succ_cons, List.take_zero, List.flatMap_cons,
          List.flatMap_nil, List.append_nil spin.lines, empty]
        rfl
      · refine iff_of_false ?_ ?_
        · rw [hc]
          exact Bool.false_ne_true
        · rintro ⟨l, hl, -⟩
          exact absurd hl (by simp)
      · intro htrue
        rw [hc] at htrue
        exact absurd htrue Bool.false_ne_true
      · refine fun _ => ⟨fun l hl => absurd hl List.not_mem_nil, rfl,
          ⟨spin, rfl, late⟩, rfl, ?_⟩
        exact decide_eq_true_iff
  | wait empty early next ih =>
      exact (ih hc).cons [] rfl rfl empty
        (fun l hl => absurd hl List.not_mem_nil) rfl

/-- For every command, every queue in front of the call, all arrivals and all
clock readings: a call of `sendCmd` that returns has consumed the responses in
order and lost none. -/
theorem sendCmd_consumes {cmd_timeout : ℤ} {id : ℕ} {cmd : List Char}
    {now : ℤ} {queue : List (List Char)} {script : List Spin} {r : Reply}
    (h : (start cmd_timeout id cmd now).loop queue script = some r) :
    (start cmd_timeout id cmd now).Consumes queue script r :=
  (returns_of_loop h).consumes rfl

/-- A call that takes a line of another command first, and leaves the line
behind its own in the queue. -/
theorem sendCmd_consumes_own :
    (start 5 0 ['p'] 0).Consumes [['q']] [⟨[['p'], ['r']], 1⟩, ⟨[], 2⟩]
      { out := { success := true, ack := true, resp := ['p'] }
        consumed := [['q'], ['p']]
        cmd_resp_queue := [['r']]
        spins := 2 } :=
  sendCmd_consumes (by decide)

end Call

namespace Call

/-- A turn determines what the loop does in it. -/
theorem Turn.iterate_eq {c c' : Call} {now : ℤ} {queue rest : List (List Char)}
    {running : Bool} (h : c.Turn now queue running c' rest) :
    c.iterate queue now = (running, c', rest) := by
  cases h with
  | hit found => rw [iterate, if_pos (find_isSome_iff.mpr found)]
  | miss other =>
      rw [iterate, if_neg fun h => other (find_isSome_iff.mp h)]
  | expire late => rw [iterate, if_pos late]
  | wait early => rw [iterate, if_neg early]

/-- Lines that are in the queue before a spin might as well arrive in it. -/
theorem loop_prepend (c : Call) (queue lines : List (List Char)) (spin : Spin)
    (script : List Spin) :
    c.loop (queue ++ lines) (spin :: script) =
      c.loop queue ({ spin with lines := lines ++ spin.lines } :: script) := by
  rw [loop, loop, List.append_assoc]

end Call

namespace CmdSocket

variable {cmd_timeout : ℤ}

/-- The call that `sendCmd` starts on an open socket. -/
theorem step_sendCmd {s t : CmdSocket} {cmd val : List Char} {now : ℤ}
    {os : List CmdAction} (hopen : s.is_open = true)
    (h : (machine cmd_timeout).step s (.sendCmd cmd val now) = some (t, os)) :
    t.activity = .sendCmd (Call.start cmd_timeout s.calls cmd now) ∧
      t.cmd_resp_queue = s.cmd_resp_queue ∧ popped os = [] ∧
      enqueued os = [] := by
  cases cmdStep_of_step h with
  | sendCmd cmd val now idle opened => exact ⟨rfl, rfl, rfl, rfl⟩
  | refused cmd val now idle closed =>
      rw [hopen] at closed
      exact absurd closed (by simp)

/-- Between two turns of its loop a call stays as it is, and nothing is taken
from the queue. -/
theorem step_between {s t : CmdSocket} {e : CmdEvent} {os : List CmdAction}
    {c : Call} (hc : s.activity = .sendCmd c)
    (h : (machine cmd_timeout).step s e = some (t, os))
    (he : ∀ now, e ≠ .iterate now) :
    t.activity = .sendCmd c ∧ popped os = [] := by
  cases cmdStep_of_step h with
  | connect now idle => exact absurd (hc.symm.trans idle) Activity.noConfusion
  | sendCmd cmd val now idle =>
      exact absurd (hc.symm.trans idle) Activity.noConfusion
  | refused cmd val now idle =>
      exact absurd (hc.symm.trans idle) Activity.noConfusion
  | connecting => exact absurd rfl (he _)
  | connectReturns => exact absurd rfl (he _)
  | waits => exact absurd rfl (he _)
  | returns => exact absurd rfl (he _)
  | _ => exact ⟨hc, rfl⟩

/-- A turn of the loop of a call. -/
theorem step_turn {s t : CmdSocket} {now : ℤ} {os : List CmdAction} {c : Call}
    (hc : s.activity = .sendCmd c)
    (h : (machine cmd_timeout).step s (.iterate now) = some (t, os)) :
    (∃ c', c.Turn now s.cmd_resp_queue true c' t.cmd_resp_queue ∧
      t.activity = .sendCmd c' ∧
      os = (s.cmd_resp_queue.take 1).map .popped) ∨
    ∃ c', c.Turn now s.cmd_resp_queue false c' t.cmd_resp_queue ∧
      os = (s.cmd_resp_queue.take 1).map .popped ++
        [.returned c'.id c'.out] := by
  cases cmdStep_of_step h with
  | connecting running =>
      exact absurd (hc.symm.trans running) Activity.noConfusion
  | connectReturns running =>
      exact absurd (hc.symm.trans running) Activity.noConfusion
  | @waits d c' queue _ running turn =>
      have hd : c = d := Activity.sendCmd.inj (hc.symm.trans running)
      subst hd
      exact Or.inl ⟨c', turn, rfl, rfl⟩
  | @returns d c' queue _ running turn =>
      have hd : c = d := Activity.sendCmd.inj (hc.symm.trans running)
      subst hd
      exact Or.inr ⟨c', turn, rfl⟩

/-- A turn of the loop in which the call goes on. -/
theorem step_goes_on {s t : CmdSocket} {now : ℤ} {os : List CmdAction}
    {c : Call} (hc : s.activity = .sendCmd c)
    (h : (machine cmd_timeout).step s (.iterate now) = some (t, os))
    (hos : ∀ id out, .returned id out ∉ os) :
    ∃ c', c.iterate s.cmd_resp_queue now = (true, c', t.cmd_resp_queue) ∧
      t.activity = .sendCmd c' ∧
      os = (s.cmd_resp_queue.take 1).map .popped := by
  rcases step_turn hc h with ⟨c', turn, hactivity, hpopped⟩ | ⟨c', -, rfl⟩
  · exact ⟨c', turn.iterate_eq, hactivity, hpopped⟩
  · exact absurd (List.mem_append_right _ List.mem_cons_self)
      (hos c'.id c'.out)

/-- A turn of the loop in which the call returns. -/
theorem step_comes_back {s t : CmdSocket} {now : ℤ} {os : List CmdAction}
    {c : Call} (hc : s.activity = .sendCmd c)
    (h : (machine cmd_timeout).step s (.iterate now) = some (t, os))
    {id : ℕ} {out : CmdResp} (hos : .returned id out ∈ os) :
    ∃ c', c.iterate s.cmd_resp_queue now = (false, c', t.cmd_resp_queue) ∧
      c'.out = out ∧ popped os = s.cmd_resp_queue.take 1 := by
  rcases step_turn hc h with ⟨c', -, -, rfl⟩ | ⟨c', turn, rfl⟩
  · exact absurd hos (returned_not_mem_popped _ _ _)
  · rw [List.mem_append, List.mem_singleton, CmdAction.returned.injEq] at hos
    refine ⟨c', turn.iterate_eq, ?_, ?_⟩
    · rcases hos with hos | hos
      · exact absurd hos (returned_not_mem_popped _ _ _)
      · exact hos.2.symm
    · rw [popped_append, popped_map_popped]
      exact List.append_nil _

/-- A run of the command socket in which a call returns is the loop of the
call over some script: the lines of the script are those that the run has put
into the queue. -/
theorem loop_of_run {s t u : CmdSocket} {es : List CmdEvent}
    {os ps : List CmdAction} {c : Call} {now : ℤ} {id : ℕ} {out : CmdResp}
    (hc : s.activity = .sendCmd c)
    (hrun : (machine cmd_timeout).run s es = some (t, os))
    (hopen : ∀ i o, .returned i o ∉ os)
    (hlast : (machine cmd_timeout).step t (.iterate now) = some (u, ps))
    (hout : .returned id out ∈ ps) :
    ∃ script r, c.loop s.cmd_resp_queue script = some r ∧ r.out = out ∧
      r.spins = script.length ∧ script.flatMap Spin.lines = enqueued os ∧
      r.consumed = popped os ++ popped ps ∧
      r.cmd_resp_queue = u.cmd_resp_queue := by
  induction es generalizing s os c with
  | nil =>
      rw [Machine.run_nil_eq_some_iff] at hrun
      obtain ⟨rfl, rfl⟩ := hrun
      obtain ⟨c', hiterate, hc', hpopped⟩ := step_comes_back hc hlast hout
      rw [← List.append_nil s.cmd_resp_queue] at hiterate
      have hloop := Call.loop_of_ended ⟨[], now⟩ hiterate []
      rw [List.append_nil] at hloop
      exact ⟨_, _, hloop, hc', rfl, rfl, hpopped.symm, rfl⟩
  | cons e es ih =>
      obtain ⟨v, o, o', hstep, hrest, rfl⟩ :=
        (machine cmd_timeout).run_cons_eq_some_iff.mp hrun
      have hhead : ∀ i a, .returned i a ∉ o :=
        fun i a h => hopen i a (List.mem_append_left o' h)
      have htail : ∀ i a, .returned i a ∉ o' :=
        fun i a h => hopen i a (List.mem_append_right o h)
      by_cases he : ∃ n, e = .iterate n
      · obtain ⟨n, rfl⟩ := he
        obtain ⟨c', hiterate, hv, rfl⟩ := step_goes_on hc hstep hhead
        obtain ⟨script, r, hloop, hr, hspins, hlines, hconsumed, hleft⟩ :=
          ih hv hrest htail
        rw [← List.append_nil s.cmd_resp_queue] at hiterate
        have hturn := Call.loop_of_running ⟨[], n⟩ hiterate script
        rw [hloop, Option.map_some, List.append_nil] at hturn
        refine ⟨_, _, hturn, hr, congrArg Nat.succ hspins, ?_, ?_, hleft⟩
        · rw [enqueued_append, enqueued_map_popped, ← hlines]
          rfl
        · rw [popped_append, popped_map_popped, hconsumed, List.append_assoc]
      · obtain ⟨hv, hnone⟩ :=
          step_between hc hstep fun n hn => he ⟨n, hn⟩
        obtain ⟨script, r, hloop, hr, hspins, hlines, hconsumed, hleft⟩ :=
          ih hv hrest htail
        have hqueue := step_queue hstep
        rw [hnone, List.nil_append] at hqueue
        cases script with
        | nil => exact absurd hloop (by simp [Call.loop])
        | cons spin script =>
            rw [hqueue, Call.loop_prepend] at hloop
            refine ⟨_, r, hloop, hr, hspins, ?_, ?_, hleft⟩
            · rw [enqueued_append, ← hlines, List.flatMap_cons,
                List.flatMap_cons, List.append_assoc]
            · rw [hconsumed, popped_append, hnone, List.nil_append]

/-- So a call on an open socket consumes the responses that the socket has put
into the queue. -/
theorem run_consumes {s t u : CmdSocket} {es : List CmdEvent}
    {os ps : List CmdAction} {cmd val : List Char} {now now' : ℤ} {id : ℕ}
    {out : CmdResp} (hopen : s.is_open = true)
    (hrun : (machine cmd_timeout).run s (.sendCmd cmd val now :: es) =
      some (t, os))
    (hwaits : ∀ i o, .returned i o ∉ os)
    (hlast : (machine cmd_timeout).step t (.iterate now') = some (u, ps))
    (hout : .returned id out ∈ ps) :
    ∃ script r,
      (Call.start cmd_timeout s.calls cmd now).Consumes s.cmd_resp_queue
        script r ∧ r.out = out ∧ r.spins = script.length ∧
      script.flatMap Spin.lines = enqueued os ∧
      r.consumed = popped os ++ popped ps ∧
      r.cmd_resp_queue = u.cmd_resp_queue := by
  obtain ⟨v, o, o', hstep, hrest, rfl⟩ :=
    (machine cmd_timeout).run_cons_eq_some_iff.mp hrun
  obtain ⟨hactivity, hqueue, hpopped, henqueued⟩ := step_sendCmd hopen hstep
  obtain ⟨script, r, hloop, hr, hspins, hlines, hconsumed, hleft⟩ :=
    loop_of_run hactivity hrest
      (fun i a h => hwaits i a (List.mem_append_right o h)) hlast hout
  rw [hqueue] at hloop
  refine ⟨script, r, (Call.returns_of_loop hloop).consumes rfl, hr, hspins,
    ?_, ?_, hleft⟩
  · rw [enqueued_append, henqueued, hlines, List.nil_append]
  · rw [popped_append, hpopped, hconsumed, List.nil_append]

end CmdSocket

end NorbitDriver
