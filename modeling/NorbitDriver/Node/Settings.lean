import NorbitDriver.Connection.SendCmd

/-!
# The startup settings

`on_activate` sends the startup settings one after the other, each of them again
and again until the response has `ack` set. `sendCmd` sets `ack` with `success`
when a response names the command, and without it when the deadline has passed
and the last line it has seen is not empty. So an activation that comes back has
been answered after each setting, though not necessarily to it.

Nothing is read from the sockets between two calls, so the queue that a call
leaves is the queue of the next one.
-/

namespace NorbitDriver

open Text

/-- The white space that `operator>>` skips and stops at. -/
def isspace (c : Char) : Bool :=
  c ∈ [' ', '\t', '\n', '\x0b', '\x0c', '\r']

/-- The first word of a setting, and the setting without as many characters as
the word has. -/
def splitCmd (cmd : List Char) : List Char × List Char :=
  let first := (cmd.dropWhile isspace).takeWhile fun c => !isspace c
  (first, cmd.drop first.length)

/-- What a call of `sendCmd` meets: the clock when it starts, and its turns. -/
structure Attempt where
  now : ℤ
  script : List Spin
deriving DecidableEq

/-- A call of `sendCmd` for a setting, with the queue it starts from and its
reply. -/
structure Sent where
  param : List Char
  cmd_resp_queue : List (List Char)
  attempt : Attempt
  reply : Reply
deriving DecidableEq

namespace Sent

/-- The call that `sendCmd` makes of the setting. -/
def call (cmd_timeout : ℤ) (s : Sent) : Call :=
  Call.start cmd_timeout 0 (splitCmd s.param).1 s.attempt.now

/-- `sendCmd` for a setting. -/
def make (cmd_timeout : ℤ) (param : List Char)
    (cmd_resp_queue : List (List Char)) (attempt : Attempt) : Option Sent :=
  ((Call.start cmd_timeout 0 (splitCmd param).1 attempt.now).loop
    cmd_resp_queue attempt.script).map fun reply =>
      { param, cmd_resp_queue, attempt, reply }

end Sent

/-- One setting in `on_activate`: `sendCmd` until the response has `ack` set.
What is left are the queue and the attempts that have not been made. -/
def sendSetting (cmd_timeout : ℤ) (param : List Char) :
    List (List Char) → List Attempt →
      Option (List Sent × List (List Char) × List Attempt)
  | _, [] => none
  | queue, attempt :: attempts =>
      (Sent.make cmd_timeout param queue attempt).bind fun sent =>
        if sent.reply.out.ack then
          some ([sent], sent.reply.cmd_resp_queue, attempts)
        else
          (sendSetting cmd_timeout param sent.reply.cmd_resp_queue
            attempts).map fun p => (sent :: p.1, p.2)

/-- `on_activate` behind `connect`: the calls of `sendCmd` it makes before it
returns with success. It has no result when the attempts end before it does. -/
def on_activate (cmd_timeout : ℤ) :
    List (List Char) → List (List Char) → List Attempt → Option (List Sent)
  | [], _, _ => some []
  | param :: params, queue, attempts =>
      (sendSetting cmd_timeout param queue attempts).bind fun p =>
        (on_activate cmd_timeout params p.2.1 p.2.2).map (p.1 ++ ·)

/-- The calls made for a setting are calls of `sendCmd` for it, and the last of
them is the first with `ack` set: it found a response that names the command, or
it passed its deadline with an empty queue, none of the lines it took naming the
command and the last of them not empty. -/
structure Acknowledged (cmd_timeout : ℤ) (param : List Char)
    (calls : List Sent) : Prop where
  made : ∀ s ∈ calls, s.param = param ∧
    (s.call cmd_timeout).loop s.cmd_resp_queue s.attempt.script =
      some s.reply
  last : ∃ retries s, calls = retries ++ [s] ∧
    (∀ r ∈ retries, r.reply.out.ack = false) ∧
    s.reply.out.ack = true ∧
    ((s.reply.out.success = true ∧
        s.reply.consumed.getLast? = some s.reply.out.resp ∧
        (s.call cmd_timeout).key <:+: s.reply.out.resp) ∨
      (s.reply.out.success = false ∧
        s.reply.consumed.getLast? = some s.reply.out.resp ∧
        s.reply.out.resp ≠ [] ∧
        (∀ line ∈ s.reply.consumed, ¬ (s.call cmd_timeout).key <:+: line) ∧
        s.reply.cmd_resp_queue = [] ∧
        ∃ spin ∈ s.attempt.script, (s.call cmd_timeout).timeout < spin.now))

/-- For each setting, in order, one of the calls made for it has succeeded. -/
def Confirmed (params : List (List Char)) (calls : List Sent) : Prop :=
  ∃ groups : List (List Sent), calls = groups.flatten ∧
    List.Forall₂ (fun param group => (∀ s ∈ group, s.param = param) ∧
      ∃ s ∈ group, s.reply.out.success = true) params groups

/-- A call with `ack` set has found its key, or has passed the deadline behind
a line that is not empty. -/
theorem Sent.acknowledged {cmd_timeout : ℤ} {s : Sent}
    (h : (s.call cmd_timeout).loop s.cmd_resp_queue s.attempt.script =
      some s.reply) (hack : s.reply.out.ack = true) :
    Acknowledged cmd_timeout s.param [s] := by
  have hconsumes := Call.sendCmd_consumes h
  refine ⟨fun t ht => ?_, [], s, rfl, fun r hr => ?_, hack, ?_⟩
  · rw [List.mem_singleton.mp ht]
    exact ⟨rfl, h⟩
  · exact absurd hr List.not_mem_nil
  · cases hsuccess : s.reply.out.success with
    | true =>
        obtain ⟨-, front, hfront, -⟩ := hconsumes.on_success hsuccess
        obtain ⟨line, hline, hkey⟩ := hconsumes.success_iff.mp hsuccess
        have hlast : s.reply.consumed.getLast? = some s.reply.out.resp := by
          rw [hfront]
          exact List.getLast?_concat
        rw [hlast, Option.some.injEq] at hline
        exact Or.inl ⟨rfl, hlast, hline ▸ hkey⟩
    | false =>
        obtain ⟨hnone, hempty, ⟨spin, hspin, hlate⟩, hresp, hiff⟩ :=
          hconsumes.on_timeout hsuccess
        have hne := hiff.mp hack
        have hlast : s.reply.consumed.getLast? = some s.reply.out.resp := by
          cases hcons : s.reply.consumed.getLast? with
          | none =>
              rw [hcons] at hresp
              exact absurd hresp hne
          | some line =>
              rw [hcons] at hresp
              rw [hresp]
              rfl
        exact Or.inr ⟨rfl, hlast, hne, hnone, hempty, spin,
          List.mem_of_getElem? hspin, hlate⟩

/-- A call without `ack` in front of the calls made for a setting. -/
theorem Acknowledged.cons {cmd_timeout : ℤ} {param : List Char}
    {calls : List Sent} {s : Sent} (h : Acknowledged cmd_timeout param calls)
    (hparam : s.param = param)
    (hs : (s.call cmd_timeout).loop s.cmd_resp_queue s.attempt.script =
      some s.reply) (hack : s.reply.out.ack = false) :
    Acknowledged cmd_timeout param (s :: calls) := by
  obtain ⟨retries, t, hcalls, hretries, hlast⟩ := h.last
  refine ⟨List.forall_mem_cons.mpr ⟨⟨hparam, hs⟩, h.made⟩,
    s :: retries, t, ?_, List.forall_mem_cons.mpr ⟨hack, hretries⟩, hlast⟩
  rw [hcalls, List.cons_append]

/-- What `sendSetting` does for a setting. -/
theorem acknowledged_of_sendSetting {cmd_timeout : ℤ} {param : List Char}
    {queue : List (List Char)} {attempts : List Attempt} {calls : List Sent}
    {p : List (List Char) × List Attempt}
    (h : sendSetting cmd_timeout param queue attempts = some (calls, p)) :
    Acknowledged cmd_timeout param calls := by
  induction attempts generalizing queue calls with
  | nil => exact absurd h (by simp [sendSetting])
  | cons attempt attempts ih =>
      rw [sendSetting, Option.bind_eq_some_iff] at h
      obtain ⟨s, hmake, h⟩ := h
      rw [Sent.make, Option.map_eq_some_iff] at hmake
      obtain ⟨reply, hloop, rfl⟩ := hmake
      cases hack : reply.out.ack with
      | true =>
          rw [if_pos hack, Option.some.injEq, Prod.mk.injEq] at h
          rw [← h.1]
          exact Sent.acknowledged (s := ⟨param, queue, attempt, reply⟩) hloop
            hack
      | false =>
          have hnot : ¬ reply.out.ack = true := by
            rw [hack]
            exact Bool.false_ne_true
          rw [if_neg hnot, Option.map_eq_some_iff] at h
          obtain ⟨⟨sents, q⟩, hrest, hq⟩ := h
          rw [Prod.mk.injEq] at hq
          obtain ⟨rfl, rfl⟩ := hq
          exact (ih hrest).cons rfl hloop hack

/-- An activation that returns with success has sent each setting, in order,
until it was acknowledged. -/
theorem on_activate_acknowledged {cmd_timeout : ℤ}
    {startup_settings queue : List (List Char)} {attempts : List Attempt}
    {calls : List Sent}
    (h : on_activate cmd_timeout startup_settings queue attempts =
      some calls) :
    ∃ groups : List (List Sent), calls = groups.flatten ∧
      List.Forall₂ (Acknowledged cmd_timeout) startup_settings groups := by
  induction startup_settings generalizing queue attempts calls with
  | nil =>
      rw [on_activate, Option.some.injEq] at h
      exact ⟨[], h.symm, List.Forall₂.nil⟩
  | cons param params ih =>
      rw [on_activate, Option.bind_eq_some_iff] at h
      obtain ⟨⟨sent, p⟩, hsetting, h⟩ := h
      rw [Option.map_eq_some_iff] at h
      obtain ⟨rest, hrest, hcalls⟩ := h
      obtain ⟨groups, hgroups, hall⟩ := ih hrest
      refine ⟨sent :: groups, ?_, List.Forall₂.cons ?_ hall⟩
      · rw [List.flatten_cons, ← hgroups, ← hcalls]
      · exact acknowledged_of_sendSetting hsetting

/-- A setting that gets an unrelated line, and one that is sent again because it
gets nothing at first. -/
def twoSettings : List Attempt :=
  [⟨0, [⟨[['q']], 1⟩, ⟨[], 6⟩]⟩, ⟨7, [⟨[], 13⟩]⟩, ⟨14, [⟨[['r']], 15⟩]⟩]

theorem on_activate_acknowledged_twoSettings :
    ∃ calls, on_activate 5 [['p'], ['r']] [] twoSettings = some calls ∧
      calls.length = 3 ∧
      ∃ groups : List (List Sent), calls = groups.flatten ∧
        List.Forall₂ (Acknowledged 5) [['p'], ['r']] groups := by
  have hcalls : (on_activate 5 [['p'], ['r']] [] twoSettings).any
      fun calls => calls.length = 3 := by
    decide
  obtain ⟨calls, hcalls, hlen⟩ := (Option.any_eq_true _ _).mp hcalls
  exact ⟨calls, hcalls, of_decide_eq_true hlen,
    on_activate_acknowledged hcalls⟩

/-- An activation whose only setting is followed by an unrelated line. -/
def unrelated : List Attempt :=
  [⟨0, [⟨[['q']], 1⟩, ⟨[], 6⟩]⟩]

/-- It returns with success, and no call of `sendCmd` has succeeded. -/
theorem unrelated_not_confirmed :
    ∃ calls, on_activate 5 [['p']] [] unrelated = some calls ∧
      ¬ Confirmed [['p']] calls := by
  have hany : (on_activate 5 [['p']] [] unrelated).any
      fun calls => calls.all fun s => !s.reply.out.success := by
    decide
  obtain ⟨calls, hcalls, hnone⟩ := (Option.any_eq_true _ _).mp hany
  refine ⟨calls, hcalls, fun h => ?_⟩
  obtain ⟨groups, hgroups, hall⟩ := h
  cases hall with
  | cons hgroup hrest =>
      obtain ⟨-, s, hs, hsuccess⟩ := hgroup
      have hmem : s ∈ calls := by
        rw [hgroups, List.flatten_cons]
        exact List.mem_append_left _ hs
      have hfalse := List.all_eq_true.mp hnone s hmem
      rw [hsuccess] at hfalse
      exact absurd hfalse (by decide)

end NorbitDriver
