import NorbitDriver.Connection.SendCmd
import NorbitDriver.Text.Erasure

/-!
# The key of a command

`removeSubstrs` looks for the first occurrence of its pattern from the start
again after each erasure, so it ends with a residue of its argument. Neither
`set_` nor a blank has a border, and their residues do not depend on the order
of the erasures.

`sendCmd` derives the key of a command with it, because some responses do not
echo the command with its `set_`. The erasures join what was in front of an
occurrence and what was behind it, so a command need not contain its own key,
and the line that echoes it is then passed over.
-/

namespace NorbitDriver

open Text

/-- `removeSubstrs` ends, and what it ends with. -/
structure RemovesAll (s p : List Char) : Prop where
  ends : ∃ k ≤ s.length / p.length,
    (removeSubstrs s p).length + k * p.length = s.length ∧
      ∀ fuel, k ≤ fuel → removeSubstrsLoop p fuel s = removeSubstrs s p
  free : ¬ p <:+: removeSubstrs s p
  subsequence : (removeSubstrs s p).Sublist s
  stable : removeSubstrs (removeSubstrs s p) p = removeSubstrs s p
  unique : Borderless p → ∀ r, Residue p s r → r = removeSubstrs s p

theorem removeSubstrsLoop_of_find {p s : List Char} {i : ℕ}
    (h : find p s = some i) (fuel : ℕ) :
    removeSubstrsLoop p (fuel + 1) s =
      removeSubstrsLoop p fuel (erase s i p.length) := by
  rw [removeSubstrsLoop, h]

/-- The loop ends when there is no occurrence. -/
theorem removeSubstrsLoop_of_free {p s : List Char} (h : ¬ p <:+: s)
    (fuel : ℕ) : removeSubstrsLoop p fuel s = s := by
  have hnone : find p s = none := by
    rwa [← Option.not_isSome_iff_eq_none, find_isSome_iff]
  cases fuel with
  | zero => rfl
  | succ fuel => rw [removeSubstrsLoop, hnone]

/-- The turns of the loop are erasures. -/
theorem removeSubstrsLoop_erases (p : List Char) (fuel : ℕ) (s : List Char) :
    Relation.ReflTransGen (Erases p) s (removeSubstrsLoop p fuel s) := by
  induction fuel generalizing s with
  | zero => exact Relation.ReflTransGen.refl
  | succ fuel ih =>
      cases h : find p s with
      | none => rw [removeSubstrsLoop, h]
      | some i =>
          rw [removeSubstrsLoop_of_find h]
          exact Relation.ReflTransGen.head (erases_of_find h) (ih _)

/-- The loop ends after some number of turns, each of which shortens the text by
the pattern. More turns change nothing. -/
theorem removeSubstrsLoop_ends {p : List Char} (hp : p ≠ [])
    (s : List Char) :
    ∃ k, (removeSubstrsLoop p k s).length + k * p.length = s.length ∧
      ¬ p <:+: removeSubstrsLoop p k s ∧
      ∀ fuel, k ≤ fuel →
        removeSubstrsLoop p fuel s = removeSubstrsLoop p k s := by
  induction hn : s.length using Nat.strong_induction_on generalizing s with
  | _ n ih =>
      subst hn
      cases h : find p s with
      | none =>
          have hfree : ¬ p <:+: s := by
            rw [← find_isSome_iff, h]
            exact Bool.false_ne_true
          refine ⟨0, ?_, hfree, fun fuel _ => ?_⟩
          · rw [Nat.zero_mul]
            rfl
          · exact removeSubstrsLoop_of_free hfree fuel
      | some i =>
          have hlen := (erases_of_find h).length
          have hpos := List.length_pos_of_ne_nil hp
          obtain ⟨k, hk, hfree, hstays⟩ :=
            ih (erase s i p.length).length (by omega) _ rfl
          refine ⟨k + 1, ?_, ?_, fun fuel hfuel => ?_⟩
          · rw [removeSubstrsLoop_of_find h, Nat.add_mul, Nat.one_mul,
              ← Nat.add_assoc, hk, hlen]
          · rwa [removeSubstrsLoop_of_find h]
          · obtain ⟨m, rfl⟩ := Nat.exists_eq_add_of_le' hfuel
            rw [← Nat.add_assoc, removeSubstrsLoop_of_find h,
              removeSubstrsLoop_of_find h]
            exact hstays _ (Nat.le_add_left k m)

/-- `removeSubstrs` is the loop with as many turns as it takes. -/
theorem removeSubstrs_ends {p : List Char} (hp : p ≠ []) (s : List Char) :
    ∃ k ≤ s.length / p.length,
      (removeSubstrs s p).length + k * p.length = s.length ∧
      ¬ p <:+: removeSubstrs s p ∧
      ∀ fuel, k ≤ fuel →
        removeSubstrsLoop p fuel s = removeSubstrs s p := by
  obtain ⟨k, hk, hfree, hstays⟩ := removeSubstrsLoop_ends hp s
  have hpos := List.length_pos_of_ne_nil hp
  have hmul : k * p.length ≤ s.length := by
    rw [← hk]
    exact Nat.le_add_left _ _
  have hle : k ≤ s.length / p.length := (Nat.le_div_iff_mul_le hpos).mpr hmul
  have heq : removeSubstrs s p = removeSubstrsLoop p k s :=
    hstays s.length (hle.trans (Nat.div_le_self _ _))
  rw [heq]
  exact ⟨k, hle, hk, hfree, hstays⟩

/-- What `removeSubstrs` leaves is a residue. -/
theorem residue_removeSubstrs {p : List Char} (hp : p ≠ []) (s : List Char) :
    Residue p s (removeSubstrs s p) := by
  obtain ⟨-, -, -, hfree, -⟩ := removeSubstrs_ends hp s
  exact ⟨removeSubstrsLoop_erases p _ s, hfree⟩

/-- For every text and every pattern that is not empty, `removeSubstrs` ends
with the residue. -/
theorem removeSubstrs_removesAll {p : List Char} (hp : p ≠ [])
    (s : List Char) : RemovesAll s p := by
  obtain ⟨k, hle, hk, hfree, hstays⟩ := removeSubstrs_ends hp s
  have hresidue := residue_removeSubstrs hp s
  exact
    { ends := ⟨k, hle, hk, hstays⟩
      free := hfree
      subsequence := sublist_of_erases hresidue.erases
      stable := removeSubstrsLoop_of_free hfree _
      unique := fun hborder r hr => hr.unique hborder hresidue }

/-- The occurrence inside another one goes first. -/
theorem removeSubstrs_removesAll_nested :
    RemovesAll ['s', 'e', 's', 'e', 't', '_', 't', '_', 'x']
      ['s', 'e', 't', '_'] :=
  removeSubstrs_removesAll (by simp) _

/-- What `sendCmd` removes first has no border. -/
theorem borderless_set : Borderless ['s', 'e', 't', '_'] := by
  decide

/-- What the keys are derived with leaves one text, whatever is erased first. -/
theorem removeSubstrs_eq_iff {p : List Char} (hp : p ≠ [])
    (hborder : Borderless p) {s r : List Char} :
    removeSubstrs s p = r ↔ Residue p s r := by
  constructor
  · rintro rfl
    exact residue_removeSubstrs hp s
  · exact fun h => (residue_removeSubstrs hp s).unique hborder h

/-- `cmd` comes down to `name` when occurrences of `set_` are erased until there
is none, and the blanks after them. -/
def Names (cmd name : List Char) : Prop :=
  ∃ named, Residue ['s', 'e', 't', '_'] cmd named ∧ Residue [' '] named name

/-- The key is what the command comes down to. -/
theorem commandKey_eq_iff {cmd name : List Char} :
    commandKey cmd = name ↔ Names cmd name := by
  have hset : ∀ {s r : List Char}, removeSubstrs s ['s', 'e', 't', '_'] = r ↔
      Residue ['s', 'e', 't', '_'] s r :=
    removeSubstrs_eq_iff (by simp) borderless_set
  have hblank : ∀ {s r : List Char}, removeSubstrs s [' '] = r ↔
      Residue [' '] s r :=
    removeSubstrs_eq_iff (by simp) (borderless_singleton ' ')
  constructor
  · exact fun h => ⟨_, hset.mp rfl, hblank.mp h⟩
  · rintro ⟨named, hnamed, hname⟩
    rw [commandKey, hset.mpr hnamed, hblank.mpr hname]

/-- The command comes down to a part of itself. -/
def KeepsName (cmd : List Char) : Prop :=
  ∃ name, Names cmd name ∧ name <:+: cmd

theorem keepsName_iff {cmd : List Char} :
    KeepsName cmd ↔ commandKey cmd <:+: cmd := by
  constructor
  · rintro ⟨name, hname, hin⟩
    rwa [commandKey_eq_iff.mpr hname]
  · exact fun h => ⟨commandKey cmd, commandKey_eq_iff.mp rfl, h⟩

/-- Without `set_` in it, a command comes down to its characters other than
blanks. -/
theorem names_iff_of_free {cmd name : List Char}
    (hset : ¬ ['s', 'e', 't', '_'] <:+: cmd) :
    Names cmd name ↔ name = cmd.filter (· ≠ ' ') := by
  constructor
  · rintro ⟨named, hnamed, hname⟩
    rw [← eq_of_erases_of_free hset hnamed.erases]
    exact hname.eq_filter
  · rintro rfl
    have hresidue := residue_removeSubstrs (p := [' ']) (by simp) cmd
    refine ⟨cmd, ⟨Relation.ReflTransGen.refl, hset⟩, ?_⟩
    rwa [← hresidue.eq_filter]

/-- Without `set_` in it, a command is kept exactly when its blanks stand in
front of its name and behind it. -/
theorem keepsName_iff_of_free {cmd : List Char}
    (hset : ¬ ['s', 'e', 't', '_'] <:+: cmd) :
    KeepsName cmd ↔ ∃ front name back, cmd = front ++ name ++ back ∧
      (∀ c ∈ front, c = ' ') ∧ ' ' ∉ name ∧ ∀ c ∈ back, c = ' ' := by
  have hblank : ∀ {s : List Char}, s.filter (· ≠ ' ') = [] ↔
      ∀ c ∈ s, c = ' ' := by
    simp
  simp only [KeepsName, names_iff_of_free hset, exists_eq_left]
  constructor
  · rintro ⟨front, back, hcmd⟩
    -- all characters other than blanks are in the part in the middle
    have hlen := congrArg (fun s => (s.filter (· ≠ ' ')).length) hcmd
    simp only [List.filter_append, List.filter_filter, Bool.and_self,
      List.length_append] at hlen
    refine ⟨front, _, back, hcmd.symm, hblank.mp ?_, by simp, hblank.mp ?_⟩
    · rw [← List.length_eq_zero_iff]
      omega
    · rw [← List.length_eq_zero_iff]
      omega
  · rintro ⟨front, name, back, rfl, hfront, hname, hback⟩
    have hself : name.filter (· ≠ ' ') = name := by
      rw [List.filter_eq_self]
      intro c hc
      simpa using fun h : c = ' ' => hname (h ▸ hc)
    refine ⟨front, back, ?_⟩
    rw [List.filter_append, List.filter_append, hblank.mpr hfront, hself,
      hblank.mpr hback, List.nil_append, List.append_nil]

/-- A name behind `set_` is kept. -/
theorem keepsName_set {name : List Char}
    (hset : ¬ ['s', 'e', 't', '_'] <:+: name) (hblank : ' ' ∉ name) :
    KeepsName (['s', 'e', 't', '_'] ++ name) := by
  refine ⟨name, ⟨name, ⟨?_, hset⟩, ⟨Relation.ReflTransGen.refl, ?_⟩⟩, ?_⟩
  · exact Relation.ReflTransGen.single ⟨[], name, rfl, rfl⟩
  · rwa [List.singleton_infix_iff]
  · exact (List.suffix_append _ name).isInfix

/-- A call of `sendCmd` that takes a line with the command in it from the queue
returns with this line as the response. -/
def AcceptsEcho (cmd : List Char) : Prop :=
  ∀ cmd_timeout id now queue script r,
    (Call.start cmd_timeout id cmd now).loop queue script = some r →
      ∀ line ∈ r.consumed, cmd <:+: line →
        r.out = { success := true, ack := true, resp := line }

/-- A line with the command in it has the key in it as well, and is accepted. -/
structure EchoRecognised (cmd : List Char) : Prop where
  key : ∀ line, cmd <:+: line → commandKey cmd <:+: line
  accepted : AcceptsEcho cmd

namespace Call

/-- A line with the key in it ends the call that takes it. -/
theorem Consumes.out_eq {c : Call} {queue : List (List Char)}
    {script : List Spin} {r : Reply} (h : c.Consumes queue script r)
    {line : List Char} (hline : line ∈ r.consumed) (hkey : c.key <:+: line) :
    r.out = { success := true, ack := true, resp := line } := by
  obtain ⟨⟨success, ack, resp⟩, consumed, left, spins⟩ := r
  cases success with
  | true =>
      obtain ⟨hack, front, hfront, hnone⟩ := h.on_success rfl
      dsimp only at hack hfront hline
      rw [hfront, List.mem_append, List.mem_singleton] at hline
      rcases hline with hmem | rfl
      · exact absurd hkey (hnone line hmem)
      · rw [hack]
  | false => exact absurd hkey ((h.on_timeout rfl).1 line hline)

/-- A call whose only response is a line without the key, and whose deadline
passes behind it. -/
theorem loop_expires {cmd line : List Char} (h : ¬ commandKey cmd <:+: line) :
    (start 0 0 cmd 0).loop [line] [⟨[], 0⟩, ⟨[], 1⟩] =
      some
        { out := { success := false, ack := line ≠ [], resp := line }
          consumed := [line]
          cmd_resp_queue := []
          spins := 2 } := by
  have hmiss : ((start 0 0 cmd 0).iterate [line] 0) = _ :=
    Turn.iterate_eq (Turn.miss h)
  rw [loop_of_running ⟨[], 0⟩ hmiss]
  rfl

end Call

/-- The echo is accepted exactly when the command contains its key. -/
theorem acceptsEcho_iff {cmd : List Char} :
    AcceptsEcho cmd ↔ commandKey cmd <:+: cmd := by
  constructor
  · intro h
    by_contra hkey
    have hout := h 0 0 0 _ _ _ (Call.loop_expires hkey) cmd
      List.mem_cons_self List.infix_rfl
    exact Bool.false_ne_true (congrArg CmdResp.success hout)
  · intro hkey cmd_timeout id now queue script r hloop line hmem hline
    exact (Call.sendCmd_consumes hloop).out_eq hmem (hkey.trans hline)

/-- The echo of a command is recognised exactly when the command comes down to
a part of itself. -/
theorem echoRecognised_iff (cmd : List Char) :
    EchoRecognised cmd ↔ KeepsName cmd := by
  rw [keepsName_iff]
  constructor
  · exact fun h => acceptsEcho_iff.mp h.accepted
  · intro hkey
    exact ⟨fun line hline => hkey.trans hline, acceptsEcho_iff.mpr hkey⟩

/-- `preset_mode` has the key `premode`. -/
theorem preset_mode_not_recognised :
    ¬ EchoRecognised
      ['p', 'r', 'e', 's', 'e', 't', '_', 'm', 'o', 'd', 'e'] := by
  intro h
  have hkey := h.key _ List.infix_rfl
  exact absurd hkey (by decide)

/-- On the command socket: a call for a command that keeps its name returns with
success as soon as it has taken a line that echoes the command. -/
theorem CmdSocket.run_accepts_echo {cmd_timeout : ℤ} {s t u : CmdSocket}
    {es : List CmdEvent} {os ps : List CmdAction} {cmd val : List Char}
    {now now' : ℤ} {id : ℕ} {out : CmdResp} (hcmd : KeepsName cmd)
    (hopen : s.is_open = true)
    (hrun : (machine cmd_timeout).run s (.sendCmd cmd val now :: es) =
      some (t, os))
    (hwaits : ∀ i o, .returned i o ∉ os)
    (hlast : (machine cmd_timeout).step t (.iterate now') = some (u, ps))
    (hout : .returned id out ∈ ps) {line : List Char}
    (hmem : line ∈ popped os ++ popped ps) (hline : cmd <:+: line) :
    out = { success := true, ack := true, resp := line } := by
  obtain ⟨script, r, hconsumes, rfl, -, -, hconsumed, -⟩ :=
    run_consumes hopen hrun hwaits hlast hout
  have hkey := (keepsName_iff.mp hcmd).trans hline
  rw [← hconsumed] at hmem
  exact hconsumes.out_eq hmem hkey

end NorbitDriver
