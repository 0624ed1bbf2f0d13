import Mathlib.Data.List.Basic

/-!
# Machines and their runs

A machine answers an event in a state with the next state and the list of
observations made on the way, or refuses the event. `run` feeds it a list of
events and concatenates the observations; a refused event refuses the whole
run, so an accepted run is an execution of the machine.

Two readings of a run are kept apart. `Meets C` says that every step of the run
is taken in a state and on an event that satisfy `C`; it is the form in which
an environment is restricted. `run_record` carries what the steps keep of the
state and of all that has happened along a run that meets such a restriction;
`run_invariant`, `run_observes` and `run_history` are its cases for the state
and for the observations.
-/

namespace Transition

/-- A deterministic machine over states `S`, events `E` and observations `O`. -/
structure Machine (S E O : Type*) where
  step : S → E → Option (S × List O)

namespace Machine

variable {S E O : Type*}

/-- The run of a list of events, with the observations of all its steps. -/
def run (M : Machine S E O) : S → List E → Option (S × List O)
  | s, [] => some (s, [])
  | s, e :: es =>
      (M.step s e).bind fun p =>
        (M.run p.1 es).map fun q => (q.1, p.2 ++ q.2)

/-- Every step of the run from `s` is taken under the restriction `C`. -/
def Meets (M : Machine S E O) (C : S → E → Prop) : S → List E → Prop
  | _, [] => True
  | s, e :: es => C s e ∧ ∀ p, M.step s e = some p → M.Meets C p.1 es

@[simp] theorem run_nil (M : Machine S E O) (s : S) :
    M.run s [] = some (s, []) := rfl

theorem run_nil_eq_some_iff (M : Machine S E O) {s s' : S} {os : List O} :
    M.run s [] = some (s', os) ↔ s = s' ∧ [] = os := by
  rw [run_nil, Option.some.injEq, Prod.mk.injEq]

theorem run_cons_eq_some_iff (M : Machine S E O) {s s' : S} {e : E}
    {es : List E} {os : List O} :
    M.run s (e :: es) = some (s', os) ↔
      ∃ t o o', M.step s e = some (t, o) ∧ M.run t es = some (s', o') ∧
        os = o ++ o' := by
  simp only [run, Option.bind_eq_some_iff, Option.map_eq_some_iff,
    Prod.exists, Prod.mk.injEq]
  constructor
  · rintro ⟨t, o, hstep, t', o', hrun, rfl, rfl⟩
    exact ⟨t, o, o', hstep, hrun, rfl⟩
  · rintro ⟨t, o, o', hstep, hrun, rfl⟩
    exact ⟨t, o, hstep, s', o', hrun, rfl, rfl⟩

/-- A run over an appended list of events splits at the state in between. -/
theorem run_append_eq_some_iff (M : Machine S E O) {s s' : S}
    {es fs : List E} {os : List O} :
    M.run s (es ++ fs) = some (s', os) ↔
      ∃ t o o', M.run s es = some (t, o) ∧ M.run t fs = some (s', o') ∧
        os = o ++ o' := by
  induction es generalizing s os with
  | nil => simp
  | cons e es ih =>
      simp only [List.cons_append, run_cons_eq_some_iff, ih]
      constructor
      · rintro ⟨t, o, o', hstep, ⟨u, p, p', hes, hfs, rfl⟩, rfl⟩
        exact ⟨u, o ++ p, p', ⟨t, o, p, hstep, hes, rfl⟩, hfs,
          (List.append_assoc o p p').symm⟩
      · rintro ⟨u, o, p', ⟨t, q, p, hstep, hes, rfl⟩, hfs, rfl⟩
        exact ⟨t, q, p ++ p', hstep, ⟨u, p, p', hes, hfs, rfl⟩,
          List.append_assoc q p p'⟩

theorem run_append_of_eq_some (M : Machine S E O) {s t s' : S}
    {es fs : List E} {o o' : List O} (hes : M.run s es = some (t, o))
    (hfs : M.run t fs = some (s', o')) :
    M.run s (es ++ fs) = some (s', o ++ o') :=
  M.run_append_eq_some_iff.mpr ⟨t, o, o', hes, hfs, rfl⟩

/-- A run takes a step on each of its events. -/
theorem exists_step_of_mem (M : Machine S E O) {s s' : S} {es : List E}
    {os : List O} {e : E} (he : e ∈ es) (hrun : M.run s es = some (s', os)) :
    ∃ fs gs t u o p q, es = fs ++ e :: gs ∧ M.run s fs = some (t, o) ∧
      M.step t e = some (u, p) ∧ M.run u gs = some (s', q) ∧
      os = o ++ (p ++ q) := by
  obtain ⟨fs, gs, rfl⟩ := List.append_of_mem he
  obtain ⟨t, o, o', hfs, hgs, rfl⟩ := M.run_append_eq_some_iff.mp hrun
  obtain ⟨u, p, q, hstep, hrest, rfl⟩ := M.run_cons_eq_some_iff.mp hgs
  exact ⟨fs, gs, t, u, o, p, q, rfl, hfs, hstep, hrest, rfl⟩

@[simp] theorem run_singleton (M : Machine S E O) (s : S) (e : E) :
    M.run s [e] = M.step s e := by
  cases h : M.step s e <;> simp [run, h]

/-- A restriction on a given run can be checked by running it. -/
instance decidableMeets (M : Machine S E O) {C : S → E → Prop}
    [∀ s e, Decidable (C s e)] : ∀ s es, Decidable (M.Meets C s es)
  | _, [] => isTrue trivial
  | s, e :: es =>
      match h : M.step s e with
      | none => decidable_of_iff (C s e)
          ⟨fun hC => ⟨hC, fun p hp => absurd (h.symm.trans hp) (by simp)⟩,
            And.left⟩
      | some p =>
          have := M.decidableMeets (C := C) p.1 es
          decidable_of_iff (C s e ∧ M.Meets C p.1 es)
            ⟨fun hC => ⟨hC.1, fun q hq => by
                rw [← Option.some.inj (h.symm.trans hq)]
                exact hC.2⟩,
              fun hC => ⟨hC.1, hC.2 p h⟩⟩

/-- The restriction on a run splits like the run. -/
theorem meets_append (M : Machine S E O) {C : S → E → Prop} {s t : S}
    {es fs : List E} {o : List O} (hrun : M.run s es = some (t, o))
    (h : M.Meets C s (es ++ fs)) : M.Meets C s es ∧ M.Meets C t fs := by
  induction es generalizing s o with
  | nil =>
      rw [run_nil_eq_some_iff] at hrun
      obtain ⟨rfl, -⟩ := hrun
      exact ⟨trivial, h⟩
  | cons e es ih =>
      obtain ⟨u, o₁, o₂, hstep, hes, -⟩ := M.run_cons_eq_some_iff.mp hrun
      obtain ⟨hC, hrest⟩ := h
      obtain ⟨-, hfs⟩ := ih hes (hrest (u, o₁) hstep)
      refine ⟨⟨hC, fun p hp => ?_⟩, hfs⟩
      have hp' : p = (u, o₁) := by
        rw [hstep] at hp
        exact (Option.some.inj hp).symm
      subst hp'
      exact (ih hes (hrest _ hstep)).1

/-- A restriction on the events alone is met by a list of such events. -/
theorem meets_of_forall (M : Machine S E O) {C : E → Prop} {es : List E}
    (h : ∀ e ∈ es, C e) (s : S) : M.Meets (fun _ e => C e) s es := by
  induction es generalizing s with
  | nil => trivial
  | cons e es ih =>
      exact ⟨h e List.mem_cons_self, fun p _ =>
        ih (fun e' he' => h e' (List.mem_cons_of_mem e he')) p.1⟩

/-- The run without a restriction meets the trivial one. -/
theorem meets_true (M : Machine S E O) (s : S) (es : List E) :
    M.Meets (fun _ _ => True) s es :=
  M.meets_of_forall (fun _ _ => trivial) s

/-- What every step that meets `C` keeps of the state, the events and the
observations so far is kept by every run that meets `C`. -/
theorem run_record (M : Machine S E O) {C : S → E → Prop}
    {I : S → List E → List O → Prop}
    (hstep : ∀ s es os e t o, I s es os → C s e → M.step s e = some (t, o) →
      I t (es ++ [e]) (os ++ o))
    {s s' : S} {es : List E} {os : List O} (hs : I s [] [])
    (hC : M.Meets C s es) (hrun : M.run s es = some (s', os)) :
    I s' es os := by
  -- what has happened before the rest of the run grows with every step
  have hrest : ∀ fs ps, I s fs ps → I s' (fs ++ es) (ps ++ os) := by
    clear hs
    induction es generalizing s os with
    | nil =>
        intro fs ps hkept
        rw [run_nil_eq_some_iff] at hrun
        obtain ⟨rfl, rfl⟩ := hrun
        rw [List.append_nil, List.append_nil]
        exact hkept
    | cons e es ih =>
        intro fs ps hkept
        obtain ⟨t, o, o', ht, hes, rfl⟩ := M.run_cons_eq_some_iff.mp hrun
        rw [List.append_cons, ← List.append_assoc]
        exact ih (hC.2 (t, o) ht) hes _ _ (hstep s fs ps e t o hkept hC.1 ht)
  exact hrest [] [] hs

/-- A state property kept by every step that meets `C` is kept by every run
that meets `C`. -/
theorem run_invariant (M : Machine S E O) {C : S → E → Prop} {I : S → Prop}
    (hstep : ∀ s e t o, I s → C s e → M.step s e = some (t, o) → I t)
    {s s' : S} {es : List E} {os : List O} (hs : I s) (hC : M.Meets C s es)
    (hrun : M.run s es = some (s', os)) : I s' :=
  M.run_record (I := fun s _ _ => I s) (fun s _ _ e t o => hstep s e t o) hs hC
    hrun

/-- Events that are accepted in every state with an invariant that they keep
make a run. -/
theorem exists_run (M : Machine S E O) {C : E → Prop} {I : S → Prop}
    (hstep : ∀ s e, I s → C e → ∃ t o, M.step s e = some (t, o) ∧ I t)
    {s : S} {es : List E} (hs : I s) (hes : ∀ e ∈ es, C e) :
    ∃ t os, M.run s es = some (t, os) ∧ I t := by
  induction es generalizing s with
  | nil => exact ⟨s, [], rfl, hs⟩
  | cons e es ih =>
      obtain ⟨he, hes⟩ := List.forall_mem_cons.mp hes
      obtain ⟨u, o, hu, hI⟩ := hstep s e hs he
      obtain ⟨t, os, ht, hIt⟩ := ih hI hes
      exact ⟨t, o ++ os,
        M.run_cons_eq_some_iff.mpr ⟨u, o, os, hu, ht, rfl⟩, hIt⟩

/-- A property of observations that every step from an invariant state
guarantees holds of all observations of a run. -/
theorem run_observes (M : Machine S E O) {C : S → E → Prop} {I : S → Prop}
    {P : O → Prop}
    (hstep : ∀ s e t o, I s → C s e → M.step s e = some (t, o) →
      I t ∧ ∀ a ∈ o, P a)
    {s s' : S} {es : List E} {os : List O} (hs : I s) (hC : M.Meets C s es)
    (hrun : M.run s es = some (s', os)) : ∀ a ∈ os, P a := by
  have hrecord := M.run_record (I := fun s _ os => I s ∧ ∀ a ∈ os, P a)
    (fun s _ _ e t o hkept hC ht => by
      obtain ⟨hI, hP⟩ := hstep s e t o hkept.1 hC ht
      exact ⟨hI, List.forall_mem_append.mpr ⟨hkept.2, hP⟩⟩)
    ⟨hs, fun _ ha => absurd ha List.not_mem_nil⟩ hC hrun
  exact hrecord.2

/-- A property of the state and of all observations so far that every step keeps
is kept by every run. -/
theorem run_history (M : Machine S E O) {I : S → List O → Prop}
    (hstep : ∀ s os e t o, I s os → M.step s e = some (t, o) → I t (os ++ o))
    {s s' : S} {es : List E} {os : List O} (hs : I s [])
    (hrun : M.run s es = some (s', os)) : I s' os :=
  M.run_record (I := fun s _ os => I s os)
    (fun s _ os e t o hkept _ ht => hstep s os e t o hkept ht) hs
    (M.meets_true s es) hrun

/-- A run that has been accepted takes a step behind each of its prefixes. -/
theorem exists_step_behind (M : Machine S E O) {s s' t : S} {es fs : List E}
    {e : E} {os ps : List O} (hrun : M.run s es = some (s', os))
    (hfs : fs ++ [e] <+: es) (hps : M.run s fs = some (t, ps)) :
    ∃ u o, M.step t e = some (u, o) := by
  obtain ⟨gs, rfl⟩ := hfs
  rw [List.append_assoc] at hrun
  obtain ⟨t', o₁, o₂, hfs, hrest, -⟩ := M.run_append_eq_some_iff.mp hrun
  obtain ⟨rfl, rfl⟩ := Prod.mk.inj (Option.some.inj (hps.symm.trans hfs))
  obtain ⟨u, o, o', hstep, -, -⟩ := M.run_cons_eq_some_iff.mp hrest
  exact ⟨u, o, hstep⟩

/-- What a run observes is observed by one of its steps. -/
theorem mem_run_iff (M : Machine S E O) {s s' : S} {es : List E} {os : List O}
    (hrun : M.run s es = some (s', os)) (a : O) :
    a ∈ os ↔ ∃ fs e t ps u o, fs ++ [e] <+: es ∧ M.run s fs = some (t, ps) ∧
      M.step t e = some (u, o) ∧ a ∈ o := by
  constructor
  · intro ha
    induction es generalizing s os with
    | nil =>
        rw [run_nil_eq_some_iff] at hrun
        simp [← hrun.2] at ha
    | cons e es ih =>
        obtain ⟨t, o, o', ht, hes, rfl⟩ := M.run_cons_eq_some_iff.mp hrun
        rcases List.mem_append.mp ha with hmem | hmem
        · refine ⟨[], e, s, [], t, o, ?_, rfl, ht, hmem⟩
          exact List.cons_prefix_cons.mpr ⟨rfl, List.nil_prefix⟩
        · obtain ⟨fs, e', u, ps, v, q, hfs, hps, hq, haq⟩ := ih hes hmem
          refine ⟨e :: fs, e', u, o ++ ps, v, q, ?_, ?_, hq, haq⟩
          · exact List.cons_prefix_cons.mpr ⟨rfl, hfs⟩
          · exact M.run_cons_eq_some_iff.mpr ⟨t, o, ps, ht, hps, rfl⟩
  · rintro ⟨fs, e, t, ps, u, o, ⟨gs, rfl⟩, hps, ho, ha⟩
    rw [List.append_assoc] at hrun
    obtain ⟨t', o₁, o₂, hfs, hrest, rfl⟩ := M.run_append_eq_some_iff.mp hrun
    obtain ⟨rfl, rfl⟩ := Prod.mk.inj (Option.some.inj (hps.symm.trans hfs))
    obtain ⟨v, q, q', hstep, -, rfl⟩ := M.run_cons_eq_some_iff.mp hrest
    obtain ⟨-, rfl⟩ := Prod.mk.inj (Option.some.inj (ho.symm.trans hstep))
    simp [ha]

/-- The run of `es` from `s` passes through the state `t`. -/
def Passes (M : Machine S E O) (s : S) (es : List E) (t : S) : Prop :=
  ∃ fs os, fs <+: es ∧ M.run s fs = some (t, os)

/-- A restriction is met when it holds at every event of the run, in the state
in which the event is taken. -/
theorem meets_of_forall_split (M : Machine S E O) {C : S → E → Prop} {s : S}
    {es : List E}
    (h : ∀ fs e t os, fs ++ [e] <+: es → M.run s fs = some (t, os) → C t e) :
    M.Meets C s es := by
  induction es generalizing s with
  | nil => trivial
  | cons e es ih =>
      refine ⟨h [] e s [] ⟨es, rfl⟩ rfl, fun p hp => ih ?_⟩
      intro fs e' t os hfs hrun
      refine h (e :: fs) e' t (p.2 ++ os) ?_ ?_
      · exact List.cons_prefix_cons.mpr ⟨rfl, hfs⟩
      · exact M.run_cons_eq_some_iff.mpr ⟨p.1, p.2, os, hp, hrun, rfl⟩

/-- The restriction holds at every event of a run that meets it. -/
theorem Meets.at_split {M : Machine S E O} {C : S → E → Prop} {s t : S}
    {es fs : List E} {e : E} {os : List O} (h : M.Meets C s es)
    (hfs : fs ++ [e] <+: es) (hrun : M.run s fs = some (t, os)) : C t e := by
  obtain ⟨gs, rfl⟩ := hfs
  rw [List.append_assoc] at h
  exact (M.meets_append hrun h).2.1

end Machine

end Transition
