import NorbitDriver.Transition.Machine

/-!
# Tallies along a run

A tally adds up a number over the steps of a run, each taken at the state in
which its event is met. A quantity of the state that every step moves by what it
tallies is balanced by the tally of the whole run.
-/

namespace Transition

namespace Machine

variable {S E O : Type*}

/-- The sum of `f` over the steps of the run from `s`. -/
def tally (M : Machine S E O) (f : S → E → ℕ) : S → List E → ℕ
  | _, [] => 0
  | s, e :: es => f s e + ((M.step s e).map fun p => M.tally f p.1 es).getD 0

variable (M : Machine S E O) {f : S → E → ℕ}

theorem tally_cons_of_step {s t : S} {e : E} {o : List O}
    (h : M.step s e = some (t, o)) (es : List E) :
    M.tally f s (e :: es) = f s e + M.tally f t es := by
  rw [tally, h]
  rfl

/-- The tally of a run over an appended list splits like the run. -/
theorem tally_append {s t : S} {es : List E} {os : List O}
    (h : M.run s es = some (t, os)) (fs : List E) :
    M.tally f s (es ++ fs) = M.tally f s es + M.tally f t fs := by
  induction es generalizing s os with
  | nil =>
      rw [run_nil_eq_some_iff] at h
      rw [h.1]
      exact (Nat.zero_add _).symm
  | cons e es ih =>
      obtain ⟨u, o, o', hstep, hes, -⟩ := M.run_cons_eq_some_iff.mp h
      rw [List.cons_append, M.tally_cons_of_step hstep,
        M.tally_cons_of_step hstep, ih hes, Nat.add_assoc]

/-- What every step keeps of the state, the events, the observations and the
tally so far is kept by every run. -/
theorem run_tally {I : S → List E → List O → ℕ → Prop}
    (hstep : ∀ s es os n e t o, I s es os n → M.step s e = some (t, o) →
      I t (es ++ [e]) (os ++ o) (n + f s e))
    {s s' : S} {es : List E} {os : List O} (hs : I s [] [] 0)
    (hrun : M.run s es = some (s', os)) : I s' es os (M.tally f s es) := by
  have hrecord := M.run_record
    (I := fun t fs ps => M.run s fs = some (t, ps) ∧ I t fs ps (M.tally f s fs))
    (fun t fs ps e u o hkept _ ht => by
      obtain ⟨hfs, hI⟩ := hkept
      refine ⟨M.run_append_of_eq_some hfs ((M.run_singleton t e).trans ht), ?_⟩
      rw [M.tally_append hfs, M.tally_cons_of_step ht]
      exact hstep t fs ps _ e u o hI ht)
    ⟨rfl, hs⟩ (M.meets_true s es) hrun
  exact hrecord.2

/-- When every step moves `a` by as much as `b` less what it tallies, so does
the run. -/
theorem run_balance {a b : S → ℕ}
    (hstep : ∀ s e t o, M.step s e = some (t, o) →
      a t + f s e + b s = a s + b t)
    {s s' : S} {es : List E} {os : List O}
    (hrun : M.run s es = some (s', os)) :
    a s' + M.tally f s es + b s = a s + b s' :=
  M.run_tally (I := fun t _ _ n => a t + n + b s = a s + b t)
    (fun t _ _ n e u o hkept ht => by
      have hnext := hstep t e u o ht
      omega)
    rfl hrun

/-- A run tallies nothing exactly when none of its steps does. -/
theorem tally_eq_zero_iff {s s' : S} {es : List E} {os : List O}
    (hrun : M.run s es = some (s', os)) :
    M.tally f s es = 0 ↔ M.Meets (fun t e => f t e = 0) s es := by
  induction es generalizing s os with
  | nil => exact iff_of_true rfl trivial
  | cons e es ih =>
      obtain ⟨t, o, o', ht, hes, -⟩ := M.run_cons_eq_some_iff.mp hrun
      rw [M.tally_cons_of_step ht, Nat.add_eq_zero_iff, ih hes]
      refine and_congr_right fun _ => ⟨fun h p hp => ?_, fun h => h _ ht⟩
      obtain rfl := Option.some.inj (ht.symm.trans hp)
      exact h

end Machine

end Transition
