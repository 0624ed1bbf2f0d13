import NorbitDriver.Transition.Tally
import Mathlib.Algebra.Ring.Nat

/-!
# Simulations

A machine is simulated by another one when every step of it is answered by a run
of the other over the translated event. The answers to the steps of a run make
up the answer to the run. The relation that is kept may look at what both
machines have observed, so a simulation can compare the observations as well.
-/

namespace Transition

namespace Machine

variable {S E O T F P : Type*}

/-- When every step of `N` that meets `C` is answered by a run of `M` over the
translated event, so is every run of `N` that meets `C`. -/
theorem run_simulates (N : Machine S E O) (M : Machine T F P)
    (translate : E → List F) {C : S → E → Prop}
    {R : S → List O → T → List P → Prop}
    (hstep : ∀ s os t ps e s' o, R s os t ps → C s e →
      N.step s e = some (s', o) →
        ∃ t' p, M.run t (translate e) = some (t', p) ∧
          R s' (os ++ o) t' (ps ++ p))
    {s s' : S} {t : T} {es : List E} {os : List O} (hs : R s [] t [])
    (hC : N.Meets C s es) (hrun : N.run s es = some (s', os)) :
    ∃ t' ps, M.run t (es.flatMap translate) = some (t', ps) ∧
      R s' os t' ps := by
  refine N.run_record (I := fun s es os => ∃ t' ps,
    M.run t (es.flatMap translate) = some (t', ps) ∧ R s os t' ps)
    (fun u fs qs e v o hkept hCe ht => ?_) ⟨t, [], rfl, hs⟩ hC hrun
  obtain ⟨w, ps, hfs, hR⟩ := hkept
  obtain ⟨w', p, he, hR'⟩ := hstep u qs w ps e v o hR hCe ht
  refine ⟨w', ps ++ p, ?_, hR'⟩
  rw [List.flatMap_append, List.flatMap_singleton]
  exact M.run_append_of_eq_some hfs he

/-- When every answer that begins in a state with `J` ends in one and tallies
`g`, the answer to a list of events tallies the sum. -/
theorem tally_flatMap (M : Machine T F P) (translate : E → List F)
    {J : T → Prop} {f : T → F → ℕ} {g : E → ℕ}
    (hanswer : ∀ t e t' ps, J t → M.run t (translate e) = some (t', ps) →
      J t' ∧ M.tally f t (translate e) = g e)
    {t t' : T} {es : List E} {ps : List P} (ht : J t)
    (hrun : M.run t (es.flatMap translate) = some (t', ps)) :
    M.tally f t (es.flatMap translate) = (es.map g).sum := by
  induction es generalizing t ps with
  | nil => rfl
  | cons e es ih =>
      rw [List.flatMap_cons] at hrun ⊢
      obtain ⟨u, p, q, he, hes, -⟩ := M.run_append_eq_some_iff.mp hrun
      obtain ⟨hu, hg⟩ := hanswer t e u p ht he
      rw [M.tally_append he, hg, ih hu hes, List.map_cons, List.sum_cons]

end Machine

end Transition
