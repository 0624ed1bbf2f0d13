import Mathlib.Logic.Function.Basic
import NorbitDriver.Transition.Machine

/-!
# Interleaving independent machines

`interleave M` puts a family of machines side by side: an event carries the
index of the machine that handles it, and no step touches the state of another
machine. The order of the events is arbitrary, so a run of the interleaving is
one schedule of the components.

The projection theorem says that a schedule gives each component exactly the
run over its own events, and the converse that a schedule is accepted as soon
as every component accepts its own events.
-/

namespace Transition

variable {ι : Type*} [DecidableEq ι]

/-- The entries of a tagged list that carry the tag `i`, in order. -/
def restrict {A : ι → Type*} (i : ι) (l : List (Σ j, A j)) : List (A i) :=
  l.filterMap fun x => if h : x.1 = i then some (h ▸ x.2) else none

@[simp] theorem restrict_nil {A : ι → Type*} (i : ι) :
    restrict i ([] : List (Σ j, A j)) = [] := rfl

@[simp] theorem restrict_cons_self {A : ι → Type*} (i : ι) (a : A i)
    (l : List (Σ j, A j)) : restrict i (⟨i, a⟩ :: l) = a :: restrict i l := by
  simp [restrict]

theorem restrict_cons_of_ne {A : ι → Type*} {i : ι} {x : Σ j, A j}
    (h : x.1 ≠ i) (l : List (Σ j, A j)) :
    restrict i (x :: l) = restrict i l := by
  simp [restrict, h]

@[simp] theorem restrict_append {A : ι → Type*} (i : ι)
    (l k : List (Σ j, A j)) :
    restrict i (l ++ k) = restrict i l ++ restrict i k :=
  List.filterMap_append

@[simp] theorem restrict_map_self {A : ι → Type*} (i : ι) (l : List (A i)) :
    restrict i (l.map (Sigma.mk i)) = l := by
  induction l with
  | nil => rfl
  | cons a l ih => rw [List.map_cons, restrict_cons_self, ih]

theorem restrict_map_of_ne {A : ι → Type*} {i j : ι} (h : j ≠ i)
    (l : List (A j)) : restrict i (l.map (Sigma.mk j)) = [] := by
  induction l with
  | nil => rfl
  | cons a l ih => rw [List.map_cons, restrict_cons_of_ne h, ih]

theorem mem_restrict {A : ι → Type*} {i : ι} {a : A i}
    {l : List (Σ j, A j)} : a ∈ restrict i l ↔ (⟨i, a⟩ : Σ j, A j) ∈ l := by
  induction l with
  | nil => simp
  | cons x l ih =>
      obtain ⟨j, b⟩ := x
      by_cases h : j = i
      · subst h
        simp [ih]
      · rw [restrict_cons_of_ne h, ih, List.mem_cons]
        constructor
        · exact Or.inr
        · rintro (heq | hmem)
          · exact absurd (congrArg Sigma.fst heq).symm h
          · exact hmem

namespace Machine

variable {S E O : ι → Type*}

/-- The machines of a family side by side: each event is handled by the machine
it is addressed to, and leaves the states of the others alone. -/
def interleave (M : ∀ i, Machine (S i) (E i) (O i)) :
    Machine (∀ i, S i) (Σ i, E i) (Σ i, O i) where
  step s e :=
    ((M e.1).step (s e.1) e.2).map fun p =>
      (Function.update s e.1 p.1, p.2.map (Sigma.mk e.1))

theorem interleave_step_eq_some_iff (M : ∀ i, Machine (S i) (E i) (O i))
    {s s' : ∀ i, S i} {i : ι} {e : E i} {os : List (Σ j, O j)} :
    (interleave M).step s ⟨i, e⟩ = some (s', os) ↔
      ∃ t o, (M i).step (s i) e = some (t, o) ∧
        s' = Function.update s i t ∧ os = o.map (Sigma.mk i) := by
  simp only [interleave, Option.map_eq_some_iff, Prod.exists, Prod.mk.injEq]
  constructor
  · rintro ⟨t, o, hstep, rfl, rfl⟩
    exact ⟨t, o, hstep, rfl, rfl⟩
  · rintro ⟨t, o, hstep, rfl, rfl⟩
    exact ⟨t, o, hstep, rfl, rfl⟩

/-- Projection: in every schedule each component makes the run over its own
events, with its own observations. -/
theorem run_restrict (M : ∀ i, Machine (S i) (E i) (O i))
    {s s' : ∀ i, S i} {es : List (Σ i, E i)} {os : List (Σ i, O i)}
    (hrun : (interleave M).run s es = some (s', os)) (i : ι) :
    (M i).run (s i) (restrict i es) = some (s' i, restrict i os) := by
  induction es generalizing s os with
  | nil =>
      rw [run_nil_eq_some_iff] at hrun
      obtain ⟨rfl, rfl⟩ := hrun
      rfl
  | cons x es ih =>
      obtain ⟨j, e⟩ := x
      obtain ⟨t, o, o', hstep, hes, rfl⟩ :=
        (interleave M).run_cons_eq_some_iff.mp hrun
      obtain ⟨u, p, hu, rfl, rfl⟩ := (interleave_step_eq_some_iff M).mp hstep
      have hrest := ih hes
      by_cases hj : j = i
      · subst hj
        rw [Function.update_self] at hrest
        rw [restrict_cons_self, restrict_append, restrict_map_self]
        exact (M j).run_cons_eq_some_iff.mpr ⟨u, p, _, hu, hrest, rfl⟩
      · rw [Function.update_of_ne (Ne.symm hj)] at hrest
        rw [restrict_cons_of_ne hj, restrict_append, restrict_map_of_ne hj,
          List.nil_append]
        exact hrest

/-- A schedule is accepted when every component accepts its own events. -/
theorem interleave_run_isSome (M : ∀ i, Machine (S i) (E i) (O i))
    {s : ∀ i, S i} {es : List (Σ i, E i)}
    (h : ∀ i, ((M i).run (s i) (restrict i es)).isSome) :
    ((interleave M).run s es).isSome := by
  induction es generalizing s with
  | nil => rfl
  | cons x es ih =>
      obtain ⟨j, e⟩ := x
      have hj := h j
      rw [restrict_cons_self] at hj
      obtain ⟨⟨t, o⟩, hrun⟩ := Option.isSome_iff_exists.mp hj
      obtain ⟨u, p, p', hstep, hrest, -⟩ := (M j).run_cons_eq_some_iff.mp hrun
      have hnext : ((interleave M).run (Function.update s j u) es).isSome := by
        apply ih
        intro i
        by_cases hij : i = j
        · subst hij
          rw [Function.update_self, hrest]
          rfl
        · have hi := h i
          rw [restrict_cons_of_ne (Ne.symm hij)] at hi
          rw [Function.update_of_ne hij]
          exact hi
      obtain ⟨⟨v, q⟩, hv⟩ := Option.isSome_iff_exists.mp hnext
      have hhead : (interleave M).step s ⟨j, e⟩ =
          some (Function.update s j u, p.map (Sigma.mk j)) :=
        (interleave_step_eq_some_iff M).mpr ⟨u, p, hstep, rfl, rfl⟩
      have hwhole := (interleave M).run_cons_eq_some_iff.mpr
        ⟨_, _, _, hhead, hv, rfl⟩
      rw [hwhole]
      rfl

end Machine

end Transition
