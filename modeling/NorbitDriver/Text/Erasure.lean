import Mathlib.Logic.Relation
import NorbitDriver.Text.Substring

/-!
# Erasing the occurrences of a pattern

An occurrence of a pattern is cut out of a text and the two sides are joined,
which can make an occurrence across the seam. `Erases p` is one such cut, at
any occurrence, and a `Residue` is what is left when no occurrence is.

Two occurrences of a pattern without a border do not overlap. Cutting one of
them out leaves the other where it was, so the order in which occurrences are
erased makes no difference and a text has one residue.
-/

namespace Text

variable {α : Type*} {p s t u r : List α}

/-- One occurrence of `p` is cut out of `s`. -/
def Erases (p s t : List α) : Prop :=
  ∃ front back, s = front ++ p ++ back ∧ t = front ++ back

/-- What is left of `s` when occurrences of `p` are cut out one after the other
until there is none. -/
structure Residue (p s r : List α) : Prop where
  erases : Relation.ReflTransGen (Erases p) s r
  free : ¬ p <:+: r

/-- No part of `p` but the empty one and `p` itself stands both at its start and
at its end. -/
def Borderless (p : List α) : Prop :=
  ∀ b, b <+: p → b <:+ p → b = [] ∨ b = p

instance decidableBorderless [DecidableEq α] (p : List α) :
    Decidable (Borderless p) :=
  decidable_of_iff (∀ b ∈ p.inits, b <:+ p → b = [] ∨ b = p)
    (by simp only [List.mem_inits, Borderless])

/-- A pattern of one character has no border. -/
theorem borderless_singleton (c : α) : Borderless [c] := by
  intro b hstart _
  cases b with
  | nil => exact Or.inl rfl
  | cons d b =>
      rw [List.cons_prefix_cons, List.prefix_nil] at hstart
      rw [hstart.1, hstart.2]
      exact Or.inr rfl

theorem Erases.length (h : Erases p s t) : t.length + p.length = s.length := by
  obtain ⟨front, back, rfl, rfl⟩ := h
  simp only [List.length_append]
  omega

theorem Erases.sublist (h : Erases p s t) : t.Sublist s := by
  obtain ⟨front, back, rfl, rfl⟩ := h
  exact (List.sublist_append_left front p).append_right back

/-- An occurrence can be erased exactly when there is one. -/
theorem exists_erases_iff : (∃ t, Erases p s t) ↔ p <:+: s := by
  constructor
  · rintro ⟨t, front, back, hs, -⟩
    exact ⟨front, back, hs.symm⟩
  · rintro ⟨front, back, hs⟩
    exact ⟨front ++ back, front, back, hs.symm, rfl⟩

/-- Erasing works in the same way behind more text. -/
theorem Erases.cons (c : α) (h : Erases p s t) :
    Erases p (c :: s) (c :: t) := by
  obtain ⟨front, back, rfl, rfl⟩ := h
  exact ⟨c :: front, back, rfl, rfl⟩

/-- Cutting out what `find` has found. -/
theorem erases_of_find {p s : List Char} {i : ℕ} (h : find p s = some i) :
    Erases p s (erase s i p.length) := by
  have hhere : ∀ {s : List Char}, p <+: s →
      Erases p s (erase s 0 p.length) := by
    rintro s ⟨back, rfl⟩
    refine ⟨[], back, rfl, ?_⟩
    rw [erase, List.take_zero, Nat.zero_add, List.drop_left]
  induction s generalizing i with
  | nil =>
      rw [find] at h
      by_cases hp : p = []
      · rw [if_pos hp, Option.some.injEq] at h
        rw [← h]
        exact hhere (hp ▸ List.nil_prefix)
      · rw [if_neg hp] at h
        exact absurd h (by simp)
  | cons c cs ih =>
      rw [find] at h
      by_cases hp : p <+: c :: cs
      · rw [if_pos hp, Option.some.injEq] at h
        rw [← h]
        exact hhere hp
      · rw [if_neg hp, Option.map_eq_some_iff] at h
        obtain ⟨j, hj, rfl⟩ := h
        have hbehind := (ih hj).cons c
        rwa [erase, Nat.add_right_comm, List.take_succ_cons,
          List.drop_succ_cons]

theorem sublist_of_erases (h : Relation.ReflTransGen (Erases p) s r) :
    r.Sublist s := by
  induction h with
  | refl => exact List.Sublist.refl s
  | tail _ hstep ih => exact hstep.sublist.trans ih

/-- Nothing can be erased from a text without an occurrence. -/
theorem eq_of_erases_of_free (hs : ¬ p <:+: s)
    (h : Relation.ReflTransGen (Erases p) s r) : r = s := by
  induction h with
  | refl => rfl
  | tail _ hstep ih =>
      rw [ih] at hstep
      exact absurd (exists_erases_iff.mp ⟨_, hstep⟩) hs

/-- Where two occurrences of a pattern without a border start at different
places, the first ends before the second starts. -/
theorem Borderless.separate (hp : Borderless p) {x back back' : List α}
    (hx : x ≠ []) (h : p ++ back = x ++ (p ++ back')) :
    ∃ gap, x = p ++ gap ∧ back = gap ++ (p ++ back') := by
  rcases List.append_eq_append_iff.mp h with
    ⟨gap, hgap, hback⟩ | ⟨y, hy, hrest⟩
  · exact ⟨gap, hgap, hback⟩
  -- the pattern is `x` followed by `y`, which it starts with again
  · have hend : y <:+ p := ⟨x, hy.symm⟩
    have hlen : y.length ≤ p.length := hend.length_le
    have hstart : y <+: p :=
      List.prefix_of_prefix_length_le ⟨back, hrest.symm⟩
        (List.prefix_append p back') hlen
    rcases hp y hstart hend with hnil | hself
    · rw [hnil, List.append_nil] at hy
      rw [hnil, List.nil_append] at hrest
      refine ⟨[], ?_, ?_⟩
      · rw [List.append_nil, hy]
      · rw [List.nil_append, hrest]
    · rw [hself] at hy
      exact absurd (List.self_eq_append_left.mp hy) hx

/-- Two ways to erase an occurrence are the same, or each leaves the other. -/
theorem Erases.diamond (hp : Borderless p) (ht : Erases p s t)
    (hu : Erases p s u) : t = u ∨ ∃ r, Erases p t r ∧ Erases p u r := by
  -- the occurrence that is further in front is erased first or second
  have hdisjoint : ∀ (front : List α) {x back back' : List α}, x ≠ [] →
      p ++ back = x ++ (p ++ back') →
      ∃ r, Erases p (front ++ back) r ∧ Erases p (front ++ x ++ back') r := by
    intro front x back back' hx h
    obtain ⟨gap, rfl, rfl⟩ := hp.separate hx h
    refine ⟨front ++ gap ++ back', ⟨front ++ gap, back', ?_, rfl⟩,
      ⟨front, gap ++ back', ?_, ?_⟩⟩
    · simp only [List.append_assoc]
    · simp only [List.append_assoc]
    · rw [List.append_assoc]
  obtain ⟨front, back, rfl, rfl⟩ := ht
  obtain ⟨front', back', hs, rfl⟩ := hu
  rw [List.append_assoc, List.append_assoc] at hs
  rcases List.append_eq_append_iff.mp hs with ⟨x, rfl, h⟩ | ⟨x, rfl, h⟩
  · by_cases hx : x = []
    · rw [hx, List.nil_append, List.append_cancel_left_eq] at h
      rw [hx, List.append_nil, h]
      exact Or.inl rfl
    · exact Or.inr (hdisjoint front hx h)
  · by_cases hx : x = []
    · rw [hx, List.nil_append, List.append_cancel_left_eq] at h
      rw [hx, List.append_nil, h]
      exact Or.inl rfl
    · obtain ⟨r, h₁, h₂⟩ := hdisjoint front' hx h
      exact Or.inr ⟨r, h₂, h₁⟩

/-- A text has one residue, in whatever order the occurrences of a pattern
without a border are erased. -/
theorem Residue.unique (hp : Borderless p) {r' : List α}
    (h : Residue p s r) (h' : Residue p s r') : r = r' := by
  have hjoin : Relation.Join (Relation.ReflTransGen (Erases p)) r r' := by
    refine Relation.church_rosser ?_ h.erases h'.erases
    intro s t u ht hu
    rcases ht.diamond hp hu with rfl | ⟨w, hw, hw'⟩
    · exact ⟨t, Relation.ReflGen.refl, Relation.ReflTransGen.refl⟩
    · exact ⟨w, Relation.ReflGen.single hw, Relation.ReflTransGen.single hw'⟩
  obtain ⟨w, hw, hw'⟩ := hjoin
  rw [← eq_of_erases_of_free h.free hw, eq_of_erases_of_free h'.free hw']

/-- What is left when single characters are erased. -/
theorem Residue.eq_filter [DecidableEq α] {c : α} (h : Residue [c] s r) :
    r = s.filter (· ≠ c) := by
  have hkept : r.filter (· ≠ c) = s.filter (· ≠ c) := by
    obtain ⟨herases, -⟩ := h
    induction herases with
    | refl => rfl
    | tail _ hstep ih =>
        obtain ⟨front, back, rfl, rfl⟩ := hstep
        rw [← ih]
        simp
  have hfree : ∀ a ∈ r, (decide (a ≠ c)) = true := by
    intro a ha
    rw [decide_eq_true_iff]
    rintro rfl
    exact h.free ((List.singleton_infix_iff a r).mpr ha)
  rw [← hkept, List.filter_eq_self.mpr hfree]

end Text
