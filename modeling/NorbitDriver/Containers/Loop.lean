import Mathlib.Data.List.Basic

/-!
# Counting loops over growing arrays

`resize` is the operation of a growing array that keeps the elements it has and
appends copies of a default value. A loop that assigns the entries of an array
one after another is a fold over `List.range`; after `k` turns the array is
`fill k f l`, with the first `k` entries assigned and the others untouched, and
after as many turns as the array is long nothing is left of its earlier
contents.
-/

namespace Containers

variable {α β σ : Type*}

/-- Cuts an array to `n` elements, or extends it with copies of `a`. -/
def resize (l : List α) (n : ℕ) (a : α) : List α :=
  l.take n ++ List.replicate (n - l.length) a

@[simp] theorem length_resize (l : List α) (n : ℕ) (a : α) :
    (resize l n a).length = n := by
  rw [resize, List.length_append, List.length_take, List.length_replicate]
  rcases Nat.le_total n l.length with h | h
  · rw [Nat.min_eq_left h, Nat.sub_eq_zero_of_le h, Nat.add_zero]
  · rw [Nat.min_eq_right h, Nat.add_sub_cancel' h]

/-- An array whose first `k` entries have been assigned. -/
def fill (k : ℕ) (f : ℕ → α) (l : List α) : List α :=
  (List.range k).map f ++ l.drop k

/-- Assigning the entry behind the assigned ones. -/
theorem set_fill {k : ℕ} {l : List α} (f : ℕ → α) (h : k < l.length) :
    (fill k f l).set k (f k) = fill (k + 1) f l := by
  have hlen : ((List.range k).map f).length = k := by
    rw [List.length_map, List.length_range]
  rw [fill, fill, List.set_append_right _ _ (Nat.le_of_eq hlen), hlen,
    Nat.sub_self, List.drop_eq_getElem_cons h, List.set_cons_zero,
    List.range_succ, List.map_append, List.append_assoc]
  rfl

/-- A completely assigned array. -/
theorem fill_length {n : ℕ} {l : List α} (f : ℕ → α) (h : l.length = n) :
    fill n f l = (List.range n).map f := by
  rw [fill, ← h, List.drop_length, List.append_nil]

/-- Copying an array entry by entry. -/
theorem map_getD_range (l : List α) (a : α) :
    (List.range l.length).map (fun i => l.getD i a) = l := by
  apply List.ext_getElem
  · rw [List.length_map, List.length_range]
  · intro i hi hl
    rw [List.getElem_map, List.getElem_range]
    rw [List.getD_eq_getElem?_getD, List.getElem?_eq_getElem hl]
    rfl

/-- A counting loop that may fail goes through the states `state 0`, `state 1`
and so on when every turn takes it from one to the next. -/
theorem foldlM_range_eq_some {n : ℕ} (body : σ → ℕ → Option σ) (state : ℕ → σ)
    (h : ∀ i < n, body (state i) i = some (state (i + 1))) :
    (List.range n).foldlM body (state 0) = some (state n) := by
  induction n with
  | zero => rfl
  | succ n ih =>
      have hfront := ih fun i hi => h i (Nat.lt_succ_of_lt hi)
      rw [List.range_succ, List.foldlM_append, hfront]
      change (List.foldlM body (state n) [n] : Option σ) = _
      rw [List.foldlM_cons, h n (Nat.lt_succ_self n)]
      rfl

/-- A counting loop that comes to its end has taken every turn. -/
theorem exists_turn_of_foldlM {n : ℕ} {body : σ → ℕ → Option σ} {s t : σ}
    (h : (List.range n).foldlM body s = some t) {i : ℕ} (hi : i < n) :
    ∃ u v, body u i = some v := by
  induction n generalizing t with
  | zero => exact absurd hi (Nat.not_lt_zero i)
  | succ n ih =>
      rw [List.range_succ, List.foldlM_append] at h
      obtain ⟨u, hfront, hlast⟩ := Option.bind_eq_some_iff.mp h
      rcases Nat.lt_succ_iff_lt_or_eq.mp hi with hlt | rfl
      · exact ih hfront hlt
      · rw [List.foldlM_cons] at hlast
        obtain ⟨v, hv, -⟩ := Option.bind_eq_some_iff.mp hlast
        exact ⟨u, v, hv⟩

/-- An array of default values stays one. -/
theorem resize_replicate (m n : ℕ) (a : α) :
    resize (List.replicate m a) n a = List.replicate n a := by
  rw [resize, List.take_replicate, List.length_replicate,
    List.replicate_append_replicate]
  congr 1
  omega

/-- An array whose first `k` entries have been overwritten with those of
another. -/
def copied (k : ℕ) (new old : List α) : List α :=
  new.take k ++ old.drop k

/-- Overwriting the entry behind the overwritten ones. -/
theorem set_copied {k : ℕ} {new old : List α} {a : α} (ha : new[k]? = some a)
    (hk : k < old.length) :
    (copied k new old).set k a = copied (k + 1) new old := by
  have hlt : k < new.length := (List.getElem?_eq_some_iff.mp ha).1
  have hlen : (new.take k).length = k :=
    List.length_take_of_le (Nat.le_of_lt hlt)
  rw [copied, copied, List.set_append_right _ _ (Nat.le_of_eq hlen), hlen,
    Nat.sub_self, List.drop_eq_getElem_cons hk, List.set_cons_zero,
    List.take_add_one, ha, Option.toList_some, List.append_assoc]
  rfl

/-- An array that is overwritten to its end. -/
theorem copied_length {n : ℕ} {new old : List α} (hnew : new.length = n)
    (hold : old.length = n) : copied n new old = new := by
  rw [copied, ← hnew, List.take_length, hnew, ← hold, List.drop_length,
    List.append_nil]

/-- Overwriting an entry of a resized array with what a function makes of the
entry of another. -/
theorem set_copied_map {k n : ℕ} {l : List β} {b : β} (f : β → α)
    (hb : l[k]? = some b) (hk : k < n) (old : List α) (a : α) :
    (copied k ((l.take n).map f) (resize old n a)).set k (f b) =
      copied (k + 1) ((l.take n).map f) (resize old n a) := by
  apply set_copied
  · rw [List.getElem?_map, List.getElem?_take_of_lt hk, hb]
    rfl
  · rwa [length_resize]

/-- After the last entry, nothing is left of the resized array. -/
theorem copied_map {n : ℕ} {l : List β} (f : β → α) (h : n ≤ l.length)
    (old : List α) (a : α) :
    copied n ((l.take n).map f) (resize old n a) = (l.take n).map f := by
  apply copied_length
  · rw [List.length_map, List.length_take_of_le h]
  · exact length_resize old n a

end Containers
