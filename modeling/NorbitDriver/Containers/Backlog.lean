import Mathlib.Algebra.BigOperators.Intervals

/-!
# The backlog of a queue

A queue that starts with `q` entries, gets `a k` entries in turn `k` and then
gives one away if it has any. `backlog q a k` is its length in front of turn
`k`. The queue is empty in a turn exactly when the entries that have arrived by
then, counted from the start or from any later turn, are no more than the turns
that could have taken them.
-/

namespace Containers

/-- The length of the queue in front of turn `k`. -/
def backlog (q : ℕ) (a : ℕ → ℕ) : ℕ → ℕ
  | 0 => q
  | k + 1 => backlog q a k + a k - 1

/-- The entries that arrive in the turns from `j` to `k`. -/
def arrived (a : ℕ → ℕ) (j k : ℕ) : ℕ :=
  ∑ i ∈ Finset.Ico j (k + 1), a i

@[simp] theorem backlog_zero (q : ℕ) (a : ℕ → ℕ) : backlog q a 0 = q := rfl

theorem backlog_succ (q : ℕ) (a : ℕ → ℕ) (k : ℕ) :
    backlog q a (k + 1) = backlog q a k + a k - 1 := rfl

/-- The first turn leaves a queue for the others. -/
theorem backlog_succ_left (q : ℕ) (a : ℕ → ℕ) (k : ℕ) :
    backlog q a (k + 1) = backlog (q + a 0 - 1) (fun i => a (i + 1)) k := by
  induction k with
  | zero => rfl
  | succ k ih => rw [backlog_succ, ih, backlog_succ]

theorem arrived_self (a : ℕ → ℕ) (k : ℕ) : arrived a k k = a k := by
  simp [arrived]

theorem arrived_succ (a : ℕ → ℕ) {j k : ℕ} (h : j ≤ k + 1) :
    arrived a j (k + 1) = arrived a j k + a (k + 1) :=
  Finset.sum_Ico_succ_top h a

/-- The length of the queue in turn `k` is at most `m`. -/
theorem backlog_add_le_iff (q : ℕ) (a : ℕ → ℕ) (k m : ℕ) :
    backlog q a k + a k ≤ m ↔
      q + arrived a 0 k ≤ k + m ∧
        ∀ j, j ≤ k → arrived a j k ≤ k - j + m := by
  induction k generalizing m with
  | zero =>
      rw [backlog_zero, arrived_self]
      constructor
      · intro h
        refine ⟨by omega, fun j hj => ?_⟩
        rw [Nat.le_zero.mp hj, arrived_self]
        omega
      · exact fun h => h.1.trans_eq (Nat.zero_add m)
  | succ k ih =>
      have hturn : backlog q a (k + 1) + a (k + 1) ≤ m ↔
          a (k + 1) ≤ m ∧ backlog q a k + a k ≤ m + 1 - a (k + 1) := by
        rw [backlog_succ]
        omega
      rw [hturn, ih]
      constructor
      · rintro ⟨hlast, hstart, hall⟩
        refine ⟨?_, fun j hj => ?_⟩
        · rw [arrived_succ a (Nat.zero_le _)]
          omega
        · rcases Nat.lt_or_eq_of_le hj with hjk | rfl
          · have hj' := hall j (Nat.le_of_lt_succ hjk)
            rw [arrived_succ a hj]
            omega
          · rw [arrived_self]
            omega
      · rintro ⟨hstart, hall⟩
        have hlast := hall (k + 1) (Nat.le_refl _)
        rw [arrived_self] at hlast
        rw [arrived_succ a (Nat.zero_le _)] at hstart
        refine ⟨by omega, by omega, fun j hj => ?_⟩
        have hj' := hall j (Nat.le_succ_of_le hj)
        rw [arrived_succ a (Nat.le_succ_of_le hj)] at hj'
        omega

/-- The queue is empty in turn `k`. -/
theorem backlog_add_eq_zero_iff (q : ℕ) (a : ℕ → ℕ) (k : ℕ) :
    backlog q a k + a k = 0 ↔
      q + arrived a 0 k ≤ k ∧ ∀ j, j ≤ k → arrived a j k ≤ k - j := by
  rw [← Nat.le_zero, backlog_add_le_iff]
  rfl

end Containers
