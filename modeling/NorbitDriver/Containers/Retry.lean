import Mathlib.Data.List.Basic

/-!
# Items that are retried

A list of items is offered one after the other, each again until it is accepted.
The answers decide what has been offered and what is left, and a further answer
adds to what has been offered the item that is next then.
-/

namespace Containers

variable {α : Type*}

/-- The items that are offered up to and behind the given answers. -/
def offered : List α → List Bool → List α
  | [], _ => []
  | a :: _, [] => [a]
  | a :: as, true :: answers => a :: offered as answers
  | a :: as, false :: answers => a :: offered (a :: as) answers

/-- The items that have not been accepted. -/
def remaining : List α → List Bool → List α
  | [], _ => []
  | a :: as, [] => a :: as
  | _ :: as, true :: answers => remaining as answers
  | a :: as, false :: answers => remaining (a :: as) answers

@[simp] theorem remaining_no_answer (as : List α) : remaining as [] = as := by
  cases as with
  | nil => rfl
  | cons a as => rfl

@[simp] theorem offered_no_answer (as : List α) :
    offered as [] = as.take 1 := by
  cases as with
  | nil => rfl
  | cons a as => rfl

/-- An accepted item is followed by the next one. -/
theorem remaining_accepted {as rest : List α} {a : α} {answers : List Bool}
    (h : remaining as answers = a :: rest) :
    remaining as (answers ++ [true]) = rest := by
  fun_induction remaining as answers with
  | case1 answers => cases h
  | case2 b as =>
      cases h
      exact remaining_no_answer rest
  | case3 b as answers ih => exact ih h
  | case4 b as answers ih => exact ih h

theorem remaining_refused {as rest : List α} {a : α} {answers : List Bool}
    (h : remaining as answers = a :: rest) :
    remaining as (answers ++ [false]) = a :: rest := by
  fun_induction remaining as answers with
  | case1 answers => cases h
  | case2 b as =>
      cases h
      rfl
  | case3 b as answers ih => exact ih h
  | case4 b as answers ih => exact ih h

theorem offered_accepted {as rest : List α} {a : α} {answers : List Bool}
    (h : remaining as answers = a :: rest) :
    offered as (answers ++ [true]) = offered as answers ++ rest.take 1 := by
  fun_induction remaining as answers with
  | case1 answers => cases h
  | case2 b as =>
      cases h
      exact congrArg (List.cons a) (offered_no_answer rest)
  | case3 b as answers ih => exact congrArg (List.cons b) (ih h)
  | case4 b as answers ih => exact congrArg (List.cons b) (ih h)

/-- A refused item is offered again. -/
theorem offered_refused {as rest : List α} {a : α} {answers : List Bool}
    (h : remaining as answers = a :: rest) :
    offered as (answers ++ [false]) = offered as answers ++ [a] := by
  fun_induction remaining as answers with
  | case1 answers => cases h
  | case2 b as =>
      cases h
      rfl
  | case3 b as answers ih => exact congrArg (List.cons b) (ih h)
  | case4 b as answers ih => exact congrArg (List.cons b) (ih h)

/-- Nothing is left exactly when there have been as many acceptances as there
are items. -/
theorem remaining_eq_nil_iff (as : List α) (answers : List Bool) :
    remaining as answers = [] ↔ as.length ≤ answers.count true := by
  fun_induction remaining as answers with
  | case1 answers => exact iff_of_true rfl (Nat.zero_le _)
  | case2 a as => exact iff_of_false (List.cons_ne_nil a as) (by simp)
  | case3 a as answers ih =>
      rw [ih, List.length_cons, List.count_cons_self]
      omega
  | case4 a as answers ih => simpa using ih

end Containers
