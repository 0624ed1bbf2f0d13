import Mathlib.Data.List.Infix

/-!
# Occurrences of a substring

`find` is the position of the first occurrence of a pattern in a text, and
`erase` cuts a range of characters out of a text.
-/

namespace Text

/-- The position of the first occurrence of `p`. -/
def find (p : List Char) : List Char → Option ℕ
  | [] => if p = [] then some 0 else none
  | c :: cs =>
      if p <+: c :: cs then some 0 else (find p cs).map (· + 1)

/-- The text without the `n` characters from position `i` on. -/
def erase (s : List Char) (i n : ℕ) : List Char :=
  s.take i ++ s.drop (i + n)

/-- A pattern has a first occurrence exactly when it occurs. -/
theorem find_isSome_iff {p s : List Char} :
    (find p s).isSome ↔ p <:+: s := by
  induction s with
  | nil =>
      rw [find, List.infix_nil]
      by_cases hp : p = []
      · simp [hp]
      · simp [hp]
  | cons c cs ih =>
      rw [find, List.infix_cons_iff]
      by_cases hp : p <+: c :: cs
      · simp [hp]
      · rw [if_neg hp, Option.isSome_map, ih]
        exact (or_iff_right hp).symm

end Text
