import Mathlib.Data.List.TakeWhile

/-!
# The tokens of a text

The tokens of a text are its longest parts without a separator. Where two
texts are joined at a separator, the tokens of the whole are those of the two
parts; separators in front make no difference.
-/

namespace Text

variable {α : Type*} {sep : α → Bool}

/-- The parts of a text between separators, without the empty ones. -/
def tokens (sep : α → Bool) (s : List α) : List (List α) :=
  (s.splitOnP sep).filter fun t => !t.isEmpty

@[simp] theorem tokens_nil (sep : α → Bool) : tokens sep [] = [] := by
  rw [tokens, List.splitOnP_nil]
  rfl

theorem tokens_append_cons (s t : List α) {c : α} (hc : sep c = true) :
    tokens sep (s ++ c :: t) = tokens sep s ++ tokens sep t := by
  rw [tokens, List.splitOnP_append_cons s t hc, List.filter_append]
  rfl

/-- A separator in front makes no difference. -/
theorem tokens_cons_of_sep {c : α} (hc : sep c = true) (s : List α) :
    tokens sep (c :: s) = tokens sep s := by
  have h := tokens_append_cons [] s hc
  rwa [tokens_nil, List.nil_append, List.nil_append] at h

/-- A text has no token exactly when it consists of separators. -/
theorem tokens_eq_nil_iff {s : List α} :
    tokens sep s = [] ↔ ∀ c ∈ s, sep c = true := by
  induction s with
  | nil => simp
  | cons c s ih =>
      rw [List.forall_mem_cons]
      cases hc : sep c with
      | true =>
          rw [tokens_cons_of_sep hc, ih]
          exact (and_iff_right rfl).symm
      | false =>
          obtain ⟨t, ts, ht⟩ := List.exists_cons_of_ne_nil
            (List.splitOnP_ne_nil sep s)
          have hfirst : tokens sep (c :: s) =
              (c :: t) :: ts.filter fun t => !t.isEmpty := by
            rw [tokens, List.splitOnP_cons_eq_if_modifyHead, hc, ht]
            rfl
          rw [hfirst]
          simp

/-- Where the second part is empty or starts with a separator, the tokens of a
text are those of its parts. -/
theorem tokens_append {s t : List α}
    (ht : ∀ c ∈ t.head?, sep c = true) :
    tokens sep (s ++ t) = tokens sep s ++ tokens sep t := by
  cases t with
  | nil => simp
  | cons c t =>
      have hc : sep c = true := ht c rfl
      rw [tokens_append_cons s t hc, tokens_cons_of_sep hc]

/-- Separators at the start make no difference. -/
theorem tokens_of_sep_append {s : List α} (hs : ∀ c ∈ s, sep c = true)
    (t : List α) : tokens sep (s ++ t) = tokens sep t := by
  induction s with
  | nil => rfl
  | cons c s ih =>
      obtain ⟨hc, hs⟩ := List.forall_mem_cons.mp hs
      rw [List.cons_append, tokens_cons_of_sep hc, ih hs]

/-- A scan over separators stops in front of another character. -/
theorem head?_dropWhile (sep : α → Bool) (s : List α) :
    ∀ c ∈ (s.dropWhile sep).head?, sep c = false := by
  intro c hc
  have h := List.head?_dropWhile_not sep s
  rwa [Option.mem_def.mp hc] at h

end Text
