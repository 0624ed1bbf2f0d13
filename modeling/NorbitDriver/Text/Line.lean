import Mathlib.Data.List.Basic

/-!
# Lines of a text

`getline` takes the characters in front of the first line feed from a buffer,
and the line feed with them; without a line feed it takes everything. A text
made of lines that contain no line feed determines these lines, so taking lines
from the front of a text gives back the lines it was made of.
-/

namespace Text

/-- The first line of a buffer, and what stays in the buffer. -/
def getline : List Char → List Char × List Char
  | [] => ([], [])
  | c :: cs => if c = '\n' then ([], cs)
      else (c :: (getline cs).1, (getline cs).2)

/-- The text made of a list of lines. -/
def unlines (ls : List (List Char)) : List Char :=
  ls.flatMap fun l => l ++ ['\n']

theorem getline_cons_of_ne {c : Char} (h : c ≠ '\n') (cs : List Char) :
    getline (c :: cs) = (c :: (getline cs).1, (getline cs).2) := by
  rw [getline, if_neg h]

/-- A line is read back from the text it was put in front of. -/
theorem getline_append {l : List Char} (h : '\n' ∉ l) (rest : List Char) :
    getline (l ++ '\n' :: rest) = (l, rest) := by
  induction l with
  | nil => rfl
  | cons c cs ih =>
      rw [List.mem_cons, not_or] at h
      rw [List.cons_append, getline_cons_of_ne (Ne.symm h.1), ih h.2]

theorem getline_fst_not_mem (s : List Char) : '\n' ∉ (getline s).1 := by
  induction s with
  | nil => exact List.not_mem_nil
  | cons c cs ih =>
      by_cases hc : c = '\n'
      · rw [getline, if_pos hc]
        exact List.not_mem_nil
      · rw [getline_cons_of_ne hc, List.mem_cons, not_or]
        exact ⟨Ne.symm hc, ih⟩

/-- A buffer with a line feed is its first line followed by the rest. -/
theorem append_getline {s : List Char} (h : '\n' ∈ s) :
    (getline s).1 ++ '\n' :: (getline s).2 = s := by
  induction s with
  | nil => exact absurd h List.not_mem_nil
  | cons c cs ih =>
      by_cases hc : c = '\n'
      · rw [getline, if_pos hc, hc]
        rfl
      · have hcs : '\n' ∈ cs := by
          rcases List.mem_cons.mp h with heq | hmem
          · exact absurd heq.symm hc
          · exact hmem
        rw [getline_cons_of_ne hc, List.cons_append, ih hcs]

/-- A buffer without a line feed is taken as it is. -/
theorem getline_of_not_mem {s : List Char} (h : '\n' ∉ s) :
    getline s = (s, []) := by
  induction s with
  | nil => rfl
  | cons c cs ih =>
      rw [List.mem_cons, not_or] at h
      rw [getline_cons_of_ne (Ne.symm h.1), ih h.2]

@[simp] theorem unlines_nil : unlines [] = [] := rfl

theorem unlines_cons (l : List Char) (ls : List (List Char)) :
    unlines (l :: ls) = l ++ '\n' :: unlines ls := by
  rw [unlines, List.flatMap_cons, List.append_assoc]
  rfl

theorem unlines_append (ls ms : List (List Char)) :
    unlines (ls ++ ms) = unlines ls ++ unlines ms :=
  List.flatMap_append

/-- Lines at the front of a text made of lines are the first of these. -/
theorem prefix_of_unlines {ls ms : List (List Char)} {rest : List Char}
    (hls : ∀ l ∈ ls, '\n' ∉ l) (hms : ∀ m ∈ ms, '\n' ∉ m)
    (h : unlines ls ++ rest = unlines ms) : ls <+: ms := by
  induction ls generalizing ms with
  | nil => exact List.nil_prefix
  | cons l ls ih =>
      rw [unlines_cons, List.append_assoc] at h
      cases ms with
      | nil =>
          have hnil := (List.append_eq_nil_iff.mp h).2
          exact absurd hnil (List.cons_ne_nil _ _)
      | cons m ms =>
          have hl := hls l List.mem_cons_self
          have hm := hms m List.mem_cons_self
          have hfirst := getline_append hl (unlines ls ++ rest)
          rw [unlines_cons] at h
          rw [← List.cons_append] at hfirst
          rw [h, getline_append hm, Prod.mk.injEq] at hfirst
          rw [hfirst.1]
          apply List.cons_prefix_cons.mpr
          refine ⟨rfl, ih (fun l' h' => hls l' (List.mem_cons_of_mem l h'))
            (fun m' h' => hms m' (List.mem_cons_of_mem m h')) hfirst.2.symm⟩

/-- The text `t` is `s` with `k` line feeds put in. -/
structure Fed (k : ℕ) (s t : List Char) : Prop where
  sublist : s.Sublist t
  perm : t.Perm (s ++ List.replicate k '\n')

namespace Fed

variable {j k : ℕ} {s t u : List Char}

theorem refl (s : List Char) : Fed 0 s s where
  sublist := List.Sublist.refl s
  perm := by
    rw [List.replicate_zero, List.append_nil]

/-- A line feed between two parts of a text. -/
theorem middle (s t : List Char) : Fed 1 (s ++ t) (s ++ '\n' :: t) where
  sublist :=
    (List.Sublist.refl s).append (List.sublist_cons_self '\n' t)
  perm := List.perm_middle.trans
    (List.perm_append_singleton '\n' (s ++ t)).symm

theorem append_left (h : Fed k s t) (u : List Char) :
    Fed k (u ++ s) (u ++ t) where
  sublist := (List.Sublist.refl u).append h.sublist
  perm := by
    rw [List.append_assoc]
    exact h.perm.append_left u

theorem append_right (h : Fed k s t) (u : List Char) :
    Fed k (s ++ u) (t ++ u) where
  sublist := h.sublist.append (List.Sublist.refl u)
  perm := by
    have hswap : (List.replicate k '\n' ++ u).Perm
        (u ++ List.replicate k '\n') := List.perm_append_comm
    have hperm := h.perm.append_right u
    rw [List.append_assoc] at hperm ⊢
    exact hperm.trans (hswap.append_left s)

theorem trans (h : Fed j s t) (h' : Fed k t u) : Fed (j + k) s u where
  sublist := h.sublist.trans h'.sublist
  perm := by
    have hperm := h'.perm.trans (h.perm.append_right _)
    rwa [List.append_assoc, List.replicate_append_replicate] at hperm

theorem length_eq (h : Fed k s t) : t.length = s.length + k := by
  rw [h.perm.length_eq, List.length_append, List.length_replicate]

/-- Without a line feed put in, the text is the same. -/
theorem eq_iff (h : Fed k s t) : t = s ↔ k = 0 := by
  have hlength := h.length_eq
  constructor
  · intro heq
    rw [heq] at hlength
    omega
  · intro hzero
    exact (h.sublist.eq_of_length (by omega)).symm

end Fed

/-- A line of a text, which ends with a line feed in it. -/
def IsLine (line s : List Char) : Prop :=
  ∃ ls rest, s = unlines ls ++ rest ∧ (∀ l ∈ ls, '\n' ∉ l) ∧ line ∈ ls

end Text
