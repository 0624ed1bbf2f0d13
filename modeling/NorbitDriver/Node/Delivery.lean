import NorbitDriver.Node.Settings
import NorbitDriver.Text.Tokens

/-!
# The lines written for the settings

`splitCmd` reads the first word of a setting behind the white space in front of
it, and takes as the value what is left when as many characters as the word has
are cut off at the start of the setting. With white space in front, the cut is
too far in front by its length, and the end of the word stays in the value. So
a setting reaches the sonar with its words unchanged when it starts with its
first word or has no word, and on one line when it has no line feed.
-/

namespace NorbitDriver

open Text

theorem isspace_blank : isspace ' ' = true := by
  decide

theorem isspace_lineFeed : isspace '\n' = true := by
  decide

/-- A setting is white space, a word, and the rest behind the word. -/
structure Reads (param blank word rest : List Char) : Prop where
  eq : param = blank ++ (word ++ rest)
  blank_isspace : ∀ c ∈ blank, isspace c = true
  word_not_isspace : ∀ c ∈ word, isspace c = false
  rest_isspace : ∀ c ∈ rest.head?, isspace c = true
  rest_eq_nil : word = [] → rest = []

/-- `splitCmd` reads the word. -/
theorem exists_reads (param : List Char) :
    ∃ blank rest, Reads param blank (splitCmd param).1 rest := by
  let behind := param.dropWhile isspace
  let word := behind.takeWhile fun c => !isspace c
  let rest := behind.dropWhile fun c => !isspace c
  have hbehind : behind = word ++ rest := List.takeWhile_append_dropWhile.symm
  have hrest : ∀ c ∈ rest.head?, isspace c = true := by
    intro c hc
    simpa using head?_dropWhile (fun c => !isspace c) behind c hc
  refine ⟨param.takeWhile isspace, rest, ?_, ?_, ?_, hrest, ?_⟩
  · change param = _ ++ (word ++ rest)
    rw [← hbehind]
    exact List.takeWhile_append_dropWhile.symm
  · exact fun c hc => List.mem_takeWhile_imp hc
  · intro c hc
    simpa using List.mem_takeWhile_imp hc
  -- what is behind the white space does not start with white space
  · intro hword
    change word = [] at hword
    rw [hword, List.nil_append] at hbehind
    cases hr : rest with
    | nil => rfl
    | cons c r =>
        have hspace := hrest c (by rw [hr]; rfl)
        have hnot := head?_dropWhile isspace param c
          (by change c ∈ behind.head?; rw [hbehind, hr]; rfl)
        exact absurd (hnot.symm.trans hspace) Bool.false_ne_true

theorem splitCmd_snd (param : List Char) :
    (splitCmd param).2 = param.drop (splitCmd param).1.length := rfl

namespace Reads

variable {param blank word rest : List Char}

/-- White space does not occur in the word. -/
theorem not_mem_word (h : Reads param blank word rest) {c : Char}
    (hc : isspace c = true) : c ∉ word := by
  intro hmem
  exact Bool.false_ne_true ((h.word_not_isspace c hmem).symm.trans hc)

/-- The words of a setting. -/
theorem tokens_eq (h : Reads param blank word rest) :
    tokens isspace param = tokens isspace word ++ tokens isspace rest := by
  rw [h.eq, tokens_of_sep_append h.blank_isspace,
    tokens_append h.rest_isspace]

/-- Without white space in front of the word, or without a word, the value has
the words behind the first one, and the line feeds of the setting. -/
theorem value_of_unpadded (h : Reads param blank word rest)
    (hnil : word = [] ∨ blank = []) :
    tokens isspace (param.drop word.length) = tokens isspace rest ∧
      ('\n' ∈ param.drop word.length ↔ '\n' ∈ param) := by
  rcases hnil with rfl | rfl
  · rw [List.length_nil, List.drop_zero, h.tokens_eq, tokens_nil]
    exact ⟨List.nil_append _, Iff.rfl⟩
  · rw [h.eq, List.nil_append, List.drop_append_length, List.mem_append]
    exact ⟨rfl, (or_iff_right (h.not_mem_word isspace_lineFeed)).symm⟩

/-- With white space in front of a word, the value starts with characters of
the word. -/
theorem value_of_padded (h : Reads param blank word rest) (hword : word ≠ [])
    (hblank : blank ≠ []) :
    tokens isspace (param.drop word.length) ≠ tokens isspace rest := by
  have hsplit : blank ++ word =
      (blank ++ word.dropLast) ++ [word.getLast hword] := by
    rw [List.append_assoc, List.dropLast_concat_getLast]
  have hlen : word.length ≤ (blank ++ word.dropLast).length := by
    have hpos := List.length_pos_of_ne_nil hblank
    rw [List.length_append, List.length_dropLast]
    omega
  have hle : word.length ≤ (blank ++ word).length := by
    rw [hsplit, List.length_append]
    exact Nat.le_add_right_of_le hlen
  have hvalue : param.drop word.length =
      (blank ++ word).drop word.length ++ rest := by
    rw [h.eq, ← List.append_assoc, List.drop_append_of_le_length hle]
  intro heq
  rw [hvalue, tokens_append h.rest_isspace, List.append_left_eq_self,
    tokens_eq_nil_iff, hsplit, List.drop_append_of_le_length hlen] at heq
  have hspace := heq (word.getLast hword)
    (List.mem_append_right _ List.mem_cons_self)
  exact h.not_mem_word hspace (List.getLast_mem hword)

/-- How the start of a setting shows in its parts. -/
theorem unpadded_iff (h : Reads param blank word rest) :
    ((∀ c ∈ param, isspace c = true) ∨
      ∀ c ∈ param.head?, isspace c = false) ↔ word = [] ∨ blank = [] := by
  constructor
  · rintro (hall | hhead)
    · left
      apply List.eq_nil_iff_forall_not_mem.mpr
      intro c hc
      have hspace := hall c (by simp [h.eq, hc])
      exact h.not_mem_word hspace hc
    · right
      cases blank with
      | nil => rfl
      | cons c blank =>
          have hspace := h.blank_isspace c List.mem_cons_self
          have hnot := hhead c (by rw [h.eq]; rfl)
          exact absurd (hnot.symm.trans hspace) Bool.false_ne_true
  · rintro (rfl | rfl)
    · left
      rw [h.eq, h.rest_eq_nil rfl, List.append_nil, List.append_nil]
      exact h.blank_isspace
    · right
      intro c hc
      rw [h.eq, List.nil_append] at hc
      cases word with
      | nil =>
          rw [h.rest_eq_nil rfl] at hc
          exact absurd hc (by simp)
      | cons d word =>
          rw [List.cons_append, List.head?_cons, Option.mem_some_iff] at hc
          exact hc ▸ h.word_not_isspace d List.mem_cons_self

end Reads

/-- Whatever the state of the open command socket, `sendCmd` writes one line for
the setting, with the words of the setting. -/
def Delivered (param : List Char) : Prop :=
  ∀ (cmd_timeout : ℤ) (s : CmdSocket) (now : ℤ), s.is_open = true →
    ∃ id line, (s.sendCmd cmd_timeout (splitCmd param).1 (splitCmd param).2
        now).2 = [.writeStarted id (line ++ ['\n'])] ∧
      '\n' ∉ line ∧ tokens isspace line = tokens isspace param

/-- The setting has no line feed, and does not start with white space unless it
is nothing but white space. -/
def Plain (param : List Char) : Prop :=
  '\n' ∉ param ∧
    ((∀ c ∈ param, isspace c = true) ∨
      ∀ c ∈ param.head?, isspace c = false)

/-- A setting is delivered when its value has no line feed and the words behind
the first one. -/
theorem delivered_iff_reads {param blank rest : List Char}
    (h : Reads param blank (splitCmd param).1 rest) :
    Delivered param ↔ '\n' ∉ (splitCmd param).2 ∧
      tokens isspace (splitCmd param).2 = tokens isspace rest := by
  have hline : '\n' ∉ (splitCmd param).1 ++ ' ' :: (splitCmd param).2 ↔
      '\n' ∉ (splitCmd param).2 := by
    have hword := h.not_mem_word isspace_lineFeed
    have hblank : '\n' ≠ ' ' := by decide
    rw [List.mem_append, List.mem_cons, or_iff_right hword,
      or_iff_right hblank]
  have htokens : tokens isspace ((splitCmd param).1 ++
      ' ' :: (splitCmd param).2) = tokens isspace param ↔
      tokens isspace (splitCmd param).2 = tokens isspace rest := by
    rw [tokens_append_cons _ _ isspace_blank, h.tokens_eq,
      List.append_cancel_left_eq]
  rw [← hline, ← htokens]
  constructor
  · intro hdelivered
    obtain ⟨id, line, hwritten, hlf, hwords⟩ :=
      hdelivered 0 { CmdSocket.closed with is_open := true } 0 rfl
    have hmessage := List.cons.inj hwritten |>.1
    rw [CmdAction.writeStarted.injEq, List.append_cancel_right_eq] at hmessage
    rw [hmessage.2]
    exact ⟨hlf, hwords⟩
  · rintro ⟨hlf, hwords⟩ cmd_timeout s now hopen
    refine ⟨s.calls, _, ?_, hlf, hwords⟩
    rw [CmdSocket.sendCmd, if_pos hopen]

/-- A setting is delivered with its words exactly when it is plain. -/
theorem delivered_iff_plain (param : List Char) :
    Delivered param ↔ Plain param := by
  obtain ⟨blank, rest, h⟩ := exists_reads param
  rw [delivered_iff_reads h, Plain, h.unpadded_iff, splitCmd_snd]
  by_cases hnil : (splitCmd param).1 = [] ∨ blank = []
  · obtain ⟨hwords, hlf⟩ := h.value_of_unpadded hnil
    rw [hlf]
    exact and_congr_right fun _ => iff_of_true hwords hnil
  · rw [not_or] at hnil
    have hne := h.value_of_padded hnil.1 hnil.2
    exact iff_of_false (fun hboth => hne hboth.2)
      (fun hboth => hboth.2.elim hnil.1 hnil.2)

/-- Behind a blank, the setting `set_power 0` is sent as `set_power r 0`. -/
theorem padded_not_delivered :
    ¬ Delivered
      [' ', 's', 'e', 't', '_', 'p', 'o', 'w', 'e', 'r', ' ', '0'] := by
  intro h
  obtain ⟨id, line, hwritten, -, hwords⟩ :=
    h 0 { CmdSocket.closed with is_open := true } 0 rfl
  have hmessage := List.cons.inj hwritten |>.1
  rw [CmdAction.writeStarted.injEq, List.append_cancel_right_eq] at hmessage
  rw [← hmessage.2] at hwords
  exact absurd hwords (by decide)

end NorbitDriver
