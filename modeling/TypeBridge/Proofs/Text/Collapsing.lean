import Mathlib.Data.List.Basic
import Mathlib.Data.List.DropRight
import Mathlib.Data.List.Induction
import TypeBridge.Text.Blank

/-!
# Collapsed texts

`words_append_blank` cuts the words of a text at any blank; all else about words follows from it.
Collapsing keeps the words (`words_collapse`), so a collapsed text stays as it is
(`collapse_collapse`), and a character put behind a text comes out behind the collapsed text
(`collapse_concat`).
-/

namespace TypeBridge.Text

variable {text front back run : List Char} {c : Char} {p : Char → Bool}

theorem pieces_eq_splitOnP (p : Char → Bool) (text : List Char) :
    pieces p text = text.splitOnP p := by
  induction text with
  | nil => rfl
  | cons c rest ih =>
      rw [List.splitOnP_cons_eq_if_modifyHead, pieces, ih]
      by_cases separator : p c
      · simp [separator]
      · cases cut : rest.splitOnP p with
        | nil => exact absurd cut (List.splitOnP_ne_nil p rest)
        | cons piece others => simp [separator]

/-- A separator cuts a text into two that are cut for themselves. -/
theorem pieces_append_cons (front back : List Char) (separator : p c = true) :
    pieces p (front ++ c :: back) = pieces p front ++ pieces p back := by
  simp only [pieces_eq_splitOnP]
  exact List.splitOnP_append_cons front back separator

/-- A text without separators is one piece. -/
theorem pieces_eq_singleton (solid : ∀ c ∈ text, p c = false) : pieces p text = [text] := by
  rw [pieces_eq_splitOnP]
  exact List.splitOnP_eq_singleton solid

/-- There is no separator in a piece. -/
theorem not_separator_of_mem_pieces {piece : List Char} (member : piece ∈ pieces p text)
    (inside : c ∈ piece) : p c = false := by
  induction text generalizing piece with
  | nil =>
      rw [List.mem_singleton.mp member] at inside
      cases inside
  | cons d rest ih =>
      cases separator : p d with
      | true =>
          simp only [pieces, separator, if_true] at member
          rcases List.mem_cons.mp member with rfl | later
          · cases inside
          · exact ih later inside
      | false =>
          simp only [pieces, separator, Bool.false_eq_true, if_false] at member
          cases cut : pieces p rest with
          | nil => exact absurd cut (pieces_ne_nil p rest)
          | cons first others =>
              rw [cut] at ih member
              rcases List.mem_cons.mp member with rfl | later
              · rcases List.mem_cons.mp inside with rfl | behind
                · exact separator
                · exact ih List.mem_cons_self behind
              · exact ih (List.mem_cons_of_mem _ later) inside

/-- Nothing more is dropped from a text that lost its tail. -/
theorem dropTail_dropTail (p : Char → Bool) (text : List Char) :
    dropTail p (dropTail p text) = dropTail p text := List.rdropWhile_idempotent p text

theorem of_mem_takeTail : ∀ c ∈ takeTail p text, p c = true :=
  fun _ member => List.mem_rtakeWhile_imp member

/-- Characters to be dropped behind a text do not matter to what is left. -/
theorem dropTail_append (front : List Char) (only : ∀ c ∈ back, p c = true) :
    dropTail p (front ++ back) = dropTail p front := by
  induction back using List.reverseRecOn with
  | nil => rw [List.append_nil]
  | append_singleton back c ih =>
      rw [← List.append_assoc]
      exact (List.rdropWhile_concat_pos p _ c (only c (by simp))).trans
        (ih fun d member => only d (List.mem_append_left _ member))

/-- A text whose last character is to be kept stays as it is. -/
theorem dropTail_concat (front : List Char) (kept : p c = false) :
    dropTail p (front ++ [c]) = front ++ [c] :=
  List.rdropWhile_concat_neg p front c (by simp [kept])

/-! ## Words -/

/-- Words are cut at every blank. -/
theorem words_append_blank (front back : List Char) (blank : isBlank c = true) :
    words (front ++ c :: back) = words front ++ words back := by
  rw [words, pieces_append_cons front back blank, List.filter_append]
  rfl

/-- A text without blanks is one word, unless it is empty. -/
theorem words_run (solid : ∀ c ∈ run, isBlank c = false) :
    words run = if run = [] then [] else [run] := by
  rw [words, pieces_eq_singleton solid]
  by_cases empty : run = []
  · simp [empty]
  · simp [empty]

theorem words_concat_blank (text : List Char) (blank : isBlank c = true) :
    words (text ++ [c]) = words text := by
  rw [words_append_blank text [] blank]
  exact List.append_nil _

/-- Every text ends with a run without blanks, which starts the text or stands behind a blank. -/
theorem exists_run (text : List Char) : ∃ front run, text = front ++ run ∧
    (∀ c ∈ run, isBlank c = false) ∧
      (front = [] ∨ ∃ before blank, front = before ++ [blank] ∧ isBlank blank = true) := by
  induction text using List.reverseRecOn with
  | nil => exact ⟨[], [], rfl, nofun, .inl rfl⟩
  | append_singleton text c ih =>
      cases blank : isBlank c with
      | true => exact ⟨text ++ [c], [], by simp, nofun, .inr ⟨text, c, rfl, blank⟩⟩
      | false =>
          obtain ⟨front, run, rfl, solid, starts⟩ := ih
          refine ⟨front, run ++ [c], by simp, fun d member => ?_, starts⟩
          rcases List.mem_append.mp member with old | new
          · exact solid d old
          · rw [List.mem_singleton.mp new]
            exact blank

/-- The words of a text are those before its last run, and that run. -/
theorem words_append_run (run : List Char)
    (starts : front = [] ∨ ∃ before blank, front = before ++ [blank] ∧ isBlank blank = true) :
    words (front ++ run) = words front ++ words run := by
  rcases starts with rfl | ⟨before, blank, rfl, isBlank⟩
  · have none : words [] = [] := words_run nofun
    rw [List.nil_append, none, List.nil_append]
  · rw [words_concat_blank before isBlank, List.append_assoc, List.singleton_append,
      words_append_blank before run isBlank]

/-- A word holds something, but no blank. -/
theorem of_mem_words {word : List Char} (member : word ∈ words text) :
    word ≠ [] ∧ ∀ c ∈ word, isBlank c = false := by
  obtain ⟨piece, some⟩ := List.mem_filter.mp member
  exact ⟨by simpa using some, fun c inside => not_separator_of_mem_pieces piece inside⟩

/-- Words with a blank between them are read back. -/
theorem words_intercalate {list : List (List Char)}
    (solid : ∀ word ∈ list, word ≠ [] ∧ ∀ c ∈ word, isBlank c = false) :
    words (List.intercalate [' '] list) = list := by
  induction list with
  | nil => rfl
  | cons word rest ih =>
      obtain ⟨some, only⟩ := solid word List.mem_cons_self
      have alone : words word = [word] := by rw [words_run only, if_neg some]
      cases rest with
      | nil => rw [List.intercalate_singleton, alone]
      | cons next others =>
          rw [List.intercalate_cons_cons, List.append_assoc, List.singleton_append,
            words_append_blank word _ (by decide), alone,
            ih fun word later => solid word (List.mem_cons_of_mem _ later)]
          rfl

/-! ## Collapsing -/

theorem words_collapse (text : List Char) : words (collapse text) = words text :=
  words_intercalate fun _ member => of_mem_words member

/-- A collapsed text stays as it is. -/
theorem collapse_collapse (text : List Char) : collapse (collapse text) = collapse text := by
  rw [collapse, words_collapse]
  rfl

theorem collapse_concat_blank (text : List Char) (blank : isBlank c = true) :
    collapse (text ++ [c]) = collapse text := by
  rw [collapse, words_concat_blank text blank]
  rfl

/-- What is put behind the last of some words comes out behind them all. -/
theorem intercalate_concat (list : List (List Char)) (word : List Char) :
    List.intercalate [' '] (list ++ [word]) =
      if list = [] then word else List.intercalate [' '] list ++ ' ' :: word := by
  induction list with
  | nil => simp
  | cons first rest ih =>
      cases rest with
      | nil => simp
      | cons next others =>
          rw [List.cons_append, List.cons_append, List.intercalate_cons_cons,
            ← List.cons_append, ih]
          simp

/-- A character that is no blank comes out behind the collapsed text, perhaps with a space
before it. -/
theorem collapse_concat (text : List Char) (solid : isBlank c = false) :
    collapse (text ++ [c]) = collapse text ++ [c] ∨
      collapse (text ++ [c]) = collapse text ++ [' ', c] := by
  obtain ⟨front, run, rfl, only, starts⟩ := exists_run text
  have longer : ∀ d ∈ run ++ [c], isBlank d = false := by
    intro d member
    rcases List.mem_append.mp member with old | new
    · exact only d old
    · rw [List.mem_singleton.mp new]
      exact solid
  unfold collapse
  rw [List.append_assoc, words_append_run _ starts, words_append_run _ starts,
    words_run longer, words_run only, if_neg (by simp), intercalate_concat]
  by_cases empty : run = []
  · by_cases alone : words front = []
    · simp [empty, alone]
    · simp [empty, alone]
  · rw [if_neg empty, intercalate_concat]
    by_cases alone : words front = []
    · simp [alone]
    · simp [alone]

end TypeBridge.Text
