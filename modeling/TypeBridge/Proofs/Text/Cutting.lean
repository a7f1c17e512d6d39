import TypeBridge.Proofs.Text.Collapsing

/-!
# Texts cut and joined

Cutting a text at a mark and joining the pieces with that mark undo each other:
`intercalate_pieces` for every text, `pieces_intercalate` for parts that do not hold the mark.
`between?` takes what stands between two ends of a text (`between?_eq_some_iff`). `Separated` says
what the words of a text are, and `words` finds them (`separated_iff`).
-/

namespace TypeBridge.Text

variable {mark : Char} {text gap : List Char} {parts : List (List Char)}

theorem pieces_eq_splitOn (mark : Char) (text : List Char) :
    pieces (fun c => c = mark) text = text.splitOn mark := by
  rw [pieces_eq_splitOnP, List.splitOn_eq_splitOnP]
  rfl

/-- The pieces of a text, joined, are the text. -/
theorem intercalate_pieces (mark : Char) (text : List Char) :
    List.intercalate [mark] (pieces (fun c => c = mark) text) = text := by
  rw [pieces_eq_splitOn]
  exact List.intercalate_splitOn mark

/-- Parts that are joined with a mark are cut apart at that mark. -/
theorem pieces_intercalate (some : parts ≠ []) (clean : ∀ part ∈ parts, mark ∉ part) :
    pieces (fun c => c = mark) (List.intercalate [mark] parts) = parts := by
  rw [pieces_eq_splitOn]
  exact List.splitOn_intercalate mark clean some

/-- The mark at which a text is cut is in no piece. -/
theorem mark_notMem_of_mem_pieces {piece : List Char}
    (member : piece ∈ pieces (fun c => c = mark) text) : mark ∉ piece := by
  intro inside
  simpa using not_separator_of_mem_pieces member inside

/-- Joined parts with one more behind them are the parts, each ended by the mark, and that one. -/
theorem intercalate_ended (mark : Char) (parts : List (List Char)) (last : List Char) :
    List.intercalate [mark] (parts ++ [last]) = parts.flatMap (· ++ [mark]) ++ last := by
  induction parts with
  | nil => simp
  | cons part rest ih =>
      rw [List.cons_append, List.intercalate_cons_of_ne_nil (by simp), ih]
      simp

/-! ## What stands at the ends -/

/-- What stands between an opening and a closing text. -/
def between? (opening closing text : List Char) : Option (List Char) :=
  (text.dropPrefix? opening).bind (·.dropSuffix? closing)

theorem dropSuffix?_eq_some_iff {α : Type} [BEq α] [LawfulBEq α] {list front tail : List α} :
    list.dropSuffix? tail = some front ↔ list = front ++ tail := by
  simp [List.dropSuffix?_eq_some_iff]

theorem between?_eq_some_iff {opening closing inner : List Char} :
    between? opening closing text = some inner ↔ text = opening ++ inner ++ closing := by
  simp only [between?, Option.bind_eq_some_iff, List.dropPrefix?_eq_some_iff, beq_iff_eq,
    dropSuffix?_eq_some_iff]
  constructor
  · rintro ⟨rest, ⟨_, rfl, rfl⟩, rfl⟩
    exact (List.append_assoc _ _ _).symm
  · rintro rfl
    exact ⟨inner ++ closing, ⟨opening, List.append_assoc _ _ _, rfl⟩, rfl⟩

/-- A tail of characters of one kind is cut off behind a character of another kind. -/
theorem cut_tail {p : Char → Bool} {tail : List Char} {c : Char} (front : List Char)
    (other : p c = false) (only : ∀ c ∈ tail, p c = true) :
    dropTail p (front ++ c :: tail) = front ++ [c] ∧ takeTail p (front ++ c :: tail) = tail := by
  have kept : dropTail p (front ++ c :: tail) = front ++ [c] := by
    rw [← List.singleton_append, ← List.append_assoc, dropTail_append _ only,
      dropTail_concat _ other]
  have parts := dropTail_append_takeTail p (front ++ c :: tail)
  rw [kept, List.append_assoc, List.singleton_append] at parts
  exact ⟨kept, (List.cons.inj (List.append_cancel_left parts)).2⟩

/-! ## Words -/

/-- A text is some words with blanks around them and between them. -/
inductive Separated : List Char → List (List Char) → Prop
  | none {gap : List Char} (blank : ∀ c ∈ gap, isBlank c = true) : Separated gap []
  | word {gap word rest : List Char} {others : List (List Char)}
      (blank : ∀ c ∈ gap, isBlank c = true) (some : word ≠ [])
      (solid : ∀ c ∈ word, isBlank c = false)
      (ends : rest = [] ∨ ∃ c more, rest = c :: more ∧ isBlank c = true)
      (behind : Separated rest others) : Separated (gap ++ word ++ rest) (word :: others)

/-- Blanks in front of a text do not matter to its words. -/
theorem words_gap_append (text : List Char) (blank : ∀ c ∈ gap, isBlank c = true) :
    words (gap ++ text) = words text := by
  induction gap with
  | nil => rfl
  | cons c gap ih =>
      obtain ⟨first, others⟩ := List.forall_mem_cons.mp blank
      have cut := words_append_blank [] (gap ++ text) first
      rw [List.nil_append] at cut
      rw [List.cons_append, cut, ih others]
      rfl

/-- The words that a text is made of are the ones that are found in it. -/
theorem Separated.words_eq {list : List (List Char)} (separated : Separated text list) :
    words text = list := by
  induction separated with
  | none blank =>
      have found := words_gap_append [] blank
      rw [List.append_nil] at found
      exact found
  | @word gap word rest others blank some solid ends behind ih =>
      have alone : words word = [word] := (words_run solid).trans (if_neg some)
      rw [List.append_assoc, words_gap_append _ blank]
      rcases ends with rfl | ⟨c, more, rfl, first⟩
      · have none : others = [] := ih.symm
        rw [List.append_nil, alone, none]
      · have shorter := words_append_blank [] more first
        rw [List.nil_append] at shorter
        rw [words_append_blank word more first, alone, ← ih, shorter]
        rfl

/-- Every text is made of some words. -/
theorem exists_separated (text : List Char) : ∃ list, Separated text list := by
  have front : ∀ c ∈ text.takeWhile isBlank, isBlank c = true :=
    fun _ member => List.mem_takeWhile_imp member
  have parts := List.takeWhile_append_dropWhile (p := isBlank) (l := text)
  cases core : text.dropWhile isBlank with
  | nil =>
      rw [core, List.append_nil] at parts
      exact ⟨[], .none (parts ▸ front)⟩
  | cons c more =>
      have solid : isBlank c = false := by
        have first := List.head?_dropWhile_not isBlank text
        rw [core] at first
        simpa using first
      have cut := List.takeWhile_append_dropWhile (p := fun c => !isBlank c) (l := more)
      have shorter : (more.dropWhile fun c => !isBlank c).length < text.length := by
        rw [← parts, core, List.length_append, List.length_cons]
        have suffix := (List.dropWhile_suffix (l := more) fun c => !isBlank c).length_le
        omega
      obtain ⟨others, behind⟩ := exists_separated (more.dropWhile fun c => !isBlank c)
      refine ⟨(c :: more.takeWhile fun c => !isBlank c) :: others, ?_⟩
      rw [← parts, core, ← cut, ← List.cons_append, ← List.append_assoc, cut]
      refine .word front (by simp) (List.forall_mem_cons.mpr ⟨solid, fun d member => ?_⟩) ?_ behind
      · simpa using List.mem_takeWhile_imp member
      · cases rest : more.dropWhile fun c => !isBlank c with
        | nil => exact .inl rfl
        | cons d last =>
            have first := List.head?_dropWhile_not (fun c => !isBlank c) more
            rw [rest] at first
            exact .inr ⟨d, last, rfl, by simpa using first⟩
termination_by text.length

/-- What is found in a text is what it is made of. -/
theorem separated_iff {list : List (List Char)} : Separated text list ↔ words text = list := by
  refine ⟨Separated.words_eq, ?_⟩
  rintro rfl
  obtain ⟨list, separated⟩ := exists_separated text
  rwa [separated.words_eq]

end TypeBridge.Text
