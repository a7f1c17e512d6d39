import Mathlib.Data.List.Forall2
import TypeBridge.Proofs.Text.Margins

/-!
# Texts without and with a margin

The lines of a dedented text are in the form `IsDedented`. Lines of that form are read back from the
text that they are joined to, with a margin or without (`lines_padded`), and they come back out of
any indentation (`dedentLines_padded`); so `dedent` undoes `indent` and is done after one turn.
-/

namespace TypeBridge.Text

variable {text : String} {line : List Char} {ls : List (List Char)}

/-! ## Lines joined and read back -/

/-- A line feed ends a line and is not part of it. -/
theorem lineFeed_notMem_of_mem_lines {text : List Char} (member : line ∈ lines text) :
    '\n' ∉ line := by
  unfold lines at member
  rcases List.mem_append.mp member with ended | last
  · obtain ⟨piece, inside, rfl⟩ := List.mem_map.mp ended
    have clean := mark_notMem_of_mem_pieces (List.dropLast_subset _ inside)
    unfold dropReturn
    split
    · exact fun found => clean (List.dropLast_subset _ found)
    · exact clean
  · split at last
    · cases last
    · rw [List.mem_singleton.mp last]
      cases final : (pieces (fun c => c = '\n') text).getLast? with
      | none => exact List.not_mem_nil
      | some piece => exact mark_notMem_of_mem_pieces (List.mem_of_getLast? final)

/-- Lines that hold no line end of their own are read back when they are joined, unless the last one
is empty. -/
theorem lines_intercalate (clean : ∀ line ∈ ls, '\n' ∉ line)
    (plain : ∀ line ∈ ls, line.getLast? ≠ some '\r') (last : ∀ line ∈ ls.getLast?, line ≠ []) :
    lines (List.intercalate ['\n'] ls) = ls := by
  cases final : ls.getLast? with
  | none =>
      rw [List.getLast?_eq_none_iff.mp final]
      rfl
  | some line =>
      have filled : ls ≠ [] := by
        rintro rfl
        cases final
      have ended : ls.dropLast.map dropReturn = ls.dropLast := by
        refine (List.map_congr_left fun other member => ?_).trans (List.map_id _)
        exact if_neg (plain other (List.dropLast_subset _ member))
      unfold lines
      dsimp only
      rw [pieces_intercalate filled clean, ended, final, Option.getD_some,
        if_neg (by simpa using last line final), List.dropLast_append_getLast? line final]

/-! ## Lines without a margin -/

/-- Lines as they come out of `dedent`: the first and the last one are not blank, some line starts
with no blank, and no line ends with one. -/
structure IsDedented (ls : List (List Char)) : Prop where
  bounded : Bounded ls
  margin : ls = [] ∨ ∃ line ∈ ls, allBlank line = false ∧ marginOf line = 0
  tight : ∀ line ∈ ls, trimEnd line = line
  clean : ∀ line ∈ ls, '\n' ∉ line

/-- The lines of a text that was dedented. -/
def dedentLines (ls : List (List Char)) : List (List Char) :=
  (bodyLines ls).map (stripMargin (commonMargin (bodyLines ls)))

/-- The text of a dedented text is made of its dedented lines. -/
theorem toList_dedent (text : String) :
    (dedent text).toList = List.intercalate ['\n'] (dedentLines (lines text.toList)) :=
  String.toList_ofList

/-- Each line of the body loses blanks only. -/
theorem exists_trimmed (member : line ∈ bodyLines ls) :
    ∃ count, Trimmed count (stripMargin (commonMargin (bodyLines ls)) line) line :=
  exists_trimmed_stripMargin line fun solid =>
    (exists_commonMargin member solid).2 line member solid

/-- A line that does not end with a blank has no carriage return at its end. -/
theorem getLast?_ne_return (tight : trimEnd line = line) : line.getLast? ≠ some '\r' := by
  intro final
  obtain ⟨front, rfl⟩ := List.getLast?_eq_some_iff.mp final
  have kept := List.rdropWhile_eq_self_iff.mp tight (by simp)
  rw [List.getLast_append_singleton] at kept
  exact kept (by decide)

/-- A blank line that does not end with a blank is empty. -/
theorem eq_nil_of_tight (blank : allBlank line = true) (tight : trimEnd line = line) :
    line = [] := by
  have dropped := dropTail_append (p := isBlank) [] (blank_of_mem blank)
  rw [List.nil_append] at dropped
  rw [← tight]
  exact dropped

/-- The lines of a dedented text are dedented. -/
theorem isDedented_dedentLines (clean : ∀ line ∈ ls, '\n' ∉ line) :
    IsDedented (dedentLines ls) := by
  obtain ⟨bounded, -⟩ := bodyLines_between ls
  refine ⟨bounded.map fun line member => ?_, ?_, ?_, ?_⟩
  · obtain ⟨count, trimmed⟩ := exists_trimmed member
    exact trimmed.allBlank_eq
  · cases start : (bodyLines ls).head? with
    | none => exact .inl (congrArg (List.map _) (List.head?_eq_none_iff.mp start))
    | some first =>
        -- The line with the least margin loses all of it.
        obtain ⟨least, there, solid, same⟩ :=
          (exists_commonMargin (List.mem_of_mem_head? start) (bounded.first first start)).1
        obtain ⟨count, trimmed⟩ := exists_trimmed there
        refine .inr ⟨_, List.mem_map_of_mem there, trimmed.allBlank_eq.trans solid, ?_⟩
        rw [← same]
        exact marginOf_stripMargin solid
  · refine List.forall_mem_map.mpr fun line _ => trimEnd_stripMargin _ line
  · refine List.forall_mem_map.mpr fun line member found => ?_
    obtain ⟨count, front, back, -, -, -, same⟩ := exists_trimmed member
    apply clean line (mem_of_mem_bodyLines member)
    rw [same]
    exact List.mem_append_left _ (List.mem_append_right _ found)

/-! ## Lines with a margin -/

/-- A line of blanks is blank. -/
theorem allBlank_spaces (width : Nat) : allBlank (List.replicate width ' ') = true := by
  refine List.all_eq_true.mpr fun c member => ?_
  rw [List.eq_of_mem_replicate member]
  decide

/-- A padded line is blank exactly when the line was. -/
theorem allBlank_padLine (width : Nat) (line : List Char) :
    allBlank (padLine width line) = allBlank line := by
  unfold padLine
  split
  · rename_i empty
    rw [List.isEmpty_iff.mp empty]
  · rw [allBlank_append, allBlank_spaces, Bool.true_and]

/-- A line that is not empty is padded with blanks in front. -/
theorem padLine_of_ne_nil (width : Nat) (filled : line ≠ []) :
    padLine width line = List.replicate width ' ' ++ line :=
  if_neg (by simpa using filled)

/-- No margin is put before a line by padding it with nothing. -/
theorem padLine_zero (line : List Char) : padLine 0 line = line := by
  by_cases filled : line = []
  · subst filled
    rfl
  · exact padLine_of_ne_nil 0 filled

/-- A space takes one byte. -/
theorem byteSize_spaces (width : Nat) : byteSize (List.replicate width ' ') = width := by
  rw [byteSize_eq_length, List.length_replicate]
  intro c member
  rw [List.eq_of_mem_replicate member]
  decide

/-- Padding a line adds to its margin. -/
theorem marginOf_padLine (width : Nat) (filled : line ≠ []) :
    marginOf (padLine width line) = width + marginOf line := by
  rw [padLine_of_ne_nil width filled, marginOf,
    List.takeWhile_append_of_pos (blank_of_mem (allBlank_spaces width)), byteSize_append,
    byteSize_spaces, marginOf]

/-- What was put before a line is taken away again. -/
theorem stripMargin_padLine (width : Nat) (tight : trimEnd line = line) :
    stripMargin width (padLine width line) = line := by
  unfold stripMargin
  rw [allBlank_padLine]
  split
  · rename_i blank
    exact (eq_nil_of_tight blank tight).symm
  · rename_i solid
    have filled : line ≠ [] := by
      rintro rfl
      exact solid rfl
    have dropped : dropBytes? width (padLine width line) = some line :=
      dropBytes?_eq_some_iff.mpr ⟨_, padLine_of_ne_nil width filled, byteSize_spaces width⟩
    rw [dropped]
    exact tight

namespace IsDedented

/-- A line that is not blank holds something. -/
theorem ne_nil_of_solid (solid : allBlank line = false) : line ≠ [] := by
  rintro rfl
  cases solid

/-- The padded lines are those of the text that they are joined to. -/
theorem lines_padded (dedented : IsDedented ls) (width : Nat) :
    lines (List.intercalate ['\n'] (ls.map (padLine width))) = ls.map (padLine width) := by
  apply lines_intercalate
  · refine List.forall_mem_map.mpr fun line member => ?_
    by_cases filled : line = []
    · subst filled
      exact List.not_mem_nil
    · rw [padLine_of_ne_nil width filled, List.mem_append, not_or]
      refine ⟨fun found => ?_, dedented.clean line member⟩
      exact absurd (List.eq_of_mem_replicate found) (by decide)
  · refine List.forall_mem_map.mpr fun line member => ?_
    by_cases filled : line = []
    · subst filled
      nofun
    · rw [padLine_of_ne_nil width filled, List.getLast?_append_of_ne_nil _ filled]
      exact getLast?_ne_return (dedented.tight line member)
  · have bounded := dedented.bounded.map fun line _ => allBlank_padLine width line
    exact fun line final => ne_nil_of_solid (bounded.last line final)

/-- Dedented lines come back out of any indentation. -/
theorem dedentLines_padded (dedented : IsDedented ls) (width : Nat) :
    dedentLines (ls.map (padLine width)) = ls := by
  have bounded := dedented.bounded.map fun line _ => allBlank_padLine width line
  rw [dedentLines, bounded.bodyLines_eq]
  rcases dedented.margin with rfl | ⟨line, member, solid, none⟩
  · rfl
  · have filled := ne_nil_of_solid solid
    have margin : commonMargin (ls.map (padLine width)) = width := by
      have own : marginOf (padLine width line) = width := by
        rw [marginOf_padLine width filled, none, Nat.add_zero]
      refine (commonMargin_eq (List.mem_map_of_mem member)
        ((allBlank_padLine width line).trans solid) ?_).trans own
      rw [own]
      refine List.forall_mem_map.mpr fun other _ plain => ?_
      rw [allBlank_padLine] at plain
      rw [marginOf_padLine width (ne_nil_of_solid plain)]
      exact Nat.le_add_right _ _
    rw [margin, List.map_map]
    refine (List.map_congr_left fun other there => ?_).trans (List.map_id _)
    exact stripMargin_padLine width (dedented.tight other there)

/-- A padding of no blanks changes nothing. -/
theorem map_padLine_zero (ls : List (List Char)) : ls.map (padLine 0) = ls :=
  (List.map_congr_left fun line _ => padLine_zero line).trans (List.map_id _)

/-- Dedented lines are those of the text that they are joined to. -/
theorem lines_eq (dedented : IsDedented ls) : lines (List.intercalate ['\n'] ls) = ls := by
  have padded := dedented.lines_padded 0
  rwa [map_padLine_zero] at padded

/-- Dedented lines have no margin to lose. -/
theorem dedentLines_eq (dedented : IsDedented ls) : dedentLines ls = ls := by
  have padded := dedented.dedentLines_padded 0
  rwa [map_padLine_zero] at padded

end IsDedented

/-! ## Whole texts -/

/-- Dedenting the lines of any text makes dedented ones. -/
theorem isDedented_of_lines (text : String) : IsDedented (dedentLines (lines text.toList)) :=
  isDedented_dedentLines fun _ member => lineFeed_notMem_of_mem_lines member

/-- The lines of a dedented text are the dedented lines of the text. -/
theorem lines_dedent (text : String) :
    lines (dedent text).toList = dedentLines (lines text.toList) := by
  rw [toList_dedent, (isDedented_of_lines text).lines_eq]

/-- A text is dedented once and for all. -/
theorem dedent_dedent (text : String) : dedent (dedent text) = dedent text := by
  rw [← String.toList_inj, toList_dedent, lines_dedent, (isDedented_of_lines text).dedentLines_eq,
    toList_dedent]

/-- An indentation is taken away again. -/
theorem dedent_indent (text : String) (width : Nat) :
    dedent (indent (dedent text) width) = dedent text := by
  have dedented := isDedented_of_lines text
  rw [← String.toList_inj, toList_dedent, indent, String.toList_ofList, lines_dedent,
    dedented.lines_padded, dedented.dedentLines_padded, toList_dedent]

/-- The lines of a text are the body that is dedented, with blank lines around it, and each line of
the body comes out without blanks at its ends that it had. If the blanks in front of lines are
ASCII, there is one number of them that every line loses which is not blank. What came out is what
comes out again, also when it was indented in between. -/
theorem dedent_preserves (text : String) :
    dedent (dedent text) = dedent text ∧
    (∀ width, dedent (indent (dedent text) width) = dedent text) ∧
    (Bounded (bodyLines (lines text.toList)) ∧
      ∃ before behind, lines text.toList = before ++ bodyLines (lines text.toList) ++ behind ∧
        (∀ line ∈ before, allBlank line = true) ∧ ∀ line ∈ behind, allBlank line = true) ∧
    List.Forall₂ (fun new old => trim new = trim old ∧ ∃ count, Trimmed count new old)
      (lines (dedent text).toList) (bodyLines (lines text.toList)) ∧
    ((∀ line ∈ lines text.toList, allBlank line = false →
        ∀ c ∈ line.takeWhile isBlank, c.toNat < 128) →
      ∃ count, List.Forall₂ (fun new old => allBlank old = false → Trimmed count new old)
        (lines (dedent text).toList) (bodyLines (lines text.toList))) := by
  refine ⟨dedent_dedent text, dedent_indent text, bodyLines_between _, ?_, ?_⟩
  · rw [lines_dedent, dedentLines, List.forall₂_map_left_iff, List.forall₂_same]
    intro line member
    obtain ⟨count, trimmed⟩ := exists_trimmed member
    exact ⟨trimmed.trim_eq, count, trimmed⟩
  · intro ascii
    refine ⟨commonMargin (bodyLines (lines text.toList)), ?_⟩
    rw [lines_dedent, dedentLines, List.forall₂_map_left_iff, List.forall₂_same]
    intro line member solid
    refine trimmed_stripMargin solid ((exists_commonMargin member solid).2 line member solid) ?_
    intro c inside
    exact utf8Size_of_ascii (ascii line (mem_of_mem_bodyLines member) solid c inside)

-- The margin of two bytes ends inside the ideographic space, which goes as a whole: this line loses
-- one character where the others lose two.
example : dedent "  a\n\u3000b\n   c" = "a\nb\n c" := by decide +kernel

/-- A block with blank lines around it and one inside. -/
def nestedBlock : String := "\n\t  if (x) \x7b\n \n\t    y();  \r\n\t  \x7d\n \n"

/-- Its lines lose a tab and two spaces each. -/
theorem dedent_preserves_nestedBlock :
    (∀ line ∈ lines nestedBlock.toList, allBlank line = false →
      ∀ c ∈ line.takeWhile isBlank, c.toNat < 128) ∧
    ∃ count, List.Forall₂ (fun new old => allBlank old = false → Trimmed count new old)
      (lines (dedent nestedBlock).toList) (bodyLines (lines nestedBlock.toList)) := by
  have checked : ((lines nestedBlock.toList).all fun line =>
      allBlank line || (line.takeWhile isBlank).all fun c => decide (c.toNat < 128)) = true := by
    decide +kernel
  have ascii : ∀ line ∈ lines nestedBlock.toList, allBlank line = false →
      ∀ c ∈ line.takeWhile isBlank, c.toNat < 128 := by
    intro line member solid c inside
    have each := List.all_eq_true.mp checked line member
    rw [solid, Bool.false_or] at each
    exact of_decide_eq_true (List.all_eq_true.mp each c inside)
  obtain ⟨-, -, -, -, even⟩ := dedent_preserves nestedBlock
  exact ⟨ascii, even ascii⟩

end TypeBridge.Text
