import TypeBridge.Proofs.Text.Cutting
import TypeBridge.Text.Lines

/-!
# Margins of lines

A margin is counted in bytes and may end inside a blank character of another line. Even so a line
loses nothing but blanks at its ends (`exists_trimmed_stripMargin`), and where the blanks in front
take one byte each, one for each byte of the margin (`trimmed_stripMargin`). `bodyLines_between`
says which lines of a text share a margin: those from the first to the last that is not blank.
-/

namespace TypeBridge.Text

variable {text front rest line new old : List Char} {ls : List (List Char)} {margin count : Nat}

/-! ## Bytes -/

theorem byteSize_append (front rest : List Char) :
    byteSize (front ++ rest) = byteSize front + byteSize rest := by
  induction front with
  | nil => rw [List.nil_append, byteSize, Nat.zero_add]
  | cons c front ih => rw [List.cons_append, byteSize, byteSize, ih, Nat.add_assoc]

/-- Only the empty text takes no bytes. -/
theorem eq_nil_of_byteSize (none : byteSize text = 0) : text = [] := by
  cases text with
  | nil => rfl
  | cons c rest =>
      have positive := c.utf8Size_pos
      rw [byteSize] at none
      omega

/-- A text of characters of one byte takes as many bytes as it has characters. -/
theorem byteSize_eq_length (narrow : ∀ c ∈ text, c.utf8Size = 1) :
    byteSize text = text.length := by
  induction text with
  | nil => rfl
  | cons c rest ih =>
      obtain ⟨first, others⟩ := List.forall_mem_cons.mp narrow
      rw [byteSize, first, ih others, List.length_cons, Nat.add_comm]

theorem utf8Size_of_ascii {c : Char} (ascii : c.toNat < 128) : c.utf8Size = 1 := by
  have small : c.val ≤ 0x7F := by
    rw [UInt32.le_iff_toNat_le]
    exact Nat.le_of_lt_succ ascii
  exact if_pos small

/-- What is left without some bytes is what stands behind exactly so many. -/
theorem dropBytes?_eq_some_iff :
    dropBytes? count text = some rest ↔ ∃ front, text = front ++ rest ∧ byteSize front = count := by
  induction text generalizing count with
  | nil =>
      cases count with
      | zero =>
          simp only [dropBytes?, Option.some.injEq]
          refine ⟨fun same => ⟨[], same, rfl⟩, ?_⟩
          rintro ⟨front, same, -⟩
          exact (List.append_eq_nil_iff.mp same.symm).2.symm
      | succ count =>
          refine ⟨nofun, ?_⟩
          rintro ⟨front, same, size⟩
          rw [(List.append_eq_nil_iff.mp same.symm).1] at size
          cases size
  | cons c others ih =>
      cases count with
      | zero =>
          simp only [dropBytes?, Option.some.injEq]
          refine ⟨fun same => ⟨[], same, rfl⟩, ?_⟩
          rintro ⟨front, same, size⟩
          rw [eq_nil_of_byteSize size] at same
          exact same
      | succ count =>
          have positive := c.utf8Size_pos
          rw [dropBytes?]
          split
          · rename_i fits
            rw [ih]
            constructor
            · rintro ⟨front, rfl, size⟩
              exact ⟨c :: front, rfl, by rw [byteSize, size]; omega⟩
            · rintro ⟨front, same, size⟩
              cases front with
              | nil => cases size
              | cons d front =>
                  obtain ⟨rfl, behind⟩ := List.cons.inj same
                  rw [byteSize] at size
                  exact ⟨front, behind, by omega⟩
          · rename_i large
            refine ⟨nofun, ?_⟩
            rintro ⟨front, same, size⟩
            cases front with
            | nil => cases size
            | cons d front =>
                obtain ⟨rfl, behind⟩ := List.cons.inj same
                rw [byteSize] at size
                omega

/-! ## Blanks at the ends of lines -/

theorem blank_of_mem (blank : allBlank text = true) : ∀ c ∈ text, isBlank c = true :=
  List.all_eq_true.mp blank

theorem allBlank_append (front rest : List Char) :
    allBlank (front ++ rest) = (allBlank front && allBlank rest) :=
  List.all_append

theorem allBlank_takeWhile (text : List Char) : allBlank (text.takeWhile isBlank) = true :=
  List.all_eq_true.mpr fun _ member => List.mem_takeWhile_imp member

/-- A line without some characters at its front, and without some at its end, all of them blank. -/
def Trimmed (count : Nat) (new old : List Char) : Prop :=
  ∃ front back, front.length = count ∧ allBlank front = true ∧ allBlank back = true ∧
    old = front ++ new ++ back

/-- A line that is not blank does not become blank, and no other way round. -/
theorem Trimmed.allBlank_eq (trimmed : Trimmed count new old) : allBlank new = allBlank old := by
  obtain ⟨front, back, -, blank, blank', rfl⟩ := trimmed
  rw [allBlank_append, allBlank_append, blank, blank', Bool.true_and, Bool.and_true]

/-- Blanks in front of a text do not matter to what is left without them. -/
theorem trimStart_append (rest : List Char) (blank : allBlank front = true) :
    trimStart (front ++ rest) = trimStart rest := by
  rw [trimStart, List.dropWhile_append, List.dropWhile_eq_nil_iff.mpr (blank_of_mem blank)]
  rfl

/-- Both lines are the same without the blanks at their ends. -/
theorem Trimmed.trim_eq (trimmed : Trimmed count new old) : trim new = trim old := by
  obtain ⟨front, back, -, blank, blank', rfl⟩ := trimmed
  rw [trim, trim, List.append_assoc, trimStart_append _ blank]
  have none : back.dropWhile isBlank = [] := List.dropWhile_eq_nil_iff.mpr (blank_of_mem blank')
  rw [trimStart, trimStart, List.dropWhile_append, none]
  split
  · rename_i empty
    rw [List.isEmpty_iff.mp empty]
  · exact (dropTail_append _ (blank_of_mem blank')).symm

/-- A line whose front is blank can lose it, with the blanks at the end. -/
theorem trimmed_append (rest : List Char) (blank : allBlank front = true) :
    Trimmed front.length (trimEnd rest) (front ++ rest) := by
  refine ⟨front, takeTail isBlank rest, rfl, blank, ?_, ?_⟩
  · exact List.all_eq_true.mpr of_mem_takeTail
  · rw [List.append_assoc, trimEnd, dropTail_append_takeTail]

/-! ## The margin of a line -/

/-- What stands at the front of a line and is no larger than its margin is blank. -/
theorem allBlank_of_byteSize_le (front rest : List Char)
    (within : byteSize front ≤ marginOf (front ++ rest)) : allBlank front = true := by
  induction front with
  | nil => rfl
  | cons c front ih =>
      have positive := c.utf8Size_pos
      rw [List.cons_append, marginOf, List.takeWhile_cons] at within
      cases blank : isBlank c with
      | true =>
          simp only [blank, if_true, byteSize] at within
          have others := ih (Nat.le_of_add_le_add_left within)
          rw [allBlank, List.all_cons, blank]
          exact others
      | false =>
          simp only [blank, Bool.false_eq_true, if_false, byteSize] at within
          omega

/-- A margin that is no larger than that of a line takes only blanks from it. -/
theorem exists_trimmed_stripMargin (line : List Char)
    (within : allBlank line = false → margin ≤ marginOf line) :
    ∃ count, Trimmed count (stripMargin margin line) line := by
  unfold stripMargin
  cases blank : allBlank line with
  | true => exact ⟨_, line, [], rfl, blank, rfl, by simp⟩
  | false =>
      cases dropped : dropBytes? margin line with
      | none =>
          -- The margin ends inside a character: all blanks at the front go.
          have parts := trimmed_append (line.dropWhile isBlank) (allBlank_takeWhile line)
          rw [List.takeWhile_append_dropWhile] at parts
          exact ⟨_, parts⟩
      | some rest =>
          obtain ⟨front, rfl, size⟩ := dropBytes?_eq_some_iff.mp dropped
          have small := size ▸ within blank
          exact ⟨_, trimmed_append rest (allBlank_of_byteSize_le front rest small)⟩

/-- Where the blanks at the front take one byte each, a line loses one for each byte of the
margin. -/
theorem trimmed_stripMargin (solid : allBlank line = false) (within : margin ≤ marginOf line)
    (narrow : ∀ c ∈ line.takeWhile isBlank, c.utf8Size = 1) :
    Trimmed margin (stripMargin margin line) line := by
  have blank := allBlank_takeWhile line
  have parts := List.takeWhile_append_dropWhile (p := isBlank) (l := line)
  rw [marginOf, byteSize_eq_length narrow] at within
  generalize line.takeWhile isBlank = lead at *
  generalize line.dropWhile isBlank = core at *
  subst parts
  have cut := List.take_append_drop margin lead
  have size : (lead.take margin).length = margin := List.length_take_of_le within
  have dropped : dropBytes? margin (lead ++ core) = some (lead.drop margin ++ core) := by
    refine dropBytes?_eq_some_iff.mpr ⟨lead.take margin, by rw [← List.append_assoc, cut], ?_⟩
    rw [byteSize_eq_length fun c member => narrow c (List.mem_of_mem_take member), size]
  have front : allBlank (lead.take margin) = true :=
    List.all_eq_true.mpr fun c member => blank_of_mem blank c (List.mem_of_mem_take member)
  have trimmed := trimmed_append (lead.drop margin ++ core) front
  rw [← List.append_assoc, cut, size] at trimmed
  rw [stripMargin, if_neg (by simp [solid]), dropped]
  exact trimmed

/-- A line that loses all of its own margin starts with no blank. -/
theorem marginOf_stripMargin (solid : allBlank line = false) :
    marginOf (stripMargin (marginOf line) line) = 0 := by
  have dropped : dropBytes? (marginOf line) line = some (line.dropWhile isBlank) :=
    dropBytes?_eq_some_iff.mpr ⟨_, List.takeWhile_append_dropWhile.symm, rfl⟩
  have start : (line.dropWhile isBlank).takeWhile isBlank = [] := by
    have parts := List.takeWhile_append_dropWhile (p := isBlank) (l := line.dropWhile isBlank)
    rw [List.dropWhile_idempotent] at parts
    exact List.append_left_eq_self.mp parts
  rw [stripMargin, if_neg (by simp [solid]), dropped, Option.getD_some, marginOf, trimEnd]
  have parts := dropTail_append_takeTail isBlank (line.dropWhile isBlank)
  cases kept : dropTail isBlank (line.dropWhile isBlank) with
  | nil => rfl
  | cons c rest =>
      rw [← parts, kept, List.cons_append, List.takeWhile_cons] at start
      cases blank : isBlank c with
      | true => simp [blank] at start
      | false => simp [blank, byteSize]

/-- No blank is left at the end of a line that lost a margin. -/
theorem trimEnd_stripMargin (margin : Nat) (line : List Char) :
    trimEnd (stripMargin margin line) = stripMargin margin line := by
  unfold stripMargin
  split
  · rfl
  · exact dropTail_dropTail _ _

/-! ## The margin that lines share -/

/-- The least margin of some lines, one of which is not blank. -/
theorem exists_commonMargin (member : line ∈ ls) (solid : allBlank line = false) :
    (∃ least ∈ ls, allBlank least = false ∧ marginOf least = commonMargin ls) ∧
      ∀ other ∈ ls, allBlank other = false → commonMargin ls ≤ marginOf other := by
  have inside : ∀ other ∈ ls, allBlank other = false →
      marginOf other ∈ (ls.filter fun line => !allBlank line).map marginOf :=
    fun other there plain => List.mem_map_of_mem (List.mem_filter.mpr ⟨there, by rw [plain]; rfl⟩)
  unfold commonMargin
  cases least : ((ls.filter fun line => !allBlank line).map marginOf).min? with
  | none =>
      rw [List.min?_eq_none_iff] at least
      exact absurd (least ▸ inside line member solid) (List.not_mem_nil)
  | some margin =>
      obtain ⟨attained, smallest⟩ := List.min?_eq_some_iff.mp least
      rw [Option.getD_some]
      refine ⟨?_, fun other there plain => smallest _ (inside other there plain)⟩
      obtain ⟨other, there, same⟩ := List.mem_map.mp attained
      obtain ⟨there, plain⟩ := List.mem_filter.mp there
      exact ⟨other, there, by simpa using plain, same⟩

/-- A margin that every line has, and one line no more, is the one that they share. -/
theorem commonMargin_eq (member : line ∈ ls) (solid : allBlank line = false)
    (within : ∀ other ∈ ls, allBlank other = false → marginOf line ≤ marginOf other) :
    commonMargin ls = marginOf line := by
  obtain ⟨⟨least, there, plain, same⟩, smallest⟩ := exists_commonMargin member solid
  exact Nat.le_antisymm (smallest line member solid) (same ▸ within least there plain)

/-! ## The lines between blank ones -/

/-- The first and the last of some lines are not blank. -/
structure Bounded (ls : List (List Char)) : Prop where
  first : ∀ line ∈ ls.head?, allBlank line = false
  last : ∀ line ∈ ls.getLast?, allBlank line = false

/-- Blank lines stand before and behind the body of a text, and the body is bounded. -/
theorem bodyLines_between (ls : List (List Char)) : Bounded (bodyLines ls) ∧
    ∃ before behind, ls = before ++ bodyLines ls ++ behind ∧
      (∀ line ∈ before, allBlank line = true) ∧ ∀ line ∈ behind, allBlank line = true := by
  have parts := dropTail_append_takeTail allBlank (ls.dropWhile allBlank)
  have body : bodyLines ls = dropTail allBlank (ls.dropWhile allBlank) := rfl
  rw [← body] at parts
  refine ⟨⟨?_, ?_⟩, ls.takeWhile allBlank, takeTail allBlank (ls.dropWhile allBlank), ?_, ?_, ?_⟩
  · intro line found
    have start : (ls.dropWhile allBlank).head? = some line := by
      rw [← parts, List.head?_append, Option.mem_def.mp found]
      rfl
    have plain := List.head?_dropWhile_not allBlank ls
    rw [start] at plain
    simpa using plain
  · intro line found
    rw [bodyLines, List.getLast?_reverse] at found
    have plain := List.head?_dropWhile_not allBlank (ls.dropWhile allBlank).reverse
    rw [Option.mem_def.mp found] at plain
    simpa using plain
  · rw [List.append_assoc, parts, List.takeWhile_append_dropWhile]
  · exact fun _ member => List.mem_takeWhile_imp member
  · intro line member
    exact List.mem_takeWhile_imp (List.mem_reverse.mp member)

/-- The body of a text is among its lines. -/
theorem mem_of_mem_bodyLines (member : line ∈ bodyLines ls) : line ∈ ls := by
  obtain ⟨-, before, behind, parts, -⟩ := bodyLines_between ls
  rw [parts]
  exact List.mem_append_left _ (List.mem_append_right _ member)

/-- Bounded lines are their own body. -/
theorem Bounded.bodyLines_eq (bounded : Bounded ls) : bodyLines ls = ls := by
  have front : ls.dropWhile allBlank = ls := by
    cases ls with
    | nil => rfl
    | cons line rest => exact List.dropWhile_cons_of_neg (by simp [bounded.first line rfl])
  have back : ls.reverse.dropWhile allBlank = ls.reverse := by
    cases reversed : ls.reverse with
    | nil => rfl
    | cons line rest =>
        have last : ls.getLast? = some line := by
          rw [← List.head?_reverse, reversed, List.head?_cons]
        exact List.dropWhile_cons_of_neg (by simp [bounded.last line last])
  rw [bodyLines, front, back, List.reverse_reverse]

/-- Lines stay bounded when each becomes one that is blank just when it was. -/
theorem Bounded.map {change : List Char → List Char} (bounded : Bounded ls)
    (same : ∀ line ∈ ls, allBlank (change line) = allBlank line) : Bounded (ls.map change) where
  first line found := by
    rw [List.head?_map, Option.mem_def, Option.map_eq_some_iff] at found
    obtain ⟨before, start, rfl⟩ := found
    rw [same before (List.mem_of_mem_head? start)]
    exact bounded.first before start
  last line found := by
    rw [List.getLast?_map, Option.mem_def, Option.map_eq_some_iff] at found
    obtain ⟨before, final, rfl⟩ := found
    rw [same before (List.mem_of_getLast? final)]
    exact bounded.last before final

end TypeBridge.Text
