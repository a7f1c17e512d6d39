import TypeBridge.Build.Path
import TypeBridge.Proofs.Text.Collapsing

/-!
# Names joined to directories

A plain name that is joined to a directory is one more step (`steps_join`), and an extension is put
behind that name (`withExtension_join`).
-/

namespace TypeBridge.Path

variable {directory name stem : String}

/-- A name that is one step of its own: not empty and without slashes. -/
structure IsPart (name : String) : Prop where
  some : name ≠ ""
  slashless : name.toList.any isSlash = false

theorem IsPart.isSlash_eq_false (part : IsPart name) : ∀ c ∈ name.toList, isSlash c = false := by
  simpa using part.slashless

theorem IsPart.not_absolute (part : IsPart name) : isAbsolute name = false := by
  refine decide_eq_false fun absolute => ?_
  simpa [isSlash] using part.isSlash_eq_false '/' (List.mem_of_head? absolute)

theorem IsPart.toList_ne_nil (part : IsPart name) : name.toList ≠ [] := by
  simpa using part.some

/-- A joined path is an opening with the name behind it: the opening depends on the directory alone,
has its steps, and ends with a slash unless it is empty. -/
theorem exists_opening (directory : String) : ∃ opening : List Char,
    (∀ name, isAbsolute name = false →
      join directory name = String.ofList (opening ++ name.toList)) ∧
    (opening = [] ∨ ∃ front, opening = front ++ ['/']) ∧
    steps (String.ofList opening) = steps directory := by
  by_cases empty : directory = ""
  · subst empty
    refine ⟨[], fun name relative => ?_, .inl rfl, rfl⟩
    simp [join, relative]
  by_cases slash : endsWithSlash directory = true
  · obtain ⟨front, same⟩ := List.getLast?_eq_some_iff.mp (of_decide_eq_true slash)
    refine ⟨directory.toList, fun name relative => ?_, .inr ⟨front, same⟩, by simp⟩
    simp [join, relative, slash, String.ofList_append]
  · refine ⟨directory.toList ++ ['/'], fun name relative => ?_, .inr ⟨_, rfl⟩, ?_⟩
    · simp [join, relative, slash, empty, String.ofList_append, String.append_assoc]
    · unfold steps
      rw [String.toList_ofList, Text.pieces_append_cons _ [] (by rfl)]
      simp [Text.pieces]

theorem steps_part (part : IsPart name) (opening : List Char)
    (ends : opening = [] ∨ ∃ front, opening = front ++ ['/']) :
    steps (String.ofList (opening ++ name.toList)) = steps (String.ofList opening) ++ [name] := by
  have alone : Text.pieces isSlash name.toList = [name.toList] :=
    Text.pieces_eq_singleton part.isSlash_eq_false
  unfold steps
  rcases ends with rfl | ⟨front, rfl⟩
  · simp [alone, part.some, Text.pieces]
  · simp only [String.toList_ofList, List.append_assoc, List.singleton_append]
    rw [Text.pieces_append_cons front name.toList (by rfl),
      Text.pieces_append_cons front [] (by rfl), alone]
    simp [part.some, Text.pieces]

/-- A name joined to a directory is one more step. -/
theorem steps_join (part : IsPart name) (directory : String) :
    steps (join directory name) = steps directory ++ [name] := by
  obtain ⟨opening, joined, ends, same⟩ := exists_opening directory
  rw [joined name part.not_absolute, steps_part part opening ends, same]

/-- A path is cut before the part that it ends with. -/
theorem cutAtLast_part (part : IsPart name) {opening : List Char}
    (ends : opening = [] ∨ ∃ front, opening = front ++ ['/']) :
    cutAtLast isSlash (Text.dropTail isSlash (opening ++ name.toList)) =
      (opening, name.toList) := by
  obtain ⟨front, last, same⟩ :=
    (List.eq_nil_or_concat' name.toList).resolve_left part.toList_ne_nil
  have kept : Text.dropTail isSlash (opening ++ name.toList) = opening ++ name.toList := by
    rw [same, ← List.append_assoc]
    exact Text.dropTail_concat _ (part.isSlash_eq_false last (by simp [same]))
  have before : Text.dropTail (fun c => !isSlash c) (opening ++ name.toList) = opening := by
    rw [Text.dropTail_append opening fun c member => by simp [part.isSlash_eq_false c member]]
    rcases ends with rfl | ⟨front, rfl⟩
    · rfl
    · exact Text.dropTail_concat front (by rfl)
  have behind := Text.dropTail_append_takeTail (fun c => !isSlash c) (opening ++ name.toList)
  rw [before] at behind
  rw [kept, cutAtLast, before, List.append_cancel_left behind]

/-- A name without dots has no extension. -/
theorem stemOf_eq (dotless : '.' ∉ stem.toList) : stemOf stem.toList = stem.toList := by
  have before : Text.dropTail (fun c => !decide (c = '.')) stem.toList = [] := by
    rw [← List.nil_append stem.toList,
      Text.dropTail_append [] fun c member => by simpa using ne_of_mem_of_not_mem member dotless]
    rfl
  simp [stemOf, cutAtLast, before]

/-- An extension is put behind a name that has none. -/
theorem withExtension_join (part : IsPart stem) (dotless : '.' ∉ stem.toList)
    (directory extension : String) (longer : IsPart (stem ++ "." ++ extension)) :
    withExtension (join directory stem) extension = join directory (stem ++ "." ++ extension) := by
  obtain ⟨opening, joined, ends, -⟩ := exists_opening directory
  have back : stem.toList ≠ ['.', '.'] := by
    intro same
    exact dotless (by simp [same])
  simp only [joined stem part.not_absolute, joined _ longer.not_absolute, withExtension,
    String.toList_ofList, cutAtLast_part part ends, stemOf_eq dotless]
  rw [if_neg (by simp [part.toList_ne_nil, back])]
  simp [String.ofList_append, String.append_assoc]

end TypeBridge.Path
