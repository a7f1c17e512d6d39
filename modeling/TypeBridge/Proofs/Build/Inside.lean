import TypeBridge.Build.Artifact
import TypeBridge.Proofs.Build.Standing

/-!
# Paths inside a directory

A name that is joined to a directory leads into it unless the name is absolute. `inside_join_iff`
says so of a name that is put together from a stem without dots and a suffix: no step of such a name
stays in place or leads back. What a step does to a tree is told by the places that it may change
(`ChangesOnly`); a path leads nowhere but to its `destination`, whatever stands in the tree.
-/

namespace TypeBridge

namespace Text

/-- A text that lost its tail ends with something to be kept, if there is anything left. -/
theorem dropTail_ends (p : Char → Bool) (text : List Char) : dropTail p text = [] ∨
    ∃ front c, dropTail p text = front ++ [c] ∧ p c = false := by
  rcases List.eq_nil_or_concat' (dropTail p text) with none | ⟨front, c, same⟩
  · exact .inl none
  · refine .inr ⟨front, c, same, Bool.eq_false_iff.mpr fun dropped => ?_⟩
    have again := dropTail_dropTail p text
    rw [same, dropTail_append front (by simpa using dropped)] at again
    have lengths := (List.rdropWhile_prefix p (l := front)).length_le
    have longer := congrArg List.length again
    rw [dropTail] at longer
    simp [List.rdropWhile] at lengths longer
    omega

end Text

namespace Path

variable {directory path name stem suffix : String} {place rest : List String}

/-- The place that some steps lead to from another one, if they can all be taken. -/
def walk (place : List String) : List String → List String
  | [] => place
  | step :: rest =>
    if step = "." then walk place rest
    else if step = ".." then walk place.dropLast rest
    else walk (place ++ [step]) rest

/-- The place that a path leads to, if it leads anywhere. -/
def destination (path : String) : List String := walk [] (steps path)

/-- A path that leads into a directory by steps that neither stay in place nor lead back. -/
def Inside (directory path : String) : Prop :=
  ∃ rest, rest ≠ [] ∧ (∀ step ∈ rest, step ≠ "." ∧ step ≠ "..") ∧
    steps path = steps directory ++ rest

/-- A walk along two lists of steps goes along the first, then along the second. -/
theorem walk_append (place front rest : List String) :
    walk place (front ++ rest) = walk (walk place front) rest := by
  induction front generalizing place with
  | nil => rfl
  | cons step front ih =>
      simp only [List.cons_append, walk]
      split
      · exact ih _
      split
      · exact ih _
      · exact ih _

/-- Names lead further. -/
theorem walk_names (names : ∀ step ∈ rest, step ≠ "." ∧ step ≠ "..") (place : List String) :
    walk place rest = place ++ rest := by
  induction rest generalizing place with
  | nil => exact (List.append_nil place).symm
  | cons step rest ih =>
      rw [List.forall_mem_cons] at names
      rw [walk, if_neg names.1.1, if_neg names.1.2, ih names.2, List.append_assoc,
        List.singleton_append]

/-- The place of a path inside a directory is below that of the directory. -/
theorem Inside.destination (inside : Inside directory path) :
    destination directory <+: destination path := by
  obtain ⟨rest, -, names, same⟩ := inside
  unfold Path.destination
  rw [same, walk_append, walk_names names]
  exact List.prefix_append _ _

/-! ## Texts with slashes -/

/-- Steps are taken one after the other where a slash divides the text. -/
theorem steps_append {opening : List Char} (ends : opening = [] ∨ ∃ front, opening = front ++ ['/'])
    (text : List Char) : steps (String.ofList (opening ++ text)) =
      steps (String.ofList opening) ++ steps (String.ofList text) := by
  unfold steps
  rcases ends with rfl | ⟨front, rfl⟩
  · simp [Text.pieces]
  · simp only [String.toList_ofList, List.append_assoc, List.singleton_append]
    rw [Text.pieces_append_cons front text (by rfl), Text.pieces_append_cons front [] (by rfl)]
    simp [Text.pieces]

/-- The steps of a relative name are taken from the directory that it is joined to. -/
theorem steps_join_relative (relative : isAbsolute name = false) (directory : String) :
    steps (join directory name) = steps directory ++ steps name := by
  obtain ⟨opening, joined, ends, same⟩ := exists_opening directory
  rw [joined name relative, steps_append ends, same, String.ofList_toList]

/-- The part of a text up to its last slash. -/
def folder (text : String) : String := String.ofList (cutAtLast isSlash text.toList).1

/-- A folder is empty or ends with a slash. -/
theorem folder_ends (text : String) :
    (folder text).toList = [] ∨ ∃ front, (folder text).toList = front ++ ['/'] := by
  rw [folder, String.toList_ofList, cutAtLast]
  rcases Text.dropTail_ends (fun c => !isSlash c) text.toList with none | ⟨front, c, same, slash⟩
  · exact .inl none
  · obtain rfl : c = '/' := by simpa [isSlash] using slash
    exact .inr ⟨front, same⟩

/-- The part behind the last slash, with a suffix, is the last step. -/
theorem exists_steps_eq (part : IsPart suffix) (stem : String) :
    ∃ last : List Char, (∀ c ∈ last, c ∈ stem.toList) ∧
      steps (stem ++ suffix) = steps (folder stem) ++ [String.ofList last ++ suffix] := by
  obtain ⟨last, behind⟩ : ∃ last, last = (cutAtLast isSlash stem.toList).2 := ⟨_, rfl⟩
  have whole : stem.toList = (folder stem).toList ++ last := by
    rw [folder, String.toList_ofList, behind]
    exact (Text.dropTail_append_takeTail _ _).symm
  have slashless : ∀ c ∈ last, isSlash c = false := by
    intro c member
    rw [behind] at member
    simpa using Text.of_mem_takeTail c member
  have longer : IsPart (String.ofList last ++ suffix) := by
    refine ⟨?_, ?_⟩
    · simp [part.some]
    · rw [String.toList_append, String.toList_ofList, List.any_append, part.slashless,
        Bool.or_false]
      simpa using slashless
  refine ⟨last, fun c member => by rw [whole]; exact List.mem_append_right _ member, ?_⟩
  have text : stem ++ suffix =
      String.ofList ((folder stem).toList ++ (String.ofList last ++ suffix).toList) := by
    rw [← String.toList_inj]
    simp [whole]
  rw [text, steps_part longer _ (folder_ends stem), String.ofList_toList]

/-- No step of a text without dots stays in place or leads back. -/
theorem names_of_dotless (dotless : '.' ∉ path.toList) :
    ∀ step ∈ steps path, step ≠ "." ∧ step ≠ ".." := by
  intro step member
  have inner : ∀ c ∈ step.toList, c ∈ path.toList := by
    intro c inside
    obtain ⟨piece, cut, rfl⟩ := List.mem_map.mp (List.mem_filter.mp member).1
    rw [String.toList_ofList] at inside
    have whole := List.mem_flatten_of_mem cut inside
    rw [Text.flatten_pieces] at whole
    exact (List.mem_filter.mp whole).1
  constructor
  · rintro rfl
    exact dotless (inner '.' (by decide))
  · rintro rfl
    exact dotless (inner '.' (by decide))

/-- A suffix that can stand at the end of a name and is not made of dots alone. -/
structure IsSuffix (suffix : String) : Prop where
  part : IsPart suffix
  solid : ∃ c ∈ suffix.toList, c ≠ '.'

/-- No step of a stem without dots and a suffix stays in place or leads back. -/
theorem names_of_suffix (ending : IsSuffix suffix) (dotless : '.' ∉ stem.toList) :
    ∀ step ∈ steps (stem ++ suffix), step ≠ "." ∧ step ≠ ".." := by
  obtain ⟨last, from_stem, same⟩ := exists_steps_eq ending.part stem
  obtain ⟨c, member, solid⟩ := ending.solid
  have outer : '.' ∉ (folder stem).toList := by
    intro inside
    rw [folder, String.toList_ofList] at inside
    have whole := Text.dropTail_append_takeTail (fun c => !isSlash c) stem.toList
    exact dotless (whole ▸ List.mem_append_left _ inside)
  rw [same, List.forall_mem_append]
  refine ⟨names_of_dotless outer, List.forall_mem_singleton.mpr ⟨?_, ?_⟩⟩
  all_goals
    intro dots
    have inside : c ∈ (String.ofList last ++ suffix).toList := by
      rw [String.toList_append]
      exact List.mem_append_right _ member
    rw [dots] at inside
    exact solid (by simpa using inside)

/-- An ending that is part of a file name does not make a path absolute. -/
theorem isAbsolute_append (ending : IsPart suffix) (stem : String) :
    isAbsolute (stem ++ suffix) = isAbsolute stem := by
  have relative := ending.not_absolute
  unfold isAbsolute at relative ⊢
  rw [String.toList_append]
  cases text : stem.toList with
  | nil => simpa using relative
  | cons c rest => rfl

/-- A stem that leads into a directory when it is joined to it with a suffix: it is relative, or
starts with the directory itself. -/
def Stays (directory stem : String) : Prop :=
  isAbsolute stem = false ∨ steps directory <+: steps (folder stem)

/-- A name with a suffix that is joined to a directory leads into it exactly if its stem does. -/
theorem inside_join_iff (ending : IsSuffix suffix) (dotless : '.' ∉ stem.toList)
    (directory : String) :
    Inside directory (join directory (stem ++ suffix)) ↔ Stays directory stem := by
  obtain ⟨last, -, same⟩ := exists_steps_eq ending.part stem
  have names := names_of_suffix ending dotless
  have absolute := isAbsolute_append ending.part stem
  unfold Stays
  cases relative : isAbsolute stem with
  | false =>
      rw [relative] at absolute
      refine iff_of_true ⟨_, ?_, names, steps_join_relative absolute directory⟩ (.inl rfl)
      simp [same]
  | true =>
      rw [relative] at absolute
      -- An absolute name is not joined to the directory but takes its place.
      have alone : join directory (stem ++ suffix) = stem ++ suffix := by
        rw [join, absolute, if_pos rfl]
      rw [alone, Inside, same]
      constructor
      · rintro ⟨rest, filled, -, split⟩
        obtain ⟨front, step, rfl⟩ := (List.eq_nil_or_concat' rest).resolve_left filled
        rw [← List.append_assoc] at split
        exact .inr ⟨front, (List.append_inj' split rfl).1.symm⟩
      · intro stays
        obtain ⟨front, split⟩ := stays.resolve_left (by decide)
        refine ⟨front ++ [String.ofList last ++ suffix], by simp, fun step member => ?_, ?_⟩
        · refine names step ?_
          rw [same, ← split, List.append_assoc]
          exact List.mem_append_right _ member
        · rw [← split, List.append_assoc]

end Path

/-! ## Trees -/

namespace FileTree

variable {α : Type} {tree middle later : FileTree α} {path : String} {content : α}
  {places more : List (List String)} {place target : List String} {steps : List String}

/-- Steps lead nowhere but where they lead in every tree. -/
theorem eq_walk_of_follow (led : tree.follow place steps = .ok target) :
    target = Path.walk place steps := by
  induction steps generalizing place with
  | nil => exact (Except.ok.inj led).symm
  | cons step rest ih =>
      unfold follow at led
      unfold Path.walk
      split at led
      · rw [if_pos ‹_›]
        exact ih led
      split at led
      · rw [if_neg ‹_›, if_pos ‹_›]
        exact ih led
      rw [if_neg ‹_›, if_neg ‹_›]
      split at led
      · rename_i last
        rw [List.isEmpty_iff.mp last, Path.walk]
        exact (Except.ok.inj led).symm
      · split at led
        · exact ih led
        all_goals cases led

/-- A path is located where its steps lead. -/
theorem eq_destination_of_locate (located : tree.locate path = .ok place) :
    place = Path.destination path := by
  obtain ⟨checked, -, led⟩ := exists_of_bind_ok located
  exact eq_walk_of_follow led

/-- A tree behind a step that changes nothing but what stands at some places. -/
def ChangesOnly (places : List (List String)) (tree later : FileTree α) : Prop :=
  ∀ place, place ∉ places → later.node? place = tree.node? place

namespace ChangesOnly

theorem refl (places : List (List String)) (tree : FileTree α) : ChangesOnly places tree tree :=
  fun _ _ => rfl

/-- What changes only at some places twice over changes only there. -/
theorem trans (first : ChangesOnly places tree middle) (second : ChangesOnly places middle later) :
    ChangesOnly places tree later :=
  fun place outside => (second place outside).trans (first place outside)

/-- What changes only at some places changes only at more. -/
theorem mono (changes : ChangesOnly places tree later) (inside : places ⊆ more) :
    ChangesOnly more tree later :=
  fun place outside => changes place fun member => outside (inside member)

end ChangesOnly

/-- Writing a file changes only the place of its path. -/
theorem changesOnly_write (written : tree.write path content = .ok later) :
    ChangesOnly [Path.destination path] tree later := by
  obtain ⟨-, place, located, -, -, rfl⟩ := exists_of_write written
  intro other outside
  refine node?_put_other ?_
  rintro rfl
  exact outside (List.mem_singleton.mpr (eq_destination_of_locate located))

/-- All directories still stand where a file was written. -/
theorem keepsDirectories_write (written : tree.write path content = .ok later) :
    tree.KeepsDirectories later := by
  obtain ⟨-, place, -, free, -, rfl⟩ := exists_of_write written
  exact keepsDirectories_put free

/-- Removing a file changes only the place of its path. -/
theorem changesOnly_remove (removed : tree.remove path = .ok later) :
    ChangesOnly [Path.destination path] tree later := by
  obtain ⟨place, located, -, rfl⟩ := exists_of_remove removed
  intro other outside
  refine node?_drop_other ?_
  rintro rfl
  exact outside (List.mem_singleton.mpr (eq_destination_of_locate located))

/-! ## Directories that stand -/

/-- A directory stands where the steps of a path can be followed to one. -/
theorem isDirectory_iff : tree.isDirectory steps = true ↔
    ∃ place, tree.follow [] steps = .ok place ∧ tree.look place = .ok (some .directory) := by
  unfold isDirectory
  constructor
  · intro stands
    cases led : tree.follow [] steps with
    | error fault => simp [led, bind, Except.bind] at stands
    | ok place =>
        cases looked : tree.look place with
        | error fault => simp [led, looked, bind, Except.bind] at stands
        | ok found =>
            simp only [led, looked, bind, Except.bind] at stands
            cases found with
            | none => cases stands
            | some node =>
                cases node with
                | directory => exact ⟨place, rfl, looked⟩
                | file content => cases stands
  · rintro ⟨place, led, looked⟩
    simp [led, looked, bind, Except.bind]

/-- A directory still stands wherever all directories do. -/
theorem isDirectory_of_keepsDirectories (keeps : tree.KeepsDirectories later)
    (stands : tree.isDirectory steps = true) : later.isDirectory steps = true := by
  obtain ⟨place, led, looked⟩ := isDirectory_iff.mp stands
  refine isDirectory_iff.mpr ⟨place, follow_of_keepsDirectories keeps led, ?_⟩
  rw [look_of_look looked, keeps place (look_eq_ok looked)]

/-- A directory that was made stands. -/
theorem isDirectory_of_ensureDirectory (made : tree.ensureDirectory steps = .ok later) :
    later.isDirectory steps = true := by
  unfold ensureDirectory at made
  split at made
  · rename_i tree' made'
    obtain rfl := Except.ok.inj made
    obtain ⟨place, led, made'⟩ := exists_of_bind_ok made'
    obtain ⟨stands, looked, put⟩ := exists_of_bind_ok made'
    cases stands with
    | some node => cases put
    | none =>
        have free := look_eq_ok looked
        have inside : place ≠ [] := by
          rintro rfl
          cases free
        obtain rfl := Except.ok.inj put
        refine isDirectory_iff.mpr ⟨place, ?_, ?_⟩
        · exact follow_of_keepsDirectories (keeps_put free).directories led
        · rw [look_of_look looked, node?_put_same inside]
  · split at made
    · obtain rfl := Except.ok.inj made
      assumption
    · cases made

/-- Once the way is made, a directory stands at its end. -/
theorem isDirectory_of_makeWay (made : tree.makeWay steps = .ok later) :
    later.isDirectory steps = true := by
  unfold makeWay at made
  split at made
  · obtain rfl := Except.ok.inj made
    exact isDirectory_of_ensureDirectory ‹_›
  · split at made
    · split at made
      · exact isDirectory_of_ensureDirectory made
      · cases made
    · cases made

/-- Once directories are made, one stands at the path. -/
theorem isDirectory_of_createDirectories (made : tree.createDirectories path = .ok later) :
    later.isDirectory (Path.steps path) = true := by
  obtain ⟨checked, -, made⟩ := exists_of_bind_ok made
  exact isDirectory_of_makeWay made

/-- Nothing is made where a directory stands. -/
theorem createDirectories_of_isDirectory (stands : tree.isDirectory (Path.steps path) = true)
    (made : tree.createDirectories path = .ok later) : later = tree := by
  obtain ⟨checked, -, made⟩ := exists_of_bind_ok made
  obtain ⟨place, led, looked⟩ := isDirectory_iff.mp stands
  have refused : tree.makeDirectory (Path.steps path) = .error .exists := by
    simp [makeDirectory, led, looked, bind, Except.bind]
  have kept : tree.ensureDirectory (Path.steps path) = .ok tree := by
    simp [ensureDirectory, refused, stands]
  rw [makeWay, kept] at made
  exact (Except.ok.inj made).symm

end FileTree

end TypeBridge
