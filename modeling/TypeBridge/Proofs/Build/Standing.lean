import TypeBridge.Build.Files
import TypeBridge.Proofs.Build.Joining
import TypeBridge.Proofs.Ensures

/-!
# What stands in a file tree

A path is followed through directories, so it leads to the same place wherever all of them still
stand (`follow_of_keepsDirectories`). Making directories takes nothing away
(`createDirectories_keeps`), a file that was written can be read (`content?_of_write`), a file that
was removed is gone (`not_contains_of_remove`), and the others are read as before
(`content?_of_remove`).
-/

namespace TypeBridge.FileTree

variable {α : Type} {tree later : FileTree α} {place other target : List String} {node : Node α}
  {content : α} {path : String} {steps : List String}

/-- All directories of a tree stand in a later one. -/
def KeepsDirectories (tree later : FileTree α) : Prop :=
  ∀ place, tree.node? place = some .directory → later.node? place = some .directory

/-- All that stands in a tree stands in a later one. -/
def Keeps (tree later : FileTree α) : Prop :=
  ∀ place node, tree.node? place = some node → later.node? place = some node

theorem Keeps.refl : tree.Keeps tree := fun _ _ stands => stands

/-- What stands all along stands later. -/
theorem Keeps.trans {last : FileTree α} (first : tree.Keeps later) (second : later.Keeps last) :
    tree.Keeps last :=
  fun place node stands => second place node (first place node stands)

/-- Where everything stands, all directories do. -/
theorem Keeps.directories (keeps : tree.Keeps later) : tree.KeepsDirectories later :=
  fun place stands => keeps place .directory stands

/-! ## Single places -/

/-- Entries of another place do not matter to a lookup. -/
theorem lookup_filter (apart : other ≠ place) (nodes : List (List String × Node α)) :
    (nodes.filter fun entry => entry.1 != place).lookup other = nodes.lookup other := by
  induction nodes with
  | nil => rfl
  | cons entry rest ih =>
      by_cases here : entry.1 = place
      · have different : (other == entry.1) = false := by simpa [here] using apart
        rw [List.filter_cons_of_neg (by simp [here]), ih, List.lookup_cons, different]
      · rw [List.filter_cons_of_pos (by simp [here]), List.lookup_cons, List.lookup_cons, ih]

/-- What was put at a place stands there. -/
theorem node?_put_same (some : place ≠ []) : (tree.put place node).node? place = .some node := by
  simp [node?, put, some]

/-- Other places stand as before. -/
theorem node?_put_other (apart : other ≠ place) :
    (tree.put place node).node? other = tree.node? other := by
  have different : (other == place) = false := by simpa using apart
  simp [node?, put, List.lookup_cons, different, lookup_filter apart]

/-- Other places stand as before when one is cleared. -/
theorem node?_drop_other (apart : other ≠ place) :
    (tree.drop place).node? other = tree.node? other := by
  simp [node?, drop, lookup_filter apart]

/-- Nothing stands at a place that was cleared. -/
theorem node?_drop_same (some : place ≠ []) : (tree.drop place).node? place = none := by
  have absent : (tree.nodes.filter fun entry => entry.1 != place).lookup place = none := by
    rw [List.lookup_eq_none_iff]
    intro entry member
    have apart : entry.1 ≠ place := by simpa using (List.mem_filter.mp member).2
    simpa using apart.symm
  simp [node?, drop, some, absent]

/-- Nothing that stood is lost where nothing stood at the place that is filled. -/
theorem keeps_put (free : tree.node? place = none) : tree.Keeps (tree.put place node) := by
  intro other stands found
  rw [node?_put_other, found]
  rintro rfl
  rw [free] at found
  cases found

/-- A file that takes a place where no directory stood is in no way. -/
theorem keepsDirectories_put (free : tree.node? place ≠ some .directory) :
    tree.KeepsDirectories (tree.put place node) := by
  intro other stands
  rw [node?_put_other, stands]
  rintro rfl
  exact free stands

/-- Clearing a place that is no directory leaves all directories. -/
theorem keepsDirectories_drop (free : tree.node? place ≠ some .directory) :
    tree.KeepsDirectories (tree.drop place) := by
  intro other stands
  rw [node?_drop_other, stands]
  rintro rfl
  exact free stands

/-- What a look at a place shows stands there. -/
theorem look_eq_ok {stands : Option (Node α)} (looked : tree.look place = .ok stands) :
    tree.node? place = stands := by
  unfold look at looked
  split at looked
  · cases looked
  · exact Except.ok.inj looked

/-- A look at a place shows what stands there in any tree, once its name is short enough in one. -/
theorem look_of_look {stands : Option (Node α)} (looked : tree.look place = .ok stands) :
    later.look place = .ok (later.node? place) := by
  unfold look at looked ⊢
  split at looked
  · cases looked
  · rw [if_neg ‹_›]

/-! ## Following paths -/

/-- Steps lead to the same place wherever all directories still stand. -/
theorem follow_of_keepsDirectories (keeps : tree.KeepsDirectories later)
    (led : tree.follow place steps = .ok target) : later.follow place steps = .ok target := by
  induction steps generalizing place with
  | nil => exact led
  | cons step rest ih =>
      unfold follow at led ⊢
      split at led
      · rw [if_pos ‹_›]
        exact ih led
      split at led
      · rw [if_neg ‹_›, if_pos ‹_›]
        exact ih led
      rw [if_neg ‹_›, if_neg ‹_›]
      split at led
      · rw [if_pos ‹_›]
        exact led
      rw [if_neg ‹_›]
      cases looked : tree.look (place ++ [step]) with
      | error fault => simp [looked] at led
      | ok stands =>
          rw [looked] at led
          match stands, led with
          | some .directory, led =>
              rw [look_of_look looked, keeps _ (look_eq_ok looked)]
              exact ih led

/-- Steps that end with a name lead to a place of that name. -/
theorem getLast?_of_follow {name : String} (stay : name ≠ ".") (back : name ≠ "..")
    (led : tree.follow place (steps ++ [name]) = .ok target) : target.getLast? = some name := by
  induction steps generalizing place with
  | nil =>
      simp only [List.nil_append, follow, stay, back, if_false, List.isEmpty_nil, if_true] at led
      rw [← Except.ok.inj led, List.getLast?_concat]
  | cons step rest ih =>
      rw [List.cons_append] at led
      unfold follow at led
      split at led
      · exact ih led
      split at led
      · exact ih led
      rw [if_neg (by simp)] at led
      split at led
      · exact ih led
      all_goals cases led

/-- A path leads to the same place wherever all directories still stand. -/
theorem locate_of_keepsDirectories (keeps : tree.KeepsDirectories later)
    (located : tree.locate path = .ok place) : later.locate path = .ok place := by
  obtain ⟨checked, passed, led⟩ := exists_of_bind_ok located
  unfold locate
  rw [passed]
  exact follow_of_keepsDirectories keeps led

/-- A name joined to a directory leads to a place of that name. -/
theorem getLast?_of_locate {directory name : String} (part : Path.IsPart name) (stay : name ≠ ".")
    (back : name ≠ "..") (located : tree.locate (Path.join directory name) = .ok place) :
    place.getLast? = some name := by
  obtain ⟨checked, -, led⟩ := exists_of_bind_ok located
  rw [Path.steps_join part] at led
  exact getLast?_of_follow stay back led

/-! ## Contents -/

/-- The content of a file is read at the place that its path leads to. -/
theorem content?_eq_some_iff : tree.content? path = some content ↔
    Path.endsWithSlash path = false ∧ ∃ place, tree.locate path = .ok place ∧
      tree.look place = .ok (some (.file content)) := by
  unfold content? find?
  constructor
  · intro read
    cases located : tree.locate path with
    | error fault => simp [located, bind, Except.bind] at read
    | ok place =>
        cases looked : tree.look place with
        | error fault => simp [located, looked, bind, Except.bind] at read
        | ok stands =>
            simp only [located, looked, bind, Except.bind] at read
            match stands, read with
            | some (.file other), read =>
                cases slash : Path.endsWithSlash path with
                | true => simp [slash] at read
                | false =>
                    have same : other = content := by simpa [slash] using read
                    exact ⟨rfl, place, rfl, by rw [looked, same]⟩
  · rintro ⟨slash, place, located, looked⟩
    simp [located, looked, slash, bind, Except.bind]

/-- A file is read as before wherever all directories still stand and nothing changed in its
place. -/
theorem content?_of_keepsDirectories (keeps : tree.KeepsDirectories later)
    (read : tree.content? path = some content)
    (same : ∀ place, tree.locate path = .ok place → later.node? place = tree.node? place) :
    later.content? path = some content := by
  obtain ⟨slash, place, located, looked⟩ := content?_eq_some_iff.mp read
  refine content?_eq_some_iff.mpr ⟨slash, place, locate_of_keepsDirectories keeps located, ?_⟩
  rw [look_of_look looked, same place located, look_eq_ok looked]

/-- A file that still stands has the same content. -/
theorem Keeps.content? (keeps : tree.Keeps later) (read : tree.content? path = some content) :
    later.content? path = some content := by
  refine content?_of_keepsDirectories keeps.directories read fun place located => ?_
  obtain ⟨-, other, found, looked⟩ := content?_eq_some_iff.mp read
  cases located.symm.trans found
  rw [look_eq_ok looked, keeps _ _ (look_eq_ok looked)]

/-- What is written is a file. -/
theorem exists_of_write (written : tree.write path content = .ok later) :
    Path.endsWithSlash path = false ∧ ∃ place, tree.locate path = .ok place ∧
      tree.node? place ≠ some .directory ∧ tree.look place = .ok (tree.node? place) ∧
      later = tree.put place (.file content) := by
  obtain ⟨place, located, written⟩ := exists_of_bind_ok written
  by_cases slash : Path.endsWithSlash path = true
  · rw [if_pos slash] at written
    cases written
  rw [if_neg slash] at written
  obtain ⟨stands, looked, written⟩ := exists_of_bind_ok written
  refine ⟨Bool.eq_false_iff.mpr slash, place, located, ?_, look_of_look looked, ?_⟩
  · intro directory
    rw [← look_eq_ok looked, directory] at written
    cases written
  · match stands, written with
    | none, written => exact (Except.ok.inj written).symm
    | some (.file _), written => exact (Except.ok.inj written).symm

/-- A file that was written can be read. -/
theorem content?_of_write (written : tree.write path content = .ok later) :
    later.content? path = some content := by
  obtain ⟨slash, place, located, free, looked, rfl⟩ := exists_of_write written
  have inside : place ≠ [] := by
    rintro rfl
    exact free rfl
  refine content?_eq_some_iff.mpr ⟨slash, place,
    locate_of_keepsDirectories (keepsDirectories_put free) located, ?_⟩
  rw [look_of_look looked, node?_put_same inside]

/-! ## Making directories -/

/-- Making a directory takes nothing away. -/
theorem makeDirectory_keeps (made : tree.makeDirectory steps = .ok later) : tree.Keeps later := by
  obtain ⟨place, led, made⟩ := exists_of_bind_ok made
  obtain ⟨stands, looked, made⟩ := exists_of_bind_ok made
  match stands, made with
  | none, made =>
      rw [← Except.ok.inj made]
      exact keeps_put (look_eq_ok looked)

/-- Nor does making sure of a directory. -/
theorem ensureDirectory_keeps (made : tree.ensureDirectory steps = .ok later) :
    tree.Keeps later := by
  unfold ensureDirectory at made
  split at made
  · rw [← Except.ok.inj made]
    exact makeDirectory_keeps ‹_›
  · split at made
    · rw [← Except.ok.inj made]
      exact .refl
    · cases made

/-- Nor does making all directories on the way. -/
theorem makeWay_keeps (made : tree.makeWay steps = .ok later) : tree.Keeps later := by
  fun_induction makeWay tree steps generalizing later with
  | case1 steps tree' ensured =>
      rw [← Except.ok.inj made]
      exact ensureDirectory_keeps ensured
  | case2 steps fault failed missing tree' way ih =>
      exact (ih way).trans (ensureDirectory_keeps made)
  | case3 => cases made
  | case4 => cases made

/-- Making the way to a path takes nothing away. -/
theorem createDirectories_keeps (made : tree.createDirectories path = .ok later) :
    tree.Keeps later := by
  obtain ⟨checked, -, made⟩ := exists_of_bind_ok made
  exact makeWay_keeps made

/-! ## Removing files -/

/-- What is removed is a file. -/
theorem exists_of_remove (removed : tree.remove path = .ok later) :
    ∃ place, tree.locate path = .ok place ∧ tree.node? place ≠ some .directory ∧
      later = tree.drop place := by
  obtain ⟨place, located, removed⟩ := exists_of_bind_ok removed
  obtain ⟨stands, looked, removed⟩ := exists_of_bind_ok removed
  match stands, removed with
  | some (.file content), removed =>
      refine ⟨place, located, ?_, ?_⟩
      · rw [look_eq_ok looked]
        exact nofun
      · by_cases slash : Path.endsWithSlash path = true
        · simp [slash] at removed
        · simpa [slash, eq_comm] using removed

/-- Nothing stands any more where a file was removed. -/
theorem not_contains_of_remove (removed : tree.remove path = .ok later) :
    later.contains path = false := by
  obtain ⟨place, located, free, rfl⟩ := exists_of_remove removed
  have inside : place ≠ [] := by
    rintro rfl
    exact free rfl
  have led : (tree.drop place).locate path = .ok place :=
    locate_of_keepsDirectories (keepsDirectories_drop free) located
  have looked : (tree.drop place).look place = .ok none ∨
      (tree.drop place).look place = .error .nameTooLong := by
    unfold look
    split
    · exact .inr rfl
    · exact .inl (congrArg Except.ok (node?_drop_same inside))
  unfold contains find?
  rcases looked with nothing | refused
  · simp [led, nothing, bind, Except.bind]
  · simp [led, refused, bind, Except.bind]

/-- A file is read as before after one at another place was removed. -/
theorem content?_of_remove {gone : String} (removed : tree.remove gone = .ok later)
    (read : tree.content? path = some content)
    (apart : ∀ place, tree.locate path = .ok place → tree.locate gone ≠ .ok place) :
    later.content? path = some content := by
  obtain ⟨place, located, free, rfl⟩ := exists_of_remove removed
  refine content?_of_keepsDirectories (keepsDirectories_drop free) read fun other found => ?_
  refine node?_drop_other ?_
  rintro rfl
  exact apart other found located

end TypeBridge.FileTree
