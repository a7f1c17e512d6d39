import Mathlib.Data.List.Basic
import Mathlib.Data.List.Induction
import TypeBridge.Proofs.Types.Registry
import TypeBridge.Types.TypeMap

/-!
# What the rows of a registry say

`familiesIn`, `typesOf` and `favouritesOf` read the families of a system and their types off a
registry. The rows that `Registry.familyRows` gathers in one pass say the same
(`familyRows_tell`): `RowsTell` holds of no entries and is kept by every entry taken in.
-/

namespace TypeBridge

namespace Registry

variable {registry : Registry} {target : TypeSystem} {family : Family} {name : TypeName}
  {entries : List RegistryEntry}

/-- The families that a system has types of, in the order in which they first appear. -/
def familiesIn (registry : Registry) (target : TypeSystem) : List Family :=
  ((registry.ofSystem target).filterMap (·.2.family?)).eraseDups

/-- The types of a family in a system, in the order of registration. -/
def typesOf (registry : Registry) (target : TypeSystem) (family : Family) : List TypeName :=
  ((registry.ofSystem target).filter fun type => type.2.family? = some family).map (·.1)

/-- The preferred types of a family in a system, in the order of registration. -/
def favouritesOf (registry : Registry) (target : TypeSystem) (family : Family) : List TypeName :=
  (registry.typesOf target family).filter registry.isPreferred

/-- A type of the family in the system. -/
def belongs (target : TypeSystem) (family : Family) (entry : RegistryEntry) : Bool :=
  entry.name.system = target ∧ entry.info.family? = some family

/-- The families of some entries in a system, in the order in which they first appear. -/
def familiesAmong (target : TypeSystem) (entries : List RegistryEntry) : List Family :=
  (entries.filterMap fun entry =>
    if entry.name.system = target then entry.info.family? else none).eraseDups

/-- The families in a system are those among the entries. -/
theorem familiesIn_eq : registry.familiesIn target = familiesAmong target registry.entries := by
  unfold familiesIn familiesAmong ofSystem toList
  rw [List.filter_map, List.filterMap_map, List.filterMap_filter]
  congr 1
  refine List.filterMap_congr fun entry _ => ?_
  by_cases inside : entry.name.system = target
  · simp [inside]
  · simp [inside]

/-- The types of a family are the entries that belong to it. -/
theorem typesOf_eq : registry.typesOf target family =
    (registry.entries.filter (belongs target family)).map (·.name) := by
  unfold typesOf ofSystem toList
  rw [List.filter_map, List.filter_map, List.map_map, List.filter_filter]
  congr 1
  refine List.filter_congr fun entry _ => ?_
  simp [belongs, Bool.and_comm]

/-- The favourites of a family are the preferred entries that belong to it. -/
theorem Sound.favouritesOf_eq (sound : registry.Sound) : registry.favouritesOf target family =
    ((registry.entries.filter (belongs target family)).filter (·.preferred)).map (·.name) := by
  unfold favouritesOf
  rw [typesOf_eq, List.filter_map]
  congr 1
  refine List.filter_congr fun entry member => ?_
  exact sound.isPreferred_of_mem (List.mem_filter.mp member).1

/-- No entry is of a family that is not listed among the families. -/
theorem filter_eq_nil (unlisted : family ∉ familiesAmong target entries) :
    entries.filter (belongs target family) = [] := by
  rw [List.filter_eq_nil_iff]
  intro entry member belonging
  simp only [belongs, decide_eq_true_eq] at belonging
  refine unlisted ?_
  rw [familiesAmong, List.mem_eraseDups, List.mem_filterMap]
  exact ⟨entry, member, by simp [belonging.1, belonging.2]⟩

/-- A family with a type in a system is listed among the families there. -/
theorem mem_familiesIn (some : registry.typesOf target family ≠ []) :
    family ∈ registry.familiesIn target := by
  rw [familiesIn_eq]
  by_contra unlisted
  rw [typesOf_eq, filter_eq_nil unlisted] at some
  exact some rfl

/-- A family with favourites has types. -/
theorem typesOf_ne_nil_of_favourites (some : registry.favouritesOf target family ≠ []) :
    registry.typesOf target family ≠ [] := by
  intro none
  exact some (by simp [favouritesOf, none])

/-- A row says of its family what some entries say. -/
structure RowTells (target : TypeSystem) (entries : List RegistryEntry) (row : FamilyRow) :
    Prop where
  first : ((entries.filter (belongs target row.family)).map (·.name)).head? = some row.first
  favourites : ((entries.filter (belongs target row.family)).filter (·.preferred)).map (·.name) =
    row.favourites

/-- Rows say of the families in a system what some entries say: one row for each family. -/
structure RowsTell (target : TypeSystem) (entries : List RegistryEntry) (rows : List FamilyRow) :
    Prop where
  families : rows.map (·.family) = familiesAmong target entries
  once : (rows.map (·.family)).Nodup
  row : ∀ row ∈ rows, RowTells target entries row

end Registry

namespace FamilyRow

/-- A type taken in starts a row exactly for a family that has none. -/
theorem families_record (family : Family) (name : TypeName) (preferred : Bool)
    (rows : List FamilyRow) : (record family name preferred rows).map (·.family) =
      if family ∈ rows.map (·.family) then rows.map (·.family)
      else rows.map (·.family) ++ [family] := by
  induction rows with
  | nil => simp [record]
  | cons row rest ih =>
      by_cases same : row.family = family
      · cases preferred <;> simp [record, same]
      · by_cases later : family ∈ rest.map (·.family)
        · simp only [record, same, if_false, List.map_cons, ih, later, if_true, List.mem_cons,
            or_true]
        · simp [record, same, ih, later, Ne.symm same]

/-- The rows behind a type taken in: those of other families, the one of its family with the type
added, or a new one. -/
theorem mem_record {family : Family} {name : TypeName} {preferred : Bool} {rows : List FamilyRow}
    (once : (rows.map (·.family)).Nodup) {row : FamilyRow}
    (member : row ∈ record family name preferred rows) :
    (row ∈ rows ∧ row.family ≠ family) ∨
      (∃ old ∈ rows, old.family = family ∧
        row = { old with favourites := old.favourites ++ if preferred then [name] else [] }) ∨
      (family ∉ rows.map (·.family) ∧ row = ⟨family, name, if preferred then [name] else []⟩) := by
  induction rows with
  | nil => exact .inr (.inr ⟨List.not_mem_nil, List.mem_singleton.mp member⟩)
  | cons head rest ih =>
      obtain ⟨apart, once⟩ := List.nodup_cons.mp once
      by_cases same : head.family = family
      · simp only [record, same, if_true] at member
        rcases List.mem_cons.mp member with rfl | later
        · refine .inr (.inl ⟨head, List.mem_cons_self, same, ?_⟩)
          subst same
          cases preferred <;> simp
        · refine .inl ⟨List.mem_cons_of_mem _ later, fun equal => apart ?_⟩
          exact List.mem_map.mpr ⟨row, later, equal.trans same.symm⟩
      · simp only [record, same, if_false] at member
        rcases List.mem_cons.mp member with rfl | later
        · exact .inl ⟨List.mem_cons_self, same⟩
        · rcases ih once later with ⟨old, other⟩ | ⟨old, present, equal, rfl⟩ | ⟨fresh, rfl⟩
          · exact .inl ⟨List.mem_cons_of_mem _ old, other⟩
          · exact .inr (.inl ⟨old, List.mem_cons_of_mem _ present, equal, rfl⟩)
          · refine .inr (.inr ⟨fun listed => ?_, rfl⟩)
            rcases List.mem_cons.mp listed with equal | behind
            · exact same equal.symm
            · exact fresh behind

end FamilyRow

namespace Registry

variable {registry : Registry} {target : TypeSystem} {family : Family} {name : TypeName}
  {entries : List RegistryEntry} {entry : RegistryEntry} {row : FamilyRow} {rows : List FamilyRow}

/-- An entry of no family in the system leaves the families there as they are. -/
theorem familiesAmong_skip (skipped : ∀ family, belongs target family entry = false) :
    familiesAmong target (entries ++ [entry]) = familiesAmong target entries := by
  have none : (if entry.name.system = target then entry.info.family? else none) = none := by
    by_cases inside : entry.name.system = target
    · rw [if_pos inside, Option.eq_none_iff_forall_ne_some]
      intro family of
      simpa [belongs, inside, of] using skipped family
    · rw [if_neg inside]
  simp [familiesAmong, none]

/-- A value behind a list is dropped from the whole exactly if it stands in the list. -/
theorem eraseDups_concat {α : Type} [DecidableEq α] (values : List α) (last : α) :
    (values ++ [last]).eraseDups =
      if last ∈ values then values.eraseDups else values.eraseDups ++ [last] := by
  by_cases known : last ∈ values
  · simp [List.eraseDups_append, List.removeAll, known]
  · simp [List.eraseDups_append, List.removeAll, known, List.eraseDups_cons]

/-- An entry in the system adds its family unless it is there already. -/
theorem familiesAmong_take (belonging : belongs target family entry = true) :
    familiesAmong target (entries ++ [entry]) =
      if family ∈ familiesAmong target entries then familiesAmong target entries
      else familiesAmong target entries ++ [family] := by
  simp only [belongs, decide_eq_true_eq] at belonging
  simp only [familiesAmong, List.filterMap_append, List.mem_eraseDups]
  simp only [List.filterMap_cons, belonging.1, belonging.2, if_true, List.filterMap_nil]
  exact eraseDups_concat _ _

/-- An entry that is not of a family leaves its types as they are. -/
theorem filter_skip (skipped : belongs target family entry = false) :
    (entries ++ [entry]).filter (belongs target family) =
      entries.filter (belongs target family) := by
  simp [List.filter_append, skipped]

/-- An entry that is of a family stands behind its types. -/
theorem filter_take (belonging : belongs target family entry = true) :
    (entries ++ [entry]).filter (belongs target family) =
      entries.filter (belongs target family) ++ [entry] := by
  simp [List.filter_append, belonging]

/-- An entry of another family, or of none, leaves a row as true as it was. -/
theorem RowTells.skip (tells : RowTells target entries row)
    (skipped : belongs target row.family entry = false) :
    RowTells target (entries ++ [entry]) row where
  first := by
    rw [filter_skip skipped]
    exact tells.first
  favourites := by
    rw [filter_skip skipped]
    exact tells.favourites

/-- A row stays true when it takes in an entry of its family. -/
theorem RowTells.take (tells : RowTells target entries row)
    (belonging : belongs target row.family entry = true) :
    RowTells target (entries ++ [entry])
      { row with
        favourites := row.favourites ++ if entry.preferred then [entry.name] else [] } where
  first := by
    rw [filter_take belonging, List.map_append, List.head?_append, tells.first, Option.some_or]
  favourites := by
    rw [filter_take belonging, List.filter_append, List.map_append, tells.favourites]
    cases preferred : entry.preferred <;> simp [preferred]

/-- A family that no entry is of gets a true row with its first entry. -/
theorem RowTells.start (fresh : entries.filter (belongs target family) = [])
    (belonging : belongs target family entry = true) :
    RowTells target (entries ++ [entry])
      ⟨family, entry.name, if entry.preferred then [entry.name] else []⟩ where
  first := by
    rw [filter_take belonging, fresh]
    rfl
  favourites := by
    rw [filter_take belonging, fresh]
    cases preferred : entry.preferred <;> simp [preferred]

/-- An entry belongs to one family only. -/
theorem belongs_unique {other : Family} (belonging : belongs target family entry = true)
    (apart : other ≠ family) : belongs target other entry = false := by
  simp only [belongs, decide_eq_true_eq] at belonging
  simp [belongs, belonging.2, Ne.symm apart]

/-- Rows stay true when they pass over an entry of no family in the system. -/
theorem RowsTell.skip (tell : RowsTell target entries rows)
    (skipped : ∀ family, belongs target family entry = false) :
    RowsTell target (entries ++ [entry]) rows where
  families := tell.families.trans (familiesAmong_skip skipped).symm
  once := tell.once
  row row member := (tell.row row member).skip (skipped row.family)

/-- Rows stay true when they take in an entry. -/
theorem RowsTell.take (tell : RowsTell target entries rows)
    (belonging : belongs target family entry = true) :
    RowsTell target (entries ++ [entry])
      (FamilyRow.record family entry.name entry.preferred rows) where
  families := by
    rw [FamilyRow.families_record, familiesAmong_take belonging, tell.families]
  once := by
    rw [FamilyRow.families_record]
    by_cases known : family ∈ rows.map (·.family)
    · rw [if_pos known]
      exact tell.once
    · rw [if_neg known]
      refine List.nodup_append.mpr ⟨tell.once, by simp, ?_⟩
      intro earlier member new only same
      rw [List.mem_singleton.mp only] at same
      exact known (same ▸ member)
  row row member := by
    rcases FamilyRow.mem_record tell.once member with
      ⟨old, apart⟩ | ⟨old, present, rfl, rfl⟩ | ⟨fresh, rfl⟩
    · -- A family has one row, so the entry is not of the family of any other.
      exact (tell.row row old).skip (belongs_unique belonging apart)
    · exact (tell.row old present).take belonging
    · rw [tell.families] at fresh
      exact .start (filter_eq_nil fresh) belonging

/-- The rows of a registry say of each family what its entries say. -/
theorem familyRows_tell (registry : Registry) (target : TypeSystem) :
    RowsTell target registry.entries (registry.familyRows target) := by
  obtain ⟨entries, _, rfl⟩ := registry
  simp only [familyRows]
  -- The pass takes in the last entry last, so that is the one to split off.
  induction entries using List.reverseRecOn with
  | nil => exact ⟨rfl, List.nodup_nil, nofun⟩
  | append_singleton entries entry ih =>
      rw [List.foldl_append, List.foldl_cons, List.foldl_nil]
      by_cases inside : entry.name.system = target
      · rw [if_pos inside]
        cases of : entry.info.family? with
        | none => exact ih.skip fun family => by simp [belongs, of]
        | some family => exact ih.take (by simp [belongs, inside, of])
      · rw [if_neg inside]
        exact ih.skip fun family => by simp [belongs, inside]

/-- A row names the first type of its family and all preferred ones. -/
theorem Sound.row_tells (sound : registry.Sound) (member : row ∈ registry.familyRows target) :
    (∃ rest, registry.typesOf target row.family = row.first :: rest) ∧
      registry.favouritesOf target row.family = row.favourites := by
  have tells := (familyRows_tell registry target).row row member
  rw [typesOf_eq, sound.favouritesOf_eq]
  exact ⟨List.head?_eq_some_iff.mp tells.first, tells.favourites⟩

/-- There is a row for each family, in the order of the families. -/
theorem families_familyRows (registry : Registry) (target : TypeSystem) :
    (registry.familyRows target).map (·.family) = registry.familiesIn target := by
  rw [familiesIn_eq, (familyRows_tell registry target).families]

end Registry

end TypeBridge
