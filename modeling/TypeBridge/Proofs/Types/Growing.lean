import TypeBridge.Proofs.Types.Registry

/-!
# Registries that grow

A registry is only ever added to, at its end, and a preference changes no facts. `Registry.Grows`
says so of two registries: what the earlier one tells of a type, the later one tells too, at the
same place.
-/

namespace TypeBridge.Registry

variable {registry before middle after : Registry} {name other : TypeName} {info : TypeInfo}
  {place : Nat}

/-- Types were added behind those registered, which keep their facts and their places. -/
structure Grows (before after : Registry) : Prop where
  toList : before.toList <+: after.toList
  places : ∀ name place, before.position? name = some place → after.position? name = some place

theorem Grows.refl (registry : Registry) : registry.Grows registry :=
  ⟨List.prefix_rfl, fun _ _ found => found⟩

theorem Grows.trans (first : before.Grows middle) (last : middle.Grows after) :
    before.Grows after :=
  ⟨first.toList.trans last.toList,
    fun name place found => last.places name place (first.places name place found)⟩

/-- The facts about a type stand at its place. -/
theorem info?_eq_some_iff : registry.info? name = some info ↔
    ∃ place, registry.position? name = some place ∧
      (registry.toList[place]?).map (·.2) = some info := by
  rw [info?, entry?, toList, Option.map_bind, Option.bind_eq_some_iff]
  simp

theorem contains_iff : registry.contains name ↔ ∃ info, registry.info? name = some info := by
  rw [contains, Option.isSome_iff_ne_none, Ne, ← info?_eq_none_iff, ← Ne,
    Option.ne_none_iff_exists']

/-- What is known of a type stays known. -/
theorem Grows.info? (grows : before.Grows after) (known : before.info? name = some info) :
    after.info? name = some info := by
  obtain ⟨place, found, here⟩ := info?_eq_some_iff.mp known
  obtain ⟨type, there, rfl⟩ := Option.map_eq_some_iff.mp here
  refine info?_eq_some_iff.mpr ⟨place, grows.places name place found, ?_⟩
  rw [List.prefix_iff_getElem?.mp grows.toList place (List.getElem?_eq_some_iff.mp there).1]
  simp [(List.getElem?_eq_some_iff.mp there).2]

/-- A registered type stays registered. -/
theorem Grows.contains (grows : before.Grows after) (known : before.contains name) :
    after.contains name := by
  obtain ⟨info, found⟩ := contains_iff.mp known
  exact contains_iff.mpr ⟨info, grows.info? found⟩

/-- The places of the others are kept when a new type is added. -/
theorem position?_insert_of_known (unknown : registry.info? name = none)
    (found : registry.position? other = some place) :
    (registry.insert name info).position? other = some place := by
  have apart : other ≠ name := by
    rintro rfl
    rw [info?_eq_none_iff, found] at unknown
    cases unknown
  rw [position?_insert, if_neg apart, found]

theorem grows_insert (unknown : registry.info? name = none) (info : TypeInfo) :
    registry.Grows (registry.insert name info) where
  toList := by simp [insert, toList]
  places _ _ := position?_insert_of_known unknown

theorem grows_markPreferred (registry : Registry) (place : Nat) :
    registry.Grows (registry.markPreferred place) where
  toList := by
    have same : (registry.markPreferred place).toList = registry.toList := by
      refine List.ext_getElem? fun other => ?_
      simp only [markPreferred, toList, List.getElem?_map, List.getElem?_modify]
      cases registry.entries[other]? with
      | none => rfl
      | some entry => by_cases here : place = other <;> simp [here]
    exact same ▸ List.prefix_rfl
  places _ _ found := found

theorem contains_insert : (registry.insert name info).contains other ↔
    registry.contains other ∨ name = other := by
  rw [contains, contains, position?_insert]
  by_cases same : other = name
  · simp [same]
  · simp [same, Ne.symm same]

/-- A new type tells nothing of the others. -/
theorem info?_insert_eq_none (apart : other ≠ name) (unknown : registry.info? other = none) :
    (registry.insert name info).info? other = none := by
  rw [info?_eq_none_iff] at unknown ⊢
  rw [position?_insert, if_neg apart, unknown]

end TypeBridge.Registry
