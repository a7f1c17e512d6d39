import TypeBridge.Types.Registry

/-!
# Reached registries

A registry is `Reached` if it was started empty or with the fixed types and then went through calls
of `register` and `prefer`. In a reached registry every name stands once and every type has a size
(`Reached.sound`), so that the index leads to the one entry of a name
(`Sound.position?_eq_some`) and every type has a family.
-/

namespace TypeBridge.Registry

variable {registry : Registry} {entry : RegistryEntry} {name : TypeName} {info : TypeInfo}
  {place : Nat}

/-- The registries that calls lead to, whether the calls answer or fail. -/
inductive Reached : Registry → Prop
  | empty : Reached Registry.empty
  | fixed : Reached Registry.fixed
  | register {registry : Registry} (reached : Reached registry) (name : TypeName)
      (info : TypeInfo) : Reached ((Registry.register name info).run registry).2
  | prefer {registry : Registry} (reached : Reached registry) (name : TypeName) :
      Reached ((Registry.prefer name).run registry).2

/-- Every name stands once, and every type has a size. -/
structure Sound (registry : Registry) : Prop where
  names : (registry.entries.map (·.name)).Nodup
  sized : ∀ entry ∈ registry.entries, entry.info.size.isSome

/-! ## The index -/

/-- The index leads to a place where the name stands. -/
theorem exists_of_position? (found : registry.position? name = some place) :
    ∃ entry, registry.entries[place]? = some entry ∧ entry.name = name := by
  obtain ⟨front, back, split, -⟩ := List.lookup_eq_some_iff.mp found
  have listed : (name, place) ∈ registry.index := by simp [split]
  rw [registry.indexed, List.mem_reverse, List.mk_mem_zipIdx_iff_getElem?, List.getElem?_map]
    at listed
  simpa using listed

/-- The index knows every name that stands somewhere. -/
theorem position?_eq_none_iff :
    registry.position? name = none ↔ name ∉ registry.entries.map (·.name) := by
  rw [position?, List.lookup_eq_none_iff, registry.indexed]
  constructor
  · intro unlisted member
    obtain ⟨place, here⟩ := List.mem_iff_getElem?.mp member
    have listed : (name, place) ∈ (registry.entries.map (·.name)).zipIdx.reverse := by
      simpa [List.mk_mem_zipIdx_iff_getElem?] using here
    simpa using unlisted _ listed
  · rintro absent ⟨other, place⟩ listed
    have here := List.mk_mem_zipIdx_iff_getElem?.mp (List.mem_reverse.mp listed)
    have apart : name ≠ other := fun same => absent (same ▸ List.mem_of_getElem? here)
    simpa using apart

/-- The registered types are those that stand somewhere. -/
theorem contains_iff_mem : registry.contains name ↔ name ∈ registry.entries.map (·.name) := by
  rw [contains, Option.isSome_iff_ne_none, Ne, position?_eq_none_iff, Decidable.not_not]

/-- The place of a new type is behind those of the others. -/
theorem position?_insert (other : TypeName) : (registry.insert name info).position? other =
    if other = name then some registry.entries.length else registry.position? other := by
  by_cases same : other = name
  · simp [position?, insert, same]
  · have different : (other == name) = false := by simpa using same
    simp [position?, insert, List.lookup_cons, different, same]

/-- Facts are found wherever the index leads. -/
theorem info?_eq_none_iff : registry.info? name = none ↔ registry.position? name = none := by
  rw [info?, Option.map_eq_none_iff, entry?]
  cases found : registry.position? name with
  | none => simp
  | some place =>
      obtain ⟨entry, here, -⟩ := exists_of_position? found
      simp [here]

/-- A name without facts stands nowhere. -/
theorem not_mem_of_info?_eq_none (unknown : registry.info? name = none) :
    name ∉ registry.entries.map (·.name) :=
  position?_eq_none_iff.mp (info?_eq_none_iff.mp unknown)

/-- The facts about a type are those of an entry of its name. -/
theorem exists_of_info? (known : registry.info? name = some info) :
    ∃ entry ∈ registry.entries, entry.name = name ∧ entry.info = info := by
  obtain ⟨entry, found, rfl⟩ := Option.map_eq_some_iff.mp known
  obtain ⟨place, led, here⟩ := Option.bind_eq_some_iff.mp found
  obtain ⟨other, there, named⟩ := exists_of_position? led
  cases here.symm.trans there
  exact ⟨entry, List.mem_of_getElem? here, named, rfl⟩

/-! ## Registrations and preferences -/

theorem Sound.insert (sound : registry.Sound) (unknown : registry.info? name = none)
    (sized : info.size.isSome) : (registry.insert name info).Sound where
  names := by
    have fresh := not_mem_of_info?_eq_none unknown
    simp only [Registry.insert, List.map_append, List.map_cons, List.map_nil]
    refine List.nodup_append.mpr ⟨sound.names, by simp, ?_⟩
    intro other member added new same
    rw [List.mem_singleton.mp new] at same
    exact fresh (same ▸ member)
  sized := by
    intro entry member
    rcases List.mem_append.mp member with old | new
    · exact sound.sized entry old
    · rw [List.mem_singleton.mp new]
      exact sized

/-- The ways in which a registration ends. -/
inductive Registration (registry : Registry) (name : TypeName) (info : TypeInfo) :
    Except TypeFault Bool × Registry → Prop
  | unsized (unsized : info.size = none) :
      Registration registry name info (.error (.unsized name), registry)
  | new (sized : info.size.isSome) (unknown : registry.info? name = none) :
      Registration registry name info (.ok true, registry.insert name info)
  | again (sized : info.size.isSome) (known : registry.info? name = some info) :
      Registration registry name info (.ok false, registry)
  | duplicate {existing : TypeInfo} (sized : info.size.isSome)
      (known : registry.info? name = some existing) (other : existing ≠ info) :
      Registration registry name info (.error (.duplicate name existing info), registry)

theorem register_ends (registry : Registry) (name : TypeName) (info : TypeInfo) :
    registry.Registration name info ((Registry.register name info).run registry) := by
  simp only [Registry.register, Step.run]
  cases sized : info.size with
  | none => exact .unsized sized
  | some size =>
      have some : info.size.isSome := Option.isSome_of_eq_some sized
      cases known : registry.info? name with
      | none => exact .new some known
      | some existing =>
          by_cases same : existing = info
          · subst same
            simpa using .again some known
          · simpa [same] using .duplicate some known same

/-- The ways in which a preference ends. -/
inductive Preference (registry : Registry) (name : TypeName) :
    Except TypeFault Unit × Registry → Prop
  | known {place : Nat} (found : registry.position? name = some place) :
      Preference registry name (.ok (), registry.markPreferred place)
  | unregistered (unknown : registry.position? name = none) :
      Preference registry name (.error (.unregistered name), registry)

theorem prefer_ends (registry : Registry) (name : TypeName) :
    registry.Preference name ((Registry.prefer name).run registry) := by
  simp only [Registry.prefer, Step.run]
  cases found : registry.position? name with
  | some place => exact .known found
  | none => exact .unregistered found

/-- A registration adds at most one type, and only with a new name and a size. -/
theorem Sound.register (sound : registry.Sound) (name : TypeName) (info : TypeInfo) :
    ((Registry.register name info).run registry).2.Sound := by
  have ends := registry.register_ends name info
  generalize (Registry.register name info).run registry = outcome at ends ⊢
  cases ends with
  | unsized unsized => exact sound
  | new sized unknown => exact sound.insert unknown sized
  | again sized known => exact sound
  | duplicate sized known other => exact sound

/-- The entries behind a preference are those before, or have become preferred. -/
theorem exists_of_mem_markPreferred (member : entry ∈ (registry.markPreferred place).entries) :
    ∃ old ∈ registry.entries, entry = old ∨ entry = { old with preferred := true } := by
  obtain ⟨other, here⟩ := List.mem_iff_getElem?.mp member
  simp only [markPreferred, List.getElem?_modify] at here
  obtain ⟨old, there, same⟩ := Option.map_eq_some_iff.mp here
  refine ⟨old, List.mem_of_getElem? there, ?_⟩
  split at same
  · exact .inr same.symm
  · exact .inl same.symm

/-- A preference changes neither names nor facts. -/
theorem Sound.markPreferred (sound : registry.Sound) (place : Nat) :
    (registry.markPreferred place).Sound where
  names := by
    rw [Registry.markPreferred, names_modify]
    exact sound.names
  sized := by
    intro entry member
    obtain ⟨old, present, rfl | rfl⟩ := exists_of_mem_markPreferred member
    · exact sound.sized _ present
    · exact sound.sized old present

theorem Sound.prefer (sound : registry.Sound) (name : TypeName) :
    ((Registry.prefer name).run registry).2.Sound := by
  have ends := registry.prefer_ends name
  generalize (Registry.prefer name).run registry = outcome at ends ⊢
  cases ends with
  | known found => exact sound.markPreferred _
  | unregistered unknown => exact sound

theorem sound_fixed : fixed.Sound where
  names := by decide +kernel
  sized := by decide +kernel

/-- Calls lead to sound registries only. -/
theorem Reached.sound (reached : registry.Reached) : registry.Sound := by
  induction reached with
  | empty => exact ⟨List.nodup_nil, nofun⟩
  | fixed => exact sound_fixed
  | register _ name info sound => exact sound.register name info
  | prefer _ name sound => exact sound.prefer name

/-- The index leads from a name to the one place where it stands. -/
theorem Sound.position?_eq_some (sound : registry.Sound) : registry.position? name = some place ↔
    ∃ entry, registry.entries[place]? = some entry ∧ entry.name = name := by
  refine ⟨exists_of_position?, ?_⟩
  rintro ⟨entry, here, rfl⟩
  have stands : entry.name ∈ registry.entries.map (·.name) :=
    List.mem_map_of_mem (List.mem_of_getElem? here)
  cases found : registry.position? entry.name with
  | none => exact absurd stands (position?_eq_none_iff.mp found)
  | some other =>
      obtain ⟨entry', there, named⟩ := exists_of_position? found
      have inside := (List.getElem?_eq_some_iff.mp here).1
      -- Both places hold the name, and names stand once.
      have same : (registry.entries.map (·.name))[place]? =
          (registry.entries.map (·.name))[other]? := by
        simp [here, there, named]
      rw [(List.getElem?_inj (by simpa using inside) sound.names).mp same]

/-- The entry found for a name is the one that has it. -/
theorem Sound.entry?_of_mem (sound : registry.Sound) (member : entry ∈ registry.entries) :
    registry.entry? entry.name = some entry := by
  obtain ⟨place, here⟩ := List.mem_iff_getElem?.mp member
  unfold entry?
  rw [sound.position?_eq_some.mpr ⟨entry, here, rfl⟩, Option.bind_some, here]

/-- A type that is registered in a sound registry has a size. -/
theorem Sound.sized_of_info? (sound : registry.Sound) (known : registry.info? name = some info) :
    info.size.isSome := by
  obtain ⟨entry, present, -, rfl⟩ := exists_of_info? known
  exact sound.sized entry present

/-- The facts found for a name are those of its entry. -/
theorem Sound.info?_of_mem (sound : registry.Sound) (member : entry ∈ registry.entries) :
    registry.info? entry.name = some entry.info := by
  rw [info?, sound.entry?_of_mem member, Option.map_some]

/-- Facts are found if and only if they are listed. -/
theorem Sound.info?_eq_some_iff_mem (sound : registry.Sound) :
    registry.info? name = some info ↔ (name, info) ∈ registry.toList := by
  constructor
  · intro known
    obtain ⟨entry, member, rfl, rfl⟩ := exists_of_info? known
    exact List.mem_map_of_mem member
  · intro listed
    obtain ⟨entry, member, same⟩ := List.mem_map.mp listed
    obtain ⟨rfl, rfl⟩ := Prod.mk.inj same
    exact sound.info?_of_mem member

/-- A type is preferred exactly if its entry says so. -/
theorem Sound.isPreferred_of_mem (sound : registry.Sound) (member : entry ∈ registry.entries) :
    registry.isPreferred entry.name = entry.preferred := by
  simp [isPreferred, sound.entry?_of_mem member]

/-- Every type has a family. -/
theorem Sound.exists_family (sound : registry.Sound) (member : entry ∈ registry.entries) :
    ∃ family, entry.info.family? = some family := by
  obtain ⟨size, has⟩ := Option.isSome_iff_exists.mp (sound.sized entry member)
  exact ⟨⟨entry.info.signage, entry.info.kind, size⟩, by simp [TypeInfo.family?, has]⟩

end TypeBridge.Registry
