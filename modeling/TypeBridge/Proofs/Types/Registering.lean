import TypeBridge.Proofs.Types.Growing
import TypeBridge.Proofs.Types.Resolving

/-!
# Maps after further registrations

Registering types never changes a mapping that there is (`TypeMap.build_of_registers`). A successful
registration leaves the registry as it is or adds a type that nobody prefers behind the others, and
so does any number of them (`Registers.enlarges`). That changes neither which families are contested
nor what stands for a family that has a type: only the added types may be left without a
counterpart.
-/

namespace TypeBridge

namespace Registry

variable {before middle after : Registry} {target : TypeSystem} {family : Family}
  {name : TypeName}

/-- Registrations lead from one registry to another, and each of them succeeds. -/
inductive Registers (before : Registry) : Registry → Prop
  | none : Registers before before
  | register {middle after : Registry} {name : TypeName} {info : TypeInfo} {inserted : Bool}
      (earlier : Registers before middle)
      (ran : (Registry.register name info).run middle = (.ok inserted, after)) :
      Registers before after

/-- Types that nobody prefers were added behind those registered. -/
structure Enlarges (before after : Registry) : Prop where
  sound : after.Sound
  added : ∃ added, after.entries = before.entries ++ added ∧
    ∀ entry ∈ added, entry.preferred = false

theorem Enlarges.refl (sound : before.Sound) : before.Enlarges before :=
  ⟨sound, [], (List.append_nil _).symm, nofun⟩

/-- A successful registration adds at most one type. -/
theorem Enlarges.register (enlarges : before.Enlarges middle) {info : TypeInfo} {inserted : Bool}
    (ran : (Registry.register name info).run middle = (.ok inserted, after)) :
    before.Enlarges after := by
  have sound : after.Sound := by
    simpa only [ran] using enlarges.sound.register name info
  have ends := middle.register_ends name info
  rw [ran] at ends
  cases ends with
  | again sized known => exact enlarges
  | new sized unknown =>
      obtain ⟨added, same, plain⟩ := enlarges.added
      refine ⟨sound, added ++ [⟨name, info, false⟩], by simp [insert, same], ?_⟩
      intro entry member
      rcases List.mem_append.mp member with old | new
      · exact plain entry old
      · rw [List.mem_singleton.mp new]

theorem Registers.enlarges (registers : before.Registers after) (sound : before.Sound) :
    before.Enlarges after := by
  induction registers with
  | none => exact .refl sound
  | register _ ran ih => exact ih.register ran

/-- Added types come behind the others of their family. -/
theorem Enlarges.typesOf (enlarges : before.Enlarges after) (target : TypeSystem)
    (family : Family) :
    before.typesOf target family <+: after.typesOf target family := by
  obtain ⟨added, same, -⟩ := enlarges.added
  rw [typesOf_eq, typesOf_eq, same, List.filter_append, List.map_append]
  exact List.prefix_append _ _

/-- Added types are not preferred. -/
theorem Enlarges.favouritesOf (enlarges : before.Enlarges after) (sound : before.Sound) :
    after.favouritesOf target family = before.favouritesOf target family := by
  obtain ⟨added, same, plain⟩ := enlarges.added
  have none : (added.filter (belongs target family)).filter (·.preferred) = [] := by
    rw [List.filter_eq_nil_iff]
    intro entry member
    simp [plain entry (List.mem_filter.mp member).1]
  rw [enlarges.sound.favouritesOf_eq, sound.favouritesOf_eq, same, List.filter_append,
    List.filter_append, none, List.append_nil]

/-- The families of added types come behind the others. -/
theorem Enlarges.familiesIn (enlarges : before.Enlarges after) (target : TypeSystem) :
    before.familiesIn target <+: after.familiesIn target := by
  obtain ⟨added, same, -⟩ := enlarges.added
  rw [familiesIn_eq, familiesIn_eq, same, familiesAmong, familiesAmong, List.filterMap_append,
    List.eraseDups_append]
  exact List.prefix_append _ _

theorem Enlarges.contested_iff (enlarges : before.Enlarges after) (sound : before.Sound) :
    after.Contested target family ↔ before.Contested target family := by
  rw [Contested, Contested, enlarges.favouritesOf sound]

theorem Enlarges.uncontested (enlarges : before.Enlarges after) (sound : before.Sound)
    (clear : before.Uncontested target) : after.Uncontested target :=
  fun family contested => clear family ((enlarges.contested_iff sound).mp contested)

/-- The first contested family stays the first one. -/
theorem FirstContested.enlarged (first : before.FirstContested target family)
    (enlarges : before.Enlarges after) (sound : before.Sound) :
    after.FirstContested target family := by
  obtain ⟨contested, front, back, split, clear⟩ := first
  obtain ⟨more, longer⟩ := enlarges.familiesIn target
  refine ⟨(enlarges.contested_iff sound).mpr contested, front, back ++ more, ?_, ?_⟩
  · rw [← longer, split, List.append_assoc, List.cons_append]
  · intro earlier member contested
    exact clear earlier member ((enlarges.contested_iff sound).mp contested)

/-- At most one family is the first contested one. -/
theorem FirstContested.unique {registry : Registry} {other : Family}
    (first : registry.FirstContested target family)
    (again : registry.FirstContested target other) : family = other := by
  classical
  have found : ∀ {family}, registry.FirstContested target family →
      (registry.familiesIn target).find? (fun family => registry.Contested target family) =
        some family := by
    rintro family ⟨contested, front, back, split, clear⟩
    rw [List.find?_eq_some_iff_append]
    exact ⟨by simpa using contested, front, back, split, by simpa using clear⟩
  exact Option.some.inj ((found first).symm.trans (found again))

/-- What stands for a family still does so. -/
theorem StandsFor.enlarged (stands : before.StandsFor target family name)
    (enlarges : before.Enlarges after) (sound : before.Sound) :
    after.StandsFor target family name := by
  cases stands with
  | preferred only => exact .preferred ((enlarges.favouritesOf sound).trans only)
  | first none types =>
      obtain ⟨more, longer⟩ := enlarges.typesOf target family
      rw [types, List.cons_append] at longer
      exact .first ((enlarges.favouritesOf sound).trans none) longer.symm

/-- If no type was stranded, only added types are. -/
theorem Enlarges.stranded (enlarges : before.Enlarges after)
    (none : before.stranded target = []) (member : name ∈ after.stranded target) :
    after.contains name ∧ before.contains name = false := by
  obtain ⟨added, same, -⟩ := enlarges.added
  simp only [Registry.stranded, toList, List.filter_map, List.map_map, List.map_eq_nil_iff,
    List.filter_eq_nil_iff] at none
  simp only [Registry.stranded, toList, List.filter_map, List.map_map, List.mem_map] at member
  obtain ⟨entry, filtered, rfl⟩ := member
  obtain ⟨present, lost⟩ := List.mem_filter.mp filtered
  simp only [Function.comp_apply, decide_eq_true_eq, Option.any_eq_true] at lost
  obtain ⟨outside, family, of, lost⟩ := lost
  have new : entry ∈ added := by
    rw [same] at present
    refine (List.mem_append.mp present).resolve_left fun old => none entry old ?_
    have short := enlarges.typesOf target family
    rw [lost, List.prefix_nil] at short
    simp [outside, of, short]
  refine ⟨contains_iff_mem.mpr (List.mem_map_of_mem present), ?_⟩
  -- Every name stands once, so that of an added type is not among those before.
  have names := enlarges.sound.names
  rw [same, List.map_append, List.nodup_append] at names
  rw [Bool.eq_false_iff]
  intro known
  exact names.2.2 entry.name (contains_iff_mem.mp known) entry.name (List.mem_map_of_mem new) rfl

end Registry

namespace TypeMap

variable {before after : Registry} {target : TypeSystem} {name other : TypeName}

/-- What a map leads to is not changed by added types. -/
theorem counterpart?_enlarged (enlarges : before.Enlarges after) (sound : before.Sound)
    (clear : before.Uncontested target) {info : TypeInfo}
    (found : counterpart? (before.familyRows target) target name info = some other) :
    counterpart? (after.familyRows target) target name info = some other := by
  cases sound.counterpart_of_some clear found with
  | own inside => rw [counterpart?, if_pos inside]
  | other outside of stands =>
      have stands := stands.enlarged enlarges sound
      rw [counterpart?, if_neg outside, of, Option.bind_some]
      exact (enlarges.sound.canonical?_eq_some (enlarges.uncontested sound clear)).mpr stands

/-- The pairs of a map come first in the map after added types. -/
theorem paired_enlarged (enlarges : before.Enlarges after) (sound : before.Sound)
    (clear : before.Uncontested target) (none : before.stranded target = []) :
    paired (before.familyRows target) before target <+:
      paired (after.familyRows target) after target := by
  obtain ⟨added, same, -⟩ := enlarges.added
  have kept : before.toList.filterMap (fun type =>
        (counterpart? (before.familyRows target) target type.1 type.2).map (type.1, ·)) =
      before.toList.filterMap (fun type =>
        (counterpart? (after.familyRows target) target type.1 type.2).map (type.1, ·)) := by
    refine List.filterMap_congr fun (name, info) member => ?_
    rw [← sound.unresolved_eq, unresolved, List.filterMap_eq_nil_iff] at none
    have resolved := none (name, info) member
    cases found : counterpart? (before.familyRows target) target name info with
    | none => simp [found] at resolved
    | some other => simp only [counterpart?_enlarged enlarges sound clear found]
  have longer : after.toList = before.toList ++ added.map fun entry => (entry.name, entry.info) := by
    simp [Registry.toList, same]
  unfold paired
  rw [longer, List.filterMap_append]
  exact ⟨_, congrArg (· ++ _) kept⟩

/-- What pointers are is not changed by added types. -/
theorem pointerIn_enlarged (enlarges : before.Enlarges after) (sound : before.Sound)
    (clear : before.Uncontested target)
    (pointer : pointerIn (before.familyRows target) target = some name) :
    pointerIn (after.familyRows target) target = some name := by
  rw [enlarges.sound.pointerIn (enlarges.uncontested sound clear)]
  cases (sound.pointerIn clear).mp pointer with
  | ffi => exact .ffi
  | arrayLib stands => exact .arrayLib (stands.enlarged enlarges sound)

/-- Where no family is contested no ambiguity is reported. -/
theorem build_ne_ambiguous {registry : Registry} (sound : registry.Sound)
    (clear : registry.Uncontested target) (family : Family) (candidates : List TypeName) :
    build registry target ≠ .error (.ambiguous target family candidates) := by
  rcases build_cases sound target with
    ⟨other, first, -⟩ | ⟨-, ⟨-, answer⟩ | ⟨-, answer⟩⟩
  · exact absurd first.1 (clear other)
  · rw [answer]
    nofun
  · rw [answer]
    nofun

/-- Registering types never changes a mapping. A map builder reports an ambiguity exactly if it did
so before, and the same one. Where there was a map there is one that begins with the same pairs and
has the same type for pointers, unless some of the types that were registered since are left without
a counterpart: then it reports these. -/
theorem build_of_registers (reached : before.Reached) (registers : before.Registers after)
    (target : TypeSystem) :
    (∀ family candidates,
      build after target = .error (.ambiguous target family candidates) ↔
        build before target = .error (.ambiguous target family candidates)) ∧
    ∀ map, build before target = .ok map →
      (∃ wider, build after target = .ok wider ∧ wider.target = map.target ∧
        map.entries <+: wider.entries ∧
        ∀ name, map.pointer = some name → wider.pointer = some name) ∨
      ∃ names, build after target = .error (.unresolved target names) ∧ names ≠ [] ∧
        ∀ name ∈ names, after.contains name ∧ before.contains name = false := by
  have sound := reached.sound
  have enlarges := registers.enlarges sound
  rcases build_cases sound target with ⟨family, first, answer⟩ | ⟨clear, outcome⟩
  · have still : build after target = build before target := by
      have first := first.enlarged enlarges sound
      rcases build_cases enlarges.sound target with ⟨other, again, answer'⟩ | ⟨clear, -⟩
      · rw [answer, answer', ← first.unique again, enlarges.favouritesOf sound]
      · exact absurd first.1 (clear family)
    rw [still, answer]
    exact ⟨fun _ _ => Iff.rfl, nofun⟩
  · have clear' := enlarges.uncontested sound clear
    refine ⟨fun family candidates => ?_, fun map built => ?_⟩
    · exact iff_of_false (build_ne_ambiguous enlarges.sound clear' family candidates)
        (build_ne_ambiguous sound clear family candidates)
    · rcases outcome with ⟨-, failed⟩ | ⟨none, made⟩
      · cases failed.symm.trans built
      · cases made.symm.trans built
        rcases build_cases enlarges.sound target with
          ⟨family, first, -⟩ | ⟨-, ⟨lost, answer⟩ | ⟨-, answer⟩⟩
        · exact absurd first.1 (clear' family)
        · exact .inr ⟨_, answer, lost, fun name => enlarges.stranded none⟩
        · exact .inl ⟨_, answer, rfl, paired_enlarged enlarges sound clear none,
            fun _ => pointerIn_enlarged enlarges sound clear⟩

/-- The fixed types with a native integer. -/
def withInt : Registry := ((Registry.register (.native "int") (.signed 4)).run .fixed).2

/-- The same with a native type that is as large as no other. -/
def withTriple : Registry := ((Registry.register (.native "triple") (.float 24)).run withInt).2

/-- The foreign-function map grows by a native integer; a type that is as large as no other leaves
no such map, and is the only type to be reported. -/
theorem build_of_registers_withTriple :
    Registry.fixed.Reached ∧ Registry.fixed.Registers withInt ∧
      Registry.fixed.Registers withTriple ∧
      ∃ map, build .fixed .ffi = .ok map ∧
        (∃ wider, build withInt .ffi = .ok wider ∧ map.entries <+: wider.entries) ∧
        ∃ names, build withTriple .ffi = .error (.unresolved .ffi names) ∧ names ≠ [] ∧
          ∀ name ∈ names, withTriple.contains name ∧ Registry.fixed.contains name = false := by
  have reached : Registry.fixed.Reached := .fixed
  have ran : (Registry.register (.native "int") (.signed 4)).run .fixed = (.ok true, withInt) :=
    Prod.ext (by decide +kernel) rfl
  have again : (Registry.register (.native "triple") (.float 24)).run withInt =
      (.ok true, withTriple) :=
    Prod.ext (by decide +kernel) rfl
  have first : Registry.fixed.Registers withInt := .register .none ran
  have second : Registry.fixed.Registers withTriple := .register first again
  have built : (build .fixed .ffi).isOk := by decide +kernel
  have grown : (build withInt .ffi).isOk := by decide +kernel
  have lost : (build withTriple .ffi).isOk = false := by decide +kernel
  obtain ⟨map, built⟩ := exists_of_isOk built
  refine ⟨reached, first, second, map, built, ?_, ?_⟩
  · rcases (build_of_registers reached first .ffi).2 map built with
      ⟨wider, made, -, longer, -⟩ | ⟨names, failed, -⟩
    · exact ⟨wider, made, longer⟩
    · cases (congrArg Except.isOk failed).symm.trans grown
  · rcases (build_of_registers reached second .ffi).2 map built with ⟨wider, made, -⟩ | lost
    · cases (congrArg Except.isOk made).symm.trans lost
    · exact lost

end TypeMap

end TypeBridge
