import Mathlib.Data.List.Forall2
import TypeBridge.Proofs.Types.FamilyRows

/-!
# What building a map answers

The specification of `TypeMap.build` is read off a registry: `FirstContested` is the family to be
reported, `stranded` lists the types without a counterpart and `Counterpart` pairs the others.
`TypeMap.build_spec` says that the map builder meets it.
-/

namespace TypeBridge

namespace Registry

variable {registry : Registry} {target : TypeSystem} {family : Family} {name : TypeName}
  {row : FamilyRow}

/-- Several types of a family are preferred. -/
def Contested (registry : Registry) (target : TypeSystem) (family : Family) : Prop :=
  2 ≤ (registry.favouritesOf target family).length

/-- No family is contested. -/
def Uncontested (registry : Registry) (target : TypeSystem) : Prop :=
  ∀ family, ¬registry.Contested target family

/-- A contested family with no contested one before it. -/
def FirstContested (registry : Registry) (target : TypeSystem) (family : Family) : Prop :=
  registry.Contested target family ∧ ∃ front back,
    registry.familiesIn target = front ++ family :: back ∧
      ∀ earlier ∈ front, ¬registry.Contested target earlier

/-- The types of other systems whose family has no type in a system, in the order of
registration. -/
def stranded (registry : Registry) (target : TypeSystem) : List TypeName :=
  (registry.toList.filter fun type => type.1.system ≠ target ∧
    type.2.family?.any fun family => registry.typesOf target family = []).map (·.1)

/-- The type that stands for a family in a system: the only preferred one, else the first. -/
inductive StandsFor (registry : Registry) (target : TypeSystem) (family : Family) : TypeName → Prop
  | preferred {name : TypeName} (only : registry.favouritesOf target family = [name]) :
      StandsFor registry target family name
  | first {name : TypeName} {rest : List TypeName} (none : registry.favouritesOf target family = [])
      (types : registry.typesOf target family = name :: rest) :
      StandsFor registry target family name

/-- The counterpart of a type in a system: the type itself if it is of that system, else the type
that stands for its family. -/
inductive Counterpart (registry : Registry) (target : TypeSystem) (name : TypeName)
    (info : TypeInfo) : TypeName → Prop
  | own (inside : name.system = target) : Counterpart registry target name info name
  | other {family : Family} {counterpart : TypeName} (outside : name.system ≠ target)
      (of : info.family? = some family) (stands : registry.StandsFor target family counterpart) :
      Counterpart registry target name info counterpart

/-- What pointers are in a system, if they are one type there. -/
inductive PointerIn (registry : Registry) : TypeSystem → TypeName → Prop
  | ffi : PointerIn registry .ffi .ffiPointer
  | arrayLib {name : TypeName} (stands : registry.StandsFor .arrayLib TypeMap.addressFamily name) :
      PointerIn registry .arrayLib name

/-- A row is ambiguous exactly if its family is contested. -/
theorem Sound.isAmbiguous_iff (sound : registry.Sound) (member : row ∈ registry.familyRows target) :
    row.isAmbiguous = true ↔ registry.Contested target row.family := by
  rw [Contested, (sound.row_tells member).2]
  simp [FamilyRow.isAmbiguous]

/-- The first ambiguous row is that of the first contested family. -/
theorem Sound.firstContested (sound : registry.Sound)
    (found : (registry.familyRows target).find? FamilyRow.isAmbiguous = some row) :
    registry.FirstContested target row.family := by
  obtain ⟨ambiguous, front, back, split, clear⟩ := List.find?_eq_some_iff_append.mp found
  have present : row ∈ registry.familyRows target := by simp [split]
  refine ⟨(sound.isAmbiguous_iff present).mp ambiguous, front.map (·.family),
    back.map (·.family), ?_, ?_⟩
  · rw [← families_familyRows, split, List.map_append, List.map_cons]
  · intro family earlier contested
    obtain ⟨other, before, rfl⟩ := List.mem_map.mp earlier
    have listed : other ∈ registry.familyRows target := by simp [split, before]
    simpa [(sound.isAmbiguous_iff listed).mpr contested] using clear other before

/-- Without an ambiguous row no family is contested. -/
theorem Sound.not_contested (sound : registry.Sound)
    (none : (registry.familyRows target).find? FamilyRow.isAmbiguous = none) (family : Family) :
    ¬registry.Contested target family := by
  intro contested
  have favourites : registry.favouritesOf target family ≠ [] := by
    intro none
    simp [Contested, none] at contested
  have listed := mem_familiesIn (typesOf_ne_nil_of_favourites favourites)
  rw [← families_familyRows] at listed
  obtain ⟨row, present, rfl⟩ := List.mem_map.mp listed
  exact List.find?_eq_none.mp none row present ((sound.isAmbiguous_iff present).mpr contested)

/-- The type taken from an unambiguous row stands for its family. -/
theorem Sound.standsFor (sound : registry.Sound) (member : row ∈ registry.familyRows target)
    (clear : ¬registry.Contested target row.family) :
    registry.StandsFor target row.family row.canonical := by
  obtain ⟨⟨rest, types⟩, favourites⟩ := sound.row_tells member
  simp only [Contested, favourites] at clear
  cases names : row.favourites with
  | nil =>
      have canonical : row.canonical = row.first := by simp [FamilyRow.canonical, names]
      rw [canonical]
      exact .first (favourites.trans names) types
  | cons only others =>
      cases others with
      | nil =>
          have canonical : row.canonical = only := by simp [FamilyRow.canonical, names]
          rw [canonical]
          exact .preferred (favourites.trans names)
      | cons second others => simp [names] at clear

/-- What stands for a family is unique. -/
theorem StandsFor.unique {other : TypeName} (stands : registry.StandsFor target family name)
    (again : registry.StandsFor target family other) : name = other := by
  cases stands with
  | preferred only =>
      cases again with
      | preferred same => simpa [only] using same
      | first none => simp [only] at none
  | first none types =>
      cases again with
      | preferred only => simp [only] at none
      | first _ same => exact (List.cons.inj (types.symm.trans same)).1

theorem StandsFor.typesOf_ne_nil (stands : registry.StandsFor target family name) :
    registry.typesOf target family ≠ [] := by
  cases stands with
  | preferred only => exact typesOf_ne_nil_of_favourites (by simp [only])
  | first _ types => simp [types]

/-- No type is found for a family exactly if it has none. -/
theorem Sound.canonical?_eq_none (sound : registry.Sound) :
    TypeMap.canonical? (registry.familyRows target) family = none ↔
      registry.typesOf target family = [] := by
  rw [TypeMap.canonical?, Option.map_eq_none_iff, List.find?_eq_none]
  constructor
  · intro absent
    by_contra some
    have listed := mem_familiesIn some
    rw [← families_familyRows] at listed
    obtain ⟨row, present, rfl⟩ := List.mem_map.mp listed
    exact absent row present (by simp)
  · intro none row present same
    obtain ⟨⟨rest, types⟩, _⟩ := sound.row_tells present
    rw [of_decide_eq_true same, none] at types
    cases types

/-- If no family is contested, the type found for a family is the one that stands for it. -/
theorem Sound.canonical?_eq_some (sound : registry.Sound)
    (clear : registry.Uncontested target) :
    TypeMap.canonical? (registry.familyRows target) family = some name ↔
      registry.StandsFor target family name := by
  have found : ∀ other, TypeMap.canonical? (registry.familyRows target) family = some other →
      registry.StandsFor target family other := by
    intro other found
    obtain ⟨row, lookup, rfl⟩ := Option.map_eq_some_iff.mp found
    have same : row.family = family := by simpa using List.find?_some lookup
    rw [← same]
    exact sound.standsFor (List.mem_of_find?_eq_some lookup) (clear row.family)
  refine ⟨found name, fun stands => ?_⟩
  cases answer : TypeMap.canonical? (registry.familyRows target) family with
  | none => exact absurd (sound.canonical?_eq_none.mp answer) stands.typesOf_ne_nil
  | some other => rw [(found other answer).unique stands]

/-- If no family is contested, a type with a counterpart is paired with it. -/
theorem Sound.counterpart_of_some (sound : registry.Sound)
    (clear : registry.Uncontested target) {info : TypeInfo} {other : TypeName}
    (found : TypeMap.counterpart? (registry.familyRows target) target name info = some other) :
    registry.Counterpart target name info other := by
  by_cases inside : name.system = target
  · simp only [TypeMap.counterpart?, if_pos inside, Option.some.injEq] at found
    exact found ▸ .own inside
  · simp only [TypeMap.counterpart?, if_neg inside, Option.bind_eq_some_iff] at found
    obtain ⟨family, of, canonical⟩ := found
    exact .other inside of ((sound.canonical?_eq_some clear).mp canonical)

/-- The types without a counterpart are the stranded ones. -/
theorem Sound.unresolved_eq (sound : registry.Sound) (target : TypeSystem) :
    TypeMap.unresolved (registry.familyRows target) registry target = registry.stranded target := by
  unfold TypeMap.unresolved stranded toList
  rw [List.filterMap_map, List.filter_map, List.map_map, ← List.filterMap_eq_map,
    List.filterMap_filter]
  refine List.filterMap_congr fun entry member => ?_
  obtain ⟨family, of⟩ := sound.exists_family member
  by_cases inside : entry.name.system = target
  · simp [TypeMap.counterpart?, inside]
  · cases canonical : TypeMap.canonical? (registry.familyRows target) family with
    | none =>
        have none := sound.canonical?_eq_none.mp canonical
        simp [TypeMap.counterpart?, inside, of, canonical, none]
    | some other =>
        have some : registry.typesOf target family ≠ [] := fun none => by
          simp [sound.canonical?_eq_none.mpr none] at canonical
        simp [TypeMap.counterpart?, inside, of, canonical, some]

/-- If every value of a list has a result, the results stand in the order of the values. -/
theorem forall₂_filterMap {α β : Type} {related : α → β → Prop} {result : α → Option β}
    {values : List α}
    (has : ∀ value ∈ values, ∃ answer, result value = some answer ∧ related value answer) :
    List.Forall₂ related values (values.filterMap result) := by
  induction values with
  | nil => exact .nil
  | cons value rest ih =>
      obtain ⟨answer, found, holds⟩ := has value List.mem_cons_self
      rw [List.filterMap_cons_some found]
      exact .cons holds (ih fun later member => has later (List.mem_cons_of_mem _ member))

/-- If no family is contested and no type is stranded, every type is paired with its
counterpart. -/
theorem Sound.paired (sound : registry.Sound)
    (clear : registry.Uncontested target) (none : registry.stranded target = []) :
    List.Forall₂
      (fun type pair => pair.1 = type.1 ∧ registry.Counterpart target type.1 type.2 pair.2)
      registry.toList (TypeMap.paired (registry.familyRows target) registry target) := by
  refine forall₂_filterMap fun (name, info) member => ?_
  rw [← sound.unresolved_eq, TypeMap.unresolved, List.filterMap_eq_nil_iff] at none
  have resolved := none (name, info) member
  cases found : TypeMap.counterpart? (registry.familyRows target) target name info with
  | none => simp [found] at resolved
  | some other => exact ⟨(name, other), by simp [found], rfl, sound.counterpart_of_some clear found⟩

theorem Sound.pointerIn (sound : registry.Sound)
    (clear : registry.Uncontested target) :
    TypeMap.pointerIn (registry.familyRows target) target = some name ↔
      registry.PointerIn target name := by
  cases target with
  | native => exact ⟨nofun, nofun⟩
  | ffi =>
      refine ⟨fun same => ?_, ?_⟩
      · rw [← Option.some.inj same]
        exact .ffi
      · rintro ⟨⟩
        rfl
  | arrayLib =>
      refine (sound.canonical?_eq_some clear).trans ⟨.arrayLib, ?_⟩
      rintro ⟨⟩
      assumption

end Registry

namespace TypeMap

variable {registry : Registry}

/-- A map builder answers with a map exactly if no family is contested and no type stranded; it
reports the first contested family, else the stranded types. -/
theorem build_cases (sound : registry.Sound) (target : TypeSystem) :
    (∃ family, registry.FirstContested target family ∧ build registry target =
      .error (.ambiguous target family (registry.favouritesOf target family))) ∨
    (registry.Uncontested target ∧
      ((registry.stranded target ≠ [] ∧
          build registry target = .error (.unresolved target (registry.stranded target))) ∨
        (registry.stranded target = [] ∧ build registry target =
          .ok ⟨target, paired (registry.familyRows target) registry target,
            pointerIn (registry.familyRows target) target⟩))) := by
  unfold build
  cases found : (registry.familyRows target).find? FamilyRow.isAmbiguous with
  | some row =>
      have told := (sound.row_tells (List.mem_of_find?_eq_some found)).2
      exact .inl ⟨row.family, sound.firstContested found, by simp [found, told]⟩
  | none =>
      refine .inr ⟨sound.not_contested found, ?_⟩
      simp only [sound.unresolved_eq]
      by_cases none : registry.stranded target = []
      · exact .inr ⟨none, by simp [found, none]⟩
      · exact .inl ⟨none, by simp [found, none]⟩

/-- Building a map meets its specification. It fails with an ambiguity exactly if a family is
contested, and reports the first such family with its preferred types; otherwise it fails with
unresolved types exactly if some are stranded, and reports them all; otherwise it pairs every
registered type, in the order of registration, with its counterpart. -/
theorem build_spec (reached : registry.Reached) (target : TypeSystem) :
    (((∃ family candidates, build registry target = .error (.ambiguous target family candidates)) ↔
        ∃ family, registry.Contested target family) ∧
      ∀ family candidates, build registry target = .error (.ambiguous target family candidates) →
        registry.FirstContested target family ∧
          candidates = registry.favouritesOf target family) ∧
    (((∃ names, build registry target = .error (.unresolved target names)) ↔
        registry.Uncontested target ∧ registry.stranded target ≠ []) ∧
      ∀ names, build registry target = .error (.unresolved target names) →
        names = registry.stranded target) ∧
    (((∃ map, build registry target = .ok map) ↔
        registry.Uncontested target ∧ registry.stranded target = []) ∧
      ∀ map, build registry target = .ok map →
        map.target = target ∧
        List.Forall₂ (fun type pair =>
            pair.1 = type.1 ∧ registry.Counterpart target type.1 type.2 pair.2)
          registry.toList map.entries ∧
        ∀ name, map.pointer = some name ↔ registry.PointerIn target name) := by
  have sound := reached.sound
  rcases build_cases sound target with
    ⟨family, first, answer⟩ | ⟨clear, ⟨some, answer⟩ | ⟨none, answer⟩⟩
  · rw [answer]
    refine ⟨⟨⟨fun _ => ⟨family, first.1⟩, fun _ => ⟨family, _, rfl⟩⟩, ?_⟩, ⟨⟨nofun, ?_⟩, nofun⟩,
      ⟨nofun, ?_⟩, nofun⟩
    · rintro _ _ ⟨⟩
      exact ⟨first, rfl⟩
    · exact fun clear => absurd first.1 (clear.1 family)
    · exact fun clear => absurd first.1 (clear.1 family)
  · rw [answer]
    refine ⟨⟨⟨nofun, ?_⟩, nofun⟩, ⟨⟨fun _ => ⟨clear, some⟩, fun _ => ⟨_, rfl⟩⟩, ?_⟩,
      ⟨nofun, fun none => absurd none.2 some⟩, nofun⟩
    · exact fun ⟨family, contested⟩ => absurd contested (clear family)
    · rintro _ ⟨⟩
      rfl
  · rw [answer]
    refine ⟨⟨⟨nofun, ?_⟩, nofun⟩, ⟨⟨nofun, fun some => absurd none some.2⟩, nofun⟩,
      ⟨fun _ => ⟨clear, none⟩, fun _ => ⟨_, rfl⟩⟩, ?_⟩
    · exact fun ⟨family, contested⟩ => absurd contested (clear family)
    · rintro _ ⟨⟩
      exact ⟨rfl, sound.paired clear none, fun name => sound.pointerIn clear⟩

/-- The fixed types with two foreign-function names preferred for the same integers. -/
def twoPreferred : Registry :=
  ((Registry.prefer (.ffi "c_int")).run
    ((Registry.prefer (.ffi "c_int32")).run .fixed).2).2

/-- Two favourites of one family make the map ambiguous. -/
theorem build_spec_twoPreferred :
    twoPreferred.Reached ∧
      twoPreferred.FirstContested .ffi ⟨.signed, .integer, 4⟩ ∧
      twoPreferred.favouritesOf .ffi ⟨.signed, .integer, 4⟩ = [.ffi "c_int32", .ffi "c_int"] := by
  have reached : twoPreferred.Reached := .prefer (.prefer .fixed _) _
  have answer : build twoPreferred .ffi =
      .error (.ambiguous .ffi ⟨.signed, .integer, 4⟩ [.ffi "c_int32", .ffi "c_int"]) := by
    decide +kernel
  obtain ⟨first, candidates⟩ := (build_spec reached .ffi).1.2 _ _ answer
  exact ⟨reached, first, candidates.symm⟩

end TypeMap

end TypeBridge
