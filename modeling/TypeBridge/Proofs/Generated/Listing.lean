import TypeBridge.Generated.NativeModule
import TypeBridge.Proofs.Record.Later

/-!
# What requests list

Resolving types for a module enters structures into its catalogue and lists them at the end of its
order; nothing else changes. `NativeModule.Lists` says so of two modules, and each step that
resolves types has one lemma that says what it lists, whether it answers or fails.
-/

namespace TypeBridge

/-- The composite that a type holds or points to, if it is no scalar. -/
def MemberType.composite? : MemberType → Option Composite
  | .scalar _ => none
  | .composite child => some child
  | .pointer child => some child

/-- Whether all types of a declaration can be put together. -/
def typesBuilt (returnType : Option MemberType) (parameters : List Parameter) : Prop :=
  (∀ type, returnType = some type → type.isBuilt) ∧
    ∀ parameter ∈ parameters, parameter.type.isBuilt

/-- The structures that a type names. -/
def TypeUse.ids : TypeUse → List Nat
  | .void => []
  | .native _ => []
  | .record id => [id]
  | .pointer id => [id]

/-- The structures that the head of a function names. -/
def Callable.ids (callable : Callable) : List Nat :=
  callable.result.ids ++ callable.params.flatMap fun param => param.2.ids

namespace NativeModule

variable {module before middle after : NativeModule} {composite : Composite} {machine : Machine}
  {rest : Session × Workbench} {id : Nat}

/-- The structures that the declarations of a module name. -/
def declaredIds (module : NativeModule) : List Nat :=
  module.globals.flatMap (fun declared => declared.type.ids) ++
    module.functions.flatMap Callable.ids ++
    module.interfaces.flatMap fun entry => entry.callable.ids

/-- A module whose structures are sound, stand in order, and are all there that its declarations
name. -/
structure Sound (module : NativeModule) : Prop where
  indexed : module.structures.Indexed
  structures : module.structures.Sound
  ordered : module.structures.Ordered module.structureOrder
  declared : ∀ id ∈ module.declaredIds, id ∈ module.structureOrder

/-- A module behind a step that enters structures and lists them at the end, and does nothing
else. -/
structure Lists (before after : NativeModule) : Prop where
  alone : after =
    { before with structures := after.structures, structureOrder := after.structureOrder }
  adds : before.structures.Adds after.structures
  grows : before.structureOrder <+: after.structureOrder

namespace Lists

theorem refl (module : NativeModule) : module.Lists module :=
  ⟨rfl, .refl _, List.prefix_refl _⟩

theorem trans (start : before.Lists middle) (last : middle.Lists after) : before.Lists after where
  alone := by
    rw [last.alone, start.alone]
  adds := start.adds.trans last.adds
  grows := start.grows.trans last.grows

theorem declaredIds (lists : before.Lists after) : after.declaredIds = before.declaredIds := by
  rw [lists.alone]
  rfl

/-- A module stays sound when structures are listed in order. -/
theorem sound (lists : before.Lists after) (sound : before.Sound)
    (ordered : after.structures.Ordered after.structureOrder) : after.Sound where
  indexed := lists.adds.later.indexed sound.indexed
  structures := lists.adds.later.sound sound.indexed sound.structures
  ordered := ordered
  declared id member := by
    rw [lists.declaredIds] at member
    exact lists.grows.subset (sound.declared id member)

end Lists

/-- A step leaves a module sound behind that only lists structures. -/
def Listing (before after : NativeModule) : Prop := after.Sound ∧ before.Lists after

theorem Listing.trans (start : before.Listing middle) (last : middle.Listing after) :
    before.Listing after := ⟨last.1, start.2.trans last.2⟩

/-! ## Listing a structure -/

/-- The order behind a structure that is added. -/
theorem structureOrder_appendStructure (module : NativeModule) (id : Nat) :
    (module.appendStructure id).structureOrder =
      Catalogue.appendAll module.structureOrder (module.structures.dependencyOrder id) := rfl

/-- A structure that is listed brings nothing with it that is not. -/
theorem Sound.appendStructure_of_mem (sound : module.Sound) (member : id ∈ module.structureOrder) :
    module.appendStructure id = module := by
  have inside : ∀ next ∈ module.structures.dependencyOrder id, next ∈ module.structureOrder := by
    intro next reached
    have closed : ∀ id, id ∈ module.structureOrder →
        ∀ child ∈ module.structures.children id, child < id → child ∈ module.structureOrder :=
      fun _ stands _ refers _ => sound.ordered.closed stands refers
    rcases Catalogue.visit_subset (· ∈ module.structureOrder) closed member reached with none | stands
    · cases none
    · exact stands
  have same := Catalogue.appendAll_of_subset inside
  rw [← structureOrder_appendStructure] at same
  obtain ⟨name, headerName, headers, structures, order, globals, functions, interfaces, defined⟩ :=
    module
  simp only [appendStructure] at same ⊢
  rw [same]

/-- Adding a structure lists it. -/
theorem Sound.appendStructure (sound : module.Sound) (known : id < module.structures.size) :
    module.Listing (module.appendStructure id) ∧
      id ∈ (module.appendStructure id).structureOrder := by
  obtain ⟨additional, isThere⟩ := Catalogue.ordered_dependencyOrder sound.structures.descends known
  obtain ⟨ordered, grows, stand⟩ := Catalogue.ordered_appendAll [] additional nofun sound.ordered
  have lists : module.Lists (module.appendStructure id) := ⟨rfl, .refl _, grows⟩
  exact ⟨⟨lists.sound sound ordered, lists⟩, stand id isThere⟩

/-- Entering a composite changes the catalogue only. -/
theorem onCatalogue_create_ensures (sound : module.Sound) (built : composite.isBuilt) :
    (onCatalogue (Catalogue.create machine composite)).Ensures (module, rest)
      (fun id after => module.Listing after.1 ∧
        after.1.structureOrder = module.structureOrder ∧
        after.1.structures.lookup composite = some id)
      (fun _ after => module.Listing after.1 ∧
        after.1.structureOrder = module.structureOrder) := by
  have entered := Catalogue.create_adds machine rest built sound.indexed
  have listing : ∀ structures, module.structures.Adds structures →
      module.Listing { module with structures := structures } := by
    intro structures adds
    have lists : module.Lists { module with structures := structures } :=
      ⟨rfl, adds, List.prefix_refl _⟩
    exact ⟨lists.sound sound (sound.ordered.extend adds.later.extension), lists⟩
  apply Step.Ensures.within
  refine entered.mono ?_ ?_
  · rintro id after ⟨adds, known⟩
    exact ⟨listing _ adds, rfl, known⟩
  · intro fault after adds
    exact ⟨listing _ adds, rfl⟩

/-- Adding a composite lists its structure; nothing is listed if it is refused. -/
theorem addStructure_ensures (sound : module.Sound) (built : composite.isBuilt) :
    (addStructure machine composite).Ensures (module, rest)
      (fun id after => module.Listing after.1 ∧
        after.1.structures.lookup composite = some id ∧ id ∈ after.1.structureOrder ∧
        (after.1.structureOrder = module.structureOrder ↔ id ∈ module.structureOrder))
      (fun _ after => module.Listing after.1 ∧
        after.1.structureOrder = module.structureOrder) := by
  rw [addStructure]
  refine Step.Ensures.bind _ (onCatalogue_create_ensures sound built) ?_
  rintro id ⟨entered, rest'⟩ ⟨listing, sameOrder, known⟩
  have present : id < entered.structures.size := listing.1.indexed.byType composite id known
  obtain ⟨listed, stands⟩ := listing.1.appendStructure present
  refine Step.Ensures.bind (fun _ after => module.Listing after.1 ∧
    after.1.structures.lookup composite = some id ∧ id ∈ after.1.structureOrder ∧
    (after.1.structureOrder = module.structureOrder ↔ id ∈ module.structureOrder))
    (Step.Ensures.onFirst (Step.Ensures.modify ?_)) fun _ _ holds => Step.Ensures.pure holds
  refine ⟨listing.trans listed, known, stands, ?_⟩
  constructor
  · intro same
    rw [← same]
    exact stands
  · intro already
    rw [← sameOrder] at already ⊢
    rw [listing.1.appendStructure_of_mem already]

/-! ## Resolving types -/

/-- A type is resolved to one that names the structure of its composite, which is listed. -/
structure Resolved (before after : NativeModule) (type : Option MemberType) (use : TypeUse) :
    Prop where
  listed : ∀ id ∈ use.ids, id ∈ after.structureOrder
  plain : type.bind MemberType.composite? = none → use.ids = []
  named : ∀ composite, type.bind MemberType.composite? = some composite →
    ∃ id, after.structures.lookup composite = some id ∧ use.ids = [id]
  unchanged : after.structureOrder = before.structureOrder ↔
    ∀ id ∈ use.ids, id ∈ before.structureOrder

/-- A type without a composite is resolved to one that names nothing. -/
theorem Resolved.of_plain {type : Option MemberType} {use : TypeUse}
    (plain : type.bind MemberType.composite? = none) (ids : use.ids = []) :
    module.Resolved module type use where
  listed := by simp [ids]
  plain _ := ids
  named composite leads := by
    rw [plain] at leads
    cases leads
  unchanged := by simp [ids]

/-- A type with a composite is resolved to one that names its structure. -/
theorem Resolved.of_listed {type : Option MemberType} {use : TypeUse}
    (leads : type.bind MemberType.composite? = some composite) (ids : use.ids = [id])
    (known : after.structures.lookup composite = some id) (stands : id ∈ after.structureOrder)
    (unchanged : after.structureOrder = before.structureOrder ↔ id ∈ before.structureOrder) :
    before.Resolved after type use where
  listed := by simpa [ids] using stands
  plain none := by
    rw [leads] at none
    cases none
  named other same := by
    rw [leads] at same
    cases same
    exact ⟨id, known, ids⟩
  unchanged := by simpa [ids] using unchanged

theorem typeUse_ensures (sound : module.Sound) (type : Option MemberType)
    (built : ∀ member, type = some member → member.isBuilt) :
    (typeUse machine type).Ensures (module, rest)
      (fun use after => module.Listing after.1 ∧ module.Resolved after.1 type use)
      (fun _ after => module.Listing after.1 ∧
        after.1.structureOrder = module.structureOrder) := by
  have still : module.Listing module := ⟨sound, .refl module⟩
  cases type with
  | none =>
      rw [typeUse]
      exact Step.Ensures.pure ⟨still, .of_plain rfl rfl⟩
  | some member =>
      cases member with
      | scalar name =>
          rw [typeUse]
          refine Step.Ensures.bind (fun _ after => after.1 = module) ?_ ?_
          · constructor
            · intro _ _
              rfl
            · intro _ _
              exact ⟨still, rfl⟩
          · rintro scalar ⟨_, rest'⟩ rfl
            exact Step.Ensures.pure ⟨still, .of_plain rfl rfl⟩
      | composite child =>
          rw [typeUse]
          refine Step.Ensures.bind _ (addStructure_ensures sound (built _ rfl)) ?_
          rintro id after ⟨listing, known, stands, unchanged⟩
          exact Step.Ensures.pure ⟨listing, .of_listed rfl rfl known stands unchanged⟩
      | pointer child =>
          rw [typeUse]
          refine Step.Ensures.bind _ (addStructure_ensures sound (built _ rfl)) ?_
          rintro id after ⟨listing, known, stands, unchanged⟩
          exact Step.Ensures.pure ⟨listing, .of_listed rfl rfl known stands unchanged⟩

end NativeModule

end TypeBridge
