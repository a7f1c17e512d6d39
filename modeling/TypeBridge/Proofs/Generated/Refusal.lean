import TypeBridge.Proofs.Generated.Runs

/-!
# What a refused interface leaves behind

An interface is examined before anything is listed, so that one which is refused leaves nothing
behind. What a pointer leads to is not examined, though: if its composite is refused later on, the
structures of the types before it have been listed. `refused_interface_iff` has the exact case in
which a refusal cannot be seen from outside.
-/

namespace TypeBridge

namespace Source

/-- Texts with endings are joined to the same text exactly if none is added. -/
theorem joinEach_append_iff {ending : String} (ends : ending ≠ "") (texts more : List String) :
    joinEach ending (texts ++ more) = joinEach ending texts ↔ more = [] := by
  rw [joinEach, joinEach, List.map_append, String.join_append, String.append_eq_left_iff]
  constructor
  · intro nothing
    cases more with
    | nil => rfl
    | cons text rest =>
        rw [List.map_cons, String.join_cons] at nothing
        obtain ⟨first, -⟩ := String.append_eq_empty_iff.mp nothing
        exact absurd (String.append_eq_empty_iff.mp first).2 ends
  · rintro rfl
    rfl

/-- A header shows each structure that is defined in it. -/
theorem headerText_append_iff (parts : HeaderParts) (more : List String) :
    headerText { parts with structures := parts.structures ++ more } = headerText parts ↔
      more = [] := by
  have ends : "\n\n" ≠ "" := by decide
  unfold headerText
  dsimp only
  rw [String.append_left_inj, String.append_left_inj, String.append_left_inj,
    String.append_right_inj, joinEach_append_iff ends]

/-- A source shows each structure that is defined in it. -/
theorem moduleText_append_iff (parts : ModuleParts) (more : List String) :
    moduleText { parts with structures := parts.structures ++ more } = moduleText parts ↔
      more = [] := by
  have ends : "\n\n" ≠ "" := by decide
  unfold moduleText
  dsimp only
  rw [String.append_left_inj, String.append_left_inj, String.append_left_inj,
    String.append_left_inj, String.append_left_inj, String.append_left_inj,
    String.append_right_inj, joinEach_append_iff ends]

end Source

namespace NativeModule

variable {module before after : NativeModule} {machine : Machine} {interface : Interface}
  {rest rest' : Session × Workbench} {fault : GenerateFault}

/-- Two modules that nothing tells apart from outside: they have the same texts, interfaces and
structures, and the same names are taken. -/
structure Alike (before after : NativeModule) : Prop where
  source : (renderModule.run after).1 = (renderModule.run before).1
  header : (renderHeader.run after).1 = (renderHeader.run before).1
  interfaces : after.interfaceNames = before.interfaceNames
  structures : after.structureOrder = before.structureOrder
  defined : after.defined = before.defined

/-- All structures that some types lead to were listed before. -/
def WereListed (before after : NativeModule) (types : List (Option MemberType)) : Prop :=
  ∀ type ∈ types, ∀ composite, Leads type composite →
    ∀ id, after.structures.lookup composite = some id → id ∈ before.structureOrder

namespace Lists

/-- Structures keep their names while others are listed. -/
theorem name (lists : before.Lists after) (sound : before.Sound) {id : Nat}
    (listed : id ∈ before.structureOrder) : after.structures.name id = before.structures.name id :=
  congrArg RecordEntry.name (lists.adds.entry id (sound.ordered.known id listed))

/-- The definitions of structures that are listed follow those of all before. -/
theorem structureTexts (lists : before.Lists after) (sound : before.Sound) :
    ∃ more, after.structureTexts = before.structureTexts ++ more ∧
      (more = [] ↔ after.structureOrder = before.structureOrder) := by
  obtain ⟨added, grown⟩ := lists.grows
  have early : before.structureOrder.map after.structures.nativeDefinition =
      before.structureTexts :=
    structureTexts_congr sound lists.adds.later.extension fun id member =>
      lists.name sound (sound.listed_of_mem_definitionIds member)
  refine ⟨added.map after.structures.nativeDefinition, ?_, ?_⟩
  · rw [NativeModule.structureTexts, ← grown, List.map_append, early]
  · rw [List.map_eq_nil_iff, ← grown]
    constructor
    · rintro rfl
      exact List.append_nil _
    · intro same
      exact List.append_right_eq_self.mp same

/-- A header is what it was exactly if no structure was listed. -/
theorem headerText_iff (lists : before.Lists after) (sound : before.Sound) :
    after.headerText = before.headerText ↔ after.structureOrder = before.structureOrder := by
  obtain ⟨more, texts, unlisted⟩ := lists.structureTexts sound
  have same := headerParts_congr sound lists.adds.later.extension fun id member =>
    lists.name sound (sound.listed_of_mem_headerIds member)
  have alone : after.headerParts =
      { { before with structures := after.structures }.headerParts with
        structures := after.structureTexts } := by
    rw [lists.alone]
    rfl
  have parts : after.headerParts = { before.headerParts with
      structures := before.headerParts.structures ++ more } := by
    rw [alone, same, texts]
    rfl
  rw [headerText, parts, headerText, Source.headerText_append_iff, unlisted]

/-- A source is what it was exactly if it holds no structures or none was listed. -/
theorem sourceText_iff (lists : before.Lists after) (sound : before.Sound) :
    after.sourceText = before.sourceText ↔
      before.headerName.isSome ∨ after.structureOrder = before.structureOrder := by
  obtain ⟨more, texts, unlisted⟩ := lists.structureTexts sound
  have same := sourceParts_congr sound lists.adds.later.extension fun id member =>
    lists.name sound (sound.listed_of_mem_sourceIds member)
  have alone : after.sourceParts =
      { { before with structures := after.structures }.sourceParts with
        structures := if before.headerName.isSome then [] else after.structureTexts } := by
    rw [lists.alone]
    rfl
  by_cases separate : before.headerName.isSome
  · have parts : after.sourceParts = before.sourceParts := by
      rw [alone, same, sourceParts, if_pos separate, if_pos separate]
    rw [sourceText, parts, sourceText]
    simp [separate]
  · have parts : after.sourceParts = { before.sourceParts with
        structures := before.sourceParts.structures ++ more } := by
      rw [alone, same, texts, sourceParts, if_neg separate, if_neg separate]
    rw [sourceText, parts, sourceText, Source.moduleText_append_iff, unlisted]
    simp [separate]

/-- Nothing tells two modules apart from outside exactly if no structure was listed between them. -/
theorem alike_iff (lists : before.Lists after) (sound : before.Sound) :
    before.Alike after ↔ after.structureOrder = before.structureOrder := by
  constructor
  · intro alike
    exact alike.structures
  · intro same
    refine ⟨?_, ?_, ?_, same, ?_⟩
    · rw [run_renderModule, run_renderModule]
      exact congrArg Except.ok ((lists.sourceText_iff sound).mpr (Or.inr same))
    · rw [run_renderHeader, run_renderHeader]
      exact congrArg Except.ok ((lists.headerText_iff sound).mpr same)
    · rw [lists.alone]
      rfl
    · rw [lists.alone]

end Lists

/-! ## Refused interfaces -/

/-- A refused interface leaves a module behind in which structures were listed at most. Nothing
tells it apart from the one before, and its texts are the same, exactly if all structures were
listed already to which the types lead that had been resolved before the fault. -/
theorem refused_interface_iff (reached : module.Reached)
    (built : typesBuilt interface.returnType interface.parameters)
    (refused : (addInterface machine interface).run (module, rest) =
      (.error fault, (after, rest'))) :
    module.Lists after ∧
    (module.Alike after ↔
      module.WereListed after (settledTypes machine interface (module, rest))) ∧
    ((renderHeader.run after).1 = (renderHeader.run module).1 ↔
      module.WereListed after (settledTypes machine interface (module, rest))) ∧
    ((renderModule.run after).1 = (renderModule.run module).1 ↔ module.headerName.isSome ∨
      module.WereListed after (settledTypes machine interface (module, rest))) := by
  have sound := reached.sound
  obtain ⟨⟨-, lists⟩, settles⟩ := (addInterface_ensures sound interface built).of_error refused
  have unchanged : after.structureOrder = module.structureOrder ↔
      module.WereListed after (settledTypes machine interface (module, rest)) :=
    settles.unchanged
  refine ⟨lists, ?_, ?_, ?_⟩
  · rw [lists.alike_iff sound, unchanged]
  · rw [run_renderHeader, run_renderHeader, Except.ok.injEq, lists.headerText_iff sound, unchanged]
  · rw [run_renderModule, run_renderModule, Except.ok.injEq, lists.sourceText_iff sound, unchanged]

/-- An interface whose second parameter points to a record without fields. -/
def pointing : Interface :=
  ⟨"f", none, [⟨"a", .pointer (Catalogue.floatRecord (.native "float"))⟩,
    ⟨"b", .pointer (.mk [] .natural)⟩], ""⟩

theorem built_pointing : typesBuilt pointing.returnType pointing.parameters := by
  constructor
  · nofun
  · intro parameter member
    simp only [pointing, List.mem_cons, List.not_mem_nil, or_false] at member
    rcases member with rfl | rfl <;> decide

/-- What is left of a module that held nothing when the interface is refused. -/
def leftBehind : NativeModule × Session × Workbench :=
  ((addInterface Scripted.Script.words.machine pointing).run
    (empty "m", Catalogue.floatSession)).2

theorem facts_pointing : ((addInterface Scripted.Script.words.machine pointing).run
      (empty "m", Catalogue.floatSession)).1 = .error .emptyComposite ∧
    leftBehind.1.structureOrder = [0] ∧
    leftBehind.1.structures.lookup (Catalogue.floatRecord (.native "float")) = some 0 ∧
    some (.pointer (Catalogue.floatRecord (.native "float"))) ∈
      settledTypes Scripted.Script.words.machine pointing
        (empty "m", Catalogue.floatSession) := by
  decide +kernel

theorem run_pointing : (addInterface Scripted.Script.words.machine pointing).run
    (empty "m", Catalogue.floatSession) =
      (.error .emptyComposite, (leftBehind.1, leftBehind.2)) := by
  rw [Prod.eta]
  unfold leftBehind
  exact Step.run_eq_of_fst facts_pointing.1

/-- The record that its first parameter points to is listed when the second is refused, which shows
in the header. -/
theorem refused_interface_iff_pointing : (empty "m").Reached ∧
    (addInterface Scripted.Script.words.machine pointing).run
      (empty "m", Catalogue.floatSession) =
        (.error .emptyComposite, (leftBehind.1, leftBehind.2)) ∧
    ¬ (empty "m").Alike leftBehind.1 ∧
    (renderHeader.run leftBehind.1).1 ≠ (renderHeader.run (empty "m")).1 := by
  have reached : (empty "m").Reached := ⟨"m", .refl⟩
  obtain ⟨-, -, found, settled⟩ := facts_pointing
  obtain ⟨-, alike, header, -⟩ := refused_interface_iff reached built_pointing run_pointing
  have unlisted : ¬ (empty "m").WereListed leftBehind.1
      (settledTypes Scripted.Script.words.machine pointing
        (empty "m", Catalogue.floatSession)) := by
    intro listed
    have stands := listed _ settled _ rfl 0 found
    cases stands
  refine ⟨reached, run_pointing, ?_, ?_⟩
  · intro same
    exact unlisted (alike.mp same)
  · intro same
    exact unlisted (header.mp same)

/-- A refused interface does leave structures behind. -/
theorem refusal_seen_pointing : ¬ ∀ (module : NativeModule) machine interface rest fault after rest',
    module.Reached → typesBuilt interface.returnType interface.parameters →
    (addInterface machine interface).run (module, rest) = (.error fault, (after, rest')) →
    module.Alike after := by
  intro claim
  have alike := claim (empty "m") _ pointing _ _ _ _ ⟨"m", .refl⟩ built_pointing run_pointing
  have listed := facts_pointing.2.1
  rw [alike.structures] at listed
  cases listed

end NativeModule

end TypeBridge
