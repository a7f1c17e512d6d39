import TypeBridge.Proofs.Generated.Listing
import TypeBridge.Proofs.Text.Showing

/-!
# What a text names

`sourceText` and `headerText` are the texts of a module as functions of it. The names of the
structures in `sourceIds` and `headerIds` stand in them, and they depend on the catalogue through
these names only.
-/

namespace TypeBridge.NativeModule

variable {module : NativeModule} {structures : Catalogue} {id : Nat}

/-! ## The texts of a module -/

/-- The definitions of the structures to be written. -/
def structureTexts (module : NativeModule) : List String :=
  module.structureOrder.map module.structures.nativeDefinition

/-- What the source of a module is put together from. -/
def sourceParts (module : NativeModule) : Source.ModuleParts where
  includes := module.headers.map (fun header => Source.includeTarget header.name) ++
    (module.headerName.map Source.includeTarget).toList
  structures := if module.headerName.isSome then [] else module.structureTexts
  globals := module.globals.map module.variableText
  functions := module.functions.map module.definitionText
  interfaces := module.interfaces.map fun entry => module.definitionText entry.callable

/-- What the header of a module is put together from. -/
def headerParts (module : NativeModule) : Source.HeaderParts where
  includes := (module.headers.filter fun header => !header.moduleOnly).map
    fun header => Source.includeTarget header.name
  structures := module.structureTexts
  interfaces := module.interfaces.map fun entry => module.signatureText entry.callable

/-- The source of a module. -/
def sourceText (module : NativeModule) : String := Source.moduleText module.sourceParts

/-- The header of a module. -/
def headerText (module : NativeModule) : String := Source.headerText module.headerParts

/-- A module whose structures all count as written. -/
def marked (module : NativeModule) : NativeModule :=
  { module with structures := module.structures.markAll module.structureOrder }

/-- Writing the structures of a module gives their definitions, and marks them. -/
theorem run_renderStructures (module : NativeModule) :
    renderStructures.run module = (.ok module.structureTexts, module.marked) := by
  have written := Catalogue.run_renderAll module.structureOrder module.structures
  have unfolded : renderStructures.run module =
      (((Catalogue.renderAll module.structureOrder).run module.structures).1,
        { module with
          structures := ((Catalogue.renderAll module.structureOrder).run module.structures).2 }) :=
    rfl
  rw [unfolded, written]
  rfl

/-- Writing a source without a header of its own marks the structures in it; writing one with a
header marks none. -/
theorem run_renderModule (module : NativeModule) : renderModule.run module =
    (.ok module.sourceText, if module.headerName.isSome then module else module.marked) := by
  rw [renderModule, Step.run_bind, Step.run_get, sourceText, sourceParts]
  dsimp only
  cases headerName : module.headerName with
  | none =>
      simp only [Option.isSome_none, Bool.false_eq_true, if_false, Step.run_bind,
        run_renderStructures]
      rfl
  | some name => rfl

/-- Writing a header marks the structures. -/
theorem run_renderHeader (module : NativeModule) :
    renderHeader.run module = (.ok module.headerText, module.marked) := by
  rw [renderHeader, Step.run_bind, Step.run_get]
  dsimp only
  rw [Step.run_bind, run_renderStructures]
  rfl

/-! ## Structures that are named -/

/-- The structures that the definitions in an order name: their own and those they refer to. -/
def definitionIds (module : NativeModule) : List Nat :=
  module.structureOrder.flatMap fun id => id :: module.structures.children id

/-- The structures that the source of a module names. -/
def sourceIds (module : NativeModule) : List Nat :=
  (if module.headerName.isSome then [] else module.definitionIds) ++ module.declaredIds

/-- The structures that the header of a module names. -/
def headerIds (module : NativeModule) : List Nat :=
  module.definitionIds ++ module.interfaces.flatMap fun entry => entry.callable.ids

/-- All structures that a text can name are listed. -/
theorem Sound.listed_of_mem_definitionIds (sound : module.Sound)
    (member : id ∈ module.definitionIds) : id ∈ module.structureOrder := by
  obtain ⟨owner, listed, named⟩ := List.mem_flatMap.mp member
  rcases List.mem_cons.mp named with rfl | refers
  · exact listed
  · exact sound.ordered.closed listed refers

/-- A source names listed structures alone. -/
theorem Sound.listed_of_mem_sourceIds (sound : module.Sound) (member : id ∈ module.sourceIds) :
    id ∈ module.structureOrder := by
  rcases List.mem_append.mp member with defined | declared
  · split at defined
    · cases defined
    · exact sound.listed_of_mem_definitionIds defined
  · exact sound.declared id declared

/-- A header names listed structures alone. -/
theorem Sound.listed_of_mem_headerIds (sound : module.Sound) (member : id ∈ module.headerIds) :
    id ∈ module.structureOrder := by
  rcases List.mem_append.mp member with defined | declared
  · exact sound.listed_of_mem_definitionIds defined
  · apply sound.declared id
    simp only [declaredIds, List.mem_append]
    exact Or.inr declared

/-! ## Texts depend on names -/

/-- The text of a type knows of the names of the structures in it alone. -/
theorem typeText_congr {use : TypeUse}
    (same : ∀ id ∈ use.ids, structures.name id = module.structures.name id) :
    { module with structures := structures }.typeText use = module.typeText use := by
  cases use with
  | void => rfl
  | native => rfl
  | record id => exact same id List.mem_cons_self
  | pointer id => exact congrArg (· ++ " *") (same id List.mem_cons_self)

/-- So does the head of a function. -/
theorem signatureText_congr {callable : Callable}
    (same : ∀ id ∈ callable.ids, structures.name id = module.structures.name id) :
    { module with structures := structures }.signatureText callable =
      module.signatureText callable := by
  have result := typeText_congr fun id member => same id (List.mem_append_left _ member)
  have params : callable.params.map (fun param =>
      { module with structures := structures }.typeText param.2 ++ " " ++ param.1) =
      callable.params.map fun param => module.typeText param.2 ++ " " ++ param.1 := by
    apply List.map_congr_left
    intro param member
    rw [typeText_congr]
    intro id named
    exact same id (List.mem_append_right _ (List.mem_flatMap.mpr ⟨param, member, named⟩))
  simp only [signatureText, result, params]

/-- So does the definition of a function. -/
theorem definitionText_congr {callable : Callable}
    (same : ∀ id ∈ callable.ids, structures.name id = module.structures.name id) :
    { module with structures := structures }.definitionText callable =
      module.definitionText callable := by
  simp only [definitionText, signatureText_congr same]

/-- So does the definition of a variable. -/
theorem variableText_congr {declared : VariableEntry}
    (same : ∀ id ∈ declared.type.ids, structures.name id = module.structures.name id) :
    { module with structures := structures }.variableText declared =
      module.variableText declared := by
  simp only [variableText, typeText_congr same]

/-- Definitions stay the same when structures are carried on under their names. -/
theorem structureTexts_congr (sound : module.Sound)
    (extension : module.structures.Extends structures)
    (same : ∀ id ∈ module.definitionIds, structures.name id = module.structures.name id) :
    { module with structures := structures }.structureTexts = module.structureTexts := by
  apply List.map_congr_left
  intro id member
  have continued := extension.entry id (sound.ordered.known id member)
  have named : ∀ other ∈ id :: module.structures.children id,
      structures.name other = module.structures.name other := fun other inside =>
    same other (List.mem_flatMap.mpr ⟨id, member, inside⟩)
  exact Catalogue.nativeDefinition_congr (named id List.mem_cons_self)
    (fun child refers => named child (List.mem_cons_of_mem id refers)) continued.fields
    continued.packing

/-- A source stays the same when all that it names is called as before. -/
theorem sourceParts_congr (sound : module.Sound) (extension : module.structures.Extends structures)
    (same : ∀ id ∈ module.sourceIds, structures.name id = module.structures.name id) :
    { module with structures := structures }.sourceParts = module.sourceParts := by
  have declared : ∀ id ∈ module.declaredIds, structures.name id = module.structures.name id :=
    fun id member => same id (List.mem_append_right _ member)
  have definitions : (if module.headerName.isSome then []
      else { module with structures := structures }.structureTexts) =
      if module.headerName.isSome then [] else module.structureTexts := by
    by_cases separate : module.headerName.isSome
    · rw [if_pos separate, if_pos separate]
    · rw [if_neg separate, if_neg separate]
      refine structureTexts_congr sound extension fun id member => same id ?_
      rw [sourceIds, if_neg separate]
      exact List.mem_append_left _ member
  have globals : module.globals.map { module with structures := structures }.variableText =
      module.globals.map module.variableText := by
    apply List.map_congr_left
    intro entry member
    refine variableText_congr fun id named => declared id ?_
    simp only [declaredIds, List.mem_append, List.mem_flatMap]
    exact Or.inl (Or.inl ⟨entry, member, named⟩)
  have functions : module.functions.map { module with structures := structures }.definitionText =
      module.functions.map module.definitionText := by
    apply List.map_congr_left
    intro entry member
    refine definitionText_congr fun id named => declared id ?_
    simp only [declaredIds, List.mem_append, List.mem_flatMap]
    exact Or.inl (Or.inr ⟨entry, member, named⟩)
  have interfaces : module.interfaces.map (fun entry =>
      { module with structures := structures }.definitionText entry.callable) =
      module.interfaces.map fun entry => module.definitionText entry.callable := by
    apply List.map_congr_left
    intro entry member
    refine definitionText_congr fun id named => declared id ?_
    simp only [declaredIds, List.mem_append, List.mem_flatMap]
    exact Or.inr ⟨entry, member, named⟩
  unfold sourceParts
  dsimp only
  rw [globals, functions, interfaces, definitions]

/-- A header stays the same when all that it names is called as before. -/
theorem headerParts_congr (sound : module.Sound) (extension : module.structures.Extends structures)
    (same : ∀ id ∈ module.headerIds, structures.name id = module.structures.name id) :
    { module with structures := structures }.headerParts = module.headerParts := by
  have definitions := structureTexts_congr sound extension fun id member =>
    same id (List.mem_append_left _ member)
  have interfaces : module.interfaces.map (fun entry =>
      { module with structures := structures }.signatureText entry.callable) =
      module.interfaces.map fun entry => module.signatureText entry.callable := by
    apply List.map_congr_left
    intro entry member
    refine signatureText_congr fun id named => same id (List.mem_append_right _ ?_)
    exact List.mem_flatMap.mpr ⟨entry, member, named⟩
  unfold headerParts
  dsimp only
  rw [definitions, interfaces]

/-! ## Names in texts -/

/-- What stands in the text of an entry stands in the texts of all, each with an ending. -/
theorem shows_joinEach {α : Type} {entry : α} {entries : List α} {part : String} (ending : String)
    (render : α → String) (member : entry ∈ entries) (shows : Text.Shows (render entry) part) :
    Text.Shows (Source.joinEach ending (entries.map render)) part := by
  have joined : Text.Shows (Source.joinEach ending (entries.map render))
      (render entry ++ ending) := by
    apply Text.shows_join
    exact List.mem_map.mpr ⟨render entry, List.mem_map.mpr ⟨entry, member, rfl⟩, rfl⟩
  exact joined.trans (shows.before ending)

/-- The name of a struct and its lines stand in its definition. -/
theorem shows_structText {name part : String} {members : List Source.MemberLine}
    (packing : Option Nat) (shows : Text.Shows name part ∨
      ∃ member ∈ members, Text.Shows member.render part) :
    Text.Shows (Source.structText name members packing) part := by
  have body : Text.Shows ("struct " ++ name ++ " \x7b\n" ++
      String.join (members.map Source.MemberLine.render) ++ "\x7d;") part := by
    rcases shows with own | ⟨member, inside, line⟩
    · exact (((own.behind _).before _).before _).before _
    · have joined := (Text.shows_join (List.mem_map_of_mem inside)).trans line
      exact (joined.behind _).before _
  unfold Source.structText
  dsimp only
  split
  · exact (body.behind _).before _
  · exact body

/-- The name of a structure and the names of those that it refers to stand in its definition. -/
theorem shows_nativeDefinition {catalogue : Catalogue} {other : Nat}
    (member : other ∈ id :: catalogue.children id) :
    Text.Shows (catalogue.nativeDefinition id) (catalogue.name other) := by
  apply shows_structText
  rcases List.mem_cons.mp member with rfl | refers
  · exact Or.inl (.refl _)
  · obtain ⟨field, inside, isChild⟩ := List.mem_filterMap.mp refers
    have spelled : Text.Shows (catalogue.typeText field.type) (catalogue.name other) := by
      obtain ⟨name, type, count⟩ := field
      cases type with
      | scalar => cases isChild
      | record child =>
          obtain rfl := Option.some.inj isChild
          exact .refl _
      | pointer child =>
          obtain rfl := Option.some.inj isChild
          exact (Text.Shows.refl _).before _
    refine Or.inr ⟨catalogue.memberLine field, List.mem_map_of_mem inside, ?_⟩
    exact ((((spelled.behind _).before _).before _).before _).before _

/-- The text of a type shows the names of the structures in it. -/
theorem shows_typeText {use : TypeUse} (member : id ∈ use.ids) :
    Text.Shows (module.typeText use) (module.structures.name id) := by
  cases use with
  | void => cases member
  | native => cases member
  | record =>
      obtain rfl := List.mem_singleton.mp member
      exact .refl _
  | pointer =>
      obtain rfl := List.mem_singleton.mp member
      exact (Text.Shows.refl _).before _

/-- So does the head of a function. -/
theorem shows_signatureText {callable : Callable} (member : id ∈ callable.ids) :
    Text.Shows (module.signatureText callable) (module.structures.name id) := by
  rcases List.mem_append.mp member with result | params
  · exact (((((shows_typeText result).before _).before _).before _).before _).before _
  · obtain ⟨param, inside, named⟩ := List.mem_flatMap.mp params
    have spelled : Text.Shows (module.typeText param.2) (module.structures.name id) :=
      shows_typeText named
    have joined : Text.Shows (String.intercalate ", " (callable.params.map fun param =>
        module.typeText param.2 ++ " " ++ param.1)) (module.typeText param.2 ++ " " ++ param.1) := by
      apply Text.shows_intercalate
      exact List.mem_map.mpr ⟨param, inside, rfl⟩
    exact ((joined.trans ((spelled.before _).before _)).behind _).before _

/-- So does the definition of a function. -/
theorem shows_definitionText {callable : Callable} (member : id ∈ callable.ids) :
    Text.Shows (module.definitionText callable) (module.structures.name id) :=
  (((shows_signatureText member).before _).before _).before _

/-- So does the definition of a variable. -/
theorem shows_variableText {declared : VariableEntry} (member : id ∈ declared.type.ids) :
    Text.Shows (module.variableText declared) (module.structures.name id) :=
  (((((shows_typeText member).behind _).before _).before _).before _).before _

/-- The definitions show the names of all structures that they name. -/
theorem shows_structureTexts (member : id ∈ module.definitionIds) :
    Text.Shows (Source.joinEach "\n\n" module.structureTexts) (module.structures.name id) := by
  obtain ⟨owner, listed, named⟩ := List.mem_flatMap.mp member
  exact shows_joinEach _ module.structures.nativeDefinition listed (shows_nativeDefinition named)

/-- The names that a source depends on stand in it. -/
theorem shows_sourceText (member : id ∈ module.sourceIds) :
    Text.Shows module.sourceText (module.structures.name id) := by
  unfold sourceText sourceParts Source.moduleText
  dsimp only
  rcases List.mem_append.mp member with defined | declared
  · by_cases separate : module.headerName.isSome
    · rw [if_pos separate] at defined
      cases defined
    · rw [if_neg separate] at defined ⊢
      have here := shows_structureTexts defined
      exact ((((((here.behind _).before _).before _).before _).before _).before _).before _
  · simp only [declaredIds, List.mem_append, List.mem_flatMap] at declared
    rcases declared with (⟨entry, inside, named⟩ | ⟨entry, inside, named⟩) | ⟨entry, inside, named⟩
    · have here := shows_joinEach "\n" module.variableText inside (shows_variableText named)
      exact (((((here.behind _).before _).before _).before _).before _).before _
    · have here := shows_joinEach "\n\n" module.definitionText inside (shows_definitionText named)
      exact (((here.behind _).before _).before _).before _
    · have body : Text.Shows (module.definitionText entry.callable) (module.structures.name id) :=
        shows_definitionText named
      rw [List.map_map]
      have here := shows_joinEach "\n"
        (("\n" ++ ·) ∘ fun entry : InterfaceEntry => module.definitionText entry.callable) inside
        (body.behind "\n")
      exact (here.behind _).before _

/-- The names that a header depends on stand in it. -/
theorem shows_headerText (member : id ∈ module.headerIds) :
    Text.Shows module.headerText (module.structures.name id) := by
  unfold headerText headerParts Source.headerText
  dsimp only
  rcases List.mem_append.mp member with defined | declared
  · have here := shows_structureTexts defined
    exact (((here.behind _).before _).before _).before _
  · obtain ⟨entry, inside, named⟩ := List.mem_flatMap.mp declared
    have here := shows_joinEach ";\n" (fun entry => module.signatureText entry.callable) inside
      (shows_signatureText named)
    exact (here.behind _).before _

end TypeBridge.NativeModule
