import TypeBridge.Proofs.Generated.Rendering
import TypeBridge.Proofs.Record.Mentions

/-!
# Where the texts of a module name structures

The source and the header of a module are put together from `Mention`s: `sourceText_eq` and
`headerText_eq` say that each is what its places spell under the present names. Which places there
are does not depend on what structures are called.
-/

namespace TypeBridge

/-! ## Lists of pieces -/

namespace Mention

variable {names : Nat → String}

/-- Some texts with a separator between them. -/
def separated (separator : String) : List (List Mention) → List Mention
  | [] => []
  | [last] => last
  | first :: second :: rest =>
    first ++ .text separator :: separated separator (second :: rest)

/-- Pieces with a separator are spelled as their texts with the separator between them. -/
theorem spelled_separated (separator : String) : (parts : List (List Mention)) →
    spelled names (separated separator parts) =
      separator.intercalate (parts.map (spelled names))
  | [] => String.intercalate_nil.symm
  | [last] => String.intercalate_singleton.symm
  | first :: second :: rest => by
    have more : (second :: rest).map (spelled names) ≠ [] := nofun
    rw [separated, spelled_append, spelled_cons, spelled_separated separator (second :: rest),
      spell, ← String.append_assoc]
    exact (String.intercalate_cons_of_ne_nil more).symm

/-- A separator names no structure. -/
theorem ids_separated (separator : String) : (parts : List (List Mention)) →
    ids (separated separator parts) = parts.flatMap ids
  | [] => rfl
  | [last] => by simp [separated]
  | first :: second :: rest => by
    rw [separated, ids_append, ids_text, ids_separated separator (second :: rest)]
    exact List.flatMap_cons.symm

/-- Some texts, each with an ending. -/
def ended {α : Type} (ending : String) (pieces : α → List Mention) (items : List α) :
    List Mention :=
  items.flatMap fun item => pieces item ++ [.text ending]

/-- Pieces with an ending are spelled as their texts with the ending behind each. -/
theorem spelled_ended {α : Type} (ending : String) {pieces : α → List Mention}
    {render : α → String} (same : ∀ item, spelled names (pieces item) = render item)
    (items : List α) :
    spelled names (ended ending pieces items) = Source.joinEach ending (items.map render) := by
  rw [ended, spelled_flatMap, Source.joinEach, List.map_map]
  refine congrArg String.join (List.map_congr_left fun item _ => ?_)
  simp [same, spell]

/-- An ending names no structure. -/
theorem ids_ended {α : Type} (ending : String) (pieces : α → List Mention) (items : List α) :
    ids (ended ending pieces items) = items.flatMap fun item => ids (pieces item) := by
  simp [ended, ids_flatMap]

end Mention

/-! ## Declarations -/

/-- A type as it is written. -/
def TypeUse.mentions : TypeUse → List Mention
  | .void => [.text "void"]
  | .native spelling => [.text spelling]
  | .record id => [.name id]
  | .pointer id => [.name id, .text " *"]

/-- A type as it is written names the structures that it uses. -/
theorem TypeUse.ids_mentions (use : TypeUse) : Mention.ids use.mentions = use.ids := by
  cases use <;> rfl

/-- The head of a function. -/
def Callable.headMentions (callable : Callable) : List Mention :=
  callable.result.mentions ++ .text (" " ++ callable.name ++ "(") ::
    Mention.separated ", "
      (callable.params.map fun param => param.2.mentions ++ [.text (" " ++ param.1)]) ++ [.text ")"]

/-- A function with its body. -/
def Callable.mentions (callable : Callable) : List Mention :=
  callable.headMentions ++ [.text (" \x7b\n" ++
    (if callable.body.isEmpty then "" else Text.indent callable.body 4 ++ "\n") ++ "\x7d")]

/-- The head of a function names the structures that its types use. -/
theorem Callable.ids_headMentions (callable : Callable) :
    Mention.ids callable.headMentions = callable.ids := by
  simp [headMentions, ids, Mention.ids_separated, TypeUse.ids_mentions, List.flatMap_map]

/-- A function names the structures that its types use, and its body names none. -/
theorem Callable.ids_mentions (callable : Callable) :
    Mention.ids callable.mentions = callable.ids := by
  simp [mentions, ids_headMentions]

/-- A variable with its initial value, if it has one. -/
def VariableEntry.mentions (declared : VariableEntry) : List Mention :=
  .text (if declared.isConstant then "const " else "") :: declared.type.mentions ++
    [.text (" " ++ declared.name ++
      (match declared.initializer with
        | some initializer => " = " ++ initializer
        | none => "") ++ ";")]

/-- A variable names the structures that its type uses. -/
theorem VariableEntry.ids_mentions (declared : VariableEntry) :
    Mention.ids declared.mentions = declared.type.ids := by
  simp [mentions, TypeUse.ids_mentions]

namespace NativeModule

variable {module : NativeModule} {structures : Catalogue}

/-- The pieces of a type are spelled as the type is written. -/
theorem typeText_eq (module : NativeModule) (use : TypeUse) :
    Mention.spelled module.structures.name use.mentions = module.typeText use := by
  cases use <;> simp [TypeUse.mentions, typeText, Mention.spell]

/-- The pieces of a head are spelled as the head is written. -/
theorem signatureText_eq (module : NativeModule) (callable : Callable) :
    Mention.spelled module.structures.name callable.headMentions =
      module.signatureText callable := by
  simp [Callable.headMentions, signatureText, Mention.spelled_separated, Function.comp_def,
    typeText_eq, Mention.spell, String.append_assoc]

/-- The pieces of a function are spelled as its definition is written. -/
theorem definitionText_eq (module : NativeModule) (callable : Callable) :
    Mention.spelled module.structures.name callable.mentions = module.definitionText callable := by
  simp [Callable.mentions, definitionText, signatureText_eq, Mention.spell, String.append_assoc]

/-- The pieces of a variable are spelled as its definition is written. -/
theorem variableText_eq (module : NativeModule) (declared : VariableEntry) :
    Mention.spelled module.structures.name declared.mentions = module.variableText declared := by
  obtain ⟨name, type, initializer, isConstant⟩ := declared
  cases initializer <;>
    simp [VariableEntry.mentions, variableText, typeText_eq, Mention.spell, String.append_assoc]

/-! ## Texts -/

/-- The definitions of the structures to be written. -/
def structureMentions (module : NativeModule) : List Mention :=
  Mention.ended "\n\n" module.structures.nativeMentions module.structureOrder

/-- The source of a module. -/
def sourceMentions (module : NativeModule) : List Mention :=
  .text (Source.includeLines module.sourceParts.includes ++ "\n") ::
    (if module.headerName.isSome then [] else module.structureMentions) ++
    Mention.ended "\n" VariableEntry.mentions module.globals ++
    .text "\n" :: Mention.ended "\n\n" Callable.mentions module.functions ++
    .text Source.linkageStart ::
    Mention.ended "\n" (fun entry => .text "\n" :: entry.callable.mentions) module.interfaces ++
    [.text "\n\x7d\n"]

/-- The header of a module. -/
def headerMentions (module : NativeModule) : List Mention :=
  .text ("#pragma once\n" ++ Source.includeLines module.headerParts.includes ++ "\n") ::
    module.structureMentions ++ .text Source.linkageStart ::
    Mention.ended ";\n" (fun entry => entry.callable.headMentions) module.interfaces ++
    [.text "\x7d\n"]

/-- The pieces of the structures are spelled as their definitions are written. -/
theorem spelled_structureMentions (module : NativeModule) :
    Mention.spelled module.structures.name module.structureMentions =
      Source.joinEach "\n\n" module.structureTexts :=
  Mention.spelled_ended "\n\n" (fun id => (module.structures.nativeDefinition_eq id).symm) _

/-- A source shows the present names of structures in its places. -/
theorem sourceText_eq (module : NativeModule) :
    module.sourceText = Mention.spelled module.structures.name module.sourceMentions := by
  have structures : Mention.spelled module.structures.name
      (if module.headerName.isSome then [] else module.structureMentions) =
      Source.joinEach "\n\n" module.sourceParts.structures := by
    rw [sourceParts]
    split
    · rfl
    · exact module.spelled_structureMentions
  have interfaces : ∀ entry : InterfaceEntry,
      Mention.spelled module.structures.name (.text "\n" :: entry.callable.mentions) =
        "\n" ++ module.definitionText entry.callable := by
    simp [Mention.spell, definitionText_eq]
  simp only [sourceText, Source.moduleText, sourceMentions, Mention.spelled_cons,
    Mention.spelled_append, Mention.spelled_nil, Mention.spell, structures, String.append_empty,
    Mention.spelled_ended "\n" module.variableText_eq,
    Mention.spelled_ended "\n\n" module.definitionText_eq,
    Mention.spelled_ended "\n" interfaces, String.append_assoc]
  simp [sourceParts, Function.comp_def]

/-- A header shows the present names of structures in its places. -/
theorem headerText_eq (module : NativeModule) :
    module.headerText = Mention.spelled module.structures.name module.headerMentions := by
  have interfaces : ∀ entry : InterfaceEntry,
      Mention.spelled module.structures.name entry.callable.headMentions =
        module.signatureText entry.callable := fun entry => module.signatureText_eq entry.callable
  have declarations := Mention.spelled_ended ";\n" interfaces module.interfaces
  unfold headerText Source.headerText headerMentions
  simp only [Mention.spelled_append, Mention.spelled_cons, Mention.spelled_nil, Mention.spell,
    spelled_structureMentions, declarations, String.append_empty]
  simp only [headerParts, String.append_assoc]

/-- They name the structures that the definitions name. -/
theorem ids_structureMentions (module : NativeModule) :
    Mention.ids module.structureMentions = module.definitionIds := by
  simp [structureMentions, Mention.ids_ended, Catalogue.ids_nativeMentions, definitionIds]

/-- The places of a source are for the structures that it names. -/
theorem ids_sourceMentions (module : NativeModule) :
    Mention.ids module.sourceMentions = module.sourceIds := by
  have structures :
      Mention.ids (if module.headerName.isSome then [] else module.structureMentions) =
        if module.headerName.isSome then [] else module.definitionIds := by
    rw [apply_ite Mention.ids, ids_structureMentions, Mention.ids_nil]
  simp [sourceMentions, sourceIds, declaredIds, structures, Mention.ids_ended,
    VariableEntry.ids_mentions, Callable.ids_mentions]

/-- A header names the structures that its parts name. -/
theorem ids_headerMentions (module : NativeModule) :
    Mention.ids module.headerMentions = module.headerIds := by
  simp [headerMentions, headerIds, ids_structureMentions, Mention.ids_ended,
    Callable.ids_headMentions]

/-! ## Other names -/

/-- Later structures leave the pieces of definitions as they are. -/
theorem structureMentions_restructure (sound : module.Sound)
    (extension : module.structures.Extends structures) :
    { module with structures := structures }.structureMentions = module.structureMentions :=
  List.flatMap_congr fun id member => by
    rw [extension.nativeMentions (sound.ordered.known id member)]

/-- The places of a source stay where they are, whatever structures are called. -/
theorem sourceMentions_restructure (sound : module.Sound)
    (extension : module.structures.Extends structures) :
    { module with structures := structures }.sourceMentions = module.sourceMentions := by
  simp only [sourceMentions, structureMentions_restructure sound extension, sourceParts]

/-- Later structures leave the pieces of a header as they are. -/
theorem headerMentions_restructure (sound : module.Sound)
    (extension : module.structures.Extends structures) :
    { module with structures := structures }.headerMentions = module.headerMentions := by
  simp only [headerMentions, structureMentions_restructure sound extension, headerParts]

end NativeModule

end TypeBridge
