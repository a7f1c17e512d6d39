import TypeBridge.Proofs.Generated.Runs
import TypeBridge.Proofs.Record.Placement

/-!
# Definitions stand before uses

The texts of a module are cut into passages: definitions of structures, declarations, and what
stands between them. `Passage.uses` are the structures that a passage names without defining them.
`InOrder` holds of passages that name only structures defined before; `definition_before_use` says
that it holds of the header of every reached module, and of its source if it has the structures.
-/

namespace TypeBridge

/-- A stretch of a text. -/
inductive Passage where
  /-- What names no structure: includes, blank lines, brackets. -/
  | plain (text : String)
  | definition (id : Nat)
  | global (entry : VariableEntry)
  /-- A function with its body. -/
  | function (callable : Callable)
  /-- The head of a function. -/
  | head (callable : Callable)

namespace Passage

variable {module : NativeModule} {α : Type}

/-- A passage as it stands in a text. -/
def text (module : NativeModule) : Passage → String
  | .plain text => text
  | .definition id => module.structures.nativeDefinition id
  | .global entry => module.variableText entry
  | .function callable => module.definitionText callable
  | .head callable => module.signatureText callable

/-- The structures that a passage names and does not define. What a function's body and a variable's
initial value say is the caller's own text. -/
def uses (module : NativeModule) : Passage → List Nat
  | .plain _ => []
  | .definition id => module.structures.children id
  | .global entry => entry.type.ids
  | .function callable => callable.ids
  | .head callable => callable.ids

/-- A passage for each of some entries, between an opening and an ending. -/
def each (opening : String) (passage : α → Passage) (ending : String) (entries : List α) :
    List Passage :=
  entries.flatMap fun entry => [.plain opening, passage entry, .plain ending]

/-- The text of some passages. -/
def joined (module : NativeModule) (passages : List Passage) : String :=
  String.join (passages.map (text module))

/-- The text of two lists of passages is that of both in a row. -/
@[simp] theorem joined_append (module : NativeModule) (front back : List Passage) :
    joined module (front ++ back) = joined module front ++ joined module back := by
  simp [joined, String.join_append]

/-- A plain passage is its own text. -/
@[simp] theorem joined_plain (module : NativeModule) (text : String) :
    joined module [.plain text] = text := by
  simp [joined, Passage.text]

/-- The text of a passage for each entry is joined from the entries. -/
@[simp] theorem joined_each (module : NativeModule) (opening : String) (passage : α → Passage)
    (ending : String) (entries : List α) : joined module (each opening passage ending entries) =
      Source.joinEach ending (entries.map fun entry => opening ++ (passage entry).text module) := by
  induction entries with
  | nil => rfl
  | cons entry rest ih =>
      have first : each opening passage ending (entry :: rest) =
          [.plain opening] ++ [passage entry] ++ [.plain ending] ++
            each opening passage ending rest := rfl
      rw [first, joined_append, joined_append, joined_append, ih]
      simp [joined, Source.joinEach, Passage.text, String.append_assoc]

/-- A definition opens with the name of its structure. -/
theorem shows_opening (id : Nat) : Text.Shows ((definition id).text module)
    ("struct " ++ module.structures.name id ++ " \x7b\n") := by
  unfold text Catalogue.nativeDefinition Source.structText
  dsimp only
  have opens := fun lines =>
    ((Text.Shows.refl ("struct " ++ module.structures.name id ++ " \x7b\n")).before lines).before
      "\x7d;"
  split
  · exact ((opens _).behind _).before _
  · exact opens _

/-- The name of each structure that a passage uses stands in it. -/
theorem shows_text {passage : Passage} {id : Nat} (used : id ∈ passage.uses module) :
    Text.Shows (passage.text module) (module.structures.name id) := by
  cases passage with
  | plain => cases used
  | definition => exact NativeModule.shows_nativeDefinition (List.mem_cons_of_mem _ used)
  | global => exact NativeModule.shows_variableText used
  | function => exact NativeModule.shows_definitionText used
  | head => exact NativeModule.shows_signatureText used

/-- A passage does not show how structures are called that it neither defines nor uses. -/
theorem text_renamed {passage : Passage} {id : Nat} (name : String)
    (undefined : passage ≠ .definition id) (unused : id ∉ passage.uses module) :
    passage.text { module with structures := module.structures.renamed id name } =
      passage.text module := by
  have kept : ∀ other, other ≠ id →
      (module.structures.renamed id name).name other = module.structures.name other := by
    intro other apart
    simp [Catalogue.name, Catalogue.renamed, Catalogue.entry, Catalogue.modifyEntry, Ne.symm apart]
  have apart : ∀ other ∈ passage.uses module, other ≠ id := by
    rintro other used rfl
    exact unused used
  cases passage with
  | plain => rfl
  | definition owner =>
      have different : owner ≠ id := by
        rintro rfl
        exact undefined rfl
      have same : (module.structures.renamed id name).entry owner =
          module.structures.entry owner := by
        simp [Catalogue.renamed, Catalogue.entry, Catalogue.modifyEntry, Ne.symm different]
      exact Catalogue.nativeDefinition_congr (kept owner different)
        (fun child refers => kept child (apart child refers)) (by rw [same]) (by rw [same])
  | global => exact NativeModule.variableText_congr fun other used => kept other (apart other used)
  | function =>
      exact NativeModule.definitionText_congr fun other used => kept other (apart other used)
  | head => exact NativeModule.signatureText_congr fun other used => kept other (apart other used)

end Passage

namespace NativeModule

variable {module : NativeModule} {passages more : List Passage} {order : List Nat}

/-- Passages that name only structures defined before. -/
inductive InOrder (module : NativeModule) : List Passage → Prop
  | nil : InOrder module []
  | snoc {front : List Passage} {passage : Passage} (inOrder : InOrder module front)
      (defined : ∀ id ∈ passage.uses module, .definition id ∈ front) :
      InOrder module (front ++ [passage])

namespace InOrder

/-- Each passage stands behind the definitions of all that it uses. -/
theorem defined (inOrder : module.InOrder passages) {front back : List Passage} {passage : Passage}
    (split : passages = front ++ passage :: back) {id : Nat} (used : id ∈ passage.uses module) :
    .definition id ∈ front := by
  induction inOrder generalizing back with
  | nil => simp at split
  | snoc _ defined ih =>
      rcases List.eq_nil_or_concat back with rfl | ⟨back', last, rfl⟩
      · obtain ⟨rfl, last⟩ := List.append_inj' split rfl
        obtain rfl := List.cons.inj last |>.1
        exact defined id used
      · rw [List.concat_eq_append, ← List.cons_append, ← List.append_assoc] at split
        exact ih (List.append_inj' split rfl).1

/-- Passages that use what is defined already can follow. -/
theorem append (inOrder : module.InOrder passages)
    (defined : ∀ passage ∈ more, ∀ id ∈ passage.uses module, .definition id ∈ passages) :
    module.InOrder (passages ++ more) := by
  induction more generalizing passages with
  | nil =>
      rw [List.append_nil]
      exact inOrder
  | cons passage rest ih =>
      rw [← List.singleton_append, ← List.append_assoc]
      refine ih (inOrder.snoc (defined passage List.mem_cons_self)) ?_
      intro later member id used
      exact List.mem_append_left _ (defined later (List.mem_cons_of_mem _ member) id used)

/-- Text that names no structure can follow. -/
theorem plain (inOrder : module.InOrder passages) (text : String) :
    module.InOrder (passages ++ [.plain text]) :=
  inOrder.snoc nofun

/-- Declarations can follow if all structures are defined that they use. -/
theorem each {α : Type} {entries : List α} {passage : α → Passage}
    (inOrder : module.InOrder passages) (opening ending : String)
    (defined : ∀ entry ∈ entries, ∀ id ∈ (passage entry).uses module, .definition id ∈ passages) :
    module.InOrder (passages ++ Passage.each opening passage ending entries) := by
  refine inOrder.append fun used member id named => ?_
  obtain ⟨entry, inside, place⟩ := List.mem_flatMap.mp member
  simp only [List.mem_cons, List.not_mem_nil, or_false] at place
  rcases place with rfl | rfl | rfl
  · cases named
  · exact defined entry inside id named
  · cases named

end InOrder

/-- The definitions of some structures. -/
def definitionPassages (order : List Nat) : List Passage := Passage.each "" .definition "\n\n" order

/-- The definitions in the passages are those of the order. -/
theorem mem_definitionPassages {id : Nat} :
    .definition id ∈ definitionPassages order ↔ id ∈ order := by
  simp [definitionPassages, Passage.each, List.mem_flatMap]

/-- The passages of the source of a module that has its structures. -/
def sourcePassages (module : NativeModule) : List Passage :=
  [.plain (Source.includeLines
      (module.headers.map fun header => Source.includeTarget header.name) ++ "\n")] ++
    definitionPassages module.structureOrder ++
    Passage.each "" .global "\n" module.globals ++ [.plain "\n"] ++
    Passage.each "" .function "\n\n" module.functions ++ [.plain Source.linkageStart] ++
    Passage.each "\n" (fun entry : InterfaceEntry => .function entry.callable) "\n"
      module.interfaces ++ [.plain "\n\x7d\n"]

/-- The passages of the header of a module. -/
def headerPassages (module : NativeModule) : List Passage :=
  [.plain ("#pragma once\n" ++ Source.includeLines
      ((module.headers.filter fun header => !header.moduleOnly).map
        fun header => Source.includeTarget header.name) ++ "\n")] ++
    definitionPassages module.structureOrder ++ [.plain Source.linkageStart] ++
    Passage.each "" (fun entry : InterfaceEntry => .head entry.callable) ";\n"
      module.interfaces ++ [.plain "\x7d\n"]

/-- A source with its structures is made up of its passages. -/
theorem joined_sourcePassages (own : module.headerName = none) :
    Passage.joined module module.sourcePassages = module.sourceText := by
  unfold sourcePassages sourceText sourceParts Source.moduleText definitionPassages structureTexts
  simp only [Passage.joined_append, Passage.joined_plain, Passage.joined_each, Passage.text, own,
    String.empty_append, List.map_map, Option.map_none, Option.toList_none, List.append_nil]
  rfl

/-- A header is made up of its passages. -/
theorem joined_headerPassages (module : NativeModule) :
    Passage.joined module module.headerPassages = module.headerText := by
  unfold headerPassages headerText headerParts Source.headerText definitionPassages structureTexts
  simp only [Passage.joined_append, Passage.joined_plain, Passage.joined_each, Passage.text,
    String.empty_append]

/-- Structures are defined in their order. -/
theorem InOrder.definitions (ordered : module.structures.Ordered order)
    (inOrder : module.InOrder passages) :
    module.InOrder (passages ++ definitionPassages order) := by
  -- The definitions of a first part stand there when the next one is taken up.
  have onwards : ∀ rest done, done ++ rest = order →
      module.InOrder (passages ++ definitionPassages done) →
      module.InOrder (passages ++ definitionPassages (done ++ rest)) := by
    intro rest
    induction rest with
    | nil =>
        intro done _ before
        rw [List.append_nil]
        exact before
    | cons id rest ih =>
        intro done split before
        rw [← List.singleton_append, ← List.append_assoc]
        refine ih (done ++ [id]) (by simpa using split) ?_
        rw [definitionPassages, Passage.each, List.flatMap_append, ← List.append_assoc]
        refine before.each "" "\n\n" fun entry only child refers => ?_
        rw [List.mem_singleton.mp only] at refers
        have early := ordered.before done id rest split.symm child refers
        exact List.mem_append_right _ (mem_definitionPassages.mpr early)
  simpa using onwards order [] rfl (by simpa [definitionPassages, Passage.each] using inOrder)

/-- The header uses no structure before its definition. -/
theorem inOrder_headerPassages (sound : module.Sound) : module.InOrder module.headerPassages := by
  have includes := fun text => (InOrder.nil : module.InOrder []).plain text
  refine ((((includes _).definitions sound.ordered).plain _).each _ _ ?_).plain _
  intro entry member id used
  have declared : id ∈ module.declaredIds := by
    simp only [declaredIds, List.mem_append, List.mem_flatMap]
    exact Or.inr ⟨entry, member, used⟩
  have defined := mem_definitionPassages.mpr (sound.declared id declared)
  simp [defined]

/-- The source uses no structure before its definition. -/
theorem inOrder_sourcePassages (sound : module.Sound) : module.InOrder module.sourcePassages := by
  have includes := fun text => (InOrder.nil : module.InOrder []).plain text
  have defined : ∀ id ∈ module.declaredIds,
      Passage.definition id ∈ definitionPassages module.structureOrder := fun id declared =>
    mem_definitionPassages.mpr (sound.declared id declared)
  simp only [declaredIds, List.mem_append, List.mem_flatMap] at defined
  refine (((((((includes _).definitions sound.ordered).each _ _ ?_).plain _).each _ _ ?_).plain
    _).each _ _ ?_).plain _
  · intro entry member id used
    have here := defined id (Or.inl (Or.inl ⟨entry, member, used⟩))
    simp [here]
  · intro entry member id used
    have here := defined id (Or.inl (Or.inr ⟨entry, member, used⟩))
    simp [here]
  · intro entry member id used
    have here := defined id (Or.inr ⟨entry, member, used⟩)
    simp [here]

/-- Whatever was asked of a module, its order has each structure once, behind all that it holds or
points to, and it has all structures that the declarations of the module name. So in the header, and
in a source that has the structures, every passage stands behind the definitions of the structures
whose names stand in it. -/
theorem definition_before_use (reached : module.Reached) :
    module.structureOrder.Nodup ∧
    (∀ front id back, module.structureOrder = front ++ id :: back →
      ∀ child ∈ module.structures.children id, child ∈ front) ∧
    (∀ id ∈ module.declaredIds, id ∈ module.structureOrder) ∧
    (renderHeader.run module).1 = .ok (Passage.joined module module.headerPassages) ∧
    (∀ front passage back, module.headerPassages = front ++ passage :: back →
      ∀ id ∈ passage.uses module, .definition id ∈ front) ∧
    (module.headerName = none →
      (renderModule.run module).1 = .ok (Passage.joined module module.sourcePassages) ∧
      ∀ front passage back, module.sourcePassages = front ++ passage :: back →
        ∀ id ∈ passage.uses module, .definition id ∈ front) ∧
    (∀ id, Text.Shows ((Passage.definition id).text module)
      ("struct " ++ module.structures.name id ++ " \x7b\n")) ∧
    ∀ (passage : Passage) (id : Nat), (id ∈ passage.uses module →
        Text.Shows (passage.text module) (module.structures.name id)) ∧
      (passage ≠ .definition id → id ∉ passage.uses module → ∀ name,
        passage.text { module with structures := module.structures.renamed id name } =
          passage.text module) := by
  have sound := reached.sound
  refine ⟨sound.ordered.once, sound.ordered.before, sound.declared, ?_, ?_, ?_,
    Passage.shows_opening, ?_⟩
  · rw [run_renderHeader, joined_headerPassages]
  · intro front passage back split id used
    exact (inOrder_headerPassages sound).defined split used
  · intro own
    refine ⟨?_, fun front passage back split id used => ?_⟩
    · rw [run_renderModule, joined_sourcePassages own]
    · exact (inOrder_sourcePassages sound).defined split used
  · intro passage id
    exact ⟨Passage.shows_text, fun undefined unused name =>
      Passage.text_renamed name undefined unused⟩

/-- A variable whose name is no identifier. -/
def misnamed : Variable :=
  ⟨"1v", .composite (Catalogue.floatRecord (.native "float")), none, false⟩

/-- What is left of a module that held nothing when the variable is refused. -/
def behindMisnamed : NativeModule × Session × Workbench :=
  ((addVariable Scripted.Script.words.machine misnamed).run
    (empty "m", Catalogue.floatSession)).2

/-- The module behind a function that takes a record with others in it. -/
def withHeld : NativeModule :=
  ((addFunction Scripted.Script.words.machine
    ⟨"f", none, [⟨"held", .composite Catalogue.heldRecord⟩], ""⟩).run
    (behindMisnamed.1, behindMisnamed.2)).2.1

/-- A request that was refused and one for the function lead to the module. -/
theorem reached_withHeld : withHeld.Reached := by
  have refused : (empty "m").Call behindMisnamed.1 :=
    .addVariable Scripted.Script.words.machine misnamed Catalogue.floatSession (by decide)
  refine ⟨"m", (Relation.ReflTransGen.single refused).tail ?_⟩
  apply Call.behindFunction
  constructor
  · nofun
  · intro parameter member
    rw [List.mem_singleton.mp member]
    decide

/-- The record stands behind those in it, and the function behind them all. -/
theorem definition_before_use_withHeld : withHeld.structureOrder = [0, 1] ∧
    (∀ child ∈ withHeld.structures.children 1, child ∈ [0]) ∧
    withHeld.declaredIds = [1] ∧ 1 ∈ withHeld.structureOrder ∧
    (renderModule.run withHeld).1 = .ok (Passage.joined withHeld withHeld.sourcePassages) := by
  have facts : withHeld.structureOrder = [0, 1] ∧ withHeld.declaredIds = [1] ∧
      withHeld.headerName = none := by decide +kernel
  obtain ⟨order, declaredIds, own⟩ := facts
  obtain ⟨-, before, declared, -, -, source, -⟩ := definition_before_use reached_withHeld
  refine ⟨order, before [0] 1 [] order, declaredIds, declared 1 ?_, (source own).1⟩
  rw [declaredIds]
  exact List.mem_singleton_self 1

end NativeModule

end TypeBridge
