import TypeBridge.Proofs.Generated.Runs

/-!
# Texts that do not grow stale

A text names structures, so it holds for as long as these keep their names. `NativeModule.FixesName`
says that a name can never change again, and `KeepsSource` and `KeepsHeader` that a text does not.
Writing a header fixes all that it names. A source that includes a header holds no definitions, and
what it names is fixed only as far as it was written before; `texts_stay_iff` has the exact cases.
-/

namespace TypeBridge

/-- There is a name that no structure has and that does not stand in a text. -/
theorem Catalogue.exists_free (catalogue : Catalogue) (text : String) :
    ∃ name, isIdentifier name ∧ ¬ Text.Shows text name ∧ catalogue.byName.lookup name = none := by
  -- The name is longer than the text and all names together.
  let used := text ++ String.join (catalogue.byName.map (·.1))
  let name := String.ofList (List.replicate (used.length + 1) 'x')
  have long : ¬ Text.Shows used name := by
    intro shows
    have short := shows.length_le
    rw [String.length_ofList, List.length_replicate] at short
    omega
  refine ⟨name, ?_, ?_, ?_⟩
  · unfold isIdentifier
    rw [String.toList_ofList, List.replicate_succ]
    simp [isNameStart, isNameRest, List.all_replicate]
  · intro shows
    exact long (shows.before _)
  · rw [List.lookup_eq_none_iff]
    intro entry member
    rw [bne_iff_ne]
    intro same
    have inside := Text.shows_join (List.mem_map.mpr ⟨entry, member, rfl⟩ :
      entry.1 ∈ catalogue.byName.map (·.1))
    rw [← same] at inside
    exact long (inside.behind text)

namespace NativeModule

variable {module later : NativeModule} {id : Nat}

/-- Whatever is asked of a module from now on, each attempt to give a structure another name is
refused, whether it goes by the number of the structure or by a composite. -/
structure FixesName (module : NativeModule) (id : Nat) : Prop where
  byNumber : ∀ later, Calls module later → ∀ name, isIdentifier name →
    later.structures.name id ≠ name →
    (Catalogue.renameId id name).run later.structures =
      (.error (.alreadyRendered (later.structures.name id)), later.structures)
  byComposite : ∀ later, Calls module later → ∀ machine (composite : Composite) rest after,
    composite.isBuilt →
    (Catalogue.create machine composite).run (later.structures, rest) = (.ok id, after) →
    ∀ name, isIdentifier name → later.structures.name id ≠ name →
    (Catalogue.rename machine composite name).run (later.structures, rest) =
      (.error (.alreadyRendered (later.structures.name id)), after)

/-- As long as nothing is added, each later source is a given one. -/
def KeepsSource (module : NativeModule) (text : Except GenerateFault String) : Prop :=
  ∀ later, QuietCalls module later → (renderModule.run later).1 = text

/-- As long as nothing is added, each later header is a given one. -/
def KeepsHeader (module : NativeModule) (text : Except GenerateFault String) : Prop :=
  ∀ later, QuietCalls module later → (renderHeader.run later).1 = text

/-! ## Structures that were written -/

/-- Whatever is asked of a module, a listed structure that was written keeps its name. -/
theorem Calls.name_of_written (calls : Calls module later) (sound : module.Sound)
    (listed : id ∈ module.structureOrder) (written : (module.structures.entry id).emitted) :
    (later.structures.entry id).emitted ∧
      later.structures.name id = module.structures.name id := by
  have known := sound.ordered.known id listed
  exact (calls.continues sound).later.name_of_written known written

/-- The name of a listed structure that was written is fixed. -/
theorem fixesName_of_written (sound : module.Sound) (listed : id ∈ module.structureOrder)
    (written : (module.structures.entry id).emitted) : module.FixesName id where
  byNumber := by
    intro later calls name identifier different
    have still := (calls.name_of_written sound listed written).1
    exact Catalogue.run_renameId_of_written still identifier different
  byComposite := by
    intro later calls machine composite rest ⟨structures, rest'⟩ built created name identifier
      different
    have continues := calls.continues sound
    have still := (calls.name_of_written sound listed written).1
    have known := continues.sound.ordered.known id (continues.grows.subset listed)
    -- Entering the composite again leaves the structure as it is.
    obtain ⟨adds, -⟩ :=
      (Catalogue.create_adds machine rest built continues.sound.indexed).of_ok created
    have sameEntry : structures.entry id = later.structures.entry id := adds.entry id known
    have sameName : structures.name id = later.structures.name id :=
      congrArg RecordEntry.name sameEntry
    have stillWritten : (structures.entry id).emitted := by
      rw [sameEntry]
      exact still
    have refused := Catalogue.run_renameId_of_written stillWritten identifier
      (sameName ▸ different)
    rw [Catalogue.rename, Step.run_bind, created]
    dsimp only
    rw [Step.run_bind, Step.run_onFirst, refused, sameName]

/-- A source stays as it is if all structures that it names were written. -/
theorem keepsSource_of_written (sound : module.Sound)
    (written : ∀ id ∈ module.sourceIds, (module.structures.entry id).emitted) :
    module.KeepsSource (.ok module.sourceText) := by
  intro later calls
  have extension := (calls.calls.continues sound).later.extension
  have parts := sourceParts_congr sound extension fun id member =>
    (calls.calls.name_of_written sound (sound.listed_of_mem_sourceIds member)
      (written id member)).2
  rw [run_renderModule, sourceText, calls.alone, parts, sourceText]

/-- A header stays as it is if all structures that it names were written. -/
theorem keepsHeader_of_written (sound : module.Sound)
    (written : ∀ id ∈ module.headerIds, (module.structures.entry id).emitted) :
    module.KeepsHeader (.ok module.headerText) := by
  intro later calls
  have extension := (calls.calls.continues sound).later.extension
  have parts := headerParts_congr sound extension fun id member =>
    (calls.calls.name_of_written sound (sound.listed_of_mem_headerIds member)
      (written id member)).2
  rw [run_renderHeader, headerText, calls.alone, parts, headerText]

/-! ## Structures that are marked -/

/-- A structure the module lists is marked once the module is. -/
theorem written_of_marked (sound : module.Sound) (listed : id ∈ module.structureOrder) :
    (module.marked.structures.entry id).emitted :=
  Catalogue.emitted_markAll listed (sound.ordered.known id listed)

/-- A marked module fixes the name of every structure it lists. -/
theorem fixesName_marked (sound : module.Sound) (listed : id ∈ module.structureOrder) :
    module.marked.FixesName id := by
  have continues := sound.marked
  exact fixesName_of_written continues.sound listed (written_of_marked sound listed)

/-- A marked module keeps the text of its source. -/
theorem keepsSource_marked (sound : module.Sound) :
    module.marked.KeepsSource (.ok module.sourceText) := by
  have continues := sound.marked
  have same : module.marked.sourceParts = module.sourceParts :=
    sourceParts_congr sound continues.later.extension fun id _ => Catalogue.name_markAll _ _ id
  rw [sourceText, ← same]
  apply keepsSource_of_written continues.sound
  intro id member
  exact written_of_marked sound (continues.sound.listed_of_mem_sourceIds member)

/-- A marked module keeps the text of its header. -/
theorem keepsHeader_marked (sound : module.Sound) :
    module.marked.KeepsHeader (.ok module.headerText) := by
  have continues := sound.marked
  have same : module.marked.headerParts = module.headerParts :=
    headerParts_congr sound continues.later.extension fun id _ => Catalogue.name_markAll _ _ id
  rw [headerText, ← same]
  apply keepsHeader_of_written continues.sound
  intro id member
  exact written_of_marked sound (continues.sound.listed_of_mem_headerIds member)

/-! ## Sources with a header of their own -/

/-- A structure that a source names without its having been written can still be renamed: there is
a name for it that the source does not show. -/
theorem exists_renaming (member : id ∈ module.sourceIds)
    (unwritten : (module.structures.entry id).emitted = false) :
    ∃ name, isIdentifier name ∧ module.structures.name id ≠ name ∧
      ¬ Text.Shows module.sourceText name ∧
      (Catalogue.renameId id name).run module.structures =
        (.ok (), module.structures.renamed id name) := by
  obtain ⟨name, identifier, absent, free⟩ := module.structures.exists_free module.sourceText
  have different : module.structures.name id ≠ name := by
    rintro rfl
    exact absent (shows_sourceText member)
  exact ⟨name, identifier, different, absent,
    Catalogue.run_renameId_of_unwritten unwritten identifier different free⟩

/-- A structure of the source whose name is fixed has been emitted. -/
theorem written_of_fixesName (member : id ∈ module.sourceIds) (fixed : module.FixesName id) :
    (module.structures.entry id).emitted := by
  by_contra unwritten
  rw [Bool.not_eq_true] at unwritten
  obtain ⟨name, identifier, different, -, renamed⟩ := exists_renaming member unwritten
  have refused := fixed.byNumber module .refl name identifier different
  rw [renamed] at refused
  cases refused

/-- With a header of its own, a module that keeps its source has emitted every structure in it. -/
theorem written_of_keepsSource (sound : module.Sound) (separate : module.headerName.isSome)
    (keeps : module.KeepsSource (.ok module.sourceText)) (member : id ∈ module.sourceIds) :
    (module.structures.entry id).emitted := by
  by_contra unwritten
  rw [Bool.not_eq_true] at unwritten
  have known := sound.ordered.known id (sound.listed_of_mem_sourceIds member)
  obtain ⟨name, -, -, absent, renamed⟩ := exists_renaming member unwritten
  let after := { module with structures := module.structures.renamed id name }
  have called : QuietCall module after := by
    have request : module.structures.Request
        ((Catalogue.renameId id name).run module.structures).2 := .renameId id name known
    rw [renamed] at request
    exact .structures request
  have same := keeps after (.single called)
  rw [run_renderModule] at same
  -- With a header of its own the source names what its declarations name.
  have stillNamed : id ∈ after.sourceIds := by
    rw [sourceIds, if_pos separate] at member ⊢
    exact member
  have shows := shows_sourceText stillNamed
  rw [Except.ok.inj same] at shows
  have newName : after.structures.name id = name := Catalogue.name_renamed known
  rw [newName] at shows
  exact absent shows

/-- Behind a source, a structure that it names is fixed exactly if the source has its definition or
it was written before. -/
theorem fixesName_renderModule_iff (sound : module.Sound) (member : id ∈ module.sourceIds) :
    (renderModule.run module).2.FixesName id ↔
      module.headerName = none ∨ (module.structures.entry id).emitted := by
  have listed := sound.listed_of_mem_sourceIds member
  rw [run_renderModule]
  cases headerName : module.headerName with
  | none =>
      constructor
      · intro _
        exact Or.inl rfl
      · intro _
        exact fixesName_marked sound listed
  | some name =>
      constructor
      · intro fixed
        exact Or.inr (written_of_fixesName member fixed)
      · rintro (none | written)
        · cases none
        · exact fixesName_of_written sound listed written

/-- Behind a source, the next one is the same exactly if it has the definitions of all structures
that it names or these were written before. -/
theorem keepsSource_renderModule_iff (sound : module.Sound) :
    (renderModule.run module).2.KeepsSource (.ok module.sourceText) ↔
      module.headerName = none ∨
        ∀ id ∈ module.sourceIds, (module.structures.entry id).emitted := by
  rw [run_renderModule]
  cases headerName : module.headerName with
  | none =>
      constructor
      · intro _
        exact Or.inl rfl
      · intro _
        exact keepsSource_marked sound
  | some name =>
      have separate : module.headerName.isSome := by simp [headerName]
      constructor
      · intro keeps
        exact Or.inr fun id member => written_of_keepsSource sound separate keeps member
      · rintro (none | written)
        · cases none
        · exact keepsSource_of_written sound written

/-! ## Texts of reached modules -/

/-- All structures that the texts of a module name stand in them by name. Behind a header they keep
their names, and both texts stay as they are. Behind a source the same holds if it has the
structures itself; if it includes a header in place of them, a structure keeps its name exactly if
it was written before, and the source stays as it is exactly if this holds of all that it names. -/
theorem texts_stay_iff (reached : module.Reached) :
    (∀ id ∈ module.headerIds, Text.Shows module.headerText (module.structures.name id) ∧
      (renderHeader.run module).2.FixesName id) ∧
    (renderHeader.run module).2.KeepsHeader (.ok module.headerText) ∧
    (renderHeader.run module).2.KeepsSource (.ok module.sourceText) ∧
    (∀ id ∈ module.sourceIds, Text.Shows module.sourceText (module.structures.name id) ∧
      ((renderModule.run module).2.FixesName id ↔
        module.headerName = none ∨ (module.structures.entry id).emitted)) ∧
    ((renderModule.run module).2.KeepsSource (.ok module.sourceText) ↔
      module.headerName = none ∨
        ∀ id ∈ module.sourceIds, (module.structures.entry id).emitted) ∧
    (module.headerName = none →
      (renderModule.run module).2.KeepsHeader (.ok module.headerText)) ∧
    (renderHeader.run module).1 = .ok module.headerText ∧
    (renderModule.run module).1 = .ok module.sourceText := by
  have sound := reached.sound
  refine ⟨?_, ?_, ?_, ?_, keepsSource_renderModule_iff sound, ?_, ?_, ?_⟩
  · intro id member
    rw [run_renderHeader]
    exact ⟨shows_headerText member,
      fixesName_marked sound (sound.listed_of_mem_headerIds member)⟩
  · rw [run_renderHeader]
    exact keepsHeader_marked sound
  · rw [run_renderHeader]
    exact keepsSource_marked sound
  · intro id member
    exact ⟨shows_sourceText member, fixesName_renderModule_iff sound member⟩
  · intro none
    rw [run_renderModule, none]
    exact keepsHeader_marked sound
  · rw [run_renderHeader]
  · rw [run_renderModule]

/-- A function that takes a record of one float, in a module with a header of its own. -/
def headed : NativeModule :=
  ((addFunction Scripted.Script.words.machine
    ⟨"f", none, [⟨"v", .composite (Catalogue.floatRecord (.native "float"))⟩], ""⟩).run
    ((empty "m").setHeaderName "m.hpp", Catalogue.floatSession)).2.1

/-- The module with a header of its own is reached. -/
theorem reached_headed : headed.Reached := by
  refine ⟨"m", (Relation.ReflTransGen.single (.setHeaderName "m.hpp")).tail ?_⟩
  apply Call.behindFunction
  constructor
  · nofun
  · intro parameter member
    rw [List.mem_singleton.mp member]
    decide

/-- In the module with a header of its own a structure shows in both texts, is not emitted, and can
still be renamed after rendering. -/
theorem facts_headed : (0 ∈ headed.sourceIds ∧ 0 ∈ headed.headerIds) ∧ headed.headerName ≠ none ∧
    ¬ (headed.structures.entry 0).emitted ∧
    ((Catalogue.renameId 0 "Point").run
      (renderModule.run headed).2.structures).1.toOption = some () ∧
    (renderModule.run headed).2.structures.name 0 ≠ "Point" := by
  decide +kernel

/-- Its source names the record, which is fixed behind the header and not behind the source. -/
theorem texts_stay_iff_headed : headed.Reached ∧ 0 ∈ headed.sourceIds ∧
    (renderHeader.run headed).2.FixesName 0 ∧ ¬ (renderModule.run headed).2.FixesName 0 ∧
    ¬ (renderModule.run headed).2.KeepsSource (.ok headed.sourceText) := by
  obtain ⟨⟨named, defined⟩, separate, unwritten, -⟩ := facts_headed
  obtain ⟨fixed, -, -, fixedIff, keepsIff, -⟩ := texts_stay_iff reached_headed
  refine ⟨reached_headed, named, (fixed 0 defined).2, ?_, ?_⟩
  · rw [(fixedIff 0 named).2]
    exact not_or.mpr ⟨separate, unwritten⟩
  · rw [keepsIff]
    exact not_or.mpr ⟨separate, fun written => unwritten (written 0 named)⟩

/-- The record can be renamed behind the source, and the next source has its new name. -/
theorem source_unfixed_headed : ¬ ∀ module : NativeModule, module.Reached →
    (∀ id ∈ module.sourceIds, (renderModule.run module).2.FixesName id) ∧
      (renderModule.run module).2.KeepsSource (renderModule.run module).1 := by
  intro claim
  obtain ⟨⟨named, -⟩, -, -, accepted, different⟩ := facts_headed
  have refused := ((claim headed reached_headed).1 0 named).byNumber _ .refl "Point" (by decide)
    different
  rw [refused] at accepted
  cases accepted

end NativeModule

end TypeBridge
