import TypeBridge.Proofs.Generated.Mentions
import TypeBridge.Proofs.Generated.Signatures

/-!
# What a rename reaches

When a structure gets another name, every definition and every text shows the new name in all places
that are for the structure, and the old name is in no place any more (`NativeModule.ShowsNames`).
The signatures of interfaces are not reached: each one has the names that structures had when the
interface was added (`NativeModule.SignedAt`). `rename_outcome` tells the two apart.
-/

namespace TypeBridge

/-! ## Structures in signatures -/

/-- The structures that a value of a type holds. -/
def TypeUse.heldIds (structures : Catalogue) : TypeUse → List Nat
  | .record id => structures.heldIds id
  | _ => []

/-- The structures that the result and the arguments of a function hold. -/
def Callable.heldIds (structures : Catalogue) (callable : Callable) : List Nat :=
  callable.result.heldIds structures ++
    callable.params.flatMap fun param => param.2.heldIds structures

/-- The names of the records in a shape. -/
def Shape.recordNames : Shape → List String
  | .struct shape => shape.recordNames
  | _ => []

/-- The names of the records in a signature. -/
def Signature.recordNames (signature : Signature) : List String :=
  signature.result.recordNames ++ signature.params.flatMap Shape.recordNames

/-- A type holds the same structures after more were added. -/
theorem TypeUse.heldIds_later {before after : Catalogue} (extension : before.Extends after)
    {use : TypeUse} (known : ∀ id ∈ use.ids, id < before.size) :
    use.heldIds after = use.heldIds before := by
  cases use with
  | record id => exact extension.heldIds (known id List.mem_cons_self)
  | _ => rfl

/-- A declaration holds the same structures after more were added. -/
theorem Callable.heldIds_later {before after : Catalogue} (extension : before.Extends after)
    {callable : Callable} (known : ∀ id ∈ callable.ids, id < before.size) :
    callable.heldIds after = callable.heldIds before := by
  have result := TypeUse.heldIds_later extension fun id member =>
    known id (List.mem_append_left _ member)
  have params : callable.params.flatMap (fun param => param.2.heldIds after) =
      callable.params.flatMap fun param => param.2.heldIds before :=
    List.flatMap_congr fun param inside => TypeUse.heldIds_later extension fun id member =>
      known id (List.mem_append_right _ (List.mem_flatMap.mpr ⟨param, inside, member⟩))
  rw [heldIds, result, params, heldIds]

namespace NativeModule

variable {module before after moment : NativeModule} {use : TypeUse} {shape : Shape}
  {entry : InterfaceEntry} {id : Nat} {crosses : String → ScalarKind → Prop}

/-- A shape has the present names of the structures that its type holds. -/
theorem Fits.recordNames {structures : Catalogue} (fits : Fits crosses structures use shape)
    (sound : structures.Sound) (known : ∀ id ∈ use.ids, id < structures.size) :
    shape.recordNames = (use.heldIds structures).map structures.name := by
  cases fits with
  | record defined =>
      exact sound.recordNames_callDefinition (known _ List.mem_cons_self) defined
  | _ => rfl

/-- A shape stays right while the structures that its type holds keep their names. -/
theorem Fits.later (fits : Fits crosses before.structures use shape) (sound : before.Sound)
    (continues : before.Continues after) (known : ∀ id ∈ use.ids, id < before.structures.size)
    (names : ∀ held ∈ use.heldIds before.structures,
      before.structures.name held = after.structures.name held) :
    Fits crosses after.structures use shape := by
  cases fits with
  | void => exact .void
  | scalar is => exact .scalar is
  | record defined =>
      exact .record (sound.structures.callDefinition_of_names continues.sound.structures
        continues.later.extension (known _ List.mem_cons_self) names defined)
  | pointer => exact .pointer

/-- The structures that an interface names are there. -/
theorem Sound.known_of_interface (sound : module.Sound) (member : entry ∈ module.interfaces) :
    ∀ id ∈ entry.callable.ids, id < module.structures.size := by
  intro id named
  refine sound.ordered.known id (sound.declared id ?_)
  exact List.mem_append_right _ (List.mem_flatMap.mpr ⟨entry, member, named⟩)

/-- The names in the shapes of parameters are those of the structures in them. -/
theorem forall₂_recordNames {structures : Catalogue} {params : List (String × TypeUse)}
    {shapes : List Shape} (sound : structures.Sound)
    (known : ∀ param ∈ params, ∀ id ∈ param.2.ids, id < structures.size)
    (fits : List.Forall₂ (fun param shape => Fits crosses structures param.2 shape) params shapes) :
    shapes.flatMap Shape.recordNames =
      (params.flatMap fun param => param.2.heldIds structures).map structures.name := by
  induction fits with
  | nil => rfl
  | cons first _ ih =>
      obtain ⟨here, others⟩ := List.forall_mem_cons.mp known
      rw [List.flatMap_cons, List.flatMap_cons, List.map_append, first.recordNames sound here,
        ih others]

/-- A signature that has the shapes of its types has the present names of all structures in them. -/
theorem recordNames_of_signed {structures : Catalogue} (signed : entry.Signed structures)
    (sound : structures.Sound) (known : ∀ id ∈ entry.callable.ids, id < structures.size) :
    entry.signature.recordNames =
      (entry.callable.heldIds structures).map structures.name := by
  rw [Signature.recordNames, Callable.heldIds, List.map_append,
    signed.result.recordNames sound fun id member => known id (List.mem_append_left _ member),
    forall₂_recordNames sound (fun param inside id member => known id (List.mem_append_right _
      (List.mem_flatMap.mpr ⟨param, inside, member⟩))) signed.params]

/-- Shapes that fit parameters fit them later if each of them does. -/
theorem forall₂_later {params : List (String × TypeUse)} {shapes : List Shape}
    (later : ∀ param ∈ params, ∀ shape, Fits crosses before.structures param.2 shape →
      Fits crosses after.structures param.2 shape)
    (fits : List.Forall₂ (fun param shape => Fits crosses before.structures param.2 shape)
      params shapes) :
    List.Forall₂ (fun param shape => Fits crosses after.structures param.2 shape)
      params shapes :=
  ((List.forall₂_and_left _ _).mpr ⟨later, fits⟩).imp fun _ _ both => both.1 _ both.2

/-- A signature that had the shapes of its types has them still exactly if the structures in them
are called as they were. -/
theorem signed_later_iff (signed : entry.Signed before.structures) (sound : before.Sound)
    (continues : before.Continues after)
    (known : ∀ id ∈ entry.callable.ids, id < before.structures.size) :
    entry.Signed after.structures ↔ ∀ held ∈ entry.callable.heldIds before.structures,
      before.structures.name held = after.structures.name held := by
  have extension := continues.later.extension
  constructor
  · intro signed'
    have names := recordNames_of_signed signed' continues.sound.structures fun id member =>
      Nat.lt_of_lt_of_le (known id member) extension.size
    rw [recordNames_of_signed signed sound.structures known,
      Callable.heldIds_later extension known] at names
    exact List.map_inj_left.mp names
  · intro names
    refine ⟨signed.result.later sound continues (fun id member =>
      known id (List.mem_append_left _ member)) fun held member =>
        names held (List.mem_append_left _ member), ?_⟩
    refine forall₂_later (fun param inside shape fits => fits.later sound continues
      (fun id member => known id (List.mem_append_right _ ?_))
      fun held member => names held (List.mem_append_right _ ?_)) signed.params
    · exact List.mem_flatMap.mpr ⟨param, inside, member⟩
    · exact List.mem_flatMap.mpr ⟨param, inside, member⟩

/-! ## Signatures as time goes by -/

/-- The signature of an interface of a module goes back to the moment when the interface was added:
it has the names that structures had then, and is right still exactly if they are called so now. -/
structure SignedAt (moment later : NativeModule) (entry : InterfaceEntry) : Prop where
  added : ∃ earlier : NativeModule, earlier.Reached ∧ earlier.Call moment ∧
    moment.interfaces = earlier.interfaces ++ [entry]
  calls : Calls moment later
  signed : entry.Signed moment.structures
  names : entry.signature.recordNames =
    (entry.callable.heldIds later.structures).map moment.structures.name
  current_iff : entry.Signed later.structures ↔
    ∀ held ∈ entry.callable.heldIds later.structures,
      moment.structures.name held = later.structures.name held

/-- What an interface was signed as when it was added is known at any later time. -/
theorem signedAt_of_added {earlier : NativeModule} (reached : earlier.Reached)
    (call : earlier.Call moment) (added : moment.interfaces = earlier.interfaces ++ [entry])
    (signed : entry.Signed moment.structures) (calls : Calls moment after) :
    SignedAt moment after entry := by
  have sound := (reached.calls (.single call)).sound
  have continues := calls.continues sound
  have known := sound.known_of_interface (added ▸ List.mem_append_right _ List.mem_cons_self)
  have held : entry.callable.heldIds after.structures = entry.callable.heldIds moment.structures :=
    Callable.heldIds_later continues.later.extension known
  refine ⟨⟨earlier, reached, call, added⟩, calls, signed, ?_, ?_⟩
  · rw [held]
    exact recordNames_of_signed signed sound.structures known
  · rw [held]
    exact signed_later_iff signed sound continues known

/-- An interface that came to a module on the way was signed on the way. -/
theorem Calls.exists_signedAt (calls : Calls before after) (reached : before.Reached)
    (member : entry ∈ after.interfaces) (new : entry ∉ before.interfaces) :
    ∃ moment, Calls before moment ∧ SignedAt moment after entry := by
  obtain ⟨earlier, moment, start, call, rest, added, signed⟩ :=
    calls.exists_addition reached.sound member new
  exact ⟨moment, start.tail call, signedAt_of_added (reached.calls start) call added signed rest⟩

/-- Every interface was signed when it was added. -/
theorem Reached.exists_signedAt (reached : before.Reached) (calls : Calls before after)
    (member : entry ∈ before.interfaces) :
    ∃ moment, Calls moment before ∧ SignedAt moment after entry := by
  obtain ⟨name, start⟩ := reached
  obtain ⟨earlier, moment, start, call, rest, added, signed⟩ :=
    start.exists_addition (sound_empty name) member nofun
  exact ⟨moment, rest, signedAt_of_added ⟨name, start⟩ call added signed (rest.trans calls)⟩

/-! ## Definitions and texts behind a rename -/

/-- Behind a change of names everything shows the names that structures have now, in the same places
as before. -/
structure ShowsNames (before after : NativeModule) (change : String → String) : Prop where
  native : ∀ id, id < before.structures.size →
    Mention.ids (before.structures.nativeMentions id) = id :: before.structures.children id ∧
    before.structures.nativeDefinition id =
      Mention.spelled before.structures.name (before.structures.nativeMentions id) ∧
    after.structures.nativeDefinition id =
      Mention.spelled after.structures.name (before.structures.nativeMentions id)
  arrayLib : ∀ id, id < before.structures.size →
    after.structures.arrayDefinition id =
      (before.structures.arrayDefinition id).mapNames change ∧
    (after.structures.arrayDefinition id).recordNames =
      (before.structures.heldIds id).map after.structures.name
  calls : ∀ id shape, id < before.structures.size →
    before.structures.callDefinition id = .ok shape →
    after.structures.callDefinition id = .ok (shape.mapNames change) ∧
    (shape.mapNames change).recordNames =
      (before.structures.heldIds id).map after.structures.name
  source : Mention.ids before.sourceMentions = before.sourceIds ∧
    (renderModule.run before).1 =
      .ok (Mention.spelled before.structures.name before.sourceMentions) ∧
    (renderModule.run after).1 =
      .ok (Mention.spelled after.structures.name before.sourceMentions)
  header : Mention.ids before.headerMentions = before.headerIds ∧
    (renderHeader.run before).1 =
      .ok (Mention.spelled before.structures.name before.headerMentions) ∧
    (renderHeader.run after).1 =
      .ok (Mention.spelled after.structures.name before.headerMentions)

/-- Whatever structures are called, it is shown everywhere. -/
theorem Sound.showsNames (sound : module.Sound) {structures : Catalogue}
    (later : module.structures.Later structures) {change : String → String}
    (names : ∀ id, id < module.structures.size →
      change (module.structures.name id) = structures.name id) :
    module.ShowsNames { module with structures := structures } change := by
  have sound' := later.sound sound.indexed sound.structures
  have extension := later.extension
  have heldNames : ∀ id, id < module.structures.size → ∀ held ∈ module.structures.heldIds id,
      change (module.structures.name held) = structures.name held := fun id known held member =>
    names held (Nat.lt_of_le_of_lt (Catalogue.le_of_mem_heldIds member) known)
  refine ⟨fun id known => ?_, fun id known => ?_, fun id shape known defined => ?_, ?_, ?_⟩
  · refine ⟨module.structures.ids_nativeMentions id, module.structures.nativeDefinition_eq id, ?_⟩
    rw [← extension.nativeMentions known]
    exact structures.nativeDefinition_eq id
  · refine ⟨sound.structures.arrayDefinition_later sound' extension known (heldNames id known), ?_⟩
    rw [← extension.heldIds known]
    exact sound'.recordNames_arrayDefinition (Nat.lt_of_lt_of_le known extension.size)
  · have defined' := sound.structures.callDefinition_later sound' extension known
      (heldNames id known) defined
    refine ⟨defined', ?_⟩
    rw [← extension.heldIds known]
    exact sound'.recordNames_callDefinition (Nat.lt_of_lt_of_le known extension.size) defined'
  · refine ⟨module.ids_sourceMentions, ?_, ?_⟩
    · rw [run_renderModule, sourceText_eq]
    · rw [run_renderModule, sourceText_eq, sourceMentions_restructure sound extension]
  · refine ⟨module.ids_headerMentions, ?_, ?_⟩
    · rw [run_renderHeader, headerText_eq]
    · rw [run_renderHeader, headerText_eq, headerMentions_restructure sound extension]

end NativeModule

/-! ## Renaming -/

namespace Catalogue

variable {catalogue : Catalogue} {id : Nat} {new : String}

/-- A structure that is not renamed keeps its name. -/
theorem name_renamed_of_ne {other : Nat} (different : other ≠ id) :
    (catalogue.renamed id new).name other = catalogue.name other := by
  simp [Catalogue.name, Catalogue.entry, renamed, modifyEntry, Ne.symm different]

/-- No structure is called by the name that one had before it got another. -/
theorem Named.name_renamed_ne (named : catalogue.Named) (known : id < catalogue.size)
    (different : catalogue.name id ≠ new) {other : Nat} (present : other < catalogue.size) :
    (catalogue.renamed id new).name other ≠ catalogue.name id := by
  by_cases same : other = id
  · rw [same, name_renamed known]
    exact Ne.symm different
  · rw [name_renamed_of_ne same]
    exact fun shared => same (named.eq_of_name_eq present known shared)

/-- A rename puts one name in place of another. -/
theorem Named.name_renamed_eq (named : catalogue.Named) (known : id < catalogue.size) {other : Nat}
    (present : other < catalogue.size) :
    (if catalogue.name other = catalogue.name id then new else catalogue.name other) =
      (catalogue.renamed id new).name other := by
  by_cases same : other = id
  · rw [same, if_pos rfl, name_renamed known]
  · rw [if_neg fun shared => same (named.eq_of_name_eq present known shared),
      name_renamed_of_ne same]

/-- A structure that got another name was renamed, and nothing else happened. -/
theorem renameId_eq {structures : Catalogue}
    (ran : (renameId id new).run catalogue = (.ok (), structures))
    (different : catalogue.name id ≠ new) : structures = catalogue.renamed id new := by
  rcases (renameId_ensures id new catalogue).of_ok ran with ⟨-, same, -⟩ | ⟨-, renamed⟩
  · exact absurd same different
  · exact renamed

end Catalogue

namespace NativeModule

variable {module : NativeModule} {id : Nat} {new : String} {structures : Catalogue}

/-- A rename takes effect everywhere but in signatures. No structure is called by the old name any
more, all definitions and texts show the present names, and interfaces are left as they are: one
whose signature was right before is right still exactly if nothing in it holds the structure. An
interface has the names that structures had when it was added, whether before the rename or behind
it. -/
theorem rename_outcome (reached : module.Reached) (known : id < module.structures.size)
    (different : module.structures.name id ≠ new)
    (ran : (Catalogue.renameId id new).run module.structures = (.ok (), structures)) :
    let after := { module with structures := structures }
    structures.name id = new ∧
    (∀ other, other ≠ id → structures.name other = module.structures.name other) ∧
    (∀ other, other < structures.size → structures.name other ≠ module.structures.name id) ∧
    module.ShowsNames after
      (fun name => if name = module.structures.name id then new else name) ∧
    after.interfaces = module.interfaces ∧
    (∀ entry ∈ module.interfaces, entry.Signed module.structures →
      (entry.Signed structures ↔ id ∉ entry.callable.heldIds module.structures)) ∧
    (∀ entry ∈ module.interfaces, ∃ moment, Calls moment module ∧ SignedAt moment after entry) ∧
    ∀ later, Calls after later → ∀ entry ∈ later.interfaces, entry ∉ module.interfaces →
      ∃ moment, Calls after moment ∧ SignedAt moment later entry := by
  intro after
  have sound := reached.sound
  have request : module.structures.Request ((Catalogue.renameId id new).run module.structures).2 :=
    .renameId id new known
  rw [ran] at request
  have call : module.Call after := .quiet (.structures request)
  have continues := call.continues sound
  obtain rfl := Catalogue.renameId_eq ran different
  have size : (module.structures.renamed id new).size = module.structures.size :=
    Catalogue.size_modifyEntry
  refine ⟨Catalogue.name_renamed known, fun _ => Catalogue.name_renamed_of_ne,
    fun other present => reached.named.name_renamed_ne known different (size ▸ present),
    sound.showsNames continues.later fun _ => reached.named.name_renamed_eq known, rfl,
    fun entry member signed => ?_, fun entry member => ?_, fun later calls entry member new => ?_⟩
  -- Only the one structure is called otherwise, so a signature is right still if it is not in it.
  · rw [signed_later_iff signed sound continues (sound.known_of_interface member)]
    constructor
    · intro keep holds
      exact different ((keep id holds).trans (Catalogue.name_renamed known))
    · intro holdsNot held member
      have other : held ≠ id := fun same => holdsNot (same ▸ member)
      exact (Catalogue.name_renamed_of_ne other).symm
  · exact reached.exists_signedAt (.single call) member
  · exact Calls.exists_signedAt calls (reached.calls (.single call)) member new

/-- An interface that takes a record of one float. -/
def taker : Interface :=
  ⟨"f", none, [⟨"v", .composite (Catalogue.floatRecord (.native "float"))⟩], ""⟩

/-- A module with that interface. -/
def taking : NativeModule :=
  ((addInterface Scripted.Script.words.machine taker).run (empty "m", Catalogue.floatSession)).2.1

/-- Adding the interface is a call. -/
theorem call_taking : (empty "m").Call taking := by
  rw [taking]
  exact .addInterface _ taker _ ⟨nofun, by decide⟩

/-- The request for the interface leads to the module. -/
theorem reached_taking : taking.Reached := ⟨"m", .single call_taking⟩

/-- In that module the structure can be renamed, and the signature has its present name. -/
theorem facts_taking : (0 < taking.structures.size ∧ taking.structures.name 0 ≠ "Point" ∧
    (taking.structures.entry 0).emitted = false ∧
    taking.structures.byName.lookup "Point" = none) ∧
    taking.interfaces.map (fun entry => (entry.callable.params, entry.signature.recordNames)) =
      [([("v", .record 0)], [taking.structures.name 0])] := by
  decide +kernel

/-- The record of the interface can be renamed. -/
theorem run_renameId_taking : (Catalogue.renameId 0 "Point").run taking.structures =
    (.ok (), taking.structures.renamed 0 "Point") := by
  obtain ⟨⟨-, different, unwritten, free⟩, -⟩ := facts_taking
  exact Catalogue.run_renameId_of_unwritten unwritten (by decide) different free

/-- The interface is signed as its record is now, under its present name. -/
theorem exists_taking : ∃ entry, taking.interfaces = [entry] ∧ entry.Signed taking.structures ∧
    0 ∈ entry.callable.heldIds taking.structures ∧
    entry.signature.recordNames = [taking.structures.name 0] := by
  obtain ⟨-, holds⟩ := facts_taking
  have declares := call_taking.declares (sound_empty "m")
  rcases declares.interfaces with none | ⟨entry, added, -, -, signed⟩
  · rw [none] at holds
    cases holds
  · rw [show (empty "m").interfaces = [] from rfl, List.nil_append] at added
    rw [added] at holds
    obtain ⟨params, names⟩ := Prod.mk.inj (List.cons.inj holds).1
    refine ⟨entry, added, signed, List.mem_append_right _ (List.mem_flatMap.mpr
      ⟨("v", .record 0), params ▸ List.mem_cons_self, ?_⟩), names⟩
    exact taking.structures.mem_heldIds_self 0

/-- Behind the rename its signature is not right any more. -/
theorem rename_outcome_taking : taking.Reached ∧ 0 < taking.structures.size ∧
    taking.structures.name 0 ≠ "Point" ∧
    (Catalogue.renameId 0 "Point").run taking.structures =
      (.ok (), taking.structures.renamed 0 "Point") ∧
    (taking.structures.renamed 0 "Point").name 0 = "Point" ∧
    ∃ entry ∈ taking.interfaces, entry.Signed taking.structures ∧
      ¬ entry.Signed (taking.structures.renamed 0 "Point") := by
  obtain ⟨⟨known, different, -, -⟩, -⟩ := facts_taking
  obtain ⟨entry, added, signed, holds, -⟩ := exists_taking
  have member : entry ∈ taking.interfaces := added ▸ List.mem_cons_self
  obtain ⟨itsName, -, -, -, -, signedIff, -⟩ :=
    rename_outcome reached_taking known different run_renameId_taking
  refine ⟨reached_taking, known, different, run_renameId_taking, itsName, entry, member, signed, ?_⟩
  rw [signedIff entry member signed]
  exact not_not.mpr holds

/-- A signature can show the name that a structure had before a rename. -/
theorem signature_stale_taking : ¬ ∀ (module : NativeModule) id new structures, module.Reached →
    id < module.structures.size → (module.structures.entry id).emitted = false →
    module.structures.name id ≠ new →
    (Catalogue.renameId id new).run module.structures = (.ok (), structures) →
    ∀ entry ∈ { module with structures := structures }.interfaces,
      module.structures.name id ∉ entry.signature.recordNames := by
  intro claim
  obtain ⟨⟨known, different, unwritten, -⟩, -⟩ := facts_taking
  obtain ⟨entry, added, -, -, names⟩ := exists_taking
  have reached := reached_taking
  have ran := run_renameId_taking
  have member : entry ∈ taking.interfaces := added ▸ List.mem_cons_self
  generalize taking = module at *
  refine claim module 0 "Point" _ reached known unwritten different ran entry member ?_
  rw [names]
  exact List.mem_cons_self

end NativeModule

end TypeBridge
