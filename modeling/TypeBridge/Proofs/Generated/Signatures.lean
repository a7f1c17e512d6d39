import TypeBridge.Proofs.Generated.Additions
import TypeBridge.Proofs.Record.Names

/-!
# Signatures of interfaces

The signature of an interface is made from the facts about its types, and its declaration is written
with their native names. `addInterface_signs` says that the two go together wherever no registered
type is a pointer, and that they still do whatever is asked of the module later: structures may get
other names then, and change in nothing else.
-/

namespace TypeBridge

/-! ## Names at two times -/

namespace Catalogue

variable {before after : Catalogue} {id : Nat}

/-- The later name of the structure that a name belongs to. -/
def laterName (before after : Catalogue) (name : String) : String :=
  (before.byName.lookup name).elim name after.name

theorem Named.laterName (named : before.Named) (known : id < before.size) :
    before.laterName after (before.name id) = after.name id := by
  rw [Catalogue.laterName, (named.found _ id).mpr ⟨known, rfl⟩]
  rfl

theorem Later.named (later : before.Later after) (named : before.Named) : after.Named := by
  obtain ⟨log, changes⟩ := later []
  exact ChangesAll.named changes named

end Catalogue

namespace NativeModule

variable {module before after later : NativeModule} {machine : Machine} {interface : Interface}
  {session session' : Session} {bench bench' : Workbench} {type : Option MemberType}
  {use : TypeUse} {shape : Shape} {entry : InterfaceEntry} {unsized : List String}

/-- In a module that calls lead to, each structure is found by its name. -/
theorem Reached.named (reached : module.Reached) : module.structures.Named := by
  obtain ⟨name, calls⟩ := reached
  exact (calls.continues (sound_empty name)).later.named Catalogue.named_empty

theorem Reached.calls (reached : before.Reached) (calls : Calls before after) : after.Reached := by
  obtain ⟨name, earlier⟩ := reached
  exact ⟨name, earlier.trans calls⟩

/-- A shape for calls is the same later, but for the names that structures got. -/
theorem Calls.callDefinition (calls : Calls before after) (reached : before.Reached) {id : Nat}
    (known : id < before.structures.size) {shape : StructShape}
    (defined : before.structures.callDefinition id = .ok shape) :
    after.structures.callDefinition id =
      .ok (shape.mapNames (before.structures.laterName after.structures)) := by
  have continues := calls.continues reached.sound
  refine reached.sound.structures.callDefinition_later continues.sound.structures
    continues.later.extension known (fun other held => ?_) defined
  exact reached.named.laterName (Nat.lt_of_le_of_lt (Catalogue.le_of_mem_heldIds held) known)

/-! ## What signs a type -/

/-- A type is written under a native name of what it is, and in calls from outside it is what native
code takes this name for. -/
structure Signs (registry : Registry) (structures : Catalogue) (type : Option MemberType)
    (use : TypeUse) (shape : Shape) : Prop where
  written : Uses registry.Spells structures type use
  fits : Fits registry.Crosses structures use shape

/-- What two passes make of a type goes together. -/
theorem Uses.signs {registry : Registry} {structures : Catalogue}
    (uses : Uses registry.Spells structures type use)
    (shapes : Shapes registry structures type shape) : Signs registry structures type use shape :=
  ⟨uses, uses.fits shapes fun _ _ _ _ spells known is => spells.crosses known is⟩

/-- Nothing but no type at all is signed as nothing. -/
theorem Signs.void_iff {registry : Registry} {structures : Catalogue}
    (signs : Signs registry structures type use shape) : shape = .void ↔ type = none := by
  obtain ⟨written, fits⟩ := signs
  cases written <;> cases fits <;> simp

/-! ## Texts with interfaces -/

/-- An interface stands in the source with its definition. -/
theorem shows_interface (member : entry ∈ module.interfaces) :
    Text.Shows module.sourceText (module.definitionText entry.callable) := by
  have here := shows_joinEach "\n"
    (("\n" ++ ·) ∘ fun entry : InterfaceEntry => module.definitionText entry.callable) member
    ((Text.Shows.refl _).behind "\n")
  unfold sourceText sourceParts Source.moduleText
  dsimp only
  rw [List.map_map]
  exact (here.behind _).before _

/-- An interface stands in the header with its head. -/
theorem shows_interfaceHead (member : entry ∈ module.interfaces) :
    Text.Shows module.headerText (module.signatureText entry.callable) := by
  have here := shows_joinEach ";\n" (fun entry => module.signatureText entry.callable) member
    (.refl _)
  unfold headerText headerParts Source.headerText
  dsimp only
  exact (here.behind _).before _

/-! ## Interfaces that are added -/

theorem exists_of_forall₂ {α β : Type} {both : α → β → Prop} {items : List α} {others : List β}
    (all : List.Forall₂ both items others) {i : Nat} {item : α} (here : items[i]? = some item) :
    ∃ other, others[i]? = some other ∧ both item other := by
  obtain ⟨inside, rfl⟩ := List.getElem?_eq_some_iff.mp here
  have inside' : i < others.length := all.length_eq ▸ inside
  exact ⟨others[i], List.getElem?_eq_getElem inside', all.get inside inside'⟩

/-- What later modules show of an interface: its signature as it was made, and its declaration. The
structures in it are what they were but for their names. -/
structure Keeps (before later : NativeModule) (entry : InterfaceEntry) : Prop where
  signature : later.signature? entry.callable.name = some entry.signature
  source : Text.Shows later.sourceText (later.definitionText entry.callable)
  header : Text.Shows later.headerText (later.signatureText entry.callable)
  structures : ∃ change : String → String, ∀ id, id < before.structures.size →
    change (before.structures.name id) = later.structures.name id ∧
    ∀ shape, before.structures.callDefinition id = .ok shape →
      later.structures.callDefinition id = .ok (shape.mapNames change)

/-- An interface that is found by its name is kept. -/
theorem Calls.keeps (calls : Calls before later) (reached : before.Reached)
    (found : before.signature? entry.callable.name = some entry.signature)
    (member : entry ∈ before.interfaces) : before.Keeps later entry where
  signature := calls.signature?_eq reached.sound found
  source := shows_interface ((calls.interfaces reached.sound).subset member)
  header := shows_interfaceHead ((calls.interfaces reached.sound).subset member)
  structures := ⟨before.structures.laterName later.structures, fun _ known =>
    ⟨reached.named.laterName known, fun _ defined => calls.callDefinition reached known defined⟩⟩

/-- The signature of an interface goes together with its declaration, where no registered type is a
pointer: result and parameters are each signed as the very type that is written for them, the
parameters one by one and in order, and whatever is asked of the module later, both are kept. -/
theorem addInterface_signs (reached : module.Reached) (sessions : Session.Reached unsized session)
    (plain : session.registry.Plain) (built : typesBuilt interface.returnType interface.parameters)
    (ran : (addInterface machine interface).run (module, session, bench) =
      (.ok (), after, session', bench')) :
    ∃ entry, after.interfaces = module.interfaces ++ [entry] ∧
      entry.callable.name = interface.name ∧
      Signs session'.registry after.structures interface.returnType entry.callable.result
        entry.signature.result ∧
      (entry.signature.result = .void ↔ interface.returnType = none) ∧
      entry.callable.params.length = interface.parameters.length ∧
      entry.signature.params.length = interface.parameters.length ∧
      (∀ (i : Nat) (parameter : Parameter), interface.parameters[i]? = some parameter → ∃ use shape,
        entry.callable.params[i]? = some (parameter.name, use) ∧
        entry.signature.params[i]? = some shape ∧ shape ≠ .void ∧
        Signs session'.registry after.structures (some parameter.type) use shape) ∧
      ∀ later, Calls after later → after.Keeps later entry := by
  have call : module.Call ((addInterface machine interface).run (module, session, bench)).2.1 :=
    .addInterface machine interface (session, bench) built
  rw [ran] at call
  have behind : after.Reached := reached.calls (.single call)
  obtain ⟨advances, free, middle, entry, lists, same, made⟩ :=
    (addInterface_made reached.sound interface built).of_ok ran
  dsimp only at same made
  have added : after.interfaces = module.interfaces ++ [entry] := by
    rw [same, withInterface, lists.spares.interfaces]
  have named : entry.callable.name = interface.name := made.name
  -- Native names were found under the condition that the session met before the first pass.
  have spells : ∀ name text, session.Spells session' name text →
      session'.registry.Spells name text := fun _ _ spells => spells sessions.steady plain
  have uses : ∀ type use, Uses (session.Spells session') after.structures type use →
      Uses session'.registry.Spells after.structures type use :=
    fun _ _ uses => uses.mono (fun _ _ known => known) spells
  have result := (uses _ _ made.result.2).signs made.result.1
  have found : after.signature? entry.callable.name = some entry.signature :=
    signature?_of_added (fun _ member => reached.name_mem_defined member) (named ▸ free) added
  refine ⟨entry, added, named, result, result.void_iff, made.params.length_eq.symm,
    made.shapes.length_eq.symm, fun i parameter here => ?_, fun later calls => ?_⟩
  · obtain ⟨⟨name, use⟩, itsUse, rfl, written⟩ := exists_of_forall₂ made.params here
    obtain ⟨shape, itsShape, shapes⟩ := exists_of_forall₂ made.shapes here
    have signs := (uses _ _ written).signs shapes
    exact ⟨use, shape, itsUse, itsShape, mt signs.void_iff.mp (Option.some_ne_none _), signs⟩
  · exact Calls.keeps calls behind found (added ▸ List.mem_append_right _ List.mem_cons_self)

/-- An interface with a record, a pointer to it and scalars of each system. -/
def launch : Interface :=
  let record := Catalogue.floatRecord (.ffi "c_float")
  ⟨"launch", some (.scalar (.arrayLib "float32")),
    [⟨"start", .composite record⟩, ⟨"path", .pointer record⟩, ⟨"count", .scalar (.ffi "c_uint16")⟩,
      ⟨"handle", .scalar (.native "Vertex **")⟩], "return start.x;"⟩

theorem built_launch : typesBuilt launch.returnType launch.parameters := by
  constructor
  · rintro type ⟨⟩
    decide
  · decide

/-- Its record is passed by value as the structure that its declaration names is in calls. -/
theorem addInterface_signs_launch :
    let state := (empty "m", Session.wordSession, Workbench.fresh "/tmp" .empty)
    (empty "m").Reached ∧ Session.Reached [] Session.wordSession ∧
    Session.wordSession.registry.Plain ∧ typesBuilt launch.returnType launch.parameters ∧
    ∃ after entry, (addInterface (Session.printing "") launch).run state = (.ok (), after) ∧
      after.1.interfaces = [entry] ∧ (∃ kind, entry.signature.result = .scalar kind) ∧
      ∃ id shape, entry.callable.params[0]? = some ("start", .record id) ∧
        entry.signature.params[0]? = some (.struct shape) ∧
        after.1.structures.callDefinition id = .ok shape := by
  intro state
  have reached : (empty "m").Reached := ⟨"m", .refl⟩
  have answers : ((addInterface (Session.printing "") launch).run state).1 = .ok () := by
    decide +kernel
  obtain ⟨⟨after, session, bench⟩, ran⟩ := Step.exists_of_fst answers
  obtain ⟨entry, added, -, result, -, -, -, params, -⟩ := addInterface_signs reached
    Session.reached_wordSession Session.plain_wordSession built_launch ran
  obtain ⟨use, shape, itsUse, itsShape, -, signs⟩ := params 0 _ rfl
  refine ⟨reached, Session.reached_wordSession, Session.plain_wordSession, built_launch, _, entry,
    ran, added, ?_, ?_⟩
  · generalize entry.callable.result = use, entry.signature.result = shape at result ⊢
    obtain ⟨written, fits⟩ := result
    cases written with
    | scalar =>
        cases fits with
        | scalar => exact ⟨_, rfl⟩
  · obtain ⟨written, fits⟩ := signs
    cases written with
    | record =>
        cases fits with
        | record defined => exact ⟨_, _, itsUse, itsShape, defined⟩

end NativeModule

end TypeBridge
