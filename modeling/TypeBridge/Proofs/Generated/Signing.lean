import TypeBridge.Proofs.Generated.Exporting
import TypeBridge.Proofs.Record.Mentions
import TypeBridge.Proofs.Types.Advancing

/-!
# Declarations and signatures

The types of an interface are resolved twice, for its signature and then for its declaration.
`Shapes` says what the first pass makes of a type and `Uses` what the second one makes of it. Both
find the same structures, and the same is known of a scalar each time, so that a signature fits the
declaration that it belongs to (`Uses.fits`). `addInterface_made` says what each pass has made of an
interface that is added.
-/

namespace TypeBridge

/-! ## Sessions in which composites are entered -/

namespace Catalogue

/-- Looking a scalar up only adds to the session. -/
theorem resolveScalar_advances (machine : Machine) (name : TypeName) :
    (resolveScalar machine name).Advances (·.2.1) :=
  .bind (Step.Advances.onSecond (.widen _ (Session.resolve_advances machine name))) fun _ =>
    .bind .get fun _ => .pure _

mutual

/-- Entering a composite makes native types known at most. -/
theorem create_advances (machine : Machine) : (composite : Composite) →
    (create machine composite).Advances (·.2.1)
  | .mk fields packing => by
    rw [create]
    refine .bind .get fun (catalogue, _) => ?_
    dsimp only
    cases catalogue.lookup (.mk fields packing) with
    | some id => exact .pure _
    | none =>
        by_cases filled : fields.isEmpty
        · rw [if_pos filled]
          exact .bind (.fail _) fun _ => .bind (.ofExcept _) fun _ =>
            .bind (createFields_advances machine fields) fun _ => Step.Advances.of_same fun _ => rfl
        · rw [if_neg filled]
          exact .bind (.ofExcept _) fun _ =>
            .bind (createFields_advances machine fields) fun _ => Step.Advances.of_same fun _ => rfl

/-- A request for fields only adds to the session. -/
theorem createFields_advances (machine : Machine) : (fields : List Field) →
    (createFields machine fields).Advances (·.2.1)
  | [] => by
    rw [createFields]
    exact .pure _
  | .mk name type count :: rest => by
    rw [createFields]
    exact .bind (.ofExcept _) fun _ => .bind (createMember_advances machine type) fun _ =>
      .bind (createFields_advances machine rest) fun _ => .pure _

/-- A request for the type of a field only adds to the session. -/
theorem createMember_advances (machine : Machine) : (type : MemberType) →
    (createMember machine type).Advances (·.2.1)
  | .scalar name => by
    rw [createMember]
    exact .bind (resolveScalar_advances machine name) fun _ => .pure _
  | .composite child => by
    rw [createMember]
    exact .bind (create_advances machine child) fun _ => .bind .get fun _ => .pure _
  | .pointer child => by
    rw [createMember]
    exact .bind (create_advances machine child) fun _ => .bind .get fun _ => .pure _

end

end Catalogue

/-! ## What the two passes make of a type -/

/-- A native name tells what is known of a type. -/
def Registry.Spells (registry : Registry) (name : TypeName) (text : String) : Prop :=
  ∃ info, registry.facts name = some info ∧ registry.meaning text = some info

/-- The type of a native name crosses the boundary to native code as a kind: as a pointer if it is
one, and otherwise as the kind of what is registered for it. -/
structure Registry.Crosses (registry : Registry) (text : String) (kind : ScalarKind) : Prop where
  pointer : (TypeName.native text).isPointer = true → kind = .pointer
  registered : (TypeName.native text).isPointer = false → ∃ info,
    registry.info? (.native text) = some info ∧ ScalarKind.ofInfo info = .ok kind

/-- A native name that tells what is known of a type crosses the boundary as the type does. -/
theorem Registry.Spells.crosses {registry : Registry} {name : TypeName} {text : String}
    {info : TypeInfo} {kind : ScalarKind} (spells : registry.Spells name text)
    (known : registry.facts name = some info) (is : ScalarKind.ofInfo info = .ok kind) :
    registry.Crosses text kind := by
  obtain ⟨found, known', means⟩ := spells
  obtain rfl : found = info := Option.some.inj (known'.symm.trans known)
  rw [Registry.meaning_eq, Registry.facts] at means
  constructor
  · intro pointer
    rw [if_pos pointer] at means
    cases means
    exact (Except.ok.inj is).symm
  · intro single
    rw [if_neg (by simp [single])] at means
    exact ⟨_, means, is⟩

/-- Between two sessions a native name was found for a type, if no registered type was a pointer. -/
def Session.Spells (before after : Session) (name : TypeName) (text : String) : Prop :=
  before.Steady → before.registry.Plain → after.registry.Spells name text

/-- What is spelled between two sessions is spelled between any that enclose them. -/
theorem Session.Spells.mono {before before' after after' : Session} {name : TypeName}
    {text : String} (start : before'.Advances before) (rest : after.Advances after')
    (spells : before.Spells after name text) : before'.Spells after' name text := by
  intro steady plain
  obtain ⟨info, known, means⟩ := spells (start.steady steady) (start.plain plain)
  exact ⟨info, rest.grows.facts known, rest.grows.facts means⟩

namespace NativeModule

variable {module before middle after : NativeModule} {machine : Machine} {interface : Interface}
  {session : Session} {bench : Workbench} {type : Option MemberType} {use : TypeUse} {shape : Shape}

/-- The shape of a type in calls from outside. -/
inductive Shapes (registry : Registry) (structures : Catalogue) :
    Option MemberType → Shape → Prop where
  | void : Shapes registry structures none .void
  | scalar {name : TypeName} {info : TypeInfo} {kind : ScalarKind}
      (known : registry.facts name = some info) (is : ScalarKind.ofInfo info = .ok kind) :
      Shapes registry structures (some (.scalar name)) (.scalar kind)
  | record {composite : Composite} {id : Nat} {shape : StructShape}
      (entered : structures.lookup composite = some id)
      (defined : structures.callDefinition id = .ok shape) :
      Shapes registry structures (some (.composite composite)) (.struct shape)
  | pointer {composite : Composite} :
      Shapes registry structures (some (.pointer composite)) (.scalar .pointer)

/-- How a type is written, with given native names for scalars. -/
inductive Uses (spells : TypeName → String → Prop) (structures : Catalogue) :
    Option MemberType → TypeUse → Prop where
  | void : Uses spells structures none .void
  | scalar {name : TypeName} {text : String} (spelled : spells name text) :
      Uses spells structures (some (.scalar name)) (.native text)
  | record {composite : Composite} {id : Nat} (entered : structures.lookup composite = some id) :
      Uses spells structures (some (.composite composite)) (.record id)
  | pointer {composite : Composite} {id : Nat} (entered : structures.lookup composite = some id) :
      Uses spells structures (some (.pointer composite)) (.pointer id)

/-- What a type is in calls from outside fits how it is written, with given kinds for native
names. -/
inductive Fits (crosses : String → ScalarKind → Prop) (structures : Catalogue) :
    TypeUse → Shape → Prop where
  | void : Fits crosses structures .void .void
  | scalar {text : String} {kind : ScalarKind} (is : crosses text kind) :
      Fits crosses structures (.native text) (.scalar kind)
  | record {id : Nat} {shape : StructShape} (defined : structures.callDefinition id = .ok shape) :
      Fits crosses structures (.record id) (.struct shape)
  | pointer {id : Nat} : Fits crosses structures (.pointer id) (.scalar .pointer)

/-- What the two passes make of a type fits together. -/
theorem Uses.fits {spells : TypeName → String → Prop} {crosses : String → ScalarKind → Prop}
    {structures : Catalogue} {registry : Registry} (uses : Uses spells structures type use)
    (shapes : Shapes registry structures type shape)
    (scalars : ∀ name text info kind, spells name text → registry.facts name = some info →
      ScalarKind.ofInfo info = .ok kind → crosses text kind) :
    Fits crosses structures use shape := by
  cases uses with
  | void =>
      cases shapes
      exact .void
  | scalar spelled =>
      cases shapes with
      | scalar known is => exact .scalar (scalars _ _ _ _ spelled known is)
  | record entered =>
      cases shapes with
      | record entered' defined =>
          cases entered.symm.trans entered'
          exact .record defined
  | pointer =>
      cases shapes
      exact .pointer

/-- Structures that are added change nothing about how a type is written. -/
theorem Uses.mono {spells spells' : TypeName → String → Prop} {structures structures' : Catalogue}
    (uses : Uses spells structures type use) (remembers : structures.Remembers structures')
    (scalars : ∀ name text, spells name text → spells' name text) :
    Uses spells' structures' type use := by
  cases uses with
  | void => exact .void
  | scalar spelled => exact .scalar (scalars _ _ spelled)
  | record entered => exact .record (remembers _ _ entered)
  | pointer entered => exact .pointer (remembers _ _ entered)

/-- Structures that are added change nothing about the shape of one that was there. -/
theorem Lists.callDefinition (lists : before.Lists after) (sound : before.Sound) {id : Nat}
    (known : id < before.structures.size) {shape : StructShape}
    (defined : before.structures.callDefinition id = .ok shape) :
    after.structures.callDefinition id = .ok shape := by
  have later := lists.adds.later
  refine sound.structures.callDefinition_of_names (later.sound sound.indexed sound.structures)
    later.extension known (fun other held => ?_) defined
  have present := Nat.lt_of_le_of_lt (Catalogue.le_of_mem_heldIds held) known
  exact (congrArg RecordEntry.name (lists.adds.entry other present)).symm

/-- A shape of a type is one later, too. -/
theorem Shapes.mono {registry registry' : Registry}
    (shapes : Shapes registry before.structures type shape) (lists : before.Lists after)
    (sound : before.Sound) (grows : registry.Grows registry') :
    Shapes registry' after.structures type shape := by
  cases shapes with
  | void => exact .void
  | scalar known is => exact .scalar (grows.facts known) is
  | record entered defined =>
      exact .record (lists.adds.remembers _ _ entered)
        (lists.callDefinition sound (sound.indexed.byType _ _ entered) defined)
  | pointer => exact .pointer

/-! ## The two passes -/

/-- A scalar of a declaration is resolved in the session. -/
theorem resolve_ensures (machine : Machine) (name : TypeName) (module : NativeModule)
    (session : Session) (bench : Workbench) :
    (Step.onSecond ((Session.resolve machine name).widen GenerateFault.type) :
        ModuleStep ResolvedScalar).Ensures (module, session, bench)
      (fun scalar after => after.1 = module ∧
        (Session.resolve machine name).run (session, bench) = (.ok scalar, after.2))
      (fun _ _ => True) :=
  Step.Ensures.onSecond (Step.Ensures.widen ((Step.Ensures.ran _ _).mono
    (fun _ _ ran => ⟨rfl, ran⟩) fun _ _ _ => trivial))

/-- A composite of a declaration is entered in the session. -/
theorem onCatalogue_create_advances (machine : Machine) (composite : Composite) :
    (onCatalogue (Catalogue.create machine composite)).Advances (·.2.1) :=
  fun state => Catalogue.create_advances machine composite (state.1.structures, state.2)

/-- The first pass finds the shape of a type. -/
theorem callShape_shapes (sound : module.Sound) (owner member : String)
    (built : ∀ member, type = some member → member.isBuilt) :
    (callShape machine owner member type).Ensures (module, session, bench)
      (fun shape after => session.Advances after.2.1 ∧
        Shapes after.2.1.registry after.1.structures type shape)
      (fun _ _ => True) := by
  cases type with
  | none =>
      rw [callShape]
      exact Step.Ensures.pure ⟨.refl _, .void⟩
  | some type =>
      cases type with
      | scalar name =>
          rw [callShape]
          refine Step.Ensures.bind _ (resolve_ensures machine name module session bench) ?_
          rintro scalar ⟨_, session', bench'⟩ ⟨rfl, ran⟩
          refine Step.Ensures.bind_ofExcept (fun kind is => ?_) fun _ _ => trivial
          exact Step.Ensures.pure ⟨(Session.resolve_advances machine name).of_run ran,
            .scalar (Session.facts_of_resolve ran) (Catalogue.scalarKindOf_eq_ok.mp is)⟩
      | composite child =>
          rw [callShape]
          refine Step.Ensures.bind _ ((onCatalogue_create_ensures sound (built _ rfl)).both_answered
            ((onCatalogue_create_advances machine child).ensures _)) ?_
          rintro id after ⟨⟨-, -, entered⟩, advances⟩
          apply Step.Ensures.bind_get
          refine Step.Ensures.bind_ofExcept (fun shape defined => ?_) fun _ _ => trivial
          exact Step.Ensures.pure ⟨advances, .record entered defined⟩
      | pointer child =>
          rw [callShape]
          exact Step.Ensures.pure ⟨.refl _, .pointer⟩

/-- Each parameter is examined to the shape of its type. -/
theorem callShapes_shapes (owner : String) (parameters : List Parameter)
    (built : ∀ parameter ∈ parameters, parameter.type.isBuilt) (module : NativeModule)
    (session : Session) (bench : Workbench) (sound : module.Sound) :
    (callShapes machine owner parameters).Ensures (module, session, bench)
      (fun shapes after => session.Advances after.2.1 ∧ List.Forall₂ (fun parameter shape =>
        Shapes after.2.1.registry after.1.structures (some parameter.type) shape)
          parameters shapes)
      (fun _ _ => True) := by
  induction parameters generalizing module session bench with
  | nil =>
      rw [callShapes]
      exact Step.Ensures.pure ⟨.refl _, .nil⟩
  | cons parameter others ih =>
      obtain ⟨first, later⟩ := List.forall_mem_cons.mp built
      have own : ∀ member, some parameter.type = some member → member.isBuilt :=
        fun _ same => Option.some.inj same ▸ first
      rw [callShapes]
      refine Step.Ensures.bind _ ((callShape_ensures sound owner parameter.name own).both_answered
        (callShape_shapes sound owner parameter.name own)) ?_
      rintro shape ⟨middle, session', bench'⟩ ⟨unlisted, advances, shapes⟩
      refine Step.Ensures.bind _ ((callShapes_ensures owner others later middle _
        unlisted.1.1).both_answered (ih later middle session' bench' unlisted.1.1)) ?_
      rintro rest after ⟨unlisted', advances', others⟩
      refine Step.Ensures.pure ⟨advances.trans advances', .cons ?_ others⟩
      exact shapes.mono unlisted'.1.2 unlisted.1.1 advances'.grows

/-- A composite of a declaration is listed under the structure that it was entered as. -/
theorem addStructure_uses (sound : module.Sound) {composite : Composite}
    (built : composite.isBuilt) :
    (addStructure machine composite).Ensures (module, session, bench)
      (fun id after => session.Advances after.2.1 ∧
        after.1.structures.lookup composite = some id)
      (fun _ _ => True) := by
  have advances : (addStructure machine composite).Advances (·.2.1) :=
    .bind (onCatalogue_create_advances machine composite) fun _ =>
      .bind (Step.Advances.of_same fun _ => rfl) fun _ => .pure _
  exact ((addStructure_ensures sound built).both (advances.ensures _)).mono
    (fun _ _ both => ⟨both.2, both.1.2.1⟩) fun _ _ _ => trivial

/-- The second pass finds how a type is written. -/
theorem typeUse_uses (sound : module.Sound)
    (built : ∀ member, type = some member → member.isBuilt) :
    (typeUse machine type).Ensures (module, session, bench)
      (fun use after => session.Advances after.2.1 ∧
        Uses (session.Spells after.2.1) after.1.structures type use)
      (fun _ _ => True) := by
  cases type with
  | none =>
      rw [typeUse]
      exact Step.Ensures.pure ⟨.refl _, .void⟩
  | some type =>
      cases type with
      | scalar name =>
          rw [typeUse]
          refine Step.Ensures.bind _ (resolve_ensures machine name module session bench) ?_
          rintro scalar ⟨_, session', bench'⟩ ⟨rfl, ran⟩
          refine Step.Ensures.pure ⟨(Session.resolve_advances machine name).of_run ran,
            .scalar fun steady plain => ?_⟩
          exact ⟨_, Session.facts_of_resolve ran, Session.meaning_of_resolve steady plain ran⟩
      | composite child =>
          rw [typeUse]
          refine Step.Ensures.bind _ (addStructure_uses sound (built _ rfl)) ?_
          rintro id after ⟨advances, entered⟩
          exact Step.Ensures.pure ⟨advances, .record entered⟩
      | pointer child =>
          rw [typeUse]
          refine Step.Ensures.bind _ (addStructure_uses sound (built _ rfl)) ?_
          rintro id after ⟨advances, entered⟩
          exact Step.Ensures.pure ⟨advances, .pointer entered⟩

/-- Each parameter is resolved to a use of its type. -/
theorem parameterUses_uses (parameters : List Parameter)
    (built : ∀ parameter ∈ parameters, parameter.type.isBuilt) (module : NativeModule)
    (session : Session) (bench : Workbench) (sound : module.Sound) :
    (parameterUses machine parameters).Ensures (module, session, bench)
      (fun uses after => session.Advances after.2.1 ∧ List.Forall₂ (fun parameter param =>
        param.1 = parameter.name ∧ Uses (session.Spells after.2.1) after.1.structures
          (some parameter.type) param.2) parameters uses)
      (fun _ _ => True) := by
  induction parameters generalizing module session bench with
  | nil =>
      rw [parameterUses]
      exact Step.Ensures.pure ⟨.refl _, .nil⟩
  | cons parameter others ih =>
      obtain ⟨first, later⟩ := List.forall_mem_cons.mp built
      have own : ∀ member, some parameter.type = some member → member.isBuilt :=
        fun _ same => Option.some.inj same ▸ first
      rw [parameterUses]
      refine Step.Ensures.bind _ ((typeUse_ensures sound _ own).both_answered
        (typeUse_uses sound own)) ?_
      rintro use ⟨middle, session', bench'⟩ ⟨⟨listing, -⟩, advances, uses⟩
      refine Step.Ensures.bind _ ((parameterUses_ensures others later middle _
        listing.1).both_answered (ih later middle session' bench' listing.1)) ?_
      rintro rest after ⟨⟨listing', -⟩, advances', others⟩
      refine Step.Ensures.pure ⟨advances.trans advances', .cons ⟨rfl, ?_⟩ ?_⟩
      · exact uses.mono listing'.2.adds.remembers fun _ _ => .mono (.refl _) advances'
      · exact others.imp fun _ _ both =>
          ⟨both.1, both.2.mono (fun _ _ known => known) fun _ _ => .mono advances (.refl _)⟩

/-! ## Interfaces -/

/-- What the two passes have made of an interface: shapes for its signature, and types to be
written. -/
structure Made (registry : Registry) (spells : TypeName → String → Prop) (structures : Catalogue)
    (interface : Interface) (entry : InterfaceEntry) : Prop where
  name : entry.callable.name = interface.name
  result : Shapes registry structures interface.returnType entry.signature.result ∧
    Uses spells structures interface.returnType entry.callable.result
  shapes : List.Forall₂ (fun parameter shape =>
    Shapes registry structures (some parameter.type) shape)
    interface.parameters entry.signature.params
  params : List.Forall₂ (fun parameter param =>
    param.1 = parameter.name ∧ Uses spells structures (some parameter.type) param.2)
    interface.parameters entry.callable.params

/-- The first pass makes the signature of an interface. -/
theorem examine_shapes (sound : module.Sound) (interface : Interface)
    (built : typesBuilt interface.returnType interface.parameters) :
    (examine machine interface).Ensures (module, session, bench)
      (fun signature after => session.Advances after.2.1 ∧
        Shapes after.2.1.registry after.1.structures interface.returnType signature.result ∧
        List.Forall₂ (fun parameter shape =>
          Shapes after.2.1.registry after.1.structures (some parameter.type) shape)
          interface.parameters signature.params)
      (fun _ _ => True) := by
  rw [examine]
  refine Step.Ensures.bind_ofExcept (fun _ _ => ?_) fun _ _ => trivial
  refine Step.Ensures.bind (fun _ after => after = (module, session, bench))
    (Step.Ensures.onFirst ((ensureFree_ensures interface.name module).mono ?_
      fun _ _ _ => trivial)) ?_
  · rintro _ _ ⟨rfl, -⟩
    rfl
  · rintro _ _ rfl
    refine Step.Ensures.bind _ ((callShapes_ensures interface.name interface.parameters built.2 _ _
      sound).both_answered (callShapes_shapes interface.name interface.parameters built.2 module
        session bench sound)) ?_
    rintro params ⟨middle, session', bench'⟩ ⟨unlisted, advances, shapes⟩
    refine Step.Ensures.bind _ ((callShape_ensures unlisted.1.1 interface.name "return value"
      built.1).both_answered (callShape_shapes unlisted.1.1 interface.name "return value"
        built.1)) ?_
    rintro result after ⟨unlisted', advances', shape⟩
    refine Step.Ensures.pure ⟨advances.trans advances', shape, shapes.imp fun _ _ shapes => ?_⟩
    exact shapes.mono unlisted'.1.2 unlisted.1.1 advances'.grows

/-- The second pass makes the declaration of an interface. -/
theorem callable_uses (sound : module.Sound) (name : String) {returnType : Option MemberType}
    {parameters : List Parameter} (body : String) (built : typesBuilt returnType parameters) :
    (callable machine name returnType parameters body).Ensures (module, session, bench)
      (fun entry after => session.Advances after.2.1 ∧
        Uses (session.Spells after.2.1) after.1.structures returnType entry.result ∧
        List.Forall₂ (fun parameter param => param.1 = parameter.name ∧
          Uses (session.Spells after.2.1) after.1.structures (some parameter.type) param.2)
          parameters entry.params)
      (fun _ _ => True) := by
  rw [callable]
  refine Step.Ensures.bind_ofExcept (fun _ _ => ?_) fun _ _ => trivial
  refine Step.Ensures.bind _ ((typeUse_ensures sound returnType built.1).both_answered
    (typeUse_uses sound built.1)) ?_
  rintro result ⟨middle, session', bench'⟩ ⟨⟨listing, -⟩, advances, uses⟩
  refine Step.Ensures.bind _ ((parameterUses_ensures parameters built.2 middle _
    listing.1).both_answered (parameterUses_uses parameters built.2 middle session' bench'
      listing.1)) ?_
  rintro params after ⟨⟨listing', -⟩, advances', params'⟩
  refine Step.Ensures.pure ⟨advances.trans advances', ?_, ?_⟩
  · exact uses.mono listing'.2.adds.remembers fun _ _ => .mono (.refl _) advances'
  · exact params'.imp fun _ _ both =>
      ⟨both.1, both.2.mono (fun _ _ known => known) fun _ _ => .mono advances (.refl _)⟩

/-- An interface that is added comes last, under a name that was free, as the two passes made it. -/
theorem addInterface_made (sound : module.Sound) (interface : Interface)
    (built : typesBuilt interface.returnType interface.parameters) :
    (addInterface machine interface).Ensures (module, session, bench)
      (fun _ after => session.Advances after.2.1 ∧ interface.name ∉ module.defined ∧
        ∃ middle entry, module.Lists middle ∧ after.1 = middle.withInterface entry ∧
          Made after.2.1.registry (session.Spells after.2.1) after.1.structures interface entry)
      (fun _ after => module.Lists after.1) := by
  rw [addInterface_eq]
  refine Step.Ensures.bind _ (((examine_ensures sound interface built).both
    (examine_shapes sound interface built)).mono_failed fun _ _ both => both.1.1.2) ?_
  rintro signature ⟨examined, session', bench'⟩ ⟨⟨unlisted, free⟩, advances, shape, shapes⟩
  have resolves := ((callable_ensures unlisted.1.1 interface.name interface.body built).both
    (callable_named machine interface.name _ _ _ (examined, session', bench'))).both
      (callable_uses unlisted.1.1 interface.name interface.body built)
  refine Step.Ensures.bind _ (resolves.mono_failed fun _ _ both =>
    unlisted.1.2.trans both.1.1.1.2) ?_
  rintro entry ⟨resolved, session'', bench''⟩ ⟨⟨⟨listing, -⟩, named⟩, advances', uses, params⟩
  have lists : module.Lists resolved := unlisted.1.2.trans listing.2
  have stillFree : resolved.defined.contains interface.name = false := by
    rw [lists.alone]
    exact free
  have made : Made session''.registry (session.Spells session'') resolved.structures interface
      ⟨entry, signature⟩ := {
    name := named
    result := ⟨shape.mono listing.2 unlisted.1.1 advances'.grows,
      uses.mono (fun _ _ known => known) fun _ _ => .mono advances (.refl _)⟩
    shapes := shapes.imp fun _ _ shapes => shapes.mono listing.2 unlisted.1.1 advances'.grows
    params := params.imp fun _ _ both =>
      ⟨both.1, both.2.mono (fun _ _ known => known) fun _ _ => .mono advances (.refl _)⟩ }
  refine Step.Ensures.of_run_ok (run_declare _ stillFree) ⟨advances.trans advances', ?_, resolved,
    ⟨entry, signature⟩, lists, ?_, made⟩
  · simpa using free
  · rw [withInterface, named]

end NativeModule

end TypeBridge
