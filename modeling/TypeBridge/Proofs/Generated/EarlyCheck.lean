import TypeBridge.Proofs.Generated.Prolonging
import TypeBridge.Proofs.Generated.Refusing
import TypeBridge.Proofs.Record.Independence

/-!
# The early check of what is passed by value

`Function.defaultInterface` refuses packed composites by value from their declarations alone, before
any of them is entered; `NativeModule.addInterface` looks at the structures that they are entered as.
`early_check_agrees` says that the second look comes to the same result, in the module and in the
session that a request leaves behind. That an interface is refused for a shape is traced back to one
of its types (`addInterface_refuses`).
-/

namespace TypeBridge

/-! ## What a function takes and returns -/

namespace Function

variable {function : Function} {exportedName : Option String} {what : String}

/-- A function that is refused for a shape by the early check takes or returns a packed composite. -/
theorem exists_packed_of_refused
    (refused : function.defaultInterface exportedName = .error (.unsupported what)) :
    ∃ role ∈ function.roles, role.2.isPackedByValue := by
  unfold Function.defaultInterface at refused
  cases checked : checkIdentifier (function.interfaceName exportedName) with
  | error fault =>
      dsimp only at refused
      rw [checked] at refused
      cases refused
      exact absurd trivial (checkIdentifier_fault checked)
  | ok =>
      cases found : function.roles.find? (fun role => role.2.isPackedByValue) with
      | some role =>
          have packed := List.find?_some found
          exact ⟨role, List.mem_of_find?_eq_some found, packed⟩
      | none =>
          dsimp only at refused
          rw [checked, found] at refused
          cases refused

/-- A function that passes the early check takes and returns no packed composite. -/
theorem unpacked_of_accepted (accepted : (function.defaultInterface exportedName).isOk) :
    ∀ role ∈ function.roles, role.2.isPackedByValue = false := by
  intro role member
  unfold Function.defaultInterface at accepted
  cases checked : checkIdentifier (function.interfaceName exportedName) with
  | error fault =>
      dsimp only at accepted
      rw [checked] at accepted
      cases accepted
  | ok =>
      cases found : function.roles.find? (fun role => role.2.isPackedByValue) with
      | some role =>
          dsimp only at accepted
          rw [checked, found] at accepted
          cases accepted
      | none => simpa using List.find?_eq_none.mp found role member

/-- A type that is no packed composite by value passes. -/
theorem passesByValue_iff {type : MemberType} :
    type.passesByValue ↔ type.isPackedByValue = false := by
  cases type <;> simp [MemberType.passesByValue, MemberType.isPackedByValue]

/-- The roles of a function are its return value and its parameters. -/
theorem mem_roles {type : MemberType} : (∃ role ∈ function.roles, role.2 = type) ↔
    some type ∈ function.returnType :: function.parameters.map (some ·.type) := by
  simp only [Function.roles, List.mem_append, List.mem_map, Option.mem_toList, Option.map_eq_some_iff,
    List.mem_cons, Option.some.injEq]
  constructor
  · rintro ⟨role, ⟨parameter, member, rfl⟩ | ⟨returned, same, rfl⟩, rfl⟩
    · exact .inr ⟨parameter, member, rfl⟩
    · exact .inl same.symm
  · rintro (same | ⟨parameter, member, rfl⟩)
    · exact ⟨("return value", type), .inr ⟨type, same.symm, rfl⟩, rfl⟩
    · exact ⟨(parameter.name, parameter.type), .inl ⟨parameter, member, rfl⟩, rfl⟩

end Function

namespace NativeModule

variable {module : NativeModule} {machine : Machine} {interface : Interface}
  {state : NativeModule × Session × Workbench} {type : Option MemberType} {log : EntryLog}
  {renamed : List Nat}

/-! ## Refused shapes -/

/-- A type does not go by value as far as the registry knows in the end, unless a native name of a
composite holds the character that ends the parts of keys. -/
def Bars (state : NativeModule × Session × Workbench) (type : MemberType) : Prop :=
  ∀ log renamed, Catalogue.Witnessed log renamed (structuresIn state) → log.Clean →
    ¬ type.GoesByValue state.2.1.registry

/-- A step that is refused for a shape ends where one of some types does not go by value. -/
def RefusesFor {α : Type} (step : ModuleStep α) (types : List (Option MemberType))
    (state : NativeModule × Session × Workbench) : Prop :=
  step.Ensures state (fun _ _ => True) fun fault after => fault.RefusesShape →
    ∃ type, some type ∈ types ∧ Bars after type

/-- A step that never refuses a shape refuses it for any types. -/
theorem RefusesFor.of_failsBy {α : Type} {step : ModuleStep α}
    (fails : step.FailsBy fun fault => ¬ fault.RefusesShape) (types : List (Option MemberType)) :
    RefusesFor step types state :=
  (fails state).mono_failed fun _ _ other refuses => absurd refuses other

/-- The types that a shape was refused for may be more. -/
theorem RefusesFor.mono {α : Type} {step : ModuleStep α} {types types' : List (Option MemberType)}
    (refuses : RefusesFor step types state) (more : types ⊆ types') :
    RefusesFor step types' state := by
  refine Step.Ensures.mono_failed refuses fun _ _ holds refused => ?_
  obtain ⟨type, member, bars⟩ := holds refused
  exact ⟨type, more member, bars⟩

/-- In a sequence the second step starts with what the history has come to. -/
theorem RefusesFor.bind {α β : Type} {step : ModuleStep α} {next : α → ModuleStep β}
    {types : List (Option MemberType)} (first : RefusesFor step types state)
    (prolongs : Prolongs step)
    (witnessed : Catalogue.Witnessed log renamed (structuresIn state))
    (rest : ∀ answer log after, Catalogue.Witnessed log renamed (structuresIn after) →
      RefusesFor (next answer) types after) : RefusesFor (step >>= next) types state := by
  refine Step.Ensures.bind _ ((first.both (prolongs.ensures state)).mono (fun _ _ both => both.2)
    fun _ _ both => both.1) ?_
  intro answer after prolonged
  obtain ⟨added, later⟩ := prolonged log renamed witnessed
  exact rest answer _ after later

/-- The shape of a type is refused only if the type does not go by value. -/
theorem callShape_refuses (owner member : String)
    (built : ∀ member, type = some member → member.isBuilt)
    (witnessed : Catalogue.Witnessed log renamed (structuresIn state)) :
    RefusesFor (callShape machine owner member type) [type] state := by
  cases type with
  | none => exact Step.Ensures.pure trivial
  | some type =>
      have own : ∀ {after : NativeModule × Session × Workbench}, Bars after type →
          ∃ other, some other ∈ [some type] ∧ Bars after other :=
        fun bars => ⟨type, List.mem_singleton_self _, bars⟩
      obtain ⟨module, session, bench⟩ := state
      cases type with
      | pointer child => exact Step.Ensures.pure trivial
      | scalar name =>
          rw [RefusesFor, callShape]
          refine Step.Ensures.bind (fun scalar after =>
            (Session.resolve machine name).run (session, bench) = (.ok scalar, after.2)) ?_ ?_
          · refine Step.Ensures.onSecond (Step.Ensures.widen ((Step.Ensures.ran _ _).mono_failed ?_))
            exact fun _ _ _ => False.elim
          · intro scalar after ran
            refine Step.Ensures.bind_ofExcept (fun _ _ => Step.Ensures.pure trivial) ?_
            intro fault refused _
            refine own fun _ _ _ _ goes => ?_
            obtain ⟨info, known, isOk⟩ := goes.2 name (List.mem_singleton_self name)
            cases (Session.facts_of_resolve ran).symm.trans known
            rw [← Catalogue.isOk_scalarKindOf scalar.info owner member, refused] at isOk
            cases isOk
      | composite child =>
          have entered : (onCatalogue (Catalogue.create machine child)).Ensures
              (module, session, bench) (fun id after => after.1.structures.lookup child = some id)
              (fun _ _ => True) :=
            Step.Ensures.within ((Catalogue.create_adds machine (session, bench) (built _ rfl)
              witnessed.history.reached.indexed).mono (fun _ _ both => both.2) fun _ _ _ => trivial)
          rw [RefusesFor, callShape]
          refine Step.Ensures.bind (fun id after => after.1.structures.lookup child = some id)
            ((entered.both (onCatalogue_create_failsBy machine child _)).mono
              (fun _ _ both => both.1) fun _ _ both refused => absurd refused both.2) ?_
          intro id after found
          apply Step.Ensures.bind_get
          refine Step.Ensures.bind_ofExcept (fun _ _ => Step.Ensures.pure trivial) ?_
          intro fault refused _
          refine own fun log renamed witnessed clean goes => ?_
          have isOk : (after.1.structures.callDefinition id).isOk :=
            (Catalogue.isOk_callDefinition_of_lookup witnessed.plain witnessed.history clean
              found).mpr goes
          rw [refused] at isOk
          cases isOk

/-- A shape that the parameters are refused for is that of one of them. -/
theorem callShapes_refuses (owner : String) (parameters : List Parameter)
    (built : ∀ parameter ∈ parameters, parameter.type.isBuilt) {log : EntryLog}
    {state : NativeModule × Session × Workbench}
    (witnessed : Catalogue.Witnessed log renamed (structuresIn state)) :
    RefusesFor (callShapes machine owner parameters) (parameters.map (some ·.type)) state := by
  induction parameters generalizing log state with
  | nil => exact Step.Ensures.pure trivial
  | cons parameter others ih =>
      obtain ⟨first, later⟩ := List.forall_mem_cons.mp built
      have own : ∀ member, some parameter.type = some member → member.isBuilt :=
        fun _ same => Option.some.inj same ▸ first
      rw [callShapes, List.map_cons]
      refine RefusesFor.bind ((callShape_refuses owner parameter.name own witnessed).mono ?_)
        (callShape_prolongs owner parameter.name own) witnessed fun _ _ after witnessed' => ?_
      · exact List.cons_subset_cons _ (List.nil_subset _)
      · refine RefusesFor.bind ((ih later witnessed').mono (List.subset_cons_self _ _))
          (callShapes_prolongs owner others later) witnessed' fun _ _ _ _ => ?_
        exact Step.Ensures.pure trivial

/-- The types of an interface. -/
def typesOf (interface : Interface) : List (Option MemberType) :=
  interface.returnType :: interface.parameters.map (some ·.type)

/-- An interface is refused for a shape only if one of its types does not go by value. -/
theorem addInterface_refuses (built : typesBuilt interface.returnType interface.parameters)
    (witnessed : Catalogue.Witnessed log renamed (structuresIn state)) :
    RefusesFor (addInterface machine interface) (typesOf interface) state := by
  have none : ∀ {α : Type} {step : ModuleStep α} {state},
      step.FailsBy (fun fault => ¬ fault.RefusesShape) → RefusesFor step (typesOf interface) state :=
    fun fails => .of_failsBy fails _
  rw [addInterface]
  refine .bind (none (.ofExcept fun _ => checkIdentifier_fault)) (.ofExcept _) witnessed
    fun _ _ _ witnessed => ?_
  refine .bind (none (ensureFree_failsBy _)) (ensureFree_prolongs _) witnessed
    fun _ _ _ witnessed => ?_
  refine .bind ((callShapes_refuses _ _ built.2 witnessed).mono (List.subset_cons_self _ _))
    (callShapes_prolongs _ _ built.2) witnessed fun _ _ _ witnessed => ?_
  refine .bind ((callShape_refuses _ _ built.1 witnessed).mono
    (List.cons_subset_cons _ (List.nil_subset _))) (callShape_prolongs _ _ built.1) witnessed
      fun _ _ _ _ => none ?_
  exact .bind (.bind (.ofExcept fun _ => checkParameters_fault) fun _ =>
    .bind (typeUse_failsBy machine _) fun _ => .bind (parameterUses_failsBy machine _) fun _ =>
      .pure _) fun _ => .bind (claim_failsBy _) fun _ => .onFirst (.modify _)

/-- What an interface that was added has a shape for goes by value. -/
theorem Made.goesByValue {registry : Registry} {spells : TypeName → String → Prop}
    {structures : Catalogue} {entry : InterfaceEntry} {type : MemberType}
    (made : Made registry spells structures interface entry) (member : some type ∈ typesOf interface)
    (plain : registry.Plain)
    (history : Catalogue.History (Catalogue.Toward registry) log renamed structures)
    (clean : log.Clean) : type.GoesByValue registry := by
  have shaped : ∃ shape, Shapes registry structures (some type) shape := by
    rcases List.mem_cons.mp member with returned | taken
    · exact ⟨_, returned ▸ made.result.1⟩
    · obtain ⟨parameter, inside, same⟩ := List.mem_map.mp taken
      obtain ⟨shape, -, shapes⟩ := exists_of_mem_right made.shapes.flip inside
      exact ⟨shape, same ▸ shapes⟩
  obtain ⟨shape, shapes⟩ := shaped
  cases shapes with
  | scalar known is =>
      refine ⟨rfl, List.forall_mem_singleton.mpr ⟨_, known, ?_⟩⟩
      rw [is]
      rfl
  | record entered defined =>
      refine (Catalogue.isOk_callDefinition_of_lookup plain history clean entered).mp ?_
      rw [defined]
      rfl
  | pointer => exact ⟨rfl, List.forall_mem_nil _⟩

/-- The two checks of what is passed by value agree. A structure of a composite, whatever else was
entered before, has a shape for calls exactly if no packed composite and no scalar without a kind is
reached in the composite without following a pointer, provided that the structure has the tree of the
composite; it has unless a native name in one of them holds the character that ends the parts of
keys. An interface with the types of a function that the early check refuses is refused too, and one
with the types of a function that passes is not refused for a shape if all scalars that are reached
have a kind. -/
theorem early_check_agrees {session : Session} {unsized : List String} (reached : module.Reached)
    (known : Session.Reached unsized session) (plain : session.registry.Plain)
    (history : Catalogue.History (Catalogue.Toward session.registry) log renamed
      module.structures) :
    (∀ composite id, module.structures.lookup composite = some id →
      (module.structures.tree id = log.tree composite →
        ((module.structures.callDefinition id).isOk ↔ composite.passesByValue ∧
          ∀ name ∈ composite.valueScalars, session.registry.Supports name)) ∧
      ((module.structures.tree id).Readable → (log.tree composite).Readable →
        module.structures.tree id = log.tree composite)) ∧
    ∀ (machine : Machine) (bench : Workbench) (function : Function) (exportedName : Option String)
      (name body : String), typesBuilt function.returnType function.parameters →
      (addInterface machine ⟨name, function.returnType, function.parameters, body⟩).Ensures
        (module, session, bench)
        (fun _ after =>
          (∃ added, Catalogue.Witnessed (added ++ log) renamed (structuresIn after)) ∧
          ∀ log' renamed', Catalogue.Witnessed log' renamed' (structuresIn after) → log'.Clean →
            ∀ what, function.defaultInterface exportedName ≠ .error (.unsupported what))
        (fun fault after =>
          (∃ added, Catalogue.Witnessed (added ++ log) renamed (structuresIn after)) ∧
          ∀ log' renamed', Catalogue.Witnessed log' renamed' (structuresIn after) → log'.Clean →
            (function.defaultInterface exportedName).isOk →
            (∀ role ∈ function.roles, ∀ name ∈ role.2.valueScalars,
              after.2.1.registry.Supports name) → ¬ fault.RefusesShape) := by
  constructor
  · intro composite id found
    have calls := history.reached
    refine ⟨fun same => ?_, fun readable readable' => ?_⟩
    · have entered := (calls.logged.knows composite).mpr (Option.isSome_iff_exists.mpr ⟨id, found⟩)
      exact Catalogue.isOk_callDefinition_iff plain history entered
        (calls.indexed.byType _ _ found) same
    · refine RecordTree.key_injective readable readable' ?_
      rw [calls.sound.key_tree (calls.indexed.byType _ _ found),
        Catalogue.key_log_tree calls found]
  · intro machine bench function exportedName name body built
    have witnessed : Catalogue.Witnessed log renamed (structuresIn (module, session, bench)) :=
      ⟨history, ⟨unsized, known⟩, plain⟩
    let interface : Interface := ⟨name, function.returnType, function.parameters, body⟩
    have prolongs := (addInterface_prolongs machine interface built).ensures (module, session, bench)
    refine (prolongs.both ((addInterface_made reached.sound interface built).both
      (addInterface_refuses built witnessed))).mono ?_ ?_
    · rintro _ after ⟨prolonged, ⟨-, -, middle, entry, -, same, made⟩, -⟩
      refine ⟨prolonged log renamed witnessed, fun log' renamed' later clean what refused => ?_⟩
      obtain ⟨role, member, packed⟩ := Function.exists_packed_of_refused refused
      have goes := made.goesByValue (Function.mem_roles.mp ⟨role, member, rfl⟩) later.plain
        later.history clean
      rw [Function.passesByValue_iff.mp goes.1] at packed
      cases packed
    · rintro fault after ⟨prolonged, -, refuses⟩
      refine ⟨prolonged log renamed witnessed,
        fun log' renamed' later clean accepted supported refused => ?_⟩
      obtain ⟨type, member, bars⟩ := refuses refused
      obtain ⟨role, inside, rfl⟩ := Function.mem_roles.mpr member
      refine bars _ _ later clean ⟨?_, supported role inside⟩
      exact Function.passesByValue_iff.mpr (Function.unpacked_of_accepted accepted role inside)

end NativeModule

/-! ## Two records -/

/-- The log of a request to enter a composite, on a workbench without files. -/
def Catalogue.loggedBy (session : Session) (catalogue : Catalogue) (composite : Composite)
    (log : EntryLog) : EntryLog :=
  logAfter (Session.printing "") composite log catalogue (session, .fresh "/tmp" .empty)

/-- A request that registers nothing is part of a history with its log. -/
theorem Catalogue.History.enter {log : EntryLog} {renamed : List Nat} {catalogue : Catalogue}
    {session : Session} {unsized : List String}
    (history : History (Toward session.registry) log renamed catalogue)
    (reached : Session.Reached unsized session) (composite : Composite) (built : composite.isBuilt)
    (sameSize : (registryBehind session catalogue composite).size = session.registry.size) :
    History (Toward session.registry) (loggedBy session catalogue composite log) renamed
      (Catalogue.entered session catalogue composite) := by
  refine history.create (Session.printing "") composite (session, .fresh "/tmp" .empty) built
    ⟨unsized, reached⟩ ?_
  have same := registryBehind_eq reached sameSize
  exact show Registry.Grows (registryBehind session catalogue composite) _ from same ▸ .refl _

namespace NativeModule

/-- A module that was asked to enter a composite. -/
def holding (session : Session) (composite : Composite) : NativeModule :=
  { empty "m" with structures := Catalogue.entered session .empty composite }

/-- The structures of the module are those of the request. -/
@[simp] theorem structures_holding (session : Session) (composite : Composite) :
    (holding session composite).structures = Catalogue.entered session .empty composite := rfl

/-- The request leads to the module. -/
theorem reached_holding (session : Session) {composite : Composite} (built : composite.isBuilt) :
    (holding session composite).Reached :=
  ⟨"m", .single (.quiet (.structures
    (.create (Session.printing "") composite (session, .fresh "/tmp" .empty) built)))⟩

open Catalogue (entered enteredWhole heldRecord loggedBy registryBehind)
open Session (wordSession reached_wordSession plain_wordSession)

/-- A function that takes the record by value and returns nothing. -/
def holdFunction : Function := ⟨"hold", none, [⟨"held", .composite heldRecord⟩], ""⟩

/-- The types of the function are built. -/
theorem built_holdFunction : typesBuilt holdFunction.returnType holdFunction.parameters :=
  ⟨nofun, List.forall_mem_singleton.mpr rfl⟩

/-- All scalars in the record have a kind, because its structure has a shape for calls. -/
theorem early_check_agrees_heldRecord :
    (holding wordSession heldRecord).Reached ∧ Session.Reached [] wordSession ∧
    wordSession.registry.Plain ∧
    Catalogue.History (Catalogue.Toward wordSession.registry)
      (loggedBy wordSession .empty heldRecord []) [] enteredWhole ∧
    enteredWhole.lookup heldRecord = some 1 ∧
    enteredWhole.tree 1 = EntryLog.tree (loggedBy wordSession .empty heldRecord []) heldRecord ∧
    (heldRecord.passesByValue ∧
      ∀ name ∈ heldRecord.valueScalars, wordSession.registry.Supports name) ∧
    typesBuilt holdFunction.returnType holdFunction.parameters ∧
    (addInterface (Session.printing "") ⟨"hold", none, holdFunction.parameters, ""⟩).Ensures
      (holding wordSession heldRecord, wordSession, .fresh "/tmp" .empty)
      (fun _ after => ∀ log' renamed', Catalogue.Witnessed log' renamed' (structuresIn after) →
        log'.Clean → ∀ what, holdFunction.defaultInterface none ≠ .error (.unsupported what))
      (fun _ after => ∃ log', Catalogue.Witnessed log' [] (structuresIn after)) := by
  obtain ⟨⟨sameSize, -, -⟩, -, ⟨found, -⟩, -, -, isOk⟩ := Catalogue.facts_heldRecord
  have clean : EntryLog.Clean (loggedBy wordSession .empty heldRecord []) := by decide +kernel
  have reached : (holding wordSession heldRecord).Reached := reached_holding wordSession rfl
  have history := Catalogue.History.start.enter reached_wordSession heldRecord rfl sameSize
  have sameTree := (history.reached.faithful clean).meaning heldRecord 1 found
  rw [← structures_holding] at history
  obtain ⟨agrees, added⟩ := early_check_agrees reached reached_wordSession plain_wordSession history
  rw [structures_holding] at agrees history
  refine ⟨reached, reached_wordSession, plain_wordSession, history, found, sameTree,
    ((agrees heldRecord 1 found).1 sameTree).mp isOk, built_holdFunction, ?_⟩
  exact (added (Session.printing "") (.fresh "/tmp" .empty) holdFunction none "hold" ""
    built_holdFunction).mono (fun _ _ both => both.2) fun _ _ both =>
      both.1.elim fun _ witnessed => ⟨_, witnessed⟩

open Catalogue (delimitedSession reached_delimitedSession plain_delimitedSession oneField twoFields
  enteredTwo enteredBoth)

/-- A record of a type that does not cross the boundary can have a shape for calls: that of a record
with the same key which was entered earlier. -/
theorem early_check_disagrees_oneField : ¬ ∀ (registry : Registry) log renamed
    (catalogue : Catalogue) composite id, registry.Plain →
    Catalogue.History (Catalogue.Toward registry) log renamed catalogue →
    catalogue.lookup composite = some id → ((catalogue.callDefinition id).isOk ↔
      composite.passesByValue ∧ ∀ name ∈ composite.valueScalars, registry.Supports name) := by
  intro claim
  obtain ⟨⟨-, same, same'⟩, ⟨-, found⟩, -, -, isOk⟩ := Catalogue.facts_enteredBoth
  have refused : (delimitedSession.registry.facts (.native "int\x001\x00y\x00int")).map
      (fun info => (ScalarKind.ofInfo info).isOk) = some false := by
    decide +kernel
  have two := Catalogue.History.start.enter reached_delimitedSession twoFields rfl same
  have both : Catalogue.History (Catalogue.Toward delimitedSession.registry) _ [] enteredBoth :=
    two.enter reached_delimitedSession oneField rfl same'
  have both := (claim _ _ _ _ _ _ plain_delimitedSession both found).mp isOk
  have listed : TypeName.native "int\x001\x00y\x00int" ∈ oneField.valueScalars :=
    List.mem_singleton_self _
  have supports := both.2 _ listed
  obtain ⟨info, known, kind⟩ := supports
  rw [known, Option.map_some, kind] at refused
  cases refused

end NativeModule

end TypeBridge
