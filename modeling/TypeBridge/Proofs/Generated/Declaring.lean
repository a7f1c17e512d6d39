import Mathlib.Tactic.Tauto
import TypeBridge.Proofs.Generated.Listing

/-!
# What declarations add

A declaration is examined first; then its types are resolved one after the other, each of which
lists its structure at once; then the declaration itself is added. `NativeModule.Continues` holds of
a module before and behind any of these. `resolvedTypes` are the types that were resolved when
something fails, and `Settles` says what they have listed by then.
-/

namespace TypeBridge.NativeModule

variable {module before middle after : NativeModule} {machine : Machine}
  {rest : Session × Workbench} {type : Option MemberType} {types : List (Option MemberType)}

/-! ## Types that were resolved -/

/-- The types among some that are resolved before the first one that fails. -/
def resolvedTypes (machine : Machine) : List (Option MemberType) →
    NativeModule × Session × Workbench → List (Option MemberType)
  | [], _ => []
  | type :: rest, state =>
    match (typeUse machine type).run state with
    | (.ok _, after) => type :: resolvedTypes machine rest after
    | (.error _, _) => []

/-- The composite of a type that holds one or points to one. -/
def Leads (type : Option MemberType) (composite : Composite) : Prop :=
  type.bind MemberType.composite? = some composite

/-- Types were resolved one after the other: the structures of all are listed, and the order is what
it was exactly if they all had been before. -/
structure Settles (before after : NativeModule) (types : List (Option MemberType)) : Prop where
  listed : ∀ type ∈ types, ∀ composite, Leads type composite →
    ∃ id ∈ after.structureOrder, after.structures.lookup composite = some id
  unchanged : after.structureOrder = before.structureOrder ↔
    ∀ type ∈ types, ∀ composite, Leads type composite →
      ∀ id, after.structures.lookup composite = some id → id ∈ before.structureOrder

/-- With no uses to resolve, a module settles them by listing nothing new. -/
theorem Settles.nil (same : after.structureOrder = before.structureOrder) :
    before.Settles after [] where
  listed := nofun
  unchanged := ⟨fun _ => nofun, fun _ => same⟩

/-- An order that grows twice is what it was exactly if it is each time. -/
theorem unchanged_iff (start : before.Lists middle) (last : middle.Lists after) :
    after.structureOrder = before.structureOrder ↔
      middle.structureOrder = before.structureOrder ∧
        after.structureOrder = middle.structureOrder := by
  constructor
  · intro same
    have lengths := last.grows.length_le
    rw [same] at lengths
    have middleSame := start.grows.eq_of_length_le lengths
    exact ⟨middleSame.symm, same.trans middleSame⟩
  · rintro ⟨first, second⟩
    exact second.trans first

/-- A module settles a list of uses by settling the first and then the rest. -/
theorem Settles.cons {use : TypeUse} (start : before.Lists middle) (last : middle.Lists after)
    (resolved : before.Resolved middle type use) (settles : middle.Settles after types) :
    before.Settles after (type :: types) := by
  have named : ∀ composite, Leads type composite → ∃ id, use.ids = [id] ∧
      after.structures.lookup composite = some id := by
    intro composite leads
    obtain ⟨id, known, ids⟩ := resolved.named composite leads
    exact ⟨id, ids, last.adds.remembers composite id known⟩
  constructor
  · intro other member composite leads
    rcases List.mem_cons.mp member with rfl | later
    · obtain ⟨id, ids, known⟩ := named composite leads
      have listed := resolved.listed id (by simp [ids])
      exact ⟨id, last.grows.subset listed, known⟩
    · exact settles.listed other later composite leads
  · rw [unchanged_iff start last, settles.unchanged]
    constructor
    · rintro ⟨same, early⟩ other member composite leads id known
      rcases List.mem_cons.mp member with rfl | later
      · obtain ⟨id', ids, known'⟩ := named composite leads
        obtain rfl := Option.some.inj (known.symm.trans known')
        exact resolved.unchanged.mp same id (by simp [ids])
      · rw [← same]
        exact early other later composite leads id known
    · intro early
      have earlyRest : ∀ other ∈ types, ∀ composite, Leads other composite →
          ∀ id, after.structures.lookup composite = some id → id ∈ before.structureOrder :=
        fun other later => early other (List.mem_cons_of_mem type later)
      constructor
      · apply resolved.unchanged.mpr
        intro id member
        cases leads : type.bind MemberType.composite? with
        | none =>
            rw [resolved.plain leads] at member
            cases member
        | some composite =>
            obtain ⟨id', ids, known⟩ := named composite leads
            rw [ids, List.mem_singleton] at member
            subst member
            exact early type List.mem_cons_self composite leads id known
      · intro other later composite leads id known
        exact start.grows.subset (earlyRest other later composite leads id known)

/-- Resolving the parameters of a function lists their structures; if one fails, those before it
have been listed. -/
theorem parameterUses_ensures (parameters : List Parameter)
    (built : ∀ parameter ∈ parameters, parameter.type.isBuilt) (module : NativeModule)
    (rest : Session × Workbench) (sound : module.Sound) :
    (parameterUses machine parameters).Ensures (module, rest)
      (fun uses after => module.Listing after.1 ∧
        ∀ id ∈ uses.flatMap (fun use => use.2.ids), id ∈ after.1.structureOrder)
      (fun _ after => module.Listing after.1 ∧
        module.Settles after.1 (resolvedTypes machine
          (parameters.map fun parameter => some parameter.type) (module, rest))) := by
  induction parameters generalizing module rest with
  | nil =>
      rw [parameterUses]
      exact Step.Ensures.pure ⟨⟨sound, .refl module⟩, nofun⟩
  | cons parameter others ih =>
      have builtOthers := fun other member => built other (List.mem_cons_of_mem parameter member)
      have first : (typeUse machine (some parameter.type)).Ensures (module, rest) _ _ :=
        typeUse_ensures sound (some parameter.type) fun _ same =>
          Option.some.inj same ▸ built parameter List.mem_cons_self
      rw [parameterUses, List.map_cons, resolvedTypes]
      cases ran : (typeUse machine (some parameter.type)).run (module, rest) with
      | mk result state =>
          cases result with
          | error fault =>
              obtain ⟨listing, same⟩ := first.of_error ran
              exact Step.Ensures.bind_of_error ran ⟨listing, .nil same⟩
          | ok use =>
              obtain ⟨middle, rest'⟩ := state
              obtain ⟨listing, resolved⟩ := first.of_ok ran
              refine Step.Ensures.bind_of_ok ran ?_
              refine Step.Ensures.bind _ ((ih builtOthers middle rest' listing.1).mono_failed ?_) ?_
              · rintro fault after ⟨later, settles⟩
                exact ⟨listing.trans later, .cons listing.2 later.2 resolved settles⟩
              · rintro uses after ⟨later, listed⟩
                refine Step.Ensures.pure ⟨listing.trans later, ?_⟩
                intro id member
                rw [List.flatMap_cons, List.mem_append] at member
                rcases member with own | other
                · exact later.2.grows.subset (resolved.listed id own)
                · exact listed id other

/-! ## Examining a declaration -/

/-- A step that lists nothing. -/
def Unlisted (before after : NativeModule) : Prop :=
  before.Listing after ∧ after.structureOrder = before.structureOrder

/-- A module that does nothing lists nothing. -/
theorem Unlisted.refl (sound : module.Sound) : module.Unlisted module :=
  ⟨⟨sound, .refl module⟩, rfl⟩

/-- Two runs that list nothing make one that lists nothing. -/
theorem Unlisted.trans (start : before.Unlisted middle) (last : middle.Unlisted after) :
    before.Unlisted after :=
  ⟨start.1.trans last.1, last.2.trans start.2⟩

/-- What is settled from a module on is settled from an earlier one with the same order. -/
theorem Unlisted.settles (start : before.Unlisted middle) (settles : middle.Settles after types) :
    before.Settles after types where
  listed := settles.listed
  unchanged := by
    rw [← start.2]
    exact settles.unchanged

/-- A name that is free stays so; one that is taken is refused. -/
theorem ensureFree_ensures (name : String) (module : NativeModule) :
    (ensureFree name).Ensures module
      (fun _ after => after = module ∧ module.defined.contains name = false)
      (fun _ after => after = module) := by
  unfold Step.Ensures Step.run ensureFree
  cases taken : module.defined.contains name with
  | true => exact ⟨fun _ absurd => (by cases absurd), fun _ _ => rfl⟩
  | false => exact ⟨fun _ _ => ⟨rfl, rfl⟩, fun _ absurd => by cases absurd⟩

/-- Finding the shape of a type lists nothing. -/
theorem callShape_ensures (sound : module.Sound) (owner member : String)
    (built : ∀ member, type = some member → member.isBuilt) :
    (callShape machine owner member type).Ensures (module, rest)
      (fun _ after => module.Unlisted after.1) (fun _ after => module.Unlisted after.1) := by
  have still := Unlisted.refl sound
  cases type with
  | none =>
      rw [callShape]
      exact Step.Ensures.pure still
  | some type =>
      cases type with
      | scalar name =>
          rw [callShape]
          refine Step.Ensures.bind (fun _ after => after.1 = module) ?_ ?_
          · exact ⟨fun _ _ => rfl, fun _ _ => still⟩
          · rintro scalar ⟨_, rest'⟩ rfl
            apply Step.Ensures.bind_ofExcept
            · intro kind _
              exact Step.Ensures.pure still
            · intro _ _
              exact still
      | composite child =>
          rw [callShape]
          refine Step.Ensures.bind _ ((onCatalogue_create_ensures sound (built _ rfl)).mono_failed
            fun _ _ unlisted => unlisted) ?_
          rintro id after ⟨listing, same, -⟩
          apply Step.Ensures.bind_get
          apply Step.Ensures.bind_ofExcept
          · intro shape _
            exact Step.Ensures.pure ⟨listing, same⟩
          · intro _ _
            exact ⟨listing, same⟩
      | pointer child =>
          rw [callShape]
          exact Step.Ensures.pure still

/-- The shape pass only creates structures: it lists none, whether it succeeds or fails. -/
theorem callShapes_ensures (owner : String) (parameters : List Parameter)
    (built : ∀ parameter ∈ parameters, parameter.type.isBuilt) (module : NativeModule)
    (rest : Session × Workbench) (sound : module.Sound) :
    (callShapes machine owner parameters).Ensures (module, rest)
      (fun _ after => module.Unlisted after.1) (fun _ after => module.Unlisted after.1) := by
  induction parameters generalizing module rest with
  | nil =>
      rw [callShapes]
      exact Step.Ensures.pure (.refl sound)
  | cons parameter others ih =>
      have builtOthers := fun other member => built other (List.mem_cons_of_mem parameter member)
      rw [callShapes]
      refine Step.Ensures.bind _ (callShape_ensures sound owner parameter.name
        fun _ same => Option.some.inj same ▸ built parameter List.mem_cons_self) ?_
      rintro shape ⟨middle, rest'⟩ first
      refine Step.Ensures.bind (fun _ after => module.Unlisted after.1)
        ((ih builtOthers middle rest' first.1.1).mono ?_ ?_) ?_
      · intro _ _ later
        exact first.trans later
      · intro _ _ later
        exact first.trans later
      · intro shapes after unlisted
        exact Step.Ensures.pure unlisted

/-! ## Functions -/

/-- The types of a function that are resolved before its first fault: none if a parameter is
misnamed. -/
def calledTypes (machine : Machine) (returnType : Option MemberType)
    (parameters : List Parameter) (state : NativeModule × Session × Workbench) :
    List (Option MemberType) :=
  match checkParameters parameters with
  | .ok _ => resolvedTypes machine
      (returnType :: parameters.map fun parameter => some parameter.type) state
  | .error _ => []

/-- Resolving a function lists the structures that its head names; if it fails, those of the types
before have been listed. -/
theorem callable_ensures (sound : module.Sound) (name : String) {returnType : Option MemberType}
    {parameters : List Parameter} (body : String) (built : typesBuilt returnType parameters) :
    (callable machine name returnType parameters body).Ensures (module, rest)
      (fun entry after => module.Listing after.1 ∧ ∀ id ∈ entry.ids, id ∈ after.1.structureOrder)
      (fun _ after => module.Listing after.1 ∧
        module.Settles after.1 (calledTypes machine returnType parameters (module, rest))) := by
  have first : (typeUse machine returnType).Ensures (module, rest) _ _ :=
    typeUse_ensures sound returnType built.1
  rw [callable, calledTypes]
  cases checked : checkParameters parameters with
  | error fault =>
      exact Step.Ensures.bind_fail ⟨⟨sound, .refl module⟩, .nil rfl⟩
  | ok =>
      apply Step.Ensures.bind_ofExcept
      · intro _ _
        dsimp only
        rw [resolvedTypes]
        cases ran : (typeUse machine returnType).run (module, rest) with
        | mk result state =>
            cases result with
            | error fault =>
                obtain ⟨listing, same⟩ := first.of_error ran
                exact Step.Ensures.bind_of_error ran ⟨listing, .nil same⟩
            | ok use =>
                obtain ⟨middle, rest'⟩ := state
                obtain ⟨listing, resolved⟩ := first.of_ok ran
                refine Step.Ensures.bind_of_ok ran ?_
                refine Step.Ensures.bind _ ((parameterUses_ensures parameters built.2 middle rest'
                  listing.1).mono_failed ?_) ?_
                · rintro fault after ⟨later, settles⟩
                  exact ⟨listing.trans later, .cons listing.2 later.2 resolved settles⟩
                · rintro uses after ⟨later, listed⟩
                  refine Step.Ensures.pure ⟨listing.trans later, ?_⟩
                  intro id member
                  rw [Callable.ids, List.mem_append] at member
                  rcases member with own | other
                  · exact later.2.grows.subset (resolved.listed id own)
                  · exact listed id other
      · intro fault absurd
        cases absurd

/-! ## Declarations -/

/-- A module behind any requests: it is sound, and its structures and their order were carried on. -/
structure Continues (before after : NativeModule) : Prop where
  sound : after.Sound
  later : before.structures.Later after.structures
  grows : before.structureOrder <+: after.structureOrder

namespace Continues

/-- A module that stands still continues itself. -/
theorem refl (sound : module.Sound) : module.Continues module :=
  ⟨sound, .refl _, List.prefix_refl _⟩

/-- Continuations compose. -/
theorem trans (start : before.Continues middle) (last : middle.Continues after) :
    before.Continues after :=
  ⟨last.sound, start.later.trans last.later, start.grows.trans last.grows⟩

end Continues

/-- A module that lists one more use continues the one before. -/
theorem Listing.continues (listing : before.Listing after) : before.Continues after :=
  ⟨listing.1, listing.2.adds.later, listing.2.grows⟩

/-- A module stays sound when declarations are added that name listed structures. -/
theorem Sound.declare (sound : module.Sound) (structures : after.structures = module.structures)
    (order : after.structureOrder = module.structureOrder)
    (ids : ∀ id ∈ after.declaredIds, id ∈ module.declaredIds ∨ id ∈ module.structureOrder) :
    after.Sound where
  indexed := structures ▸ sound.indexed
  structures := structures ▸ sound.structures
  ordered := by
    rw [structures, order]
    exact sound.ordered
  declared id member := by
    rw [order]
    rcases ids id member with old | new
    · exact sound.declared id old
    · exact new

/-- A name that is free can be taken. -/
theorem claim_ensures {name : String} (free : module.defined.contains name = false) :
    (claim name).Ensures module
      (fun _ after => after = { module with defined := module.defined ++ [name] })
      (fun _ _ => False) := by
  unfold Step.Ensures Step.run claim
  rw [if_neg (by simp only [free, Bool.false_eq_true, not_false_eq_true])]
  exact ⟨fun _ _ => rfl, fun _ absurd => by cases absurd⟩

/-- At its end a declaration takes a name that was free when its types were resolved, and is added
with structures that are listed. -/
theorem declare_ensures (add : NativeModule → NativeModule) (start : before.Continues module)
    {name : String} (free : module.defined.contains name = false)
    (structures : ∀ module, (add module).structures = module.structures)
    (order : ∀ module, (add module).structureOrder = module.structureOrder)
    (ids : ∀ id ∈ (add { module with defined := module.defined ++ [name] }).declaredIds,
      id ∈ module.declaredIds ∨ id ∈ module.structureOrder)
    {failed : GenerateFault → NativeModule × Session × Workbench → Prop} :
    (onModule (claim name) >>= fun _ => onModule (Step.modify add) : ModuleStep Unit).Ensures
      (module, rest) (fun _ after => before.Continues after.1) failed := by
  refine Step.Ensures.bind
    (fun _ after => after.1 = { module with defined := module.defined ++ [name] })
    (Step.Ensures.onFirst ((claim_ensures free).mono_failed fun _ _ absurd =>
      absurd.elim)) ?_
  rintro _ ⟨_, rest'⟩ rfl
  refine Step.Ensures.onFirst (Step.Ensures.modify ?_)
  refine start.trans ⟨?_, ?_, ?_⟩
  · exact start.sound.declare (structures _) (order _) ids
  · rw [structures]
    exact .refl _
  · have same := order { module with defined := module.defined ++ [name] }
    exact ⟨[], by rw [same, List.append_nil]⟩

/-- Adding a variable. -/
theorem addVariable_ensures (sound : module.Sound) (declared : Variable)
    (built : declared.type.isBuilt) :
    (addVariable machine declared).Ensures (module, rest)
      (fun _ after => module.Continues after.1) (fun _ after => module.Continues after.1) := by
  have still := Continues.refl sound
  rw [addVariable]
  apply Step.Ensures.bind_ofExcept
  · intro _ _
    refine Step.Ensures.bind (fun _ after => after.1 = module ∧
      module.defined.contains declared.name = false)
      (Step.Ensures.onFirst ((ensureFree_ensures declared.name module).mono_failed ?_)) ?_
    · rintro _ _ rfl
      exact still
    · rintro _ ⟨_, rest'⟩ ⟨rfl, free⟩
      refine Step.Ensures.bind _ ((typeUse_ensures sound (some declared.type)
        fun _ same => Option.some.inj same ▸ built).mono_failed
          fun _ _ ensured => ensured.1.continues) ?_
      rintro use ⟨middle, rest''⟩ ⟨listing, resolved⟩
      refine declare_ensures (fun module => { module with globals := module.globals ++
        [⟨declared.name, use, declared.initializer, declared.isConstant⟩] }) listing.continues ?_
        (fun _ => rfl) (fun _ => rfl) ?_
      · rw [listing.2.alone]
        exact free
      · intro id member
        simp only [declaredIds, List.flatMap_append, List.flatMap_singleton, List.mem_append]
          at member ⊢
        have listed := resolved.listed id
        tauto
  · intro _ _
    exact still

/-- Adding a function. -/
theorem addFunction_ensures (sound : module.Sound) (function : Function)
    (built : typesBuilt function.returnType function.parameters) :
    (addFunction machine function).Ensures (module, rest)
      (fun _ after => module.Continues after.1) (fun _ after => module.Continues after.1) := by
  have still := Continues.refl sound
  rw [addFunction]
  apply Step.Ensures.bind_ofExcept
  · intro _ _
    refine Step.Ensures.bind (fun _ after => after.1 = module ∧
      module.defined.contains function.name = false)
      (Step.Ensures.onFirst ((ensureFree_ensures function.name module).mono_failed ?_)) ?_
    · rintro _ _ rfl
      exact still
    · rintro _ ⟨_, rest'⟩ ⟨rfl, free⟩
      refine Step.Ensures.bind _ ((callable_ensures sound function.name function.body
        built).mono_failed fun _ _ ensured => ensured.1.continues) ?_
      rintro entry ⟨middle, rest''⟩ ⟨listing, listed⟩
      refine declare_ensures (fun module => { module with functions := module.functions ++ [entry] })
        listing.continues ?_ (fun _ => rfl) (fun _ => rfl) ?_
      · rw [listing.2.alone]
        exact free
      · intro id member
        simp only [declaredIds, List.flatMap_append, List.flatMap_singleton, List.mem_append]
          at member ⊢
        have here := listed id
        tauto
  · intro _ _
    exact still

/-- All that is done for an interface before its types are resolved for good. -/
def examine (machine : Machine) (interface : Interface) : ModuleStep Signature := do
  Step.ofExcept (checkIdentifier interface.name)
  onModule (ensureFree interface.name)
  let params ← callShapes machine interface.name interface.parameters
  let result ← callShape machine interface.name "return value" interface.returnType
  return ⟨params, result⟩

/-- What `addInterface` does, with the examination of the signature named apart. -/
theorem addInterface_eq (machine : Machine) (interface : Interface) :
    addInterface machine interface = (do
      let signature ← examine machine interface
      let entry ← callable machine interface.name interface.returnType interface.parameters
        interface.body
      onModule (claim interface.name)
      onModule (Step.modify fun module =>
        { module with interfaces := module.interfaces ++ [⟨entry, signature⟩] })) := by
  simp only [addInterface, examine, bind_assoc, pure_bind]

/-- An interface is examined without listing anything; if it passes, its name is free. -/
theorem examine_ensures (sound : module.Sound) (interface : Interface)
    (built : typesBuilt interface.returnType interface.parameters) :
    (examine machine interface).Ensures (module, rest)
      (fun _ after => module.Unlisted after.1 ∧ module.defined.contains interface.name = false)
      (fun _ after => module.Unlisted after.1) := by
  have still := Unlisted.refl sound
  rw [examine]
  apply Step.Ensures.bind_ofExcept
  · intro _ _
    refine Step.Ensures.bind (fun _ after => after.1 = module ∧
      module.defined.contains interface.name = false)
      (Step.Ensures.onFirst ((ensureFree_ensures interface.name module).mono_failed ?_)) ?_
    · rintro _ _ rfl
      exact still
    · rintro _ ⟨_, rest'⟩ ⟨rfl, free⟩
      refine Step.Ensures.bind _ (callShapes_ensures interface.name interface.parameters built.2 _
        rest' sound) ?_
      rintro params ⟨middle, rest''⟩ first
      refine Step.Ensures.bind _ ((callShape_ensures first.1.1 interface.name "return value"
        built.1).mono_failed fun _ _ later => first.trans later) ?_
      intro result after later
      exact Step.Ensures.pure ⟨first.trans later, free⟩
  · intro _ _
    exact still

/-- The types of an interface that are resolved for good before its first fault. -/
def settledTypes (machine : Machine) (interface : Interface)
    (state : NativeModule × Session × Workbench) : List (Option MemberType) :=
  match (examine machine interface).run state with
  | (.ok _, after) => calledTypes machine interface.returnType interface.parameters after
  | (.error _, _) => []

/-- Adding an interface; if it is refused, the structures of the types resolved for good have been
listed, and nothing else has changed. -/
theorem addInterface_ensures (sound : module.Sound) (interface : Interface)
    (built : typesBuilt interface.returnType interface.parameters) :
    (addInterface machine interface).Ensures (module, rest)
      (fun _ after => module.Continues after.1)
      (fun _ after => module.Listing after.1 ∧
        module.Settles after.1 (settledTypes machine interface (module, rest))) := by
  have examined : (examine machine interface).Ensures (module, rest) _ _ :=
    examine_ensures sound interface built
  rw [addInterface_eq, settledTypes]
  cases ran : (examine machine interface).run (module, rest) with
  | mk result state =>
      cases result with
      | error fault =>
          have unlisted := examined.of_error ran
          exact Step.Ensures.bind_of_error ran ⟨unlisted.1, .nil unlisted.2⟩
      | ok signature =>
          obtain ⟨middle, rest'⟩ := state
          obtain ⟨unlisted, free⟩ := examined.of_ok ran
          refine Step.Ensures.bind_of_ok ran ?_
          refine Step.Ensures.bind _ ((callable_ensures unlisted.1.1 interface.name interface.body
            built).mono_failed ?_) ?_
          · rintro fault after ⟨listing, settles⟩
            exact ⟨unlisted.1.trans listing, unlisted.settles settles⟩
          · rintro entry ⟨last, rest''⟩ ⟨listing, listed⟩
            refine declare_ensures (fun module =>
              { module with interfaces := module.interfaces ++ [⟨entry, signature⟩] })
              (unlisted.1.trans listing).continues ?_ (fun _ => rfl) (fun _ => rfl) ?_
            · rw [(unlisted.1.trans listing).2.alone]
              exact free
            · intro id member
              simp only [declaredIds, List.flatMap_append, List.flatMap_singleton, List.mem_append]
                at member ⊢
              have here := listed id
              tauto

/-- The interface of a function has the function's types. -/
theorem built_defaultInterface {function : Function} {exportedName : Option String}
    {interface : Interface} (made : function.defaultInterface exportedName = .ok interface)
    (built : typesBuilt function.returnType function.parameters) :
    typesBuilt interface.returnType interface.parameters := by
  unfold Function.defaultInterface at made
  obtain ⟨-, -, made⟩ := exists_of_bind_ok made
  split at made
  · cases made
  · cases made
    exact built

/-- Adding a function with its interface. -/
theorem addExported_ensures (sound : module.Sound) (function : Function)
    (exportedName : Option String)
    (built : typesBuilt function.returnType function.parameters) :
    (addExported machine function exportedName).Ensures (module, rest)
      (fun _ after => module.Continues after.1) (fun _ after => module.Continues after.1) := by
  have still := Continues.refl sound
  rw [addExported]
  apply Step.Ensures.bind_ofExcept
  · intro interface made
    refine Step.Ensures.bind (fun _ after => after.1 = module)
      (Step.Ensures.onFirst ((ensureFree_ensures interface.name module).mono
        (fun _ _ ensured => ensured.1) ?_)) ?_
    · rintro _ _ rfl
      exact still
    · rintro _ ⟨_, rest'⟩ rfl
      refine Step.Ensures.bind _ (addFunction_ensures sound function built) ?_
      rintro _ ⟨middle, rest''⟩ first
      refine Step.Ensures.bind _ ((addInterface_ensures first.sound interface
        (built_defaultInterface made built)).mono_failed ?_) ?_
      · rintro fault after ⟨listing, -⟩
        exact first.trans listing.continues
      · intro _ after second
        exact Step.Ensures.pure (first.trans second)
  · intro _ _
    exact still

end TypeBridge.NativeModule
