import TypeBridge.Proofs.Types.Mapping
import TypeBridge.Proofs.Types.Remembering

/-!
# Scalars in all systems

A scalar that `Session.resolve` answers with has one name in each system, and all of them stand for
the same octets (`resolve_agrees`). A map pairs types with the same facts (`TypeMap.get?_built`) and
leads a native pointer to itself (`TypeMap.nativePointer_starred`); facts that are read before a map
is built still hold in the registry that the map is built from.
-/

namespace TypeBridge

/-- The name of a scalar in a system. -/
def ResolvedScalar.inSystem (scalar : ResolvedScalar) : TypeSystem → TypeName
  | .native => scalar.native
  | .arrayLib => scalar.arrayLib
  | .ffi => scalar.ffi

/-- A family says all that is known of its types. -/
theorem TypeInfo.eq_of_family? {info : TypeInfo} {family : Family}
    (of : info.family? = some family) :
    info = ⟨family.signage, family.kind, some family.size⟩ := by
  obtain ⟨signage, kind, size⟩ := info
  obtain ⟨bytes, has, rfl⟩ := Option.map_eq_some_iff.mp of
  exact congrArg _ has

namespace Registry

variable {registry : Registry} {target : TypeSystem} {name other : TypeName} {info : TypeInfo}
  {family : Family}

/-- What stands for a family in a system is a registered type of that family and system. -/
theorem StandsFor.registered (sound : registry.Sound)
    (stands : registry.StandsFor target family name) :
    name.system = target ∧
      registry.info? name = some ⟨family.signage, family.kind, some family.size⟩ := by
  have listed : name ∈ registry.typesOf target family := by
    cases stands with
    | preferred only =>
        have favourite : name ∈ registry.favouritesOf target family := by simp [only]
        exact (List.mem_filter.mp favourite).1
    | first _ types => simp [types]
  rw [typesOf_eq] at listed
  obtain ⟨entry, member, rfl⟩ := List.mem_map.mp listed
  obtain ⟨present, belonging⟩ := List.mem_filter.mp member
  simp only [belongs, decide_eq_true_eq] at belonging
  refine ⟨belonging.1, ?_⟩
  rw [sound.info?_of_mem present, TypeInfo.eq_of_family? belonging.2]

/-- The counterpart of a registered type is registered in the target system with the same facts; in
its own system a type is its own counterpart. -/
theorem Counterpart.agrees (sound : registry.Sound) (known : registry.info? name = some info)
    (counterpart : registry.Counterpart target name info other) :
    other.system = target ∧ registry.info? other = some info ∧
      (name.system = target → other = name) := by
  cases counterpart with
  | own inside => exact ⟨inside, known, fun _ => rfl⟩
  | other outside of stands =>
      obtain ⟨inside, registered⟩ := stands.registered sound
      exact ⟨inside, TypeInfo.eq_of_family? of ▸ registered, fun own => absurd own outside⟩

end Registry

namespace TypeMap

variable {registry : Registry} {target : TypeSystem} {map : TypeMap} {name other : TypeName}
  {info : TypeInfo} {base : List Char}

/-- A map is built only if no family is contested. -/
theorem of_build (sound : registry.Sound) (built : build registry target = .ok map) :
    registry.Uncontested target ∧
      map = ⟨target, paired (registry.familyRows target) registry target,
        pointerIn (registry.familyRows target) target⟩ := by
  rcases build_cases sound target with ⟨family, -, failed⟩ | ⟨clear, ⟨-, failed⟩ | ⟨-, made⟩⟩
  · cases failed.symm.trans built
  · cases failed.symm.trans built
  · exact ⟨clear, Except.ok.inj (built.symm.trans made)⟩

/-- A mapped type is registered, and the map leads to its counterpart. -/
theorem get?_built (sound : registry.Sound) (built : build registry target = .ok map)
    (found : map.get? name = some other) :
    ∃ info, registry.info? name = some info ∧ registry.Counterpart target name info other := by
  obtain ⟨clear, rfl⟩ := of_build sound built
  obtain ⟨front, back, split, -⟩ := List.lookup_eq_some_iff.mp found
  have listed : (name, other) ∈ paired (registry.familyRows target) registry target := by
    rw [show paired (registry.familyRows target) registry target = _ from split]
    exact List.mem_append_right front List.mem_cons_self
  obtain ⟨type, member, paired⟩ := List.mem_filterMap.mp listed
  obtain ⟨entry, present, rfl⟩ := List.mem_map.mp member
  obtain ⟨counterpart, leads, same⟩ := Option.map_eq_some_iff.mp paired
  obtain ⟨rfl, rfl⟩ := Prod.mk.inj same
  exact ⟨entry.info, sound.info?_of_mem present, sound.counterpart_of_some clear leads⟩

/-- What pointers are in the array library is a registered type of the size of an address. -/
theorem pointer_built (sound : registry.Sound) (built : build registry .arrayLib = .ok map)
    (found : map.pointer = some name) :
    name.system = .arrayLib ∧ registry.info? name = some (.unsigned TypeInfo.wordSize) := by
  obtain ⟨clear, rfl⟩ := of_build sound built
  have stands := (sound.canonical?_eq_some clear).mp found
  exact stands.registered sound

theorem target_built (sound : registry.Sound) (built : build registry target = .ok map) :
    map.target = target := by
  rw [(of_build sound built).2]

/-- A map into the native system leads native types to themselves. -/
theorem get?_native (sound : registry.Sound) (built : build registry .native = .ok map)
    (native : name.system = .native) (found : map.get? name = some other) : other = name := by
  obtain ⟨info, -, counterpart⟩ := get?_built sound built found
  cases counterpart with
  | own => rfl
  | other outside => exact absurd native outside

/-- A map that leads native types to themselves leads their pointers to themselves, through any
number of levels. -/
theorem nativePointer_starred (own : ∀ name other, name.system = .native →
      map.get? name = some other → other = name) (isBase : TypeName.IsBase base) (depth : Nat) :
    ∀ fuel, depth < fuel →
      map.nativePointer fuel (TypeName.starred base (depth + 1)) =
        TypeName.starred base (depth + 1) := by
  induction depth with
  | zero =>
      intro fuel enough
      obtain ⟨fuel, rfl⟩ := Nat.exists_eq_add_one.mpr enough
      have kept : (map.get? (TypeName.starred base 0)).getD (TypeName.starred base 0) =
          TypeName.starred base 0 := by
        cases found : map.get? (TypeName.starred base 0) with
        | none => rfl
        | some other => exact own _ other rfl found
      rw [nativePointer, TypeName.pointee_starred isBase]
      dsimp only
      rw [if_neg (by simp [TypeName.starred]), kept, TypeName.pointerTo_starred isBase]
  | succ depth ih =>
      intro fuel enough
      obtain ⟨fuel, rfl⟩ := Nat.exists_eq_add_one.mpr (Nat.zero_lt_of_lt enough)
      rw [nativePointer, TypeName.pointee_starred isBase]
      dsimp only
      rw [if_pos (by simp [TypeName.starred]), ih fuel (Nat.lt_of_succ_lt_succ enough),
        TypeName.pointerTo_starred isBase]

/-- A pointer's counterpart in the native system is itself if it is native, else untyped. -/
theorem nativePointer_built (sound : registry.Sound) (built : build registry .native = .ok map)
    (normal : name.IsNormal) (pointer : name.isPointer = true) :
    map.nativePointer (name.text.length + 1) name =
      if name.system = .native then name else .native "void *" := by
  by_cases native : name.system = .native
  · obtain ⟨system, spelling, rfl⟩ := normal
    cases system with
    | arrayLib => cases pointer
    | ffi => cases native
    | native =>
        obtain ⟨base, depth, isBase, same⟩ := TypeName.exists_starred spelling
        rw [if_pos native]
        simp only [TypeName.normal, same] at pointer ⊢
        cases depth with
        | zero => cases pointer
        | succ depth =>
            refine nativePointer_starred (fun _ _ => get?_native sound built) isBase depth _ ?_
            simp [TypeName.starred, TypeName.stars]
            omega
  · have none : name.pointee = none := by simp [TypeName.pointee, native]
    rw [if_neg native, nativePointer, none]

/-- The counterpart of a registered type that is no pointer means the same. -/
theorem resolve_plain (sound : registry.Sound) (built : build registry target = .ok map)
    (plain : name.isPointer = false) (known : registry.info? name = some info)
    (resolved : map.resolve name = .ok other) :
    other.system = target ∧ registry.info? other = some info ∧
      (name.system = target → other = name) := by
  rw [resolve, if_neg (by simp [plain])] at resolved
  cases found : map.get? name with
  | none => simp [found] at resolved
  | some counterpart =>
      rw [found] at resolved
      cases resolved
      obtain ⟨info', known', counterpart⟩ := get?_built sound built found
      cases known.symm.trans known'
      exact counterpart.agrees sound known

/-- The counterparts of pointers. -/
theorem resolve_pointer (sound : registry.Sound) (built : build registry target = .ok map)
    (normal : name.IsNormal) (pointer : name.isPointer = true)
    (resolved : map.resolve name = .ok other) :
    match target with
    | .native => other = if name.system = .native then name else .native "void *"
    | .arrayLib => other.system = .arrayLib ∧
        registry.info? other = some (.unsigned TypeInfo.wordSize)
    | .ffi => other = .ffiPointer := by
  rw [resolve, if_pos pointer, resolvePointer, target_built sound built] at resolved
  cases target with
  | native =>
      rw [← Except.ok.inj resolved]
      exact nativePointer_built sound built normal pointer
  | ffi => exact (Except.ok.inj resolved).symm
  | arrayLib =>
      cases found : map.pointer with
      | none => simp [found] at resolved
      | some address =>
          rw [found] at resolved
          cases resolved
          exact pointer_built sound built found

end TypeMap

namespace Session

variable {unsized : List String} {machine : Machine} {session after : Session}
  {bench last : Workbench} {name : TypeName}

/-- A map that is answered is one that is built from what is registered then. -/
theorem typeMap_built {target : TypeSystem} {map : TypeMap} (steady : session.Steady)
    (ran : (typeMap machine target).run (session, bench) = (.ok map, after, last)) :
    TypeMap.build after.registry target = .ok map := by
  rw [typeMap_eq] at ran
  obtain ⟨_, ⟨middle, middle'⟩, first, second⟩ := Step.exists_of_run_bind_ok ran
  have changes := (ensureNative_leads machine [] : Leads [] _).of_run first
  obtain ⟨maps, same⟩ := (changes.steady steady).coherent.storedMap target middle'
  rw [same] at second
  obtain ⟨built, rest⟩ := Prod.mk.inj second
  rw [← (Prod.mk.inj rest).1]
  exact built

/-- The counterpart of a type comes from a map that is built from what is registered then. -/
theorem counterpart_built {target : TypeSystem} {other : TypeName} (steady : session.Steady)
    (ran : (counterpart machine target name).run (session, bench) = (.ok other, after, last)) :
    after.Steady ∧ session.registry.Grows after.registry ∧
      ∃ map, TypeMap.build after.registry target = .ok map ∧ map.resolve name = .ok other := by
  have changes := (counterpart_leads machine target name : Leads [] _).of_run ran
  obtain ⟨map, ⟨middle, middle'⟩, first, second⟩ := Step.exists_of_run_bind_ok ran
  obtain ⟨resolved, rest⟩ := Prod.mk.inj second
  obtain ⟨rfl, rfl⟩ := Prod.mk.inj rest
  exact ⟨changes.steady steady, changes.grows, map, typeMap_built steady first, resolved⟩

/-- The facts about a type that is no pointer are registered. -/
theorem ownInfo_registered {info : TypeInfo} (plain : name.isPointer = false)
    (ran : (ownInfo machine name).run (session, bench) = (.ok info, after, last)) :
    after.registry.info? name = some info := by
  have registered : ∀ {state}, (registeredInfo name).run state = (.ok info, after, last) →
      after.registry.info? name = some info := by
    intro state ran
    rw [run_registeredInfo] at ran
    obtain ⟨found, rfl⟩ := Prod.mk.inj ran
    cases known : after.registry.info? name with
    | none => simp [known] at found
    | some other => simpa [known] using found
  rw [ownInfo, if_neg (by simp [plain])] at ran
  split at ran
  · obtain ⟨_, middle, -, ran⟩ := Step.exists_of_run_bind_ok ran
    exact registered ran
  · exact registered ran

/-- The names of a scalar come from three maps, each built from what was registered then. The facts
about the scalar were registered before. -/
theorem resolve_parts (steady : session.Steady) {scalar : ResolvedScalar}
    (ran : (resolve machine name).run (session, bench) = (.ok scalar, after, last)) :
    (name.isPointer = true → scalar.info = .pointer) ∧
    ∀ system, ∃ registry map, registry.Sound ∧ registry.Grows after.registry ∧
      TypeMap.build registry system = .ok map ∧
      map.resolve name = .ok (scalar.inSystem system) ∧
      (name.isPointer = false → registry.info? name = some scalar.info) := by
  rw [resolve_eq] at ran
  obtain ⟨info, ⟨known, _⟩, own, ran⟩ := Step.exists_of_run_bind_ok ran
  obtain ⟨native, ⟨first, _⟩, ranNative, ran⟩ := Step.exists_of_run_bind_ok ran
  obtain ⟨arrayLib, ⟨second, _⟩, ranArrayLib, ran⟩ := Step.exists_of_run_bind_ok ran
  obtain ⟨ffi, ⟨third, _⟩, ranFfi, ran⟩ := Step.exists_of_run_bind_ok ran
  rw [Step.run_pure] at ran
  cases ran
  have steady := ((ownInfo_leads machine name : Leads [] _).of_run own).steady steady
  obtain ⟨steady₁, grows₁, map₁, built₁, resolved₁⟩ := counterpart_built steady ranNative
  obtain ⟨steady₂, grows₂, map₂, built₂, resolved₂⟩ := counterpart_built steady₁ ranArrayLib
  obtain ⟨steady₃, grows₃, map₃, built₃, resolved₃⟩ := counterpart_built steady₂ ranFfi
  constructor
  · intro pointer
    rw [ownInfo, if_pos pointer, Step.run_pure] at own
    exact (Except.ok.inj (Prod.mk.inj own).1).symm
  -- The registry may grow behind each map, so that the facts are carried from one to the next.
  · intro system
    cases system with
    | native =>
        exact ⟨_, map₁, steady₁.sound, grows₂.trans grows₃, built₁, resolved₁,
          fun plain => grows₁.info? (ownInfo_registered plain own)⟩
    | arrayLib =>
        exact ⟨_, map₂, steady₂.sound, grows₃, built₂, resolved₂,
          fun plain => (grows₁.trans grows₂).info? (ownInfo_registered plain own)⟩
    | ffi =>
        exact ⟨_, map₃, steady₃.sound, .refl _, built₃, resolved₃,
          fun plain => ((grows₁.trans grows₂).trans grows₃).info? (ownInfo_registered plain own)⟩

/-- A scalar has one name in each system, and they all mean the same. The names of a scalar that is
no pointer are registered with its facts, and one of them is the name asked about. A pointer is
untyped in the foreign-function system and an unsigned integer of its size in the array library; a
native pointer is itself. -/
theorem resolve_agrees (reached : Reached unsized session) (normal : name.IsNormal)
    {scalar : ResolvedScalar}
    (ran : (resolve machine name).run (session, bench) = (.ok scalar, after, last)) :
    (∀ system, (scalar.inSystem system).system = system) ∧
    (name.isPointer = false →
      (∀ system, after.registry.info? (scalar.inSystem system) = some scalar.info) ∧
      scalar.inSystem name.system = name) ∧
    (name.isPointer = true →
      scalar.info = .pointer ∧ scalar.ffi = .ffiPointer ∧
      after.registry.info? scalar.arrayLib = some (.unsigned TypeInfo.wordSize) ∧
      scalar.native = if name.system = .native then name else .native "void *") := by
  obtain ⟨own, parts⟩ := resolve_parts reached.steady ran
  cases pointer : name.isPointer with
  | false =>
      have plain : ∀ system, (scalar.inSystem system).system = system ∧
          after.registry.info? (scalar.inSystem system) = some scalar.info ∧
          (name.system = system → scalar.inSystem system = name) := by
        intro system
        obtain ⟨registry, map, sound, grows, built, resolved, known⟩ := parts system
        obtain ⟨inside, same, own⟩ :=
          TypeMap.resolve_plain sound built pointer (known pointer) resolved
        exact ⟨inside, grows.info? same, own⟩
      refine ⟨fun system => (plain system).1, fun _ => ⟨fun system => (plain system).2.1, ?_⟩, ?_⟩
      · exact (plain name.system).2.2 rfl
      · intro absurd
        cases absurd
  | true =>
      obtain ⟨_, _, sound₁, -, built₁, resolved₁, -⟩ := parts .native
      obtain ⟨_, _, sound₂, grows₂, built₂, resolved₂, -⟩ := parts .arrayLib
      obtain ⟨_, _, sound₃, -, built₃, resolved₃, -⟩ := parts .ffi
      have native : scalar.native = if name.system = .native then name else .native "void *" :=
        TypeMap.resolve_pointer sound₁ built₁ normal pointer resolved₁
      obtain ⟨inside, address⟩ :=
        TypeMap.resolve_pointer sound₂ built₂ normal pointer resolved₂
      have ffi : scalar.ffi = .ffiPointer :=
        TypeMap.resolve_pointer sound₃ built₃ normal pointer resolved₃
      refine ⟨fun system => ?_, ?_, fun _ => ⟨own pointer, ffi, grows₂.info? address, native⟩⟩
      · cases system with
        | native =>
            rw [ResolvedScalar.inSystem, native]
            split
            · assumption
            · rfl
        | arrayLib => exact inside
        | ffi =>
            rw [ResolvedScalar.inSystem, ffi]
            rfl
      · intro absurd
        cases absurd

/-- A short integer goes by its name in each system; a pointer to a type that nobody registered is
itself. -/
theorem resolve_agrees_wordSession :
    let bench : Workbench := .fresh "/tmp" .empty
    let short : ResolvedScalar :=
      ⟨.native "unsigned short", .arrayLib "uint16", .ffi "c_uint16", .unsigned 2⟩
    let handle : ResolvedScalar :=
      ⟨.native "Vertex **", .arrayLib "uint64", .ffiPointer, .pointer⟩
    Reached [] wordSession ∧ (TypeName.ffi "c_uint16").IsNormal ∧
      (∃ after, (resolve (printing "") (.ffi "c_uint16")).run (wordSession, bench) =
          (.ok short, after) ∧
        ∀ system, after.1.registry.info? (short.inSystem system) = some (.unsigned 2)) ∧
      (TypeName.native "Vertex **").IsNormal ∧
      ∃ after, (resolve (printing "") (.native "Vertex **")).run (wordSession, bench) =
          (.ok handle, after) ∧
        after.1.registry.info? (.arrayLib "uint64") = some (.unsigned 8) := by
  intro bench short handle
  have answers : ((resolve (printing "") (.ffi "c_uint16")).run (wordSession, bench)).1 =
        .ok short ∧
      ((resolve (printing "") (.native "Vertex **")).run (wordSession, bench)).1 = .ok handle := by
    decide +kernel
  obtain ⟨answer, answer'⟩ := answers
  obtain ⟨⟨after, last⟩, ran⟩ := Step.exists_of_fst answer
  obtain ⟨⟨after', last'⟩, ran'⟩ := Step.exists_of_fst answer'
  have normal : (TypeName.ffi "c_uint16").IsNormal := ⟨.ffi, "c_uint16", rfl⟩
  have normal' : (TypeName.native "Vertex **").IsNormal := ⟨.native, "Vertex **", rfl⟩
  have plain : (TypeName.ffi "c_uint16").isPointer = false := by decide +kernel
  have pointer : (TypeName.native "Vertex **").isPointer = true := by decide +kernel
  refine ⟨reached_wordSession, normal, ⟨_, ran, ?_⟩, normal', _, ran', ?_⟩
  · exact ((resolve_agrees reached_wordSession normal ran).2.1 plain).1
  · exact ((resolve_agrees reached_wordSession normal' ran').2.2 pointer).2.2.1

end Session

end TypeBridge
