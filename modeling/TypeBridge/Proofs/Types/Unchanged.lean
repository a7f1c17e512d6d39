import TypeBridge.Proofs.Types.Resolving

/-!
# Requests that leave the registry alone

All that a request for a scalar does to the registry is to add types at its end (`Appends`), so that
a registry that is the same behind a request was the same all along. Such a request answers with the
names that the maps of this one registry give (`Registry.Names`), whatever was asked before. Where
no registered type is a pointer, the native name of a scalar tells all that is known of it
(`Registry.Names.meaning`).
-/

namespace TypeBridge

/-- A native name in normal form is the normal form of its text. -/
theorem TypeName.IsNormal.native_text {name : TypeName} (normal : name.IsNormal)
    (native : name.system = .native) : TypeName.native name.text = name := by
  obtain ⟨system, spelling, rfl⟩ := normal
  cases system with
  | native => exact TypeName.native_text spelling
  | arrayLib => cases native
  | ffi => cases native

namespace Registry

variable {registry before middle after : Registry} {name : TypeName} {info : TypeInfo}

/-! ## Registries that begin others -/

/-- Types were added at the end, and those that were there are as and where they were. -/
structure Begins (before after : Registry) : Prop where
  entries : before.entries <+: after.entries
  places : ∀ name place, before.position? name = some place → after.position? name = some place

theorem Begins.refl (registry : Registry) : registry.Begins registry :=
  ⟨List.prefix_rfl, fun _ _ found => found⟩

/-- Types that were added twice over were added at the end. -/
theorem Begins.trans (first : before.Begins middle) (last : middle.Begins after) :
    before.Begins after :=
  ⟨first.entries.trans last.entries,
    fun name place found => last.places name place (first.places name place found)⟩

/-- A type whose name is not registered is added at the end. -/
theorem begins_insert (unknown : registry.info? name = none) (info : TypeInfo) :
    registry.Begins (registry.insert name info) :=
  ⟨List.prefix_append _ _, fun _ _ => position?_insert_of_known unknown⟩

/-- Registries with the same entries are the same. -/
theorem eq_of_entries_eq (same : before.entries = after.entries) : before = after := by
  obtain ⟨entries, _, rfl⟩ := before
  obtain ⟨_, _, rfl⟩ := after
  cases same
  rfl

/-- Between two registries that are the same there is no other. -/
theorem Begins.eq_of_between (first : registry.Begins middle) (last : middle.Begins registry) :
    middle = registry :=
  eq_of_entries_eq (last.entries.eq_of_length_le first.entries.length_le)

/-- A registry that is as large as one that it begins is the same. -/
theorem Begins.eq_of_size (begins : before.Begins after) (sameSize : after.size = before.size) :
    after = before :=
  (eq_of_entries_eq (begins.entries.eq_of_length sameSize.symm)).symm

/-! ## Registered facts -/

/-- No registered type is a pointer, and each goes by a name in normal form. -/
def Plain (registry : Registry) : Prop :=
  ∀ entry ∈ registry.entries, entry.name.isPointer = false ∧ entry.name.IsNormal

/-- A registry stays plain when a type without a star is added under a normal name. -/
theorem Plain.insert (plain : registry.Plain) (single : name.isPointer = false)
    (normal : name.IsNormal) (info : TypeInfo) : (registry.insert name info).Plain :=
  List.forall_mem_append.mpr ⟨plain, List.forall_mem_singleton.mpr ⟨single, normal⟩⟩

/-- A registry stays plain when such types are added in turn. -/
theorem Plain.inserts {facts : List (TypeName × TypeInfo)} (plain : registry.Plain)
    (all : ∀ fact ∈ facts, fact.1.isPointer = false ∧ fact.1.IsNormal) :
    (facts.foldl (fun registry (name, info) => registry.insert name info) registry).Plain := by
  induction facts generalizing registry with
  | nil => exact plain
  | cons fact rest ih =>
      obtain ⟨⟨single, normal⟩, later⟩ := List.forall_mem_cons.mp all
      exact ih (plain.insert single normal fact.2) later

/-- The types that are registered from the start make a plain registry. -/
theorem plain_fixed : fixed.Plain := by
  refine Plain.inserts nofun (List.forall_mem_append.mpr ⟨?_, ?_⟩)
  · refine List.forall_mem_map.mpr fun fact _ => ⟨rfl, .arrayLib, fact.1, rfl⟩
  · have single : ∀ fact ∈ Builtin.ffiTable, (TypeName.ffi fact.1).isPointer = false := by
      decide +kernel
    exact List.forall_mem_map.mpr fun fact listed => ⟨single fact listed, .ffi, fact.1, rfl⟩

/-- What is registered in a plain registry is no pointer and goes by a normal name. -/
theorem Plain.of_info? (plain : registry.Plain) (known : registry.info? name = some info) :
    name.isPointer = false ∧ name.IsNormal := by
  obtain ⟨entry, present, rfl, -⟩ := exists_of_info? known
  exact plain entry present

end Registry

/-- A registry stays plain when facts about native types are handed over that are no pointers. -/
theorem Session.plain_registerNatives {facts : List (String × TypeInfo)} {session : Session}
    (plain : session.registry.Plain)
    (single : ∀ fact ∈ facts, (TypeName.native fact.1).isPointer = false) :
    ((registerNatives facts).run session).2.registry.Plain := by
  induction facts generalizing session with
  | nil => exact plain
  | cons fact rest ih =>
      obtain ⟨spelling, info⟩ := fact
      obtain ⟨first, later⟩ := List.forall_mem_cons.mp single
      have next : ((registerNative spelling info).run session).2.registry.Plain := by
        have same := session.registry_markProbed (TypeName.native spelling).text
        rw [run_registerNative]
        rcases (session.markProbed (TypeName.native spelling).text).register_cases
          (.native spelling) info with ⟨-, ran⟩ | ⟨-, kept⟩ | ⟨-, -, grown⟩
        · rw [ran, same]
          exact plain
        · rw [kept, same]
          exact plain
        · rw [grown, same]
          exact plain.insert first ⟨.native, spelling, rfl⟩ info
      rw [registerNatives, Step.run_bind]
      cases ran : (registerNative spelling info).run session with
      | mk result after =>
          rw [ran] at next
          cases result with
          | ok inserted => exact ih next later
          | error fault => exact next

/-- A session that was told facts about types without a star has a plain registry. -/
theorem Session.plain_toldFirst (facts : List (String × TypeInfo))
    (single : ∀ fact ∈ facts, (TypeName.native fact.1).isPointer = false) :
    (toldFirst facts).registry.Plain :=
  plain_registerNatives Registry.plain_fixed single

/-- So has the session that was told the usual words. -/
theorem Session.plain_wordSession : wordSession.registry.Plain :=
  plain_toldFirst Scripted.wordTypes (by decide +kernel)

/-! ## Steps that only add types -/

namespace Session

variable {machine : Machine} {session after : Session} {bench last : Workbench} {name : TypeName}
  {scalar : ResolvedScalar}

/-- A step only adds types to the registry. -/
def Appends {α : Type} (step : SessionStep α) : Prop :=
  ∀ state : Session × Workbench, state.1.registry.Begins (step.run state).2.1.registry

/-- A step that leaves the registry alone adds nothing to it. -/
theorem Appends.of_same {α : Type} {step : SessionStep α}
    (same : ∀ state, (step.run state).2.1.registry = state.1.registry) : Appends step := by
  intro state
  rw [same]
  exact .refl _

theorem Appends.of_run {α : Type} {step : SessionStep α} {result : Except TypeFault α}
    (appends : Appends step) (ran : step.run (session, bench) = (result, after, last)) :
    session.registry.Begins after.registry := by
  have begins := appends (session, bench)
  rw [ran] at begins
  exact begins

/-- What a sequence adds are the types that its steps add. -/
theorem Appends.bind {α β : Type} {step : SessionStep α} {next : α → SessionStep β}
    (first : Appends step) (rest : ∀ answer, Appends (next answer)) : Appends (step >>= next) := by
  intro state
  have begins := first state
  rw [Step.run_bind]
  cases ran : step.run state with
  | mk result middle =>
      rw [ran] at begins
      cases result with
      | ok answer => exact begins.trans (rest answer middle)
      | error fault => exact begins

/-- Facts that can be taken in are only added to the registry. -/
theorem Fresh.begins {facts : List (TypeName × TypeInfo)} (fresh : session.Fresh facts) :
    session.registry.Begins (session.noting facts).registry := by
  induction facts generalizing session with
  | nil => exact .refl _
  | cons fact rest ih =>
      have first : session.registry.Begins (session.noting [fact]).registry :=
        Registry.begins_insert (fresh.unknown fact List.mem_cons_self) fact.2
      rw [← noting_cons]
      exact first.trans (ih fresh.behind)

/-- Learning facts adds types at the end of the registry. -/
theorem Learning.begins {names : List String} {result : Except TypeFault Unit}
    (learning : Learning machine session bench (session.missing names) (result, after, last)) :
    session.registry.Begins after.registry := by
  cases learning with
  | idle => exact .refl _
  | failed => exact .refl _
  | learned some took named => exact (fresh_of_named named took.named.2).begins

/-- Probing native names only adds types. -/
theorem ensureNative_appends (machine : Machine) (names : List String) :
    Appends (ensureNative machine names) :=
  fun (session, bench) => (ensureNative_learning machine session names bench).begins

/-- Looking facts up adds no types. -/
theorem registeredInfo_appends (name : TypeName) : Appends (registeredInfo name) :=
  .of_same fun _ => by rw [run_registeredInfo]

/-- Building or looking up a map adds no types. -/
theorem storedMap_appends (target : TypeSystem) : Appends (storedMap target) := by
  refine .of_same fun (session, bench) => ?_
  rw [storedMap, Step.run_bind, Step.run_get]
  dsimp only
  cases session.maps.lookup target with
  | some map => rfl
  | none =>
      dsimp only
      rw [Step.run_onFirst, run_buildMap]
      cases TypeMap.build session.registry target with
      | error fault => rfl
      | ok map => rfl

/-- Asking for a counterpart only adds types. -/
theorem counterpart_appends (machine : Machine) (target : TypeSystem) (name : TypeName) :
    Appends (counterpart machine target name) :=
  .bind (.bind (ensureNative_appends machine []) fun _ => storedMap_appends target)
    fun _ => .of_same fun _ => rfl

/-- Asking for the facts about a name in its own system only adds types. -/
theorem ownInfo_appends (machine : Machine) (name : TypeName) :
    Appends (ownInfo machine name) := by
  unfold ownInfo
  split
  · exact .of_same fun _ => rfl
  · split
    · exact .bind (ensureNative_appends machine _) fun _ => registeredInfo_appends name
    · exact registeredInfo_appends name

/-- Resolving a name only adds types. -/
theorem resolve_appends (machine : Machine) (name : TypeName) :
    Appends (resolve machine name) := by
  rw [resolve_eq]
  refine .bind (ownInfo_appends machine name) fun info => ?_
  refine .bind (counterpart_appends machine .native name) fun native => ?_
  refine .bind (counterpart_appends machine .arrayLib name) fun arrayLib => ?_
  refine .bind (counterpart_appends machine .ffi name) fun ffi => ?_
  exact .of_same fun _ => rfl

end Session

/-! ## Scalars named by one registry -/

/-- A scalar with the names that the maps of a registry give, and with the facts registered
there. -/
structure Registry.Names (registry : Registry) (name : TypeName) (scalar : ResolvedScalar) :
    Prop where
  info : if name.isPointer then scalar.info = .pointer else registry.info? name = some scalar.info
  mapped : ∀ system, ∃ map, TypeMap.build registry system = .ok map ∧
    map.resolve name = .ok (scalar.inSystem system)

namespace Session

variable {machine : Machine} {session after : Session} {bench last : Workbench} {name : TypeName}
  {scalar : ResolvedScalar}

/-- A request that leaves the registry alone answers with what the registry calls a scalar. -/
theorem names_of_resolve (steady : session.Steady)
    (ran : (resolve machine name).run (session, bench) = (.ok scalar, after, last))
    (unchanged : after.registry = session.registry) : session.registry.Names name scalar := by
  rw [resolve_eq] at ran
  obtain ⟨info, ⟨known, _⟩, own, ran⟩ := Step.exists_of_run_bind_ok ran
  obtain ⟨native, ⟨first, _⟩, ranNative, ran⟩ := Step.exists_of_run_bind_ok ran
  obtain ⟨arrayLib, ⟨second, _⟩, ranArrayLib, ran⟩ := Step.exists_of_run_bind_ok ran
  obtain ⟨ffi, ⟨third, _⟩, ranFfi, ran⟩ := Step.exists_of_run_bind_ok ran
  rw [Step.run_pure] at ran
  cases ran
  -- The registry is the same behind all four steps, so it is behind each of them.
  have begins₀ := (ownInfo_appends machine name).of_run own
  have begins₁ := begins₀.trans ((counterpart_appends machine .native name).of_run ranNative)
  have begins₂ := begins₁.trans ((counterpart_appends machine .arrayLib name).of_run ranArrayLib)
  have ends₂ := (counterpart_appends machine .ffi name).of_run ranFfi
  have ends₁ := ((counterpart_appends machine .arrayLib name).of_run ranArrayLib).trans ends₂
  have ends₀ := ((counterpart_appends machine .native name).of_run ranNative).trans ends₁
  rw [unchanged] at ends₀ ends₁ ends₂
  have same₀ := begins₀.eq_of_between ends₀
  have same₁ := begins₁.eq_of_between ends₁
  have same₂ := begins₂.eq_of_between ends₂
  have steady₀ := ((ownInfo_leads machine name : Leads [] _).of_run own).steady steady
  obtain ⟨steady₁, -, map₁, built₁, resolved₁⟩ := counterpart_built steady₀ ranNative
  obtain ⟨steady₂, -, map₂, built₂, resolved₂⟩ := counterpart_built steady₁ ranArrayLib
  obtain ⟨-, -, map₃, built₃, resolved₃⟩ := counterpart_built steady₂ ranFfi
  rw [same₁] at built₁
  rw [same₂] at built₂
  rw [unchanged] at built₃
  constructor
  · split
    · rename_i pointer
      rw [ownInfo, if_pos pointer, Step.run_pure] at own
      exact (Except.ok.inj (Prod.mk.inj own).1).symm
    · rename_i plain
      exact same₀ ▸ ownInfo_registered (by simpa using plain) own
  · intro system
    cases system with
    | native => exact ⟨map₁, built₁, resolved₁⟩
    | arrayLib => exact ⟨map₂, built₂, resolved₂⟩
    | ffi => exact ⟨map₃, built₃, resolved₃⟩

/-- In the array library a scalar goes by a registered name with the facts about it; a pointer is an
unsigned integer of its size there. -/
theorem resolve_arrayLib (steady : session.Steady)
    (ran : (resolve machine name).run (session, bench) = (.ok scalar, after, last)) :
    scalar.arrayLib.system = .arrayLib ∧ scalar.info.size.isSome ∧
      after.registry.info? scalar.arrayLib =
        some (if name.isPointer then .unsigned TypeInfo.wordSize else scalar.info) ∧
      (name.isPointer → scalar.info = .pointer) := by
  obtain ⟨own, parts⟩ := resolve_parts steady ran
  obtain ⟨registry, map, sound, grows, built, resolved, known⟩ := parts .arrayLib
  cases pointer : name.isPointer with
  | false =>
      obtain ⟨inside, registered, -⟩ :=
        TypeMap.resolve_plain sound built pointer (known pointer) resolved
      exact ⟨inside, sound.sized_of_info? registered, grows.info? registered, nofun⟩
  | true =>
      rw [TypeMap.resolve, if_pos pointer, TypeMap.resolvePointer,
        TypeMap.target_built sound built] at resolved
      dsimp only at resolved
      have sized : scalar.info.size.isSome := by
        rw [own pointer]
        rfl
      cases found : map.pointer with
      | none => simp [found] at resolved
      | some address =>
          rw [found] at resolved
          have same : address = scalar.arrayLib := Except.ok.inj resolved
          obtain ⟨inside, registered⟩ := TypeMap.pointer_built sound built found
          rw [same] at inside registered
          exact ⟨inside, sized, grows.info? registered, fun _ => own pointer⟩

end Session

/-! ## What a native name tells -/

namespace TypeMap

variable {registry : Registry} {map : TypeMap}

/-- Following a native pointer leads to a name in normal form. -/
theorem exists_starred_of_pointee {name pointee : TypeName} (follows : name.pointee = some pointee) :
    ∃ base depth, TypeName.IsBase base ∧ pointee = TypeName.starred base depth := by
  unfold TypeName.pointee at follows
  split at follows
  · cases follows
  · split at follows
    · rw [← Option.some.inj follows]
      exact TypeName.exists_starred _
    · cases follows

/-- A pointer's counterpart in the native system is a pointer in normal form. -/
theorem nativePointer_eq_starred (sound : registry.Sound)
    (built : build registry .native = .ok map) (fuel : Nat) (name : TypeName) :
    ∃ base depth, TypeName.IsBase base ∧
      map.nativePointer fuel name = TypeName.starred base (depth + 1) := by
  have untyped : ∃ base depth, TypeName.IsBase base ∧
      TypeName.native "void *" = TypeName.starred base (depth + 1) := by
    obtain ⟨base, depth, isBase, same⟩ := TypeName.exists_starred "void *"
    have pointer : (TypeName.native "void *").isPointer = true := by decide +kernel
    rw [same] at pointer
    cases depth with
    | zero => cases pointer
    | succ depth => exact ⟨base, depth, isBase, same⟩
  induction fuel generalizing name with
  | zero => exact untyped
  | succ fuel ih =>
      rw [nativePointer]
      cases follows : name.pointee with
      | none => exact untyped
      | some pointee =>
          dsimp only
          split
          · obtain ⟨base, depth, isBase, same⟩ := ih pointee
            exact ⟨base, depth + 1, isBase, by rw [same, TypeName.pointerTo_starred isBase]⟩
          · obtain ⟨base, depth, isBase, rfl⟩ := exists_starred_of_pointee follows
            have kept : (map.get? (TypeName.starred base depth)).getD
                (TypeName.starred base depth) = TypeName.starred base depth := by
              cases found : map.get? (TypeName.starred base depth) with
              | none => rfl
              | some other => exact get?_native sound built rfl found
            exact ⟨base, depth, isBase, by rw [kept, TypeName.pointerTo_starred isBase]⟩

end TypeMap

namespace Registry

variable {registry : Registry} {name name' : TypeName} {scalar scalar' : ResolvedScalar}

/-- What the text of a native name tells in a registry: what is registered, unless it is the text of
a pointer. -/
def meaning (registry : Registry) (text : String) : Option TypeInfo :=
  if (TypeName.native text).isPointer then some .pointer else registry.info? (.native text)

/-- A registry has one answer for a name. -/
theorem Names.unique (names : registry.Names name scalar) (names' : registry.Names name scalar') :
    scalar = scalar' := by
  have sameNames : ∀ system, scalar.inSystem system = scalar'.inSystem system := by
    intro system
    obtain ⟨map, built, resolved⟩ := names.mapped system
    obtain ⟨map', built', resolved'⟩ := names'.mapped system
    cases Except.ok.inj (built.symm.trans built')
    exact Except.ok.inj (resolved.symm.trans resolved')
  have sameInfo : scalar.info = scalar'.info := by
    have known := names.info
    have known' := names'.info
    split at known
    · rw [if_pos (by assumption)] at known'
      exact known.trans known'.symm
    · rw [if_neg (by assumption)] at known'
      exact Option.some.inj (known.symm.trans known')
  obtain ⟨native, arrayLib, ffi, info⟩ := scalar
  obtain ⟨native', arrayLib', ffi', info'⟩ := scalar'
  cases sameNames .native
  cases sameNames .arrayLib
  cases sameNames .ffi
  cases sameInfo
  rfl

/-- The native name of a scalar is in normal form, and a pointer's if and only if the scalar was
named by a pointer. -/
theorem Names.native_normal (sound : registry.Sound) (plain : registry.Plain)
    (names : registry.Names name scalar) :
    TypeName.native scalar.native.text = scalar.native ∧
      scalar.native.isPointer = name.isPointer := by
  obtain ⟨map, built, resolved⟩ := names.mapped .native
  cases pointer : name.isPointer with
  | false =>
      have known := names.info
      rw [if_neg (by simp [pointer])] at known
      obtain ⟨inside, registered, -⟩ := TypeMap.resolve_plain sound built pointer known resolved
      obtain ⟨single, normal⟩ := plain.of_info? registered
      exact ⟨normal.native_text inside, single⟩
  | true =>
      rw [TypeMap.resolve, if_pos pointer, TypeMap.resolvePointer,
        TypeMap.target_built sound built] at resolved
      have same : map.nativePointer (name.text.length + 1) name = scalar.native :=
        Except.ok.inj resolved
      obtain ⟨base, depth, isBase, starred⟩ :=
        TypeMap.nativePointer_eq_starred sound built (name.text.length + 1) name
      rw [← same, starred]
      exact ⟨TypeName.native_text_starred isBase (depth + 1), rfl⟩

/-- The facts about a scalar are those that its native name tells. -/
theorem Names.meaning (sound : registry.Sound) (plain : registry.Plain)
    (names : registry.Names name scalar) :
    registry.meaning scalar.native.text = some scalar.info := by
  obtain ⟨normal, pointers⟩ := names.native_normal sound plain
  have known := names.info
  rw [Registry.meaning, normal, pointers]
  cases pointer : name.isPointer with
  | true =>
      rw [if_pos pointer] at known
      rw [if_pos rfl, known]
  | false =>
      rw [if_neg (by simp [pointer])] at known
      rw [if_neg Bool.false_ne_true]
      obtain ⟨map, built, resolved⟩ := names.mapped .native
      exact (TypeMap.resolve_plain sound built pointer known resolved).2.1

/-- Scalars with the same native name are alike. -/
theorem Names.alike (sound : registry.Sound) (plain : registry.Plain)
    (names : registry.Names name scalar) (names' : registry.Names name' scalar')
    (same : scalar.native.text = scalar'.native.text) :
    scalar.info = scalar'.info ∧ name.isPointer = name'.isPointer := by
  obtain ⟨normal, pointers⟩ := names.native_normal sound plain
  obtain ⟨normal', pointers'⟩ := names'.native_normal sound plain
  constructor
  · have meaning := names.meaning sound plain
    rw [same, names'.meaning sound plain] at meaning
    exact (Option.some.inj meaning).symm
  · rw [← pointers, ← pointers', ← normal, ← normal', same]

end Registry

end TypeBridge
