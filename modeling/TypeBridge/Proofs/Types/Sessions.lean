import TypeBridge.Proofs.Types.Changing
import TypeBridge.Proofs.Types.Learning

/-!
# Sessions that calls lead to

All that a call does to a session is to make changes, whether it answers or fails (`Leads`).
`Session.Reached` sessions are those that calls lead to from the start; with them goes the list of
the native names for which facts without a size were handed over. What a change keeps holds of every
such session (`Reached.traced`, `Reached.steady`, `Reached.excused`).
-/

namespace TypeBridge.Session

variable {unsized : List String} {session before after : Session} {text : String}
  {name : TypeName} {info : TypeInfo}

/-! ## Changes that calls make -/

/-- The three ways in which a registration ends: without a size it is refused, for a registered
type nothing changes, and a new type is added. -/
theorem register_cases (session : Session) (name : TypeName) (info : TypeInfo) :
    (info.size = none ∧ (register name info).run session = (.error (.unsized name), session)) ∨
    (session.registry.contains name ∧ ((register name info).run session).2 = session) ∨
    (session.registry.info? name = none ∧ info.size.isSome ∧
      ((register name info).run session).2 =
        { session with registry := session.registry.insert name info, maps := [] }) := by
  have ends := session.registry.register_ends name info
  rw [register, Step.run_bind, run_onRegistry]
  generalize (Registry.register name info).run session.registry = outcome at ends ⊢
  cases ends with
  | unsized unsized => exact .inl ⟨unsized, rfl⟩
  | new sized unknown => exact .inr (.inr ⟨unknown, sized, rfl⟩)
  | again sized known => exact .inr (.inl ⟨Registry.contains_iff.mpr ⟨info, known⟩, rfl⟩)
  | duplicate sized known other =>
      exact .inr (.inl ⟨Registry.contains_iff.mpr ⟨_, known⟩, rfl⟩)

/-- A registration is a change of the session, or none. -/
theorem register_changes (session : Session) (name : TypeName) (info : TypeInfo) :
    Changes unsized session ((register name info).run session).2 := by
  rcases session.register_cases name info with ⟨-, ran⟩ | ⟨-, same⟩ | ⟨unknown, sized, grown⟩
  · rw [ran]
    exact .refl
  · rw [same]
    exact .refl
  · rw [grown]
    exact .single (.inserted name info unknown sized)

/-- A name can be noted before or after its type is registered. -/
theorem markProbed_insert (session : Session) (text : String) (name : TypeName)
    (info : TypeInfo) :
    { session.markProbed text with
      registry := (session.markProbed text).registry.insert name info, maps := [] } =
    { session with registry := session.registry.insert name info, maps := [] }.markProbed text := by
  unfold markProbed
  split
  · rfl
  · rfl

/-- A native type is registered under its name, which is noted before. -/
theorem run_registerNative (spelling : String) (info : TypeInfo) (session : Session) :
    (registerNative spelling info).run session =
      (register (.native spelling) info).run
        (session.markProbed (TypeName.native spelling).text) := rfl

/-- A name whose facts are handed over is noted, even if they are refused. -/
theorem registerNative_changes (session : Session) (spelling : String) (info : TypeInfo)
    (excused : info.size = none → (TypeName.native spelling).text ∈ unsized) :
    Changes unsized session ((registerNative spelling info).run session).2 := by
  let name := TypeName.native spelling
  have normal : TypeName.native name.text = name := TypeName.native_text spelling
  rw [run_registerNative]
  rcases (session.markProbed name.text).register_cases name info with
    ⟨none, ran⟩ | ⟨known, same⟩ | ⟨unknown, sized, grown⟩
  · rw [ran]
    exact .single (.noted name.text (.inr (excused none)))
  · rw [same]
    rw [registry_markProbed] at known
    exact .single (.noted name.text (.inl (normal.symm ▸ known)))
  · rw [grown, markProbed_insert]
    rw [registry_markProbed] at unknown
    refine .tail (.single (.inserted name info unknown sized)) (.noted name.text (.inl ?_))
    rw [normal]
    exact Registry.contains_insert.mpr (.inr rfl)

/-- A preference is a change of the session, or none. -/
theorem prefer_changes (session : Session) (name : TypeName) :
    Changes unsized session ((prefer name).run session).2 := by
  have ends := session.registry.prefer_ends name
  rw [prefer, Step.run_bind, run_onRegistry]
  generalize (Registry.prefer name).run session.registry = outcome at ends ⊢
  cases ends with
  | @known place found => exact .single (.preferred place)
  | unregistered unknown => exact .refl

/-- Taking in facts is as many registrations. -/
theorem noting_changes {facts : List (TypeName × TypeInfo)} (fresh : session.Fresh facts)
    (some : facts ≠ []) (native : ∀ fact ∈ facts, TypeName.native fact.1.text = fact.1) :
    Changes unsized session (session.noting facts) := by
  induction facts generalizing session with
  | nil => exact absurd rfl some
  | cons fact rest ih =>
      obtain ⟨normal, native⟩ := List.forall_mem_cons.mp native
      have unnoted := fresh.unnoted fact List.mem_cons_self
      have first : session.noting [fact] = { session with
          registry := session.registry.insert fact.1 fact.2, maps := [] }.markProbed
            fact.1.text := by
        rw [markProbed_new (by exact unnoted)]
        rfl
      have one : Changes unsized session (session.noting [fact]) := by
        rw [first]
        refine .tail (.single (.inserted fact.1 fact.2 (fresh.unknown fact List.mem_cons_self)
          (fresh.sized fact List.mem_cons_self))) (.noted fact.1.text (.inl ?_))
        rw [normal]
        exact Registry.contains_insert.mpr (.inr rfl)
      by_cases last : rest = []
      · rw [last]
        exact one
      · rw [← noting_cons]
        exact one.trans (ih fresh.behind last native)

/-! ## Calls on a workbench -/

/-- A step makes changes to the session only. -/
def Leads {α : Type} (unsized : List String) (step : SessionStep α) : Prop :=
  ∀ state, Changes unsized state.1 (step.run state).2.1

/-- A step that leaves the session alone makes no changes. -/
theorem Leads.of_same {α : Type} {step : SessionStep α}
    (same : ∀ state, (step.run state).2.1 = state.1) : Leads unsized step := by
  intro state
  rw [same]
  exact .refl

theorem Leads.of_run {α : Type} {step : SessionStep α} {bench last : Workbench}
    {result : Except TypeFault α} (leads : Leads unsized step)
    (ran : step.run (session, bench) = (result, after, last)) : Changes unsized session after := by
  have changes := leads (session, bench)
  rw [ran] at changes
  exact changes

/-- The changes of a sequence are those of its steps. -/
theorem Leads.bind {α β : Type} {step : SessionStep α} {next : α → SessionStep β}
    (first : Leads unsized step) (rest : ∀ answer, Leads unsized (next answer)) :
    Leads unsized (step >>= next) := by
  intro state
  have changes := first state
  rw [Step.run_bind]
  cases ran : step.run state with
  | mk result after =>
      rw [ran] at changes
      cases result with
      | ok answer => exact changes.trans (rest answer after)
      | error fault => exact changes

/-- What a session learns is a sequence of changes. -/
theorem Learning.changes {machine : Machine} {bench last : Workbench} {names : List String}
    {result : Except TypeFault Unit}
    (learning : Learning machine session bench (session.missing names) (result, after, last)) :
    Changes unsized session after := by
  cases learning with
  | idle => exact .refl
  | failed => exact .refl
  | @learned _ facts some took named =>
      have facts_some : facts ≠ [] := by
        rintro rfl
        exact some (List.map_eq_nil_iff.mp named.symm)
      exact noting_changes (fresh_of_named named took.named.2) facts_some fun fact member =>
        native_of_named named member

/-- Probing native names only makes changes. -/
theorem ensureNative_leads (machine : Machine) (names : List String) :
    Leads unsized (ensureNative machine names) :=
  fun (session, bench) => (ensureNative_learning machine session names bench).changes

/-- The facts about a name are those registered, and it is a fault if there are none. -/
theorem run_registeredInfo (name : TypeName) (state : Session × Workbench) :
    (registeredInfo name).run state =
      ((state.1.registry.info? name).elim (.error (.unregistered name)) .ok, state) := by
  rw [registeredInfo, Step.run_bind, Step.run_get]
  cases known : state.1.registry.info? name with
  | none => simp [known]
  | some info => simp [known]

/-- Looking facts up makes no changes. -/
theorem registeredInfo_leads (name : TypeName) : Leads unsized (registeredInfo name) :=
  .of_same fun _ => by rw [run_registeredInfo]

/-- Building a map stores it if there is one. -/
theorem run_buildMap (target : TypeSystem) (session : Session) :
    (buildMap target).run session =
      match TypeMap.build session.registry target with
      | .ok map => (.ok map, { session with maps := (target, map) :: session.maps })
      | .error fault => (.error fault, session) := by
  rw [buildMap, Step.run_bind, Step.run_get]
  dsimp only
  rw [Step.run_bind, Step.run_ofExcept]
  cases TypeMap.build session.registry target with
  | error fault => rfl
  | ok map => rfl

/-- A stored map, or one that is built and stored. -/
def storedMap (target : TypeSystem) : SessionStep TypeMap := do
  let (session, _) ← Step.get
  match session.maps.lookup target with
  | some map => return map
  | none => Step.onFirst (buildMap target)

/-- A map is asked for behind a probe for all that is missing. -/
theorem typeMap_eq (machine : Machine) (target : TypeSystem) :
    typeMap machine target = ensureNative machine [] >>= fun _ => storedMap target := rfl

/-- Building or looking up a map only makes changes. -/
theorem storedMap_leads (target : TypeSystem) : Leads unsized (storedMap target) := by
  rintro ⟨session, bench⟩
  rw [storedMap, Step.run_bind, Step.run_get]
  dsimp only
  cases session.maps.lookup target with
  | some map => exact .refl
  | none =>
      dsimp only
      rw [Step.run_onFirst, run_buildMap]
      cases built : TypeMap.build session.registry target with
      | error fault => exact .refl
      | ok map => exact .single (.stored target map built)

/-- Asking for a map only makes changes. -/
theorem typeMap_leads (machine : Machine) (target : TypeSystem) :
    Leads unsized (typeMap machine target) :=
  .bind (ensureNative_leads machine []) fun _ => storedMap_leads target

/-- Asking for a counterpart only makes changes. -/
theorem counterpart_leads (machine : Machine) (target : TypeSystem) (name : TypeName) :
    Leads unsized (counterpart machine target name) :=
  .bind (typeMap_leads machine target) fun _ => .of_same fun _ => rfl

/-- Asking for the facts about a native name only makes changes. -/
theorem nativeInfo_leads (machine : Machine) (spelling : String) :
    Leads unsized (nativeInfo machine spelling) :=
  .bind (ensureNative_leads machine [spelling]) fun _ => registeredInfo_leads _

/-- The facts about a type itself: pointers are all alike, and native types are probed if need
be. -/
def ownInfo (machine : Machine) (name : TypeName) : SessionStep TypeInfo :=
  if name.isPointer then pure TypeInfo.pointer
  else if name.system = .native then
    ensureNative machine [name.text] >>= fun _ => registeredInfo name
  else registeredInfo name

/-- Resolving a name asks for its own facts, then for its counterparts in the three systems in
turn. -/
theorem resolve_eq (machine : Machine) (name : TypeName) : resolve machine name = do
    let info ← ownInfo machine name
    let native ← counterpart machine .native name
    let arrayLib ← counterpart machine .arrayLib name
    let ffi ← counterpart machine .ffi name
    return ⟨native, arrayLib, ffi, info⟩ := by
  cases pointer : name.isPointer with
  | true => simp [resolve, ownInfo, pointer]
  | false =>
      by_cases native : name.system = .native
      · simp [resolve, ownInfo, pointer, native]
      · simp [resolve, ownInfo, pointer, native]

/-- Asking for the facts about a name in its own system only makes changes. -/
theorem ownInfo_leads (machine : Machine) (name : TypeName) :
    Leads unsized (ownInfo machine name) := by
  unfold ownInfo
  split
  · exact .of_same fun _ => rfl
  · split
    · exact .bind (ensureNative_leads machine _) fun _ => registeredInfo_leads name
    · exact registeredInfo_leads name

/-- Resolving a name only makes changes. -/
theorem resolve_leads (machine : Machine) (name : TypeName) :
    Leads unsized (resolve machine name) := by
  rw [resolve_eq]
  refine .bind (ownInfo_leads machine name) fun info => ?_
  refine .bind (counterpart_leads machine .native name) fun native => ?_
  refine .bind (counterpart_leads machine .arrayLib name) fun arrayLib => ?_
  refine .bind (counterpart_leads machine .ffi name) fun ffi => ?_
  exact .of_same fun _ => rfl

/-! ## Sessions that are reached -/

/-- The sessions that calls lead to, whether the calls answer or fail, and the native names for
which facts without a size were handed over. -/
inductive Reached : List String → Session → Prop
  | start (config : BuildConfig) : Reached [] (start config)
  | addProbeHeader {unsized : List String} {session : Session} (reached : Reached unsized session)
      (header : String) : Reached unsized (session.addProbeHeader header)
  | register {unsized : List String} {session : Session} (reached : Reached unsized session)
      (name : TypeName) (info : TypeInfo) : Reached unsized ((register name info).run session).2
  | registerNative {unsized : List String} {session : Session} (reached : Reached unsized session)
      (spelling : String) (info : TypeInfo) :
      Reached (if info.size.isSome then unsized else (TypeName.native spelling).text :: unsized)
        ((registerNative spelling info).run session).2
  | prefer {unsized : List String} {session : Session} (reached : Reached unsized session)
      (name : TypeName) : Reached unsized ((prefer name).run session).2
  | ensureNative {unsized : List String} {session : Session} (reached : Reached unsized session)
      (machine : Machine) (names : List String) (bench : Workbench) :
      Reached unsized ((ensureNative machine names).run (session, bench)).2.1
  | nativeInfo {unsized : List String} {session : Session} (reached : Reached unsized session)
      (machine : Machine) (spelling : String) (bench : Workbench) :
      Reached unsized ((nativeInfo machine spelling).run (session, bench)).2.1
  | typeMap {unsized : List String} {session : Session} (reached : Reached unsized session)
      (machine : Machine) (target : TypeSystem) (bench : Workbench) :
      Reached unsized ((typeMap machine target).run (session, bench)).2.1
  | resolve {unsized : List String} {session : Session} (reached : Reached unsized session)
      (machine : Machine) (name : TypeName) (bench : Workbench) :
      Reached unsized ((resolve machine name).run (session, bench)).2.1

/-- All that is known of a session that calls lead to: changes made it, and the names for which
facts without a size were handed over are noted. -/
structure Traced (unsized : List String) (session : Session) : Prop where
  changes : ∃ config, Changes unsized (Session.start config) session
  noted : ∀ text ∈ unsized, text ∈ session.probed

/-- Changes lead on from a session that changes lead to. -/
theorem Traced.trans (traced : Traced unsized before) (changes : Changes unsized before after) :
    Traced unsized after := by
  obtain ⟨config, earlier⟩ := traced.changes
  exact ⟨⟨config, earlier.trans changes⟩,
    fun text listed => changes.probed (traced.noted text listed)⟩

/-- Facts without a size excuse a name that is not registered. -/
theorem Traced.handedOver (traced : Traced unsized session) (spelling : String)
    (info : TypeInfo) :
    Traced (if info.size.isSome then unsized else (TypeName.native spelling).text :: unsized)
      ((registerNative spelling info).run session).2 := by
  cases sized : info.size with
  | some size => exact traced.trans (registerNative_changes session spelling info (by simp [sized]))
  | none =>
      obtain ⟨config, earlier⟩ := traced.changes
      have changes : Changes ((TypeName.native spelling).text :: unsized) session
          ((registerNative spelling info).run session).2 :=
        registerNative_changes session spelling info fun _ => List.mem_cons_self
      refine ⟨⟨config, (earlier.mono fun _ => List.mem_cons_of_mem _).trans changes⟩, ?_⟩
      refine List.forall_mem_cons.mpr
        ⟨?_, fun text listed => changes.probed (traced.noted text listed)⟩
      rw [run_registerNative]
      exact (register_changes _ _ info : Changes unsized _ _).probed (mem_markProbed.mpr (.inr rfl))

/-- Changes lead to every reached session, and the excuses of its names are noted. -/
theorem Reached.traced (reached : Reached unsized session) : Traced unsized session := by
  induction reached with
  | start config => exact ⟨⟨config, .refl⟩, nofun⟩
  | addProbeHeader _ header ih => exact ih.trans (.single (.headed header))
  | register _ name info ih => exact ih.trans (register_changes _ name info)
  | registerNative _ spelling info ih => exact ih.handedOver spelling info
  | prefer _ name ih => exact ih.trans (prefer_changes _ name)
  | ensureNative _ machine names bench ih =>
      exact ih.trans (ensureNative_leads machine names (_, bench))
  | nativeInfo _ machine spelling bench ih =>
      exact ih.trans (nativeInfo_leads machine spelling (_, bench))
  | typeMap _ machine target bench ih =>
      exact ih.trans (typeMap_leads machine target (_, bench))
  | resolve _ machine name bench ih =>
      exact ih.trans (resolve_leads machine name (_, bench))

/-- In a reached session every name stands once with a size, and the stored maps are up to date. -/
theorem Reached.steady (reached : Reached unsized session) : session.Steady := by
  obtain ⟨config, changes⟩ := reached.traced.changes
  exact changes.steady ⟨Registry.sound_fixed, nofun⟩

/-- What is noted in a reached session is registered, unless its facts had no size. -/
theorem Reached.excused (reached : Reached unsized session) : session.Excused unsized := by
  obtain ⟨config, changes⟩ := reached.traced.changes
  exact changes.excused nofun

/-- Facts with sizes that are handed over in turn lead on, even if some are refused. -/
theorem Reached.registerNatives {facts : List (String × TypeInfo)}
    (reached : Reached unsized session) (sized : ∀ fact ∈ facts, fact.2.size.isSome) :
    Reached unsized ((registerNatives facts).run session).2 := by
  induction facts generalizing session with
  | nil => exact reached
  | cons fact rest ih =>
      obtain ⟨spelling, info⟩ := fact
      obtain ⟨first, later⟩ := List.forall_mem_cons.mp sized
      have next := reached.registerNative spelling info
      rw [if_pos first] at next
      rw [Session.registerNatives, Step.run_bind]
      cases ran : (Session.registerNative spelling info).run session with
      | mk result after =>
          rw [ran] at next
          cases result with
          | ok inserted => exact ih next later
          | error fault => exact next

-- Stated for all facts: given ones would be registered to compare the session with its name.
/-- A session that was told facts with sizes is reached without an excuse. -/
theorem reached_toldFirst (facts : List (String × TypeInfo))
    (sized : ∀ fact ∈ facts, fact.2.size.isSome) : Reached [] (toldFirst facts) :=
  (Reached.start _).registerNatives sized

/-- The session that was told the usual words is reached without an excuse. -/
theorem reached_wordSession : Reached [] wordSession :=
  reached_toldFirst Scripted.wordTypes (by decide)

end TypeBridge.Session
