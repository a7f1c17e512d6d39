import TypeBridge.Proofs.Following
import TypeBridge.Proofs.Types.Unchanged

/-!
# Sessions in which scalars are resolved

All that requests for scalars do to a session is to learn native types that are no pointers.
`Session.Advances` says so of two sessions, and `Step.Advances` of a step on a state with a session
in it. What was known of a scalar once is known from then on, and the native name that a later
request answers with tells the same of it (`Session.facts_of_resolve`, `Session.meaning_of_resolve`).
-/

namespace TypeBridge

/-! ## What is known of a type -/

namespace Registry

variable {registry before after : Registry} {name : TypeName} {info : TypeInfo} {text : String}

/-- What is known of a type: pointers are all alike, and others are registered. -/
def facts (registry : Registry) (name : TypeName) : Option TypeInfo :=
  if name.isPointer then some .pointer else registry.info? name

/-- A native name tells what is known of the type that it names. -/
theorem meaning_eq (registry : Registry) (text : String) :
    registry.meaning text = registry.facts (.native text) := rfl

/-- Facts stay registered as a registry grows. -/
theorem Grows.facts (grows : before.Grows after) (known : before.facts name = some info) :
    after.facts name = some info := by
  unfold Registry.facts at known ⊢
  split at known
  · rename_i pointer
    rw [if_pos pointer, known]
  · rename_i plain
    rw [if_neg plain]
    exact grows.info? known

/-- A registry at whose end types were added has grown. -/
theorem Begins.grows (begins : before.Begins after) : before.Grows after :=
  ⟨begins.entries.map _, begins.places⟩

end Registry

/-! ## Sessions that advance -/

namespace Session

variable {before middle after session : Session} {machine : Machine} {bench last : Workbench}
  {name : TypeName}

/-- Behind a session, one in which types may have been learned: the new ones come last, and none of
them is a pointer. -/
structure Advances (before after : Session) : Prop where
  steady : before.Steady → after.Steady
  begins : before.registry.Begins after.registry
  plain : before.registry.Plain → after.registry.Plain

/-- The registry of a session that advances grows. -/
theorem Advances.grows (advances : before.Advances after) :
    before.registry.Grows after.registry := advances.begins.grows

instance : Std.Refl Advances := ⟨fun _ => ⟨id, .refl _, id⟩⟩

instance : IsTrans Session Advances := ⟨fun _ _ _ start rest =>
  ⟨rest.steady ∘ start.steady, start.begins.trans rest.begins, rest.plain ∘ start.plain⟩⟩

theorem Advances.refl (session : Session) : session.Advances session := Std.Refl.refl session

/-- A session that advances twice over advances. -/
theorem Advances.trans (start : before.Advances middle) (rest : middle.Advances after) :
    before.Advances after := IsTrans.trans _ _ _ start rest

end Session

/-- Whatever comes of a step, the session in its state has advanced. -/
abbrev Step.Advances {σ ε α : Type} (session : σ → Session) (step : Step σ ε α) : Prop :=
  step.Follows (Order.Preimage session Session.Advances)

namespace Step.Advances

variable {σ τ ε α : Type} {session : σ → Session} {step : Step σ ε α}

/-- A step that leaves the session alone advances it. -/
theorem of_same (same : ∀ state, session (step.run state).2 = session state) :
    step.Advances session := by
  intro state
  rw [Order.Preimage, same]
  exact .refl _

/-- A step on the second part advances the session there as it does alone. -/
theorem onSecond (advances : step.Advances session) :
    (Step.onSecond step : Step (τ × σ) ε α).Advances (session ·.2) :=
  fun state => advances state.2

end Step.Advances

namespace Session

variable {session after : Session} {machine : Machine} {bench last : Workbench} {name : TypeName}

/-! ## Requests for scalars -/

/-- Asking for native names makes types known that are no pointers. -/
theorem ensureNative_advances (machine : Machine) (names : List String) :
    (ensureNative machine names).Advances Prod.fst := by
  rintro ⟨session, bench⟩
  have learning := ensureNative_learning machine session names bench
  refine ⟨(ensureNative_leads machine names : Leads [] _) (session, bench) |>.steady,
    learning.begins, fun plain => ?_⟩
  cases ran : (ensureNative machine names).run (session, bench) with
  | mk result state =>
      rw [ran] at learning
      cases learning with
      | idle => exact plain
      | failed => exact plain
      | @learned _ facts _ _ named =>
          apply plain.inserts
          intro fact member
          obtain ⟨text, missing, same⟩ := exists_of_named named member
          rw [same]
          exact ⟨(native_of_mem_wanted (mem_missing.mp missing).1).2, .native, text, rfl⟩

/-- Looking facts up advances the session. -/
theorem registeredInfo_advances (name : TypeName) : (registeredInfo name).Advances Prod.fst :=
  .of_same fun _ => by rw [run_registeredInfo]

/-- Storing a map makes no types known. -/
theorem storedMap_advances (target : TypeSystem) : (storedMap target).Advances Prod.fst := by
  intro state
  have same : (((storedMap target).run state).2.1).registry = state.1.registry := by
    rw [storedMap, Step.run_bind, Step.run_get]
    dsimp only
    cases state.1.maps.lookup target with
    | some map => rfl
    | none =>
        dsimp only
        rw [Step.run_onFirst, run_buildMap]
        cases TypeMap.build state.1.registry target with
        | error fault => rfl
        | ok map => rfl
  refine ⟨((storedMap_leads target : Leads [] _) state).steady, storedMap_appends target state, ?_⟩
  rw [same]
  exact id

/-- Asking for a counterpart advances the session. -/
theorem counterpart_advances (machine : Machine) (target : TypeSystem) (name : TypeName) :
    (counterpart machine target name).Advances Prod.fst :=
  .bind (.bind (ensureNative_advances machine []) fun _ => storedMap_advances target)
    fun _ => .ofExcept _

/-- Asking for the facts about a name in its own system advances the session. -/
theorem ownInfo_advances (machine : Machine) (name : TypeName) :
    (ownInfo machine name).Advances Prod.fst := by
  unfold ownInfo
  split
  · exact .pure _
  · split
    · exact .bind (ensureNative_advances machine _) fun _ => registeredInfo_advances name
    · exact registeredInfo_advances name

/-- Resolving a name advances the session. -/
theorem resolve_advances (machine : Machine) (name : TypeName) :
    (resolve machine name).Advances Prod.fst := by
  rw [resolve_eq]
  refine .bind (ownInfo_advances machine name) fun info => ?_
  refine .bind (counterpart_advances machine .native name) fun native => ?_
  refine .bind (counterpart_advances machine .arrayLib name) fun arrayLib => ?_
  refine .bind (counterpart_advances machine .ffi name) fun ffi => ?_
  exact .pure _

/-- A request for a scalar answers with what is known of it then. -/
theorem facts_of_resolve {scalar : ResolvedScalar}
    (ran : (resolve machine name).run (session, bench) = (.ok scalar, after, last)) :
    after.registry.facts name = some scalar.info := by
  rw [resolve_eq] at ran
  obtain ⟨info, ⟨known, bench'⟩, own, ran⟩ := Step.exists_of_run_bind_ok ran
  have rest : Step.Advances Prod.fst (do
      let native ← counterpart machine .native name
      let arrayLib ← counterpart machine .arrayLib name
      let ffi ← counterpart machine .ffi name
      return (⟨native, arrayLib, ffi, info⟩ : ResolvedScalar)) :=
    .bind (counterpart_advances machine .native name) fun _ =>
      .bind (counterpart_advances machine .arrayLib name) fun _ =>
        .bind (counterpart_advances machine .ffi name) fun _ => .pure _
  have same : scalar.info = info := by
    obtain ⟨native, _, -, ran⟩ := Step.exists_of_run_bind_ok ran
    obtain ⟨arrayLib, _, -, ran⟩ := Step.exists_of_run_bind_ok ran
    obtain ⟨ffi, _, -, ran⟩ := Step.exists_of_run_bind_ok ran
    rw [Step.run_pure] at ran
    cases ran
    rfl
  have facts : known.registry.facts name = some info := by
    cases pointer : name.isPointer with
    | true =>
        rw [ownInfo, if_pos pointer, Step.run_pure] at own
        cases own
        rw [Registry.facts, if_pos pointer]
    | false =>
        rw [Registry.facts, if_neg (by simp [pointer])]
        exact ownInfo_registered pointer own
  rw [same]
  exact (rest.of_run ran).grows.facts facts

/-- The native name that a request for a scalar answers with tells what is known of it. -/
theorem meaning_of_resolve (steady : session.Steady) (plain : session.registry.Plain)
    {scalar : ResolvedScalar}
    (ran : (resolve machine name).run (session, bench) = (.ok scalar, after, last)) :
    after.registry.meaning scalar.native.text = some scalar.info := by
  obtain ⟨own, parts⟩ := resolve_parts steady ran
  obtain ⟨registry, map, sound, grows, built, resolved, known⟩ := parts .native
  simp only [ResolvedScalar.inSystem] at resolved
  have plain := ((resolve_advances machine name).of_run ran).plain plain
  cases pointer : name.isPointer with
  | true =>
      rw [TypeMap.resolve, if_pos pointer, TypeMap.resolvePointer,
        TypeMap.target_built sound built] at resolved
      obtain ⟨base, depth, isBase, starred⟩ :=
        TypeMap.nativePointer_eq_starred sound built (name.text.length + 1) name
      have spelled : TypeName.native scalar.native.text = TypeName.starred base (depth + 1) := by
        rw [← Except.ok.inj resolved, starred, TypeName.native_text_starred isBase]
      have pointer' : (TypeName.native scalar.native.text).isPointer = true := by
        rw [spelled]
        rfl
      rw [Registry.meaning, if_pos pointer', own pointer]
  | false =>
      obtain ⟨inside, registered, -⟩ :=
        TypeMap.resolve_plain sound built pointer (known pointer) resolved
      have registered := grows.info? registered
      obtain ⟨single, normal⟩ := plain.of_info? registered
      rw [Registry.meaning, normal.native_text inside, if_neg (by simp [single])]
      exact registered

end Session

end TypeBridge
