import TypeBridge.Proofs.Types.Growing

/-!
# Registries over whole runs

`Registry.Later` leads from a registry to those that any further calls of `register` and `prefer`
leave, whether they answer or fail. A call that fails leaves the registry as it was, and no call
takes a preference back (`Later.keepsPreferred`). `append_only` says what that comes to: the index
and the entries agree after every run, the entries of an earlier registry begin those of a later
one, and the answer of a registration tells what is registered.
-/

namespace TypeBridge.Registry

variable {registry before after : Registry} {name : TypeName} {info : TypeInfo}

/-- The registries that further calls lead to, whether the calls answer or fail. -/
inductive Later (before : Registry) : Registry → Prop
  | here : Later before before
  | register {middle : Registry} (later : Later before middle) (name : TypeName)
      (info : TypeInfo) : Later before ((Registry.register name info).run middle).2
  | prefer {middle : Registry} (later : Later before middle) (name : TypeName) :
      Later before ((Registry.prefer name).run middle).2

/-- Calls lead on from reached registries to reached registries. -/
theorem Reached.later (reached : before.Reached) (later : before.Later after) : after.Reached := by
  induction later with
  | here => exact reached
  | register _ name info ih => exact .register ih name info
  | prefer _ name ih => exact .prefer ih name

/-- What is kept whenever a new type is added or a type is preferred is kept by all calls. -/
theorem Later.preserves (kept : Registry → Prop) (later : before.Later after)
    (insert : ∀ {registry} name {info : TypeInfo}, registry.info? name = none →
      kept registry → kept (registry.insert name info))
    (markPreferred : ∀ {registry} place, kept registry → kept (registry.markPreferred place))
    (holds : kept before) : kept after := by
  induction later with
  | here => exact holds
  | @register middle _ name info ih =>
      have ends := middle.register_ends name info
      generalize (Registry.register name info).run middle = outcome at ends ⊢
      cases ends with
      | unsized unsized => exact ih
      | new sized unknown => exact insert name unknown ih
      | again sized known => exact ih
      | duplicate sized known other => exact ih
  | @prefer middle _ name ih =>
      have ends := middle.prefer_ends name
      generalize (Registry.prefer name).run middle = outcome at ends ⊢
      cases ends with
      | @known place found => exact markPreferred place ih
      | unregistered unknown => exact ih

/-- A later registry knows what the earlier one did. -/
theorem Later.grows (later : before.Later after) : before.Grows after :=
  later.preserves before.Grows (fun _ info unknown grows => grows.trans (grows_insert unknown info))
    (fun place grows => grows.trans (grows_markPreferred _ place)) (.refl before)

/-! ## Preferences stay -/

/-- What is preferred at some place is preferred there later, too. -/
def KeepsPreferred (before after : Registry) : Prop :=
  ∀ (place : Nat) (entry : RegistryEntry), before.entries[place]? = some entry →
    entry.preferred →
    ∃ kept : RegistryEntry, after.entries[place]? = some kept ∧ kept.preferred

/-- A registry keeps its own preferences. -/
theorem KeepsPreferred.refl (registry : Registry) : registry.KeepsPreferred registry :=
  fun _ entry here preferred => ⟨entry, here, preferred⟩

/-- A type that is added takes no preference away. -/
theorem KeepsPreferred.insert (keeps : before.KeepsPreferred after) (name : TypeName)
    (info : TypeInfo) : before.KeepsPreferred (after.insert name info) := by
  intro place entry here preferred
  obtain ⟨kept, there, still⟩ := keeps place entry here preferred
  have inside := (List.getElem?_eq_some_iff.mp there).1
  exact ⟨kept, by simpa [Registry.insert, List.getElem?_append_left inside] using there, still⟩

/-- A type that is preferred takes no preference away. -/
theorem KeepsPreferred.markPreferred (keeps : before.KeepsPreferred after) (place : Nat) :
    before.KeepsPreferred (after.markPreferred place) := by
  intro other entry here preferred
  obtain ⟨kept, there, still⟩ := keeps other entry here preferred
  by_cases marked : place = other
  · exact ⟨{ kept with preferred := true }, by simp [Registry.markPreferred, marked, there], rfl⟩
  · exact ⟨kept, by simp [Registry.markPreferred, marked, there], still⟩

/-- A later registry keeps what was preferred. -/
theorem Later.keepsPreferred (later : before.Later after) : before.KeepsPreferred after :=
  later.preserves before.KeepsPreferred (fun name info _ keeps => keeps.insert name info)
    (fun place keeps => keeps.markPreferred place) (.refl before)

/-! ## Answers and failures -/

/-- A registration answers that the type is new if and only if it stands nowhere and has a size. -/
theorem register_new_iff : ((Registry.register name info).run registry).1 = .ok true ↔
    name ∉ registry.entries.map (·.name) ∧ info.size.isSome := by
  rw [← position?_eq_none_iff, ← info?_eq_none_iff]
  have ends := registry.register_ends name info
  generalize (Registry.register name info).run registry = outcome at ends ⊢
  cases ends with
  | unsized unsized => simp [unsized]
  | new sized unknown => simp [unknown, sized]
  | again sized known => simp [known]
  | duplicate sized known other => simp [known]

/-- A registration answers that the type is known if and only if it stands somewhere with the same
facts. -/
theorem Sound.register_again_iff (sound : registry.Sound) :
    ((Registry.register name info).run registry).1 = .ok false ↔
      (name, info) ∈ registry.toList := by
  rw [← sound.info?_eq_some_iff_mem]
  have ends := registry.register_ends name info
  generalize (Registry.register name info).run registry = outcome at ends ⊢
  cases ends with
  | unsized unsized =>
      have absent : registry.info? name ≠ some info := by
        intro known
        have sized := sound.sized_of_info? known
        rw [unsized] at sized
        cases sized
      simp [absent]
  | new sized unknown => simp [unknown]
  | again sized known => simp [known]
  | duplicate sized known other => simp [known, other]

/-- A registration that is refused changes nothing. -/
theorem unchanged_of_register_error {fault : TypeFault}
    (ran : (Registry.register name info).run registry = (.error fault, after)) :
    after = registry := by
  have ends := registry.register_ends name info
  rw [ran] at ends
  cases ends with
  | unsized unsized => rfl
  | duplicate sized known other => rfl

/-- A preference that is refused changes nothing. -/
theorem unchanged_of_prefer_error {fault : TypeFault}
    (ran : (Registry.prefer name).run registry = (.error fault, after)) : after = registry := by
  have ends := registry.prefer_ends name
  rw [ran] at ends
  cases ends with
  | unregistered unknown => rfl

/-! ## Whole runs -/

/-- After every run the index leads to a place if and only if the type stands there, no type stands
twice and every type has a size. The types with their facts are those of an earlier registry with
more behind them, and preferences are kept. A registration tells whether the type stood nowhere or
with the same facts, and a call that fails leaves the registry as it was. -/
theorem append_only (reached : before.Reached) (later : before.Later after) :
    (∀ name place, after.position? name = some place ↔
      ∃ entry, after.entries[place]? = some entry ∧ entry.name = name) ∧
    (after.entries.map (·.name)).Nodup ∧
    (∀ entry ∈ after.entries, entry.info.size.isSome) ∧
    before.toList <+: after.toList ∧
    before.KeepsPreferred after ∧
    (∀ name info, ((Registry.register name info).run after).1 = .ok true ↔
      name ∉ after.entries.map (·.name) ∧ info.size.isSome) ∧
    (∀ name info, ((Registry.register name info).run after).1 = .ok false ↔
      (name, info) ∈ after.toList) ∧
    (∀ name info fault final,
      (Registry.register name info).run after = (.error fault, final) → final = after) ∧
    (∀ name fault final, (Registry.prefer name).run after = (.error fault, final) →
      final = after) := by
  have sound := (reached.later later).sound
  exact ⟨fun _ _ => sound.position?_eq_some, sound.names, sound.sized, later.grows.toList,
    later.keepsPreferred, fun _ _ => register_new_iff, fun _ _ => sound.register_again_iff,
    fun _ _ _ _ => unchanged_of_register_error, fun _ _ _ => unchanged_of_prefer_error⟩

/-- The fixed types and an integer. -/
def integerKnown : Registry := ((Registry.register (.native "int") (.signed 4)).run .fixed).2

/-- The integer is preferred, and other facts about it have been refused. -/
def integerPreferred : Registry :=
  ((Registry.register (.native "int") (.signed 8)).run
    ((Registry.prefer (.native "int")).run integerKnown).2).2

/-- The integer is found behind the fixed types, with the facts that it had first. -/
theorem append_only_integer : integerKnown.Reached ∧ integerKnown.Later integerPreferred ∧
    (integerPreferred.entries[fixed.size]? = some ⟨.native "int", .signed 4, true⟩ ∧
      integerPreferred.position? (.native "int") = some fixed.size) ∧
    integerKnown.toList <+: integerPreferred.toList ∧
    ((Registry.register (.native "int") (.signed 4)).run integerPreferred).1 = .ok false ∧
    ((Registry.register (.native "long") (.signed 8)).run integerPreferred).1 = .ok true := by
  have reached : integerKnown.Reached := .register .fixed _ _
  have later : integerKnown.Later integerPreferred := .register (.prefer .here _) _ _
  have stands : integerPreferred.entries[fixed.size]? = some ⟨.native "int", .signed 4, true⟩ := by
    decide +kernel
  obtain ⟨index, -, -, begins, -, new, again, -, -⟩ := append_only reached later
  refine ⟨reached, later, ⟨stands, (index _ _).mpr ⟨_, stands, rfl⟩⟩, begins, ?_, ?_⟩
  · exact (again _ _).mpr (by decide +kernel)
  · exact (new _ _).mpr (by decide +kernel)

end TypeBridge.Registry
