import TypeBridge.Proofs.Record.Later
import TypeBridge.Proofs.Record.Naming

/-!
# Histories of a catalogue

A `Catalogue.History` is a sequence of requests to a catalogue, each in a session that calls lead
to, with the log of what was entered and the structures that were given a name. Which changes of the
registry a history may see is a parameter, so that one induction serves histories in which types are
registered on the way and histories in which the registry stays as it is (`Unchanging`).
`Recorded` ties what a catalogue has beyond another one to the log of the changes in between.
-/

namespace TypeBridge.Catalogue

variable {catalogue : Catalogue} {composite : Composite} {log : EntryLog}

/-! ## Histories -/

/-- Requests to a catalogue, each in a session that calls lead to and with a change of the registry
that is admitted, answered or not. With them go the log of what was entered and the structures that
were given a name. -/
inductive History (admits : Registry → Registry → Prop) : EntryLog → List Nat → Catalogue → Prop where
  | start : History admits [] [] .empty
  | create {log : EntryLog} {renamed : List Nat} {catalogue : Catalogue}
      (history : History admits log renamed catalogue) (machine : Machine) (composite : Composite)
      (rest : Session × Workbench) (built : composite.isBuilt)
      (reached : ∃ unsized, Session.Reached unsized rest.1)
      (admitted : admits rest.1.registry
        ((create machine composite).run (catalogue, rest)).2.2.1.registry) :
      History admits (logAfter machine composite log catalogue rest) renamed
        ((create machine composite).run (catalogue, rest)).2.1
  | renameId {log : EntryLog} {renamed : List Nat} {catalogue : Catalogue}
      (history : History admits log renamed catalogue) (id : Nat) (name : String)
      (known : id < catalogue.size) :
      History admits log
        (if ((renameId id name).run catalogue).1.isOk then id :: renamed else renamed)
        ((renameId id name).run catalogue).2
  | render {log : EntryLog} {renamed : List Nat} {catalogue : Catalogue}
      (history : History admits log renamed catalogue) (id count : Nat)
      (known : id < catalogue.size) :
      History admits log renamed ((renderFirst id count).run catalogue).2
  | renderAll {log : EntryLog} {renamed : List Nat} {catalogue : Catalogue}
      (history : History admits log renamed catalogue) (ids : List Nat)
      (known : ∀ id ∈ ids, id < catalogue.size) :
      History admits log renamed ((renderAll ids).run catalogue).2

/-- The registry is a given one, and stays so. -/
def Unchanging (registry before after : Registry) : Prop := before = registry ∧ after = registry

namespace History

variable {admits : Registry → Registry → Prop} {renamed : List Nat}

/-- A history is a sequence of calls. -/
theorem reached (history : History admits log renamed catalogue) : Reached log catalogue := by
  induction history with
  | start => exact .start
  | create _ machine composite rest built _ _ ih => exact ih.create machine composite rest built
  | renameId _ id name known ih => exact ih.renameId id name known
  | render _ id count known ih => exact ih.render id count known
  | renderAll _ ids known ih => exact ih.renderAll ids known

/-- Entering a composite and renaming its structure is part of a history too. -/
theorem rename (history : History admits log renamed catalogue) (machine : Machine)
    (composite : Composite) (name : String) (rest : Session × Workbench)
    (built : composite.isBuilt) (session : ∃ unsized, Session.Reached unsized rest.1)
    (admitted : admits rest.1.registry
      ((Catalogue.create machine composite).run (catalogue, rest)).2.2.1.registry) :
    History admits (logAfter machine composite log catalogue rest)
      (match ((Catalogue.rename machine composite name).run (catalogue, rest)).1 with
        | .ok id => id :: renamed
        | .error _ => renamed)
      ((Catalogue.rename machine composite name).run (catalogue, rest)).2.1 := by
  have entered := history.create machine composite rest built session admitted
  rw [Catalogue.rename, Step.run_bind]
  have ensures := create_ensures machine log rest built history.reached.indexed
  cases ran : (Catalogue.create machine composite).run (catalogue, rest) with
  | mk result after =>
      rw [ran] at entered
      cases result with
      | error fault => exact entered
      | ok id =>
          have known := entered.reached.indexed.byType _ _ (ensures.of_ok ran).2
          have next := entered.renameId id name known
          dsimp only
          rw [Step.run_bind, Step.run_onFirst]
          cases named : (Catalogue.renameId id name).run after.1 with
          | mk result' catalogue' =>
              rw [named] at next
              cases result' with
              | ok => exact next
              | error fault => exact next

/-- The scalars of all that was entered were named between two states of the registry that are
admitted. -/
theorem answered (history : History admits log renamed catalogue) :
    log.AnsweredBy fun name scalar typeString =>
      ∃ before after, admits before after ∧ Session.Named before after name scalar typeString := by
  induction history with
  | start => exact EntryLog.answeredBy_nil _
  | @create log renamed catalogue history machine composite rest built reached admitted ih =>
      obtain ⟨-, -, added, same, answered⟩ := create_notes machine composite log catalogue rest reached
      have same : logAfter machine composite log catalogue rest = added ++ log := same
      rw [same]
      refine List.forall_mem_append.mpr ⟨?_, ih⟩
      exact answered.mono fun _ _ _ named => ⟨_, _, admitted, named⟩
  | renameId _ _ _ _ ih => exact ih
  | render _ _ _ _ ih => exact ih
  | renderAll _ _ _ ih => exact ih

end History

/-! ## Requests on a workbench without files -/

/-- The catalogue behind a request to enter a composite, on a workbench without files. -/
def entered (session : Session) (catalogue : Catalogue) (composite : Composite) : Catalogue :=
  ((create (Session.printing "") composite).run (catalogue, session, .fresh "/tmp" .empty)).2.1

/-- The registry behind that request. -/
def registryBehind (session : Session) (catalogue : Catalogue) (composite : Composite) : Registry :=
  ((create (Session.printing "") composite).run
    (catalogue, session, .fresh "/tmp" .empty)).2.2.1.registry

/-- A registry to which nothing was added is as it was. -/
theorem registryBehind_eq {session : Session} {unsized : List String}
    (reached : Session.Reached unsized session)
    (sameSize : (registryBehind session catalogue composite).size = session.registry.size) :
    registryBehind session catalogue composite = session.registry := by
  have begins := (create_notes (Session.printing "") composite [] catalogue
    (session, .fresh "/tmp" .empty) ⟨unsized, reached⟩).begins
  exact begins.eq_of_size sameSize

/-- A request that registers nothing is part of a history in which the registry stays as it is. -/
theorem History.entered {renamed : List Nat} {session : Session} {unsized : List String}
    (history : History (Unchanging session.registry) log renamed catalogue)
    (reached : Session.Reached unsized session) (composite : Composite) (built : composite.isBuilt)
    (sameSize : (registryBehind session catalogue composite).size = session.registry.size) :
    ∃ log, History (Unchanging session.registry) log renamed
      (Catalogue.entered session catalogue composite) :=
  ⟨_, history.create (Session.printing "") composite (session, .fresh "/tmp" .empty) built
    ⟨unsized, reached⟩ ⟨rfl, registryBehind_eq reached sameSize⟩⟩

/-! ## Names that nobody gave -/

/-- A structure that was entered on the way is called after its key. -/
theorem EntersAll.name_of_new {overflow : Overflow} {bound id : Nat}
    {start last : EntryLog × Catalogue} (chain : EntersAll overflow bound start last)
    (new : start.2.size ≤ id) (known : id < last.2.size) :
    last.2.name id = canonicalName (last.2.key id) := by
  induction chain with
  | refl => exact absurd known (Nat.not_lt.mpr new)
  | @tail middle last _ enters ih =>
      by_cases earlier : id < middle.2.size
      · rw [name, key, enters.entry earlier]
        exact ih earlier
      · cases enters with
        | merged => exact absurd known earlier
        | added =>
            rw [size_push] at known
            have own : id = _ := Nat.le_antisymm (Nat.le_of_lt_succ known) (Nat.not_lt.mp earlier)
            rw [name, key, own, entry_push_size]
            rfl

/-- Writing structures changes neither names nor keys. -/
theorem name_key_markAll {ids : List Nat} {id : Nat} (known : id < (catalogue.markAll ids).size) :
    id < catalogue.size ∧ (catalogue.markAll ids).name id = catalogue.name id ∧
      (catalogue.markAll ids).key id = catalogue.key id := by
  rw [size_markAll] at known
  exact ⟨known, name_markAll ids catalogue id, (extends_markAll ids catalogue).key known⟩

/-- A structure that was not renamed is called after its key. -/
theorem History.name_eq {admits : Registry → Registry → Prop} {renamed : List Nat}
    (history : History admits log renamed catalogue) {id : Nat} (known : id < catalogue.size)
    (unnamed : id ∉ renamed) : catalogue.name id = canonicalName (catalogue.key id) := by
  induction history with
  | start => cases known
  | @create log renamed catalogue history machine composite rest built _ _ ih =>
      have chain := create_enters machine log rest built history.reached.indexed
      by_cases earlier : id < catalogue.size
      · have same := EntersAll.entry chain earlier
        rw [name, key, same]
        exact ih earlier unnamed
      · exact chain.name_of_new (Nat.not_lt.mp earlier) known
  | @renameId log renamed catalogue _ target newName _ ih =>
      have ensures := renameId_ensures target newName catalogue
      cases ran : (Catalogue.renameId target newName).run catalogue with
      | mk result after =>
          rw [ran] at known unnamed
          cases result with
          | error fault =>
              cases ensures.of_error ran
              exact ih known unnamed
          | ok =>
              obtain ⟨different, others⟩ : id ≠ target ∧ id ∉ renamed := by
                simpa [Except.isOk, Except.toBool] using unnamed
              rcases ensures.of_ok ran with ⟨-, -, rfl⟩ | ⟨-, rfl⟩
              · exact ih known others
              · have present : id < catalogue.size := Nat.lt_of_lt_of_eq known size_modifyEntry
                have same : (catalogue.renamed target newName).entry id = catalogue.entry id :=
                  (entry_modifyEntry present).trans (if_neg (Ne.symm different))
                rw [name, key, same]
                exact ih present others
  | render _ target count _ ih =>
      rw [run_renderFirst] at known ⊢
      obtain ⟨present, sameName, sameKey⟩ := name_key_markAll known
      rw [sameName, sameKey, ih present unnamed]
  | renderAll _ ids _ ih =>
      rw [run_renderAll] at known ⊢
      obtain ⟨present, sameName, sameKey⟩ := name_key_markAll known
      rw [sameName, sameKey, ih present unnamed]

/-! ## Composites that are known -/

/-- A composite was entered with resolved fields, and has the key that these call for. -/
structure KnownAs (catalogue : Catalogue) (composite : Composite) (id : Nat)
    (fields : List ResolvedField) : Prop where
  resolved : List.Forall₂ catalogue.ResolvesField composite.fields fields
  key : catalogue.key id = keyOf (fields.map catalogue.pieceOf) composite.packing

/-- A log has the fields of each structure that a catalogue has beyond another one, and the fields
with which each composite was entered that is known only to it. -/
structure Recorded (origin : Catalogue) (log : EntryLog) (catalogue : Catalogue) : Prop where
  stored : ∀ id, origin.size ≤ id → id < catalogue.size →
    ∃ composite, (composite, (catalogue.entry id).fields) ∈ log
  known : ∀ composite id, catalogue.lookup composite = some id →
    origin.lookup composite = some id ∨
      ∃ fields, (composite, fields) ∈ log ∧ catalogue.KnownAs composite id fields

/-- Nothing was recorded before anything was entered. -/
theorem Recorded.refl (catalogue : Catalogue) : Recorded catalogue [] catalogue where
  stored _ new present := absurd present (Nat.not_lt.mpr new)
  known _ _ found := .inl found

/-- What was known is known in a later catalogue too. -/
theorem KnownAs.later {before after : Catalogue} {id : Nat} {fields : List ResolvedField}
    (known : before.KnownAs composite id fields) (indexed : before.Indexed)
    (present : id < before.size) (extension : before.Extends after)
    (remembers : before.Remembers after) : after.KnownAs composite id fields where
  resolved := known.resolved.imp fun _ _ => .mono remembers
  key := by
    rw [extension.key present, known.key]
    congr 1
    exact List.map_congr_left fun field member =>
      (extension.pieceOf (knows_of_resolves indexed known.resolved field member)).symm

/-- What was recorded stays so when no structure is added. -/
theorem Recorded.carried {origin before after : Catalogue} (recorded : Recorded origin log before)
    (indexed : before.Indexed) (extension : before.Extends after) (size : after.size = before.size)
    (byType : after.byType = before.byType) : Recorded origin log after where
  stored id new present := by
    rw [(extension.entry id (size ▸ present)).fields]
    exact recorded.stored id new (size ▸ present)
  known composite id found := by
    rw [lookup, byType] at found
    refine (recorded.known composite id found).imp_right ?_
    rintro ⟨fields, member, known⟩
    refine ⟨fields, member, known.later indexed (indexed.byType _ _ found) extension ?_⟩
    intro other target found
    rw [lookup, byType]
    exact found

/-- An entry is recorded. -/
theorem Enters.recorded {origin : Catalogue} {overflow : Overflow} {bound : Nat}
    {start last : EntryLog × Catalogue} (enters : Enters overflow bound start last)
    (indexed : start.2.Indexed) (sound : start.2.Sound)
    (recorded : Recorded origin start.1 start.2) : Recorded origin last.1 last.2 := by
  have extension := enters.extension
  have remembers := enters.remembers
  have others : ∀ composite id, start.2.lookup composite = some id →
      origin.lookup composite = some id ∨
        ∃ fields, (composite, fields) ∈ last.1 ∧ last.2.KnownAs composite id fields := by
    intro composite id found
    refine (recorded.known composite id found).imp_right ?_
    rintro ⟨fields, member, known⟩
    refine ⟨fields, ?_, known.later indexed (indexed.byType _ _ found) extension remembers⟩
    cases enters <;> exact List.mem_cons_of_mem _ member
  have pieces : ∀ {composite : Composite} {fields : List ResolvedField},
      List.Forall₂ start.2.ResolvesField composite.fields fields →
        fields.map last.2.pieceOf = fields.map start.2.pieceOf := by
    intro composite fields resolved
    exact List.map_congr_left fun field member =>
      extension.pieceOf (knows_of_resolves indexed resolved field member)
  cases enters with
  | @merged log catalogue composite fields id small enterable known =>
      refine ⟨fun other new present => ?_, fun other target found => ?_⟩
      · obtain ⟨source, member⟩ := recorded.stored other new present
        exact ⟨source, List.mem_cons_of_mem _ member⟩
      · rw [lookup_addType] at found
        split at found
        · rename_i same
          cases found
          subst same
          refine .inr ⟨fields, List.mem_cons_self,
            enterable.resolved.imp fun _ _ => .mono remembers, ?_⟩
          rw [pieces enterable.resolved]
          exact ((sound.keyed _ id).mp known).2
        · exact others other target found
  | @added log catalogue composite fields small enterable unknown free laid =>
      refine ⟨fun other new present => ?_, fun other target found => ?_⟩
      · rcases Nat.lt_succ_iff_lt_or_eq.mp (size_push ▸ present) with old | rfl
        · obtain ⟨source, member⟩ := recorded.stored other new old
          rw [entry_push_of_lt old]
          exact ⟨source, List.mem_cons_of_mem _ member⟩
        · rw [entry_push_size, fields_newEntry]
          exact ⟨composite, List.mem_cons_self⟩
      · rw [lookup_push] at found
        split at found
        · rename_i same
          cases found
          subst same
          refine .inr ⟨fields, List.mem_cons_self,
            enterable.resolved.imp fun _ _ => .mono remembers, ?_⟩
          rw [pieces enterable.resolved, key, entry_push_size]
          rfl
        · exact others other target found

/-- A change keeps the record. -/
theorem Changes.recorded {origin : Catalogue} {start last : EntryLog × Catalogue}
    (changes : Changes start last) (indexed : start.2.Indexed) (sound : start.2.Sound)
    (recorded : Recorded origin start.1 start.2) : Recorded origin last.1 last.2 := by
  cases changes with
  | entered enters => exact enters.recorded indexed sound recorded
  | renamed => exact recorded.carried indexed (extends_renamed _ _ _) size_modifyEntry rfl
  | marked => exact recorded.carried indexed (extends_markEmitted _ _) size_modifyEntry rfl

/-- Whatever changes add to a catalogue is in the log of these changes. -/
theorem ChangesAll.recorded {last : EntryLog × Catalogue} (changes : ChangesAll ([], catalogue) last)
    (indexed : catalogue.Indexed) (sound : catalogue.Sound) : Recorded catalogue last.1 last.2 := by
  induction changes with
  | refl => exact .refl catalogue
  | tail before change ih =>
      exact change.recorded (ChangesAll.indexed before indexed)
        (ChangesAll.sound before indexed sound) ih

/-- What is entered is recorded in every catalogue that calls lead to. -/
theorem Reached.recorded (reached : Reached log catalogue) : Recorded .empty log catalogue :=
  reached.changes.recorded indexed_empty sound_empty

/-- The scalars in the structures of a catalogue were named between two states of the registry that
are admitted. -/
theorem History.scalar_named {admits : Registry → Registry → Prop} {renamed : List Nat}
    (history : History admits log renamed catalogue) {id : Nat} (known : id < catalogue.size)
    {field : ResolvedField} (member : field ∈ (catalogue.entry id).fields) {scalar : ResolvedScalar}
    {typeString : String} (holds : field.type = .scalar scalar typeString) :
    ∃ name before after, admits before after ∧
      Session.Named before after name scalar typeString := by
  obtain ⟨composite, logged⟩ := history.reached.recorded.stored id (Nat.zero_le id) known
  obtain ⟨declared, -, answered⟩ := exists_of_mem_right (history.answered _ logged) member
  rw [holds] at answered
  generalize declared.type = type at answered
  cases answered with
  | scalar named =>
      obtain ⟨before, after, admitted, named⟩ := named
      exact ⟨_, before, after, admitted, named⟩

end TypeBridge.Catalogue
