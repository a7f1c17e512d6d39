import TypeBridge.Proofs.Record.Agreement

/-!
# Keys do not depend on history

Whatever was asked of two catalogues while the registry was the same, a composite has one key in
both, and its structure goes by the digest of that key unless it was renamed. The layout and the
shape for calls are those of the structure that has the key: they are the same in both catalogues
when the trees of the structures are, and trees with the same key can differ only where a native
name holds the character that ends the parts of keys.
-/

namespace TypeBridge.Catalogue

variable {registry : Registry} {log log' : EntryLog} {renamed renamed' : List Nat}
  {catalogue catalogue' : Catalogue} {composite : Composite} {id id' : Nat}

/-- While the registry stayed as it was, all scalars were named by it. -/
theorem History.enteredUnder (history : History (Unchanging registry) log renamed catalogue) :
    EnteredUnder registry .empty catalogue := by
  have reached := history.reached
  refine reached.recorded.enteredUnder (history.answered.mono ?_) indexed_empty reached.indexed
    reached.sound reached.changes.extension nofun
  rintro name scalar typeString ⟨before, after, ⟨rfl, rfl⟩, named⟩
  exact named

/-- What a catalogue says of a composite does not depend on history. Whatever was asked of two
catalogues while the registry was the same, a composite that both know has one key, and goes by the
digest of that key in each unless its structure was renamed there. Where the structures have the
same tree, they have the same layout, and both or neither are passed by value; they do if no native
name in them holds the character that ends the parts of keys. No request changes a key. -/
theorem keys_independent_of_history (plain : registry.Plain)
    (first : History (Unchanging registry) log renamed catalogue)
    (second : History (Unchanging registry) log' renamed' catalogue')
    (found : catalogue.lookup composite = some id)
    (found' : catalogue'.lookup composite = some id') :
    catalogue.key id = catalogue'.key id' ∧
    (id ∉ renamed → catalogue.name id = canonicalName (catalogue.key id)) ∧
    (id' ∉ renamed' → catalogue'.name id' = canonicalName (catalogue.key id)) ∧
    (catalogue.tree id = catalogue'.tree id' →
      catalogue.layout id = catalogue'.layout id' ∧
      (catalogue.callDefinition id).isOk = (catalogue'.callDefinition id').isOk) ∧
    ((catalogue.tree id).Readable → (catalogue'.tree id').Readable →
      catalogue.tree id = catalogue'.tree id') ∧
    ∀ after, catalogue.Request after → ∀ other, other < catalogue.size →
      after.key other = catalogue.key other := by
  have under := first.enteredUnder
  have under' := second.enteredUnder
  have known := under.indexed.byType _ _ found
  have known' := under'.indexed.byType _ _ found'
  have sameKey := keys_agree under under' composite id id' found found'
  refine ⟨sameKey, first.name_eq known, ?_, ?_, ?_, ?_⟩
  · intro unnamed
    rw [second.name_eq known' unnamed, sameKey]
  · intro same
    exact ⟨under.layouts_agree plain under' known known' same,
      under.calls_agree plain under' known known' same⟩
  · intro readable readable'
    refine RecordTree.key_injective readable readable' ?_
    rw [under.sound.key_tree known, under'.sound.key_tree known', sameKey]
  · intro after request other present
    exact (request.later under.indexed).extension.key present

open Session (wordSession reached_wordSession plain_wordSession)

/-- A catalogue into which a record was entered that holds another one. -/
def enteredWhole : Catalogue := entered wordSession .empty heldRecord

/-- A catalogue into which the inner record was entered first, in another spelling. -/
def enteredInner : Catalogue := entered wordSession .empty (floatRecord (.ffi "c_float"))

/-- A catalogue into which the outer record was entered when the inner one was renamed. -/
def enteredAround : Catalogue :=
  entered wordSession ((renameId 0 "point").run enteredInner).2 heldRecord

theorem facts_heldRecord :
    ((registryBehind wordSession .empty heldRecord).size = wordSession.registry.size ∧
      (registryBehind wordSession .empty (floatRecord (.ffi "c_float"))).size =
        wordSession.registry.size ∧
      (registryBehind wordSession ((renameId 0 "point").run enteredInner).2 heldRecord).size =
        wordSession.registry.size) ∧
      (0 < enteredInner.size ∧ ((renameId 0 "point").run enteredInner).1.isOk) ∧
      (enteredWhole.lookup heldRecord = some 1 ∧ enteredAround.lookup heldRecord = some 1) ∧
      (1 < enteredWhole.size ∧ ∀ id < enteredWhole.size, CleanNames (enteredWhole.entry id).fields) ∧
      (1 < enteredAround.size ∧
        ∀ id < enteredAround.size, CleanNames (enteredAround.entry id).fields) ∧
      (enteredWhole.callDefinition 1).isOk := by
  decide +kernel

/-- A record has one key and one layout, whatever happened to the record in it before. -/
theorem keys_independent_of_history_heldRecord :
    (∃ log, History (Unchanging wordSession.registry) log [] enteredWhole) ∧
    (∃ log, History (Unchanging wordSession.registry) log [0] enteredAround) ∧
    enteredWhole.lookup heldRecord = some 1 ∧ enteredAround.lookup heldRecord = some 1 ∧
    enteredWhole.key 1 = enteredAround.key 1 ∧ enteredWhole.layout 1 = enteredAround.layout 1 := by
  obtain ⟨⟨same, same', same''⟩, ⟨present, renames⟩, ⟨found, found'⟩, ⟨known, clean⟩,
    ⟨known', clean'⟩, -⟩ := facts_heldRecord
  obtain ⟨log, first⟩ : ∃ log, History (Unchanging wordSession.registry) log [] enteredWhole :=
    History.start.entered reached_wordSession heldRecord rfl same
  obtain ⟨_, inner⟩ : ∃ log, History (Unchanging wordSession.registry) log [] enteredInner :=
    History.start.entered reached_wordSession (floatRecord (.ffi "c_float")) rfl same'
  have renamed := inner.renameId 0 "point" present
  rw [if_pos renames] at renamed
  obtain ⟨log', second⟩ : ∃ log, History (Unchanging wordSession.registry) log [0] enteredAround :=
    renamed.entered reached_wordSession heldRecord rfl same''
  obtain ⟨sameKey, -, -, sameLayout, sameTree, -⟩ :=
    keys_independent_of_history plain_wordSession first second found found'
  have readable := first.reached.sound.readable_tree clean known
  have readable' := second.reached.sound.readable_tree clean' known'
  exact ⟨⟨log, first⟩, ⟨log', second⟩, found, found', sameKey,
    (sameLayout (sameTree readable readable')).1⟩

/-- A session that was told of a type whose name reads like two fields in a key. -/
def delimitedSession : Session :=
  ((Session.registerNatives [("int\x001\x00y\x00int", .float 16)]).run wordSession).2

/-- A session that was told more than the facts about built-in names. -/
def toldNext (facts : List (String × TypeInfo)) : Session :=
  ((Session.registerNatives facts).run wordSession).2

-- Stated for all facts: given ones would be registered to compare the session with its name.
theorem reached_toldNext (facts : List (String × TypeInfo))
    (sized : ∀ fact ∈ facts, fact.2.size.isSome) : Session.Reached [] (toldNext facts) :=
  reached_wordSession.registerNatives sized

theorem plain_toldNext (facts : List (String × TypeInfo))
    (single : ∀ fact ∈ facts, (TypeName.native fact.1).isPointer = false) :
    (toldNext facts).registry.Plain :=
  Session.plain_registerNatives plain_wordSession single

theorem reached_delimitedSession : Session.Reached [] delimitedSession :=
  reached_toldNext _ (by decide)

theorem plain_delimitedSession : delimitedSession.registry.Plain :=
  plain_toldNext _ (by decide +kernel)

/-- A record of one field of that type. -/
def oneField : Composite := .mk [.single "x" (.scalar (.native "int\x001\x00y\x00int"))] .natural

/-- A record of two fields with the same key. -/
def twoFields : Composite :=
  .mk [.single "x" (.scalar (.native "int")), .single "y" (.scalar (.native "int"))] .natural

/-- A catalogue into which the record of one field was entered. -/
def enteredOne : Catalogue := entered delimitedSession .empty oneField

/-- A catalogue into which the record of two fields was entered. -/
def enteredTwo : Catalogue := entered delimitedSession .empty twoFields

/-- That catalogue with the record of one field entered. -/
def enteredBoth : Catalogue := entered delimitedSession enteredTwo oneField

theorem facts_enteredBoth :
    ((registryBehind delimitedSession .empty oneField).size = delimitedSession.registry.size ∧
      (registryBehind delimitedSession .empty twoFields).size = delimitedSession.registry.size ∧
      (registryBehind delimitedSession enteredTwo oneField).size =
        delimitedSession.registry.size) ∧
      (enteredOne.lookup oneField = some 0 ∧ enteredBoth.lookup oneField = some 0) ∧
      enteredOne.layout 0 ≠ enteredBoth.layout 0 ∧
      (enteredOne.callDefinition 0).isOk = false ∧ (enteredBoth.callDefinition 0).isOk := by
  decide +kernel

/-- Whoever was entered first has the key, so that neither the layout of a record nor whether it is
passed by value follows from what is known of types. -/
theorem layouts_depend_on_history :
    (¬ ∀ registry log renamed catalogue log' renamed' catalogue' composite id id',
      registry.Plain → History (Unchanging registry) log renamed catalogue →
      History (Unchanging registry) log' renamed' catalogue' →
      catalogue.lookup composite = some id → catalogue'.lookup composite = some id' →
        catalogue.layout id = catalogue'.layout id') ∧
    ¬ ∀ registry log renamed catalogue log' renamed' catalogue' composite id id',
      registry.Plain → History (Unchanging registry) log renamed catalogue →
      History (Unchanging registry) log' renamed' catalogue' →
      catalogue.lookup composite = some id → catalogue'.lookup composite = some id' →
        (catalogue.callDefinition id).isOk = (catalogue'.callDefinition id').isOk := by
  obtain ⟨⟨same, same', same''⟩, ⟨found, found'⟩, layouts, refused, isOk⟩ := facts_enteredBoth
  obtain ⟨_, first⟩ : ∃ log, History (Unchanging delimitedSession.registry) log [] enteredOne :=
    History.start.entered reached_delimitedSession oneField rfl same
  obtain ⟨_, two⟩ : ∃ log, History (Unchanging delimitedSession.registry) log [] enteredTwo :=
    History.start.entered reached_delimitedSession twoFields rfl same'
  obtain ⟨_, second⟩ : ∃ log, History (Unchanging delimitedSession.registry) log [] enteredBoth :=
    two.entered reached_delimitedSession oneField rfl same''
  constructor
  · intro claim
    exact layouts (claim _ _ _ _ _ _ _ _ _ _ plain_delimitedSession first second found found')
  · intro claim
    have alike := claim _ _ _ _ _ _ _ _ _ _ plain_delimitedSession first second found found'
    rw [refused, isOk] at alike
    cases alike

end TypeBridge.Catalogue
