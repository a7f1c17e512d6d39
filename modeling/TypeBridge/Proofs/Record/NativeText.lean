import TypeBridge.Proofs.Record.Identity
import TypeBridge.Proofs.Record.Names
import TypeBridge.Proofs.Source.Reading

/-!
# Native definitions tell structures apart

The native compiler sees nothing of a structure but its definition. `nativeDefinition_determines`
says that nothing is lost in it: the name, the packing and the members with their types and counts
are read back from the text, so structures with the same text agree in them.
-/

namespace TypeBridge

/-- A packing that the native compiler honours has the pragma that it asks for. -/
theorem Packing.packNumber_pragma {packing : Packing} (valid : packing.isValid) :
    Source.packNumber packing.pragma = packing.pragma := by
  cases packing with
  | natural => rfl
  | packed bytes =>
      refine Option.filter_eq_some_iff.mpr ⟨rfl, ?_⟩
      rw [bne_iff_ne]
      rintro rfl
      exact absurd valid (by decide)

/-- The pragma gives the packing. -/
theorem Packing.pragma_injective : Function.Injective Packing.pragma := by
  intro packing packing' same
  cases packing <;> cases packing' <;> simp_all [Packing.pragma]

namespace Catalogue

variable {log : EntryLog} {catalogue : Catalogue} {id : Nat}

/-- No native name breaks a line. -/
def UnbrokenNames (fields : List ResolvedField) : Prop :=
  ∀ field ∈ fields, '\n' ∉ field.type.nativeName.toList

instance (fields : List ResolvedField) : Decidable (UnbrokenNames fields) :=
  inferInstanceAs (Decidable (∀ field ∈ fields, _))

/-- Structures are spelled by their names, so their types are on one line as well. -/
theorem newline_notMem_typeText (named : catalogue.Named) {field : ResolvedField}
    (knows : catalogue.Knows field) (unbroken : '\n' ∉ field.type.nativeName.toList) :
    '\n' ∉ (catalogue.typeText field.type).toList := by
  have ofChild : ∀ child, field.child? = some child → '\n' ∉ (catalogue.name child).toList :=
    fun child refers =>
      Source.newline_notMem_of_isIdentifier (named.identifier child (knows child refers))
  obtain ⟨name, type, count⟩ := field
  cases type with
  | scalar => exact unbroken
  | record child => exact ofChild child rfl
  | pointer child => simp [typeText, ofChild child rfl]

/-- The members of a structure are shown so that they can be read back. -/
theorem Reached.isPlain_memberLine (reached : Reached log catalogue) (known : id < catalogue.size)
    (unbroken : UnbrokenNames (catalogue.entry id).fields) :
    ∀ member ∈ (catalogue.entry id).fields.map catalogue.memberLine, Source.IsPlain member := by
  have entry := reached.sound.entry id known
  refine List.forall_mem_map.mpr fun field member => ?_
  have knows : catalogue.Knows field := fun child refers =>
    Nat.lt_trans (entry.children field member child refers) known
  exact
    { name := entry.identifiers field member
      typeText := newline_notMem_typeText reached.named knows (unbroken field member)
      count := entry.counts field member }

/-- What is read from the definition of a structure. -/
theorem Reached.readStruct?_nativeDefinition (reached : Reached log catalogue)
    (known : id < catalogue.size) (unbroken : UnbrokenNames (catalogue.entry id).fields) :
    Source.readStruct? (catalogue.nativeDefinition id) =
      some ⟨catalogue.name id, (catalogue.entry id).fields.map catalogue.memberLine,
        (catalogue.entry id).packing.pragma⟩ := by
  have read := Source.readStruct?_structText (reached.named.identifier id known)
    (reached.isPlain_memberLine known unbroken) (catalogue.entry id).packing.pragma
  rwa [Packing.packNumber_pragma (reached.sound.entry id known).packing] at read

/-- The native definition of a structure says all that there is to say. If no native name breaks a
line, the name, the members with their types and counts and the packing are read back from it. It
holds either both pragmas, with the number of the packing, or none at all. So structures with the
same definition, in whatever catalogues, agree in their packings, their names and their members. -/
theorem nativeDefinition_determines {log : EntryLog} {catalogue : Catalogue} {id : Nat}
    (reached : Reached log catalogue) (known : id < catalogue.size)
    (unbroken : UnbrokenNames (catalogue.entry id).fields) :
    Source.readStruct? (catalogue.nativeDefinition id) =
      some ⟨catalogue.name id, (catalogue.entry id).fields.map catalogue.memberLine,
        (catalogue.entry id).packing.pragma⟩ ∧
    Source.pragmas (catalogue.nativeDefinition id) =
      (match (catalogue.entry id).packing with
      | .natural => []
      | .packed bytes => [Source.pushLine bytes, Source.popLine]) ∧
    ∀ {log' : EntryLog} {other : Catalogue} {id' : Nat}, Reached log' other → id' < other.size →
      UnbrokenNames (other.entry id').fields →
      other.nativeDefinition id' = catalogue.nativeDefinition id →
      (other.entry id').packing = (catalogue.entry id).packing ∧
        other.name id' = catalogue.name id ∧
        (other.entry id').fields.map other.memberLine =
          (catalogue.entry id).fields.map catalogue.memberLine := by
  have read := reached.readStruct?_nativeDefinition known unbroken
  refine ⟨read, ?_, ?_⟩
  · have shown := Source.pragmas_structText (reached.named.identifier id known)
      (reached.isPlain_memberLine known unbroken) (catalogue.entry id).packing.pragma
    rw [Packing.packNumber_pragma (reached.sound.entry id known).packing] at shown
    refine Eq.trans shown ?_
    cases (catalogue.entry id).packing <;> rfl
  · intro log' other id' reached' known' unbroken' same
    have read' := reached'.readStruct?_nativeDefinition known' unbroken'
    rw [same, read] at read'
    obtain ⟨name, members, packing⟩ := Source.StructReading.mk.inj (Option.some.inj read')
    exact ⟨Packing.pragma_injective packing.symm, name.symm, members.symm⟩

/-- A tight record with an array of records and a pointer, which is spelled with a blank. -/
def tightRecord (name : TypeName) : Composite :=
  .mk [.single "tag" (.scalar name), .array "points" (.composite (floatRecord name)) 2,
    .single "next" (.pointer (floatRecord name))] (.packed 2)

/-- The catalogue with that record and the one in it. -/
def tightCatalogue (name : TypeName) : Catalogue :=
  ((create Scripted.Script.words.machine (tightRecord name)).run (.empty, floatSession)).2.1

/-- Declared in two systems of names, the record has one definition, from which its members and its
packing are read. -/
theorem nativeDefinition_determines_tightRecord :
    (Source.readStruct? ((tightCatalogue (.native "float")).nativeDefinition 1)).map
        (fun read => (read.members.map (·.count), read.packing)) = some ([1, 2, 1], some 2) ∧
      ((tightCatalogue (.ffi "c_float")).entry 1).packing =
        ((tightCatalogue (.native "float")).entry 1).packing := by
  have reached : ∀ name, Reached _ (tightCatalogue name) := fun name =>
    reached_enteredFirst (tightRecord name) rfl
  have facts : 1 < (tightCatalogue (.native "float")).size ∧
      UnbrokenNames ((tightCatalogue (.native "float")).entry 1).fields ∧
      1 < (tightCatalogue (.ffi "c_float")).size ∧
      UnbrokenNames ((tightCatalogue (.ffi "c_float")).entry 1).fields ∧
      (tightCatalogue (.ffi "c_float")).nativeDefinition 1 =
        (tightCatalogue (.native "float")).nativeDefinition 1 ∧
      (((tightCatalogue (.native "float")).entry 1).fields.map
        (tightCatalogue (.native "float")).memberLine).map (·.count) = [1, 2, 1] ∧
      ((tightCatalogue (.native "float")).entry 1).packing.pragma = some 2 := by
    decide +kernel
  obtain ⟨known, unbroken, known', unbroken', same, counts, packing⟩ := facts
  obtain ⟨read, -, determined⟩ :=
    nativeDefinition_determines (reached (.native "float")) known unbroken
  refine ⟨?_, (determined (reached (.ffi "c_float")) known' unbroken' same).1⟩
  rw [read, Option.map_some, counts, packing]

end Catalogue

end TypeBridge
