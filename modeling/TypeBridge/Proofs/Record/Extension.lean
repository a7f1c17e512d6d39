import TypeBridge.Record.Catalogue

/-!
# Later states of a catalogue

A structure of a catalogue keeps its number, and of its entry only the name and the mark that it was
written ever change. `Catalogue.Extends` says so of two states of a catalogue; what a catalogue says
of a resolved field by `keyPart` and `memberLayout` stays the same in every later state.
-/

namespace TypeBridge

/-- A later state of an entry. -/
structure RecordEntry.Continues (before after : RecordEntry) : Prop where
  key : after.key = before.key
  packing : after.packing = before.packing
  fields : after.fields = before.fields
  layout : after.layout = before.layout
  emitted : before.emitted → after.emitted

theorem RecordEntry.Continues.refl (entry : RecordEntry) : entry.Continues entry :=
  ⟨rfl, rfl, rfl, rfl, id⟩

/-- A structure that was carried on twice over was carried on. -/
theorem RecordEntry.Continues.trans {first second third : RecordEntry}
    (start : first.Continues second) (rest : second.Continues third) : first.Continues third where
  key := rest.key.trans start.key
  packing := rest.packing.trans start.packing
  fields := rest.fields.trans start.fields
  layout := rest.layout.trans start.layout
  emitted written := rest.emitted (start.emitted written)

namespace Catalogue

variable {catalogue before after : Catalogue} {composite : Composite} {entry : RecordEntry}
  {id : Nat}

/-- A new structure is one more. -/
@[simp] theorem size_push : (catalogue.push composite entry).size = catalogue.size + 1 := by
  simp [size, push]

@[simp] theorem size_addType : (catalogue.addType composite id).size = catalogue.size := rfl

@[simp] theorem size_modifyEntry {change : RecordEntry → RecordEntry} :
    (catalogue.modifyEntry id change).size = catalogue.size := by
  simp [size, modifyEntry]

@[simp] theorem entry_addType {target : Nat} :
    (catalogue.addType composite target).entry id = catalogue.entry id := rfl

/-- The structures already there keep their numbers. -/
theorem entry_push_of_lt (known : id < catalogue.size) :
    (catalogue.push composite entry).entry id = catalogue.entry id := by
  simp only [Catalogue.entry, push, List.getElem?_append_left known]

/-- A new structure has the number that was free. -/
@[simp] theorem entry_push_size :
    (catalogue.push composite entry).entry catalogue.size = entry := by
  simp [Catalogue.entry, push, size]

/-- Only the structure of the number changes. -/
theorem entry_modifyEntry {target : Nat} {change : RecordEntry → RecordEntry}
    (known : id < catalogue.size) : (catalogue.modifyEntry target change).entry id =
      if target = id then change (catalogue.entry id) else catalogue.entry id := by
  have present : catalogue.entries[id]? = some catalogue.entries[id] :=
    List.getElem?_eq_getElem known
  simp only [Catalogue.entry, modifyEntry, List.getElem?_modify, present]
  split <;> rfl

/-! ## Extension -/

/-- A later state of a catalogue: more structures, and entries that were carried on. -/
structure Extends (before after : Catalogue) : Prop where
  size : before.size ≤ after.size
  entry : ∀ id, id < before.size → (before.entry id).Continues (after.entry id)

theorem Extends.refl (catalogue : Catalogue) : catalogue.Extends catalogue :=
  ⟨Nat.le_refl _, fun _ _ => .refl _⟩

/-- A later state of a later state is a later state. -/
theorem Extends.trans {first second third : Catalogue} (start : first.Extends second)
    (rest : second.Extends third) : first.Extends third where
  size := Nat.le_trans start.size rest.size
  entry id known := (start.entry id known).trans (rest.entry id (Nat.lt_of_lt_of_le known start.size))

/-- A catalogue with a new structure is a later state. -/
theorem extends_push (catalogue : Catalogue) (composite : Composite) (entry : RecordEntry) :
    catalogue.Extends (catalogue.push composite entry) where
  size := by simp
  entry id known := by rw [entry_push_of_lt known]; exact .refl _

/-- A catalogue that knows another composite is a later state. -/
theorem extends_addType (catalogue : Catalogue) (composite : Composite) (id : Nat) :
    catalogue.Extends (catalogue.addType composite id) :=
  ⟨Nat.le_refl _, fun _ _ => .refl _⟩

/-- A change that carries entries on makes a later state. -/
theorem extends_modifyEntry (change : RecordEntry → RecordEntry)
    (continues : ∀ entry : RecordEntry, entry.Continues (change entry)) (catalogue : Catalogue)
    (id : Nat) : catalogue.Extends (catalogue.modifyEntry id change) where
  size := by simp
  entry other known := by
    rw [entry_modifyEntry known]
    split
    · exact continues _
    · exact .refl _

namespace Extends

/-- A structure keeps its key. -/
theorem key (extension : before.Extends after) (known : id < before.size) :
    after.key id = before.key id := (extension.entry id known).key

/-- A structure keeps its layout. -/
theorem layout (extension : before.Extends after) (known : id < before.size) :
    after.layout id = before.layout id := (extension.entry id known).layout

/-- A structure keeps those that it refers to. -/
theorem children (extension : before.Extends after) (known : id < before.size) :
    after.children id = before.children id := by
  simp only [Catalogue.children, (extension.entry id known).fields]

end Extends

/-! ## What a catalogue says of a resolved field -/

/-- The part of a key that stands for what a field holds. -/
def keyPart (catalogue : Catalogue) : ResolvedType → String
  | .scalar scalar _ => scalar.native.text
  | .record id => "\x7b" ++ catalogue.key id ++ "\x7d"
  | .pointer id => "*\x7b" ++ catalogue.key id ++ "\x7d"

/-- Size and alignment of the elements of a field, with given layouts for structures. -/
def memberLayoutWith (layoutOf : Nat → Layout) (field : ResolvedField) : MemberLayout :=
  match field.type with
  | .scalar scalar _ => ⟨scalar.size, scalarAlign scalar.size, field.count⟩
  | .record id => ⟨(layoutOf id).size, (layoutOf id).align, field.count⟩
  | .pointer _ => ⟨TypeInfo.wordSize, scalarAlign TypeInfo.wordSize, field.count⟩

/-- Size and alignment of the elements of a field, and their number. -/
def memberLayout (catalogue : Catalogue) (field : ResolvedField) : MemberLayout :=
  memberLayoutWith catalogue.layout field

/-- A resolved field with what key and layout need of it. -/
def pieceOf (catalogue : Catalogue) (field : ResolvedField) : Piece where
  field := field
  layout := catalogue.memberLayout field
  key := fieldKey field.name (catalogue.keyPart field.type) field.count

/-- A field that refers to known structures only. -/
def Knows (catalogue : Catalogue) (field : ResolvedField) : Prop :=
  ∀ child, field.child? = some child → child < catalogue.size

namespace Extends

/-- A field has the same part in a key, and takes the same place, later on. -/
theorem pieceOf {field : ResolvedField} (extension : before.Extends after)
    (known : before.Knows field) : after.pieceOf field = before.pieceOf field := by
  obtain ⟨name, type, count⟩ := field
  cases type with
  | scalar scalar typeString => rfl
  | pointer child =>
      simp only [Catalogue.pieceOf, Catalogue.keyPart, Catalogue.memberLayout, memberLayoutWith,
        extension.key (known child rfl)]
  | record child =>
      simp only [Catalogue.pieceOf, Catalogue.keyPart, Catalogue.memberLayout, memberLayoutWith,
        extension.key (known child rfl), extension.layout (known child rfl)]

/-- A field takes the same place later on. -/
theorem memberLayout {field : ResolvedField} (extension : before.Extends after)
    (known : before.Knows field) : after.memberLayout field = before.memberLayout field :=
  congrArg Piece.layout (extension.pieceOf known)

end Extends

end Catalogue

end TypeBridge
