import TypeBridge.Proofs.Marshal.CallLayout
import TypeBridge.Proofs.Record.Requests

/-!
# The three definitions agree

A `Placement` is what the definitions of a structure have in common: where its fields stand, how
many elements they have and of what size, and what the structure takes as a whole, with the
placements of the structures that it holds. `definitions_agree` says that the catalogue, the array
library and the shape for calls have the same placement for a structure, and that the calling
convention arrives at it by itself.
-/

namespace TypeBridge

mutual

/-- Where the fields of a structure stand, and what it takes as a whole. -/
inductive Placement where
  | mk (fields : List FieldPlacement) (size align : Nat)

/-- Where a field stands; `elementSize` counts one of its elements. -/
inductive FieldPlacement where
  | mk (name : String) (offset count elementSize : Nat) (element : ElementPlacement)

/-- What an element of a field is. -/
inductive ElementPlacement where
  | scalar
  | record (placement : Placement)

end

mutual

/-- The placement of a structure in the array library. -/
def ArrayDtype.placement : ArrayDtype → Placement
  | .mk _ fields itemSize align => .mk (ArrayDtype.fieldsPlacement fields) itemSize align

/-- The placements of some fields in the array library. -/
def ArrayDtype.fieldsPlacement : List ArrayField → List FieldPlacement
  | [] => []
  | .mk name offset count elementSize format :: rest =>
    .mk name offset count elementSize format.placement :: ArrayDtype.fieldsPlacement rest

/-- What an element is in the array library. -/
def ArrayFormat.placement : ArrayFormat → ElementPlacement
  | .scalar _ _ => .scalar
  | .record dtype => .record dtype.placement

end

mutual

/-- The placement of a record that is passed by value. -/
def StructShape.placement : StructShape → Placement
  | .mk _ fields size align => .mk (StructShape.fieldsPlacement fields) size align

/-- The placements of some fields of a record that is passed by value. -/
def StructShape.fieldsPlacement : List FieldShape → List FieldPlacement
  | [] => []
  | .mk name kind count offset :: rest =>
    .mk name offset count kind.size kind.placement :: StructShape.fieldsPlacement rest

/-- What an element of a field is that is passed by value. -/
def FieldKind.placement : FieldKind → ElementPlacement
  | .scalar _ => .scalar
  | .struct shape => .record shape.placement

end

/-! ## Scalars -/

namespace ScalarKind

/-- A kind has the size of the types that are of it. -/
theorem size_of_ofInfo {info : TypeInfo} {kind : ScalarKind} (is : ofInfo info = .ok kind) :
    kind.size = info.size.getD 0 := by
  unfold ofInfo at is
  split at is <;> cases is <;> simp_all [size, TypeInfo.wordSize]

theorem size_of_scalarKindOf {info : TypeInfo} {owner member : String} {kind : ScalarKind}
    (is : scalarKindOf info owner member = .ok kind) : kind.size = info.size.getD 0 := by
  unfold scalarKindOf at is
  split at is
  · rename_i found
    cases is
    exact size_of_ofInfo found
  · cases is
  · cases is

end ScalarKind

namespace Catalogue

variable {catalogue : Catalogue} {id : Nat}

/-- Where a field stands, with given placements for structures. -/
def placementField (catalogue : Catalogue) (placementOf : Nat → Placement)
    (item : ResolvedField × Nat) : FieldPlacement :=
  .mk item.1.name item.2 item.1.count (catalogue.memberLayout item.1).size
    (match item.1.type with
    | .scalar _ _ => .scalar
    | .pointer _ => .scalar
    | .record child => .record (placementOf child))

/-- The placement of a structure in the catalogue. -/
def placement (catalogue : Catalogue) (id : Nat) : Placement :=
  let entry := catalogue.entry id
  .mk ((entry.fields.zip entry.layout.offsets).map (catalogue.placementField fun child =>
      if child < id then catalogue.placement child else .mk [] 0 1))
    entry.layout.size entry.layout.align
termination_by id

/-! ## The array library -/

theorem fieldsPlacement_map {α : Type} (field : α → ArrayField) (items : List α) :
    ArrayDtype.fieldsPlacement (items.map field) =
      items.map fun item => match field item with
        | .mk name offset count elementSize format =>
          .mk name offset count elementSize format.placement := by
  induction items with
  | nil => rfl
  | cons item rest ih =>
      rw [List.map_cons, List.map_cons, ← ih]
      cases field item
      rfl

/-- The array library places a structure as the catalogue does. -/
theorem placement_arrayDefinition (catalogue : Catalogue) (id : Nat) :
    (catalogue.arrayDefinition id).placement = catalogue.placement id := by
  induction id using Nat.strongRecOn with
  | ind id ih =>
      rw [arrayDefinition, placement, ArrayDtype.placement, fieldsPlacement_map]
      congr 1
      refine List.map_congr_left fun (field, offset) _ => ?_
      obtain ⟨name, type, count⟩ := field
      cases type with
      | scalar => rfl
      | pointer => rfl
      | record child =>
          dsimp only [placementField]
          rw [ArrayFormat.placement, memberLayout, memberLayoutWith]
          congr 2
          split
          · rename_i smaller
            exact ih child smaller
          · rfl

/-- A field at an offset in the array library, with given definitions for structures. -/
def arrayField (catalogue : Catalogue) (definitionOf : Nat → ArrayDtype) (item : ResolvedField × Nat) :
    ArrayField :=
  .mk item.1.name item.2 item.1.count (catalogue.memberLayout item.1).size
    (match item.1.type with
    | .scalar scalar typeString => .scalar scalar.arrayLib.text typeString
    | .pointer _ => .scalar addressDtype addressTypeString
    | .record child => .record (definitionOf child))

/-- In a sound catalogue the definition of a structure holds those of the structures in it. -/
theorem Sound.arrayDefinition_eq (sound : catalogue.Sound) (known : id < catalogue.size) :
    catalogue.arrayDefinition id = .mk (catalogue.name id)
      (((catalogue.entry id).fields.zip (catalogue.layout id).offsets).map
        (catalogue.arrayField catalogue.arrayDefinition))
      (catalogue.layout id).size (catalogue.layout id).align := by
  rw [arrayDefinition]
  dsimp only
  refine congrArg (ArrayDtype.mk _ · _ _) (List.map_congr_left fun (field, offset) member => ?_)
  have earlier := (sound.entry id known).child_lt (List.of_mem_zip member).1
  obtain ⟨name, type, count⟩ := field
  cases type with
  | scalar => rfl
  | pointer => rfl
  | record child =>
      dsimp only
      rw [if_pos (earlier child rfl)]
      rfl

/-! ## Calls by value -/

/-- What the shape for calls has for a field's type. -/
inductive CallsKind (catalogue : Catalogue) (owner member : String) :
    ResolvedType → FieldKind → Prop where
  | scalar {scalar : ResolvedScalar} {typeString : String} {kind : ScalarKind}
      (is : scalarKindOf scalar.info owner member = .ok kind) :
      CallsKind catalogue owner member (.scalar scalar typeString) (.scalar kind)
  | pointer {child : Nat} : CallsKind catalogue owner member (.pointer child) (.scalar .pointer)
  | record {child : Nat} {shape : StructShape} (defined : catalogue.callDefinition child = .ok shape) :
      CallsKind catalogue owner member (.record child) (.struct shape)

/-- What the shape for calls has for a field with its offset. -/
inductive CallsField (catalogue : Catalogue) (owner : String) :
    ResolvedField × Nat → FieldShape → Prop where
  | mk {field : ResolvedField} {offset : Nat} {kind : FieldKind}
      (calls : catalogue.CallsKind owner field.name field.type kind) :
      CallsField catalogue owner (field, offset) (.mk field.name kind field.count offset)

/-- Each answer of a list is that of its item. -/
theorem forall₂_of_mapM {ε α β : Type} {next : α → Except ε β} {items : List α} {answers : List β}
    (ran : items.mapM next = .ok answers) :
    List.Forall₂ (fun item answer => next item = .ok answer) items answers := by
  induction items generalizing answers with
  | nil =>
      cases ran
      exact .nil
  | cons item rest ih =>
      rw [List.mapM_cons] at ran
      obtain ⟨answer, first, ran⟩ := exists_of_bind_ok ran
      obtain ⟨more, others, ran⟩ := exists_of_bind_ok ran
      cases ran
      exact .cons first (ih others)

/-- A shape for calls is that of a structure without packing: it has the layout of the catalogue,
and for each field what the field's type calls for. -/
theorem Sound.callDefinition_ok (sound : catalogue.Sound) (known : id < catalogue.size)
    {shape : StructShape} (defined : catalogue.callDefinition id = .ok shape) :
    (catalogue.entry id).packing = .natural ∧ shape.size = (catalogue.layout id).size ∧
      shape.align = (catalogue.layout id).align ∧
      List.Forall₂ (catalogue.CallsField (catalogue.name id))
        ((catalogue.entry id).fields.zip (catalogue.layout id).offsets) shape.fields := by
  rw [callDefinition] at defined
  dsimp only at defined
  split at defined
  · cases defined
  · rename_i natural
    have earlier : ∀ item ∈ (catalogue.entry id).fields.zip (catalogue.layout id).offsets,
        ∀ child, item.1.type = .record child → child < id := fun item member _ holds =>
      (sound.entry id known).child_lt (List.of_mem_zip member).1 _ holds
    obtain ⟨fields, ran, ended⟩ := exists_of_bind_ok defined
    cases ended
    refine ⟨Decidable.not_not.mp natural, rfl, rfl, ?_⟩
    refine ((List.forall₂_and_left _ _).mpr ⟨earlier, forall₂_of_mapM ran⟩).imp ?_
    rintro ⟨⟨name, type, count⟩, offset⟩ answer ⟨before, answered⟩
    cases type with
    | scalar scalar typeString =>
        obtain ⟨kind, named, answered⟩ := exists_of_bind_ok answered
        obtain ⟨scalarKind, is, rfl⟩ := exists_of_map_ok named
        cases answered
        exact .mk (.scalar is)
    | pointer child =>
        cases answered
        exact .mk .pointer
    | record child =>
        dsimp only at answered
        rw [if_pos (before child rfl)] at answered
        obtain ⟨kind, held, answered⟩ := exists_of_bind_ok answered
        obtain ⟨shape, inner, rfl⟩ := exists_of_map_ok held
        cases answered
        exact .mk (.record inner)

/-- An element in a shape for calls has the size that the catalogue has for it. -/
theorem Sound.size_kind (sound : catalogue.Sound) (known : id < catalogue.size)
    {field : ResolvedField} (member : field ∈ (catalogue.entry id).fields) {kind : FieldKind}
    (calls : catalogue.CallsKind (catalogue.name id) field.name field.type kind) :
    kind.size = (catalogue.memberLayout field).size := by
  have earlier := (sound.entry id known).child_lt member
  obtain ⟨name, type, count⟩ := field
  cases calls with
  | scalar is => exact ScalarKind.size_of_scalarKindOf is
  | pointer => rfl
  | record defined =>
      exact (sound.callDefinition_ok (Nat.lt_trans (earlier _ rfl) known) defined).2.1

/-- The shapes of some fields have them where the catalogue has them. -/
theorem Sound.fieldsPlacement_eq (sound : catalogue.Sound) (known : id < catalogue.size)
    {items : List (ResolvedField × Nat)} {shapes : List FieldShape}
    (members : ∀ item ∈ items, item.1 ∈ (catalogue.entry id).fields)
    (calls : List.Forall₂ (catalogue.CallsField (catalogue.name id)) items shapes)
    (placementOf : Nat → Placement)
    (inner : ∀ child, child < id → ∀ shape, catalogue.callDefinition child = .ok shape →
      shape.placement = placementOf child) :
    StructShape.fieldsPlacement shapes = items.map (catalogue.placementField placementOf) := by
  induction calls with
  | nil => rfl
  | @cons item shape items shapes calls _ ih =>
      have member := members item List.mem_cons_self
      rw [List.map_cons, ← ih fun other inside => members other (List.mem_cons_of_mem _ inside)]
      obtain @⟨field, offset, kind, calls⟩ := calls
      have elementSize := sound.size_kind known member calls
      have earlier := (sound.entry id known).child_lt member
      rw [StructShape.fieldsPlacement, elementSize, placementField]
      congr 2
      obtain ⟨name, type, count⟩ := field
      cases calls with
      | scalar => rfl
      | pointer => rfl
      | @record child shape defined =>
          rw [FieldKind.placement, inner child (earlier child rfl) shape defined]

/-- The shape for calls places a structure as the catalogue does. -/
theorem Sound.placement_callDefinition (sound : catalogue.Sound) (known : id < catalogue.size)
    {shape : StructShape} (defined : catalogue.callDefinition id = .ok shape) :
    shape.placement = catalogue.placement id := by
  induction id using Nat.strongRecOn generalizing shape with
  | ind id ih =>
      obtain ⟨-, size, align, fields⟩ := sound.callDefinition_ok known defined
      obtain ⟨name, shapes, shapeSize, shapeAlign⟩ := shape
      have placed : StructShape.fieldsPlacement shapes = _ := sound.fieldsPlacement_eq known
        (fun item member => (List.of_mem_zip member).1) fields
        (fun child => if child < id then catalogue.placement child else .mk [] 0 1)
        fun child smaller inner defined => by
          rw [if_pos smaller]
          exact ih child smaller (Nat.lt_trans smaller known) defined
      rw [placement, StructShape.placement, placed]
      exact congrArg₂ (Placement.mk _) size align

/-! ## The calling convention -/

/-- A scalar looks to the calling convention as it does to the catalogue. -/
theorem cappedAlign_scalar (kind : ScalarKind) (count : Nat) :
    MemberLayout.cappedAlign Packing.natural.cap ⟨kind.size, scalarAlign kind.size, count⟩ =
      kind.size := by
  cases kind <;> rfl

/-- A structure that is held has the alignment that it has by itself. -/
theorem Sound.cappedAlign_record (sound : catalogue.Sound) (known : id < catalogue.size)
    (fits : catalogue.Fits id) (count : Nat) :
    MemberLayout.cappedAlign Packing.natural.cap
      ⟨(catalogue.layout id).size, (catalogue.layout id).align, count⟩ =
        (catalogue.layout id).align := by
  obtain ⟨positive, small, -⟩ := sound.exactLayout_aligned known
  rw [← sound.layout_eq_exact known fits] at positive small
  simp only [MemberLayout.cappedAlign, Packing.cap]
  omega

/-- A field of a shape for calls looks to the calling convention as the field does to the
catalogue, if the record that it may hold does. -/
theorem Sound.matches_field (sound : catalogue.Sound) (known : id < catalogue.size)
    (fits : catalogue.Fits id) {field : ResolvedField} {offset : Nat}
    (member : field ∈ (catalogue.entry id).fields) {shape : FieldShape}
    (calls : catalogue.CallsField (catalogue.name id) (field, offset) shape)
    (conforms : ∀ child inner, field.type = .record child →
      catalogue.callDefinition child = .ok inner → inner.Conforms) :
    shape.Matches Packing.natural.cap (catalogue.memberLayout field) := by
  have filled := (sound.entry id known).counts field member
  have earlier := (sound.entry id known).child_lt member
  have fitsChild := sound.fits_child known fits member
  obtain @⟨_, _, kind, calls⟩ := calls
  have elementSize := sound.size_kind known member calls
  obtain ⟨name, type, count⟩ := field
  cases calls with
  | @scalar scalar typeString kind is =>
      have size : scalar.size = kind.size := (ScalarKind.size_of_scalarKindOf is).symm
      have layout : catalogue.memberLayout ⟨name, .scalar scalar typeString, count⟩ =
          ⟨kind.size, scalarAlign kind.size, count⟩ := by
        change (⟨scalar.size, scalarAlign scalar.size, count⟩ : MemberLayout) = _
        rw [size]
      rw [layout]
      exact ⟨rfl, filled, rfl, rfl, (cappedAlign_scalar kind count).symm,
        (cappedAlign_scalar kind count).symm ▸ Nat.dvd_refl _⟩
  | pointer => exact ⟨rfl, filled, rfl, rfl, rfl, Nat.dvd_refl 8⟩
  | @record child shape defined =>
      have childKnown := Nat.lt_trans (earlier child rfl) known
      obtain ⟨-, size, align, -⟩ := sound.callDefinition_ok childKnown defined
      have laidOut := conforms child shape rfl defined
      have capped := sound.cappedAlign_record childKnown (fitsChild child rfl) count
      refine ⟨rfl, filled, elementSize, laidOut.size.trans size,
        (laidOut.align.trans align).trans capped.symm, ?_⟩
      change MemberLayout.cappedAlign Packing.natural.cap
        ⟨(catalogue.layout child).size, (catalogue.layout child).align, count⟩ ∣ _
      rw [capped]
      change (catalogue.layout child).align ∣ (catalogue.layout child).size
      rw [sound.layout_eq_exact childKnown (fitsChild child rfl)]
      exact (sound.exactLayout_aligned childKnown).2.2

/-- The fields of a shape for calls look to the calling convention as those of the structure do to
the catalogue, and stand where the catalogue has them. -/
theorem Sound.matches_fields (sound : catalogue.Sound) (known : id < catalogue.size)
    (fits : catalogue.Fits id) {fields : List ResolvedField} {offsets : List Nat}
    {shapes : List FieldShape} (members : ∀ field ∈ fields, field ∈ (catalogue.entry id).fields)
    (lengths : offsets.length = fields.length)
    (calls : List.Forall₂ (catalogue.CallsField (catalogue.name id)) (fields.zip offsets) shapes)
    (conforms : ∀ child inner, child < id → catalogue.Fits child →
      catalogue.callDefinition child = .ok inner → inner.Conforms) :
    List.Forall₂ (FieldShape.Matches Packing.natural.cap) shapes
        (fields.map catalogue.memberLayout) ∧ shapes.map FieldShape.offset = offsets := by
  induction fields generalizing offsets shapes with
  | nil =>
      cases List.eq_nil_of_length_eq_zero lengths
      cases calls
      exact ⟨.nil, rfl⟩
  | cons field rest ih =>
      cases offsets with
      | nil => cases lengths
      | cons offset offsets =>
          rw [List.zip_cons_cons] at calls
          cases calls with
          | @cons _ shape _ shapes first others =>
              have member := members field List.mem_cons_self
              obtain ⟨agree, sameOffsets⟩ := ih
                (fun other inside => members other (List.mem_cons_of_mem _ inside))
                (Nat.succ.inj lengths) others
              refine ⟨.cons (sound.matches_field known fits member first ?_) agree, ?_⟩
              · exact fun child inner holds => conforms child inner
                  ((sound.entry id known).child_lt member _ holds)
                  (sound.fits_child known fits member _ holds)
              · rw [List.map_cons, sameOffsets]
                cases first
                rfl

/-- The calling convention arrives at the layout of a structure by itself. -/
theorem Sound.conforms (sound : catalogue.Sound) (known : id < catalogue.size)
    (fits : catalogue.Fits id) {shape : StructShape}
    (defined : catalogue.callDefinition id = .ok shape) : shape.Conforms := by
  induction id using Nat.strongRecOn generalizing shape with
  | ind id ih =>
      obtain ⟨natural, size, align, calls⟩ := sound.callDefinition_ok known defined
      have layout := sound.layout_eq_members known fits
      obtain ⟨agree, offsets⟩ := sound.matches_fields known fits (fun _ member => member)
        (sound.length_offsets known) calls fun child inner smaller fitsChild defined =>
          ih child smaller (Nat.lt_trans smaller known) fitsChild defined
      refine conforms_of_placed (Packing.cap_pos .natural) agree ?_
      rw [offsets, size, align, ← natural]
      exact layout.symm

/-- A record within the shape of a structure is the shape of a structure, which fits as well. -/
theorem Sound.within_callDefinition (sound : catalogue.Sound) (known : id < catalogue.size)
    (fits : catalogue.Fits id) {shape inner : StructShape}
    (defined : catalogue.callDefinition id = .ok shape) (within : inner.Within shape) :
    ∃ child, child < catalogue.size ∧ catalogue.Fits child ∧
      catalogue.callDefinition child = .ok inner := by
  induction within generalizing id with
  | itself => exact ⟨id, known, fits, defined⟩
  | @field outer middle field member holds _ ih =>
      obtain ⟨-, -, -, calls⟩ := sound.callDefinition_ok known defined
      obtain ⟨item, inside, call⟩ := exists_of_mem_right calls member
      obtain @⟨declared, offset, kind, kindCall⟩ := call
      have declaredMember := (List.of_mem_zip inside).1
      change kind = .struct middle at holds
      subst holds
      generalize type : declared.type = resolved at kindCall
      cases kindCall with
      | @record child _ childDefined =>
          have smaller := (sound.entry id known).child_lt declaredMember _ type
          exact ih (Nat.lt_trans smaller known) (sound.fits_child known fits declaredMember _ type)
            childDefined

/-- The synchronized definitions agree. For a structure whose bytes a word can count, the layout of
the catalogue is exact and has an offset for every field; the array library and the shape for calls,
if there is one, have it at every depth; and the calling convention, which is told of the elements
alone, finds each element of each record in the shape where the shape has it, and the same size and
alignment for the record. -/
theorem definitions_agree {log : EntryLog} {catalogue : Catalogue} {id : Nat}
    (reached : Reached log catalogue) (known : id < catalogue.size) (fits : catalogue.Fits id) :
    catalogue.layout id = catalogue.exactLayout id ∧
    (catalogue.layout id).offsets.length = (catalogue.entry id).fields.length ∧
    (catalogue.arrayDefinition id).placement = catalogue.placement id ∧
    ∀ shape, catalogue.callDefinition id = .ok shape →
      shape.placement = catalogue.placement id ∧
        ∀ inner : StructShape, inner.Within shape → inner.Conforms := by
  have sound := reached.sound
  refine ⟨sound.layout_eq_exact known fits, sound.length_offsets known,
    placement_arrayDefinition catalogue id, fun shape defined => ?_⟩
  refine ⟨sound.placement_callDefinition known defined, fun inner within => ?_⟩
  obtain ⟨child, childKnown, childFits, childDefined⟩ :=
    sound.within_callDefinition known fits defined within
  exact sound.conforms childKnown childFits childDefined

/-- A record with an array of records, a pointer and a gap before it. -/
def heldRecord : Composite :=
  .mk [.single "tag" (.scalar (.native "float")),
    .array "points" (.composite (floatRecord (.native "float"))) 2,
    .single "next" (.pointer (floatRecord (.native "float")))] .natural

/-- The catalogue with that record and the one in it. -/
def heldCatalogue : Catalogue :=
  ((create Scripted.Script.words.machine heldRecord).run (.empty, floatSession)).2.1

/-- The record is placed alike by all, with a gap before its pointer. -/
theorem definitions_agree_heldRecord : heldCatalogue.Fits 1 ∧
    (heldCatalogue.layout 1).offsets = [0, 4, 16] ∧
    (heldCatalogue.arrayDefinition 1).placement = heldCatalogue.placement 1 ∧
    ∃ shape, heldCatalogue.callDefinition 1 = .ok shape ∧ shape.Conforms := by
  have reached : Reached _ heldCatalogue := reached_enteredFirst heldRecord rfl
  have facts : (1 < heldCatalogue.size ∧ heldCatalogue.Fits 1) ∧
      (heldCatalogue.layout 1).offsets = [0, 4, 16] ∧
      (heldCatalogue.callDefinition 1).toOption.isSome := by
    decide +kernel
  obtain ⟨⟨known, fits⟩, offsets, called⟩ := facts
  obtain ⟨-, -, arrays, calls⟩ := definitions_agree reached known fits
  cases defined : heldCatalogue.callDefinition 1 with
  | error fault => rw [defined] at called; cases called
  | ok shape => exact ⟨fits, offsets, arrays, shape, rfl, (calls shape defined).2 shape .itself⟩

end Catalogue

end TypeBridge
