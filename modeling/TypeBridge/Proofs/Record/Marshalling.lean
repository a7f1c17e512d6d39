import TypeBridge.Proofs.Marshal.Confusion
import TypeBridge.Proofs.Record.Placement

/-!
# Structures passed by value

The shape of a structure for calls has its fields in order and in places of their own, so a value
that is written comes back unless a name leads to another field: `marshals_iff` says that every
value comes back exactly if no structure in the shape has two fields of one name. The catalogue
enters such structures like all others.
-/

namespace TypeBridge

open StructShape (FieldsInOrder)

/-- Fields that were placed one after the other stand in order. -/
theorem fieldsInOrder_of_placed {cap : Nat} (positive : 0 < cap) {fields : List FieldShape}
    {members : List MemberLayout} (agree : List.Forall₂ (FieldShape.Matches cap) fields members)
    (cursor : Nat) {greatest : Nat} (greatestPositive : 0 < greatest)
    (offsets : fields.map FieldShape.offset =
      (Exact.placeFrom cap cursor greatest members).offsets) :
    FieldsInOrder (Exact.placeFrom cap cursor greatest members).size cursor fields := by
  induction agree generalizing cursor greatest with
  | nil => exact Exact.le_roundUp greatestPositive cursor
  | @cons field member fields members agrees _ ih =>
      rw [Exact.placeFrom, List.map_cons] at offsets
      obtain ⟨start, offsets⟩ := List.cons.inj offsets
      have later := ih _
        (Nat.lt_of_lt_of_le greatestPositive (Nat.le_max_left _ (member.cappedAlign cap))) offsets
      refine ⟨?_, agrees.filled, ?_⟩
      · rw [start]
        exact Exact.le_roundUp (member.cappedAlign_pos positive) cursor
      · rw [start, agrees.count, agrees.size, Nat.mul_comm]
        exact later

namespace Catalogue

variable {catalogue : Catalogue} {id : Nat} {shape : StructShape}

/-- The fields of a shape for calls go by the names of the structure's. -/
theorem Sound.names_callDefinition (sound : catalogue.Sound) (known : id < catalogue.size)
    (defined : catalogue.callDefinition id = .ok shape) :
    shape.fields.map FieldShape.name = (catalogue.entry id).fields.map (·.name) := by
  obtain ⟨-, -, -, calls⟩ := sound.callDefinition_ok known defined
  have named : ∀ {items : List (ResolvedField × Nat)} {shapes : List FieldShape},
      List.Forall₂ (catalogue.CallsField (catalogue.name id)) items shapes →
        shapes.map FieldShape.name = items.map fun item => item.1.name := by
    intro items shapes calls
    induction calls with
    | nil => rfl
    | cons first _ ih =>
        rw [List.map_cons, List.map_cons, ih]
        cases first
        rfl
  rw [named calls]
  have fields : ((catalogue.entry id).fields.zip (catalogue.layout id).offsets).map Prod.fst =
      (catalogue.entry id).fields :=
    List.map_fst_zip (Nat.le_of_eq (sound.length_offsets known).symm)
  conv_rhs => rw [← fields, List.map_map]
  rfl

/-- A shape for calls is placed. -/
theorem Sound.placed_callDefinition (sound : catalogue.Sound) (known : id < catalogue.size)
    (fits : catalogue.Fits id) (defined : catalogue.callDefinition id = .ok shape) :
    shape.Placed := by
  intro inner within
  obtain ⟨child, childKnown, childFits, childDefined⟩ :=
    sound.within_callDefinition known fits defined within
  obtain ⟨natural, size, -, calls⟩ := sound.callDefinition_ok childKnown childDefined
  constructor
  · intro none
    have names := sound.names_callDefinition childKnown childDefined
    rw [none, List.map_nil] at names
    exact (sound.entry child childKnown).filled (List.map_eq_nil_iff.mp names.symm)
  · have layout := sound.layout_eq_members childKnown childFits
    obtain ⟨agree, offsets⟩ := sound.matches_fields childKnown childFits (fun _ member => member)
      (sound.length_offsets childKnown) calls fun grandchild shape smaller fitsChild defined =>
        sound.conforms (Nat.lt_trans smaller childKnown) fitsChild defined
    rw [size, layout]
    rw [layout, natural] at offsets
    rw [natural]
    exact fieldsInOrder_of_placed (Packing.cap_pos .natural) agree 0 Nat.one_pos offsets

/-- A structure whose bytes a word can count is passed by value without loss exactly if no structure
in its shape, at any depth, has two fields of one name: then every value that the shape holds is
written into any buffer of its size, and read from there. -/
theorem marshals_iff {log : EntryLog} (reached : Reached log catalogue)
    (known : id < catalogue.size) (fits : catalogue.Fits id)
    (defined : catalogue.callDefinition id = .ok shape) :
    (∀ value, shape.Holds value → ∀ buffer : List UInt8, buffer.length = shape.size →
      ∃ octets, encode (.struct shape) value buffer = .ok octets ∧
        octets.length = shape.size ∧ decode (.struct shape) octets = value) ↔
    ∀ inner : StructShape, inner.Within shape → (inner.fields.map FieldShape.name).Nodup :=
  (reached.sound.placed_callDefinition known fits defined).roundTrips_iff

/-- The record with an array of records comes back, whatever it holds. -/
theorem marshals_iff_heldRecord : ∃ shape, heldCatalogue.callDefinition 1 = .ok shape ∧
    ∀ value, shape.Holds value → ∀ buffer : List UInt8, buffer.length = shape.size →
      ∃ octets, encode (.struct shape) value buffer = .ok octets ∧
        octets.length = shape.size ∧ decode (.struct shape) octets = value := by
  have reached : Reached _ heldCatalogue := reached_enteredFirst heldRecord rfl
  have facts : (heldCatalogue.size = 2 ∧ heldCatalogue.Fits 1) ∧
      (∀ child < 2, ((heldCatalogue.entry child).fields.map (·.name)).Nodup) ∧
      (heldCatalogue.callDefinition 1).isOk := by
    decide +kernel
  obtain ⟨⟨size, fits⟩, once, called⟩ := facts
  have known : 1 < heldCatalogue.size := size ▸ Nat.one_lt_two
  obtain ⟨shape, defined⟩ := exists_of_isOk called
  refine ⟨shape, defined, (marshals_iff reached known fits defined).mpr fun inner within => ?_⟩
  obtain ⟨child, childKnown, -, childDefined⟩ :=
    reached.sound.within_callDefinition known fits defined within
  rw [reached.sound.names_callDefinition childKnown childDefined]
  exact once child (size ▸ childKnown)

/-- A record with two fields of one name. -/
def twiceNamed : Composite :=
  .mk [.single "x" (.scalar (.native "float")), .single "x" (.scalar (.native "float"))] .natural

/-- The catalogue with that record. -/
def twiceCatalogue : Catalogue :=
  ((create Scripted.Script.words.machine twiceNamed).run (.empty, floatSession)).2.1

/-- Its second field does not always come back. -/
theorem lossy_twiceNamed : ¬ ∀ (log : EntryLog) (catalogue : Catalogue) (id : Nat)
    (shape : StructShape), Reached log catalogue → id < catalogue.size → catalogue.Fits id →
    catalogue.callDefinition id = .ok shape →
    ∀ value, shape.Holds value → ∀ buffer : List UInt8, buffer.length = shape.size →
      ∃ octets, encode (.struct shape) value buffer = .ok octets ∧
        octets.length = shape.size ∧ decode (.struct shape) octets = value := by
  intro claim
  have reached : Reached _ twiceCatalogue := reached_enteredFirst twiceNamed rfl
  have facts : (0 < twiceCatalogue.size ∧ twiceCatalogue.Fits 0) ∧
      ¬((twiceCatalogue.entry 0).fields.map (·.name)).Nodup ∧
      (twiceCatalogue.callDefinition 0).isOk := by
    decide +kernel
  obtain ⟨⟨known, fits⟩, twice, called⟩ := facts
  obtain ⟨shape, defined⟩ := exists_of_isOk called
  rw [← reached.sound.names_callDefinition known defined] at twice
  have placed := reached.sound.placed_callDefinition known fits defined
  exact (placed.confused .itself twice).not_roundTrips
    (claim _ twiceCatalogue 0 shape reached known fits defined)

end Catalogue

end TypeBridge
