import TypeBridge.Proofs.Marshal.Held

/-!
# Records written and read

The fields of a record are written in order and each into a part of the buffer of its own, so the
parts before the next field are final: `Keeps` says so of a step. `roundTrips_struct` says that a
record whose fields have names of their own is read from what it was written as, if its fields are.
-/

namespace TypeBridge

/-! ## Parts of buffers -/

section Buffers

variable {buffer before middle after part : List UInt8} {offset size cursor : Nat}

theorem length_slice (fits : offset + size ≤ buffer.length) :
    (slice buffer offset size).length = size := by
  simp only [slice, List.length_take, List.length_drop]
  omega

theorem slice_take (inside : offset + size ≤ cursor) :
    slice (buffer.take cursor) offset size = slice buffer offset size := by
  rw [slice, slice, List.drop_take, List.take_take]
  congr 1
  omega

/-- A part that is written over a buffer is read from there. -/
theorem slice_splice (inside : offset ≤ buffer.length) :
    slice (splice buffer offset part) offset part.length = part := by
  have start : (buffer.take offset).length = offset := by
    rw [List.length_take]
    omega
  rw [slice, splice, List.append_assoc, List.drop_append, start]
  simp

/-- A buffer behind a step that leaves its length and its front as they are. -/
structure Keeps (cursor : Nat) (before after : List UInt8) : Prop where
  length : after.length = before.length
  front : after.take cursor = before.take cursor

namespace Keeps

theorem refl (cursor : Nat) (buffer : List UInt8) : Keeps cursor buffer buffer := ⟨rfl, rfl⟩

theorem trans (start : Keeps cursor before middle) (last : Keeps cursor middle after) :
    Keeps cursor before after :=
  ⟨last.length.trans start.length, last.front.trans start.front⟩

/-- A step that keeps a longer front keeps a shorter one. -/
theorem shorten {earlier : Nat} (keeps : Keeps cursor before after) (le : earlier ≤ cursor) :
    Keeps earlier before after where
  length := keeps.length
  front := by
    have same := congrArg (List.take earlier) keeps.front
    rwa [List.take_take, List.take_take, Nat.min_eq_left le] at same

/-- Parts of the front are read alike before and after. -/
theorem slice_eq (keeps : Keeps cursor before after) (inside : offset + size ≤ cursor) :
    slice after offset size = slice before offset size := by
  rw [← slice_take inside, keeps.front, slice_take inside]

end Keeps

/-- Writing over a part of a buffer keeps what is before it. -/
theorem keeps_splice (fits : offset + part.length ≤ buffer.length) :
    Keeps offset buffer (splice buffer offset part) where
  length := by
    simp only [splice, List.length_append, List.length_take, List.length_drop]
    omega
  front := by
    have start : (buffer.take offset).length = offset := by
      rw [List.length_take]
      omega
    rw [splice, List.append_assoc, List.take_append, start]
    simp [List.take_take]

end Buffers

/-! ## Elements -/

/-- Every element of a kind is read from what it was written as. -/
def FieldKind.RoundTrips (kind : FieldKind) : Prop :=
  ∀ value, kind.Holds value → ∀ buffer, buffer.length = kind.size →
    ∃ octets, encodeKind kind value buffer = .ok octets ∧ octets.length = kind.size ∧
      decodeKind kind octets = value

theorem roundTrips_scalar (kind : ScalarKind) : (FieldKind.scalar kind).RoundTrips := by
  intro value holds buffer length
  obtain ⟨octets, written, fits, read⟩ := ScalarKind.Holds.written holds
  have all : splice buffer 0 octets = octets := by
    have filled : buffer.length = octets.length := length.trans fits.symm
    simp [splice, ← filled]
  refine ⟨octets, ?_, fits, ?_⟩
  · simp [encodeKind, written, all]
  · rw [decodeKind, decodeScalar, ← fits, List.take_length, read]

variable {kind : FieldKind} {value : Value} {buffer before after : List UInt8} {offset cursor : Nat}

/-- An element is written into its part of a buffer and read from there. -/
theorem FieldKind.RoundTrips.within (trips : kind.RoundTrips) (holds : kind.Holds value)
    (fits : offset + kind.size ≤ buffer.length) :
    ∃ after, encodeWithin offset kind.size (encodeKind kind value) buffer = .ok after ∧
      Keeps offset buffer after ∧ decodeKind kind (slice after offset kind.size) = value := by
  obtain ⟨octets, written, length, read⟩ := trips value holds _ (length_slice fits)
  refine ⟨splice buffer offset octets, ?_, keeps_splice (length ▸ fits), ?_⟩
  · rw [encodeWithin, if_pos fits, written]
    rfl
  · rw [← length, slice_splice (by omega), read]

/-- The elements of an array are written one after the other and read from there. -/
theorem FieldKind.RoundTrips.items (trips : kind.RoundTrips) {items : List Value}
    (hold : ∀ item ∈ items, kind.Holds item)
    (fits : offset + items.length * kind.size ≤ buffer.length) :
    ∃ after, encodeItems kind.size (encodeKind kind) offset items buffer = .ok after ∧
      Keeps offset buffer after ∧
      (List.range items.length).map (fun index =>
        decodeKind kind (slice after (offset + index * kind.size) kind.size)) = items := by
  induction items generalizing offset buffer with
  | nil => exact ⟨buffer, rfl, .refl _ _, rfl⟩
  | cons item rest ih =>
      rw [List.length_cons, Nat.succ_mul] at fits
      obtain ⟨middle, first, keeps, read⟩ :=
        trips.within (hold item List.mem_cons_self)
          (by omega : offset + kind.size ≤ buffer.length)
      have room : offset + kind.size + rest.length * kind.size ≤ middle.length := by
        rw [keeps.length]
        omega
      obtain ⟨after, others, later, readOthers⟩ :=
        ih (fun other member => hold other (List.mem_cons_of_mem item member)) room
      refine ⟨after, ?_, keeps.trans (later.shorten (by omega)), ?_⟩
      · rw [encodeItems, first]
        exact others
      · rw [List.length_cons, List.range_succ_eq_map, List.map_cons, List.map_map]
        congr 1
        · rw [Nat.zero_mul, Nat.add_zero, later.slice_eq (Nat.le_refl _), read]
        · refine Eq.trans (List.map_congr_left fun index _ => ?_) readOthers
          simp only [Function.comp_apply, Nat.succ_mul]
          congr 2
          omega

/-! ## Fields -/

/-- A field is written into its part of a buffer and read from there. -/
theorem FieldKind.RoundTrips.field {field : FieldShape} (trips : field.kind.RoundTrips)
    (holds : field.Holds value)
    (fits : field.offset + field.count * field.kind.size ≤ buffer.length)
    (filled : 0 < field.count) :
    ∃ after, encodeField field value buffer = .ok after ∧ Keeps field.offset buffer after ∧
      decodeField field after = value := by
  obtain ⟨name, kind, count, offset⟩ := field
  simp only [FieldShape.kind, FieldShape.offset, FieldShape.count] at trips fits filled ⊢
  by_cases several : count > 1
  · simp only [FieldShape.Holds, if_pos several] at holds
    obtain ⟨items, rfl, rfl, hold⟩ := holds
    obtain ⟨after, written, keeps, read⟩ := trips.items hold fits
    refine ⟨after, ?_, keeps, ?_⟩
    · simp only [encodeField, if_pos several, if_true]
      exact written
    · rw [decodeField, if_pos several, read]
  · obtain rfl : count = 1 := by omega
    simp only [FieldShape.Holds, if_neg several] at holds
    rw [Nat.one_mul] at fits
    obtain ⟨after, written, keeps, read⟩ := trips.within holds fits
    refine ⟨after, ?_, keeps, ?_⟩
    · simp only [encodeField, if_neg several, written]
    · rw [decodeField, if_neg several, read]

/-- A field is read alike from buffers that have the same in its part. -/
theorem Keeps.decodeField_eq {field : FieldShape} (keeps : Keeps cursor before after)
    (inside : field.offset + field.count * field.kind.size ≤ cursor) (filled : 0 < field.count) :
    decodeField field after = decodeField field before := by
  obtain ⟨name, kind, count, offset⟩ := field
  simp only [FieldShape.kind, FieldShape.offset, FieldShape.count] at inside filled
  have part : ∀ index, index < count →
      slice after (offset + index * kind.size) kind.size =
        slice before (offset + index * kind.size) kind.size := by
    intro index small
    have ends := Nat.mul_le_mul_right kind.size (Nat.succ_le_of_lt small)
    rw [Nat.succ_mul] at ends
    exact keeps.slice_eq (by omega)
  by_cases several : count > 1
  · simp only [decodeField, if_pos several]
    congr 1
    refine List.map_congr_left fun index member => ?_
    rw [part index (List.mem_range.mp member)]
  · have first := part 0 filled
    rw [Nat.zero_mul, Nat.add_zero] at first
    rw [decodeField, decodeField, if_neg several, if_neg several, first]

/-! ## Records -/

namespace StructShape

/-- Fields that stand one after the other, from a place on, in a record of some size. -/
def FieldsInOrder (size : Nat) : Nat → List FieldShape → Prop
  | cursor, [] => cursor ≤ size
  | cursor, field :: rest => cursor ≤ field.offset ∧ 0 < field.count ∧
    FieldsInOrder size (field.offset + field.count * field.kind.size) rest

theorem FieldsInOrder.le_size {size : Nat} {fields : List FieldShape}
    (inOrder : FieldsInOrder size cursor fields) : cursor ≤ size := by
  induction fields generalizing cursor with
  | nil => exact inOrder
  | cons field rest ih =>
      obtain ⟨start, -, later⟩ := inOrder
      have ends := ih later
      omega

/-- The entries of some fields have the names of the fields. -/
theorem FieldsHold.names {fields : List FieldShape} {entries : List (String × Value)}
    (hold : FieldsHold fields entries) : entries.map (·.1) = fields.map FieldShape.name := by
  induction fields generalizing entries with
  | nil =>
      obtain rfl := hold
      rfl
  | cons field rest ih =>
      obtain ⟨value, more, rfl, -, others⟩ := hold
      rw [List.map_cons, List.map_cons, ih others]

/-- The fields of a record are written in order and read from there, if each finds its own entry by
its name. -/
theorem FieldsInOrder.written {size : Nat} {fields : List FieldShape} (owner : String)
    (inOrder : FieldsInOrder size cursor fields) (trip : ∀ field ∈ fields, field.kind.RoundTrips)
    {entries : List (String × Value)} (hold : FieldsHold fields entries)
    (found : ∀ entry ∈ entries, value.field? entry.1 = some entry.2)
    (length : buffer.length = size) :
    ∃ after, encodeFields owner fields value buffer = .ok after ∧ Keeps cursor buffer after ∧
      decodeFields fields after = entries := by
  induction fields generalizing cursor entries buffer with
  | nil =>
      obtain rfl := hold
      exact ⟨buffer, rfl, .refl _ _, rfl⟩
  | cons field rest ih =>
      obtain ⟨item, more, rfl, holds, others⟩ := hold
      obtain ⟨start, filled, later⟩ := inOrder
      have inside : field.offset + field.count * field.kind.size ≤ buffer.length := by
        rw [length]
        exact later.le_size
      obtain ⟨middle, written, keeps, read⟩ :=
        (trip field List.mem_cons_self).field holds inside filled
      obtain ⟨after, writtenOthers, keepsOthers, readOthers⟩ := ih later
        (fun other member => trip other (List.mem_cons_of_mem field member)) others
        (fun entry member => found entry (List.mem_cons_of_mem _ member))
        (keeps.length.trans length)
      -- The other fields are written behind this one, so its part stays as it was written.
      refine ⟨after, ?_, ?_, ?_⟩
      · have own : value.field? field.name = some item := found (field.name, item)
          List.mem_cons_self
        rw [encodeFields, own]
        simp only [written, writtenOthers]
      · exact (keeps.shorten start).trans (keepsOthers.shorten (by omega))
      · rw [decodeFields, readOthers, keepsOthers.decodeField_eq (Nat.le_refl _) filled, read]

/-- Every entry is found under its name if the fields have names of their own. -/
theorem FieldsHold.found {fields : List FieldShape} {entries : List (String × Value)}
    (hold : FieldsHold fields entries) (once : (fields.map FieldShape.name).Nodup) :
    ∀ entry ∈ entries, (Value.struct entries).field? entry.1 = some entry.2 := by
  intro entry member
  obtain ⟨front, back, rfl⟩ := List.append_of_mem member
  refine List.lookup_eq_some_iff.mpr ⟨front, back, rfl, fun other before => ?_⟩
  rw [← hold.names, List.map_append, List.nodup_append] at once
  have apart := once.2.2 other.1 (List.mem_map_of_mem before) entry.1 (by simp)
  simpa using Ne.symm apart

end StructShape

/-- A record whose fields stand in order under names of their own is read from what it was written
as. -/
theorem roundTrips_struct {shape : StructShape}
    (inOrder : StructShape.FieldsInOrder shape.size 0 shape.fields)
    (once : (shape.fields.map FieldShape.name).Nodup)
    (trip : ∀ field ∈ shape.fields, field.kind.RoundTrips) :
    (FieldKind.struct shape).RoundTrips := by
  intro value holds buffer length
  obtain ⟨name, fields, size, align⟩ := shape
  obtain ⟨entries, rfl, hold⟩ := holds
  obtain ⟨after, written, keeps, read⟩ :=
    inOrder.written name trip hold (hold.found once) length
  refine ⟨after, ?_, keeps.length.trans length, ?_⟩
  · rw [encodeKind, encodeStruct]
    exact written
  · rw [decodeKind, decodeStruct]
    exact congrArg Value.struct read

end TypeBridge
