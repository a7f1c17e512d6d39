import Mathlib.Data.List.Nodup
import TypeBridge.Proofs.Marshal.CallLayout
import TypeBridge.Proofs.Marshal.RoundTrip

/-!
# Values that are written alike

Fields are written by name and read by place. If two fields of a record share a name, the second is
written with the entry of the first, so two values that differ in the second entry alone are written
alike: the record is `Confused`, and so is every record that holds one. `roundTrips_iff` says that
nothing else keeps a record from being read back.
-/

namespace TypeBridge

/-- Two different values that a kind holds. -/
def FieldKind.Varied (kind : FieldKind) : Prop :=
  ∃ value other, kind.Holds value ∧ kind.Holds other ∧ value ≠ other

/-- Two different values that a kind holds and that are written alike. -/
def FieldKind.Confused (kind : FieldKind) : Prop :=
  ∃ value other, kind.Holds value ∧ kind.Holds other ∧ value ≠ other ∧
    encodeKind kind value = encodeKind kind other

/-- What is written alike cannot be told apart when it is read. -/
theorem FieldKind.Confused.not_roundTrips {kind : FieldKind} (confused : kind.Confused) :
    ¬kind.RoundTrips := by
  obtain ⟨value, other, holds, otherHolds, different, alike⟩ := confused
  intro trips
  have length := List.length_replicate (n := kind.size) (a := (0 : UInt8))
  obtain ⟨octets, written, -, read⟩ := trips value holds _ length
  obtain ⟨octets', written', -, read'⟩ := trips other otherHolds _ length
  rw [alike, written'] at written
  obtain rfl := Except.ok.inj written
  exact different (read.symm.trans read')

theorem varied_scalar (kind : ScalarKind) : (FieldKind.scalar kind).Varied := by
  cases kind with
  | i8 => exact ⟨_, _, .i8 0, .i8 1, by simp⟩
  | u8 => exact ⟨_, _, .u8 0, .u8 1, by simp⟩
  | i16 => exact ⟨_, _, .i16 0, .i16 1, by simp⟩
  | u16 => exact ⟨_, _, .u16 0, .u16 1, by simp⟩
  | i32 => exact ⟨_, _, .i32 0, .i32 1, by simp⟩
  | u32 => exact ⟨_, _, .u32 0, .u32 1, by simp⟩
  | i64 => exact ⟨_, _, .i64 0, .i64 1, by simp⟩
  | u64 => exact ⟨_, _, .u64 0, .u64 1, by simp⟩
  | f32 => exact ⟨_, _, .f32 0 (by decide), .f32 1 (by decide), by simp⟩
  | f64 => exact ⟨_, _, .f64 0 (by decide), .f64 1 (by decide), by simp⟩
  | pointer => exact ⟨_, _, .pointer 0, .pointer 1, by simp⟩

/-! ## Fields -/

namespace FieldShape

variable {field : FieldShape} {value other : Value}

/-- A field whose elements are all the same. -/
def spread : FieldShape → Value → Value
  | .mk _ _ count _, value => if count > 1 then .array (List.replicate count value) else value

theorem holds_spread (holds : field.kind.Holds value) : field.Holds (field.spread value) := by
  obtain ⟨name, kind, count, offset⟩ := field
  rw [Holds, spread]
  by_cases several : count > 1
  · rw [if_pos several, if_pos several]
    refine ⟨_, rfl, List.length_replicate, fun item member => ?_⟩
    rw [List.eq_of_mem_replicate member]
    exact holds
  · rw [if_neg several, if_neg several]
    exact holds

theorem spread_ne (different : value ≠ other) : field.spread value ≠ field.spread other := by
  obtain ⟨name, kind, count, offset⟩ := field
  rw [spread, spread]
  by_cases several : count > 1
  · rw [if_pos several, if_pos several]
    intro same
    have items := List.replicate_inj.mp (Value.array.inj same)
    rcases items.2 with none | equal
    · omega
    · exact different equal
  · rw [if_neg several, if_neg several]
    exact different

/-- Elements that are written alike are written alike in a row. -/
theorem encodeItems_replicate {write : Value → List UInt8 → Except MarshalFault (List UInt8)}
    (alike : write value = write other) (stride count offset : Nat) (buffer : List UInt8) :
    encodeItems stride write offset (List.replicate count value) buffer =
      encodeItems stride write offset (List.replicate count other) buffer := by
  induction count generalizing offset buffer with
  | zero => rfl
  | succ count ih =>
      simp only [List.replicate_succ, encodeItems, alike]
      cases encodeWithin offset stride (write other) buffer with
      | error fault => rfl
      | ok middle => exact ih _ _

theorem encodeField_spread (alike : encodeKind field.kind value = encodeKind field.kind other)
    (buffer : List UInt8) :
    encodeField field (field.spread value) buffer =
      encodeField field (field.spread other) buffer := by
  obtain ⟨name, kind, count, offset⟩ := field
  change encodeKind kind value = encodeKind kind other at alike
  rw [spread, spread]
  by_cases several : count > 1
  · simp only [encodeField, if_pos several, List.length_replicate, if_true]
    exact encodeItems_replicate alike _ _ _ _
  · simp only [encodeField, if_neg several, alike]

end FieldShape

/-! ## Records -/

namespace StructShape

variable {fields front back : List FieldShape} {field : FieldShape}
  {entries early late : List (String × Value)} {value other : Value}

theorem FieldsHold.append (hold : FieldsHold front early) (later : FieldsHold back late) :
    FieldsHold (front ++ back) (early ++ late) := by
  induction front generalizing early with
  | nil =>
      obtain rfl := hold
      exact later
  | cons first rest ih =>
      obtain ⟨item, more, rfl, holds, others⟩ := hold
      exact ⟨item, more ++ late, rfl, holds, ih others⟩

/-- Fields that each hold a value have entries. -/
theorem exists_fieldsHold (varied : ∀ field ∈ fields, field.kind.Varied) :
    ∃ entries, FieldsHold fields entries := by
  induction fields with
  | nil => exact ⟨[], rfl⟩
  | cons field rest ih =>
      obtain ⟨more, others⟩ := ih fun later member =>
        varied later (List.mem_cons_of_mem field member)
      obtain ⟨value, -, holds, -⟩ := varied field List.mem_cons_self
      exact ⟨_, field.spread value, more, rfl, FieldShape.holds_spread holds, others⟩

/-- Records are written alike if each field finds entries that are. -/
theorem encodeFields_congr (owner : String)
    (alike : ∀ field ∈ fields, value.field? field.name = other.field? field.name ∨
      ∃ item item', value.field? field.name = some item ∧ other.field? field.name = some item' ∧
        ∀ buffer, encodeField field item buffer = encodeField field item' buffer)
    (buffer : List UInt8) :
    encodeFields owner fields value buffer = encodeFields owner fields other buffer := by
  induction fields generalizing buffer with
  | nil => rfl
  | cons field rest ih =>
      have later := ih fun next member => alike next (List.mem_cons_of_mem field member)
      rcases alike field List.mem_cons_self with same | ⟨item, item', found, found', written⟩
      · rw [encodeFields, encodeFields, same]
        simp only [later]
      · rw [encodeFields, encodeFields, found, found']
        simp only [written, later]

/-- Of some items with names that are not all different, one has the name of an earlier one. -/
theorem exists_repeated {α : Type} {name : α → String} {items : List α}
    (twice : ¬(items.map name).Nodup) :
    ∃ front item back, items = front ++ item :: back ∧ name item ∈ front.map name := by
  induction items with
  | nil => simp at twice
  | cons first rest ih =>
      by_cases again : name first ∈ rest.map name
      · obtain ⟨item, member, same⟩ := List.mem_map.mp again
        obtain ⟨front, back, rfl⟩ := List.append_of_mem member
        exact ⟨first :: front, item, back, rfl, by simp [same]⟩
      · have later : ¬(rest.map name).Nodup := fun once =>
          twice (List.nodup_cons.mpr ⟨again, once⟩)
        obtain ⟨front, item, back, rfl, early⟩ := ih later
        exact ⟨first :: front, item, back, rfl, List.mem_cons_of_mem _ early⟩

/-- Two entries of a field make two records, with the same other entries. -/
theorem exists_records (split : fields = front ++ field :: back)
    (varied : ∀ field ∈ fields, field.kind.Varied) (holds : field.kind.Holds value)
    (otherHolds : field.kind.Holds other) (different : value ≠ other) :
    ∃ early late, early.map (·.1) = front.map FieldShape.name ∧
      FieldsHold fields (early ++ (field.name, field.spread value) :: late) ∧
      FieldsHold fields (early ++ (field.name, field.spread other) :: late) ∧
      Value.struct (early ++ (field.name, field.spread value) :: late) ≠
        .struct (early ++ (field.name, field.spread other) :: late) := by
  subst split
  obtain ⟨early, before⟩ := exists_fieldsHold fun field member =>
    varied field (List.mem_append_left _ member)
  obtain ⟨late, behind⟩ := exists_fieldsHold fun field member =>
    varied field (List.mem_append_right front (List.mem_cons_of_mem _ member))
  refine ⟨early, late, before.names, ?_, ?_, ?_⟩
  · exact before.append ⟨_, late, rfl, FieldShape.holds_spread holds, behind⟩
  · exact before.append ⟨_, late, rfl, FieldShape.holds_spread otherHolds, behind⟩
  · simpa using FieldShape.spread_ne different

/-- An entry behind one of the same name is never found. -/
theorem field?_behind {name : String} {item item' : Value} (again : name ∈ early.map (·.1))
    (wanted : String) : (Value.struct (early ++ (name, item) :: late)).field? wanted =
      (Value.struct (early ++ (name, item') :: late)).field? wanted := by
  rw [Value.field?, Value.field?, List.lookup_append, List.lookup_append]
  by_cases same : wanted = name
  · obtain ⟨entry, member, named⟩ := List.mem_map.mp again
    cases found : early.lookup wanted with
    | some => rfl
    | none =>
        have apart := List.lookup_eq_none_iff.mp found entry member
        simp [named, same] at apart
  · have passed : (wanted == name) = false := by simpa using same
    simp only [List.lookup_cons, passed]

/-- A record with two fields of one name is confused. -/
theorem confused_of_twice {shape : StructShape} (twice : ¬(shape.fields.map FieldShape.name).Nodup)
    (varied : ∀ field ∈ shape.fields, field.kind.Varied) : (FieldKind.struct shape).Confused := by
  obtain ⟨name, fields, size, align⟩ := shape
  obtain ⟨front, field, back, split, again⟩ := exists_repeated twice
  have member : field ∈ fields := by
    change fields = front ++ field :: back at split
    simp [split]
  obtain ⟨value, other, holds, otherHolds, different⟩ := varied field member
  obtain ⟨early, late, names, hold, otherHold, apart⟩ :=
    exists_records split varied holds otherHolds different
  refine ⟨_, _, ⟨_, rfl, hold⟩, ⟨_, rfl, otherHold⟩, apart, funext fun buffer => ?_⟩
  change encodeFields name fields _ buffer = encodeFields name fields _ buffer
  exact encodeFields_congr name (fun _ _ => .inl (field?_behind (names ▸ again) _)) buffer

/-- A record that holds a confused one is confused. -/
theorem confused_of_field {shape : StructShape} {field : FieldShape} (member : field ∈ shape.fields)
    (confused : field.kind.Confused) (varied : ∀ field ∈ shape.fields, field.kind.Varied) :
    (FieldKind.struct shape).Confused := by
  by_cases once : (shape.fields.map FieldShape.name).Nodup
  · obtain ⟨name, fields, size, align⟩ := shape
    obtain ⟨value, other, holds, otherHolds, different, alike⟩ := confused
    obtain ⟨front, back, split⟩ := List.append_of_mem member
    obtain ⟨early, late, names, hold, otherHold, apart⟩ :=
      exists_records split varied holds otherHolds different
    refine ⟨_, _, ⟨_, rfl, hold⟩, ⟨_, rfl, otherHold⟩, apart, funext fun buffer => ?_⟩
    change encodeFields name fields _ buffer = encodeFields name fields _ buffer
    refine encodeFields_congr name (fun next nextMember => ?_) buffer
    by_cases same : next.name = field.name
    · -- Both records are looked up under the name of the field and show its two entries.
      obtain rfl := List.inj_on_of_nodup_map once nextMember member same
      exact .inr ⟨_, _, hold.found once (next.name, next.spread value) (by simp),
        otherHold.found once (next.name, next.spread other) (by simp),
        FieldShape.encodeField_spread alike⟩
    · refine .inl ?_
      have passed : (next.name == field.name) = false := by simpa using same
      simp only [Value.field?, List.lookup_append, List.lookup_cons, passed]
  · exact confused_of_twice once varied

/-- A record with a field holds two different values if its fields do. -/
theorem varied_struct {shape : StructShape} (filled : shape.fields ≠ [])
    (varied : ∀ field ∈ shape.fields, field.kind.Varied) : (FieldKind.struct shape).Varied := by
  obtain ⟨name, fields, size, align⟩ := shape
  obtain ⟨field, rest, split⟩ := List.exists_cons_of_ne_nil filled
  replace split : _ = [] ++ field :: rest := split
  obtain ⟨value, other, holds, otherHolds, different⟩ := varied field (by simp [split])
  obtain ⟨early, late, -, hold, otherHold, apart⟩ :=
    exists_records split varied holds otherHolds different
  exact ⟨_, _, ⟨_, rfl, hold⟩, ⟨_, rfl, otherHold⟩, apart⟩

/-! ## Records within records -/

/-- What holds of a record whenever it holds of those in its fields holds of every record. -/
theorem induct {motive : StructShape → Prop}
    (step : ∀ shape : StructShape, (∀ field ∈ shape.fields, ∀ inner, field.kind = .struct inner →
      motive inner) → motive shape) (shape : StructShape) : motive shape :=
  step shape fun _ _ inner _ => induct step inner
termination_by shape
decreasing_by
  rename_i field member holds
  obtain ⟨name, fields, size, align⟩ := shape
  obtain ⟨fieldName, kind, count, offset⟩ := field
  change FieldShape.mk fieldName kind count offset ∈ fields at member
  have inside := List.sizeOf_lt_of_mem member
  obtain rfl : kind = .struct inner := holds
  simp only [FieldShape.mk.sizeOf_spec, FieldKind.struct.sizeOf_spec] at inside
  simp only [StructShape.mk.sizeOf_spec]
  omega

/-- A record whose fields stand in order, and which has a field, as has every record in it. -/
def Placed (shape : StructShape) : Prop :=
  ∀ inner : StructShape, inner.Within shape →
    inner.fields ≠ [] ∧ FieldsInOrder inner.size 0 inner.fields

theorem Placed.inner {shape inner : StructShape} (placed : shape.Placed) {field : FieldShape}
    (member : field ∈ shape.fields) (holds : field.kind = .struct inner) : inner.Placed :=
  fun _ within => placed _ (.field member holds within)

/-- Every kind of a placed record's fields holds two different values. -/
theorem Placed.varied {shape : StructShape} (placed : shape.Placed) :
    ∀ field ∈ shape.fields, field.kind.Varied := by
  induction shape using StructShape.induct with
  | step shape ih =>
      intro field member
      cases kind : field.kind with
      | scalar scalar => exact varied_scalar scalar
      | struct inner =>
          have innerPlaced := placed.inner member kind
          exact varied_struct (innerPlaced inner .itself).1 (ih field member inner kind innerPlaced)

/-- A placed record with two fields of one name in it, at any depth, is confused. -/
theorem Placed.confused {shape inner : StructShape} (placed : shape.Placed)
    (within : inner.Within shape) (twice : ¬(inner.fields.map FieldShape.name).Nodup) :
    (FieldKind.struct shape).Confused := by
  induction within with
  | itself => exact confused_of_twice twice placed.varied
  | field member holds _ ih =>
      refine confused_of_field member ?_ placed.varied
      rw [holds]
      exact ih (placed.inner member holds)

/-- A placed record is read from what it was written as if all records in it have fields with names
of their own. -/
theorem Placed.roundTrips {shape : StructShape} (placed : shape.Placed)
    (once : ∀ inner : StructShape, inner.Within shape → (inner.fields.map FieldShape.name).Nodup) :
    (FieldKind.struct shape).RoundTrips := by
  induction shape using StructShape.induct with
  | step shape ih =>
      refine roundTrips_struct (placed shape .itself).2 (once shape .itself) fun field member => ?_
      cases kind : field.kind with
      | scalar scalar => exact roundTrips_scalar scalar
      | struct inner =>
          exact ih field member inner kind (placed.inner member kind) fun _ within =>
            once _ (.field member kind within)

/-- Names of their own are all that it takes to read a placed record back. -/
theorem Placed.roundTrips_iff {shape : StructShape} (placed : shape.Placed) :
    (FieldKind.struct shape).RoundTrips ↔
      ∀ inner : StructShape, inner.Within shape → (inner.fields.map FieldShape.name).Nodup := by
  refine ⟨fun trips inner within => ?_, placed.roundTrips⟩
  by_contra twice
  exact (placed.confused within twice).not_roundTrips trips

end StructShape

end TypeBridge
