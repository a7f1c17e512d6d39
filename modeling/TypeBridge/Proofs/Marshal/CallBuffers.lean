import TypeBridge.Marshal.Call
import TypeBridge.Proofs.Marshal.Lossless

/-!
# Values in call buffers

Arguments and results cross a call in whole words. Octets that are put into words are followed by
zeros only (`wordOctets_toWords`), and a result is read as any other value is, whatever stands in
the upper octets of its word (`readResult_eq_decode`). What can be written lies inside its shape at
every place that is read (`decode_written_append`), so the zeros behind it are never read:
`callBuffers_carry`.
-/

namespace TypeBridge

variable {octets buffer after rest : List UInt8} {shape : Shape} {value : Value}

/-! ## Octets in words -/

/-- Zero is written in octets of zero. -/
theorem littleEndian_zero (count : Nat) : littleEndian count 0 = List.replicate count 0 := by
  induction count with
  | zero => rfl
  | succ count ih =>
      rw [littleEndian, Nat.zero_div, ih]
      rfl

/-- The upper octets of a number are those of what its lower ones leave. -/
theorem littleEndian_add (low high n : Nat) :
    littleEndian (low + high) n =
      littleEndian low n ++ littleEndian high (n / Nat.pow 256 low) := by
  induction low generalizing n with
  | zero => rw [Nat.zero_add, show Nat.pow 256 0 = 1 from rfl, Nat.div_one]; rfl
  | succ low ih =>
      have grow : Nat.pow 256 (low + 1) = 256 * Nat.pow 256 low := Nat.mul_comm _ _
      rw [Nat.succ_add, littleEndian, ih, littleEndian, grow, Nat.div_div_eq_div_mul]
      rfl

/-- The octets of a word are those it was made from, with zeros behind them. -/
theorem littleEndian_word (few : octets.length ≤ wordBytes) :
    littleEndian wordBytes (UInt64.ofNat (ofLittleEndian octets)).toNat =
      octets ++ List.replicate (wordBytes - octets.length) 0 := by
  have small := ofLittleEndian_lt octets
  have fits : ofLittleEndian octets < 2 ^ 64 :=
    Nat.lt_of_lt_of_le small (Nat.pow_le_pow_right (n := 256) (by decide) few)
  obtain ⟨more, total⟩ := Nat.exists_eq_add_of_le few
  rw [UInt64.toNat_ofNat', Nat.mod_eq_of_lt fits, total, littleEndian_add,
    littleEndian_ofLittleEndian, Nat.div_eq_of_lt small, littleEndian_zero, Nat.add_sub_cancel_left]

/-- The octets of some words are those of the first and then those of the others. -/
theorem wordOctets_cons (word : UInt64) (words : List UInt64) :
    wordOctets (word :: words) = littleEndian wordBytes word.toNat ++ wordOctets words :=
  List.flatMap_cons

/-- Words in a row have their octets in a row. -/
theorem wordOctets_append (words more : List UInt64) :
    wordOctets (words ++ more) = wordOctets words ++ wordOctets more :=
  List.flatMap_append

/-- Each word has eight octets. -/
theorem length_wordOctets (words : List UInt64) :
    (wordOctets words).length = words.length * wordBytes := by
  induction words with
  | nil => rfl
  | cons word words ih =>
      rw [wordOctets_cons, List.length_append, length_littleEndian, ih, List.length_cons,
        Nat.succ_mul, Nat.add_comm]

/-- The words that some octets fill, as many as asked for. -/
def firstWords (count : Nat) (octets : List UInt8) : List UInt64 :=
  (List.range count).map fun i =>
    UInt64.ofNat (ofLittleEndian (slice octets (i * wordBytes) wordBytes))

/-- The first word holds the first octets, and the others those behind them. -/
theorem firstWords_succ (count : Nat) (octets : List UInt8) :
    firstWords (count + 1) octets =
      UInt64.ofNat (ofLittleEndian (octets.take wordBytes)) ::
        firstWords count (octets.drop wordBytes) := by
  rw [firstWords, List.range_succ_eq_map, List.map_cons, List.map_map]
  refine congrArg (_ :: ·) (List.map_congr_left fun i _ => ?_)
  simp only [Function.comp_apply, slice, List.drop_drop, Nat.succ_mul, Nat.add_comm]

/-- Words that are cut from octets hold these and then octets of zero. -/
theorem wordOctets_firstWords (count : Nat) (fits : octets.length ≤ count * wordBytes) :
    wordOctets (firstWords count octets) =
      octets ++ List.replicate (count * wordBytes - octets.length) 0 := by
  induction count generalizing octets with
  | zero =>
      obtain rfl : octets = [] := by simpa using fits
      rfl
  | succ count ih =>
      rw [Nat.succ_mul] at fits ⊢
      have behind : (octets.drop wordBytes).length ≤ count * wordBytes := by
        rw [List.length_drop]
        omega
      have front : (octets.take wordBytes).length ≤ wordBytes := by
        rw [List.length_take]
        exact Nat.min_le_left _ _
      rw [firstWords_succ, wordOctets_cons, littleEndian_word front, ih behind, List.length_take,
        List.length_drop]
      -- Zeros follow the first word only if nothing is left for another one.
      rcases Nat.le_total wordBytes octets.length with several | single
      · rw [Nat.min_eq_left several, Nat.sub_self, List.replicate_zero, List.append_nil,
          ← List.append_assoc, List.take_append_drop]
        congr 2
        omega
      · rw [Nat.min_eq_right single, List.take_of_length_le single, List.drop_of_length_le single,
          List.nil_append, List.append_assoc, List.replicate_append_replicate]
        congr 2
        omega

/-- As many words are needed as hold the octets, and one at least. -/
theorem length_toWords (octets : List UInt8) :
    (toWords octets).length = max ((octets.length + 7) / wordBytes) 1 := by
  rw [toWords, List.length_map, List.length_range]

/-- Octets in words are followed by zeros only. -/
theorem wordOctets_toWords (octets : List UInt8) :
    ∃ zeros, wordOctets (toWords octets) = octets ++ List.replicate zeros 0 := by
  refine ⟨_, wordOctets_firstWords _ ?_⟩
  simp only [wordBytes]
  omega

/-! ## Result buffers -/

/-- A result buffer is what was left, with zero words behind it up to the words that it needs. -/
theorem resultBuffer_eq (shape : Shape) (left : List UInt64) :
    resultBuffer shape left = left ++ List.replicate (resultWords shape - left.length) 0 := by
  rw [resultBuffer, List.take_append, List.take_of_length_le (Nat.le_max_left _ _),
    List.take_replicate]
  congr 2
  omega

/-- A result buffer has room for its shape, and for one register at least. -/
theorem room_resultBuffer (shape : Shape) (left : List UInt64) :
    shape.size ≤ (wordOctets (resultBuffer shape left)).length ∧
      wordBytes ≤ (wordOctets (resultBuffer shape left)).length := by
  rw [length_wordOctets, resultBuffer_eq, List.length_append, List.length_replicate, resultWords]
  simp only [wordBytes]
  omega

/-! ## Results -/

/-- The first octets write what is left of the number below their number of digits. -/
theorem ofLittleEndian_take (octets : List UInt8) (count : Nat) :
    ofLittleEndian (octets.take count) = ofLittleEndian octets % Nat.pow 256 count := by
  induction octets generalizing count with
  | nil => simp [ofLittleEndian]
  | cons octet rest ih =>
      cases count with
      | zero => exact (Nat.mod_one _).symm
      | succ count =>
          have grow : Nat.pow 256 (count + 1) = 256 * Nat.pow 256 count := Nat.mul_comm _ _
          have small : octet.toNat < 256 := octet.toNat_lt
          rw [List.take_succ_cons, ofLittleEndian, ih, ofLittleEndian, grow, Nat.mod_mul]
          congr 1
          · omega
          · congr 2
            omega

/-- A scalar is cut out of any number that has its octets below. -/
theorem scalarOf_mod (kind : ScalarKind) (n : Nat) :
    scalarOf kind (n % Nat.pow 256 kind.size) = scalarOf kind n := by
  have cut : ∀ width, BitVec.ofNat width (n % 2 ^ width) = BitVec.ofNat width n := fun width =>
    BitVec.eq_of_toNat_eq (by simp)
  cases kind with
  | i8 => exact congrArg (fun bits => Value.i8 ⟨⟨bits⟩⟩) (cut 8)
  | u8 => exact congrArg (fun bits => Value.u8 ⟨bits⟩) (cut 8)
  | i16 => exact congrArg (fun bits => Value.i16 ⟨⟨bits⟩⟩) (cut 16)
  | u16 => exact congrArg (fun bits => Value.u16 ⟨bits⟩) (cut 16)
  | i32 => exact congrArg (fun bits => Value.i32 ⟨⟨bits⟩⟩) (cut 32)
  | u32 => exact congrArg (fun bits => Value.u32 ⟨bits⟩) (cut 32)
  | i64 => exact congrArg (fun bits => Value.i64 ⟨⟨bits⟩⟩) (cut 64)
  | u64 => exact congrArg (fun bits => Value.u64 ⟨bits⟩) (cut 64)
  | f32 => exact congrArg (fun bits => Value.f32 ⟨bits⟩) (cut 32)
  | f64 => exact congrArg (fun bits => Value.f64 ⟨bits⟩) (cut 64)
  | pointer => exact congrArg (fun bits => Value.pointer ⟨bits⟩) (cut 64)

/-- A narrow integer that is cut out of its word is the one that its own octets write. -/
theorem readResult_eq_decode (shape : Shape) (buffer : List UInt8) :
    readResult shape buffer = decode shape buffer := by
  cases shape with
  | void => rfl
  | struct shape => rfl
  | scalar kind =>
      rw [readResult]
      split
      · rename_i narrow
        have whole : (buffer.take wordBytes).take kind.size = buffer.take kind.size := by
          rw [List.take_take, Nat.min_eq_left (Nat.le_of_lt narrow.2)]
        rw [decode, decodeScalar, ← whole, ofLittleEndian_take _ kind.size, scalarOf_mod]
      · rfl

/-! ## What is written lies inside -/

/-- A scalar is written in the octets of its kind. -/
theorem length_encodeScalar {kind : ScalarKind} (written : encodeScalar kind value = .ok octets) :
    octets.length = kind.size := by
  have accepts : kind.Accepts value := by
    by_contra refuses
    obtain ⟨expected, found, refused⟩ := ScalarKind.encodeScalar_refuses refuses
    rw [written] at refused
    cases refused
  obtain ⟨octets', written', length, -⟩ := accepts.rewritten
  obtain rfl := Except.ok.inj (written.symm.trans written')
  exact length

/-- Octets that are put into a buffer with room leave its length alone. -/
theorem length_splice {offset : Nat} {part : List UInt8}
    (fits : offset + part.length ≤ buffer.length) :
    (splice buffer offset part).length = buffer.length :=
  (keeps_splice fits).length

/-- A step that leaves a buffer with room for some size as long as it was, if it answers. -/
def KeepsLength (size : Nat) (write : List UInt8 → Except MarshalFault (List UInt8)) : Prop :=
  ∀ buffer after, size ≤ buffer.length → write buffer = .ok after → after.length = buffer.length

section Steps

variable {offset stride size : Nat} {write : List UInt8 → Except MarshalFault (List UInt8)}

/-- A part is written only inside a buffer, and leaves the buffer as long as it was. -/
theorem length_encodeWithin (keeps : KeepsLength size write)
    (written : encodeWithin offset size write buffer = .ok after) :
    offset + size ≤ buffer.length ∧ after.length = buffer.length := by
  rw [encodeWithin] at written
  split at written
  · rename_i fits
    obtain ⟨part, partWritten, rfl⟩ := exists_of_map_ok written
    have room := length_slice fits
    have length := (keeps _ _ (Nat.le_of_eq room.symm) partWritten).trans room
    exact ⟨fits, length_splice (length ▸ fits)⟩
  · cases written

/-- The elements of an array are written only inside a buffer. -/
theorem length_encodeItems {write : Value → List UInt8 → Except MarshalFault (List UInt8)}
    {items : List Value} (keeps : ∀ item ∈ items, KeepsLength stride (write item))
    (written : encodeItems stride write offset items buffer = .ok after) :
    (∀ index < items.length, offset + index * stride + stride ≤ buffer.length) ∧
      after.length = buffer.length := by
  induction items generalizing offset buffer with
  | nil =>
      obtain rfl := Except.ok.inj written
      exact ⟨nofun, rfl⟩
  | cons item more ih =>
      obtain ⟨keepsItem, keepsMore⟩ := List.forall_mem_cons.mp keeps
      rw [encodeItems] at written
      split at written
      · rename_i middle first
        obtain ⟨fits, length⟩ := length_encodeWithin keepsItem first
        obtain ⟨inside, lengthMore⟩ := ih keepsMore written
        refine ⟨fun index small => ?_, lengthMore.trans length⟩
        cases index with
        | zero => rwa [Nat.zero_mul, Nat.add_zero]
        | succ index =>
            have later := inside index (Nat.lt_of_succ_lt_succ small)
            rw [Nat.succ_mul]
            omega
      · cases written

end Steps

/-- A field whose elements all lie in a buffer of some size; what counts as none is read as one. -/
def FieldShape.Inside (field : FieldShape) (size : Nat) : Prop :=
  ∀ index < max field.count 1, field.offset + index * field.kind.size + field.kind.size ≤ size

/-- A field is written only inside a buffer. -/
theorem length_encodeField {field : FieldShape}
    (keeps : ∀ value, KeepsLength field.kind.size (encodeKind field.kind value))
    (written : encodeField field value buffer = .ok after) :
    field.Inside buffer.length ∧ after.length = buffer.length := by
  obtain ⟨name, kind, count, offset⟩ := field
  by_cases several : count > 1
  · simp only [encodeField, if_pos several] at written
    split at written
    · rename_i items
      split at written
      · rename_i length
        obtain ⟨inside, same⟩ := length_encodeItems (fun item _ => keeps item) written
        refine ⟨fun index small => inside index ?_, same⟩
        rw [length]
        exact Nat.lt_of_lt_of_eq small (Nat.max_eq_left (Nat.le_of_lt several))
      · cases written
    · cases written
  · simp only [encodeField, if_neg several] at written
    obtain ⟨fits, same⟩ := length_encodeWithin (keeps value) written
    refine ⟨fun index small => ?_, same⟩
    obtain rfl : index = 0 := by
      change index < max count 1 at small
      omega
    rwa [Nat.zero_mul, Nat.add_zero]

/-- The fields of a record are written only inside a buffer. -/
theorem length_encodeFields {owner : String} {fields : List FieldShape}
    (keeps : ∀ field ∈ fields, ∀ value,
      KeepsLength field.kind.size (encodeKind field.kind value))
    (written : encodeFields owner fields value buffer = .ok after) :
    (∀ field ∈ fields, field.Inside buffer.length) ∧ after.length = buffer.length := by
  induction fields generalizing buffer with
  | nil =>
      obtain rfl := Except.ok.inj written
      exact ⟨nofun, rfl⟩
  | cons field more ih =>
      obtain ⟨keepsField, keepsMore⟩ := List.forall_mem_cons.mp keeps
      rw [encodeFields] at written
      split at written
      · cases written
      · split at written
        · rename_i middle first
          obtain ⟨inside, length⟩ := length_encodeField keepsField first
          obtain ⟨insideMore, lengthMore⟩ := ih keepsMore written
          exact ⟨List.forall_mem_cons.mpr ⟨inside, length ▸ insideMore⟩, lengthMore.trans length⟩
        · cases written

/-- Writing a scalar gives as many octets as its kind has. -/
theorem keepsLength_scalar (kind : ScalarKind) (value : Value) :
    KeepsLength kind.size (encodeKind (.scalar kind) value) := by
  intro buffer after room written
  rw [encodeKind] at written
  split at written
  · rename_i octets scalar
    obtain rfl := Except.ok.inj written
    have own := length_encodeScalar scalar
    exact length_splice (by omega)
  · cases written

/-- A record is written only inside a buffer. -/
theorem length_encodeStruct {shape : StructShape}
    (keeps : ∀ field ∈ shape.fields, ∀ value,
      KeepsLength field.kind.size (encodeKind field.kind value))
    (written : encodeStruct shape value buffer = .ok after) :
    (∀ field ∈ shape.fields, field.Inside buffer.length) ∧ after.length = buffer.length := by
  obtain ⟨name, fields, size, align⟩ := shape
  unfold encodeStruct at written
  split at written
  · exact length_encodeFields keeps written
  · cases written

/-- Writing an element keeps the length of a buffer, whether its records are well-formed or not. -/
theorem keepsLength_encodeKind (kind : FieldKind) (value : Value) :
    KeepsLength kind.size (encodeKind kind value) := by
  cases kind with
  | scalar kind => exact keepsLength_scalar kind value
  | struct shape =>
      induction shape using StructShape.induct generalizing value with
      | step shape ih =>
          intro buffer after _ written
          rw [encodeKind] at written
          refine (length_encodeStruct (fun field member value => ?_) written).2
          cases holds : field.kind with
          | scalar kind => exact keepsLength_scalar kind value
          | struct inner => exact ih field member inner holds value

/-! ## What is written is read alike with anything behind it -/

/-- A slice inside a buffer is not changed by what stands behind the buffer. -/
theorem slice_append {offset size : Nat} (inside : offset + size ≤ buffer.length) :
    slice (buffer ++ rest) offset size = slice buffer offset size := by
  rw [slice, slice, List.drop_append_of_le_length (by omega), List.take_append_of_le_length]
  rw [List.length_drop]
  omega

/-- A scalar is read from the front of a buffer, whatever stands behind it. -/
theorem decodeScalar_append {kind : ScalarKind} (inside : kind.size ≤ buffer.length) :
    decodeScalar kind (buffer ++ rest) = decodeScalar kind buffer := by
  rw [decodeScalar, decodeScalar, List.take_append_of_le_length inside]

/-- A field inside a buffer is read from it, whatever stands behind it. -/
theorem FieldShape.Inside.decodeField_append {field : FieldShape}
    (inside : field.Inside buffer.length) :
    decodeField field (buffer ++ rest) = decodeField field buffer := by
  obtain ⟨name, kind, count, offset⟩ := field
  simp only [FieldShape.Inside, FieldShape.kind, FieldShape.offset, FieldShape.count] at inside
  by_cases several : count > 1
  · simp only [decodeField, if_pos several]
    refine congrArg Value.array (List.map_congr_left fun index member => ?_)
    have small := List.mem_range.mp member
    rw [slice_append (inside index (Nat.lt_of_lt_of_le small (Nat.le_max_left _ _)))]
  · have first := inside 0 (Nat.lt_of_lt_of_le Nat.one_pos (Nat.le_max_right _ _))
    rw [Nat.zero_mul, Nat.add_zero] at first
    simp only [decodeField, if_neg several]
    rw [slice_append first]

/-- So are fields inside a buffer. -/
theorem decodeFields_append {fields : List FieldShape}
    (inside : ∀ field ∈ fields, field.Inside buffer.length) :
    decodeFields fields (buffer ++ rest) = decodeFields fields buffer := by
  induction fields with
  | nil => rfl
  | cons field more ih =>
      obtain ⟨first, others⟩ := List.forall_mem_cons.mp inside
      rw [decodeFields, decodeFields, first.decodeField_append, ih others]

/-- What can be written is read alike with anything behind it. -/
theorem decode_written_append (room : shape.size ≤ buffer.length)
    (written : encode shape value buffer = .ok octets) :
    decode shape (octets ++ rest) = decode shape octets := by
  cases shape with
  | void => rfl
  | scalar kind =>
      have length := keepsLength_encodeKind (.scalar kind) value _ _ room written
      exact decodeScalar_append (Nat.le_trans room (Nat.le_of_eq length.symm))
  | struct shape =>
      obtain ⟨inside, length⟩ :=
        length_encodeStruct (fun field _ => keepsLength_encodeKind field.kind) written
      rw [← length] at inside
      obtain ⟨name, fields, size, align⟩ := shape
      exact congrArg Value.struct (decodeFields_append inside)

/-! ## Calls -/

/-- A result that is left in words is read as what its octets hold, with zero words behind them or
without. -/
theorem readResult_words (room : shape.size ≤ buffer.length)
    (written : encode shape value buffer = .ok octets) (count : Nat) :
    readResult shape (wordOctets (toWords octets ++ List.replicate count 0)) =
      decode shape octets := by
  obtain ⟨zeros, words⟩ := wordOctets_toWords octets
  rw [readResult_eq_decode, wordOctets_append, words, List.append_assoc,
    decode_written_append room written]

/-- What a function leaves in a result buffer with room is read from it. -/
theorem readResult_resultBuffer (room : shape.size ≤ buffer.length)
    (written : encode shape value buffer = .ok octets) :
    readResult shape (wordOctets (resultBuffer shape (toWords octets))) = decode shape octets := by
  rw [resultBuffer_eq, readResult_words room written]

/-- A call whose code leaves the octets of a value answers with what these hold. -/
theorem BoundFunction.call_of_left {function : BoundFunction} {args : List Value} {memory : Memory}
    {buffers : List (List UInt64)} (all : args.length = function.signature.params.length)
    (passed : argumentBuffers function.signature.params args = .ok buffers)
    (room : function.signature.result.size ≤ buffer.length)
    (written : encode function.signature.result value buffer = .ok octets)
    (left : (function.code buffers memory).1 = toWords octets) :
    function.call args memory =
      (.ok (decode function.signature.result octets), (function.code buffers memory).2) := by
  simp only [call, ne_eq, all, not_true_eq_false, if_false, passed, left,
    readResult_resultBuffer room written]

/-- Values cross calls unchanged. Octets in words are followed by zeros, up to a whole number of
words that is not zero; a result buffer has room for its shape and for a register; a result is read
as any other value, whatever stands in the word above it. So what is read from the words of a
written value is what its octets hold. -/
theorem callBuffers_carry :
    (∀ octets : List UInt8,
      (∃ zeros, wordOctets (toWords octets) = octets ++ List.replicate zeros 0) ∧
      0 < (wordOctets (toWords octets)).length ∧ 8 ∣ (wordOctets (toWords octets)).length ∧
      octets.length ≤ (wordOctets (toWords octets)).length) ∧
    (∀ (shape : Shape) (left : List UInt64),
      shape.size ≤ (wordOctets (resultBuffer shape left)).length ∧
        8 ≤ (wordOctets (resultBuffer shape left)).length) ∧
    (∀ (shape : Shape) (buffer : List UInt8), readResult shape buffer = decode shape buffer) ∧
    (∀ (kind : ScalarKind) (own above : List UInt8), own.length = kind.size →
      readResult (.scalar kind) (own ++ above) = scalarOf kind (ofLittleEndian own)) ∧
    ∀ (shape : Shape) (value : Value) (buffer octets : List UInt8), shape.size ≤ buffer.length →
      encode shape value buffer = .ok octets →
      readResult shape (wordOctets (toWords octets)) = decode shape octets ∧
        readResult shape (wordOctets (resultBuffer shape (toWords octets))) =
          decode shape octets := by
  refine ⟨fun octets => ⟨wordOctets_toWords octets, ?_⟩, room_resultBuffer, readResult_eq_decode,
    fun kind own above length => ?_, fun shape value buffer octets room written =>
      ⟨?_, readResult_resultBuffer room written⟩⟩
  · rw [length_wordOctets, length_toWords]
    simp only [wordBytes]
    omega
  · rw [readResult_eq_decode, decode, decodeScalar_append (Nat.le_of_eq length.symm), decodeScalar,
      ← length, List.take_length]
  · have alone := readResult_words room written 0
    rwa [List.replicate_zero, List.append_nil] at alone

/-- A record of twenty octets fills three words, and the gaps in it are as they were written. A
narrow integer is read from a word whose other octets hold anything. -/
theorem callBuffers_carry_points :
    encodeFresh (.struct pointsShape) loosePoints = .ok writtenPoints ∧
      (toWords writtenPoints).length = 3 ∧
      readResult (.struct pointsShape) (wordOctets (toWords writtenPoints)) =
        decode (.struct pointsShape) writtenPoints ∧
      readResult (.scalar .i16) [0xFE, 0xFF, 1, 2, 3, 4, 5, 6] = .i16 (-2) := by
  obtain ⟨-, -, -, narrow, back⟩ := callBuffers_carry
  have written : encodeFresh (.struct pointsShape) loosePoints = .ok writtenPoints := rfl
  exact ⟨written, rfl, (back _ _ _ _ (by decide) written).1,
    narrow .i16 [0xFE, 0xFF] [1, 2, 3, 4, 5, 6] rfl⟩

end TypeBridge
