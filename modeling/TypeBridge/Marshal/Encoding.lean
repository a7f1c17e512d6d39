import TypeBridge.Marshal.Octets
import TypeBridge.Marshal.Shape
import TypeBridge.Marshal.Value

/-!
# Values in native memory

`encode` writes a value into a buffer as its shape says and refuses values that do not fit;
`decode` reads the value that a buffer holds. Fields are written in the order of the shape, so the
first field that does not fit is the one reported.
-/

namespace TypeBridge

/-- The fault of a value of the wrong kind. -/
def wrongKind (expected : String) (value : Value) : MarshalFault :=
  .mismatch expected value.kindName

/-- The octets of an integer, if it lies in the range of its kind. -/
def encodeInteger (kind : ScalarKind) (low high : Int) (value : Value) :
    Except MarshalFault (List UInt8) :=
  match value.integer? with
  | none => .error (wrongKind kind.label value)
  | some n =>
    if low ≤ n ∧ n < high then .ok (twosComplement kind.size n)
    else .error (.mismatch kind.label (toString n ++ " (out of range)"))

/-- The octets of a scalar. -/
def encodeScalar (kind : ScalarKind) (value : Value) : Except MarshalFault (List UInt8) :=
  match kind.range? with
  | some (low, high) => encodeInteger kind low high value
  | none =>
    match value.float? with
    | none => .error (wrongKind kind.label value)
    | some bits =>
      .ok (littleEndian kind.size
        (if kind = .f32 then (Binary.narrow bits).toNat else bits.toNat))

/-- Change the part of a buffer from an offset on; the part must lie in the buffer. -/
def encodeWithin (offset size : Nat) (write : List UInt8 → Except MarshalFault (List UInt8))
    (buffer : List UInt8) : Except MarshalFault (List UInt8) :=
  if offset + size ≤ buffer.length then
    (write (slice buffer offset size)).map (splice buffer offset)
  else .error .overrun

/-- Write the elements of an array one after the other. -/
def encodeItems (stride : Nat) (write : Value → List UInt8 → Except MarshalFault (List UInt8)) :
    Nat → List Value → List UInt8 → Except MarshalFault (List UInt8)
  | _, [], buffer => .ok buffer
  | offset, item :: rest, buffer =>
    match encodeWithin offset stride (write item) buffer with
    | .ok buffer => encodeItems stride write (offset + stride) rest buffer
    | .error fault => .error fault

mutual

/-- Write one element of a field. -/
def encodeKind : FieldKind → Value → List UInt8 → Except MarshalFault (List UInt8)
  | .scalar kind, value, buffer =>
    match encodeScalar kind value with
    | .ok octets => .ok (splice buffer 0 octets)
    | .error fault => .error fault
  | .struct shape, value, buffer => encodeStruct shape value buffer

/-- Write a field: its elements one after the other if there are several. -/
def encodeField : FieldShape → Value → List UInt8 → Except MarshalFault (List UInt8)
  | .mk name kind count offset, value, buffer =>
    if count > 1 then
      match value with
      | .array items =>
        if items.length = count then encodeItems kind.size (encodeKind kind) offset items buffer
        else
          .error (.mismatch (toString count ++ " elements for `" ++ name ++ "`")
            (toString items.length ++ " elements"))
      | other => .error (wrongKind ("array of " ++ toString count) other)
    else encodeWithin offset kind.size (encodeKind kind value) buffer

/-- Write the fields of a record in order. -/
def encodeFields (owner : String) :
    List FieldShape → Value → List UInt8 → Except MarshalFault (List UInt8)
  | [], _, buffer => .ok buffer
  | field :: rest, value, buffer =>
    match value.field? field.name with
    | none => .error (.mismatch ("field `" ++ field.name ++ "` of " ++ owner) "nothing")
    | some item =>
      match encodeField field item buffer with
      | .ok buffer => encodeFields owner rest value buffer
      | .error fault => .error fault

/-- Write a record. -/
def encodeStruct : StructShape → Value → List UInt8 → Except MarshalFault (List UInt8)
  | .mk name fields _ _, value, buffer =>
    match value with
    | .struct _ => encodeFields name fields value buffer
    | other => .error (wrongKind ("struct " ++ name) other)

end

/-- Write a value into a buffer that its shape fits in. -/
def encode (shape : Shape) (value : Value) (buffer : List UInt8) :
    Except MarshalFault (List UInt8) :=
  match shape with
  | .void =>
    match value with
    | .unit => .ok buffer
    | other => .error (wrongKind "unit" other)
  | .scalar kind => encodeKind (.scalar kind) value buffer
  | .struct shape => encodeStruct shape value buffer

/-- The octets of a value; those that belong to no field are zero. -/
def encodeFresh (shape : Shape) (value : Value) : Except MarshalFault (List UInt8) :=
  encode shape value (List.replicate shape.size 0)

/-- The scalar of a kind whose octets write a number. -/
def scalarOf (kind : ScalarKind) (n : Nat) : Value :=
  match kind with
  | .i8 => .i8 (Int8.ofNat n)
  | .u8 => .u8 (UInt8.ofNat n)
  | .i16 => .i16 (Int16.ofNat n)
  | .u16 => .u16 (UInt16.ofNat n)
  | .i32 => .i32 (Int32.ofNat n)
  | .u32 => .u32 (UInt32.ofNat n)
  | .i64 => .i64 (Int64.ofNat n)
  | .u64 => .u64 (UInt64.ofNat n)
  | .f32 => .f32 (UInt32.ofNat n)
  | .f64 => .f64 (UInt64.ofNat n)
  | .pointer => .pointer (UInt64.ofNat n)

/-- Read a scalar from the front of a buffer. -/
def decodeScalar (kind : ScalarKind) (buffer : List UInt8) : Value :=
  scalarOf kind (ofLittleEndian (buffer.take kind.size))

mutual

/-- Read one element of a field. -/
def decodeKind : FieldKind → List UInt8 → Value
  | .scalar kind, buffer => decodeScalar kind buffer
  | .struct shape, buffer => decodeStruct shape buffer

/-- Read a field. -/
def decodeField : FieldShape → List UInt8 → Value
  | .mk _ kind count offset, buffer =>
    if count > 1 then
      .array ((List.range count).map fun i =>
        decodeKind kind (slice buffer (offset + i * kind.size) kind.size))
    else decodeKind kind (slice buffer offset kind.size)

/-- Read the fields of a record in order. -/
def decodeFields : List FieldShape → List UInt8 → List (String × Value)
  | [], _ => []
  | field :: rest, buffer => (field.name, decodeField field buffer) :: decodeFields rest buffer

/-- Read a record. -/
def decodeStruct : StructShape → List UInt8 → Value
  | .mk _ fields _ _, buffer => .struct (decodeFields fields buffer)

end

/-- Read the value that a buffer holds. -/
def decode (shape : Shape) (buffer : List UInt8) : Value :=
  match shape with
  | .void => .unit
  | .scalar kind => decodeScalar kind buffer
  | .struct shape => decodeStruct shape buffer

end TypeBridge
