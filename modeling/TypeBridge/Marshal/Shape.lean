import TypeBridge.Marshal.Fault
import TypeBridge.Text.Json
import TypeBridge.Types.Info

/-!
# Shapes

A `Shape` says how a value lies in native memory: nothing, a scalar of one kind, or a record with
its fields at fixed offsets. A `Signature` gives the shapes of a function's parameters and result.
-/

namespace TypeBridge

/-- The scalars that cross the boundary to native code. -/
inductive ScalarKind where
  | i8
  | u8
  | i16
  | u16
  | i32
  | u32
  | i64
  | u64
  | f32
  | f64
  | pointer
deriving Repr, DecidableEq

namespace ScalarKind

/-- The kind of a type with some facts. Integers of the usual sizes, floats of four and eight bytes
and untyped words cross the boundary; nothing else does. -/
def ofInfo (info : TypeInfo) : Except MarshalFault ScalarKind :=
  match info.kind, info.signage, info.size.getD 0 with
  | .integer, .unsigned, 1 => .ok .u8
  | .integer, .unsigned, 2 => .ok .u16
  | .integer, .unsigned, 4 => .ok .u32
  | .integer, .unsigned, 8 => .ok .u64
  | .integer, _, 1 => .ok .i8
  | .integer, _, 2 => .ok .i16
  | .integer, _, 4 => .ok .i32
  | .integer, _, 8 => .ok .i64
  | .float, _, 4 => .ok .f32
  | .float, _, 8 => .ok .f64
  | .other, .none, 8 => .ok .pointer
  | _, _, _ => .error (.unsupported info.render)

/-- The bytes that a scalar takes. -/
def size : ScalarKind → Nat
  | .i8 | .u8 => 1
  | .i16 | .u16 => 2
  | .i32 | .u32 | .f32 => 4
  | .i64 | .u64 | .f64 => 8
  | .pointer => TypeInfo.wordSize

/-- Floats and pointers are no integers. -/
def isInteger : ScalarKind → Bool
  | .f32 | .f64 | .pointer => false
  | _ => true

/-- The name of a kind. -/
def label : ScalarKind → String
  | .i8 => "i8"
  | .u8 => "u8"
  | .i16 => "i16"
  | .u16 => "u16"
  | .i32 => "i32"
  | .u32 => "u32"
  | .i64 => "i64"
  | .u64 => "u64"
  | .f32 => "f32"
  | .f64 => "f64"
  | .pointer => "pointer"

/-- The numbers that an integer or a pointer of a kind can be: from the first on, below the
second. -/
def range? : ScalarKind → Option (Int × Int)
  | .i8 => some (-0x80, 0x80)
  | .u8 => some (0, 0x100)
  | .i16 => some (-0x8000, 0x8000)
  | .u16 => some (0, 0x10000)
  | .i32 => some (-0x80000000, 0x80000000)
  | .u32 => some (0, 0x100000000)
  | .i64 => some (-0x8000000000000000, 0x8000000000000000)
  | .u64 => some (0, 0x10000000000000000)
  | .pointer => some (0, 0x10000000000000000)
  | .f32 => none
  | .f64 => none

end ScalarKind

mutual

/-- What the elements of a field are. -/
inductive FieldKind where
  | scalar (kind : ScalarKind)
  | struct (shape : StructShape)

/-- A field at an offset of its record; more than one element makes it an array. -/
inductive FieldShape where
  | mk (name : String) (kind : FieldKind) (count offset : Nat)

/-- A record that is passed by value. -/
inductive StructShape where
  | mk (name : String) (fields : List FieldShape) (size align : Nat)

end

instance : Inhabited StructShape := ⟨.mk "" [] 0 1⟩

namespace StructShape

/-- The name of a record. -/
def name : StructShape → String
  | .mk name _ _ _ => name

/-- The fields of a record in the order of declaration. -/
def fields : StructShape → List FieldShape
  | .mk _ fields _ _ => fields

/-- The bytes that a record takes. -/
def size : StructShape → Nat
  | .mk _ _ size _ => size

/-- The number that the address of a record is a multiple of. -/
def align : StructShape → Nat
  | .mk _ _ _ align => align

end StructShape

namespace FieldShape

/-- The name of a field. -/
def name : FieldShape → String
  | .mk name _ _ _ => name

/-- What the elements of a field are. -/
def kind : FieldShape → FieldKind
  | .mk _ kind _ _ => kind

/-- The number of elements. -/
def count : FieldShape → Nat
  | .mk _ _ count _ => count

/-- Where the first element starts in the record. -/
def offset : FieldShape → Nat
  | .mk _ _ _ offset => offset

end FieldShape

/-- The bytes that one element takes. -/
def FieldKind.size : FieldKind → Nat
  | .scalar kind => kind.size
  | .struct shape => shape.size

/-- How a parameter or a result lies in native memory. -/
inductive Shape where
  | void
  | scalar (kind : ScalarKind)
  | struct (shape : StructShape)

/-- The bytes that a value takes. -/
def Shape.size : Shape → Nat
  | .void => 0
  | .scalar kind => kind.size
  | .struct shape => shape.size

/-- Whether a shape holds nothing. -/
def Shape.isVoid : Shape → Bool
  | .void => true
  | _ => false

mutual

/-- A record as JSON. -/
def StructShape.toJson : StructShape → Text.Json
  | .mk name fields size align =>
    .object [("name", .text name), ("fields", .array (StructShape.fieldsJson fields)),
      ("size", .number size), ("align", .number align)]

/-- Fields as JSON. -/
def StructShape.fieldsJson : List FieldShape → List Text.Json
  | [] => []
  | .mk name kind count offset :: rest =>
    .object [("name", .text name), ("kind", kind.toJson), ("count", .number count),
      ("offset", .number offset)] :: StructShape.fieldsJson rest

/-- What the elements of a field are, as JSON. -/
def FieldKind.toJson : FieldKind → Text.Json
  | .scalar kind => .text kind.label
  | .struct shape => shape.toJson

end

/-- A shape as JSON: a word, or a record. -/
def Shape.toJson : Shape → Text.Json
  | .void => .text "void"
  | .scalar kind => .text kind.label
  | .struct shape => shape.toJson

/-- The shapes of a function's parameters and of its result. -/
structure Signature where
  params : List Shape
  result : Shape

/-- A signature as JSON. -/
def Signature.toJson (signature : Signature) : Text.Json :=
  .object [("params", .array (signature.params.map Shape.toJson)),
    ("result", signature.result.toJson)]

end TypeBridge
