import TypeBridge.Marshal.Binary

/-!
# Values

A `Value` crosses the boundary to native code. Integers have the width of their kind; floats are
kept as their bits; the fields of a record keep their order, and of two with one name the first
counts.
-/

namespace TypeBridge

/-- A value that crosses the boundary to native code. -/
inductive Value where
  | unit
  | bool (value : Bool)
  | i8 (value : Int8)
  | u8 (value : UInt8)
  | i16 (value : Int16)
  | u16 (value : UInt16)
  | i32 (value : Int32)
  | u32 (value : UInt32)
  | i64 (value : Int64)
  | u64 (value : UInt64)
  | f32 (bits : UInt32)
  | f64 (bits : UInt64)
  | pointer (address : UInt64)
  | struct (fields : List (String × Value))
  | array (items : List Value)
deriving Inhabited

namespace Value

/-- The value of the first field of a name. -/
def field? (value : Value) (name : String) : Option Value :=
  match value with
  | .struct fields => fields.lookup name
  | _ => none

/-- The number that a truth value, an integer or a pointer is. -/
def integer? : Value → Option Int
  | .bool value => some (if value then 1 else 0)
  | .i8 value => some value.toInt
  | .u8 value => some value.toNat
  | .i16 value => some value.toInt
  | .u16 value => some value.toNat
  | .i32 value => some value.toInt
  | .u32 value => some value.toNat
  | .i64 value => some value.toInt
  | .u64 value => some value.toNat
  | .pointer address => some address.toNat
  | _ => none

/-- The number that a float is, in 64 bits. -/
def float? : Value → Option UInt64
  | .f32 bits => some (Binary.widen bits)
  | .f64 bits => some bits
  | _ => none

/-- The name of a value's kind. -/
def kindName : Value → String
  | .unit => "unit"
  | .bool _ => "bool"
  | .i8 _ => "i8"
  | .u8 _ => "u8"
  | .i16 _ => "i16"
  | .u16 _ => "u16"
  | .i32 _ => "i32"
  | .u32 _ => "u32"
  | .i64 _ => "i64"
  | .u64 _ => "u64"
  | .f32 _ => "f32"
  | .f64 _ => "f64"
  | .pointer _ => "pointer"
  | .struct _ => "struct"
  | .array _ => "array"

mutual

/-- A value in words, with its kind in front; floats are shown as their bits. -/
def describe : Value → String
  | .unit => "Unit"
  | .bool value => "Bool(" ++ toString value ++ ")"
  | .i8 value => "I8(" ++ toString value.toInt ++ ")"
  | .u8 value => "U8(" ++ toString value.toNat ++ ")"
  | .i16 value => "I16(" ++ toString value.toInt ++ ")"
  | .u16 value => "U16(" ++ toString value.toNat ++ ")"
  | .i32 value => "I32(" ++ toString value.toInt ++ ")"
  | .u32 value => "U32(" ++ toString value.toNat ++ ")"
  | .i64 value => "I64(" ++ toString value.toInt ++ ")"
  | .u64 value => "U64(" ++ toString value.toNat ++ ")"
  | .f32 bits => "F32(" ++ toString bits.toNat ++ ")"
  | .f64 bits => "F64(" ++ toString bits.toNat ++ ")"
  | .pointer address => "Pointer(" ++ toString address.toNat ++ ")"
  | .struct fields => "Struct([" ++ String.intercalate ", " (describeFields fields) ++ "])"
  | .array items => "Array([" ++ String.intercalate ", " (describeItems items) ++ "])"

/-- The fields of a record in words. -/
def describeFields : List (String × Value) → List String
  | [] => []
  | (name, value) :: rest =>
    ("(\"" ++ name ++ "\", " ++ value.describe ++ ")") :: describeFields rest

/-- The items of an array in words. -/
def describeItems : List Value → List String
  | [] => []
  | item :: rest => item.describe :: describeItems rest

end

end Value

end TypeBridge
