import TypeBridge.Marshal.Call

/-!
# A scripted library

`Scripted.library` is a shared library whose functions are known: each gives its arguments back in
some changed form, or allocates and frees memory. A function is described on values, and
`nativeCode` runs such a description on the words of a call.
-/

namespace TypeBridge.Scripted

/-- What a function does, on values. -/
abbrev Meaning := List Value → Memory → Value × Memory

/-- The code of a function whose meaning is known: it reads its arguments from words and leaves its
result in words. -/
def nativeCode (params : List Shape) (result : Shape) (meaning : Meaning) : NativeCode :=
  fun buffers memory =>
    let args := (params.zip buffers).map fun (shape, words) => decode shape (wordOctets words)
    let (value, after) := meaning args memory
    match encodeFresh result value with
    | .ok octets => (toWords octets, after)
    | .error _ => ([], after)

/-- A function of one argument that leaves memory alone. -/
def unary (shape result : Shape) (change : Value → Value) : NativeCode :=
  nativeCode [shape] result fun args memory =>
    match args with
    | [value] => (change value, memory)
    | _ => (.unit, memory)

/-- A field of one element. -/
def plainField (name : String) (kind : FieldKind) (offset : Nat) : FieldShape :=
  .mk name kind 1 offset

/-- Two floats. -/
def pairShape : StructShape :=
  .mk "Float2" [plainField "x" (.scalar .f32) 0, plainField "y" (.scalar .f32) 4] 8 4

/-- Two pairs of floats. -/
def boundsShape : StructShape :=
  .mk "Bounds" [plainField "min" (.struct pairShape) 0, plainField "max" (.struct pairShape) 8] 16 4

/-- Four integers in an array. -/
def quadShape : StructShape := .mk "Quad" [.mk "v" (.scalar .i32) 4 0] 16 4

/-- Scalars of several sizes. -/
def mixShape : StructShape :=
  .mk "Mix" [plainField "tag" (.scalar .i8) 0, plainField "v" (.scalar .f64) 8,
    plainField "w" (.scalar .i16) 16] 24 8

/-- Four words. -/
def bigShape : StructShape :=
  .mk "Big" [plainField "a" (.scalar .i64) 0, plainField "b" (.scalar .i64) 8,
    plainField "c" (.scalar .i64) 16, plainField "d" (.scalar .i64) 24] 32 8

/-- The address and the size of a block of memory. -/
def blockShape : StructShape :=
  .mk "ByteArray" [plainField "data" (.scalar .pointer) 0, plainField "size" (.scalar .i64) 8] 16 8

/-- Half of a number; integers are cut off toward zero. -/
def half : Value → Value
  | .i8 value => .i8 (value / 2)
  | .u8 value => .u8 (value / 2)
  | .i16 value => .i16 (value / 2)
  | .u16 value => .u16 (value / 2)
  | .i32 value => .i32 (value / 2)
  | .u32 value => .u32 (value / 2)
  | .i64 value => .i64 (value / 2)
  | .u64 value => .u64 (value / 2)
  | .f32 bits => .f32 (Float32.ofBits bits / 2).toBits
  | .f64 bits => .f64 (Float.ofBits bits / 2).toBits
  | other => other

/-- A float with the other sign. -/
def opposite : Value → Value
  | .f32 bits => .f32 (bits ^^^ 0x80000000)
  | .f64 bits => .f64 (bits ^^^ 0x8000000000000000)
  | other => other

/-- A record with every field changed. -/
def mapFields (change : Value → Value) : Value → Value
  | .struct fields => .struct (fields.map fun (name, value) => (name, change value))
  | other => other

/-- A record whose fields keep their names and take the values in the opposite order. -/
def reverseValues : Value → Value
  | .struct fields => .struct ((fields.map (·.1)).zip (fields.map (·.2)).reverse)
  | other => other

/-- The array in a record turned around. -/
def reverseItems : Value → Value
  | .array items => .array items.reverse
  | other => other

/-- The field of a field. -/
def path? (value : Value) (outer inner : String) : Option Value :=
  (value.field? outer).bind fun value => value.field? inner

/-- The distance between the horizontal ends of two pairs. -/
def width (value : Value) : Value :=
  match path? value "max" "x", path? value "min" "x" with
  | some (.f32 high), some (.f32 low) => .f32 (Float32.ofBits high - Float32.ofBits low).toBits
  | _, _ => .f32 0

/-- The sum of the numbers in an array. -/
def sumItems (value : Value) : Value :=
  match value.field? "v" with
  | some (.array items) =>
    .i64 (Int64.ofInt (items.foldl (fun sum item => sum + item.integer?.getD 0) 0))
  | _ => .i64 0

/-- The sum of two integers, on words of their size. -/
def add : Meaning
  | [.i32 a, .i32 b], memory => (.i32 (a + b), memory)
  | _, memory => (.i32 0, memory)

/-- Three integers of different sizes in the digits of one number. -/
def pack : Meaning
  | [.i8 a, .u16 b, .i32 c], memory =>
    (.i64 (Int64.ofInt (a.toInt * 1000000 + b.toNat * 10 + c.toInt)), memory)
  | _, memory => (.i64 0, memory)

/-- The description of a block. -/
def blockValue (address : Nat) (size : Int64) : Value :=
  .struct [("data", .pointer (UInt64.ofNat address)), ("size", .i64 size)]

/-- Allocate a block of at least one octet; a refused block has neither address nor size. -/
def allocateBlock : Meaning
  | [.i64 size], memory =>
    let (address, after) := memory.allocate (max size.toInt.toNat 1)
    (blockValue address (if address = 0 then 0 else size), after)
  | _, memory => (blockValue 0 0, memory)

/-- Free the block that a record describes. -/
def freeBlock : Meaning
  | [value], memory =>
    match value.field? "data" with
    | some (.pointer address) => (.unit, memory.free address.toNat)
    | _ => (.unit, memory)
  | _, memory => (.unit, memory)

/-- A function that gives its argument back. -/
def echo (symbol : String) (kind : ScalarKind) : String × NativeCode :=
  (symbol, unary (.scalar kind) (.scalar kind) id)

/-- A function that gives back half of its argument. -/
def halve (symbol : String) (kind : ScalarKind) : String × NativeCode :=
  (symbol, unary (.scalar kind) (.scalar kind) half)

/-- A function from one record to another of the same shape. -/
def onRecord (symbol : String) (shape : StructShape) (change : Value → Value) :
    String × NativeCode :=
  (symbol, unary (.struct shape) (.struct shape) change)

/-- The functions that give their argument back. -/
def echoes : List (String × NativeCode) :=
  [echo "c_echo_i8" .i8, echo "c_echo_u8" .u8, echo "c_echo_i16" .i16, echo "c_echo_u16" .u16,
   echo "c_echo_i32" .i32, echo "c_echo_u32" .u32, echo "c_echo_i64" .i64, echo "c_echo_u64" .u64,
   echo "c_echo_f32" .f32, echo "c_echo_f64" .f64, echo "c_echo_ptr" .pointer]

/-- The functions that give back half of their argument. -/
def halves : List (String × NativeCode) :=
  [halve "c_half_i8" .i8, halve "c_half_u16" .u16, halve "c_half_i32" .i32,
   halve "c_half_i64" .i64, halve "c_half_u64" .u64, halve "c_half_f32" .f32,
   halve "c_half_f64" .f64]

/-- The functions on scalars. -/
def scalars : List (String × NativeCode) :=
  [("c_answer", nativeCode [] (.scalar .i32) fun _ memory => (.i32 42, memory)),
   ("c_noop", nativeCode [] .void fun _ memory => (.unit, memory)),
   ("c_drop", nativeCode [.scalar .i32] .void fun _ memory => (.unit, memory)),
   ("c_add", nativeCode [.scalar .i32, .scalar .i32] (.scalar .i32) add),
   ("c_pack", nativeCode [.scalar .i8, .scalar .u16, .scalar .i32] (.scalar .i64) pack)]

/-- The functions on records. -/
def records : List (String × NativeCode) :=
  [onRecord "c_invert" pairShape (mapFields opposite),
   ("c_width", unary (.struct boundsShape) (.scalar .f32) width),
   onRecord "c_flip" boundsShape reverseValues,
   ("c_sum4", unary (.struct quadShape) (.scalar .i64) sumItems),
   onRecord "c_rev4" quadShape (mapFields reverseItems),
   onRecord "c_mix" mixShape id,
   onRecord "c_rev_big" bigShape reverseValues]

/-- The functions that allocate and free memory. -/
def blocks : List (String × NativeCode) :=
  [("byte_array_alloc", nativeCode [.scalar .i64] (.struct blockShape) allocateBlock),
   ("byte_array_free", nativeCode [.struct blockShape] .void freeBlock)]

/-- The library with all of these functions. -/
def library : LibraryImage := ⟨echoes ++ halves ++ scalars ++ records ++ blocks⟩

end TypeBridge.Scripted
