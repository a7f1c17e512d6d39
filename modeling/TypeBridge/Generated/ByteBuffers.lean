import TypeBridge.Generated.Built

/-!
# Byte buffers

Buffers that native code allocates and callers share. The module built here exports one function
that allocates a buffer and one that frees it; a buffer crosses the boundary as a record of its
address and its size.
-/

namespace TypeBridge

/-- A buffer of native memory. -/
structure ByteBuffer where
  address : UInt64
  size : Int64
deriving Repr, DecidableEq

namespace ByteBuffer

/-- The name of the record that buffers cross the boundary as. -/
def recordName : String := "ByteArray"

/-- The fault of a value that is no buffer. -/
def mismatch (expected : String) (value : Value) : MarshalFault :=
  .mismatch (recordName ++ " with " ++ expected) value.describe

/-- The buffer that a record describes. -/
def ofValue (value : Value) : Except MarshalFault ByteBuffer :=
  match value.field? "data" with
  | some (.pointer address) =>
    match value.field? "size" with
    | some (.i64 size) => .ok ⟨address, size⟩
    | _ => .error (mismatch "integer field `size`" value)
  | _ => .error (mismatch "pointer field `data`" value)

/-- The record that describes a buffer. -/
def toValue (buffer : ByteBuffer) : Value :=
  .struct [("data", .pointer buffer.address), ("size", .i64 buffer.size)]

/-- Whether there is no memory behind a buffer. -/
def isNull (buffer : ByteBuffer) : Bool := buffer.address = 0

/-- The octets of a buffer; a negative size counts as none. -/
def length (buffer : ByteBuffer) : Nat := buffer.size.toInt.toNat

/-- Whether a buffer has no octets. -/
def isEmpty (buffer : ByteBuffer) : Bool := buffer.length = 0

/-- What a buffer holds; a buffer without memory holds nothing. -/
def read (buffer : ByteBuffer) (memory : Memory) : List UInt8 :=
  if buffer.isNull then [] else memory.loadAll buffer.address.toNat buffer.length

/-- Write octets into a buffer from a place on; what lies outside is dropped. -/
def write (buffer : ByteBuffer) (place : Nat) (octets : List UInt8) (memory : Memory) : Memory :=
  if buffer.isNull then memory
  else memory.storeAll (buffer.address.toNat + place) (octets.take (buffer.length - place))

/-- A buffer is read back from the record that describes it. -/
theorem ofValue_toValue (buffer : ByteBuffer) : ofValue buffer.toValue = .ok buffer := rfl

end ByteBuffer

namespace ByteBuffers

/-- The symbol of the function that allocates a buffer. -/
def allocateName : String := "byte_array_alloc"

/-- The symbol of the function that frees a buffer. -/
def freeName : String := "byte_array_free"

/-- The record that buffers cross the boundary as. -/
def record : Composite :=
  (Composite.empty.add (.single "data" (.scalar (.native "unsigned char *")))).add
    (.single "size" (.scalar (.native "long long")))

/-- The function that allocates a buffer. -/
def allocateFunction : Function where
  name := "byte_array_alloc_"
  returnType := some (.composite record)
  parameters := [⟨"size", .scalar (.native "long long")⟩]
  body :=
    "ByteArray array;\n" ++
      "array.data = static_cast<unsigned char *>" ++
      "(std::calloc(static_cast<std::size_t>(size > 0 ? size : 1), 1));\n" ++
      "array.size = array.data ? size : 0;\n" ++
      "return array;"

/-- The function that frees a buffer. -/
def freeFunction : Function where
  name := "byte_array_free_"
  returnType := none
  parameters := [⟨"array", .composite record⟩]
  body := "std::free(array.data);"

/-- Fill a module with the functions that allocate and free buffers. -/
def declare (machine : Machine) : ModuleStep Unit := do
  Step.onFirst (Step.modify fun module => module.addHeader "<cstdlib>" true)
  let id ← NativeModule.addStructure machine record
  NativeModule.onCatalogue (Step.onFirst (Catalogue.renameId id ByteBuffer.recordName))
  let _ ← NativeModule.addExported machine allocateFunction (some allocateName)
  let _ ← NativeModule.addExported machine freeFunction (some freeName)

/-- The module of the functions that allocate and free buffers. -/
def module (machine : Machine) : Step (Session × Workbench) GenerateFault NativeModule :=
  fun state =>
    let (result, (module, after)) := declare machine (.empty "byte_array", state)
    (result.map fun _ => module, after)

/-- The module that allocates and frees buffers, built and bound. -/
structure Library where
  built : BuiltModule
  bound : BoundModule

/-- Build and bind the module in a session. -/
def build (machine : Machine) : Step (Session × Workbench) BridgeFault Library := do
  let module ← (module machine).widen BridgeFault.generate
  let (session, _) ← Step.get
  Step.onSecond fun bench =>
    let (result, (_, after)) :=
      NativeModule.buildAndBind machine session.config .plain (module, bench)
    (result.map fun (built, bound) => ⟨built, bound⟩, after)

/-- Allocate a zeroed buffer. -/
def allocate (library : Library) (size : Int64) : Step Workbench BridgeFault ByteBuffer := do
  let value ← (library.bound.call allocateName [.i64 size]).widen BridgeFault.generate
  Step.ofExcept ((ByteBuffer.ofValue value).mapError BridgeFault.marshal)

/-- Free a buffer. -/
def free (library : Library) (buffer : ByteBuffer) : Step Workbench BridgeFault Unit := do
  let _ ← (library.bound.call freeName [buffer.toValue]).widen BridgeFault.generate

end ByteBuffers

end TypeBridge
