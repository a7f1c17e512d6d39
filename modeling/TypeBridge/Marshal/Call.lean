import TypeBridge.Marshal.Encoding
import TypeBridge.Native.Library

/-!
# Calls into native code

A `BoundFunction` is a symbol of a loaded library with its signature. A call writes every argument
into a buffer of whole words, lets the code run and reads its result; integers narrower than a word
are read from the whole word that the code leaves.
-/

namespace TypeBridge

/-- The octets of a word. -/
def wordBytes : Nat := 8

/-- Octets in words, the least significant first; the last word is filled up with zeros, and there
is always one. -/
def toWords (octets : List UInt8) : List UInt64 :=
  (List.range (max ((octets.length + 7) / wordBytes) 1)).map fun i =>
    UInt64.ofNat (ofLittleEndian (slice octets (i * wordBytes) wordBytes))

/-- The octets of some words. -/
def wordOctets (words : List UInt64) : List UInt8 :=
  words.flatMap fun word => littleEndian wordBytes word.toNat

/-- The words of a result buffer: at least one for the value, and one to spare. -/
def resultWords (shape : Shape) : Nat := (max shape.size wordBytes + 7) / wordBytes + 1

/-- Read a result. A narrow integer comes back in a whole word, whose upper octets count for
nothing. -/
def readResult (shape : Shape) (octets : List UInt8) : Value :=
  match shape with
  | .scalar kind =>
    if kind.isInteger ∧ kind.size < wordBytes then
      scalarOf kind (ofLittleEndian (octets.take wordBytes))
    else decode shape octets
  | _ => decode shape octets

/-- A symbol of a loaded library with its signature. -/
structure BoundFunction where
  name : String
  signature : Signature
  code : NativeCode
  /-- The library that the function keeps open. -/
  handle : Nat

/-- The word buffers of some arguments; the first one that does not fit is the fault. -/
def argumentBuffers : List Shape → List Value → Except MarshalFault (List (List UInt64))
  | shape :: shapes, value :: values =>
    match encodeFresh shape value with
    | .ok octets => (argumentBuffers shapes values).map (toWords octets :: ·)
    | .error fault => .error fault
  | _, _ => .ok []

/-- A result buffer: what the code left, in as many words as the result needs. -/
def resultBuffer (shape : Shape) (left : List UInt64) : List UInt64 :=
  (left ++ List.replicate (resultWords shape) 0).take (max left.length (resultWords shape))

/-- Call a function. Nothing is called if an argument is missing or does not fit. -/
def BoundFunction.call (function : BoundFunction) (args : List Value) (memory : Memory) :
    Except MarshalFault Value × Memory :=
  let signature := function.signature
  if args.length ≠ signature.params.length then
    (.error (.mismatch
      (toString signature.params.length ++ " arguments for `" ++ function.name ++ "`")
      (toString args.length ++ " arguments")), memory)
  else
    match argumentBuffers signature.params args with
    | .error fault => (.error fault, memory)
    | .ok buffers =>
      let (left, after) := function.code buffers memory
      (.ok (readResult signature.result (wordOctets (resultBuffer signature.result left))), after)

/-- Take a symbol of a library with a signature; a missing symbol is the first thing noticed. -/
def bindSymbol (library : LoadedLibrary) (name : String) (signature : Signature) :
    Except MarshalFault BoundFunction :=
  match library.image.code? name with
  | none => .error (.symbolNotFound name library.path)
  | some code =>
    if signature.params.any Shape.isVoid then
      .error (.unsupported ("void parameter of `" ++ name ++ "`"))
    else .ok ⟨name, signature, code, library.handle⟩

end TypeBridge
