import TypeBridge.Record.Layout
import TypeBridge.Text.Json

/-!
# Array-library records

An `ArrayDtype` describes a structure to the array library: its fields with their offsets, and the
bytes of an element as a whole. `descr` writes it as an array-interface description, in which
nameless entries fill the gaps between fields.
-/

namespace TypeBridge

mutual

/-- What an element of a field is. -/
inductive ArrayFormat where
  | scalar (dtype typeString : String)
  | record (dtype : ArrayDtype)

/-- A field at an offset; `elementSize` counts one of its elements. -/
inductive ArrayField where
  | mk (name : String) (offset count elementSize : Nat) (format : ArrayFormat)

/-- A structure as the array library sees it. -/
inductive ArrayDtype where
  | mk (name : String) (fields : List ArrayField) (itemSize align : Nat)

end

namespace ArrayField

/-- The name of a field. -/
def name : ArrayField → String
  | .mk name _ _ _ _ => name

/-- Where the first element starts in the structure. -/
def offset : ArrayField → Nat
  | .mk _ offset _ _ _ => offset

/-- The number of elements. -/
def count : ArrayField → Nat
  | .mk _ _ count _ _ => count

/-- The bytes that one element takes. -/
def elementSize : ArrayField → Nat
  | .mk _ _ _ elementSize _ => elementSize

/-- What an element is. -/
def format : ArrayField → ArrayFormat
  | .mk _ _ _ _ format => format

/-- The offset behind the last element. Where overflow is caught, the structure was laid out before
with the same sum, so nothing is lost. -/
def limit (field : ArrayField) : Nat :=
  wrapWord (field.offset + wrapWord (field.elementSize * field.count))

end ArrayField

namespace ArrayDtype

/-- The name of a structure. -/
def name : ArrayDtype → String
  | .mk name _ _ _ => name

/-- The fields of a structure in order. -/
def fields : ArrayDtype → List ArrayField
  | .mk _ fields _ _ => fields

/-- The bytes that a structure takes. -/
def itemSize : ArrayDtype → Nat
  | .mk _ _ itemSize _ => itemSize

/-- The number that the address of a structure is a multiple of. -/
def align : ArrayDtype → Nat
  | .mk _ _ _ align => align

/-- The names of the fields. -/
def names (dtype : ArrayDtype) : List String := dtype.fields.map ArrayField.name

/-- The offsets of the fields. -/
def offsets (dtype : ArrayDtype) : List Nat := dtype.fields.map ArrayField.offset

/-- A nameless entry for the bytes from `cursor` up to `next`, if there are any. -/
def gap (cursor next : Nat) : List Text.Json :=
  if next > cursor then [.array [.text "", .text ("|V" ++ toString (next - cursor))]] else []

/-- The entry of a field; several elements are shown as a list of one number. -/
def fieldEntry (name : String) (format : Text.Json) (count : Nat) : Text.Json :=
  .array (.text name :: format :: (if count > 1 then [.array [.number count]] else []))

/-- The offset behind the last of some fields. -/
def endOf (cursor : Nat) (fields : List ArrayField) : Nat :=
  fields.foldl (fun _ field => field.limit) cursor

mutual

/-- The description of what an element is. -/
def formatDescr : ArrayFormat → Text.Json
  | .scalar _ typeString => .text typeString
  | .record dtype => descr dtype

/-- The descriptions of some fields, with the gaps before each. -/
def fieldsDescr : Nat → List ArrayField → List Text.Json
  | _, [] => []
  | cursor, .mk name offset count elementSize format :: rest =>
    gap cursor offset ++ fieldEntry name (formatDescr format) count ::
      fieldsDescr (ArrayField.limit (.mk name offset count elementSize format)) rest

/-- The array-interface description of a structure. -/
def descr : ArrayDtype → Text.Json
  | .mk _ fields itemSize _ => .array (fieldsDescr 0 fields ++ gap (endOf 0 fields) itemSize)

end

/-- The description as a text. -/
def descrText (dtype : ArrayDtype) : String := (descr dtype).compact

mutual

/-- A structure with all that is known of its fields. -/
def toJson : ArrayDtype → Text.Json
  | .mk name fields itemSize align =>
    .object [("name", .text name), ("fields", .array (fieldsJson fields)),
      ("itemsize", .number itemSize), ("align", .number align)]

/-- What an element is. -/
def formatJson : ArrayFormat → Text.Json
  | .scalar dtype typeString =>
    .object [("scalar", .object [("dtype", .text dtype), ("typestr", .text typeString)])]
  | .record dtype => .object [("record", toJson dtype)]

/-- Fields with all that is known of them. -/
def fieldsJson : List ArrayField → List Text.Json
  | [] => []
  | .mk name offset count elementSize format :: rest =>
    .object [("name", .text name), ("offset", .number offset), ("count", .number count),
      ("element_size", .number elementSize), ("format", formatJson format)] :: fieldsJson rest

end

end ArrayDtype

end TypeBridge
