import TypeBridge.Marshal.Shape
import TypeBridge.Record.ArrayDtype
import TypeBridge.Record.Catalogue
import TypeBridge.Source.Struct

/-!
# The three definitions of a structure

A structure of the catalogue is defined as native text, as a record of the array library and as a
shape for calls by value. All three take the offsets of the one layout, and the names that the
structures have at that time.
-/

namespace TypeBridge

/-- The kind of a scalar that belongs to a named owner. -/
def scalarKindOf (info : TypeInfo) (owner member : String) : Except GenerateFault ScalarKind :=
  match ScalarKind.ofInfo info with
  | .ok kind => .ok kind
  | .error (.unsupported what) =>
    .error (.unsupported ("`" ++ owner ++ "." ++ member ++ "` (" ++ what ++ ")"))
  | .error fault => .error (.marshal fault)

namespace Catalogue

/-- The native spelling of what a field holds. -/
def typeText (catalogue : Catalogue) : ResolvedType → String
  | .scalar scalar _ => scalar.native.text
  | .record id => catalogue.name id
  | .pointer id => catalogue.name id ++ " *"

/-- The line of a field in the native definition. -/
def memberLine (catalogue : Catalogue) (field : ResolvedField) : Source.MemberLine :=
  ⟨field.name, catalogue.typeText field.type, field.count⟩

/-- The native definition of a structure. -/
def nativeDefinition (catalogue : Catalogue) (id : Nat) : String :=
  let entry := catalogue.entry id
  Source.structText entry.name (entry.fields.map catalogue.memberLine) entry.packing.pragma

/-- The array library's name for addresses as numbers. -/
def addressDtype : String := "uint64"

/-- The type string of addresses as numbers. -/
def addressTypeString : String := "<u8"

/-- A structure as a record of the array library. A pointer is a number there. -/
def arrayDefinition (catalogue : Catalogue) (id : Nat) : ArrayDtype :=
  let entry := catalogue.entry id
  .mk entry.name
    ((entry.fields.zip entry.layout.offsets).map fun (field, offset) =>
      match field.type with
      | .scalar scalar typeString =>
        .mk field.name offset field.count scalar.size (.scalar scalar.arrayLib.text typeString)
      | .pointer _ =>
        .mk field.name offset field.count TypeInfo.wordSize
          (.scalar addressDtype addressTypeString)
      | .record child =>
        .mk field.name offset field.count (catalogue.layout child).size
          (.record (if child < id then catalogue.arrayDefinition child else .mk "" [] 0 1)))
    entry.layout.size entry.layout.align
termination_by id

/-- The fault of a structure that cannot be passed by value. -/
def packedByValue (name : String) : GenerateFault :=
  .unsupported ("packed structure `" ++ name ++ "` by value")

/-- A structure as a shape for calls by value. Packed structures have none, nor have structures
with scalars that do not cross the boundary. -/
def callDefinition (catalogue : Catalogue) (id : Nat) : Except GenerateFault StructShape :=
  let entry := catalogue.entry id
  if entry.packing ≠ .natural then .error (packedByValue entry.name)
  else do
    let fields ← (entry.fields.zip entry.layout.offsets).mapM fun (field, offset) => do
      let kind ← match field.type with
        | .scalar scalar _ => (scalarKindOf scalar.info entry.name field.name).map FieldKind.scalar
        | .pointer _ => pure (.scalar .pointer)
        | .record child =>
          if child < id then (catalogue.callDefinition child).map FieldKind.struct
          else pure (.struct (.mk "" [] 0 1))
      return FieldShape.mk field.name kind field.count offset
    return .mk entry.name fields entry.layout.size entry.layout.align
termination_by id

/-- The definitions of some structures, in order; they count as written from then on. -/
def renderAll : List Nat → Step Catalogue GenerateFault (List String)
  | [] => pure []
  | id :: rest => do
    let catalogue ← Step.get
    let text := catalogue.nativeDefinition id
    Step.modify (·.markEmitted id)
    let texts ← renderAll rest
    return text :: texts

/-- The first `count` definitions of a structure and all that it refers to, deepest first. -/
def renderFirst (id count : Nat) : Step Catalogue GenerateFault (List String) := do
  let catalogue ← Step.get
  renderAll ((catalogue.dependencyOrder id).take count)

end Catalogue

end TypeBridge
