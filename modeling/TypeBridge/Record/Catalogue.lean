import TypeBridge.Digest.Sha1
import TypeBridge.Record.Fault
import TypeBridge.Record.Layout
import TypeBridge.Types.Session

/-!
# The catalogue of structures

A `Catalogue` holds every structure once. What makes two composites the same structure is their key:
the names, resolved native types and counts of their fields, with nested structures by their own
keys, and the packing. A structure is called after the digest of its key until it is renamed, and it
can be renamed until its definition is written somewhere. `Catalogue.create` enters a composite and
all composites in it; a composite that is refused, or at whose layout the program stops, leaves
behind those entered before.
-/

namespace TypeBridge

/-- Refuse a packing that the native compiler does not honour. -/
def Packing.check (packing : Packing) : Except GenerateFault Unit :=
  match packing with
  | .packed bytes => if packing.isValid then .ok () else .error (.invalidPacking bytes)
  | .natural => .ok ()

/-- The check fails for a packing that is not valid, and the fault has its bytes. -/
theorem Packing.check_eq_error_iff {packing : Packing} {fault : GenerateFault} :
    packing.check = .error fault ↔
      ¬ packing.isValid ∧ ∃ bytes, packing = .packed bytes ∧ fault = .invalidPacking bytes := by
  cases packing with
  | natural => exact ⟨nofun, fun refused => absurd rfl refused.1⟩
  | packed bytes =>
      unfold check
      dsimp only
      split
      · rename_i valid
        exact ⟨nofun, fun refused => absurd valid refused.1⟩
      · rename_i other
        rw [Except.error.injEq, eq_comm]
        exact ⟨fun same => ⟨other, bytes, rfl, same⟩, fun ⟨_, _, own, same⟩ => by
          cases own
          exact same⟩

/-- What a field holds, with its scalar named in all systems and its structures by number. -/
inductive ResolvedType where
  | scalar (scalar : ResolvedScalar) (typeString : String)
  | record (id : Nat)
  | pointer (id : Nat)
deriving Repr, DecidableEq

/-- A field of a structure. -/
structure ResolvedField where
  name : String
  type : ResolvedType
  count : Nat
deriving Repr, DecidableEq

/-- The structure that a field refers to, if any. -/
def ResolvedField.child? (field : ResolvedField) : Option Nat :=
  match field.type with
  | .scalar _ _ => none
  | .record id => some id
  | .pointer id => some id

/-- A structure of the catalogue. -/
structure RecordEntry where
  key : String
  name : String
  packing : Packing
  fields : List ResolvedField
  layout : Layout
  /-- Whether its definition was written. -/
  emitted : Bool
deriving Repr, DecidableEq

/-- What stands where no structure is. -/
def RecordEntry.absent : RecordEntry := ⟨"", "", .natural, [], ⟨[], 0, 1⟩, false⟩

/-- All structures by number, with indexes by composite, key and name. -/
structure Catalogue where
  entries : List RecordEntry
  byType : List (Composite × Nat)
  byKey : List (String × Nat)
  byName : List (String × Nat)

namespace Catalogue

/-- No structures. -/
def empty : Catalogue := ⟨[], [], [], []⟩

/-- The structure of a number. -/
def entry (catalogue : Catalogue) (id : Nat) : RecordEntry :=
  (catalogue.entries[id]?).getD .absent

/-- The present name of a structure. -/
def name (catalogue : Catalogue) (id : Nat) : String := (catalogue.entry id).name

/-- The key of a structure. -/
def key (catalogue : Catalogue) (id : Nat) : String := (catalogue.entry id).key

/-- The layout of a structure. -/
def layout (catalogue : Catalogue) (id : Nat) : Layout := (catalogue.entry id).layout

/-- The number of structures. -/
def size (catalogue : Catalogue) : Nat := catalogue.entries.length

/-- The structure that a composite was entered as. -/
def lookup (catalogue : Catalogue) (composite : Composite) : Option Nat :=
  catalogue.byType.lookup composite

/-- Change the structure of a number. -/
def modifyEntry (catalogue : Catalogue) (id : Nat) (change : RecordEntry → RecordEntry) :
    Catalogue :=
  { catalogue with entries := catalogue.entries.modify id change }

/-- Note that a composite is a structure already entered. -/
def addType (catalogue : Catalogue) (composite : Composite) (id : Nat) : Catalogue :=
  { catalogue with byType := (composite, id) :: catalogue.byType }

/-- Enter a new structure at the end. -/
def push (catalogue : Catalogue) (composite : Composite) (entry : RecordEntry) : Catalogue :=
  let id := catalogue.entries.length
  { entries := catalogue.entries ++ [entry]
    byType := (composite, id) :: catalogue.byType
    byKey := (entry.key, id) :: catalogue.byKey
    byName := (entry.name, id) :: catalogue.byName }

/-- The name of a structure that was not renamed. -/
def canonicalName (key : String) : String :=
  "struct_" ++ Digest.sha1Hex (Text.Utf8.encode key)

/-- The character that ends each part of a key. -/
def keyEnd : String := String.ofList [Char.ofNat 0]

/-- The part of a key that stands for one field. -/
def fieldKey (name part : String) (count : Nat) : String :=
  name ++ keyEnd ++ part ++ keyEnd ++ toString count ++ keyEnd

/-- A resolved field with what key and layout need of it. -/
structure Piece where
  field : ResolvedField
  layout : MemberLayout
  key : String

/-- The key of a structure. -/
def keyOf (parts : List Piece) (packing : Packing) : String :=
  String.join (parts.map (·.key)) ++ packing.tag

/-- Enter a composite whose fields are resolved, unless a structure with its key is there. -/
def enter (overflow : Overflow) (composite : Composite) (parts : List Piece) :
    Step Catalogue GenerateFault Nat :=
  fun catalogue =>
    let key := keyOf parts composite.packing
    match catalogue.byKey.lookup key with
    | some id => (.ok id, catalogue.addType composite id)
    | none =>
      let name := canonicalName key
      if (catalogue.byName.lookup name).isSome then (.error (.nameConflict name), catalogue)
      else
        match computeLayout overflow (parts.map (·.layout)) composite.packing with
        | .error operation => (.error (.overflow operation), catalogue)
        | .ok layout =>
          (.ok catalogue.entries.length, catalogue.push composite
            { key := key
              name := name
              packing := composite.packing
              fields := parts.map (·.field)
              layout := layout
              emitted := false })

end Catalogue

/-- A step of a catalogue in a session. -/
abbrev CatalogueStep := Step (Catalogue × Session × Workbench) GenerateFault

namespace Catalogue

/-- Name a scalar in all systems, with its type string in the array library. -/
def resolveScalar (machine : Machine) (name : TypeName) :
    CatalogueStep (ResolvedScalar × String) := do
  let scalar ← Step.onSecond ((Session.resolve machine name).widen GenerateFault.type)
  let (_, session, _) ← Step.get
  let typeString := ((session.registry.info? scalar.arrayLib).bind TypeInfo.typeString?).getD
    ("|V" ++ toString scalar.size)
  return (scalar, typeString)

mutual

/-- Enter a composite and those in it: the number of its structure. -/
def create (machine : Machine) : Composite → CatalogueStep Nat
  | .mk fields packing => do
    let composite := Composite.mk fields packing
    let (catalogue, _) ← Step.get
    match catalogue.lookup composite with
    | some id => return id
    | none =>
      if fields.isEmpty then Step.fail .emptyComposite
      Step.ofExcept packing.check
      let parts ← createFields machine fields
      Step.onFirst (enter machine.overflow composite parts)

/-- Resolve the fields of a composite in order. -/
def createFields (machine : Machine) : List Field → CatalogueStep (List Piece)
  | [] => pure []
  | .mk name type count :: rest => do
    Step.ofExcept (checkIdentifier name)
    let (resolved, size, align, part) ← createMember machine type
    let others ← createFields machine rest
    return {
      field := ⟨name, resolved, count⟩
      layout := ⟨size, align, count⟩
      key := fieldKey name part count } :: others

/-- Resolve what a field holds: its type, the size and alignment of an element, and its part of the
key. -/
def createMember (machine : Machine) :
    MemberType → CatalogueStep (ResolvedType × Nat × Nat × String)
  | .scalar name => do
    let (scalar, typeString) ← resolveScalar machine name
    return (.scalar scalar typeString, scalar.size, scalarAlign scalar.size, scalar.native.text)
  | .composite child => do
    let id ← create machine child
    let (catalogue, _) ← Step.get
    let layout := catalogue.layout id
    return (.record id, layout.size, layout.align, "\x7b" ++ catalogue.key id ++ "\x7d")
  | .pointer child => do
    let id ← create machine child
    let (catalogue, _) ← Step.get
    return (.pointer id, TypeInfo.wordSize, scalarAlign TypeInfo.wordSize,
      "*\x7b" ++ catalogue.key id ++ "\x7d")

end

/-- Give a structure the name `name` in the index. -/
def reindexName (catalogue : Catalogue) (old name : String) (id : Nat) : List (String × Nat) :=
  (name, id) :: catalogue.byName.filter (fun entry => entry.1 != old && entry.1 != name)

/-- Rename a structure. Its own name is always accepted; a structure whose definition was written
keeps its name, and no two structures share one. -/
def renameId (id : Nat) (name : String) : Step Catalogue GenerateFault Unit := fun catalogue =>
  let entry := catalogue.entry id
  match checkIdentifier name with
  | .error fault => (.error fault, catalogue)
  | .ok () =>
    if entry.name = name then (.ok (), catalogue)
    else if entry.emitted then (.error (.alreadyRendered entry.name), catalogue)
    else if (catalogue.byName.lookup name).any (· != id) then
      (.error (.nameConflict name), catalogue)
    else
      (.ok (),
        { catalogue.modifyEntry id (fun entry => { entry with name := name }) with
          byName := catalogue.reindexName entry.name name id })

/-- Enter a composite and rename its structure. -/
def rename (machine : Machine) (composite : Composite) (name : String) : CatalogueStep Nat := do
  let id ← create machine composite
  Step.onFirst (renameId id name)
  return id

/-- Note that the definition of a structure was written. -/
def markEmitted (catalogue : Catalogue) (id : Nat) : Catalogue :=
  catalogue.modifyEntry id fun entry => { entry with emitted := true }

/-- The structures that a structure refers to, in the order of its fields. -/
def children (catalogue : Catalogue) (id : Nat) : List Nat :=
  (catalogue.entry id).fields.filterMap ResolvedField.child?

/-- Add a structure to an order, after all that it refers to. A structure refers only to ones
entered before it. -/
def visit (catalogue : Catalogue) (id : Nat) (order : List Nat) : List Nat :=
  if order.contains id then order
  else
    (catalogue.children id).foldl
      (fun order child => if child < id then catalogue.visit child order else order) order ++ [id]
termination_by id

/-- A structure and all that it refers to, each once and after those that it refers to itself. -/
def dependencyOrder (catalogue : Catalogue) (id : Nat) : List Nat := catalogue.visit id []

end Catalogue

end TypeBridge
