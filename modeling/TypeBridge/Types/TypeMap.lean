import TypeBridge.Types.Registry

/-!
# Maps between type systems

A `TypeMap` leads from every registered type to its counterpart in one system. `TypeMap.build` goes
through the registry once to find the type that stands for each family, and once more to pair the
types. `TypeMap.resolve` adds the rules for pointers, which no registry lists.
-/

namespace TypeBridge

/-- What is known of one family in the target system. -/
structure FamilyRow where
  family : Family
  /-- The type of the family that was registered first. -/
  first : TypeName
  /-- The preferred types of the family. -/
  favourites : List TypeName
deriving Repr, DecidableEq

namespace FamilyRow

/-- The type that stands for the family: its preferred one, else the first. -/
def canonical (row : FamilyRow) : TypeName :=
  match row.favourites with
  | [only] => only
  | _ => row.first

/-- Several preferred types leave no choice. -/
def isAmbiguous (row : FamilyRow) : Bool := row.favourites.length ≥ 2

/-- Take a further type of a family into its row, or start a row for it. -/
def record (family : Family) (name : TypeName) (preferred : Bool) :
    List FamilyRow → List FamilyRow
  | [] => [⟨family, name, if preferred then [name] else []⟩]
  | row :: rest =>
    if row.family = family then
      (if preferred then { row with favourites := row.favourites ++ [name] } else row) :: rest
    else row :: record family name preferred rest

end FamilyRow

/-- The families of a system in the order in which they appear. -/
def Registry.familyRows (registry : Registry) (target : TypeSystem) : List FamilyRow :=
  registry.entries.foldl (fun rows entry =>
    if entry.name.system = target then
      match entry.info.family? with
      | some family => FamilyRow.record family entry.name entry.preferred rows
      | none => rows
    else rows) []

/-- A map from registered types into one system. -/
structure TypeMap where
  target : TypeSystem
  /-- Every registered type with its counterpart, in the order of registration. -/
  entries : List (TypeName × TypeName)
  /-- What pointers are in the target system; native pointers keep their pointee instead. -/
  pointer : Option TypeName
deriving Repr, DecidableEq

namespace TypeMap

/-- The type that stands for a family. -/
def canonical? (rows : List FamilyRow) (family : Family) : Option TypeName :=
  (rows.find? (fun row => row.family = family)).map FamilyRow.canonical

/-- The counterpart of a type; a type of the target system is its own. -/
def counterpart? (rows : List FamilyRow) (target : TypeSystem) (name : TypeName)
    (info : TypeInfo) : Option TypeName :=
  if name.system = target then some name else info.family?.bind (canonical? rows)

/-- The family of addresses seen as numbers. -/
def addressFamily : Family := ⟨.unsigned, .integer, TypeInfo.wordSize⟩

/-- What pointers are in a system. -/
def pointerIn (rows : List FamilyRow) : TypeSystem → Option TypeName
  | .native => none
  | .ffi => some .ffiPointer
  | .arrayLib => canonical? rows addressFamily

/-- The types without a counterpart. -/
def unresolved (rows : List FamilyRow) (registry : Registry) (target : TypeSystem) :
    List TypeName :=
  registry.toList.filterMap fun (name, info) =>
    match counterpart? rows target name info with
    | some _ => none
    | none => some name

/-- The types that have a counterpart, with it. -/
def paired (rows : List FamilyRow) (registry : Registry) (target : TypeSystem) :
    List (TypeName × TypeName) :=
  registry.toList.filterMap fun (name, info) =>
    (counterpart? rows target name info).map fun counterpart => (name, counterpart)

/-- The map into a system. It fails on the first family with several preferred types, else on all
types without a counterpart. -/
def build (registry : Registry) (target : TypeSystem) : Except TypeFault TypeMap :=
  let rows := registry.familyRows target
  match rows.find? FamilyRow.isAmbiguous with
  | some row => .error (.ambiguous target row.family row.favourites)
  | none =>
    let missing := unresolved rows registry target
    if missing.isEmpty then .ok ⟨target, paired rows registry target, pointerIn rows target⟩
    else .error (.unresolved target missing)

/-- The counterpart of a registered type. -/
def get? (map : TypeMap) (name : TypeName) : Option TypeName := map.entries.lookup name

/-- The number of mapped types. -/
def size (map : TypeMap) : Nat := map.entries.length

/-- A pointer whose pointee is mapped where the map has it; `fuel` bounds the levels of
indirection. -/
def nativePointer (map : TypeMap) : Nat → TypeName → TypeName
  | 0, _ => .native "void *"
  | fuel + 1, name =>
    match name.pointee with
    | none => .native "void *"
    | some pointee =>
      (if pointee.isPointer then map.nativePointer fuel pointee
        else (map.get? pointee).getD pointee).pointerTo

/-- The counterpart of a pointer: native pointers keep their pointee, others have one type for all
pointers. -/
def resolvePointer (map : TypeMap) (name : TypeName) : Except TypeFault TypeName :=
  match map.target with
  | .native => .ok (map.nativePointer (name.text.length + 1) name)
  | .ffi => .ok .ffiPointer
  | .arrayLib =>
    match map.pointer with
    | some pointer => .ok pointer
    | none => .error (.unresolved map.target [name])

/-- The counterpart of any type, pointers included. -/
def resolve (map : TypeMap) (name : TypeName) : Except TypeFault TypeName :=
  if name.isPointer then map.resolvePointer name
  else
    match map.get? name with
    | some counterpart => .ok counterpart
    | none => .error (.unresolved map.target [name])

end TypeMap

end TypeBridge
