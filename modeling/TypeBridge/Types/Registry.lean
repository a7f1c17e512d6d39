import TypeBridge.Types.Builtin
import TypeBridge.Types.Fault

/-!
# The type registry

A `Registry` is a table of types with their facts, and an index that leads from a type to its place
there. Types are only ever added, in order, and a type's facts never change; `prefer` marks a type
as the one to be chosen among its family. The order of registration is the order of preference
otherwise.
-/

namespace TypeBridge

/-- A registered type. -/
structure RegistryEntry where
  name : TypeName
  info : TypeInfo
  preferred : Bool
deriving Repr, DecidableEq

/-- The registered types, the first one first, with an index of their places. -/
structure Registry where
  entries : List RegistryEntry
  /-- The place of each type; the latest one shadows those before. -/
  index : List (TypeName × Nat)
  /-- A place is noted whenever a type is added. -/
  indexed : index = (entries.map (·.name)).zipIdx.reverse
deriving Repr, DecidableEq

namespace Registry

/-- No types. -/
def empty : Registry := ⟨[], [], rfl⟩

/-- Add a type at the end. -/
def insert (registry : Registry) (name : TypeName) (info : TypeInfo) : Registry where
  entries := registry.entries ++ [⟨name, info, false⟩]
  index := (name, registry.entries.length) :: registry.index
  indexed := by simp [registry.indexed, List.zipIdx_append]

/-- The types whose facts are known without probing. -/
def fixed : Registry :=
  Builtin.fixedTypes.foldl (fun registry (name, info) => registry.insert name info) empty

/-- The place of a type in the order of registration. -/
def position? (registry : Registry) (name : TypeName) : Option Nat := registry.index.lookup name

/-- The entry of a type. -/
def entry? (registry : Registry) (name : TypeName) : Option RegistryEntry :=
  (registry.position? name).bind fun place => registry.entries[place]?

/-- The facts about a type. -/
def info? (registry : Registry) (name : TypeName) : Option TypeInfo :=
  (registry.entry? name).map (·.info)

/-- Whether a type is registered. -/
def contains (registry : Registry) (name : TypeName) : Bool := (registry.position? name).isSome

/-- Whether a type is preferred among those of its family. -/
def isPreferred (registry : Registry) (name : TypeName) : Bool :=
  ((registry.entry? name).map (·.preferred)).getD false

/-- The types with their facts, in the order of registration. -/
def toList (registry : Registry) : List (TypeName × TypeInfo) :=
  registry.entries.map fun entry => (entry.name, entry.info)

/-- The types of one system with their facts, in the order of registration. -/
def ofSystem (registry : Registry) (system : TypeSystem) : List (TypeName × TypeInfo) :=
  registry.toList.filter fun entry => entry.1.system = system

/-- The number of registered types. -/
def size (registry : Registry) : Nat := registry.entries.length

/-- Register a type: whether it is new. Registering it again with the same facts changes nothing;
other facts, or facts without a size, are refused. -/
def register (name : TypeName) (info : TypeInfo) : Step Registry TypeFault Bool := fun registry =>
  if info.size.isNone then (.error (.unsized name), registry)
  else
    match registry.info? name with
    | some existing =>
      if existing = info then (.ok false, registry)
      else (.error (.duplicate name existing info), registry)
    | none => (.ok true, registry.insert name info)

/-- Marking a type leaves the names of all types alone. -/
theorem names_modify (entries : List RegistryEntry) (place : Nat) :
    (entries.modify place fun entry => { entry with preferred := true }).map (·.name) =
      entries.map (·.name) := by
  induction entries generalizing place with
  | nil => simp
  | cons entry rest ih =>
    cases place with
    | zero => simp
    | succ place => simp [ih]

/-- Mark the type at a place as preferred. -/
def markPreferred (registry : Registry) (place : Nat) : Registry where
  entries := registry.entries.modify place fun entry => { entry with preferred := true }
  index := registry.index
  indexed := by rw [names_modify, registry.indexed]

/-- Prefer a registered type among its family. -/
def prefer (name : TypeName) : Step Registry TypeFault Unit := fun registry =>
  match registry.position? name with
  | some place => (.ok (), registry.markPreferred place)
  | none => (.error (.unregistered name), registry)

end Registry

end TypeBridge
