import TypeBridge.Generated.NativeModule
import TypeBridge.Marshal.Call

/-!
# Bound modules

Binding takes every interface of a module from a loaded library. It fails on the first symbol that
the library's build was asked to export and that is missing, else on the first missing interface;
the functions bound before that are given up again.
-/

namespace TypeBridge

/-- Take a symbol of a loaded library with a signature: the function is one more owner of the
library. -/
def LoadedLibrary.bindFunction (library : LoadedLibrary) (name : String) (signature : Signature) :
    Step Workbench MarshalFault BoundFunction := fun bench =>
  match bindSymbol library name signature with
  | .error fault => (.error fault, bench)
  | .ok function =>
    (.ok function, { bench with handles := bench.handles.acquire library.handle })

/-- Give up a function. -/
def BoundFunction.drop (function : BoundFunction) (bench : Workbench) : Workbench :=
  { bench with handles := bench.handles.release function.handle 1 }

/-- The interfaces of a module, ready to be called. -/
structure BoundModule where
  /-- Where the library came from. -/
  library : String
  functions : List BoundFunction

namespace BoundModule

/-- Give up some functions in order. -/
def giveUp (functions : List BoundFunction) (bench : Workbench) : Workbench :=
  functions.foldl (fun bench function => function.drop bench) bench

/-- Keep a function under its name; one that had this name before gives way. -/
def keep (bound : List BoundFunction) (function : BoundFunction) : List BoundFunction :=
  bound.filter (fun other => other.name ≠ function.name) ++ [function]

/-- The fault of a symbol that is missing from a library. -/
def missing (module : NativeModule) (library : LoadedLibrary) (symbol : String) : GenerateFault :=
  .symbolNotFound symbol library.path module.interfaceNames

/-- Bind the interfaces of a list after those bound already. -/
def bindFrom (module : NativeModule) (library : LoadedLibrary) (bound : List BoundFunction) :
    List InterfaceEntry → Step Workbench GenerateFault (List BoundFunction)
  | [] => pure bound
  | entry :: rest => do
    let name := entry.callable.name
    if !library.image.exports name then
      Step.modify (giveUp bound)
      Step.fail (missing module library name)
    match ← (library.bindFunction name entry.signature).attempt with
    | .error fault =>
      Step.modify (giveUp bound)
      Step.fail (.marshal fault)
    | .ok function =>
      Step.modify (giveUp (bound.filter fun other => other.name = function.name))
      bindFrom module library (keep bound function) rest

/-- Bind all interfaces of a module. -/
def bind (module : NativeModule) (library : LoadedLibrary) :
    Step Workbench GenerateFault BoundModule := do
  match library.exports.find? (fun symbol => !library.image.exports symbol) with
  | some symbol => Step.fail (missing module library symbol)
  | none =>
    let functions ← bindFrom module library [] module.interfaces
    return ⟨library.path, functions⟩

/-- The function of an interface. -/
def get? (bound : BoundModule) (name : String) : Option BoundFunction :=
  bound.functions.find? (fun function => function.name = name)

/-- The names of the functions in order. -/
def names (bound : BoundModule) : List String :=
  (bound.functions.map (·.name)).mergeSort (fun a b => decide (a ≤ b))

/-- Call a function by the name of its interface. -/
def call (bound : BoundModule) (name : String) (args : List Value) :
    Step Workbench GenerateFault Value := fun bench =>
  match bound.get? name with
  | none => (.error (.symbolNotFound name bound.library bound.names), bench)
  | some function =>
    let (result, memory) := function.call args bench.memory
    (result.mapError GenerateFault.marshal, { bench with memory := memory })

/-- Give up all functions of a bound module. -/
def drop (bound : BoundModule) (bench : Workbench) : Workbench := giveUp bound.functions bench

end BoundModule

end TypeBridge
