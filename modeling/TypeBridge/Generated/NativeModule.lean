import TypeBridge.Generated.Declaration
import TypeBridge.Record.Definition
import TypeBridge.Source.Module
import TypeBridge.Text.Lines

/-!
# Native modules

A `NativeModule` gathers the structures, variables, functions and interfaces of one source. Types
are resolved when a declaration is added; its text is written with the names that the structures
have at the time of writing. No two declarations of a module share a name.
-/

namespace TypeBridge

/-- The type of a parameter, a result or a variable, as it will be written. -/
inductive TypeUse where
  | void
  | native (text : String)
  | record (id : Nat)
  | pointer (id : Nat)
deriving Repr, DecidableEq

/-- A function as it will be written. -/
structure Callable where
  name : String
  result : TypeUse
  params : List (String × TypeUse)
  body : String
deriving Repr, DecidableEq

/-- A variable as it will be written. -/
structure VariableEntry where
  name : String
  type : TypeUse
  initializer : Option String
  isConstant : Bool
deriving Repr, DecidableEq

/-- An interface with the signature for calls from outside. -/
structure InterfaceEntry where
  callable : Callable
  signature : Signature

/-- A header that a module includes. -/
structure HeaderUse where
  name : String
  /-- Whether the header of the module leaves it out. -/
  moduleOnly : Bool
deriving Repr, DecidableEq

/-- One source with all that is declared in it. -/
structure NativeModule where
  name : String
  /-- A header that holds the structures in place of the source. -/
  headerName : Option String
  headers : List HeaderUse
  structures : Catalogue
  /-- The structures to be written, each after those that it refers to. -/
  structureOrder : List Nat
  globals : List VariableEntry
  functions : List Callable
  interfaces : List InterfaceEntry
  /-- The names of all declarations. -/
  defined : List String

/-- A step of a module in a session. -/
abbrev ModuleStep := Step (NativeModule × Session × Workbench) GenerateFault

namespace NativeModule

/-- A module that holds nothing. -/
def empty (name : String) : NativeModule :=
  ⟨name, none, [], .empty, [], [], [], [], []⟩

/-- Let the source include a header in place of the structures. -/
def setHeaderName (module : NativeModule) (headerName : String) : NativeModule :=
  { module with headerName := some headerName }

/-- Include one more header, unless it is included already. -/
def addHeader (module : NativeModule) (name : String) (moduleOnly : Bool) : NativeModule :=
  if module.headers.any (fun header => header.name = name) then module
  else { module with headers := module.headers ++ [⟨name, moduleOnly⟩] }

/-- The names of the interfaces, in the order in which they were added. -/
def interfaceNames (module : NativeModule) : List String :=
  module.interfaces.map (·.callable.name)

/-- The signature of an interface. -/
def signature? (module : NativeModule) (name : String) : Option Signature :=
  (module.interfaces.find? (fun entry => entry.callable.name = name)).map (·.signature)

/-- Run a step on the structures of a module. -/
def onCatalogue {α : Type} (step : CatalogueStep α) : ModuleStep α :=
  Step.within (fun state => (state.1.structures, state.2))
    (fun part state => ({ state.1 with structures := part.1 }, part.2)) step

/-- Run a step on the module alone. -/
def onModule {α : Type} (step : Step NativeModule GenerateFault α) : ModuleStep α :=
  Step.onFirst step

/-- Add a structure and all that it refers to at the end of the order, deepest first, unless they
stand there already. -/
def appendStructure (module : NativeModule) (id : Nat) : NativeModule :=
  { module with
    structureOrder := (module.structures.dependencyOrder id).foldl
      (fun order dependency =>
        if order.contains dependency then order else order ++ [dependency])
      module.structureOrder }

/-- Enter a composite among the structures to be written. -/
def addStructure (machine : Machine) (composite : Composite) : ModuleStep Nat := do
  let id ← onCatalogue (Catalogue.create machine composite)
  onModule (Step.modify (·.appendStructure id))
  return id

/-- The fault of a name that is taken. -/
def taken (module : NativeModule) (name : String) : GenerateFault :=
  .duplicateDefinition name module.name

/-- Fail if a name is taken. -/
def ensureFree (name : String) : Step NativeModule GenerateFault Unit := fun module =>
  if module.defined.contains name then (.error (module.taken name), module) else (.ok (), module)

/-- Take a name. -/
def claim (name : String) : Step NativeModule GenerateFault Unit := fun module =>
  if module.defined.contains name then (.error (module.taken name), module)
  else (.ok (), { module with defined := module.defined ++ [name] })

/-- Resolve the type of a parameter, a result or a variable; its structures are to be written. -/
def typeUse (machine : Machine) : Option MemberType → ModuleStep TypeUse
  | none => pure .void
  | some (.scalar name) => do
    let scalar ← Step.onSecond ((Session.resolve machine name).widen GenerateFault.type)
    return .native scalar.native.text
  | some (.composite composite) => do
    let id ← addStructure machine composite
    return .record id
  | some (.pointer composite) => do
    let id ← addStructure machine composite
    return .pointer id

/-- Resolve the parameters of a function in order. -/
def parameterUses (machine : Machine) : List Parameter → ModuleStep (List (String × TypeUse))
  | [] => pure []
  | parameter :: rest => do
    let use ← typeUse machine (some parameter.type)
    let others ← parameterUses machine rest
    return (parameter.name, use) :: others

/-- Check the names of some parameters in order. -/
def checkParameters : List Parameter → Except GenerateFault Unit
  | [] => .ok ()
  | parameter :: rest => do
    checkIdentifier parameter.name
    checkParameters rest

/-- Resolve a function: the names of its parameters, then its result, then its parameters. -/
def callable (machine : Machine) (name : String) (returnType : Option MemberType)
    (parameters : List Parameter) (body : String) : ModuleStep Callable := do
  Step.ofExcept (checkParameters parameters)
  let result ← typeUse machine returnType
  let params ← parameterUses machine parameters
  return ⟨name, result, params, Text.dedent body⟩

/-- Add a variable. -/
def addVariable (machine : Machine) (declared : Variable) : ModuleStep Unit := do
  Step.ofExcept (checkIdentifier declared.name)
  onModule (ensureFree declared.name)
  let type ← typeUse machine (some declared.type)
  onModule (claim declared.name)
  let entry := ⟨declared.name, type, declared.initializer, declared.isConstant⟩
  onModule (Step.modify fun module => { module with globals := module.globals ++ [entry] })

/-- Add a function. -/
def addFunction (machine : Machine) (function : Function) : ModuleStep Unit := do
  Step.ofExcept (checkIdentifier function.name)
  onModule (ensureFree function.name)
  let entry ← callable machine function.name function.returnType function.parameters function.body
  onModule (claim function.name)
  onModule (Step.modify fun module => { module with functions := module.functions ++ [entry] })

/-- The shape of a parameter or a result in calls from outside. What a pointer leads to is not
looked at. -/
def callShape (machine : Machine) (owner member : String) : Option MemberType → ModuleStep Shape
  | none => pure .void
  | some (.scalar name) => do
    let scalar ← Step.onSecond ((Session.resolve machine name).widen GenerateFault.type)
    let kind ← Step.ofExcept (scalarKindOf scalar.info owner member)
    return .scalar kind
  | some (.composite composite) => do
    let id ← onCatalogue (Catalogue.create machine composite)
    let (module, _) ← Step.get
    let shape ← Step.ofExcept (module.structures.callDefinition id)
    return .struct shape
  | some (.pointer _) => pure (.scalar .pointer)

/-- The shapes of some parameters in order. -/
def callShapes (machine : Machine) (owner : String) : List Parameter → ModuleStep (List Shape)
  | [] => pure []
  | parameter :: rest => do
    let shape ← callShape machine owner parameter.name (some parameter.type)
    let others ← callShapes machine owner rest
    return shape :: others

/-- Add an interface. Its signature is made first and stays as it is from then on. -/
def addInterface (machine : Machine) (interface : Interface) : ModuleStep Unit := do
  Step.ofExcept (checkIdentifier interface.name)
  onModule (ensureFree interface.name)
  let params ← callShapes machine interface.name interface.parameters
  let result ← callShape machine interface.name "return value" interface.returnType
  let entry ← callable machine interface.name interface.returnType interface.parameters
    interface.body
  onModule (claim interface.name)
  onModule (Step.modify fun module =>
    { module with interfaces := module.interfaces ++ [⟨entry, ⟨params, result⟩⟩] })

/-- Add a function and the interface that hands its arguments on: the interface's name. -/
def addExported (machine : Machine) (function : Function) (exportedName : Option String) :
    ModuleStep String := do
  let interface ← Step.ofExcept (function.defaultInterface exportedName)
  onModule (ensureFree interface.name)
  addFunction machine function
  addInterface machine interface
  return interface.name

/-- A type as it is written now. -/
def typeText (module : NativeModule) : TypeUse → String
  | .void => "void"
  | .native text => text
  | .record id => module.structures.name id
  | .pointer id => module.structures.name id ++ " *"

/-- The head of a function. -/
def signatureText (module : NativeModule) (callable : Callable) : String :=
  let params := callable.params.map fun (name, type) => module.typeText type ++ " " ++ name
  module.typeText callable.result ++ " " ++ callable.name ++ "(" ++
    String.intercalate ", " params ++ ")"

/-- A function with its body. -/
def definitionText (module : NativeModule) (callable : Callable) : String :=
  let body := if callable.body.isEmpty then "" else Text.indent callable.body 4 ++ "\n"
  module.signatureText callable ++ " \x7b\n" ++ body ++ "\x7d"

/-- A variable with its initial value, if it has one. -/
def variableText (module : NativeModule) (declared : VariableEntry) : String :=
  let constant := if declared.isConstant then "const " else ""
  let value := match declared.initializer with
    | some initializer => " = " ++ initializer
    | none => ""
  constant ++ module.typeText declared.type ++ " " ++ declared.name ++ value ++ ";"

/-- The definitions of the structures to be written; they count as written from then on. -/
def renderStructures : Step NativeModule GenerateFault (List String) := fun module =>
  let (result, structures) := (Catalogue.renderAll module.structureOrder).run module.structures
  (result, { module with structures := structures })

/-- The source of a module. With a header of its own it holds no structures. -/
def renderModule : Step NativeModule GenerateFault String := do
  let module ← Step.get
  let own := module.headers.map fun header => Source.includeTarget header.name
  let structures ← if module.headerName.isSome then pure [] else renderStructures
  return Source.moduleText {
    includes := own ++ (module.headerName.map Source.includeTarget).toList
    structures := structures
    globals := module.globals.map module.variableText
    functions := module.functions.map module.definitionText
    interfaces := module.interfaces.map fun entry => module.definitionText entry.callable }

/-- The header of a module. -/
def renderHeader : Step NativeModule GenerateFault String := do
  let module ← Step.get
  let shared := module.headers.filter fun header => !header.moduleOnly
  let structures ← renderStructures
  return Source.headerText {
    includes := shared.map fun header => Source.includeTarget header.name
    structures := structures
    interfaces := module.interfaces.map fun entry => module.signatureText entry.callable }

end NativeModule

end TypeBridge
