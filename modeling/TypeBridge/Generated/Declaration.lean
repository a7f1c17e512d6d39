import TypeBridge.Record.Composite
import TypeBridge.Record.Fault

/-!
# Declarations

What a module is asked to hold: variables, functions, and interfaces, which are functions with C
linkage that can be called from outside. `Function.defaultInterface` wraps a function in an
interface that hands every argument on to it.
-/

namespace TypeBridge

/-- A parameter of a function. -/
structure Parameter where
  name : String
  type : MemberType
deriving DecidableEq

/-- A variable of a module. -/
structure Variable where
  name : String
  type : MemberType
  initializer : Option String
  isConstant : Bool
deriving DecidableEq

/-- A function of a module; no result type stands for none. -/
structure Function where
  name : String
  returnType : Option MemberType
  parameters : List Parameter
  body : String
deriving DecidableEq

/-- A function with C linkage. -/
structure Interface where
  name : String
  returnType : Option MemberType
  parameters : List Parameter
  body : String
deriving DecidableEq

/-- What a parameter or a result is called in faults, with its type. -/
def Function.roles (function : Function) : List (String × MemberType) :=
  function.parameters.map (fun parameter => (parameter.name, parameter.type)) ++
    (function.returnType.map (fun type => ("return value", type))).toList

/-- Whether a parameter or a result is a composite that cannot be passed by value. -/
def MemberType.isPackedByValue : MemberType → Bool
  | .composite child => !child.passesByValue
  | _ => false

/-- The name of the interface of a function: the one asked for, else its own with a mark in
front. -/
def Function.interfaceName (function : Function) (exportedName : Option String) : String :=
  exportedName.getD ("c_" ++ function.name)

/-- The statement that calls a function with its own parameters. -/
def Function.forwardingBody (function : Function) : String :=
  let args := String.intercalate ", " (function.parameters.map (·.name))
  let call := function.name ++ "(" ++ args ++ ");"
  if function.returnType.isSome then "return " ++ call else call

/-- The interface that hands every argument on to a function. A function that takes or returns a
packed composite by value has none. -/
def Function.defaultInterface (function : Function) (exportedName : Option String) :
    Except GenerateFault Interface := do
  let name := function.interfaceName exportedName
  checkIdentifier name
  match function.roles.find? (fun role => role.2.isPackedByValue) with
  | some (what, _) =>
    .error (.unsupported
      ("packed composite `" ++ what ++ "` of `" ++ function.name ++ "` by value"))
  | none =>
    return ⟨name, function.returnType, function.parameters, function.forwardingBody⟩

end TypeBridge
