import TypeBridge.Marshal.Fault
import TypeBridge.Types.Fault
import TypeBridge.Words

/-!
# Faults about generated code

`GenerateFault` lists why a structure, a declaration or a binding is refused.
-/

namespace TypeBridge

/-- Why a structure, a declaration or a binding is refused. -/
inductive GenerateFault where
  /-- A new name would make text stale that was written already. -/
  | alreadyRendered (name : String)
  | nameConflict (name : String)
  | invalidName (name : String)
  | invalidPacking (bytes : Nat)
  | emptyComposite
  | duplicateDefinition (name module : String)
  | unsupported (what : String)
  /-- A symbol is missing from a library; the exports are those of the module. -/
  | symbolNotFound (symbol library : String) (exports : List String)
  /-- The program stopped at an operation whose result is no word. -/
  | overflow (operation : WordOperation)
  | type (fault : TypeFault)
  | marshal (fault : MarshalFault)
deriving Repr, DecidableEq

/-- The wording of a fault. -/
def GenerateFault.message : GenerateFault → String
  | .alreadyRendered name =>
    "structure `" ++ name ++ "` was already rendered and can no longer be renamed"
  | .nameConflict name => "name `" ++ name ++ "` already belongs to a different structure"
  | .invalidName name => "`" ++ name ++ "` is not a valid identifier"
  | .invalidPacking bytes => "packing " ++ toString bytes ++ " is not one of 1, 2, 4, 8 or 16"
  | .emptyComposite => "composite types need at least one field"
  | .duplicateDefinition name module =>
    "`" ++ name ++ "` is already defined in module `" ++ module ++ "`"
  | .unsupported what => "cannot marshal " ++ what
  | .symbolNotFound symbol library exports =>
    "symbol `" ++ symbol ++ "` not found in " ++ library ++ " (module exports: [" ++
      String.intercalate ", " exports ++ "])"
  | .overflow operation => operation.message
  | .type fault => fault.message
  | .marshal fault => fault.message

/-- A Latin letter or an underscore. -/
def isNameStart (c : Char) : Bool := c.isAlpha || c = '_'

/-- A Latin letter, a digit or an underscore. -/
def isNameRest (c : Char) : Bool := c.isAlphanum || c = '_'

/-- Whether a text can name things in native code. -/
def isIdentifier (name : String) : Bool :=
  match name.toList with
  | [] => false
  | first :: rest => isNameStart first && rest.all isNameRest

/-- Refuse a name that is no identifier. -/
def checkIdentifier (name : String) : Except GenerateFault Unit :=
  if isIdentifier name then .ok () else .error (.invalidName name)

/-- The check fails for what is no identifier, and the fault names it. -/
theorem checkIdentifier_eq_error_iff {name : String} {fault : GenerateFault} :
    checkIdentifier name = .error fault ↔ ¬ isIdentifier name ∧ fault = .invalidName name := by
  unfold checkIdentifier
  split
  · rename_i identifier
    exact ⟨nofun, fun refused => absurd identifier refused.1⟩
  · rename_i other
    rw [Except.error.injEq, eq_comm]
    exact (and_iff_right other).symm

end TypeBridge
