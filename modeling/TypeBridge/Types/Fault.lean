import TypeBridge.Build.Sources
import TypeBridge.Types.Info
import TypeBridge.Types.Name

/-!
# Faults about types

`TypeFault` lists why a request about types fails, and `TypeFault.message` words each cause.
-/

namespace TypeBridge

/-- Why a request about types fails. -/
inductive TypeFault where
  /-- A type is registered with other facts already. -/
  | duplicate (name : TypeName) (existing attempted : TypeInfo)
  /-- Several types of a system are preferred for one family. -/
  | ambiguous (target : TypeSystem) (family : Family) (candidates : List TypeName)
  /-- Some types have no counterpart in a system. -/
  | unresolved (target : TypeSystem) (names : List TypeName)
  | unregistered (name : TypeName)
  | unsized (name : TypeName)
  /-- The compiler refused the probe program. -/
  | probeCompilation (diagnostics program : String)
  /-- The probe program did not run, or what it printed is of no use. -/
  | probeExecution (reason program : String)
  | build (fault : BuildFault)
deriving Repr, DecidableEq

/-- The wording of a fault. -/
def TypeFault.message : TypeFault → String
  | .duplicate name existing attempted =>
    name.render ++ " is already registered as " ++ existing.render ++ ", refusing " ++
      attempted.render
  | .ambiguous target family candidates =>
    "several " ++ target.render ++ " types claim the " ++ family.render ++ " family: " ++
      TypeName.renderList candidates
  | .unresolved target names =>
    "no " ++ target.render ++ " counterpart for: " ++ TypeName.renderList names
  | .unregistered name => name.render ++ " is not registered"
  | .unsized name => name.render ++ " has no known size"
  | .probeCompilation diagnostics program =>
    "probe program failed to compile:\n" ++ diagnostics ++ "\n--- probe program ---\n" ++ program
  | .probeExecution reason program =>
    "probe program could not be run or its output was unusable: " ++ reason ++
      "\n--- probe program ---\n" ++ program
  | .build fault => fault.message

end TypeBridge
