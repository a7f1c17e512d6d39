/-!
# Marshalling faults

`MarshalFault` lists why a value does not cross the boundary to native code.
-/

namespace TypeBridge

/-- Why a value does not cross the boundary to native code. -/
inductive MarshalFault where
  /-- Nothing there corresponds to it. -/
  | unsupported (what : String)
  /-- A value is not what the other side expects. -/
  | mismatch (expected found : String)
  | symbolNotFound (symbol library : String)
  /-- A field does not lie inside its record. -/
  | overrun
deriving Repr, DecidableEq

/-- The wording of a fault. -/
def MarshalFault.message : MarshalFault → String
  | .unsupported what => "cannot marshal " ++ what ++ " through the FFI layer"
  | .mismatch expected found => "argument mismatch: expected " ++ expected ++ ", found " ++ found
  | .symbolNotFound symbol library => "symbol `" ++ symbol ++ "` not found in " ++ library
  | .overrun => "a field lies outside its record"

end TypeBridge
