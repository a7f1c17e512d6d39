import TypeBridge.Text.Blank

/-!
# Include lines

A header is included in the brackets or quotes it is given with; a bare name is put in quotes.
-/

namespace TypeBridge.Source

/-- A header as it follows `#include`. -/
def includeTarget (header : String) : String :=
  let name := Text.trim header.toList
  match name.head? with
  | some '<' => String.ofList name
  | some '"' => String.ofList name
  | _ => String.ofList ('"' :: (name ++ ['"']))

/-- The include lines of some headers. -/
def includeLines (targets : List String) : String :=
  String.join (targets.map fun target => "#include " ++ target ++ "\n")

end TypeBridge.Source
