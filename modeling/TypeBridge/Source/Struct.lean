/-!
# Struct definitions as text

`structText` writes the definition of a native struct, one member a line, inside pack pragmas if its
alignment is capped.
-/

namespace TypeBridge.Source

/-- A member as its line shows it. -/
structure MemberLine where
  name : String
  typeText : String
  count : Nat
deriving Repr, DecidableEq

/-- The line of a member; several elements are shown in brackets. -/
def MemberLine.render (line : MemberLine) : String :=
  "    " ++ line.typeText ++ " " ++ line.name ++
    (if line.count > 1 then "[" ++ toString line.count ++ "]" else "") ++ ";\n"

/-- The number of a pack pragma; zero stands for none. -/
def packNumber (packing : Option Nat) : Option Nat := packing.filter (· != 0)

/-- The definition of a struct. -/
def structText (name : String) (members : List MemberLine) (packing : Option Nat) : String :=
  let lines := String.join (members.map MemberLine.render)
  let body := "struct " ++ name ++ " \x7b\n" ++ lines ++ "\x7d;"
  match packNumber packing with
  | some bytes =>
    "#pragma pack(push, " ++ toString bytes ++ ")\n" ++ body ++ "\n#pragma pack(pop)"
  | none => body

end TypeBridge.Source
