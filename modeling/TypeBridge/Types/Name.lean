import TypeBridge.Text.Blank

/-!
# Type names

The same scalar goes by different names in the three type systems. A `TypeName` is a name in one of
them; `TypeName.native`, `arrayLib` and `ffi` bring a spelling into normal form. A native name ends
with one space and its stars if it names a pointer, and `pointee` takes the stars away one by one.
-/

namespace TypeBridge

/-- The three type systems. -/
inductive TypeSystem where
  | native
  | arrayLib
  | ffi
deriving Repr, DecidableEq

/-- A text that names no type system; it is kept in lower case. -/
structure UnknownSystem where
  text : String
deriving Repr, DecidableEq

/-- The wording of a fault. -/
def UnknownSystem.message (fault : UnknownSystem) : String :=
  "unknown type system `" ++ fault.text ++ "`"

namespace TypeSystem

/-- All systems, in their fixed order. -/
def all : List TypeSystem := [.native, .arrayLib, .ffi]

/-- The name of a system. -/
def render : TypeSystem → String
  | .native => "native"
  | .arrayLib => "arraylib"
  | .ffi => "ffi"

/-- The Latin capitals in lower case; other characters stay. -/
def lowerLatin (text : String) : String := String.ofList (text.toList.map Char.toLower)

/-- Read a system in any case; two of them have other names too. -/
def parse (text : String) : Except UnknownSystem TypeSystem :=
  match lowerLatin text with
  | "native" => .ok .native
  | "arraylib" => .ok .arrayLib
  | "array" => .ok .arrayLib
  | "numpy" => .ok .arrayLib
  | "ffi" => .ok .ffi
  | "ctypes" => .ok .ffi
  | other => .error ⟨other⟩

end TypeSystem

/-- A type's name in one system. Names of different systems are never equal. -/
structure TypeName where
  system : TypeSystem
  text : String
  isPointer : Bool
deriving Repr, DecidableEq

namespace TypeName

/-- The name of untyped pointers in the foreign-function system. -/
def ffiPointerText : String := "c_void_p"

/-- The characters that may follow the base of a native name. -/
def isStarOrBlank (c : Char) : Bool := c = '*' || Text.isBlank c

/-- A native name in normal form: single spaces, and the stars at the end as one run. -/
def native (spelling : String) : TypeName :=
  let collapsed := Text.collapse spelling.toList
  let base := Text.dropTail isStarOrBlank collapsed
  let depth := (Text.takeTail isStarOrBlank collapsed).count '*'
  { system := .native
    text := String.ofList (if depth = 0 then base else base ++ ' ' :: List.replicate depth '*')
    isPointer := depth != 0 }

/-- An array-library name in normal form: no blanks around it. -/
def arrayLib (spelling : String) : TypeName := ⟨.arrayLib, Text.trimmed spelling, false⟩

/-- A foreign-function name in normal form: no blanks around it; one name is a pointer. -/
def ffi (spelling : String) : TypeName :=
  let text := Text.trimmed spelling
  ⟨.ffi, text, text = ffiPointerText⟩

/-- The untyped pointer of the foreign-function system. -/
def ffiPointer : TypeName := ffi ffiPointerText

/-- A spelling in the normal form of a system. -/
def normal : TypeSystem → String → TypeName
  | .native => native
  | .arrayLib => arrayLib
  | .ffi => ffi

/-- What a native pointer points to: the name without its last star. -/
def pointee (name : TypeName) : Option TypeName :=
  if !name.isPointer ∨ name.system ≠ .native then none
  else if name.text.toList.getLast? = some '*' then
    some (native (String.ofList name.text.toList.dropLast))
  else none

/-- The pointees of a name, its pointee's, and so on, at most `fuel` of them. -/
def pointeesFrom : Nat → TypeName → List TypeName
  | 0, _ => []
  | fuel + 1, name =>
    match name.pointee with
    | some pointee => pointee :: pointeesFrom fuel pointee
    | none => []

/-- All types reached by following a pointer; there are no more of them than characters. -/
def pointees (name : TypeName) : List TypeName := pointeesFrom name.text.length name

/-- A pointer to a type; other systems than the native one have a single pointer. -/
def pointerTo (name : TypeName) : TypeName :=
  match name.system with
  | .native => native (name.text ++ " *")
  | .arrayLib => ffiPointer
  | .ffi => ffiPointer

/-- A name with its system in front. -/
def render (name : TypeName) : String := name.system.render ++ ":" ++ name.text

/-- Names with their systems, divided by commas. -/
def renderList (names : List TypeName) : String :=
  String.intercalate ", " (names.map render)

end TypeName

end TypeBridge
