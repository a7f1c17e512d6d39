/-!
# Facts about scalars

`TypeInfo` holds what is known of a type: its sign, its numeric kind and, if it has one, its size in
bytes. A `Family` is such a fact with a size; types of one family stand for each other across
systems.
-/

namespace TypeBridge

/-- The sign of a type. -/
inductive Signage where
  | signed
  | unsigned
  /-- The question does not arise. -/
  | none
deriving Repr, DecidableEq

/-- The numeric kind of a type. -/
inductive NumericKind where
  | integer
  | float
  | other
deriving Repr, DecidableEq

namespace Signage

/-- The one spelling of a sign. -/
def render : Signage → String
  | .signed => "signed"
  | .unsigned => "unsigned"
  | .none => "none"

/-- Read a sign in its one spelling. -/
def parse? : String → Option Signage
  | "signed" => some .signed
  | "unsigned" => some .unsigned
  | "none" => some .none
  | _ => Option.none

/-- A sign as a heading. -/
def title : Signage → String
  | .signed => "Signed"
  | .unsigned => "Unsigned"
  | .none => "None"

end Signage

namespace NumericKind

/-- The one spelling of a kind. -/
def render : NumericKind → String
  | .integer => "integer"
  | .float => "float"
  | .other => "other"

/-- Read a kind in its one spelling. -/
def parse? : String → Option NumericKind
  | "integer" => some .integer
  | "float" => some .float
  | "other" => some .other
  | _ => none

/-- A kind as a heading. -/
def title : NumericKind → String
  | .integer => "Integer"
  | .float => "Float"
  | .other => "Other"

end NumericKind

/-- The types that stand for each other across systems. -/
structure Family where
  signage : Signage
  kind : NumericKind
  size : Nat
deriving Repr, DecidableEq

/-- A family in words. -/
def Family.render (family : Family) : String :=
  let sign := match family.signage with
    | .signed => "signed "
    | .unsigned => "unsigned "
    | .none => ""
  sign ++ family.kind.render ++ " (" ++ toString family.size ++ " bytes)"

/-- What is known of a type. -/
structure TypeInfo where
  signage : Signage
  kind : NumericKind
  size : Option Nat
deriving Repr, DecidableEq

namespace TypeInfo

/-- The size of an address in bytes. -/
def wordSize : Nat := 8

/-- What is known of signed integers of a size. -/
def signed (size : Nat) : TypeInfo := ⟨.signed, .integer, some size⟩

/-- What is known of unsigned integers of a size. -/
def unsigned (size : Nat) : TypeInfo := ⟨.unsigned, .integer, some size⟩

/-- What is known of floats of a size; they count as signed. -/
def float (size : Nat) : TypeInfo := ⟨.signed, .float, some size⟩

/-- What is known of every pointer. -/
def pointer : TypeInfo := ⟨.none, .other, some wordSize⟩

/-- The family of a type whose size is known. -/
def family? (info : TypeInfo) : Option Family :=
  info.size.map fun size => ⟨info.signage, info.kind, size⟩

/-- The facts in words. -/
def render (info : TypeInfo) : String :=
  match info.family? with
  | some family => family.render
  | none => info.signage.title ++ " " ++ info.kind.title ++ " (unsized)"

/-- The order mark of a type string: types of one byte and untyped ones have no byte order. -/
def orderMark (kind : NumericKind) (size : Nat) : String :=
  if size = 1 ∨ kind = .other then "|" else "<"

/-- The letter of a type string. -/
def kindLetter (kind : NumericKind) (signage : Signage) : String :=
  match kind, signage with
  | .float, _ => "f"
  | .integer, .unsigned => "u"
  | .integer, _ => "i"
  | .other, _ => "V"

/-- The array-interface type string of a type whose size is known. -/
def typeString? (info : TypeInfo) : Option String :=
  info.size.map fun size =>
    orderMark info.kind size ++ kindLetter info.kind info.signage ++ toString size

end TypeInfo

end TypeBridge
