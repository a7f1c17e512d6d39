import TypeBridge.Types.Name

/-!
# Composite types

A `Composite` is an ordered list of named fields with a packing. A field holds a scalar, another
composite, or a pointer to one. Composites are compared by their structure alone.
-/

namespace TypeBridge

/-- How the members of a composite are aligned. -/
inductive Packing where
  /-- As the native compiler does by itself. -/
  | natural
  /-- At most at multiples of some number of bytes. -/
  | packed (bytes : Nat)
deriving Repr, DecidableEq

namespace Packing

/-- The packings that the native compiler honours. -/
def honoured : List Nat := [1, 2, 4, 8, 16]

/-- Whether the native compiler honours a packing. -/
def isValid : Packing → Bool
  | .natural => true
  | .packed bytes => honoured.contains bytes

/-- The number for the pack pragma, if one is needed. -/
def pragma : Packing → Option Nat
  | .natural => none
  | .packed bytes => some bytes

/-- The packing as it ends a structural key. -/
def tag : Packing → String
  | .natural => "natural"
  | .packed bytes => "packed:" ++ toString bytes

end Packing

mutual

/-- What a field, a parameter or a result holds. -/
inductive MemberType where
  | scalar (name : TypeName)
  | composite (composite : Composite)
  /-- A pointer to a composite, which is defined before its user all the same. -/
  | pointer (composite : Composite)

/-- A named field; more than one element makes it an array. -/
inductive Field where
  | mk (name : String) (type : MemberType) (count : Nat)

/-- A composite type. -/
inductive Composite where
  | mk (fields : List Field) (packing : Packing)

end

namespace Field

/-- The name of a field. -/
def name : Field → String
  | .mk name _ _ => name

/-- What the elements of a field are. -/
def type : Field → MemberType
  | .mk _ type _ => type

/-- The number of elements. -/
def count : Field → Nat
  | .mk _ _ count => count

/-- A field of a single element. -/
def single (name : String) (type : MemberType) : Field := .mk name type 1

/-- A field of `count` elements; there is always one. -/
def array (name : String) (type : MemberType) (count : Nat) : Field := .mk name type (max count 1)

end Field

mutual

/-- Member types are compared by their structure. -/
def MemberType.decEq : (a b : MemberType) → Decidable (a = b)
  | .scalar m, .scalar n =>
    if h : m = n then isTrue (by rw [h]) else isFalse (by intro e; injection e; contradiction)
  | .composite c, .composite d =>
    match Composite.decEq c d with
    | isTrue h => isTrue (by rw [h])
    | isFalse h => isFalse (by intro e; injection e; contradiction)
  | .pointer c, .pointer d =>
    match Composite.decEq c d with
    | isTrue h => isTrue (by rw [h])
    | isFalse h => isFalse (by intro e; injection e; contradiction)
  | .scalar _, .composite _ => isFalse nofun
  | .scalar _, .pointer _ => isFalse nofun
  | .composite _, .scalar _ => isFalse nofun
  | .composite _, .pointer _ => isFalse nofun
  | .pointer _, .scalar _ => isFalse nofun
  | .pointer _, .composite _ => isFalse nofun

/-- Fields are compared by name, type and count. -/
def Field.decEq : (a b : Field) → Decidable (a = b)
  | .mk m s i, .mk n t j =>
    match MemberType.decEq s t with
    | isTrue h =>
      if g : m = n ∧ i = j then isTrue (by rw [h, g.1, g.2])
      else isFalse (by intro e; injection e with e₁ e₂ e₃; exact g ⟨e₁, e₃⟩)
    | isFalse h => isFalse (by intro e; injection e; contradiction)

/-- Composites are compared by fields and packing. -/
def Composite.decEq : (a b : Composite) → Decidable (a = b)
  | .mk fs p, .mk gs q =>
    match Composite.decEqFields fs gs with
    | isTrue h =>
      if g : p = q then isTrue (by rw [h, g])
      else isFalse (by intro e; injection e; contradiction)
    | isFalse h => isFalse (by intro e; injection e; contradiction)

/-- Lists of fields are compared one by one. -/
def Composite.decEqFields : (a b : List Field) → Decidable (a = b)
  | [], [] => isTrue rfl
  | [], _ :: _ => isFalse nofun
  | _ :: _, [] => isFalse nofun
  | f :: fs, g :: gs =>
    match Field.decEq f g with
    | isTrue h =>
      match Composite.decEqFields fs gs with
      | isTrue h' => isTrue (by rw [h, h'])
      | isFalse h' => isFalse (by intro e; injection e; contradiction)
    | isFalse h => isFalse (by intro e; injection e; contradiction)

end

instance : DecidableEq MemberType := MemberType.decEq

instance : DecidableEq Field := Field.decEq

instance : DecidableEq Composite := Composite.decEq

namespace Composite

/-- The fields of a composite in order. -/
def fields : Composite → List Field
  | .mk fields _ => fields

/-- The packing of a composite. -/
def packing : Composite → Packing
  | .mk _ packing => packing

/-- The composite without fields. -/
def empty : Composite := .mk [] .natural

/-- One more field. -/
def add (composite : Composite) (field : Field) : Composite :=
  .mk (composite.fields ++ [field]) composite.packing

/-- Another packing. -/
def withPacking (composite : Composite) (packing : Packing) : Composite :=
  .mk composite.fields packing

end Composite

mutual

/-- Whether a member can be part of a composite passed by value; what pointers lead to does not
matter. -/
def MemberType.passesByValue : MemberType → Bool
  | .scalar _ => true
  | .composite child => child.passesByValue
  | .pointer _ => true

/-- Whether a field can be part of a composite passed by value. -/
def Field.passesByValue : Field → Bool
  | .mk _ type _ => type.passesByValue

/-- Whether a composite can be passed by value: neither it nor one that it holds is packed. -/
def Composite.passesByValue : Composite → Bool
  | .mk fields packing => packing = .natural && Composite.fieldsPassByValue fields

/-- Whether all of some fields can be part of a composite passed by value. -/
def Composite.fieldsPassByValue : List Field → Bool
  | [] => true
  | field :: rest => field.passesByValue && Composite.fieldsPassByValue rest

end

end TypeBridge
