import TypeBridge.Record.Catalogue

/-!
# Resolved trees

A `RecordTree` is all that makes a structure what it is: the names, types and counts of its fields in
order, with scalars by their native names and structures by their own trees, and its packing.
`RecordTree.key` writes a tree as one text in the way in which the catalogue writes its keys, and
`RecordTree.Readable` is what the catalogue makes sure of before it does.
-/

namespace TypeBridge

mutual

/-- A composite with its scalars named in the native system. -/
inductive RecordTree where
  | mk (fields : List FieldTree) (packing : Packing)

/-- A field of a resolved composite. -/
inductive FieldTree where
  | mk (name : String) (member : MemberTree) (count : Nat)

/-- What a field of a resolved composite holds. -/
inductive MemberTree where
  | scalar (native : String)
  | record (tree : RecordTree)
  | pointer (tree : RecordTree)

end

instance : Inhabited RecordTree := ⟨.mk [] .natural⟩

namespace RecordTree

mutual

/-- A tree as one text: its fields one after the other, then its packing. -/
def key : RecordTree → String
  | .mk fields packing => fieldsKey fields ++ packing.tag

/-- Fields as one text. -/
def fieldsKey : List FieldTree → String
  | [] => ""
  | .mk name member count :: rest => Catalogue.fieldKey name (memberKey member) count ++ fieldsKey rest

/-- What a field holds as a text; the texts of structures stand in braces as they are. -/
def memberKey : MemberTree → String
  | .scalar native => native
  | .record tree => "\x7b" ++ key tree ++ "\x7d"
  | .pointer tree => "*\x7b" ++ key tree ++ "\x7d"

end

mutual

/-- What is checked before a tree is written: each structure in it has a field, fields are named by
identifiers, and no native name holds the character that ends the parts of a key. -/
def Readable : RecordTree → Prop
  | .mk fields _ => fields ≠ [] ∧ FieldsReadable fields

/-- Fields of which each can be written. -/
def FieldsReadable : List FieldTree → Prop
  | [] => True
  | .mk name member _ :: rest => isIdentifier name ∧ MemberReadable member ∧ FieldsReadable rest

/-- What a field holds can be written. -/
def MemberReadable : MemberTree → Prop
  | .scalar native => Char.ofNat 0 ∉ native.toList
  | .record tree => Readable tree
  | .pointer tree => Readable tree

end

end RecordTree

end TypeBridge
