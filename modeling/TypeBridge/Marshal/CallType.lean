import TypeBridge.Marshal.Shape

/-!
# Call types

A `CallType` is all that the calling convention is told of a parameter or a result. It knows no
offsets and no arrays: a record is the list of its elements, and an array stands there once for each
of its elements. `size`, `align` and `offsets` are the layout that the convention then works out by
itself, which has to be that of the shape.
-/

namespace TypeBridge

/-- A type as the calling convention knows it. -/
inductive CallType where
  | void
  | scalar (kind : ScalarKind)
  | record (elements : List CallType)

mutual

/-- What the elements of a field are to the calling convention. -/
def FieldKind.callType : FieldKind → CallType
  | .scalar kind => .scalar kind
  | .struct shape => shape.callType

/-- A record as the list of its elements. -/
def StructShape.callType : StructShape → CallType
  | .mk _ fields _ _ => .record (StructShape.callElements fields)

/-- The elements of some fields in order; a field has at least one. -/
def StructShape.callElements : List FieldShape → List CallType
  | [] => []
  | .mk _ kind count _ :: rest =>
    List.replicate (max count 1) kind.callType ++ StructShape.callElements rest

end

/-- A parameter or a result to the calling convention. -/
def Shape.callType : Shape → CallType
  | .void => .void
  | .scalar kind => .scalar kind
  | .struct shape => shape.callType

namespace CallType

/-- The next multiple of an alignment. -/
def alignUp (cursor align : Nat) : Nat := (cursor + align - 1) / align * align

mutual

/-- Scalars are aligned to their size, a record to the strictest of its elements. -/
def align : CallType → Nat
  | .void => 1
  | .scalar kind => kind.size
  | .record elements => strictest elements

/-- The strictest alignment among some elements. -/
def strictest : List CallType → Nat
  | [] => 1
  | element :: rest => max element.align (strictest rest)

end

mutual

/-- A record ends at a multiple of its alignment. -/
def size : CallType → Nat
  | .void => 0
  | .scalar kind => kind.size
  | .record elements => alignUp (endFrom 0 elements) (strictest elements)

/-- Where some elements end that are placed from `cursor` on. -/
def endFrom (cursor : Nat) : List CallType → Nat
  | [] => cursor
  | element :: rest => endFrom (alignUp cursor element.align + element.size) rest

end

/-- Where some elements start that are placed from `cursor` on. -/
def offsetsFrom (cursor : Nat) : List CallType → List Nat
  | [] => []
  | element :: rest =>
    let start := alignUp cursor element.align
    start :: offsetsFrom (start + element.size) rest

/-- Where the elements of a record start. -/
def offsets : CallType → List Nat
  | .record elements => offsetsFrom 0 elements
  | _ => []

end CallType

/-- What the calling convention is told of a function: its parameters and its result. -/
def Signature.callTypes (signature : Signature) : List CallType × CallType :=
  (signature.params.map Shape.callType, signature.result.callType)

end TypeBridge
