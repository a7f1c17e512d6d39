import TypeBridge.Record.Composite
import TypeBridge.Words

/-!
# Record layout

`computeLayout` places the members of a record one after the other, each at the next multiple of its
alignment, where the packing caps all alignments; the size is rounded up to the greatest of them.
The arithmetic is that of 64-bit words, and stops or wraps at overflow as the program was built.
`Exact.computeLayout` is the same rule on unbounded numbers.
-/

namespace TypeBridge

/-- No alignment is greater. -/
def maxAlign : Nat := 16

/-- A scalar is aligned to the greatest power of two that divides its size, within limits. -/
def scalarAlign (size : Nat) : Nat :=
  if size = 0 then 1
  else if size % 16 = 0 then 16
  else if size % 8 = 0 then 8
  else if size % 4 = 0 then 4
  else if size % 2 = 0 then 2
  else 1

/-- Size and alignment of the elements of a member, and their number. -/
structure MemberLayout where
  size : Nat
  align : Nat
  count : Nat
deriving Repr, DecidableEq

/-- Where the members of a record stand, and what it takes as a whole. -/
structure Layout where
  offsets : List Nat
  size : Nat
  align : Nat
deriving Repr, DecidableEq

/-- No alignment under a packing is greater. -/
def Packing.cap : Packing → Nat
  | .natural => maxAlign
  | .packed bytes => min (max bytes 1) maxAlign

/-- The alignment of a member under a cap. -/
def MemberLayout.cappedAlign (cap : Nat) (member : MemberLayout) : Nat :=
  min (max member.align 1) cap

/-- The next multiple of an alignment, on words. -/
def roundUp (overflow : Overflow) (value align : Nat) : Except WordOperation Nat :=
  overflow.word .multiply ((value / align + if value % align = 0 then 0 else 1) * align)

/-- Place members from an offset on, with the greatest alignment so far. -/
def placeFrom (overflow : Overflow) (cap offset align : Nat) :
    List MemberLayout → Except WordOperation Layout
  | [] => do
    let size ← roundUp overflow offset align
    return ⟨[], size, align⟩
  | member :: rest => do
    let memberAlign := member.cappedAlign cap
    let start ← roundUp overflow offset memberAlign
    let bytes ← overflow.word .multiply (member.size * member.count)
    let stop ← overflow.word .add (start + bytes)
    let layout ← placeFrom overflow cap stop (max align memberAlign) rest
    return { layout with offsets := start :: layout.offsets }

/-- The layout of a record, or the operation at which working it out stopped. -/
def computeLayout (overflow : Overflow) (members : List MemberLayout) (packing : Packing) :
    Except WordOperation Layout :=
  placeFrom overflow packing.cap 0 1 members

namespace Exact

/-- The next multiple of an alignment. -/
def roundUp (value align : Nat) : Nat := (value + align - 1) / align * align

/-- Place members from an offset on, with the greatest alignment so far. -/
def placeFrom (cap offset align : Nat) : List MemberLayout → Layout
  | [] => ⟨[], roundUp offset align, align⟩
  | member :: rest =>
    let memberAlign := member.cappedAlign cap
    let start := roundUp offset memberAlign
    let layout := placeFrom cap (start + member.size * member.count) (max align memberAlign) rest
    { layout with offsets := start :: layout.offsets }

/-- The layout of a record on unbounded numbers. -/
def computeLayout (members : List MemberLayout) (packing : Packing) : Layout :=
  placeFrom packing.cap 0 1 members

end Exact

end TypeBridge
