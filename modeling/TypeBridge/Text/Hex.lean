/-!
# Hexadecimal digits

Numbers and octets as hexadecimal digits, which are written in lower case and read in either.
-/

namespace TypeBridge.Text.Hex

/-- A number below sixteen as a digit. -/
def digit (n : Nat) : Char := ("0123456789abcdef".toList).getD n '0'

/-- The value of a digit of either case. -/
def value? (c : Char) : Option Nat :=
  if '0' ≤ c ∧ c ≤ '9' then some (c.toNat - 0x30)
  else if 'a' ≤ c ∧ c ≤ 'f' then some (c.toNat - 0x57)
  else if 'A' ≤ c ∧ c ≤ 'F' then some (c.toNat - 0x37)
  else none

/-- The last `width` digits of a number. -/
def digits (width n : Nat) : List Char :=
  (List.range width).map fun i => digit (n / Nat.pow 16 (width - 1 - i) % 16)

/-- The last `width` digits of a number as a text. -/
def ofNat (width n : Nat) : String := String.ofList (digits width n)

/-- Octets as two digits each. -/
def ofOctets (octets : List UInt8) : String :=
  String.ofList (octets.flatMap fun octet => digits 2 octet.toNat)

/-- The values of some digits; another character counts as zero. -/
def values (text : String) : List Nat := text.toList.map fun c => (value? c).getD 0

/-- The number that some digits write. -/
def toNat (text : String) : Nat := (values text).foldl (fun n value => n * 16 + value) 0

/-- Values in pairs as octets; a value without a partner is left out. -/
def pairs : List Nat → List UInt8
  | high :: low :: rest => UInt8.ofNat (high * 16 + low) :: pairs rest
  | _ => []

/-- The octets that pairs of digits write. -/
def toOctets (text : String) : List UInt8 := pairs (values text)

end TypeBridge.Text.Hex
