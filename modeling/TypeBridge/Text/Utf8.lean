/-!
# UTF-8

`scan` reads octets as characters. A sequence that is broken off counts as one broken item, and the
octet that broke it is read again as the start of the next one, so each broken item stands for the
longest part that could still have become a character.
-/

namespace TypeBridge.Text.Utf8

/-- Where the reader stands between two octets. -/
inductive Position where
  /-- Between two characters. -/
  | idle
  /-- Inside a character that lacks `more + 1` octets; the next one is at least `low` and at most
  `high`, and `value` holds the bits read so far. -/
  | owing (more : Nat) (low high : UInt8) (value : Nat)
deriving Repr, DecidableEq

/-- Read the first octet of a character: the item that it completes, if any, and the position
after it. -/
def lead (octet : UInt8) : Option (Option Char) × Position :=
  let n := octet.toNat
  if n < 0x80 then (some (some (Char.ofNat n)), .idle)
  else if 0xC2 ≤ n ∧ n ≤ 0xDF then (none, .owing 0 0x80 0xBF (n % 0x20))
  else if n = 0xE0 then (none, .owing 1 0xA0 0xBF 0)
  else if n = 0xED then (none, .owing 1 0x80 0x9F 0xD)
  else if 0xE1 ≤ n ∧ n ≤ 0xEF then (none, .owing 1 0x80 0xBF (n % 0x10))
  else if n = 0xF0 then (none, .owing 2 0x90 0xBF 0)
  else if 0xF1 ≤ n ∧ n ≤ 0xF3 then (none, .owing 2 0x80 0xBF (n % 8))
  else if n = 0xF4 then (none, .owing 2 0x80 0x8F 4)
  else (some none, .idle)

/-- Read octets from a position; a broken sequence is `none`. -/
def scan : Position → List UInt8 → List (Option Char)
  | .idle, [] => []
  | .owing .., [] => [none]
  | .idle, octet :: rest =>
    let (item, position) := lead octet
    item.toList ++ scan position rest
  | .owing more low high value, octet :: rest =>
    if low ≤ octet ∧ octet ≤ high then
      let value := value * 0x40 + octet.toNat % 0x40
      match more with
      | 0 => some (Char.ofNat value) :: scan .idle rest
      | more + 1 => scan (.owing more 0x80 0xBF value) rest
    else
      let (item, position) := lead octet
      none :: (item.toList ++ scan position rest)

/-- The text of some octets, if every sequence is whole. -/
def decode? (octets : List UInt8) : Option String :=
  ((scan .idle octets).mapM id).map String.ofList

/-- The text of some octets, with U+FFFD for every broken sequence. -/
def decodeLossy (octets : List UInt8) : String :=
  String.ofList ((scan .idle octets).map (·.getD '\ufffd'))

/-- The octets of a text. -/
def encode (text : String) : List UInt8 := text.toList.flatMap String.utf8EncodeChar

end TypeBridge.Text.Utf8
