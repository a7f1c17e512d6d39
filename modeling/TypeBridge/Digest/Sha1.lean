import TypeBridge.Text.Hex

/-!
# SHA-1

The secure hash of FIPS 180-4 with a digest of 160 bits, over lists of octets. It serves to name
record types after their structure.
-/

namespace TypeBridge.Digest

/-- The five working words of the hash. -/
structure Sha1State where
  a : UInt32
  b : UInt32
  c : UInt32
  d : UInt32
  e : UInt32
deriving Repr, DecidableEq

namespace Sha1State

/-- The words before the first block. -/
def initial : Sha1State := ⟨0x67452301, 0xEFCDAB89, 0x98BADCFE, 0x10325476, 0xC3D2E1F0⟩

/-- Rotate a word to the left. -/
def rotate (word : UInt32) (count : UInt32) : UInt32 :=
  (word <<< count) ||| (word >>> (32 - count))

/-- The round function and the constant of round `t`. -/
def roundFunction (t : Nat) (s : Sha1State) : UInt32 × UInt32 :=
  if t < 20 then ((s.b &&& s.c) ||| (s.b ^^^ 0xFFFFFFFF) &&& s.d, 0x5A827999)
  else if t < 40 then (s.b ^^^ s.c ^^^ s.d, 0x6ED9EBA1)
  else if t < 60 then ((s.b &&& s.c) ||| (s.b &&& s.d) ||| (s.c &&& s.d), 0x8F1BBCDC)
  else (s.b ^^^ s.c ^^^ s.d, 0xCA62C1D6)

/-- Round `t` with the message word `word`. -/
def round (s : Sha1State) (t : Nat) (word : UInt32) : Sha1State :=
  let (f, k) := roundFunction t s
  ⟨rotate s.a 5 + f + s.e + k + word, s.a, rotate s.b 30, s.c, s.d⟩

/-- The sum of two states, word by word. -/
def add (s t : Sha1State) : Sha1State := ⟨s.a + t.a, s.b + t.b, s.c + t.c, s.d + t.d, s.e + t.e⟩

/-- The words as one list. -/
def words (s : Sha1State) : List UInt32 := [s.a, s.b, s.c, s.d, s.e]

end Sha1State

namespace Sha1

/-- The octets of a number of 64 bits, the most significant first. -/
def octets64 (n : Nat) : List UInt8 :=
  (List.range 8).map fun i => UInt8.ofNat (n / Nat.pow 256 (7 - i))

/-- A message followed by the octet 0x80, zeros up to eight octets before a multiple of 64, and its
length in bits. -/
def padded (message : List UInt8) : List UInt8 :=
  let size := message.length
  message ++ 0x80 :: List.replicate ((119 - size % 64) % 64) 0 ++ octets64 (8 * size)

/-- A word from its four octets, the most significant first. -/
def wordOf (octets : List UInt8) : UInt32 :=
  octets.foldl (fun word octet => word * 256 + octet.toUInt32) 0

/-- Cut a list into pieces of `size` elements, at most `fuel` of them. -/
def pieces {α : Type} (size : Nat) : Nat → List α → List (List α)
  | 0, _ => []
  | _ + 1, [] => []
  | fuel + 1, items => items.take size :: pieces size fuel (items.drop size)

/-- The words of a block, extended by `count` further ones; `window` holds the last sixteen. -/
def schedule : Nat → List UInt32 → List UInt32
  | 0, window => window
  | count + 1, window =>
    let next := Sha1State.rotate
      (window.getD 13 0 ^^^ window.getD 8 0 ^^^ window.getD 2 0 ^^^ window.getD 0 0) 1
    match window with
    | [] => []
    | oldest :: rest => oldest :: schedule count (rest ++ [next])

/-- Take one block of 64 octets into the state. -/
def absorb (state : Sha1State) (block : List UInt8) : Sha1State :=
  let words := schedule 64 ((pieces 4 16 block).map wordOf)
  state.add (words.zipIdx.foldl (fun s (word, t) => s.round t word) state)

end Sha1

/-- The digest of a message in lower-case hexadecimal, forty digits. -/
def sha1Hex (message : List UInt8) : String :=
  let whole := Sha1.padded message
  let final := (Sha1.pieces 64 (whole.length / 64) whole).foldl Sha1.absorb Sha1State.initial
  String.ofList (final.words.flatMap fun word => Text.Hex.digits 8 word.toNat)

end TypeBridge.Digest
