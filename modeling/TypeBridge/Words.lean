/-!
# Words

Sizes and offsets are 64-bit words. Where the result of an operation is no word, a program stops or
goes on with what a word holds of the result; which of the two it does is settled when it is built.
-/

namespace TypeBridge

/-- A number as a 64-bit word holds it. -/
def wrapWord (n : Nat) : Nat := n % 0x10000000000000000

/-- An operation on words whose result may be no word. -/
inductive WordOperation where
  | add
  | multiply
deriving Repr, DecidableEq

/-- The wording with which a program stops. -/
def WordOperation.message : WordOperation → String
  | .add => "attempt to add with overflow"
  | .multiply => "attempt to multiply with overflow"

/-- What a program was built to do where a result is no word. -/
inductive Overflow where
  /-- It stops. -/
  | caught
  /-- It goes on with what a word holds. -/
  | wraps
deriving Repr, DecidableEq

/-- What comes of an operation whose exact result is `n`. -/
def Overflow.word (overflow : Overflow) (operation : WordOperation) (n : Nat) :
    Except WordOperation Nat :=
  match overflow with
  | .caught => if n < 0x10000000000000000 then .ok n else .error operation
  | .wraps => .ok (wrapWord n)

end TypeBridge
