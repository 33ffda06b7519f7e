/-!
# Decimal numbers in text

A number is one or more ASCII digits, with a plus sign in front if one likes.
It is read from the left, and the first thing wrong with it is what counts.
-/

namespace BoardFlash

namespace Decimal

/-- Why a text is no number. -/
inductive Fault where
  | empty
  | badDigit
  | tooLarge
  deriving DecidableEq, Repr

def Fault.message : Fault → String
  | .empty => "cannot parse integer from empty string"
  | .badDigit => "invalid digit found in string"
  | .tooLarge => "number too large to fit in target type"

def digit? (c : Char) : Option Nat := if c.isDigit then some (c.toNat - 48) else none

/-- The number that begins with `n` and goes on with these digits. -/
def readFrom (limit n : Nat) : List Char → Except Fault Nat
  | [] => .ok n
  | c :: rest =>
    match digit? c with
    | none => .error .badDigit
    | some d =>
      if limit < n * 10 + d then .error .tooLarge else readFrom limit (n * 10 + d) rest

/-- The number in the text, if it is no larger than `limit`. -/
def read (limit : Nat) : List Char → Except Fault Nat
  | [] => .error .empty
  | ['+'] => .error .badDigit
  | '+' :: rest => readFrom limit 0 rest
  | text => readFrom limit 0 text

/-- The largest number in `bits` bits. -/
def largest (bits : Nat) : Nat := 1 <<< bits - 1

end Decimal

end BoardFlash
