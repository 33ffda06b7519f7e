/-!
# Bytes in hexadecimal

Two lower-case digits a byte, as they stand in log records and messages.
-/

namespace BoardFlash

namespace Hex

def digit (n : Nat) : Char :=
  if n < 10 then Char.ofNat (48 + n) else Char.ofNat (87 + n)

/-- Two digits, the high one first. -/
def byte (b : UInt8) : String :=
  String.ofList [digit (b.toNat / 16), digit (b.toNat % 16)]

/-- The bytes one after the other, with nothing between them. -/
def run (bytes : List UInt8) : String :=
  String.join (bytes.map byte)

/-- The bytes as a list in square brackets. -/
def list (bytes : List UInt8) : String :=
  "[" ++ String.intercalate ", " (bytes.map byte) ++ "]"

end Hex

end BoardFlash
