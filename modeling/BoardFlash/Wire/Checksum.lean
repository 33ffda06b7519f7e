/-!
# The frame checksum

The last byte of a frame is an eight-bit cyclic redundancy check of all the
bytes before it: generator `x⁸ + x⁵ + x⁴ + 1`, every bit of the register set
at the start, bits taken from the most significant one of each byte, nothing
added at the end.

`Checksum.shift` moves the register on by one bit and `Checksum.crc8` runs
over whole bytes, reading the effect of eight shifts from
`Checksum.table`. The two agree by `absorb_eq_shifts`.
-/

namespace BoardFlash

namespace Checksum

/-- The generator without its leading term `x⁸`. -/
def generator : UInt8 := 0x31

/-- The register after one more bit: the bit that leaves at the top is
taken out of the rest by the generator. -/
def shift (r : UInt8) : UInt8 :=
  if r &&& 0x80 = 0 then r <<< 1 else (r <<< 1) ^^^ generator

def shifts : Nat → UInt8 → UInt8
  | 0, r => r
  | n + 1, r => shifts n (shift r)

/-- What eight shifts make of each register value. -/
def table : Vector UInt8 256 :=
  Vector.ofFn fun r => shifts 8 (UInt8.ofFin r)

/-- The register after one more byte. -/
def absorb (r b : UInt8) : UInt8 := table[(r ^^^ b).toFin]

/-- The checksum of `bytes`. -/
def crc8 (bytes : List UInt8) : UInt8 := bytes.foldl absorb 0xFF

theorem absorb_eq_shifts (r b : UInt8) : absorb r b = shifts 8 (r ^^^ b) := by
  simp only [absorb, table, Fin.getElem_fin, Vector.getElem_ofFn]
  rfl

theorem crc8_append (a b : List UInt8) : crc8 (a ++ b) = b.foldl absorb (crc8 a) :=
  List.foldl_append

end Checksum

end BoardFlash
