/-!
# Ranges of characters

A property of characters is held as the ranges of code points that have it.
-/

namespace BoardFlash

namespace Text

/-- The character is in one of the ranges, each given by its first and its
last code point. -/
def covers (ranges : List (Nat × Nat)) (c : Char) : Bool :=
  ranges.any fun r => r.1 ≤ c.toNat && c.toNat ≤ r.2

end Text

end BoardFlash
