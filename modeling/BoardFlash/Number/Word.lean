/-!
# Arithmetic within machine words

Counts are kept in words of 32 or 64 bits. A result that does not fit in its
word is refused and never cut down to it.
-/

namespace BoardFlash

namespace Word

/-- The first number that does not fit in 64 bits. -/
def bound : Nat := 18446744073709551616

/-- The sum, if it fits in 64 bits. -/
def sum? (a b : Nat) : Option Nat := if a + b < bound then some (a + b) else none

/-- The next count, if it fits in 32 bits. -/
def next? (n : UInt32) : Option UInt32 := if n = 4294967295 then none else some (n + 1)

theorem next?_eq_none_iff {n : UInt32} : next? n = none ↔ n.toNat = 4294967295 := by
  unfold next?
  split
  · next h => simp [h]
  · next h => simpa using fun hn => h (UInt32.toNat.inj hn)

theorem toNat_of_next? {n k : UInt32} (h : next? n = some k) : k.toNat = n.toNat + 1 := by
  unfold next? at h
  split at h
  · cases h
  · next hn =>
    obtain rfl := Option.some.inj h
    have hlt := n.toNat_lt
    have hne : n.toNat ≠ 4294967295 := fun h => hn (UInt32.toNat.inj h)
    rw [UInt32.toNat_add, UInt32.toNat_one, Nat.mod_eq_of_lt (by omega)]

end Word

end BoardFlash
