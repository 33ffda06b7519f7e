import BoardFlash.Proofs.Wire.Register
import Mathlib.Algebra.CharP.Two
import Mathlib.Algebra.Field.ZMod
import Mathlib.Algebra.Polynomial.Coeff
import Mathlib.Algebra.Polynomial.Div
import Mathlib.Tactic.Ring

/-!
# The checksum as a remainder

Bits in a row are the coefficients of a polynomial over the field with two
elements, the first bit that of the highest power (`polynomial`). If `M` is the
polynomial of `n` bytes and `I` that of a full register, the polynomial of their
checksum is the remainder of `M * X ^ 8 + I * X ^ (8 * n)` by
`X ^ 8 + X ^ 5 + X ^ 4 + 1`, and no other byte has it (`crc8_eq_iff_remainder`).

The register holds the remainder that a long division has got so far. A shift
multiplies it by `X` and takes the divisor out if the leading bit was set
(`polynomial_shift`); a bit that is fed in at the top adds its share of the
dividend. So what is in the register behind the bits, and some multiple of the
divisor, make up the whole dividend (`exists_quotient`), and eight bits are too
few for the divisor to go into them.
-/

namespace BoardFlash

namespace Checksum

open Polynomial

/-! ## Bits as coefficients -/

/-- The polynomial with these coefficients, that of the highest power first. -/
noncomputable def polynomial : List Bool → (ZMod 2)[X]
  | [] => 0
  | bit :: l => (if bit then X ^ l.length else 0) + polynomial l

/-- The generator with its leading term. -/
noncomputable def divisor : (ZMod 2)[X] := X ^ 8 + X ^ 5 + X ^ 4 + 1

@[simp] theorem polynomial_nil : polynomial [] = 0 := rfl

theorem polynomial_cons (bit : Bool) (l : List Bool) :
    polynomial (bit :: l) = (if bit then X ^ l.length else 0) + polynomial l := rfl

theorem polynomial_append (l k : List Bool) :
    polynomial (l ++ k) = polynomial l * X ^ k.length + polynomial k := by
  induction l with
  | nil => simp
  | cons bit l ih =>
      rw [List.cons_append, polynomial_cons, polynomial_cons, ih, List.length_append]
      cases bit with
      | false => simp
      | true =>
          simp only [if_true]
          ring

theorem degree_polynomial_lt (l : List Bool) : (polynomial l).degree < l.length := by
  induction l with
  | nil => simp
  | cons bit l ih =>
      have hnext : ((l.length : ℕ) : WithBot ℕ) < ((bit :: l).length : ℕ) :=
        WithBot.coe_lt_coe.mpr (Nat.lt_succ_self _)
      rw [polynomial_cons]
      refine lt_of_le_of_lt (degree_add_le ..) (max_lt ?_ (ih.trans hnext))
      cases bit with
      | false => simp
      | true =>
          rw [if_pos rfl, degree_X_pow]
          exact hnext

/-- Exclusive or adds the polynomials. -/
theorem polynomial_zipWith_xor {l k : List Bool} (hlen : l.length = k.length) :
    polynomial (List.zipWith xor l k) = polynomial l + polynomial k := by
  induction l generalizing k with
  | nil =>
      obtain rfl := List.length_eq_zero_iff.mp hlen.symm
      simp
  | cons p l ih =>
      cases k with
      | nil => cases hlen
      | cons q k =>
          have hrest : l.length = k.length := Nat.succ.inj hlen
          have htwice : (X ^ k.length + X ^ k.length : (ZMod 2)[X]) = 0 :=
            CharTwo.add_self_eq_zero _
          rw [List.zipWith_cons_cons, polynomial_cons, polynomial_cons, polynomial_cons, ih hrest,
            List.length_zipWith, hrest, Nat.min_self]
          cases p <;> cases q <;> simp only [Bool.xor_false, Bool.false_xor, Bool.xor_self, if_true,
            Bool.false_eq_true, if_false, zero_add]
          · ring
          · ring
          · rw [add_add_add_comm, htwice, zero_add]

/-- The first bit that is set is the leading coefficient, so there is none in the zero
polynomial. -/
theorem eq_false_of_polynomial_eq_zero {l : List Bool} (h : polynomial l = 0) :
    ∀ bit ∈ l, bit = false := by
  induction l with
  | nil => simp
  | cons bit l ih =>
      cases bit with
      | false =>
          rw [polynomial_cons, if_neg Bool.false_ne_true, zero_add] at h
          simpa using ih h
      | true =>
          rw [polynomial_cons, if_pos rfl] at h
          exact absurd h (monic_X_pow_add (degree_polynomial_lt l)).ne_zero

/-! ## Bytes as polynomials -/

theorem length_bits (bytes : List UInt8) : (bits bytes).length = 8 * bytes.length := by
  simp [bits, List.length_flatMap, Nat.mul_comm]

theorem bitsOf_xor (a b : UInt8) : bitsOf (a ^^^ b) = List.zipWith xor (bitsOf a) (bitsOf b) := by
  simp only [bitsOf, List.zipWith_map, List.zipWith_self, UInt8.toNat_xor, Nat.testBit_xor]

theorem polynomial_bitsOf_xor (a b : UInt8) :
    polynomial (bitsOf (a ^^^ b)) = polynomial (bitsOf a) + polynomial (bitsOf b) := by
  have hlen : (bitsOf a).length = (bitsOf b).length := rfl
  rw [bitsOf_xor, polynomial_zipWith_xor hlen]

@[simp] theorem polynomial_bitsOf_zero : polynomial (bitsOf 0) = 0 := by
  have hbits : bitsOf 0 = [false, false, false, false, false, false, false, false] := rfl
  simp [hbits, polynomial_cons]

theorem polynomial_bitsOf_top : polynomial (bitsOf 0x80) = X ^ 7 := by
  have hbits : bitsOf 0x80 = [true, false, false, false, false, false, false, false] := rfl
  simp [hbits, polynomial_cons]

theorem degree_polynomial_bitsOf_lt (b : UInt8) : (polynomial (bitsOf b)).degree < (8 : ℕ) :=
  degree_polynomial_lt (bitsOf b)

theorem polynomial_bitsOf_injective {a b : UInt8}
    (h : polynomial (bitsOf a) = polynomial (bitsOf b)) : a = b := by
  have hzero : polynomial (bits [a ^^^ b]) = 0 := by
    rw [bits_cons, bits, List.flatMap_nil, List.append_nil, polynomial_bitsOf_xor, h]
    exact CharTwo.add_self_eq_zero _
  by_contra hne
  have hxor : a ^^^ b ≠ 0 := fun hxor => hne (UInt8.xor_eq_zero_iff.mp hxor)
  have hset : true ∈ bits [a ^^^ b] := true_mem_bits ⟨_, List.mem_singleton_self _, hxor⟩
  exact Bool.false_ne_true (eq_false_of_polynomial_eq_zero hzero true hset).symm

/-! ## The divisor -/

theorem divisor_eq : divisor = X ^ 8 + polynomial (bitsOf generator) := by
  have hbits : bitsOf generator = [false, false, true, true, false, false, false, true] := rfl
  rw [hbits, divisor]
  simp [polynomial_cons, add_assoc]

theorem monic_divisor : divisor.Monic := by
  rw [divisor_eq]
  exact monic_X_pow_add (degree_polynomial_bitsOf_lt generator)

theorem degree_divisor : divisor.degree = (8 : ℕ) := by
  have hsmall : (polynomial (bitsOf generator)).degree < (X ^ 8 : (ZMod 2)[X]).degree := by
    rw [degree_X_pow]
    exact degree_polynomial_bitsOf_lt generator
  rw [divisor_eq, degree_add_eq_left_of_degree_lt hsmall, degree_X_pow]

/-! ## Long division in the register -/

/-- A shift multiplies by `X` and takes the divisor out if the leading bit was set. -/
theorem polynomial_shift (r : UInt8) :
    polynomial (bitsOf (shift r)) + divisor * (if r.toBitVec.msb then 1 else 0)
      = polynomial (bitsOf r) * X := by
  have hmoved : (if r.toBitVec.msb then X ^ 8 else 0) + polynomial (bitsOf (r <<< 1))
      = polynomial (bitsOf r) * X := by
    have hbits := congrArg polynomial (bitsOf_shiftLeft_one r)
    rw [polynomial_append, polynomial_cons, length_bitsOf] at hbits
    simpa [polynomial_cons] using hbits
  rw [← hmoved, shift_eq, polynomial_bitsOf_xor]
  cases r.toBitVec.msb with
  | false => simp
  | true =>
      -- the generator is in the register and in the divisor, so it cancels out
      have htwice := CharTwo.add_self_eq_zero (polynomial (bitsOf generator))
      simp only [if_true, mul_one, divisor_eq]
      calc polynomial (bitsOf (r <<< 1)) + polynomial (bitsOf generator)
            + (X ^ 8 + polynomial (bitsOf generator))
          = X ^ 8 + polynomial (bitsOf (r <<< 1))
            + (polynomial (bitsOf generator) + polynomial (bitsOf generator)) := by ring
        _ = X ^ 8 + polynomial (bitsOf (r <<< 1)) := by rw [htwice, add_zero]

theorem polynomial_feed (r : UInt8) (bit : Bool) :
    ∃ q, polynomial (bitsOf (feed r bit)) + divisor * q
      = polynomial (bitsOf r) * X + if bit then X ^ 8 else 0 := by
  refine ⟨_, (polynomial_shift _).trans ?_⟩
  rw [polynomial_bitsOf_xor, add_mul]
  cases bit with
  | false => simp
  | true =>
      simp only [if_true, polynomial_bitsOf_top]
      ring

/-- What these bits leave in the register and a multiple of the divisor make up the
dividend. -/
theorem exists_quotient (l : List Bool) (r : UInt8) :
    ∃ q, polynomial (bitsOf (l.foldl feed r)) + divisor * q
      = polynomial (bitsOf r) * X ^ l.length + polynomial l * X ^ 8 := by
  induction l generalizing r with
  | nil => exact ⟨0, by simp⟩
  | cons bit l ih =>
      obtain ⟨q, hq⟩ := ih (feed r bit)
      obtain ⟨c, hc⟩ := polynomial_feed r bit
      -- what the first bit takes out is moved up by all the bits behind it
      refine ⟨q + c * X ^ l.length, ?_⟩
      rw [List.foldl_cons, List.length_cons, polynomial_cons]
      calc polynomial (bitsOf (l.foldl feed (feed r bit))) + divisor * (q + c * X ^ l.length)
          = polynomial (bitsOf (l.foldl feed (feed r bit))) + divisor * q
            + divisor * c * X ^ l.length := by ring
        _ = (polynomial (bitsOf (feed r bit)) + divisor * c) * X ^ l.length
            + polynomial l * X ^ 8 := by rw [hq]; ring
        _ = polynomial (bitsOf r) * X ^ (l.length + 1)
            + ((if bit then X ^ l.length else 0) + polynomial l) * X ^ 8 := by
              rw [hc]
              cases bit <;> simp only [if_true, Bool.false_eq_true, if_false] <;> ring

theorem polynomial_crc8 (bytes : List UInt8) :
    polynomial (bitsOf (crc8 bytes))
      = (polynomial (bits bytes) * X ^ 8 + polynomial (bitsOf 0xFF) * X ^ (8 * bytes.length))
        %ₘ divisor := by
  obtain ⟨q, hq⟩ := exists_quotient (bits bytes) 0xFF
  have hsmall : (polynomial (bitsOf ((bits bytes).foldl feed 0xFF))).degree < divisor.degree := by
    rw [degree_divisor]
    exact degree_polynomial_bitsOf_lt _
  rw [crc8, foldl_absorb_eq_feed, ← length_bits, add_comm]
  exact (div_modByMonic_unique q _ monic_divisor ⟨hq, hsmall⟩).2.symm

-- The digits from one to nine, by which checksums of this kind are told apart.
example : crc8 [0x31, 0x32, 0x33, 0x34, 0x35, 0x36, 0x37, 0x38, 0x39] = 0xF7 := by decide +kernel

/-! ## The checksum -/

theorem crc8_zipWith_xor {a b c : List UInt8} (hab : a.length = b.length)
    (hbc : b.length = c.length) :
    crc8 (List.zipWith (· ^^^ ·) (List.zipWith (· ^^^ ·) a b) c)
      = crc8 a ^^^ crc8 b ^^^ crc8 c := by
  have hlen : c.length = (List.zipWith (· ^^^ ·) a b).length := by
    rw [List.length_zipWith, hab, Nat.min_self, hbc]
  -- a register that was full three times over is full
  have hstart : (0xFF : UInt8) = 0xFF ^^^ 0xFF ^^^ 0xFF := rfl
  rw [crc8, hstart, foldl_absorb_xor hlen, foldl_absorb_xor hab.symm]
  rfl

/-- The checksum is the one byte whose polynomial is the remainder. Of three messages of one
length that are combined by exclusive or it is what their checksums combine to. -/
theorem crc8_eq_iff_remainder :
    (∀ (bytes : List UInt8) (r : UInt8), crc8 bytes = r ↔
      polynomial (bitsOf r)
        = (polynomial (bits bytes) * X ^ 8 + polynomial (bitsOf 0xFF) * X ^ (8 * bytes.length))
          %ₘ divisor)
    ∧ ∀ a b c : List UInt8, a.length = b.length → b.length = c.length →
      crc8 (List.zipWith (· ^^^ ·) (List.zipWith (· ^^^ ·) a b) c)
        = crc8 a ^^^ crc8 b ^^^ crc8 c := by
  refine ⟨fun bytes r => ?_, fun a b c => crc8_zipWith_xor⟩
  rw [← polynomial_crc8]
  constructor
  · rintro rfl
    rfl
  · intro h
    exact (polynomial_bitsOf_injective h).symm

/-- The headers of an acknowledgement, a refusal and a request. -/
theorem three_headers_combined :
    let a : List UInt8 := [0x03, 0x00, 0x01, 0x00, 0x00]
    let b : List UInt8 := [0x07, 0x00, 0x00, 0x00, 0x00]
    let c : List UInt8 := [0x00, 0xFE, 0x06, 0x00, 0x28]
    a.length = b.length ∧ b.length = c.length
      ∧ crc8 [0x04, 0xFE, 0x07, 0x00, 0x28] = crc8 a ^^^ crc8 b ^^^ crc8 c := by
  intro a b c
  have hab : a.length = b.length := rfl
  have hbc : b.length = c.length := rfl
  exact ⟨hab, hbc, crc8_eq_iff_remainder.2 a b c hab hbc⟩

end Checksum

end BoardFlash
