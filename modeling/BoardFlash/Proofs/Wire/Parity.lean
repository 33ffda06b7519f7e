import BoardFlash.Proofs.Wire.Burst
import Mathlib.Algebra.Ring.Parity

/-!
# Odd numbers of errors

A frame in which any odd number of bits are flipped on its way is never read as
a frame (`odd_errors_detected`), however many there are and wherever they are:
all bytes that are read as a frame have an even number of bits set
(`even_weight_of_decode`).

The generator has an even number of terms. The term `x⁸` is the bit that leaves
the register at the top, the other three go into it, so a shift leaves the
number of bits in the register odd or even as it was (`odd_shift`). What is fed
into the register therefore adds to the parity that is in it
(`odd_foldl_feed`), and the register is full at the start and empty behind a
frame, which is even both times.
-/

namespace BoardFlash

namespace Checksum

/-! ## Parity of bits -/

/-- An odd number of the bits are set. -/
def odd (l : List Bool) : Bool := l.foldr xor false

/-- The number of bits that are set in the bytes. -/
def weight (bytes : List UInt8) : Nat := (bits bytes).count true

theorem odd_cons (bit : Bool) (l : List Bool) : odd (bit :: l) = (bit ^^ odd l) := rfl

theorem odd_append (l k : List Bool) : odd (l ++ k) = (odd l ^^ odd k) := by
  induction l with
  | nil => exact (Bool.false_xor _).symm
  | cons bit l ih => rw [List.cons_append, odd_cons, odd_cons, ih, Bool.xor_assoc]

theorem odd_iff {l : List Bool} : odd l = true ↔ Odd (l.count true) := by
  induction l with
  | nil => simp [odd]
  | cons bit l ih =>
      cases bit with
      | false => rw [odd_cons, Bool.false_xor, ih, List.count_cons_of_ne Bool.false_ne_true]
      | true =>
          rw [odd_cons, Bool.true_xor, List.count_cons_self, Nat.odd_add_one, ← ih,
            Bool.not_eq_true', Bool.not_eq_true]

theorem odd_bits_iff {bytes : List UInt8} : odd (bits bytes) = true ↔ Odd (weight bytes) := odd_iff

/-! ## Parity of a byte -/

theorem odd_map_xor (f g : Nat → Bool) (l : List Nat) :
    odd (l.map fun i => f i ^^ g i) = (odd (l.map f) ^^ odd (l.map g)) := by
  induction l with
  | nil => rfl
  | cons i l ih =>
      rw [List.map_cons, List.map_cons, List.map_cons, odd_cons, odd_cons, odd_cons, ih,
        Bool.xor_assoc, Bool.xor_assoc, Bool.xor_left_comm (g i)]

theorem odd_bitsOf_xor (a b : UInt8) :
    odd (bitsOf (a ^^^ b)) = (odd (bitsOf a) ^^ odd (bitsOf b)) := by
  rw [bitsOf, bitsOf, bitsOf, ← odd_map_xor]
  simp only [UInt8.toNat_xor, Nat.testBit_xor]

/-- A shift takes the leading bit out and puts three others in. -/
theorem odd_shift (r : UInt8) : odd (bitsOf (shift r)) = odd (bitsOf r) := by
  have hmoved : (r.toBitVec.msb ^^ odd (bitsOf (r <<< 1))) = odd (bitsOf r) := by
    rw [← odd_cons, bitsOf_shiftLeft_one, odd_append]
    exact Bool.xor_false _
  have hterms : odd (bitsOf (if r.toBitVec.msb then generator else 0)) = r.toBitVec.msb := by
    cases r.toBitVec.msb <;> rfl
  rw [shift_eq, odd_bitsOf_xor, hterms, Bool.xor_comm, hmoved]

/-- Every bit that is fed into the register changes its parity if it is set. -/
theorem odd_foldl_feed (l : List Bool) (r : UInt8) :
    odd (bitsOf (l.foldl feed r)) = (odd (bitsOf r) ^^ odd l) := by
  induction l generalizing r with
  | nil => exact (Bool.xor_false _).symm
  | cons bit l ih =>
      have hbit : odd (bitsOf (if bit then 0x80 else 0)) = bit := by cases bit <;> rfl
      rw [List.foldl_cons, ih, feed, odd_shift, odd_bitsOf_xor, hbit, odd_cons, Bool.xor_assoc]

/-- The checksum has the parity of the bytes. -/
theorem odd_crc8 (bytes : List UInt8) : odd (bitsOf (crc8 bytes)) = odd (bits bytes) := by
  have hfull : odd (bitsOf 0xFF) = false := rfl
  rw [crc8, foldl_absorb_eq_feed, odd_foldl_feed, hfull, Bool.false_xor]

end Checksum

namespace Frame

open Checksum

theorem odd_bits_garbled {raw errors : List UInt8} (hlen : errors.length = raw.length) :
    odd (bits (garbled raw errors)) = (odd (bits raw) ^^ odd (bits errors)) := by
  induction raw generalizing errors with
  | nil =>
      obtain rfl := List.length_eq_zero_iff.mp hlen
      rfl
  | cons b raw ih =>
      cases errors with
      | nil => cases hlen
      | cons e errors =>
          have hrest : garbled (b :: raw) (e :: errors) = (b ^^^ e) :: garbled raw errors := rfl
          rw [hrest, bits_cons, bits_cons, bits_cons, odd_append, odd_append, odd_append,
            odd_bitsOf_xor, ih (Nat.succ.inj hlen), Bool.xor_assoc, Bool.xor_assoc,
            Bool.xor_left_comm (odd (bitsOf e))]

theorem odd_bits_of_decode {raw : List UInt8} {f : Frame} (h : decode raw = .ok f) :
    odd (bits raw) = false := by
  rw [← odd_crc8, crc8_of_decode h]
  rfl

/-- All that is read as a frame has an even number of bits set. -/
theorem even_weight_of_decode {raw : List UInt8} {f : Frame} (h : decode raw = .ok f) :
    Even (weight raw) := by
  rw [← Nat.not_odd_iff_even, ← odd_bits_iff, odd_bits_of_decode h]
  exact Bool.false_ne_true

theorem decode_garbled_ne_ok_of_odd {f : Frame} {errors : List UInt8}
    (hlen : errors.length = f.encode.length) (hodd : Odd (weight errors)) (g : Frame) :
    decode (garbled f.encode errors) ≠ .ok g := by
  intro hread
  have harrived := odd_bits_garbled hlen
  rw [odd_bits_of_decode hread, odd_bits_of_decode (decode_encode f), odd_bits_iff.mpr hodd]
    at harrived
  cases harrived

/-- A frame in which an odd number of bits were flipped on its way is reported
as bad. -/
theorem odd_errors_detected :
    (∀ (f : Frame) (errors : List UInt8), errors.length = f.encode.length →
      Odd (weight errors) → ∃ e, decode (garbled f.encode errors) = .error e)
    ∧ ∀ (raw : List UInt8) (f : Frame), decode raw = .ok f → Even (weight raw) :=
  ⟨fun _ _ hlen hodd => exists_error_of_ne_ok (decode_garbled_ne_ok_of_odd hlen hodd),
    fun _ _ h => even_weight_of_decode h⟩

/-- One bit each of the destination, the payload and the checksum is flipped. -/
theorem three_bits_flipped :
    let f : Frame := ⟨.programData, hostId, 7, [0xAB, 0xCD], by decide⟩
    let errors : List UInt8 := [0, 0x80, 0, 0, 0, 0, 0x10, 0x01]
    Odd (weight errors) ∧ (∃ e, decode (garbled f.encode errors) = .error e)
      ∧ Even (weight f.encode) := by
  intro f errors
  have hodd : Odd (weight errors) := by decide
  have hlen : errors.length = f.encode.length := by
    rw [length_encode]
    rfl
  exact ⟨hodd, odd_errors_detected.1 f errors hlen hodd,
    odd_errors_detected.2 f.encode f (decode_encode f)⟩

end Frame

end BoardFlash
