import BoardFlash.Wire.Checksum

/-!
# The checksum register, bit by bit

A byte goes into the register in one look at the table. What it does there is
that of its eight bits one after the other (`absorb_eq_feed`), so all that is
said of `Checksum.feed` carries over to bytes and lists of bytes
(`foldl_absorb_eq_feed`).

Two facts about the generator are behind the checks on whole frames:

- a shift is linear in exclusive or (`shift_xor`), so what errors do to the
  register does not depend on the bytes that they hit (`foldl_absorb_xor`);
- its constant term is one, so the bit that leaves the register at the top comes
  back at the bottom, and a register that is not empty is not emptied by a shift
  (`getLsbD_shift_zero`, `shift_eq_zero_iff`).
-/

namespace BoardFlash

namespace Checksum

/-! ## One bit at a time -/

/-- The bits of a byte in the order in which they are sent, the most
significant one first. -/
def bitsOf (b : UInt8) : List Bool := (List.range 8).map fun i => b.toNat.testBit (7 - i)

/-- The bits of the bytes in the order in which they are sent. -/
def bits (bytes : List UInt8) : List Bool := bytes.flatMap bitsOf

/-- The register after one more bit. -/
def feed (r : UInt8) (bit : Bool) : UInt8 := shift (r ^^^ if bit then 0x80 else 0)

theorem bits_cons (b : UInt8) (bytes : List UInt8) : bits (b :: bytes) = bitsOf b ++ bits bytes :=
  List.flatMap_cons

@[simp] theorem length_bitsOf (b : UInt8) : (bitsOf b).length = 8 := rfl

/-- Where the bits of a byte are among all of them. -/
theorem getElem?_bits (bytes : List UInt8) (j : Nat) :
    (bits bytes)[j]? = bytes[j / 8]?.map fun b => b.toNat.testBit (7 - j % 8) := by
  induction bytes generalizing j with
  | nil => simp [bits]
  | cons b bytes ih =>
      rw [bits_cons]
      rcases Nat.lt_or_ge j 8 with hj | hj
      · rw [List.getElem?_append_left (by rwa [length_bitsOf]), Nat.div_eq_of_lt hj,
          Nat.mod_eq_of_lt hj, bitsOf, List.getElem?_map, List.getElem?_range hj]
        rfl
      · rw [List.getElem?_append_right (by rwa [length_bitsOf]), length_bitsOf, ih]
        have hbyte : j / 8 = (j - 8) / 8 + 1 := by omega
        have hbit : (j - 8) % 8 = j % 8 := by omega
        rw [hbyte, hbit, List.getElem?_cons_succ]

theorem true_mem_bits {bytes : List UInt8} (h : ∃ b ∈ bytes, b ≠ 0) : true ∈ bits bytes := by
  obtain ⟨b, hb, hne⟩ := h
  have hnat : b.toNat ≠ 0 := fun hzero => hne (UInt8.toNat.inj hzero)
  obtain ⟨i, hi⟩ := Nat.exists_testBit_of_ne_zero hnat
  have hlt : i < 8 := by
    refine Nat.lt_of_not_le fun hle => ?_
    have hsmall : b.toNat < 2 ^ i :=
      Nat.lt_of_lt_of_le b.toNat_lt (Nat.pow_le_pow_right (by decide) hle)
    rw [Nat.testBit_lt_two_pow hsmall] at hi
    cases hi
  have hplace : 7 - (7 - i) = i := by omega
  refine List.mem_flatMap.mpr ⟨b, hb, List.mem_map.mpr ⟨7 - i, ?_, ?_⟩⟩
  · exact List.mem_range.mpr (by omega)
  · rw [hplace]
    exact hi

/-! ## Shifts are linear -/

theorem and_top (r : UInt8) : r &&& 0x80 = if r.toBitVec.msb then 0x80 else 0 := by
  apply UInt8.eq_of_toBitVec_eq
  have htop : (0x80 : UInt8).toBitVec = BitVec.twoPow 8 7 := rfl
  rw [UInt8.toBitVec_and, htop, BitVec.and_twoPow, BitVec.msb_eq_getLsbD_last]
  split <;> rfl

theorem toBitVec_shiftLeft_one (r : UInt8) : (r <<< 1).toBitVec = r.toBitVec <<< 1 := by
  simp

theorem toNat_shiftLeft_one (r : UInt8) : (r <<< 1).toNat = 2 * r.toNat % 256 := by
  simp [Nat.shiftLeft_eq, Nat.mul_comm]

/-- The leading bit is gone, and a clear one follows the others. -/
theorem bitsOf_shiftLeft_one (r : UInt8) :
    r.toBitVec.msb :: bitsOf (r <<< 1) = bitsOf r ++ [false] := by
  have htop : r.toBitVec.msb = r.toNat.testBit 7 := by
    rw [BitVec.msb_eq_getLsbD_last, ← BitVec.testBit_toNat, UInt8.toNat_toBitVec]
  have hmoved (i : Nat) (hi : i < 8) :
      (r <<< 1).toNat.testBit i = (decide (1 ≤ i) && r.toNat.testBit (i - 1)) := by
    have hshift : (r <<< 1).toNat = r.toNat <<< 1 % 2 ^ 8 := by simp
    rw [hshift, Nat.testBit_mod_two_pow, Nat.testBit_shiftLeft, decide_eq_true hi, Bool.true_and]
  simp (disch := decide) only [bitsOf, List.range, List.range.loop, List.map_cons, List.map_nil,
    htop, hmoved]
  rfl

/-- The generator is taken out if the leading bit is set. -/
theorem shift_eq (r : UInt8) :
    shift r = (r <<< 1) ^^^ if r.toBitVec.msb then generator else 0 := by
  rw [shift, and_top]
  cases r.toBitVec.msb with
  | false => simp
  | true => rfl

theorem ite_xor (p q : Bool) (c : UInt8) :
    (if (p ^^ q) then c else 0) = (if p then c else 0) ^^^ (if q then c else 0) := by
  cases p <;> cases q <;> simp

theorem shift_xor (a b : UInt8) : shift (a ^^^ b) = shift a ^^^ shift b := by
  rw [shift_eq, shift_eq, shift_eq, UInt8.shiftLeft_xor, UInt8.toBitVec_xor, BitVec.msb_xor,
    ite_xor]
  ac_rfl

theorem shifts_xor (n : Nat) (a b : UInt8) : shifts n (a ^^^ b) = shifts n a ^^^ shifts n b := by
  induction n generalizing a b with
  | zero => rfl
  | succ n ih => rw [shifts, shifts, shifts, shift_xor, ih]

theorem absorb_xor (r q a b : UInt8) :
    absorb (r ^^^ q) (a ^^^ b) = absorb r a ^^^ absorb q b := by
  have hsplit : r ^^^ q ^^^ (a ^^^ b) = (r ^^^ a) ^^^ (q ^^^ b) := by ac_rfl
  rw [absorb_eq_shifts, absorb_eq_shifts, absorb_eq_shifts, hsplit, shifts_xor]

/-- Errors add to the register what they would leave in one that was empty. -/
theorem foldl_absorb_xor {bytes errors : List UInt8} (hlen : errors.length = bytes.length)
    (r q : UInt8) :
    (List.zipWith (· ^^^ ·) bytes errors).foldl absorb (r ^^^ q)
      = bytes.foldl absorb r ^^^ errors.foldl absorb q := by
  induction bytes generalizing errors r q with
  | nil =>
      obtain rfl := List.length_eq_zero_iff.mp hlen
      rfl
  | cons b bytes ih =>
      cases errors with
      | nil => cases hlen
      | cons e errors =>
          simp only [List.zipWith_cons_cons, List.foldl_cons, absorb_xor]
          exact ih (Nat.succ.inj hlen) _ _

/-! ## Bytes as bits -/

/-- The leading bit goes into the register, and the others move up. -/
theorem shift_xor_eq_feed (r b : UInt8) :
    shift (r ^^^ b) = feed r b.toBitVec.msb ^^^ (b <<< 1) := by
  have hbit : (if b.toBitVec.msb then generator else 0)
      = shift (if b.toBitVec.msb then 0x80 else 0) := by
    split <;> rfl
  rw [feed, shift_xor, shift_xor, shift_eq b, hbit]
  ac_rfl

/-- After `n` shifts as many bits are in the register; the rest of the byte has
moved up. -/
theorem shifts_xor_eq_feed (n : Nat) (r b : UInt8) :
    shifts n (r ^^^ b)
      = ((List.range n).map b.toBitVec.getMsbD).foldl feed r ^^^ .ofBitVec (b.toBitVec <<< n) := by
  induction n generalizing r b with
  | zero => simp [shifts]
  | succ n ih =>
      have hmsb : b.toBitVec.msb = b.toBitVec.getMsbD 0 := rfl
      rw [shifts, shift_xor_eq_feed, ih, List.range_succ_eq_map, List.map_cons, List.foldl_cons,
        List.map_map, hmsb, toBitVec_shiftLeft_one, ← BitVec.shiftLeft_add, Nat.add_comm 1 n]
      congr 2
      refine List.map_congr_left ?_
      intro i hi
      rw [BitVec.getMsbD_shiftLeft]
      rfl

theorem absorb_eq_feed (r b : UInt8) : absorb r b = (bitsOf b).foldl feed r := by
  have hgone : UInt8.ofBitVec (b.toBitVec <<< 8) = 0 := by
    rw [BitVec.shiftLeft_eq_zero (Nat.le_refl 8)]
    rfl
  have hbits : (List.range 8).map b.toBitVec.getMsbD = bitsOf b := by
    refine List.map_congr_left ?_
    intro i hi
    have hlt := List.mem_range.mp hi
    rw [BitVec.getMsbD_eq_getLsbD, ← BitVec.testBit_toNat, decide_eq_true hlt]
    simp
  rw [absorb_eq_shifts, shifts_xor_eq_feed, hgone, UInt8.xor_zero, hbits]

theorem foldl_absorb_eq_feed (bytes : List UInt8) (r : UInt8) :
    bytes.foldl absorb r = (bits bytes).foldl feed r := by
  induction bytes generalizing r with
  | nil => rfl
  | cons b bytes ih => rw [List.foldl_cons, bits_cons, List.foldl_append, ← absorb_eq_feed, ih]

/-! ## What a shift leaves in the register -/

@[simp] theorem feed_zero : feed 0 false = 0 := rfl

/-- The bit that leaves at the top comes back at the bottom. -/
theorem getLsbD_shift_zero (r : UInt8) : (shift r).toBitVec.getLsbD 0 = r.toBitVec.msb := by
  rw [shift_eq]
  cases r.toBitVec.msb <;> simp [generator]

theorem shift_of_msb {r : UInt8} (h : r.toBitVec.msb = false) : shift r = r <<< 1 := by
  simp [shift_eq, h]

theorem shift_eq_zero_iff {r : UInt8} : shift r = 0 ↔ r = 0 := by
  constructor
  · intro h
    have hmsb : r.toBitVec.msb = false := by
      rw [← getLsbD_shift_zero, h]
      rfl
    rw [shift_of_msb hmsb] at h
    have hsmall := BitVec.msb_eq_false_iff_two_mul_lt.mp hmsb
    have hnat : (r <<< 1).toNat = 0 := by
      rw [h]
      rfl
    rw [toNat_shiftLeft_one] at hnat
    rw [UInt8.toNat_toBitVec] at hsmall
    apply UInt8.toNat.inj
    rw [UInt8.toNat_zero]
    omega
  · rintro rfl
    rfl

end Checksum

end BoardFlash
