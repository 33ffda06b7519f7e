import BoardFlash.Proofs.Wire.Register
import BoardFlash.Proofs.Wire.RoundTrip
import Mathlib.Algebra.GroupWithZero.Nat

/-!
# Bursts of errors

A frame that is hit on its way by a burst of errors, any errors within eight
bits in a row, is never read as a frame (`burst_detected`), wherever it is hit:
in the header, the payload, the checksum or across two of them.

A frame with its checksum leaves the register empty (`crc8_of_decode`),
and errors leave in it what they would leave in an empty one. So it is enough
that a burst by itself does not leave the register empty
(`foldl_feed_ne_zero`): the first of its bits puts the generator in, at most
seven more follow, and `n` bits can empty only a register whose lowest `8 - n`
bits are clear (`dvd_of_foldl_feed`), while the lowest bit of the generator is
set.
-/

namespace BoardFlash

namespace Checksum

/-! ## What empties the register -/

theorem eq_zero_of_foldl_feed {l : List Bool} (hl : ∀ bit ∈ l, bit = false) {r : UInt8}
    (h : l.foldl feed r = 0) : r = 0 := by
  induction l generalizing r with
  | nil => exact h
  | cons bit l ih =>
      obtain rfl := hl bit List.mem_cons_self
      have hnext := ih (fun b hb => hl b (List.mem_cons_of_mem _ hb)) h
      rw [feed, shift_eq_zero_iff] at hnext
      simpa using hnext

/-- If the lowest bit is clear after a shift, nothing came back at the bottom. -/
theorem dvd_of_dvd_shift {r : UInt8} {k : Nat} (h : 2 ^ (k + 1) ∣ (shift r).toNat) :
    2 ^ k ∣ r.toNat := by
  have heven : (shift r).toNat % 2 = 0 :=
    Nat.mod_eq_zero_of_dvd (Nat.dvd_trans (Nat.dvd_mul_left 2 (2 ^ k)) h)
  have hmsb : r.toBitVec.msb = false := by
    rw [← getLsbD_shift_zero, ← BitVec.testBit_toNat, Nat.testBit_zero, UInt8.toNat_toBitVec,
      heven]
    rfl
  have hsmall := BitVec.msb_eq_false_iff_two_mul_lt.mp hmsb
  rw [UInt8.toNat_toBitVec] at hsmall
  rw [shift_of_msb hmsb, toNat_shiftLeft_one, Nat.mod_eq_of_lt hsmall, Nat.mul_comm 2] at h
  exact Nat.dvd_of_mul_dvd_mul_right Nat.two_pos h

theorem dvd_of_dvd_xor_top {r : UInt8} {bit : Bool} {k : Nat} (hk : k ≤ 7)
    (h : 2 ^ k ∣ (r ^^^ if bit then 0x80 else 0).toNat) : 2 ^ k ∣ r.toNat := by
  have htop : (if bit then 0x80 else 0 : UInt8).toNat % 2 ^ k = 0 := by
    cases bit with
    | false => exact Nat.zero_mod _
    | true => exact Nat.mod_eq_zero_of_dvd (Nat.pow_dvd_pow 2 hk)
  have hmod := Nat.mod_eq_zero_of_dvd h
  rw [UInt8.toNat_xor, Nat.xor_mod_two_pow, htop, Nat.xor_zero] at hmod
  exact Nat.dvd_of_mod_eq_zero hmod

/-- So many bits can empty a register only if its lowest bits are clear, all
but that many. -/
theorem dvd_of_foldl_feed {l : List Bool} (hlen : l.length ≤ 8) {r : UInt8}
    (h : l.foldl feed r = 0) : 2 ^ (8 - l.length) ∣ r.toNat := by
  induction l generalizing r with
  | nil =>
      obtain rfl : r = 0 := h
      exact Nat.dvd_zero _
  | cons bit l ih =>
      rw [List.length_cons] at hlen ⊢
      have hnext : 8 - l.length = 8 - (l.length + 1) + 1 := by omega
      have hdvd := ih (Nat.le_of_succ_le hlen) h
      rw [hnext, feed] at hdvd
      exact dvd_of_dvd_xor_top (by omega) (dvd_of_dvd_shift hdvd)

/-- All bits that are set are within `n` bits in a row. -/
def Spans (n : Nat) (l : List Bool) : Prop :=
  ∃ i, ∀ j, l[j]? = some true → i ≤ j ∧ j < i + n

theorem Spans.tail {n : Nat} {bit : Bool} {l : List Bool} (h : Spans n (bit :: l)) :
    Spans n l := by
  obtain ⟨i, hi⟩ := h
  refine ⟨i - 1, ?_⟩
  intro j hj
  have hnext := hi (j + 1) hj
  omega

/-- A burst does not leave an empty register empty. -/
theorem foldl_feed_ne_zero {l : List Bool} (hset : true ∈ l) (hspan : Spans 8 l) :
    l.foldl feed 0 ≠ 0 := by
  induction l with
  | nil => cases hset
  | cons bit l ih =>
      cases bit with
      | false =>
          rw [List.foldl_cons, feed_zero]
          exact ih (by simpa using hset) hspan.tail
      | true =>
          intro hzero
          obtain ⟨i, hi⟩ := hspan
          have hfirst := hi 0 rfl
          have hrest : ∀ bit ∈ l.drop 7, bit = false := by
            intro bit hbit
            obtain ⟨j, hj⟩ := List.mem_iff_getElem?.mp hbit
            rw [List.getElem?_drop] at hj
            cases bit with
            | false => rfl
            | true =>
                have hlate := hi (7 + j + 1) hj
                omega
          rw [List.foldl_cons, ← List.take_append_drop 7 l, List.foldl_append] at hzero
          have hlen : (l.take 7).length ≤ 7 := List.length_take_le ..
          have hdvd := dvd_of_foldl_feed (by omega) (eq_zero_of_foldl_feed hrest hzero)
          have hodd : 2 ^ 1 ∣ (feed 0 true).toNat :=
            Nat.dvd_trans (Nat.pow_dvd_pow 2 (by omega)) hdvd
          exact absurd hodd (by decide)

end Checksum

namespace Frame

open Checksum

/-! ## What arrives -/

/-- What arrives if the bits that are set in `errors` are flipped on the way. -/
def garbled (raw errors : List UInt8) : List UInt8 := List.zipWith (· ^^^ ·) raw errors

/-- Bytes that are read as a frame leave the register empty. -/
theorem crc8_of_decode {raw : List UInt8} {f : Frame} (h : decode raw = .ok f) :
    crc8 raw = 0 := by
  rw [← encode_of_decode h, encode, crc8_append, List.foldl_cons, List.foldl_nil,
    absorb_eq_shifts, UInt8.xor_self]
  rfl

/-- A frame that was hit by a burst is not read as a frame. -/
theorem decode_garbled_ne_ok {f : Frame} {errors : List UInt8}
    (hlen : errors.length = f.encode.length) (hhit : ∃ b ∈ errors, b ≠ 0)
    (hspan : Spans 8 (bits errors)) (g : Frame) : decode (garbled f.encode errors) ≠ .ok g := by
  intro hread
  have hsum := foldl_absorb_xor hlen 0xFF 0
  have hsent := crc8_of_decode (decode_encode f)
  have harrived := crc8_of_decode hread
  rw [crc8] at hsent harrived
  rw [UInt8.xor_zero, hsent, UInt8.zero_xor, foldl_absorb_eq_feed errors] at hsum
  exact foldl_feed_ne_zero (true_mem_bits hhit) hspan (hsum.symm.trans harrived)

theorem exists_error_of_ne_ok {raw : List UInt8} (h : ∀ g, decode raw ≠ .ok g) :
    ∃ e, decode raw = .error e := by
  cases hread : decode raw with
  | error e => exact ⟨e, rfl⟩
  | ok g => exact absurd hread (h g)

/-! ## A single byte -/

/-- Errors in the byte at `k` only. -/
def errorsAt (n k : Nat) (b : UInt8) : List UInt8 := (List.replicate n 0).set k b

theorem length_errorsAt (n k : Nat) (b : UInt8) : (errorsAt n k b).length = n := by
  simp [errorsAt]

theorem exists_error_errorsAt {n k : Nat} (hk : k < n) {b : UInt8} (hb : b ≠ 0) :
    ∃ c ∈ errorsAt n k b, c ≠ 0 :=
  ⟨b, List.mem_set (by simpa using hk) b, hb⟩

/-- One byte is eight bits in a row. -/
theorem spans_errorsAt (n k : Nat) (b : UInt8) : Spans 8 (bits (errorsAt n k b)) := by
  refine ⟨8 * k, ?_⟩
  intro j hj
  rw [getElem?_bits, errorsAt, List.getElem?_set] at hj
  split at hj
  · omega
  · rw [List.getElem?_replicate] at hj
    split at hj
    · simp at hj
    · cases hj

theorem garbled_errorsAt {raw : List UInt8} {k : Nat} (hk : k < raw.length) (b : UInt8) :
    garbled raw (errorsAt raw.length k (raw[k] ^^^ b)) = raw.set k b := by
  refine List.ext_getElem (by simp [garbled, errorsAt]) ?_
  intro i hi hi'
  simp only [garbled, errorsAt, List.getElem_zipWith, List.getElem_set, List.getElem_replicate]
  split
  · next heq =>
    subst heq
    rw [← UInt8.xor_assoc, UInt8.xor_self, UInt8.zero_xor]
  · rw [UInt8.xor_zero]

/-! ## Every burst is detected -/

/-- A frame that any errors within eight bits in a row have hit on its way is
reported as bad, and so is one with a single byte changed. -/
theorem burst_detected (f : Frame) :
    (∀ errors : List UInt8, errors.length = f.encode.length → (∃ b ∈ errors, b ≠ 0) →
      Spans 8 (bits errors) → ∃ e, decode (garbled f.encode errors) = .error e)
    ∧ ∀ (k : Nat) (hk : k < f.encode.length) (b : UInt8), b ≠ f.encode[k] →
      ∃ e, decode (f.encode.set k b) = .error e := by
  constructor
  · intro errors hlen hhit hspan
    exact exists_error_of_ne_ok (decode_garbled_ne_ok hlen hhit hspan)
  · intro k hk b hb
    have hflip : f.encode[k] ^^^ b ≠ 0 := fun h => hb (UInt8.xor_eq_zero_iff.mp h).symm
    rw [← garbled_errorsAt hk b]
    exact exists_error_of_ne_ok
      (decode_garbled_ne_ok (length_errorsAt ..) (exists_error_errorsAt hk hflip)
        (spans_errorsAt ..))

/-- The last bit of the length field and the first one of the checksum are
flipped. -/
theorem length_and_checksum_hit :
    let errors : List UInt8 := [0, 0, 0, 0, 0x01, 0x80]
    Spans 8 (bits errors)
    ∧ ∃ e, decode (garbled (empty .ack 3 hostId).encode errors) = .error e := by
  intro errors
  have hset : ∀ j < 48, (bits errors)[j]? = some true → 39 ≤ j ∧ j < 47 := by decide
  have hspan : Spans 8 (bits errors) := by
    refine ⟨39, ?_⟩
    intro j hj
    exact hset j (List.getElem?_eq_some_iff.mp hj).1 hj
  have hlen : errors.length = (empty .ack 3 hostId).encode.length := by
    rw [length_encode]
    rfl
  exact ⟨hspan, (burst_detected (empty .ack 3 hostId)).1 errors hlen
    ⟨0x80, by decide, by decide⟩ hspan⟩

end Frame

end BoardFlash
