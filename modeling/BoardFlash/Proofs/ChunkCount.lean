import BoardFlash.Firmware
import Mathlib.Algebra.GroupWithZero.Nat
import Mathlib.Order.Bounds.Basic

/-!
# How chunks are counted

An image has as many chunks as it takes to hold all its bytes, and no more
(`isLeast_quotient`). There are never more chunks than bytes, so their number
fits in a word whenever the size does. But it is computed from the sum of both
sizes, and where that sum does not fit in a word nothing is counted
(`counted_while_sum_fits`): not even the chunks of two bytes each for the largest
size that there is (`largest_size_not_counted`).
-/

namespace BoardFlash

namespace Firmware

variable {size chunkSize : Nat}

/-! ## Enough chunks -/

/-- So many chunks are enough to hold the bytes exactly if they are no fewer than the
quotient, rounded up. -/
theorem quotient_le_iff (hpos : 0 < chunkSize) {k : Nat} :
    (size + (chunkSize - 1)) / chunkSize ≤ k ↔ size ≤ k * chunkSize := by
  rw [Nat.div_le_iff_le_mul_add_pred hpos, Nat.mul_comm]
  omega

theorem isLeast_quotient (size : Nat) (hpos : 0 < chunkSize) :
    IsLeast {k | size ≤ k * chunkSize} ((size + (chunkSize - 1)) / chunkSize) :=
  ⟨(quotient_le_iff hpos).mp (Nat.le_refl _), fun _ hk => (quotient_le_iff hpos).mpr hk⟩

theorem quotient_le_size (size : Nat) (hpos : 0 < chunkSize) :
    (size + (chunkSize - 1)) / chunkSize ≤ size :=
  (quotient_le_iff hpos).mpr (Nat.le_mul_of_pos_right size hpos)

/-! ## What is counted -/

theorem countChunks_of_fits (hpos : 0 < chunkSize) (hfits : size + chunkSize < Word.bound) :
    countChunks size chunkSize = .ok ((size + (chunkSize - 1)) / chunkSize) := by
  rw [countChunks, if_neg (Nat.ne_of_gt hpos), Word.sum?, if_pos hfits]
  dsimp only
  rw [Nat.add_sub_assoc hpos]

theorem countChunks_of_overflow (hpos : 0 < chunkSize) (hover : Word.bound ≤ size + chunkSize) :
    countChunks size chunkSize = .error .sumOverflow := by
  rw [countChunks, if_neg (Nat.ne_of_gt hpos), Word.sum?, if_neg (Nat.not_lt.mpr hover)]

theorem countChunks_eq_zeroChunkSize_iff :
    countChunks size chunkSize = .error .zeroChunkSize ↔ chunkSize = 0 := by
  constructor
  · intro h
    by_contra hne
    have hpos := Nat.pos_of_ne_zero hne
    rcases Nat.lt_or_ge (size + chunkSize) Word.bound with hfits | hover
    · rw [countChunks_of_fits hpos hfits] at h
      cases h
    · rw [countChunks_of_overflow hpos hover] at h
      cases h
  · rintro rfl
    rfl

/-- Whatever the sizes are, the fewest chunks that hold the bytes can be counted in a word, and
they are counted as long as the sum of both sizes is in a word. Chunks of no size are refused. -/
theorem counted_while_sum_fits (size chunkSize : UInt64) :
    (countChunks size.toNat chunkSize.toNat = .error .zeroChunkSize ↔ chunkSize.toNat = 0)
    ∧ (1 ≤ chunkSize.toNat → ∃ count : UInt64,
      IsLeast {k | size.toNat ≤ k * chunkSize.toNat} count.toNat
      ∧ (size.toNat + chunkSize.toNat < 2 ^ 64 →
        countChunks size.toNat chunkSize.toNat = .ok count.toNat)
      ∧ (2 ^ 64 ≤ size.toNat + chunkSize.toNat →
        countChunks size.toNat chunkSize.toNat = .error .sumOverflow)) := by
  refine ⟨countChunks_eq_zeroChunkSize_iff, fun hpos => ?_⟩
  have hword := Nat.lt_of_le_of_lt (quotient_le_size size.toNat hpos) size.toNat_lt
  refine ⟨.ofNatLT _ hword, ?_⟩
  rw [UInt64.toNat_ofNatLT]
  exact ⟨isLeast_quotient _ hpos, countChunks_of_fits hpos, countChunks_of_overflow hpos⟩

/-- The most bytes that can be counted in chunks of the largest size that goes in a frame. -/
theorem largest_chunks_counted :
    let size : UInt64 := 18446744073709535231
    let chunkSize : UInt64 := 16384
    1 ≤ chunkSize.toNat ∧ size.toNat + chunkSize.toNat < 2 ^ 64
    ∧ countChunks size.toNat chunkSize.toNat = .ok 1125899906842623
    ∧ IsLeast {k | size.toNat ≤ k * chunkSize.toNat} 1125899906842623 := by
  intro size chunkSize
  have hpos : 1 ≤ chunkSize.toNat := by decide
  have hfits : size.toNat + chunkSize.toNat < 2 ^ 64 := by decide
  obtain ⟨count, hleast, hcounted, -⟩ := (counted_while_sum_fits size chunkSize).2 hpos
  have hcount : countChunks size.toNat chunkSize.toNat = .ok 1125899906842623 := by decide
  rw [hcounted hfits, Except.ok.injEq] at hcount
  rw [← hcount]
  exact ⟨hpos, hfits, hcounted hfits, hleast⟩

/-- Half as many chunks of two bytes hold the largest size that there is. They could be counted
in a word, but they are not. -/
theorem largest_size_not_counted :
    let size : UInt64 := 18446744073709551615
    let chunkSize : UInt64 := 2
    1 ≤ chunkSize.toNat ∧ IsLeast {k | size.toNat ≤ k * chunkSize.toNat} 9223372036854775808
    ∧ countChunks size.toNat chunkSize.toNat = .error .sumOverflow := by
  intro size chunkSize
  have hpos : 1 ≤ chunkSize.toNat := by decide
  have hover : Word.bound ≤ size.toNat + chunkSize.toNat := by decide
  have hquotient : (size.toNat + (chunkSize.toNat - 1)) / chunkSize.toNat = 9223372036854775808 := by
    decide
  have hleast := isLeast_quotient size.toNat hpos
  rw [hquotient] at hleast
  exact ⟨hpos, hleast, countChunks_of_overflow hpos hover⟩

end Firmware

end BoardFlash
