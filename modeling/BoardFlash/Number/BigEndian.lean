/-!
# Words as bytes, the high byte first
-/

namespace BoardFlash

namespace BigEndian

/-- The four bytes of a word. -/
def bytes (w : UInt32) : List UInt8 :=
  [(w.toNat / 16777216).toUInt8, (w.toNat / 65536).toUInt8, (w.toNat / 256).toUInt8,
    w.toNat.toUInt8]

/-- The word of four bytes. -/
def word (a b c d : UInt8) : UInt32 :=
  (((a.toNat * 256 + b.toNat) * 256 + c.toNat) * 256 + d.toNat).toUInt32

/-- The words of a list of bytes, four bytes each; bytes left over at the
end are dropped. -/
def words : List UInt8 → List UInt32
  | a :: b :: c :: d :: rest => word a b c d :: words rest
  | _ => []

@[simp] theorem length_bytes (w : UInt32) : (bytes w).length = 4 := rfl

theorem word_bytes (w : UInt32) :
    word (w.toNat / 16777216).toUInt8 (w.toNat / 65536).toUInt8 (w.toNat / 256).toUInt8
      w.toNat.toUInt8 = w := by
  apply UInt32.toNat.inj
  have := w.toNat_lt
  simp only [word, Nat.toUInt8_eq, Nat.toUInt32_eq, UInt8.toNat_ofNat', UInt32.toNat_ofNat']
  omega

theorem bytes_word (a b c d : UInt8) : bytes (word a b c d) = [a, b, c, d] := by
  have ha := a.toNat_lt
  have hb := b.toNat_lt
  have hc := c.toNat_lt
  have hd := d.toNat_lt
  simp only [bytes, word, Nat.toUInt8_eq, Nat.toUInt32_eq, UInt32.toNat_ofNat', List.cons.injEq,
    and_true]
  refine ⟨?_, ?_, ?_, ?_⟩ <;> apply UInt8.toNat.inj <;> simp only [UInt8.toNat_ofNat'] <;> omega

end BigEndian

end BoardFlash
