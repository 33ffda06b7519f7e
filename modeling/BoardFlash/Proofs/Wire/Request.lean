import BoardFlash.Wire.UpdateRequest

/-!
# Requests and their encodings

Writing and reading a request are inverse to each other: what was written is read
back (`decode?_encode`), and forty bytes are always those of the request that
they are read as (`encode_of_decode?`, `exists_decode?_iff`).
-/

namespace BoardFlash

namespace UpdateRequest

theorem decode?_encode (r : UpdateRequest) : decode? r.encode = some r := by
  obtain ⟨version, chunkCount, digest⟩ := r
  have hlen : digest.toList.length = 32 := by simp
  simp only [encode, BigEndian.bytes, List.cons_append, List.nil_append, decode?, dif_pos hlen,
    BigEndian.word_bytes]
  rfl

theorem encode_of_decode? {raw : List UInt8} {r : UpdateRequest} (h : decode? raw = some r) :
    r.encode = raw := by
  unfold decode? at h
  split at h
  · split at h
    · obtain rfl := Option.some.inj h
      simp only [encode, BigEndian.bytes_word]
      rfl
    · cases h
  · cases h

/-- A request is forty bytes, and any forty bytes are one. -/
theorem exists_decode?_iff {raw : List UInt8} : (∃ r, decode? raw = some r) ↔ raw.length = 40 := by
  constructor
  · rintro ⟨r, hr⟩
    rw [← encode_of_decode? hr]
    exact r.length_encode
  · intro hlen
    match raw, hlen with
    | a :: b :: c :: d :: e :: f :: g :: h :: digest, hlen =>
      have hrest : digest.length = 32 := by simpa using hlen
      exact ⟨_, dif_pos hrest⟩

end UpdateRequest

end BoardFlash
