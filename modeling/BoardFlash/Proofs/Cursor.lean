import BoardFlash.Proofs.ChunkCount

/-!
# The chunks of an image

A cursor divides the image into what is behind it (`Cursor.passed`) and
the rest, which begins with the chunk at the cursor. `passed_advance`
says that the cursor passes exactly this chunk when it advances, so the
chunks that it shows one after the other make up the image. `Cursor.rest` lists the
chunks that are yet to come and `Cursor.left` counts them; at the start of an
image that was built these are all of its chunks (`Firmware.WellCut.rest_eq`).
-/

namespace BoardFlash

namespace Cursor

/-- The part of the image that is behind the cursor. -/
def passed (c : Cursor) : List UInt8 := c.bytes.toList.take c.offset

theorem current?_eq_some_iff {c : Cursor} {chunk : List UInt8} :
    c.current? = some chunk ↔
      c.offset < c.bytes.size ∧ chunk = (c.bytes.toList.drop c.offset).take c.chunkSize := by
  unfold current?
  split
  · next h =>
    simp only [Option.some.injEq, h, true_and]
    rw [Array.toList_extract, List.extract_eq_take_drop, Nat.add_sub_cancel_left]
    exact eq_comm
  · next h => simp [h]

theorem current?_eq_none_iff {c : Cursor} : c.current? = none ↔ c.bytes.size ≤ c.offset := by
  unfold current?
  split <;> simp <;> omega

theorem passed_eq_of_le {c : Cursor} (h : c.bytes.size ≤ c.offset) :
    c.passed = c.bytes.toList :=
  List.take_of_length_le (by simpa using h)

theorem passed_advance {c : Cursor} :
    c.advance.passed = c.bytes.toList.take (c.offset + c.chunkSize) := by
  simp only [passed, advance]
  rw [← List.take_take, List.take_of_length_le (Nat.le_of_eq c.bytes.length_toList)]

/-- Advancing passes the chunk at the cursor. -/
theorem passed_advance_of_current? {c : Cursor} {chunk : List UInt8}
    (h : c.current? = some chunk) : c.advance.passed = c.passed ++ chunk := by
  obtain ⟨-, rfl⟩ := current?_eq_some_iff.mp h
  rw [passed_advance, List.take_add, passed]

theorem passed_advance_of_none {c : Cursor} (h : c.current? = none) :
    c.advance.passed = c.passed := by
  have hle := current?_eq_none_iff.mp h
  rw [passed_eq_of_le hle, passed_advance, List.take_of_length_le]
  simp only [Array.length_toList]
  omega

/-- The chunk at the cursor ends where the cursor will be next. -/
theorem passed_advance_eq_take (c : Cursor) :
    c.advance.passed = c.bytes.toList.take (c.offset + (c.current?.getD []).length) := by
  cases h : c.current? with
  | none => simpa [passed] using passed_advance_of_none h
  | some chunk =>
      obtain ⟨-, rfl⟩ := current?_eq_some_iff.mp h
      rw [passed_advance, Option.getD_some, List.length_take, List.length_drop,
        Array.length_toList, List.take_eq_take_iff, Array.length_toList]
      omega

/-! ## The chunks that are left -/

/-- The number of chunks from the cursor on. -/
def left (c : Cursor) : Nat := (c.bytes.size - c.offset + (c.chunkSize - 1)) / c.chunkSize

/-- The chunks from the cursor on. -/
def rest (c : Cursor) : List (List UInt8) :=
  (List.range c.left).map fun j =>
    (c.bytes.toList.drop (c.offset + j * c.chunkSize)).take c.chunkSize

@[simp] theorem length_rest (c : Cursor) : c.rest.length = c.left := by simp [rest]

theorem left_eq_add_one {c : Cursor} {chunk : List UInt8} (hsize : 0 < c.chunkSize)
    (h : c.current? = some chunk) : c.left = c.advance.left + 1 := by
  have hmore := (current?_eq_some_iff.mp h).1
  have hrest : c.bytes.size - c.advance.offset = c.bytes.size - c.offset - c.chunkSize := by
    simp only [advance]
    omega
  show c.left = (c.bytes.size - c.advance.offset + (c.chunkSize - 1)) / c.chunkSize + 1
  rw [hrest, left]
  rcases Nat.lt_or_ge (c.bytes.size - c.offset) c.chunkSize with hlast | hfull
  · have hnone : c.bytes.size - c.offset - c.chunkSize + (c.chunkSize - 1) < c.chunkSize := by
      omega
    have hone : c.bytes.size - c.offset + (c.chunkSize - 1)
        = c.bytes.size - c.offset - 1 + c.chunkSize := by omega
    rw [Nat.div_eq_of_lt hnone, hone, Nat.add_div_right _ hsize,
      Nat.div_eq_of_lt (Nat.lt_of_le_of_lt (Nat.sub_le _ _) hlast)]
  · have hstep : c.bytes.size - c.offset + (c.chunkSize - 1)
        = c.bytes.size - c.offset - c.chunkSize + (c.chunkSize - 1) + c.chunkSize := by omega
    rw [hstep, Nat.add_div_right _ hsize]

theorem rest_of_some {c : Cursor} {chunk : List UInt8} (hsize : 0 < c.chunkSize)
    (h : c.current? = some chunk) : c.rest = chunk :: c.advance.rest := by
  have hchunk := (current?_eq_some_iff.mp h).2
  rw [rest, left_eq_add_one hsize h, List.range_succ_eq_map, List.map_cons, List.map_map, rest]
  congr 1
  · rw [hchunk, Nat.zero_mul, Nat.add_zero]
  · refine List.map_congr_left fun j hj => ?_
    -- a chunk follows the one at the cursor only if that is a full one
    have hfull : c.offset + c.chunkSize ≤ c.bytes.size := by
      refine Nat.le_of_not_lt fun hlast => ?_
      have hend : c.bytes.size - c.advance.offset = 0 := by
        simp only [advance]
        omega
      have hnone : c.advance.left = 0 := by
        show (c.bytes.size - c.advance.offset + (c.chunkSize - 1)) / c.chunkSize = 0
        rw [hend]
        exact Nat.div_eq_of_lt (by omega)
      have hpos : 0 < c.advance.left := Nat.zero_lt_of_lt (List.mem_range.mp hj)
      omega
    have hoffset : c.offset + (j + 1) * c.chunkSize = c.advance.offset + j * c.chunkSize := by
      simp only [advance, Nat.min_eq_left hfull, Nat.add_one_mul]
      omega
    simp only [Function.comp, Nat.succ_eq_add_one, hoffset]
    rfl

theorem rest_of_none {c : Cursor} (hsize : 0 < c.chunkSize) (h : c.current? = none) :
    c.rest = [] := by
  have hend : c.bytes.size - c.offset = 0 := Nat.sub_eq_zero_of_le (current?_eq_none_iff.mp h)
  have hnone : c.left = 0 := by
    rw [left, hend]
    exact Nat.div_eq_of_lt (by omega)
  rw [rest, hnone]
  rfl

theorem current?_of_rest_nil {c : Cursor} (hsize : 0 < c.chunkSize) (h : c.rest = []) :
    c.current? = none := by
  cases hcurrent : c.current? with
  | none => rfl
  | some chunk =>
      rw [rest_of_some hsize hcurrent] at h
      cases h

theorem current?_of_rest_cons {c : Cursor} {chunk : List UInt8} {chunks : List (List UInt8)}
    (hsize : 0 < c.chunkSize) (h : c.rest = chunk :: chunks) :
    c.current? = some chunk ∧ c.advance.rest = chunks := by
  cases hcurrent : c.current? with
  | none =>
      rw [rest_of_none hsize hcurrent] at h
      cases h
  | some next =>
      rw [rest_of_some hsize hcurrent] at h
      obtain ⟨rfl, hlater⟩ := List.cons.inj h
      exact ⟨rfl, hlater⟩

/-- What is behind the cursor and the chunks from there on make up the image. -/
theorem passed_append_rest (c : Cursor) (hsize : 0 < c.chunkSize) :
    c.passed ++ c.rest.flatten = c.bytes.toList := by
  induction hrest : c.rest generalizing c with
  | nil =>
      have hnone := current?_of_rest_nil hsize hrest
      rw [passed_eq_of_le (current?_eq_none_iff.mp hnone)]
      exact List.append_nil _
  | cons chunk chunks ih =>
      obtain ⟨hcurrent, hlater⟩ := current?_of_rest_cons hsize hrest
      rw [List.flatten_cons, ← List.append_assoc, ← passed_advance_of_current? hcurrent]
      exact ih c.advance hsize hlater

end Cursor

/-! ## Images that were built -/

namespace Firmware

/-- The chunks of the image, all of one size but the last. -/
def chunks (image : Firmware) : List (List UInt8) :=
  (List.range image.chunkCount.toNat).map fun j =>
    (image.bytes.toList.drop (j * image.chunkSize)).take image.chunkSize

variable {origin : String} {bytes : Array UInt8} {chunkSize : UInt64} {key : List UInt8}
  {image : Firmware}

/-- What is checked of an image before it is built. -/
structure WellCut (image : Firmware) : Prop where
  size_pos : 0 < image.chunkSize
  size_le : image.chunkSize ≤ maxPayload
  count : image.chunkCount.toNat = image.cursor.left

/-- What the image is that was built, and what was checked before. -/
theorem build_eq_ok (h : build origin bytes chunkSize key = .ok image) :
    ∃ count, 0 < chunkSize.toNat ∧ chunkSize.toNat ≤ maxPayload ∧ 0 < bytes.size
      ∧ count = (bytes.size + chunkSize.toNat - 1) / chunkSize.toNat ∧ count ≤ maxChunks
      ∧ image = ⟨bytes, Hmac.mac bytes.toList key, chunkSize.toNat, count.toUInt32⟩ := by
  unfold build at h
  split at h
  · cases h
  · next hne =>
    split at h
    · cases h
    · next hlarge =>
      split at h
      · cases h
      · next hsome =>
        dsimp only at h
        split at h
        · cases h
        · next hfew =>
          refine ⟨_, ?_, Nat.le_of_not_lt hlarge, ?_, rfl, Nat.le_of_not_lt hfew,
            (Except.ok.inj h).symm⟩
          · exact Nat.pos_of_ne_zero fun hzero => hne (UInt64.toNat.inj hzero)
          · simpa [Array.isEmpty_iff, Array.size_pos_iff] using hsome

theorem wellCut_of_build (h : build origin bytes chunkSize key = .ok image) : image.WellCut := by
  obtain ⟨count, hpos, hlarge, -, hcount, hfew, rfl⟩ := build_eq_ok h
  have hword : count < 4294967296 := Nat.lt_succ_of_le hfew
  refine ⟨hpos, hlarge, ?_⟩
  show count.toUInt32.toNat = (bytes.size - 0 + (chunkSize.toNat - 1)) / chunkSize.toNat
  rw [Nat.toUInt32, UInt32.toNat_ofNat', Nat.mod_eq_of_lt hword, hcount, Nat.sub_zero,
    Nat.add_sub_assoc hpos]

theorem size_pos_of_build (h : build origin bytes chunkSize key = .ok image) :
    0 < image.bytes.size := by
  obtain ⟨count, -, -, hsome, -, -, rfl⟩ := build_eq_ok h
  exact hsome

/-- So few chunks of so many bytes have room in a word. -/
theorem sum_lt_of_quotient_le {size chunkSize : Nat} (hpos : 0 < chunkSize)
    (hmax : chunkSize ≤ maxPayload)
    (hfew : (size + (chunkSize - 1)) / chunkSize ≤ maxChunks) :
    size + chunkSize < Word.bound := by
  have hsize := (quotient_le_iff hpos).mp hfew
  have hall : maxChunks * chunkSize ≤ maxChunks * maxPayload := Nat.mul_le_mul_left _ hmax
  have hroom : maxChunks * maxPayload + maxPayload < Word.bound := by decide
  omega

/-- No place in the image is so far on that the end of a chunk there does not fit in
a word. -/
theorem size_add_lt_of_build (h : build origin bytes chunkSize key = .ok image) :
    image.bytes.size + image.chunkSize < Word.bound := by
  obtain ⟨count, hpos, hlarge, -, hcount, hfew, rfl⟩ := build_eq_ok h
  refine sum_lt_of_quotient_le hpos hlarge ?_
  rw [← Nat.add_sub_assoc hpos, ← hcount]
  exact hfew

theorem WellCut.rest_eq (h : image.WellCut) : image.cursor.rest = image.chunks := by
  rw [Cursor.rest, chunks, h.count]
  refine List.map_congr_left fun j _ => ?_
  simp [cursor]

theorem WellCut.flatten_chunks (h : image.WellCut) : image.chunks.flatten = image.bytes.toList := by
  rw [← h.rest_eq]
  exact image.cursor.passed_append_rest h.size_pos

end Firmware

end BoardFlash
