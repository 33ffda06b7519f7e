import BoardFlash.Proofs.Cursor
import Mathlib.Algebra.Order.Floor.Semifield
import Mathlib.Data.Rat.Floor

/-!
# How an image is divided

An image is divided in two ways: the number of its chunks is computed when it is
built, and a reader takes chunk after chunk from a cursor until there is none
left (`Cursor.Reads`). Both agree (`Firmware.divided_into_chunks`): a reader gets to see as
many chunks as were counted, all of the full size but the last, and together
they are the image.

The number of chunks is the size of the image over that of a chunk, rounded up
(`ceil_div`). An image that has too many chunks to announce is refused. That the
chunks are counted in words makes no difference: the sum of both sizes has room
in one for every image that there can be in memory (`build_counts`).
-/

namespace BoardFlash

namespace Cursor

/-! ## Readers -/

/-- A reader who takes the chunk at the cursor and advances, until there is none
left, takes these chunks and leaves the cursor there. -/
inductive Reads : Cursor → List (List UInt8) → Cursor → Prop
  | stop {c : Cursor} (nothing : c.current? = none) : Reads c [] c
  | take {c last : Cursor} {chunk : List UInt8} {chunks : List (List UInt8)}
      (current : c.current? = some chunk) (rest : Reads c.advance chunks last) :
      Reads c (chunk :: chunks) last

/-- What can be done with a cursor. -/
inductive Use where
  | look
  | advance
  deriving DecidableEq

/-- Only advancing changes the cursor. -/
def use (c : Cursor) : Use → Cursor
  | .look => c
  | .advance => c.advance

def after (c : Cursor) (uses : List Use) : Cursor := uses.foldl use c

theorem Reads.unique {c last last' : Cursor} {chunks chunks' : List (List UInt8)}
    (h : c.Reads chunks last) (h' : c.Reads chunks' last') : chunks = chunks' ∧ last = last' := by
  induction h generalizing chunks' with
  | stop nothing =>
      cases h' with
      | stop => exact ⟨rfl, rfl⟩
      | take current rest =>
          rw [nothing] at current
          cases current
  | take current rest ih =>
      cases h' with
      | stop nothing =>
          rw [nothing] at current
          cases current
      | take current' rest' =>
          rw [current, Option.some.injEq] at current'
          obtain ⟨rfl, rfl⟩ := ih rest'
          exact ⟨by rw [current'], rfl⟩

theorem advance_of_none {c : Cursor} (hle : c.offset ≤ c.bytes.size) (h : c.current? = none) :
    c.advance = c := by
  have hend := current?_eq_none_iff.mp h
  rw [advance, Nat.min_eq_right (Nat.le_trans hend (Nat.le_add_right ..)),
    Nat.le_antisymm hend hle]

/-- A reader takes all the chunks that are left. -/
theorem reads_rest (c : Cursor) (hsize : 0 < c.chunkSize) (hle : c.offset ≤ c.bytes.size) :
    c.Reads c.rest { c with offset := c.bytes.size } := by
  induction hrest : c.rest generalizing c with
  | nil =>
      have hnone := current?_of_rest_nil hsize hrest
      rw [← Nat.le_antisymm hle (current?_eq_none_iff.mp hnone)]
      exact .stop hnone
  | cons chunk chunks ih =>
      obtain ⟨hcurrent, hlater⟩ := current?_of_rest_cons hsize hrest
      exact .take hcurrent (ih c.advance hsize (Nat.min_le_right ..) hlater)

/-- What a reader sees depends on how often the cursor was advanced, and on
nothing else. -/
theorem current?_after (c : Cursor) (hsize : 0 < c.chunkSize) (hle : c.offset ≤ c.bytes.size)
    (uses : List Use) : (c.after uses).current? = c.rest[uses.count .advance]? := by
  induction uses generalizing c with
  | nil =>
      show c.current? = c.rest[0]?
      cases h : c.current? with
      | none => rw [rest_of_none hsize h, List.getElem?_nil]
      | some chunk => rw [rest_of_some hsize h, List.getElem?_cons_zero]
  | cons u uses ih =>
      cases u with
      | look => exact ih c hsize hle
      | advance =>
          rw [List.count_cons_self]
          refine (ih c.advance hsize (Nat.min_le_right ..)).trans ?_
          cases h : c.current? with
          | none =>
              rw [advance_of_none hle h, rest_of_none hsize h, List.getElem?_nil,
                List.getElem?_nil]
          | some chunk => rw [rest_of_some hsize h, List.getElem?_cons_succ]

theorem offset_after (c : Cursor) (hle : c.offset ≤ c.bytes.size) (uses : List Use) :
    (c.after uses).offset = min (c.offset + uses.count .advance * c.chunkSize) c.bytes.size := by
  induction uses generalizing c with
  | nil =>
      show c.offset = _
      rw [List.count_nil, Nat.zero_mul, Nat.add_zero, Nat.min_eq_left hle]
  | cons u uses ih =>
      cases u with
      | look => exact ih c hle
      | advance =>
          rw [List.count_cons_self, Nat.add_one_mul]
          refine (ih c.advance (Nat.min_le_right ..)).trans ?_
          simp only [advance]
          omega

end Cursor

namespace Firmware

/-! ## The number of chunks -/

theorem ceil_div (size : Nat) {chunkSize : Nat} (hpos : 0 < chunkSize) :
    ⌈(size / chunkSize : ℚ)⌉₊ = (size + (chunkSize - 1)) / chunkSize := by
  refine eq_of_forall_ge_iff fun k => ?_
  rw [Nat.ceil_le, div_le_iff₀ (Nat.cast_pos.mpr hpos), ← Nat.cast_mul, Nat.cast_le,
    quotient_le_iff hpos]

variable {origin : String} {bytes : Array UInt8} {chunkSize : UInt64} {key : List UInt8}
  {image : Firmware}

/-- With chunks that go in a frame, only their number decides about an image that is not
empty. -/
theorem build_eq (origin : String) (key : List UInt8) (hpos : 0 < chunkSize.toNat)
    (hmax : chunkSize.toNat ≤ maxPayload) (hsome : 0 < bytes.size) :
    build origin bytes chunkSize key
      = if maxChunks < (bytes.size + (chunkSize.toNat - 1)) / chunkSize.toNat then
          .error (.firmwareTooLarge bytes.size maxChunks)
        else .ok ⟨bytes, Hmac.mac bytes.toList key, chunkSize.toNat,
          ((bytes.size + (chunkSize.toNat - 1)) / chunkSize.toNat).toUInt32⟩ := by
  have hne : chunkSize ≠ 0 := by
    rintro rfl
    exact absurd hpos (Nat.lt_irrefl 0)
  have hfull : ¬ bytes.isEmpty = true := by
    rw [Array.isEmpty_iff_size_eq_zero]
    exact Nat.ne_of_gt hsome
  rw [build, if_neg hne, if_neg (Nat.not_lt.mpr hmax), if_neg hfull, Nat.add_sub_assoc hpos]

/-- The chunks of bytes that take less than half of the addresses are counted, and the
image is refused or built for that count. -/
theorem build_counts (origin : String) (key : List UInt8) (hpos : 0 < chunkSize.toNat)
    (hmax : chunkSize.toNat ≤ maxPayload) (hsome : 0 < bytes.size)
    (hmemory : bytes.size < Word.bound / 2) :
    ∃ count, countChunks bytes.size chunkSize.toNat = .ok count
      ∧ build origin bytes chunkSize key
        = if maxChunks < count then .error (.firmwareTooLarge bytes.size maxChunks)
          else .ok ⟨bytes, Hmac.mac bytes.toList key, chunkSize.toNat, count.toUInt32⟩ := by
  have hroom : Word.bound / 2 + maxPayload ≤ Word.bound := by decide
  exact ⟨_, countChunks_of_fits hpos (by omega), build_eq origin key hpos hmax hsome⟩

/-- With chunks that go in a frame, an image that is not empty is either built or
refused because it has too many of them. -/
theorem build_cases (origin : String) (key : List UInt8) (hpos : 0 < chunkSize.toNat)
    (hmax : chunkSize.toNat ≤ maxPayload) (hsome : 0 < bytes.size) :
    build origin bytes chunkSize key = .error (.firmwareTooLarge bytes.size maxChunks)
      ∧ maxChunks < (bytes.size + (chunkSize.toNat - 1)) / chunkSize.toNat
    ∨ (∃ image, build origin bytes chunkSize key = .ok image)
      ∧ (bytes.size + (chunkSize.toNat - 1)) / chunkSize.toNat ≤ maxChunks := by
  rw [build_eq origin key hpos hmax hsome]
  split
  · next hmany => exact .inl ⟨rfl, hmany⟩
  · next hfew => exact .inr ⟨⟨_, rfl⟩, Nat.le_of_not_lt hfew⟩

theorem build_tooLarge_iff (hpos : 0 < chunkSize.toNat) (hmax : chunkSize.toNat ≤ maxPayload)
    (hsome : 0 < bytes.size) :
    (∃ size limit, build origin bytes chunkSize key = .error (.firmwareTooLarge size limit))
      ↔ maxChunks < (bytes.size + (chunkSize.toNat - 1)) / chunkSize.toNat := by
  rcases build_cases origin key hpos hmax hsome with
    ⟨hrefused, hmany⟩ | ⟨⟨image, hbuilt⟩, hfew⟩
  · exact iff_of_true ⟨_, _, hrefused⟩ hmany
  · refine iff_of_false ?_ (Nat.not_lt.mpr hfew)
    rintro ⟨size, limit, hrefused⟩
    rw [hbuilt] at hrefused
    cases hrefused

/-! ## The chunks -/

@[simp] theorem length_chunks (image : Firmware) :
    image.chunks.length = image.chunkCount.toNat := by
  simp [chunks]

theorem getElem?_chunks {j : Nat} {chunk : List UInt8} (h : image.chunks[j]? = some chunk) :
    chunk = (image.bytes.toList.drop (j * image.chunkSize)).take image.chunkSize := by
  obtain ⟨hj, rfl⟩ := List.getElem?_eq_some_iff.mp h
  simp only [chunks, List.getElem_map, List.getElem_range]

theorem WellCut.count_eq (h : image.WellCut) :
    image.chunkCount.toNat = (image.bytes.size + (image.chunkSize - 1)) / image.chunkSize :=
  h.count

/-- Every chunk begins within the image. -/
theorem WellCut.mul_lt (h : image.WellCut) {j : Nat} (hj : j < image.chunkCount.toNat) :
    j * image.chunkSize < image.bytes.size := by
  rw [h.count_eq] at hj
  exact Nat.lt_of_not_le fun hle => Nat.not_lt.mpr ((quotient_le_iff h.size_pos).mpr hle) hj

theorem WellCut.le_mul (h : image.WellCut) {j : Nat} (hj : image.chunkCount.toNat ≤ j) :
    image.bytes.size ≤ j * image.chunkSize := by
  rw [h.count_eq] at hj
  exact (quotient_le_iff h.size_pos).mp hj

theorem WellCut.length_chunk (h : image.WellCut) {j : Nat} {chunk : List UInt8}
    (hchunk : image.chunks[j]? = some chunk) :
    (j + 1 < image.chunkCount.toNat → chunk.length = image.chunkSize)
    ∧ 0 < chunk.length ∧ chunk.length ≤ image.chunkSize := by
  obtain ⟨hj, -⟩ := List.getElem?_eq_some_iff.mp hchunk
  rw [length_chunks] at hj
  have hbegins := h.mul_lt hj
  have hpos := h.size_pos
  rw [getElem?_chunks hchunk, List.length_take, List.length_drop, Array.length_toList]
  refine ⟨fun hmore => ?_, by omega, by omega⟩
  have hends := h.mul_lt hmore
  rw [Nat.add_one_mul] at hends
  omega

/-! ## The image is divided -/

/-- What readers of the image get to see. -/
structure Divided (bytes : Array UInt8) (chunkSize : Nat) (image : Firmware) : Prop where
  count : image.chunkCount.toNat = ⌈(bytes.size / chunkSize : ℚ)⌉₊
  length : image.chunks.length = image.chunkCount.toNat
  /-- A reader comes to an end, with these chunks and no others. -/
  reads : ∀ taken last, image.cursor.Reads taken last ↔
    taken = image.chunks ∧ last = ⟨bytes, chunkSize, bytes.size⟩
  whole : image.chunks.flatten = bytes.toList
  full : ∀ (j : Nat) chunk, image.chunks[j]? = some chunk → j + 1 < image.chunkCount.toNat →
    chunk.length = chunkSize
  last : ∀ chunk, image.chunks.getLast? = some chunk →
    0 < chunk.length ∧ chunk.length ≤ chunkSize
  /-- However often somebody looks, the chunk at the cursor stays the same until
  the cursor is advanced. -/
  current : ∀ uses, (image.cursor.after uses).current? = image.chunks[uses.count .advance]?
  offset : ∀ uses, image.chunkCount.toNat ≤ uses.count .advance →
    (image.cursor.after uses).offset = bytes.size

theorem WellCut.divided (h : image.WellCut) : image.Divided image.bytes image.chunkSize where
  count := by rw [ceil_div _ h.size_pos, h.count_eq]
  length := length_chunks image
  reads := by
    have hall := image.cursor.reads_rest h.size_pos (Nat.zero_le _)
    rw [h.rest_eq] at hall
    intro taken last
    constructor
    · exact fun hreads => hreads.unique hall
    · rintro ⟨rfl, rfl⟩
      exact hall
  whole := h.flatten_chunks
  full := fun j chunk hchunk => (h.length_chunk hchunk).1
  last := by
    intro chunk hlast
    rw [List.getLast?_eq_getElem?] at hlast
    exact (h.length_chunk hlast).2
  current := by
    intro uses
    rw [← h.rest_eq]
    exact image.cursor.current?_after h.size_pos (Nat.zero_le _) uses
  offset := by
    intro uses hall
    rw [Cursor.offset_after _ (Nat.zero_le _)]
    refine Nat.min_eq_right ?_
    show image.bytes.size ≤ 0 + uses.count .advance * image.chunkSize
    rw [Nat.zero_add]
    exact h.le_mul hall

theorem divided_of_build (h : build origin bytes chunkSize key = .ok image) :
    image.Divided bytes chunkSize.toNat := by
  have hcut := wellCut_of_build h
  obtain ⟨count, -, -, -, -, -, rfl⟩ := build_eq_ok h
  exact hcut.divided

/-- With chunks that go in a frame, an image that is not empty is refused as too large exactly
if it has more chunks than can be announced, and one that is built is divided
into its chunks. -/
theorem divided_into_chunks (origin : String) (key : List UInt8) (hsome : 0 < bytes.size)
    (hpos : 1 ≤ chunkSize.toNat) (hmax : chunkSize.toNat ≤ 16384) :
    ((∃ size limit, build origin bytes chunkSize key = .error (.firmwareTooLarge size limit))
      ↔ 2 ^ 32 - 1 < ⌈(bytes.size / chunkSize.toNat : ℚ)⌉₊)
    ∧ ∀ image, build origin bytes chunkSize key = .ok image →
      image.Divided bytes chunkSize.toNat := by
  refine ⟨?_, fun image => divided_of_build⟩
  rw [ceil_div _ hpos]
  exact build_tooLarge_iff hpos hmax hsome

/-- Five bytes in chunks of two. -/
theorem five_bytes_divided :
    let image : Firmware := ⟨#[1, 2, 3, 4, 5], Hmac.mac [1, 2, 3, 4, 5] [], 2, 3⟩
    image.chunks = [[1, 2], [3, 4], [5]] ∧ build "firmware" #[1, 2, 3, 4, 5] 2 [] = .ok image
      ∧ image.Divided #[1, 2, 3, 4, 5] 2 := by
  intro image
  have hbuilt : build "firmware" #[1, 2, 3, 4, 5] 2 [] = .ok image := rfl
  have hsome : 0 < (#[1, 2, 3, 4, 5] : Array UInt8).size := by decide
  have hpos : 1 ≤ (2 : UInt64).toNat := by decide
  have hdivided := divided_into_chunks "firmware" [] hsome hpos (by decide)
  exact ⟨rfl, hbuilt, hdivided.2 image hbuilt⟩

end Firmware

end BoardFlash
