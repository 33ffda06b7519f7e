import BoardFlash.Wire.Frame
import Mathlib.Data.Set.Operations

/-!
# Frames and their encodings

Writing and reading a frame are inverse to each other: what was written
is read back (`decode_encode`), and bytes that are read as a frame are
exactly those that the frame is written as (`encode_of_decode`). So
every frame has one encoding, and nothing else is accepted.

Both directions go through `decode_layout`, which reads bytes of the
right shape: a known type, a length field that announces the payload,
the payload and one byte more. What is left to compare is the checksum.
-/

namespace BoardFlash

namespace Frame

/-! ## The length field -/

/-- Two bytes are the length field of the length that they announce. -/
theorem lengthBytes_announced (high low : UInt8) :
    lengthBytes (announced high low) = [high, low] := by
  have hh := high.toNat_lt
  have hl := low.toNat_lt
  simp only [lengthBytes, announced, Nat.toUInt8_eq, List.cons.injEq, and_true]
  constructor <;> apply UInt8.toNat.inj <;> simp only [UInt8.toNat_ofNat'] <;> omega

theorem payload_lt (f : Frame) : f.payload.length < 65536 :=
  Nat.lt_of_le_of_lt f.payload_le (by decide)

theorem body_eq (f : Frame) :
    f.body = f.source :: f.dest :: f.type.code :: (f.payload.length / 256).toUInt8 ::
      f.payload.length.toUInt8 :: f.payload := rfl

theorem encode_eq (f : Frame) :
    f.encode = f.source :: f.dest :: f.type.code :: (f.payload.length / 256).toUInt8 ::
      f.payload.length.toUInt8 :: (f.payload ++ [Checksum.crc8 f.body]) := rfl

/-! ## Reading bytes of the right shape -/

/-- Bytes with a known type, and with as many bytes behind the header as
it announces, are a frame if their last byte is the checksum of all the
bytes before it. -/
theorem decode_layout {source dest code high low sum : UInt8} {type : FrameType}
    {payload : List UInt8} (htype : FrameType.ofCode? code = some type)
    (hlen : announced high low = payload.length) (hmax : payload.length ≤ maxPayload) :
    decode (source :: dest :: code :: high :: low :: (payload ++ [sum])) =
      if Checksum.crc8 (source :: dest :: code :: high :: low :: payload) = sum then
        .ok ⟨type, source, dest, payload, hmax⟩
      else
        .error (.checksum
          (Checksum.crc8 (source :: dest :: code :: high :: low :: payload)) sum) := by
  obtain ⟨b, bs, hbs⟩ : ∃ b bs, payload ++ [sum] = b :: bs := by
    cases payload with
    | nil => exact ⟨sum, [], rfl⟩
    | cons p ps => exact ⟨p, ps ++ [sum], rfl⟩
  have hlast : (payload ++ [sum]).length = payload.length + 1 := by simp
  have htake : (payload ++ [sum]).take payload.length = payload := by simp
  have hget : (payload ++ [sum])[payload.length]? = some sum := by simp
  rw [hbs] at hlast htake hget ⊢
  obtain ⟨hlt, hget⟩ := List.getElem?_eq_some_iff.mp hget
  have hle : ¬ maxPayload < payload.length := Nat.not_lt.mpr hmax
  simp only [decode, htype, hlen, hle, hlast, htake, hget, dite_false, dite_true]

/-- Only bytes of that shape are read as a frame. -/
theorem layout_of_decode {raw : List UInt8} {f : Frame} (h : decode raw = .ok f) :
    ∃ code high low sum, raw = f.source :: f.dest :: code :: high :: low :: (f.payload ++ [sum])
      ∧ FrameType.ofCode? code = some f.type ∧ announced high low = f.payload.length
      ∧ Checksum.crc8 (f.source :: f.dest :: code :: high :: low :: f.payload) = sum := by
  unfold decode at h
  split at h
  · next source dest code high low b bs =>
    split at h
    · cases h
    · next type htype =>
      dsimp only at h
      split at h
      · cases h
      · next hmax =>
        split at h
        · next hlen =>
          split at h
          · next hsum =>
            obtain rfl := Except.ok.inj h
            have hlen' : ((b :: bs).take (announced high low)).length = announced high low := by
              rw [List.length_take, hlen]
              omega
            refine ⟨code, high, low, _, ?_, htype, hlen'.symm, hsum⟩
            have hsplit := List.take_append_drop (announced high low) (b :: bs)
            have hlast : (b :: bs).drop (announced high low)
                = [(b :: bs)[announced high low]] := by
              rw [List.drop_eq_getElem_cons (by omega), List.drop_eq_nil_of_le (by omega)]
            rw [hlast] at hsplit
            rw [hsplit]
          · cases h
        · cases h
  · cases h

/-! ## Both directions -/

@[simp] theorem decode_encode (f : Frame) : decode f.encode = .ok f := by
  rw [encode_eq, decode_layout (FrameType.ofCode?_code f.type)
    (announced_lengthBytes f.payload_lt) f.payload_le, ← body_eq, if_pos rfl]

theorem encode_of_decode {raw : List UInt8} {f : Frame} (h : decode raw = .ok f) :
    f.encode = raw := by
  obtain ⟨code, high, low, sum, rfl, htype, hlen, hsum⟩ := layout_of_decode h
  obtain rfl := FrameType.code_of_ofCode? htype
  have hfield := lengthBytes_announced high low
  rw [hlen] at hfield
  obtain ⟨hhigh, hlow⟩ : (f.payload.length / 256).toUInt8 = high
      ∧ f.payload.length.toUInt8 = low := by
    simpa [lengthBytes] using hfield
  rw [encode_eq, body_eq, hhigh, hlow, hsum]

theorem decode_iff_encode {raw : List UInt8} {f : Frame} :
    decode raw = .ok f ↔ f.encode = raw :=
  ⟨encode_of_decode, fun h => h ▸ decode_encode f⟩

theorem encode_injective : Function.Injective encode := by
  intro f g h
  have hf := decode_encode f
  rw [h, decode_encode] at hf
  exact (Except.ok.inj hf).symm

/-- A frame can be built from exactly the payloads that are not too long. -/
theorem exists_build_iff {type : FrameType} {source dest : UInt8} {payload : List UInt8} :
    (∃ f, build type source dest payload = .ok f) ↔ payload.length ≤ maxPayload := by
  constructor
  · rintro ⟨f, hf⟩
    obtain ⟨-, -, -, rfl⟩ := build_eq_ok_iff.mp hf
    exact f.payload_le
  · intro h
    exact ⟨⟨type, source, dest, payload, h⟩, dif_pos h⟩

/-- The codec is a bijection between the frames that can be built, one
for each type, pair of ids and payload within the limit, and the bytes
that are accepted. -/
theorem codec_bijective :
    (∀ type source dest payload,
      (∃ f, build type source dest payload = .ok f) ↔ payload.length ≤ maxPayload)
    ∧ (∀ f : Frame, decode f.encode = .ok f ∧ f.encode.length = f.encodedLength
      ∧ f.encodedLength = 5 + f.payload.length + 1)
    ∧ (∀ raw f, decode raw = .ok f ↔
      f.encode = raw ∧ build f.type f.source f.dest f.payload = .ok f)
    ∧ (∀ raw, (∃ f, decode raw = .ok f) ↔ raw ∈ Set.range encode)
    ∧ Function.Injective encode := by
  refine ⟨fun _ _ _ _ => exists_build_iff, fun f => ⟨decode_encode f, length_encode f, rfl⟩,
    fun raw f => ?_, fun raw => ?_, encode_injective⟩
  · have hbuild : build f.type f.source f.dest f.payload = .ok f :=
      build_eq_ok_iff.mpr ⟨rfl, rfl, rfl, rfl⟩
    rw [decode_iff_encode, and_iff_left hbuild]
  · simp only [decode_iff_encode, Set.mem_range]

end Frame

end BoardFlash
