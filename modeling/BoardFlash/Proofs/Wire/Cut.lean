import BoardFlash.Proofs.Wire.RoundTrip

/-!
# Frames in a stream of bytes

Frames follow each other on the link without anything between them.
`Frame.split?` takes the first frame off a stream, by the length that its
header announces, and `Frame.cut` takes off all of them. A stream is
`Whole` if it consists of frames and nothing else; then it is the
encoding of what it is cut into.

Only the header tells where a frame ends. Bytes are `Sized` if there are
as many of them as their header announces; apart from its checksum this
is all that the decoder asks of a frame (`decode_iff_sized`).

A reader gets the stream in pieces. `Expects got missing` says how far it
is with a frame, as the bytes that it has and the number of those that it
asks for next: first the header, then all that the header announces.
`Expects.whole` says that the reader never asks for more than the frame
has, so that what it ends up with is this frame.
-/

namespace BoardFlash

namespace Frame

/-! ## One frame -/

/-- The first frame of the stream and what comes after it. -/
def split? (bytes : List UInt8) : Option (Frame × List UInt8) :=
  match remaining? bytes with
  | none => none
  | some n =>
    match decode (bytes.take (headerLength + n)) with
    | .ok f => some (f, bytes.drop (headerLength + n))
    | .error _ => none

theorem headerLength_lt_length_encode (f : Frame) : headerLength < f.encode.length := by
  rw [length_encode, encodedLength]
  omega

/-- Five bytes are enough to know how many will follow. -/
theorem remaining?_append {got : List UInt8} (hgot : headerLength ≤ got.length)
    (more : List UInt8) : remaining? (got ++ more) = remaining? got := by
  match got, hgot with
  | _ :: _ :: _ :: _ :: _ :: _, _ => rfl
  | [_, _, _, _], h | [_, _, _], h | [_, _], h | [_], h | [], h => simp [headerLength] at h

theorem remaining?_encode (f : Frame) : remaining? f.encode = some (f.payload.length + 1) := by
  have hmax : ¬ maxPayload < f.payload.length := Nat.not_lt.mpr f.payload_le
  rw [encode_eq, remaining?, announced_lengthBytes f.payload_lt, FrameType.ofCode?_code]
  simp [hmax]

theorem split?_eq_some_iff {bytes rest : List UInt8} {f : Frame} :
    split? bytes = some (f, rest) ↔ bytes = f.encode ++ rest := by
  constructor
  · intro h
    unfold split? at h
    split at h
    · cases h
    · next n hn =>
      split at h
      · next g hg =>
        obtain ⟨rfl, rfl⟩ := Prod.mk.inj (Option.some.inj h)
        rw [encode_of_decode hg, List.take_append_drop]
      · cases h
  · rintro rfl
    have hlen : headerLength + (f.payload.length + 1) = f.encode.length := by
      rw [length_encode, encodedLength]
      omega
    have hhead : headerLength ≤ f.encode.length := Nat.le_of_lt f.headerLength_lt_length_encode
    rw [split?, remaining?_append hhead, remaining?_encode]
    dsimp only
    rw [hlen, List.take_left, List.drop_left, decode_encode]

theorem split?_encode_append (f : Frame) (rest : List UInt8) :
    split? (f.encode ++ rest) = some (f, rest) :=
  split?_eq_some_iff.mpr rfl

/-- The frame that the bytes are, if they are one and nothing else. -/
def read? (raw : List UInt8) : Option Frame := (decode raw).toOption

@[simp] theorem read?_encode (f : Frame) : read? f.encode = some f := by
  rw [read?, decode_encode]
  rfl

/-! ## As many bytes as announced -/

/-- There are as many bytes as the header announces. -/
def Sized (raw : List UInt8) : Prop :=
  ∃ n, remaining? (raw.take headerLength) = some n ∧ raw.length = headerLength + n

theorem remaining?_pos {bytes : List UInt8} {n : Nat} (h : remaining? bytes = some n) : 0 < n := by
  unfold remaining? at h
  split at h
  · simp only [Option.ite_none_left_eq_some, Option.some.injEq] at h
    omega
  · cases h

theorem remaining?_take (raw : List UInt8) :
    remaining? (raw.take headerLength) = remaining? raw := by
  by_cases hlen : headerLength ≤ raw.length
  · have htake : headerLength ≤ (raw.take headerLength).length :=
      Nat.le_of_eq (List.length_take_of_le hlen).symm
    rw [← remaining?_append htake (raw.drop headerLength), List.take_append_drop]
  · rw [List.take_of_length_le (by omega)]

theorem sized_iff {raw : List UInt8} :
    Sized raw ↔ remaining? raw = some (raw.length - headerLength) := by
  rw [Sized, remaining?_take]
  constructor
  · rintro ⟨n, hn, hlen⟩
    rw [hn, hlen, Nat.add_sub_cancel_left]
  · intro h
    have hpos := remaining?_pos h
    exact ⟨_, h, by omega⟩

theorem sized_encode (f : Frame) : Sized f.encode := by
  rw [sized_iff, remaining?_encode, length_encode, encodedLength, Nat.add_assoc,
    Nat.add_sub_cancel_left]

/-- Of the faults that bytes may have as a frame the decoder finds only that of
the checksum where there are as many bytes as the header announces. -/
theorem checksum_iff_sized {raw : List UInt8} {e : DecodeError} (h : decode raw = .error e) :
    (∃ computed sent, e = .checksum computed sent) ↔ Sized raw := by
  rw [sized_iff]
  unfold decode at h
  split at h
  · next source dest code high low b bs =>
    split at h
    · next htype =>
      obtain rfl := Except.error.inj h
      simp [remaining?, htype]
    · next type htype =>
      dsimp only at h
      split at h
      · next hmax =>
        obtain rfl := Except.error.inj h
        simp [remaining?, htype, hmax]
      · next hmax =>
        split at h
        · next hlen =>
          split at h
          · cases h
          · obtain rfl := Except.error.inj h
            simp only [List.length_cons] at hlen
            simp [remaining?, htype, hmax, headerLength, hlen]
        · next hlen =>
          obtain rfl := Except.error.inj h
          simp only [List.length_cons] at hlen
          have hother : ¬ announced high low = bs.length := by omega
          simp [remaining?, htype, hmax, headerLength, hother]
  · next hshort =>
    obtain rfl := Except.error.inj h
    refine ⟨fun hsum => by simp at hsum, fun hrem => ?_⟩
    have hpos := remaining?_pos hrem
    rcases raw with _ | ⟨source, _ | ⟨dest, _ | ⟨code, _ | ⟨high, _ | ⟨low, _ | ⟨b, bs⟩⟩⟩⟩⟩⟩
    case cons.cons.cons.cons.cons.cons => exact (hshort _ _ _ _ _ _ _ rfl).elim
    all_goals simp [headerLength] at hpos

/-- The decoder and a reader that sees the header only agree: as many bytes as
their header announces are a frame or fail its checksum, and no others do. -/
theorem decode_iff_sized {raw : List UInt8} :
    ((∃ f, decode raw = .ok f) ∨ ∃ computed sent, decode raw = .error (.checksum computed sent))
      ↔ Sized raw := by
  cases hd : decode raw with
  | ok f =>
      refine iff_of_true (.inl ⟨f, rfl⟩) ?_
      rw [← encode_of_decode hd]
      exact sized_encode f
  | error e => simpa using checksum_iff_sized hd

/-! ## All frames -/

/-- The frames of the stream, up to the first bytes that are none. -/
def cut (bytes : List UInt8) : List Frame :=
  match _h : split? bytes with
  | some (f, rest) => f :: cut rest
  | none => []
termination_by bytes.length
decreasing_by
  rw [split?_eq_some_iff.mp _h, List.length_append]
  have := f.headerLength_lt_length_encode
  omega

@[simp] theorem cut_nil : cut [] = [] := by
  rw [cut]
  split
  · next f rest h =>
    have hlen := congrArg List.length (split?_eq_some_iff.mp h)
    have := f.headerLength_lt_length_encode
    rw [List.length_append, List.length_nil] at hlen
    omega
  · rfl

@[simp] theorem cut_encode_append (f : Frame) (rest : List UInt8) :
    cut (f.encode ++ rest) = f :: cut rest := by
  rw [cut]
  split
  · next g rest' h =>
    rw [split?_encode_append] at h
    obtain ⟨rfl, rfl⟩ := Prod.mk.inj (Option.some.inj h)
    rfl
  · next h =>
    rw [split?_encode_append] at h
    cases h

@[simp] theorem cut_flatMap_encode (fs : List Frame) (rest : List UInt8) :
    cut (fs.flatMap encode ++ rest) = fs ++ cut rest := by
  induction fs with
  | nil => rfl
  | cons f fs ih =>
      rw [List.flatMap_cons, List.append_assoc, cut_encode_append, ih, List.cons_append]

/-- The frame at the front of a stream of frames is the first of them. -/
theorem exists_cons_of_append {f : Frame} {rest : List UInt8} {fs : List Frame}
    (h : f.encode ++ rest = fs.flatMap encode) :
    ∃ more, fs = f :: more ∧ rest = more.flatMap encode := by
  have hcut := cut_flatMap_encode fs []
  rw [List.append_nil, cut_nil, List.append_nil, ← h, cut_encode_append] at hcut
  refine ⟨cut rest, hcut.symm, ?_⟩
  rw [← hcut, List.flatMap_cons] at h
  exact List.append_cancel_left h

/-- The stream consists of frames and nothing else. -/
def Whole (bytes : List UInt8) : Prop := ∃ fs : List Frame, bytes = fs.flatMap encode

namespace Whole

theorem nil : Whole [] := ⟨[], rfl⟩

theorem flatMap_cut {bytes : List UInt8} (h : Whole bytes) :
    (cut bytes).flatMap encode = bytes := by
  obtain ⟨fs, rfl⟩ := h
  have hcut := cut_flatMap_encode fs []
  rw [List.append_nil, cut_nil, List.append_nil] at hcut
  rw [hcut]

theorem cut_append {bytes : List UInt8} (h : Whole bytes) (rest : List UInt8) :
    cut (bytes ++ rest) = cut bytes ++ cut rest := by
  have hcut := cut_flatMap_encode (cut bytes) rest
  rwa [h.flatMap_cut] at hcut

theorem append {a b : List UInt8} (ha : Whole a) (hb : Whole b) : Whole (a ++ b) := by
  obtain ⟨fs, rfl⟩ := ha
  obtain ⟨gs, rfl⟩ := hb
  exact ⟨fs ++ gs, List.flatMap_append.symm⟩

theorem of_frame (f : Frame) : Whole f.encode := ⟨[f], by simp⟩

theorem exists_encode {bytes : List UInt8} (h : Whole bytes) (hne : bytes ≠ []) :
    ∃ (f : Frame) (rest : List UInt8), bytes = f.encode ++ rest ∧ Whole rest := by
  obtain ⟨fs, rfl⟩ := h
  cases fs with
  | nil => exact absurd rfl hne
  | cons f fs => exact ⟨f, fs.flatMap Frame.encode, List.flatMap_cons, fs, rfl⟩

theorem of_encode_append {f : Frame} {rest : List UInt8} (h : Whole (f.encode ++ rest)) :
    Whole rest := by
  have hne : f.encode ++ rest ≠ [] := by
    intro hnil
    have hlen := congrArg List.length hnil
    have := f.headerLength_lt_length_encode
    rw [List.length_append, List.length_nil] at hlen
    omega
  obtain ⟨g, rest', heq, hrest⟩ := exists_encode h hne
  have hsplit := split?_encode_append f rest
  rw [heq, split?_encode_append] at hsplit
  obtain ⟨-, rfl⟩ := Prod.mk.inj (Option.some.inj hsplit)
  exact hrest

end Whole

/-! ## Readers of the stream -/

/-- A reader has `got` so much of a frame and asks for `missing` bytes more:
those of the header first, then as many as the header announces. -/
def Expects (got : List UInt8) (missing : Nat) : Prop :=
  0 < missing ∧ (got.length + missing = headerLength
    ∨ headerLength ≤ got.length ∧ remaining? got = some (got.length + missing - headerLength))

theorem expects_nil : Expects [] headerLength := ⟨by decide, .inl rfl⟩

theorem Expects.more {got bytes : List UInt8} {missing : Nat} (h : Expects got missing)
    (hlt : bytes.length < missing) : Expects (got ++ bytes) (missing - bytes.length) := by
  obtain ⟨-, hheader | ⟨hgot, hrem⟩⟩ := h
  · refine ⟨by omega, .inl ?_⟩
    rw [List.length_append]
    omega
  · refine ⟨by omega, .inr ⟨?_, ?_⟩⟩
    · rw [List.length_append]
      omega
    · rw [remaining?_append hgot, hrem, List.length_append]
      congr 1
      omega

/-- The frame that the reader of a whole stream is in the middle of. -/
theorem Whole.exists_prefix {got rest : List UInt8} (hw : Whole (got ++ rest))
    (hgot : headerLength ≤ got.length) :
    ∃ (f : Frame) (rest' : List UInt8), got ++ rest = f.encode ++ rest'
      ∧ remaining? got = some (f.payload.length + 1) := by
  have hne : got ++ rest ≠ [] := by
    intro hnil
    rw [(List.append_eq_nil_iff.mp hnil).1] at hgot
    exact absurd hgot (by decide)
  obtain ⟨f, rest', heq, -⟩ := hw.exists_encode hne
  refine ⟨f, rest', heq, ?_⟩
  rw [← remaining?_append hgot rest, heq,
    remaining?_append (Nat.le_of_lt f.headerLength_lt_length_encode), remaining?_encode]

section

variable {got bytes rest : List UInt8} {missing : Nat}

/-- The header is complete, and it announces more. -/
theorem Expects.announced {n : Nat} (hheader : got.length = headerLength)
    (hrem : remaining? got = some n) : Expects got n := by
  refine ⟨remaining?_pos hrem, .inr ⟨Nat.le_of_eq hheader.symm, ?_⟩⟩
  rw [hrem, hheader, Nat.add_sub_cancel_left]

/-- All the bytes that were asked for have come, and not for a header. -/
theorem Expects.sized (h : Expects got missing) (hlen : bytes.length = missing)
    (hheader : (got ++ bytes).length ≠ headerLength) : Sized (got ++ bytes) := by
  obtain ⟨hpos, hfirst | ⟨hgot, hrem⟩⟩ := h
  · rw [List.length_append, hlen] at hheader
    exact absurd hfirst hheader
  · rw [sized_iff, remaining?_append hgot, hrem, List.length_append, hlen]

/-- A reader expects more if it has less than a header, or less than the header
announces. -/
theorem exists_expects (h : headerLength ≤ got.length →
    ∃ n, remaining? got = some n ∧ got.length < headerLength + n) :
    ∃ missing, Expects got missing := by
  by_cases hgot : headerLength ≤ got.length
  · obtain ⟨n, hrem, hlt⟩ := h hgot
    refine ⟨headerLength + n - got.length, by omega, .inr ⟨hgot, hrem.trans ?_⟩⟩
    congr 1
    omega
  · exact ⟨headerLength - got.length, by omega, .inl (by omega)⟩

/-- A reader of a part of a frame expects the rest of it, or of its header. -/
theorem exists_expects_of_part {f : Frame} (hfront : got <+: f.encode) (hne : got ≠ f.encode) :
    ∃ missing, Expects got missing := by
  obtain ⟨rest, hrest⟩ := hfront
  refine exists_expects fun hgot => ?_
  have hrem := remaining?_append hgot rest
  have hlen := congrArg List.length hrest
  rw [hrest, remaining?_encode] at hrem
  rw [List.length_append, length_encode, encodedLength] at hlen
  have hpos : 0 < rest.length := by
    refine List.length_pos_iff.mpr fun hnil => hne ?_
    rw [← hrest, hnil, List.append_nil]
  exact ⟨_, hrem.symm, by omega⟩

/-- A reader that expects more also did so when it had less. -/
theorem Expects.front (h : Expects (got ++ rest) missing) : ∃ n, Expects got n := by
  obtain ⟨hpos, hmore⟩ := h
  rw [List.length_append] at hmore
  refine exists_expects fun hgot => ?_
  obtain hheader | ⟨-, hrem⟩ := hmore
  · omega
  · rw [remaining?_append hgot] at hrem
    exact ⟨_, hrem, by omega⟩

/-- The header of a frame in a whole stream announces more. -/
theorem Expects.header (hw : Whole (got ++ bytes ++ rest))
    (hheader : (got ++ bytes).length = headerLength) :
    ∃ n, remaining? (got ++ bytes) = some n ∧ Expects (got ++ bytes) n := by
  obtain ⟨f, -, -, hrem⟩ := hw.exists_prefix (Nat.le_of_eq hheader.symm)
  exact ⟨_, hrem, .announced hheader hrem⟩

/-- What is as long as announced in a whole stream is a frame. -/
theorem Whole.exists_encode_of_sized {raw : List UInt8} (hw : Whole (raw ++ rest))
    (hsized : Sized raw) : ∃ f : Frame, f.encode = raw := by
  have hrem := sized_iff.mp hsized
  obtain ⟨n, -, hlen⟩ := hsized
  obtain ⟨f, rest', heq, hrem'⟩ := hw.exists_prefix (Nat.le_of_add_right_le (Nat.le_of_eq hlen.symm))
  have hpayload := Option.some.inj (hrem.symm.trans hrem')
  refine ⟨f, (List.append_inj_left heq ?_).symm⟩
  rw [length_encode, encodedLength]
  omega

/-- In a whole stream all the bytes that were asked for are a frame, unless they
are a header. -/
theorem Expects.whole (h : Expects got missing) (hw : Whole (got ++ bytes ++ rest))
    (hlen : bytes.length = missing) (hheader : (got ++ bytes).length ≠ headerLength) :
    ∃ f : Frame, f.encode = got ++ bytes :=
  hw.exists_encode_of_sized (h.sized hlen hheader)

end

end Frame

end BoardFlash
