import BoardFlash.Proofs.Session.Quota

/-!
# No session breaks down by itself

A session breaks down where a state is given an event that it does not take,
where a packet is taken twice, where a chunk is too long for its frame and where
a counter has no room for one more. None of it happens in an image that was
built, as long as the chunks sent again can be counted in a word: each of the
numbers of a session stays below a bound that is known beforehand (`Robust`).
-/

namespace BoardFlash

namespace Session

/-- Nothing of the session is out of range, and it has not broken down. -/
structure Robust (image : Firmware) (limit : UInt32) (s : Session) : Prop where
  whole : ∀ fault, s.phase ≠ .crashed fault
  /-- There is room for one more refusal wherever a chunk is sent. -/
  refusals : s.phase.AtMost limit
  chunksSent : s.chunksSent.toNat ≤ image.chunkCount.toNat
  retransmissions : s.retransmissions.toNat ≤ image.chunkCount.toNat * limit.toNat
  chunkEnd : s.cursor.offset + s.cursor.chunkSize < Word.bound
  /-- The chunk at the cursor lies within the image, and it fits in a frame. -/
  slice : ∀ chunk, s.cursor.current? = some chunk →
    s.cursor.offset + chunk.length = min (s.cursor.offset + s.cursor.chunkSize) s.cursor.bytes.size
    ∧ 0 < chunk.length ∧ chunk.length ≤ maxPayload

theorem Steady.robust {board : UInt8} {image : Firmware} {limit : UInt32} {s : Session}
    (hcut : image.WellCut) (hs : s.Steady board image limit)
    (hword : image.bytes.size + image.chunkSize < Word.bound)
    (hresent : s.retransmissions.toNat ≤ image.chunkCount.toNat * limit.toNat)
    (hwhole : ∀ fault, s.phase ≠ .crashed fault) : s.Robust image limit where
  whole := hwhole
  refusals := hs.refusals
  chunksSent := by
    have hcounted := hs.counted
    omega
  retransmissions := hresent
  chunkEnd := by
    have hoffset := hs.sound.offset_le
    rw [hs.chunkSize_eq]
    rw [hs.bytes_eq] at hoffset
    omega
  slice := by
    intro chunk hcurrent
    obtain ⟨hmore, rfl⟩ := Cursor.current?_eq_some_iff.mp hcurrent
    have hsize := hs.chunkSize_pos hcut
    have hlarge := hcut.size_le
    rw [← hs.chunkSize_eq] at hlarge
    rw [List.length_take, List.length_drop, Array.length_toList]
    omega

end Session

namespace Post

/-- A session that nobody breaks down is whole at any time, and all of its numbers
are in range. -/
theorem never_breaks_down {origin : String} {bytes : Array UInt8} {chunkSize : UInt64}
    {key : List UInt8} {image : Firmware}
    (hbuilt : Firmware.build origin bytes chunkSize key = .ok image) (board : UInt8)
    (settings : Settings)
    (hfew : image.chunkCount.toNat * settings.maxTransmissions.toNat < 4294967296)
    (mailbox : Mailbox) (events : List Event)
    (hunharmed : Post.unharmed ⟨.new board image settings, mailbox⟩ events = true) :
    (Post.run ⟨.new board image settings, mailbox⟩ events).session.Robust image
      settings.maxTransmissions := by
  have hcut := Firmware.wellCut_of_build hbuilt
  have hstart : (Session.new board image settings).Steady board image settings.maxTransmissions :=
    .init hcut board settings
  have hmost := Session.resent_new hcut board settings
  have hresent := resent_le hcut (p := ⟨.new board image settings, mailbox⟩) hstart events
  refine (steady_run hcut hstart events).robust hcut (Firmware.size_add_lt_of_build hbuilt) ?_ ?_
  · exact Nat.le_trans (by omega) (Nat.le_trans hresent (Nat.le_of_eq hmost))
  · intro fault hdown
    obtain ⟨-, hmany⟩ := crash_of_unharmed hcut hstart rfl hunharmed hdown
    exact absurd (hmost ▸ hmany) (Nat.not_le.mpr hfew)

/-- The first chunk is refused and sent again, and then the router is gone. -/
def refusedThenDisconnected : List Event :=
  let steps (n : Nat) : List Event := List.replicate n (.step .origin)
  let comes (type : FrameType) : List Event := [.move (.deliver (.empty type 7 hostId))]
  steps 7 ++ comes .ack ++ steps 10 ++ comes .nack ++ steps 7 ++ .move .stopDelivering :: steps 5

theorem whole_when_disconnected :
    let image : Firmware := ⟨#[1, 2, 3], Hmac.mac [1, 2, 3] [], 2, 2⟩
    let p : Post := ⟨.new 7 image {}, .ofCapacity 3⟩
    Firmware.build "firmware" #[1, 2, 3] 2 [] = .ok image
    ∧ p.unharmed refusedThenDisconnected = true
    ∧ (p.run refusedThenDisconnected).session.outcome?
      = some ⟨7, some .disconnected, .zero, 0, 0, 1⟩
    ∧ (p.run refusedThenDisconnected).session.Robust image 5 := by
  intro image p
  have hbuilt : Firmware.build "firmware" #[1, 2, 3] 2 [] = .ok image := rfl
  have hunharmed : p.unharmed refusedThenDisconnected = true := by decide +kernel
  exact ⟨hbuilt, hunharmed, by decide +kernel,
    never_breaks_down hbuilt 7 {} (by decide) (.ofCapacity 3) refusedThenDisconnected hunharmed⟩

end Post

end BoardFlash
