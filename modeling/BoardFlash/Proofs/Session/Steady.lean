import BoardFlash.Proofs.Cursor
import BoardFlash.Proofs.Session.Post
import BoardFlash.Proofs.Session.Soundness

/-!
# What holds of a session in every run

`Session.Steady` is what a session keeps whatever happens to it: it is sound,
the chunks that it has sent and those that are left are all chunks of the image,
and a chunk is sent only as long as it was refused less often than the limit
says. So there are two ways left in which a session can break down by itself
(`Steady.fault_of_breaks`): there is no such deadline, or it has sent more
frames again than it can count.
-/

namespace BoardFlash

namespace Session

/-- A chunk is sent only as long as it was refused less often than the limit
says. -/
def Phase.AtMost (limit : UInt32) : Phase → Prop
  | .boundary (.sending _ n) | .entered (.sending _ n) => n ≤ limit
  | .clearing x | .beforeSend x | .placing x | .beforeAnswer x | .receiving x | .lost x =>
    ∀ n, x.purpose = .chunk n → n < limit
  | _ => True

/-- What a session keeps in every run. -/
structure Steady (board : UInt8) (image : Firmware) (limit : UInt32) (s : Session) : Prop where
  sound : Sound board image s
  most : s.maxTransmissions = limit
  counted : s.chunksSent.toNat + s.cursor.left = image.chunkCount.toNat
  refusals : s.phase.AtMost limit

section

variable {now : Instant} {s : Session} {m : Mailbox} {r : Reaction}

theorem step_maxTransmissions (now : Instant) (s : Session) (m : Mailbox) :
    (s.step now m).session.maxTransmissions = s.maxTransmissions := by
  cases step_course now s m <;> simp_all only

theorem Course.counted {board : UInt8} {image : Firmware} (h : Course now s m r)
    (hsize : 0 < s.cursor.chunkSize) (hsound : Sound board image s) :
    r.session.chunksSent.toNat + r.session.cursor.left
      = s.chunksSent.toNat + s.cursor.left := by
  cases h with
  | accept x refusals _ _ _ phase _ _ purpose count result =>
      subst result
      have hfits := hsound.phase
      rw [phase] at hfits
      have hchunk := (hfits.chunk purpose).payload
      simp only [Word.toNat_of_next? count, Cursor.left_eq_add_one hsize hchunk]
      omega
  | _ => simp_all only

theorem Course.atMost (h : Course now s m r) (hs : s.phase.AtMost s.maxTransmissions) :
    r.session.phase.AtMost s.maxTransmissions := by
  cases h with
  | idle _ result => exact result ▸ hs
  | lose x closed result =>
      subst result
      rcases closed with ⟨phase, -⟩ | ⟨phase, -⟩
      · rw [phase] at hs
        exact hs
      · rw [phase] at hs
        exact hs
  | enter state phase _ result =>
      subst result
      rw [phase] at hs
      cases state <;> exact hs
  | discard _ _ _ phase _ result | clear _ phase _ result | trySend _ phase _ _ result
  | tryReceive _ phase _ _ result | place _ _ _ phase _ _ result | hold _ phase _ result
  | ignore _ _ _ phase _ _ result | await _ phase _ _ result =>
      subst result
      rw [phase] at hs
      exact hs
  | request _ _ _ _ _ result =>
      subst result
      exact fun n hn => nomatch hn
  | prepare _ _ _ _ _ result =>
      subst result
      exact UInt32.le_iff_toNat_le.mpr (Nat.zero_le _)
  | send _ _ _ _ left _ result =>
      subst result
      rintro n ⟨⟩
      exact left
  | refuse x refusals refusals' _ _ phase _ _ purpose count result =>
      subst result
      rw [phase] at hs
      have hlt := UInt32.lt_iff_toNat_lt.mp (hs refusals purpose)
      rw [← Nat.succ_le_iff, Nat.succ_eq_add_one, ← Word.toNat_of_next? count] at hlt
      exact UInt32.le_iff_toNat_le.mpr hlt
  | start _ result | stop _ _ _ _ result | complete _ _ result | exhaust _ _ _ _ result
  | cancel _ _ _ result | expire _ _ _ _ result | grant _ _ _ _ _ _ _ result
  | accept _ _ _ _ _ _ _ _ _ _ result | reject _ _ _ _ _ _ _ result | fail _ _ _ _ _ _ result
  | giveUp _ _ _ _ result | finish _ _ _ result | crash _ _ _ result =>
      subst result
      trivial

end

namespace Steady

variable {board : UInt8} {image : Firmware} {limit : UInt32} {s : Session}

theorem init (hcut : image.WellCut) (board : UInt8) (settings : Settings) :
    Steady board image settings.maxTransmissions (new board image settings) where
  sound := new_sound board image settings
  most := rfl
  counted := (Nat.zero_add _).trans hcut.count.symm
  refusals := trivial

theorem chunkSize_eq (h : Steady board image limit s) : s.cursor.chunkSize = image.chunkSize := by
  rw [h.sound.chunkSize, h.sound.image]

theorem bytes_eq (h : Steady board image limit s) : s.cursor.bytes = image.bytes := by
  rw [h.sound.bytes, h.sound.image]

theorem chunkSize_pos (h : Steady board image limit s) (hcut : image.WellCut) :
    0 < s.cursor.chunkSize := by
  rw [h.chunkSize_eq]
  exact hcut.size_pos

theorem current?_eq_none (h : Steady board image limit s) (hcut : image.WellCut)
    (hall : s.chunksSent = image.chunkCount) : s.cursor.current? = none := by
  have hcounted := h.counted
  cases hcurrent : s.cursor.current? with
  | none => rfl
  | some chunk =>
      rw [hall, Cursor.left_eq_add_one (h.chunkSize_pos hcut) hcurrent] at hcounted
      omega

/-- A session that ends well has no chunk left. -/
theorem current?_of_finished (h : Steady board image limit s) {elapsed : Duration}
    (hphase : s.phase = .finished none elapsed) : s.cursor.current? = none := by
  have hnone := h.sound.phase
  rw [hphase] at hnone
  exact hnone rfl

theorem chunksSent_of_finished (h : Steady board image limit s) (hcut : image.WellCut)
    {elapsed : Duration} (hphase : s.phase = .finished none elapsed) :
    s.chunksSent = image.chunkCount := by
  have hcounted := h.counted
  rw [← Cursor.length_rest,
    Cursor.rest_of_none (h.chunkSize_pos hcut) (h.current?_of_finished hphase)] at hcounted
  exact UInt32.toNat.inj hcounted

theorem step (h : Steady board image limit s) (hcut : image.WellCut) (now : Instant)
    (m : Mailbox) : Steady board image limit (s.step now m).session where
  sound := step_sound m now h.sound
  most := (step_maxTransmissions now s m).trans h.most
  counted := ((step_course now s m).counted (h.chunkSize_pos hcut) h.sound).trans h.counted
  refusals := h.most ▸ (step_course now s m).atMost (h.most ▸ h.refusals)

theorem crash (h : Steady board image limit s) (m : Mailbox) (fault : Fault) :
    Steady board image limit (s.crash m fault).session where
  sound := h.sound.crash m fault
  most := h.most
  counted := h.counted
  refusals := trivial

/-- Why a session breaks down by itself. -/
theorem fault_of_breaks (h : Steady board image limit s) (hcut : image.WellCut) {now : Instant}
    {m m' : Mailbox} {fault : Fault} (hbreaks : Breaks now s m fault m') :
    (fault = .deadlineOverflow ∧ m' = m ∧ now.after? s.responseTimeout = none
      ∧ ∃ state, s.phase = .entered state ∧ state ≠ .preparing)
    ∨ (fault = .counterOverflow ∧ ∃ x outbound, s.phase = .placing x ∧ x.again = true
      ∧ s.retransmissions.toNat = 4294967295 ∧ m.outbound.trySend x.frame = .ok outbound
      ∧ m' = { m with outbound }) := by
  have hfits := h.sound.phase
  have hwithin := h.refusals
  have hfew (payload : List UInt8) (hle : payload.length ≤ maxPayload) {type : FrameType}
      {dest : UInt8} {e : PayloadTooLarge} : Frame.build type hostId dest payload ≠ .error e := by
    rw [Frame.build, dif_pos hle]
    exact nofun
  cases hbreaks with
  | announcement e phase length =>
      exact absurd length (hfew _ (by rw [UpdateRequest.length_encode]; decide))
  | chunk chunk e phase chunk_eq length =>
      refine absurd length (hfew _ ?_)
      rw [(Cursor.current?_eq_some_iff.mp chunk_eq).2]
      refine Nat.le_trans (List.length_take_le ..) ?_
      rw [h.chunkSize_eq]
      exact hcut.size_le
  | taken refusals phase left =>
      rw [phase] at hfits
      exact hfits.elim
  | overdue state phase sends never =>
      refine .inl ⟨rfl, rfl, never, state, phase, ?_⟩
      rintro rfl
      rcases sends with hsends | ⟨packet, refusals, hsends⟩
      · cases hsends
      · cases hsends
  | placed x outbound phase sent again most =>
      exact .inr ⟨rfl, x, outbound, phase, again, Word.next?_eq_none_iff.mp most, sent, rfl⟩
  | accepted x refusals frame inbound phase taken type purpose most =>
      rw [phase] at hfits
      have hleft := Cursor.left_eq_add_one (h.chunkSize_pos hcut) (hfits.chunk purpose).payload
      have hcounted := h.counted
      have hbound := image.chunkCount.toNat_lt
      rw [Word.next?_eq_none_iff.mp most] at hcounted
      omega
  | refused x refusals frame inbound phase taken type purpose most =>
      rw [phase] at hwithin
      have hlt := UInt32.lt_iff_toNat_lt.mp (hwithin refusals purpose)
      have hbound := limit.toNat_lt
      rw [Word.next?_eq_none_iff.mp most] at hlt
      omega

end Steady

end Session

namespace Post

variable {board : UInt8} {image : Firmware} {limit : UInt32} {p : Post}

theorem steady_apply (hcut : image.WellCut) (h : p.session.Steady board image limit) (e : Event) :
    (p.apply e).session.Steady board image limit := by
  cases e with
  | step now => exact h.step hcut now p.mailbox
  | kill =>
      unfold apply
      dsimp only
      split
      · exact h
      · exact h.crash p.mailbox .killed
  | move change => exact h

theorem steady_run (hcut : image.WellCut) (h : p.session.Steady board image limit)
    (events : List Event) : (p.run events).session.Steady board image limit := by
  induction events generalizing p with
  | nil => exact h
  | cons e events ih => exact ih (steady_apply hcut h e)

end Post

end BoardFlash
