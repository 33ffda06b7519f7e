import BoardFlash.Proofs.Session.Stage

/-!
# What a session sends

A session sends the request and the chunk at its cursor, and nothing
else. `Session.Sound` says so of the frame that a phase holds: a frame
on its way announces the update (`Announces`) or carries the chunk at
the cursor (`Carries`), and a session ends without a failure only when
no chunk is left. Every step keeps it (`step_sound`), whatever the clock
shows and whatever is in the mailbox, because a frame is built from the
cursor and the cursor moves only when the frame is given up.
-/

namespace BoardFlash

namespace Session

/-! ## Frames of a session -/

/-- The frame announces the update of the image to the board. -/
structure Announces (board : UInt8) (image : Firmware) (f : Frame) : Prop where
  type : f.type = .programUpdateRequest
  source : f.source = hostId
  dest : f.dest = board
  payload : f.payload = (UpdateRequest.announce image.chunkCount image.digest).encode

/-- The frame carries the chunk at the cursor to the board. -/
structure Carries (board : UInt8) (cursor : Cursor) (f : Frame) : Prop where
  type : f.type = .programData
  source : f.source = hostId
  dest : f.dest = board
  payload : cursor.current? = some f.payload

section

variable (board : UInt8) (image : Firmware) (cursor : Cursor)

def Exchange.Fits (x : Exchange) : Prop :=
  match x.purpose with
  | .request => Announces board image x.frame
  | .chunk _ => Carries board cursor x.frame

def State.Fits : State → Prop
  | .requesting => True
  | .preparing => True
  | .sending (some packet) _ => Carries board cursor packet
  | .sending none _ => False
  | .done failure _ => failure = none → cursor.current? = none

def Event.Fits : Event → Prop
  | .prepare => True
  | .ready packet => Carries board cursor packet
  | .again packet _ => Carries board cursor packet
  | .over failure => failure = none → cursor.current? = none
  | .exit failure => failure = none → cursor.current? = none

def Phase.Fits : Phase → Prop
  | .waiting => True
  | .boundary state => state.Fits board cursor
  | .entered state => state.Fits board cursor
  | .clearing x => x.Fits board image cursor
  | .beforeSend x => x.Fits board image cursor
  | .placing x => x.Fits board image cursor
  | .beforeAnswer x => x.Fits board image cursor
  | .receiving x => x.Fits board image cursor
  | .lost x => x.Fits board image cursor
  | .finished failure _ => failure = none → cursor.current? = none
  | .crashed _ => True

end

section

variable {board : UInt8} {image : Firmware} {cursor : Cursor}

theorem Exchange.Fits.dest {x : Exchange} (h : x.Fits board image cursor) :
    x.frame.dest = board := by
  unfold Exchange.Fits at h
  split at h <;> exact h.dest

theorem Exchange.Fits.chunk {x : Exchange} {n : UInt32} (h : x.Fits board image cursor)
    (hx : x.purpose = .chunk n) : Carries board cursor x.frame := by
  unfold Exchange.Fits at h
  rwa [hx] at h

theorem Exchange.Fits.request {x : Exchange} (h : x.Fits board image cursor)
    (hx : x.purpose = .request) : Announces board image x.frame := by
  unfold Exchange.Fits at h
  rwa [hx] at h

theorem Exchange.Fits.current?_eq {x : Exchange} (h : x.Fits board image cursor)
    (ht : x.frame.type = .programData) : cursor.current? = some x.frame.payload := by
  cases hp : x.purpose with
  | request => exact absurd ((h.request hp).type.symm.trans ht) (by decide)
  | chunk n => exact (h.chunk hp).payload

theorem Event.fits_over_some (failure : Failure) :
    (Event.over (some failure)).Fits board cursor := fun h => nomatch h

theorem State.Fits.next {state next : State} {event : Event} (he : event.Fits board cursor)
    (hn : state.next? event = some next) : next.Fits board cursor := by
  unfold State.next? at hn
  split at hn
  case h_9 => cases hn
  all_goals
    obtain rfl := Option.some.inj hn
    exact he

end

/-- The session updates the board with the image, its cursor is in the
image, and what the phase holds fits both. -/
structure Sound (board : UInt8) (image : Firmware) (s : Session) : Prop where
  board : s.board = board
  image : s.image = image
  bytes : s.cursor.bytes = s.image.bytes
  chunkSize : s.cursor.chunkSize = s.image.chunkSize
  offset_le : s.cursor.offset ≤ s.cursor.bytes.size
  phase : s.phase.Fits s.board s.image s.cursor

theorem new_sound (board : UInt8) (image : Firmware) (settings : Settings) :
    Sound board image (new board image settings) :=
  ⟨rfl, rfl, rfl, rfl, Nat.zero_le _, trivial⟩

theorem Sound.fits_of_armed {board : UInt8} {image : Firmware} {s : Session} {x : Exchange}
    (h : Sound board image s) (hs : s.stage = .armed x) : x.Fits s.board s.image s.cursor := by
  have hp := h.phase
  unfold stage Phase.stage at hs
  split at hs
  case h_5 heq | h_6 heq =>
    obtain rfl := Stage.armed.inj hs
    rwa [heq] at hp
  all_goals first | cases hs | (split at hs <;> cases hs)

theorem Sound.fits_of_awaiting {board : UInt8} {image : Firmware} {s : Session} {x : Exchange}
    (h : Sound board image s) (hs : s.stage = .awaiting x) :
    x.Fits s.board s.image s.cursor := by
  have hp := h.phase
  unfold stage Phase.stage at hs
  split at hs
  case h_7 heq | h_8 heq =>
    obtain rfl := Stage.awaiting.inj hs
    rwa [heq] at hp
  all_goals first | cases hs | (split at hs <;> cases hs)

/-! ## Every step keeps it -/

section

variable {board : UInt8} {image : Firmware} {s : Session} (m : Mailbox)

theorem Sound.goTo (h : Sound board image s) (phase : Phase)
    (hp : phase.Fits s.board s.image s.cursor) (notice : Option Notice) :
    Sound board image (s.goTo m phase notice).session :=
  ⟨h.board, h.image, h.bytes, h.chunkSize, h.offset_le, hp⟩

theorem Sound.crash (h : Sound board image s) (fault : Fault) :
    Sound board image (s.crash m fault).session :=
  ⟨h.board, h.image, h.bytes, h.chunkSize, h.offset_le, trivial⟩

variable (now : Instant)

theorem Sound.fire (h : Sound board image s) (state : State) (event : Event)
    (he : event.Fits s.board s.cursor) (notice : Option Notice) :
    Sound board image (s.fire now m state event notice).session := by
  unfold Session.fire
  split
  · exact h.crash m _
  · next failure hn =>
    exact ⟨h.board, h.image, h.bytes, h.chunkSize, h.offset_le, State.Fits.next he hn⟩
  · next next _ hn => exact h.goTo m (.boundary next) (State.Fits.next he hn) notice

theorem Sound.exchange (h : Sound board image s) {purpose : Purpose} {frame : Frame}
    (hx : ∀ deadline, Exchange.Fits s.board s.image s.cursor ⟨purpose, frame, deadline⟩) :
    Sound board image (s.exchange now m purpose frame).session := by
  unfold Session.exchange
  split
  · exact h.crash m _
  · exact h.goTo m (.clearing _) (hx _) none

theorem Sound.work (h : Sound board image s) {state : State}
    (hstate : state.Fits s.board s.cursor) :
    Sound board image (s.work now m state).session := by
  unfold Session.work
  cases state with
  | requesting =>
      dsimp only
      split
      · exact h.crash m _
      · next frame hf =>
        obtain ⟨ht, hs, hd, hp⟩ := Frame.build_eq_ok_iff.mp hf
        exact h.exchange m now fun _ => ⟨ht, hs, hd, hp⟩
  | preparing =>
      dsimp only
      split
      · next hnone => exact h.fire m now _ (.over none) (fun _ => hnone) none
      · next chunk hchunk =>
        split
        · exact h.crash m _
        · next packet hf =>
          obtain ⟨ht, hs, hd, hp⟩ := Frame.build_eq_ok_iff.mp hf
          exact h.fire m now _ (.ready packet) ⟨ht, hs, hd, hp ▸ hchunk⟩ none
  | sending packet refusals =>
      dsimp only
      split
      · exact h.fire m now _ _ (Event.fits_over_some _) _
      · cases packet with
        | none => exact h.crash m _
        | some frame => exact h.exchange m now fun _ => hstate
  | done failure reported => exact h.fire m now _ (.exit failure) hstate _

theorem Sound.unlessOver (h : Sound board image s) {x : Exchange} {next : Phase}
    (hn : next.Fits s.board s.image s.cursor) :
    Sound board image (s.unlessOver now m x next).session := by
  unfold Session.unlessOver
  split
  · exact h.fire m now _ _ (Event.fits_over_some _) none
  · split
    · exact h.fire m now _ _ (Event.fits_over_some _) none
    · exact h.goTo m _ hn none

theorem Sound.placed (h : Sound board image s) {x : Exchange}
    (hx : x.Fits s.board s.image s.cursor) :
    Sound board image (s.placed m x).session := by
  unfold Session.placed
  split
  · split
    · exact h.crash m _
    · exact ⟨h.board, h.image, h.bytes, h.chunkSize, h.offset_le, hx⟩
  · exact h.goTo m (.beforeAnswer x) hx none

theorem Sound.accepted (h : Sound board image s) {x : Exchange} :
    Sound board image (s.accepted now m x).session := by
  unfold Session.accepted
  split
  · exact h.fire m now _ .prepare trivial none
  · next n hx =>
    split
    · exact h.crash m _
    · unfold Session.fire
      rw [Exchange.state, hx]
      exact ⟨h.board, h.image, h.bytes, h.chunkSize, Nat.min_le_right _ _, trivial⟩

theorem Sound.refused (h : Sound board image s) {x : Exchange}
    (hx : x.Fits s.board s.image s.cursor) :
    Sound board image (s.refused now m x).session := by
  unfold Session.refused
  split
  · exact h.fire m now _ _ (Event.fits_over_some _) _
  · next n hn =>
    split
    · exact h.crash m _
    · next refusals _ => exact h.fire m now _ (.again x.frame refusals) (hx.chunk hn) _

theorem step_sound (h : Sound board image s) : Sound board image (s.step now m).session := by
  have hp := h.phase
  unfold Session.step
  split
  · exact ⟨h.board, h.image, h.bytes, h.chunkSize, h.offset_le, trivial⟩
  · next state heq =>
    rw [heq] at hp
    split
    · exact h.goTo m (.boundary (.done (some .cancelled) false)) (fun hf => nomatch hf) none
    · exact h.goTo m (.entered state) hp _
  · next state heq =>
    rw [heq] at hp
    exact h.work m now hp
  · next x heq =>
    rw [heq] at hp
    split
    · exact h.goTo _ (.clearing x) hp _
    · exact h.goTo m (.beforeSend x) hp _
  · next x heq =>
    rw [heq] at hp
    exact h.unlessOver m now hp
  · next x heq =>
    rw [heq] at hp
    split
    · exact h.placed _ hp
    · exact h.goTo m (.beforeSend x) hp none
    · exact h.goTo m (.lost x) hp none
  · next x heq =>
    rw [heq] at hp
    exact h.unlessOver m now hp
  · next x heq =>
    rw [heq] at hp
    split
    · dsimp only
      split
      · exact h.accepted _ now
      · exact h.refused _ now hp
      · exact h.fire _ now _ _ (Event.fits_over_some _) none
      · exact h.goTo _ (.beforeAnswer x) hp _
    · exact h.goTo m (.beforeAnswer x) hp none
    · exact h.goTo m (.lost x) hp none
  · exact h.fire m now _ _ (Event.fits_over_some _) none
  · exact h.goTo m s.phase hp none
  · exact h.goTo m s.phase hp none

end

end Session

end BoardFlash
