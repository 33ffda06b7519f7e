import BoardFlash.Proofs.Session.Stage

/-!
# The steps of a session in full

`Session.Course` lists what a step of a session can be: in which phase it is
taken, under which condition, and all that it leaves behind. `step_course` is
the inversion of `Session.step` in these terms. A session breaks down for one
of the reasons in `Breaks`.

Where `Session.Passage` tells a board what it needs to know of a session,
`Course` tells everything, so whatever is claimed of all steps of a session
follows from it by cases.
-/

namespace BoardFlash

namespace Session

/-- The session breaks down in this step; `m'` is the mailbox that it lets go
of. -/
inductive Breaks (now : Instant) (s : Session) (m : Mailbox) : Fault → Mailbox → Prop
  | announcement (e : PayloadTooLarge) (phase : s.phase = .entered .requesting)
      (length : Frame.build .programUpdateRequest hostId s.board
        (UpdateRequest.announce s.image.chunkCount s.image.digest).encode = .error e) :
      Breaks now s m (.payloadTooLarge e.length) m
  | chunk (chunk : List UInt8) (e : PayloadTooLarge) (phase : s.phase = .entered .preparing)
      (chunk_eq : s.cursor.current? = some chunk)
      (length : Frame.build .programData hostId s.board chunk = .error e) :
      Breaks now s m (.payloadTooLarge e.length) m
  | taken (refusals : UInt32) (phase : s.phase = .entered (.sending none refusals))
      (left : refusals < s.maxTransmissions) : Breaks now s m .packetTaken m
  | overdue (state : State) (phase : s.phase = .entered state)
      (sends : state = .requesting ∨ ∃ packet refusals, state = .sending packet refusals)
      (never : now.after? s.responseTimeout = none) : Breaks now s m .deadlineOverflow m
  | placed (x : Exchange) (outbound : Queue Frame) (phase : s.phase = .placing x)
      (sent : m.outbound.trySend x.frame = .ok outbound) (again : x.again = true)
      (most : Word.next? s.retransmissions = none) :
      Breaks now s m .counterOverflow { m with outbound }
  | accepted (x : Exchange) (refusals : UInt32) (frame : Frame) (inbound : Queue Frame)
      (phase : s.phase = .receiving x) (taken : m.inbound.tryRecv = .ok (frame, inbound))
      (type : frame.type = .ack) (purpose : x.purpose = .chunk refusals)
      (most : Word.next? s.chunksSent = none) :
      Breaks now s m .counterOverflow { m with inbound }
  | refused (x : Exchange) (refusals : UInt32) (frame : Frame) (inbound : Queue Frame)
      (phase : s.phase = .receiving x) (taken : m.inbound.tryRecv = .ok (frame, inbound))
      (type : frame.type = .nack) (purpose : x.purpose = .chunk refusals)
      (most : Word.next? refusals = none) : Breaks now s m .counterOverflow { m with inbound }

/-- What a step of a session can be. -/
inductive Course (now : Instant) (s : Session) (m : Mailbox) (r : Reaction) : Prop where
  | start (phase : s.phase = .waiting)
      (result : r = ⟨{ s with started := now, phase := .boundary .requesting }, m, none⟩)
  | stop (state : State) (phase : s.phase = .boundary state) (undone : state.isDone = false)
      (flag : m.cancelled = true)
      (result : r = ⟨{ s with phase := .boundary (.done (some .cancelled) false) }, m, none⟩)
  | enter (state : State) (phase : s.phase = .boundary state)
      (free : m.cancelled = false ∨ state.isDone = true)
      (result : r = ⟨{ s with phase := .entered state }, m, some (s.entryNotice state)⟩)
  | request (frame : Frame) (deadline : Instant) (phase : s.phase = .entered .requesting)
      (built : Frame.build .programUpdateRequest hostId s.board
        (UpdateRequest.announce s.image.chunkCount s.image.digest).encode = .ok frame)
      (due : now.after? s.responseTimeout = some deadline)
      (result : r = ⟨{ s with phase := .clearing ⟨.request, frame, deadline⟩ }, m, none⟩)
  | prepare (chunk : List UInt8) (packet : Frame) (phase : s.phase = .entered .preparing)
      (chunk_eq : s.cursor.current? = some chunk)
      (built : Frame.build .programData hostId s.board chunk = .ok packet)
      (result : r = ⟨{ s with phase := .boundary (.sending (some packet) 0) }, m, none⟩)
  | complete (phase : s.phase = .entered .preparing) (atEnd : s.cursor.current? = none)
      (result : r = ⟨{ s with phase := .boundary (.done none false) }, m, none⟩)
  | send (packet : Frame) (refusals : UInt32) (deadline : Instant)
      (phase : s.phase = .entered (.sending (some packet) refusals))
      (left : refusals < s.maxTransmissions)
      (due : now.after? s.responseTimeout = some deadline)
      (result : r = ⟨{ s with phase := .clearing ⟨.chunk refusals, packet, deadline⟩ }, m, none⟩)
  | exhaust (packet : Option Frame) (refusals : UInt32)
      (phase : s.phase = .entered (.sending packet refusals))
      (spent : s.maxTransmissions ≤ refusals)
      (result : r = ⟨
        { s with phase := .boundary (.done (some (.retriesExhausted refusals)) false) },
        m, some (.exhausted s.cursor.offset refusals)⟩)
  | discard (x : Exchange) (frame : Frame) (inbound : Queue Frame)
      (phase : s.phase = .clearing x) (taken : m.inbound.tryRecv = .ok (frame, inbound))
      (result : r = ⟨{ s with phase := .clearing x }, { m with inbound }, some (.stale frame)⟩)
  | clear (x : Exchange) (phase : s.phase = .clearing x) (empty : m.inbound.items = [])
      (result : r = ⟨{ s with phase := .beforeSend x }, m, some (.announced x.frame)⟩)
  | cancel (x : Exchange) (phase : s.phase = .beforeSend x ∨ s.phase = .beforeAnswer x)
      (flag : m.cancelled = true)
      (result : r = ⟨{ s with phase := .boundary (.done (some .cancelled) false) }, m, none⟩)
  | expire (x : Exchange) (phase : s.phase = .beforeSend x ∨ s.phase = .beforeAnswer x)
      (free : m.cancelled = false) (late : x.deadline.nanos ≤ now.nanos)
      (result : r = ⟨{ s with phase := .boundary (.done (some .timeout) false) }, m, none⟩)
  | trySend (x : Exchange) (phase : s.phase = .beforeSend x) (free : m.cancelled = false)
      (early : now.nanos < x.deadline.nanos)
      (result : r = ⟨{ s with phase := .placing x }, m, none⟩)
  | tryReceive (x : Exchange) (phase : s.phase = .beforeAnswer x) (free : m.cancelled = false)
      (early : now.nanos < x.deadline.nanos)
      (result : r = ⟨{ s with phase := .receiving x }, m, none⟩)
  | place (x : Exchange) (outbound : Queue Frame) (retransmissions : UInt32)
      (phase : s.phase = .placing x) (sent : m.outbound.trySend x.frame = .ok outbound)
      (count : if x.again then Word.next? s.retransmissions = some retransmissions
        else retransmissions = s.retransmissions)
      (result : r = ⟨{ s with retransmissions, phase := .beforeAnswer x },
        { m with outbound }, none⟩)
  | hold (x : Exchange) (phase : s.phase = .placing x)
      (full : m.outbound.trySend x.frame = .error .full)
      (result : r = ⟨{ s with phase := .beforeSend x }, m, none⟩)
  | lose (x : Exchange)
      (closed : s.phase = .placing x ∧ m.outbound.receiverOpen = false
        ∨ s.phase = .receiving x ∧ m.inbound.items = [] ∧ m.inbound.senderOpen = false)
      (result : r = ⟨{ s with phase := .lost x }, m, none⟩)
  | grant (x : Exchange) (frame : Frame) (inbound : Queue Frame) (phase : s.phase = .receiving x)
      (taken : m.inbound.tryRecv = .ok (frame, inbound)) (type : frame.type = .ack)
      (purpose : x.purpose = .request)
      (result : r = ⟨{ s with phase := .boundary .preparing }, { m with inbound }, none⟩)
  | accept (x : Exchange) (refusals : UInt32) (frame : Frame) (inbound : Queue Frame)
      (chunksSent : UInt32) (phase : s.phase = .receiving x)
      (taken : m.inbound.tryRecv = .ok (frame, inbound)) (type : frame.type = .ack)
      (purpose : x.purpose = .chunk refusals)
      (count : Word.next? s.chunksSent = some chunksSent)
      (result : r = ⟨{ s with
          cursor := s.cursor.advance
          bytesSent := s.bytesSent + x.frame.payload.length
          chunksSent
          phase := .boundary .preparing },
        { m with inbound }, none⟩)
  | reject (x : Exchange) (frame : Frame) (inbound : Queue Frame) (phase : s.phase = .receiving x)
      (taken : m.inbound.tryRecv = .ok (frame, inbound)) (type : frame.type = .nack)
      (purpose : x.purpose = .request)
      (result : r = ⟨{ s with phase := .boundary (.done (some .rejected) false) },
        { m with inbound }, some .rejected⟩)
  | refuse (x : Exchange) (refusals refusals' : UInt32) (frame : Frame) (inbound : Queue Frame)
      (phase : s.phase = .receiving x) (taken : m.inbound.tryRecv = .ok (frame, inbound))
      (type : frame.type = .nack) (purpose : x.purpose = .chunk refusals)
      (count : Word.next? refusals = some refusals')
      (result : r = ⟨{ s with phase := .boundary (.sending (some x.frame) refusals') },
        { m with inbound }, some .refused⟩)
  | fail (x : Exchange) (frame : Frame) (inbound : Queue Frame) (phase : s.phase = .receiving x)
      (taken : m.inbound.tryRecv = .ok (frame, inbound)) (type : frame.type = .fatalError)
      (result : r = ⟨{ s with phase := .boundary (.done (some .boardFault) false) },
        { m with inbound }, none⟩)
  | ignore (x : Exchange) (frame : Frame) (inbound : Queue Frame) (phase : s.phase = .receiving x)
      (taken : m.inbound.tryRecv = .ok (frame, inbound)) (type : frame.type.isAnswer = false)
      (result : r = ⟨{ s with phase := .beforeAnswer x },
        { m with inbound }, some (.ignored frame)⟩)
  | await (x : Exchange) (phase : s.phase = .receiving x) (empty : m.inbound.items = [])
      (isOpen : m.inbound.senderOpen = true)
      (result : r = ⟨{ s with phase := .beforeAnswer x }, m, none⟩)
  | giveUp (x : Exchange) (failure : Failure) (phase : s.phase = .lost x)
      (why : failure = if m.cancelled then .cancelled else .disconnected)
      (result : r = ⟨{ s with phase := .boundary (.done (some failure) false) }, m, none⟩)
  | finish (failure : Option Failure) (reported : Bool)
      (phase : s.phase = .entered (.done failure reported))
      (result : r = ⟨{ s with phase := .finished failure (now.since s.started) }, m.release,
        some (.reported failure (now.since s.started))⟩)
  | crash (fault : Fault) (m' : Mailbox) (why : Breaks now s m fault m')
      (result : r = ⟨{ s with phase := .crashed fault }, m'.release, none⟩)
  | idle (ended : s.isOver = true) (result : r = ⟨s, m, none⟩)

section

variable {now : Instant} {s : Session} {m : Mailbox}

theorem work_course {state : State} (hp : s.phase = .entered state) :
    Course now s m (s.work now m state) := by
  unfold work
  cases state with
  | requesting =>
      dsimp only
      split
      · next e hbuilt => exact .crash _ m (.announcement e hp hbuilt) rfl
      · next frame hbuilt =>
        unfold exchange
        split
        · next hnever => exact .crash _ m (.overdue _ hp (.inl rfl) hnever) rfl
        · next deadline hdue => exact .request frame deadline hp hbuilt hdue rfl
  | preparing =>
      dsimp only
      split
      · next hend => exact .complete hp hend rfl
      · next chunk hchunk =>
        split
        · next e hbuilt => exact .crash _ m (.chunk chunk e hp hchunk hbuilt) rfl
        · next packet hbuilt => exact .prepare chunk packet hp hchunk hbuilt rfl
  | sending packet refusals =>
      dsimp only
      split
      · next hspent => exact .exhaust packet refusals hp hspent rfl
      · next hleft =>
        have hlt : refusals < s.maxTransmissions := UInt32.not_le.mp hleft
        split
        · exact .crash _ m (.taken refusals hp hlt) rfl
        · next frame =>
          unfold exchange
          split
          · next hnever =>
            exact .crash _ m (.overdue _ hp (.inr ⟨_, _, rfl⟩) hnever) rfl
          · next deadline hdue => exact .send frame refusals deadline hp hlt hdue rfl
  | done failure reported => exact .finish failure reported hp rfl

theorem unlessOver_course {x : Exchange} {next : Phase}
    (hp : s.phase = .beforeSend x ∨ s.phase = .beforeAnswer x)
    (hnext : m.cancelled = false → now.nanos < x.deadline.nanos →
      Course now s m (s.goTo m next)) : Course now s m (s.unlessOver now m x next) := by
  unfold unlessOver
  rw [fire_over, fire_over]
  split
  · next hflag => exact .cancel x hp hflag rfl
  · next hflag =>
    have hfree : m.cancelled = false := Bool.eq_false_iff.mpr hflag
    split
    · next hlate => exact .expire x hp hfree hlate rfl
    · next hearly => exact hnext hfree (Int.not_le.mp hearly)

theorem placed_course {x : Exchange} {outbound : Queue Frame} (hp : s.phase = .placing x)
    (hsent : m.outbound.trySend x.frame = .ok outbound) :
    Course now s m (s.placed { m with outbound } x) := by
  unfold placed
  split
  · next hagain =>
    split
    · next hmost => exact .crash _ _ (.placed x outbound hp hsent hagain hmost) rfl
    · next n hcount => exact .place x outbound n hp hsent (by rwa [if_pos hagain]) rfl
  · next hagain => exact .place x outbound s.retransmissions hp hsent (by rw [if_neg hagain]) rfl

theorem accepted_course {x : Exchange} {frame : Frame} {inbound : Queue Frame}
    (hp : s.phase = .receiving x) (htaken : m.inbound.tryRecv = .ok (frame, inbound))
    (htype : frame.type = .ack) : Course now s m (s.accepted now { m with inbound } x) := by
  unfold accepted
  split
  · next hpurpose =>
    rw [fire_prepare]
    exact .grant x frame inbound hp htaken htype hpurpose rfl
  · next n hpurpose =>
    split
    · next hmost =>
      exact .crash _ _ (.accepted x n frame inbound hp htaken htype hpurpose hmost) rfl
    · next k hcount =>
      rw [fire_prepare]
      exact .accept x n frame inbound k hp htaken htype hpurpose hcount rfl

theorem refused_course {x : Exchange} {frame : Frame} {inbound : Queue Frame}
    (hp : s.phase = .receiving x) (htaken : m.inbound.tryRecv = .ok (frame, inbound))
    (htype : frame.type = .nack) : Course now s m (s.refused now { m with inbound } x) := by
  unfold refused
  split
  · next hpurpose =>
    rw [fire_over]
    exact .reject x frame inbound hp htaken htype hpurpose rfl
  · next n hpurpose =>
    split
    · next hmost => exact .crash _ _ (.refused x n frame inbound hp htaken htype hpurpose hmost) rfl
    · next k hcount =>
      rw [fire_again _ _ _ hpurpose]
      exact .refuse x n k frame inbound hp htaken htype hpurpose hcount rfl

theorem received_course {x : Exchange} {frame : Frame} {inbound : Queue Frame}
    (hp : s.phase = .receiving x) (htaken : m.inbound.tryRecv = .ok (frame, inbound)) :
    Course now s m
      (match frame.type with
        | .ack => s.accepted now { m with inbound } x
        | .nack => s.refused now { m with inbound } x
        | .fatalError => s.fire now { m with inbound } x.state (.over (some .boardFault))
        | _ => s.goTo { m with inbound } (.beforeAnswer x) (some (.ignored frame))) := by
  split
  · next htype => exact accepted_course hp htaken htype
  · next htype => exact refused_course hp htaken htype
  · next htype =>
    rw [fire_over]
    exact .fail x frame inbound hp htaken htype rfl
  · next hack hnack hfatal =>
    refine .ignore x frame inbound hp htaken ?_ rfl
    unfold FrameType.isAnswer
    split <;> first | rfl | contradiction

end

theorem step_course (now : Instant) (s : Session) (m : Mailbox) :
    Course now s m (s.step now m) := by
  unfold step
  split
  · next hp => exact .start hp rfl
  · next state hp =>
    split
    · next hstop =>
      obtain ⟨hflag, hundone⟩ := Bool.and_eq_true_iff.mp hstop
      exact .stop state hp (by simpa using hundone) hflag rfl
    · next hgo => exact .enter state hp (by simpa [Decidable.imp_iff_not_or] using hgo) rfl
  · next state hp => exact work_course hp
  · next x hp =>
    split
    · next frame inbound htaken => exact .discard x frame inbound hp htaken rfl
    · next hempty => exact .clear x hp (Queue.items_eq_nil_of_refused hempty) rfl
  · next x hp =>
    exact unlessOver_course (.inl hp) fun hfree hearly => .trySend x hp hfree hearly rfl
  · next x hp =>
    split
    · next outbound hsent => exact placed_course hp hsent
    · next hfull => exact .hold x hp hfull rfl
    · next hclosed =>
      exact .lose x (.inl ⟨hp, Queue.trySend_eq_disconnected_iff.mp hclosed⟩) rfl
  · next x hp =>
    exact unlessOver_course (.inr hp) fun hfree hearly => .tryReceive x hp hfree hearly rfl
  · next x hp =>
    split
    · next frame inbound htaken => exact received_course hp htaken
    · next hempty =>
      obtain ⟨hnil, hopen⟩ := Queue.tryRecv_eq_empty_iff.mp hempty
      exact .await x hp hnil hopen rfl
    · next hclosed =>
      exact .lose x (.inr ⟨hp, Queue.tryRecv_eq_disconnected_iff.mp hclosed⟩) rfl
  · next x hp =>
    rw [fire_over]
    exact .giveUp x _ hp rfl rfl
  · next hp => exact .idle (by rw [isOver, hp]) (by rw [hp, goTo, ← hp])
  · next hp => exact .idle (by rw [isOver, hp]) (by rw [hp, goTo, ← hp])

theorem step_board (now : Instant) (s : Session) (m : Mailbox) :
    (s.step now m).session.board = s.board := by
  cases step_course now s m <;> simp_all only

theorem step_responseTimeout (now : Instant) (s : Session) (m : Mailbox) :
    (s.step now m).session.responseTimeout = s.responseTimeout := by
  cases step_course now s m <;> simp_all only

end Session

end BoardFlash
