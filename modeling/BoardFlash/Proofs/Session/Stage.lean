import BoardFlash.Session.Machine

/-!
# The steps of a session, seen from its board

`Session.step` has a case for each phase. Seen from the board there are
only four stages (`Session.Stage`), and `Session.Passage` lists what a
step can do between them:

- it touches no queue (`quiet`),
- it throws away a frame that came in too early (`discard`), and is
  `armed` once there is none left (`arm`),
- it puts the frame of the exchange in the outbound queue (`send`),
- it takes a frame that is no answer while it waits (`ignore`),
- it takes an answer, and goes on after an `ack` (`accept`) or a `nack`
  (`refuse`) or comes to its end (`conclude`).

`step_passage` is the inversion of `Session.step` in these terms; what a
session does to the ends of its queues is in `step_mailbox`. Everything
said about traffic between a session and its board rests on these two.
-/

namespace BoardFlash

/-- The types of frames that a session takes for an answer. -/
def FrameType.isAnswer : FrameType → Bool
  | .ack | .nack | .fatalError => true
  | _ => false

namespace Session

/-! ## Where events lead -/

section

variable (now : Instant) (s : Session) (m : Mailbox)

theorem fire_over (x : Exchange) (failure : Option Failure) (notice : Option Notice) :
    s.fire now m x.state (.over failure) notice
      = s.goTo m (.boundary (.done failure false)) notice := by
  unfold Exchange.state
  split <;> rfl

theorem fire_prepare (x : Exchange) (notice : Option Notice) :
    s.fire now m x.state .prepare notice = s.goTo m (.boundary .preparing) notice := by
  unfold Exchange.state
  split <;> rfl

theorem fire_again {x : Exchange} {n : UInt32} (hx : x.purpose = .chunk n) (packet : Frame)
    (refusals : UInt32) (notice : Option Notice) :
    s.fire now m x.state (.again packet refusals) notice
      = s.goTo m (.boundary (.sending (some packet) refusals)) notice := by
  rw [Exchange.state, hx]
  rfl

end

/-! ## Stages -/

/-- How far a session is with its board. -/
inductive Stage where
  /-- No frame of the session is under way. -/
  | idle
  /-- What came in before is gone, and the frame is about to be queued. -/
  | armed (x : Exchange)
  /-- The frame has been queued and its answer is awaited. -/
  | awaiting (x : Exchange)
  /-- Nothing will be sent or received any more. -/
  | closing
  deriving DecidableEq

def Phase.stage : Phase → Stage
  | .waiting => .idle
  | .boundary state => if state.isDone then .closing else .idle
  | .entered state => if state.isDone then .closing else .idle
  | .clearing _ => .idle
  | .beforeSend x => .armed x
  | .placing x => .armed x
  | .beforeAnswer x => .awaiting x
  | .receiving x => .awaiting x
  | .lost _ => .closing
  | .finished .. => .closing
  | .crashed _ => .closing

/-- The stage that the session is in. -/
def stage (s : Session) : Stage := s.phase.stage

@[simp] theorem goTo_session (s : Session) (m : Mailbox) (phase : Phase)
    (notice : Option Notice) : (s.goTo m phase notice).session = { s with phase } := rfl

/-- A session that is over stays as it is. -/
theorem step_of_isOver (now : Instant) {s : Session} (m : Mailbox) (hs : s.isOver = true) :
    (s.step now m).session = s ∧ (s.step now m).mailbox = m := by
  unfold isOver at hs
  unfold step
  split at hs
  · next hp => rw [hp]; exact ⟨by rw [goTo_session, ← hp], rfl⟩
  · next hp => rw [hp]; exact ⟨by rw [goTo_session, ← hp], rfl⟩
  · cases hs

/-! ## What one step does -/

/-- What one step can do to a session and its mailbox. -/
inductive Passage (s : Session) (m : Mailbox) (s' : Session) (m' : Mailbox) : Prop where
  | quiet (stage : s'.stage = s.stage ∨ s'.stage = .closing) (cursor : s'.cursor = s.cursor)
      (inbound : m'.inbound.items = m.inbound.items)
      (outbound : m'.outbound.items = m.outbound.items)
  | discard (before : s.stage = .idle) (after : s'.stage = .idle) (frame : Frame)
      (cursor : s'.cursor = s.cursor)
      (inbound : m.inbound.items = frame :: m'.inbound.items)
      (outbound : m'.outbound.items = m.outbound.items)
  | arm (x : Exchange) (before : s.stage = .idle) (after : s'.stage = .armed x)
      (cursor : s'.cursor = s.cursor) (empty : m.inbound.items = [])
      (inbound : m'.inbound.items = []) (outbound : m'.outbound.items = m.outbound.items)
  | send (x : Exchange) (before : s.stage = .armed x)
      (after : s'.stage = .awaiting x ∨ s'.stage = .closing) (cursor : s'.cursor = s.cursor)
      (inbound : m'.inbound.items = m.inbound.items)
      (outbound : m'.outbound.items = m.outbound.items ++ [x.frame])
  | ignore (x : Exchange) (before : s.stage = .awaiting x) (after : s'.stage = .awaiting x)
      (frame : Frame) (type : frame.type.isAnswer = false) (cursor : s'.cursor = s.cursor)
      (inbound : m.inbound.items = frame :: m'.inbound.items)
      (outbound : m'.outbound.items = m.outbound.items)
  | accept (x : Exchange) (before : s.stage = .awaiting x) (after : s'.stage = .idle)
      (frame : Frame) (type : frame.type = .ack)
      (cursor : s'.cursor = if x.purpose = .request then s.cursor else s.cursor.advance)
      (inbound : m.inbound.items = frame :: m'.inbound.items)
      (outbound : m'.outbound.items = m.outbound.items)
  | refuse (x : Exchange) (before : s.stage = .awaiting x) (after : s'.stage = .idle)
      (frame : Frame) (type : frame.type = .nack) (cursor : s'.cursor = s.cursor)
      (inbound : m.inbound.items = frame :: m'.inbound.items)
      (outbound : m'.outbound.items = m.outbound.items)
  | conclude (x : Exchange) (before : s.stage = .awaiting x) (after : s'.stage = .closing)
      (frame : Frame) (type : frame.type.isAnswer = true) (cursor : s'.cursor = s.cursor)
      (inbound : m.inbound.items = frame :: m'.inbound.items)
      (outbound : m'.outbound.items = m.outbound.items)

/-- The session has become idle or is closing, and has touched no queue. -/
structure Rests (s : Session) (m : Mailbox) (r : Reaction) : Prop where
  stage : r.session.stage = .idle ∨ r.session.stage = .closing
  cursor : r.session.cursor = s.cursor
  inbound : r.mailbox.inbound.items = m.inbound.items
  outbound : r.mailbox.outbound.items = m.outbound.items

theorem Rests.passage {s : Session} {m : Mailbox} {r : Reaction} (h : Rests s m r)
    (hs : s.stage = .idle) : Passage s m r.session r.mailbox :=
  .quiet (h.stage.imp_left fun hr => hr.trans hs.symm) h.cursor h.inbound h.outbound

section

variable (now : Instant) (s : Session) (m : Mailbox)

theorem crash_rests (fault : Fault) : Rests s m (s.crash m fault) := ⟨.inr rfl, rfl, rfl, rfl⟩

theorem fire_rests (state : State) (event : Event) (notice : Option Notice) :
    Rests s m (s.fire now m state event notice) := by
  unfold fire
  split
  · exact crash_rests ..
  · exact ⟨.inr rfl, rfl, rfl, rfl⟩
  · next next _ _ =>
    refine ⟨?_, rfl, rfl, rfl⟩
    cases next <;> simp [stage, Phase.stage, State.isDone]

theorem exchange_rests (purpose : Purpose) (frame : Frame) :
    Rests s m (s.exchange now m purpose frame) := by
  unfold exchange
  split
  · exact crash_rests ..
  · exact ⟨.inl rfl, rfl, rfl, rfl⟩

/-- The work of a state ends in one of three ways. -/
theorem work_cases {P : Reaction → Prop} (crash : ∀ fault, P (s.crash m fault))
    (fire : ∀ state event notice, P (s.fire now m state event notice))
    (exchange : ∀ purpose frame, P (s.exchange now m purpose frame)) (state : State) :
    P (s.work now m state) := by
  unfold work
  cases state with
  | requesting =>
      dsimp only
      split
      · exact crash _
      · exact exchange _ _
  | preparing =>
      dsimp only
      split
      · exact fire _ _ _
      · split
        · exact crash _
        · exact fire _ _ _
  | sending packet refusals =>
      dsimp only
      split
      · exact fire _ _ _
      · split
        · exact crash _
        · exact exchange _ _
  | done failure reported => exact fire _ _ _

theorem work_rests (state : State) : Rests s m (s.work now m state) :=
  work_cases now s m (crash_rests s m) (fire_rests now s m) (exchange_rests now s m) state

theorem unlessOver_passage (x : Exchange) {next : Phase} (hnext : next.stage = s.stage) :
    Passage s m (s.unlessOver now m x next).session (s.unlessOver now m x next).mailbox := by
  unfold unlessOver
  split
  · rw [fire_over]
    exact .quiet (.inr rfl) rfl rfl rfl
  · split
    · rw [fire_over]
      exact .quiet (.inr rfl) rfl rfl rfl
    · exact .quiet (.inl hnext) rfl rfl rfl

end

/-- The frame of the exchange is in the outbound queue `q`. -/
theorem placed_passage {s : Session} {m : Mailbox} {x : Exchange} {q : Queue Frame}
    (hs : s.stage = .armed x) (hq : q.items = m.outbound.items ++ [x.frame]) :
    let r := s.placed { m with outbound := q } x
    Passage s m r.session r.mailbox := by
  dsimp only
  unfold placed
  split
  · split
    · exact .send x hs (.inr rfl) rfl rfl hq
    · exact .send x hs (.inl rfl) rfl rfl hq
  · exact .send x hs (.inl rfl) rfl rfl hq

/-- An answer has been taken from the inbound queue, `q` of which is left. -/
theorem accepted_passage (now : Instant) {s : Session} {m : Mailbox} {x : Exchange}
    {q : Queue Frame} {frame : Frame} (hs : s.stage = .awaiting x) (htype : frame.type = .ack)
    (hq : m.inbound.items = frame :: q.items) :
    let r := s.accepted now { m with inbound := q } x
    Passage s m r.session r.mailbox := by
  dsimp only
  have hanswer : frame.type.isAnswer = true := by rw [htype]; rfl
  unfold accepted
  split
  · next hx =>
    rw [fire_prepare]
    exact .accept x hs rfl frame htype (by simp [hx]) hq rfl
  · next n hx =>
    split
    · exact .conclude x hs rfl frame hanswer rfl hq rfl
    · rw [fire_prepare]
      exact .accept x hs rfl frame htype (by simp [hx]) hq rfl

theorem refused_passage (now : Instant) {s : Session} {m : Mailbox} {x : Exchange}
    {q : Queue Frame} {frame : Frame} (hs : s.stage = .awaiting x) (htype : frame.type = .nack)
    (hq : m.inbound.items = frame :: q.items) :
    let r := s.refused now { m with inbound := q } x
    Passage s m r.session r.mailbox := by
  dsimp only
  have hanswer : frame.type.isAnswer = true := by rw [htype]; rfl
  unfold refused
  split
  · rw [fire_over]
    exact .conclude x hs rfl frame hanswer rfl hq rfl
  · next n hx =>
    split
    · exact .conclude x hs rfl frame hanswer rfl hq rfl
    · rw [fire_again _ _ _ hx]
      exact .refuse x hs rfl frame htype rfl hq rfl

theorem step_passage (now : Instant) (s : Session) (m : Mailbox) :
    Passage s m (s.step now m).session (s.step now m).mailbox := by
  have hstage : s.stage = s.phase.stage := rfl
  unfold step
  split
  · next hp =>
    rw [hp] at hstage
    exact .quiet (.inl hstage.symm) rfl rfl rfl
  · next state hp =>
    rw [hp] at hstage
    split
    · exact .quiet (.inr rfl) rfl rfl rfl
    · exact .quiet (.inl hstage.symm) rfl rfl rfl
  · next state hp =>
    rw [hp] at hstage
    cases state with
    | done failure reported => exact .quiet (.inr rfl) rfl rfl rfl
    | _ => exact (work_rests now s m _).passage hstage
  · next x hp =>
    rw [hp] at hstage
    split
    · next frame inbound hrecv =>
      exact .discard hstage rfl frame rfl (Queue.tryRecv_eq_ok_iff.mp hrecv).1 rfl
    · next hrecv =>
      have hempty : m.inbound.items = [] := by
        cases hitems : m.inbound.items with
        | nil => rfl
        | cons a rest => simp [Queue.tryRecv, hitems] at hrecv
      exact .arm x hstage rfl rfl hempty hempty rfl
  · next x hp =>
    exact unlessOver_passage now s m x (by rw [stage, hp]; rfl)
  · next x hp =>
    rw [hp] at hstage
    split
    · next outbound hsend =>
      refine placed_passage hstage ?_
      rw [(Queue.trySend_eq_ok_iff.mp hsend).2.2]
    · exact .quiet (.inl hstage.symm) rfl rfl rfl
    · exact .quiet (.inr rfl) rfl rfl rfl
  · next x hp =>
    exact unlessOver_passage now s m x (by rw [stage, hp]; rfl)
  · next x hp =>
    rw [hp] at hstage
    split
    · next frame inbound hrecv =>
      have hitems := (Queue.tryRecv_eq_ok_iff.mp hrecv).1
      dsimp only
      split
      · next htype => exact accepted_passage now hstage htype hitems
      · next htype => exact refused_passage now hstage htype hitems
      · next htype =>
        rw [fire_over]
        exact .conclude x hstage rfl frame (by rw [htype]; rfl) rfl hitems rfl
      · next hack hnack hfatal =>
        refine .ignore x hstage rfl frame ?_ rfl hitems rfl
        unfold FrameType.isAnswer
        split <;> first | rfl | contradiction
    · exact .quiet (.inl hstage.symm) rfl rfl rfl
    · exact .quiet (.inr rfl) rfl rfl rfl
  · next x hp =>
    rw [fire_over]
    exact .quiet (.inr rfl) rfl rfl rfl
  · exact .quiet (.inl rfl) rfl rfl rfl
  · exact .quiet (.inl rfl) rfl rfl rfl

/-! ## The ends of the queues -/

/-- The room in the queues, the ends that others hold and the flag are as
before, and so are the session's own ends unless it is over. -/
structure SameEnds (m : Mailbox) (r : Reaction) : Prop where
  inboundCapacity : r.mailbox.inbound.capacity = m.inbound.capacity
  outboundCapacity : r.mailbox.outbound.capacity = m.outbound.capacity
  delivering : r.mailbox.inbound.senderOpen = m.inbound.senderOpen
  collecting : r.mailbox.outbound.receiverOpen = m.outbound.receiverOpen
  cancelled : r.mailbox.cancelled = m.cancelled
  own : r.session.isOver = false → r.mailbox.inbound.receiverOpen = m.inbound.receiverOpen
    ∧ r.mailbox.outbound.senderOpen = m.outbound.senderOpen

section

variable (now : Instant) (s : Session) (m : Mailbox)

theorem goTo_ends (phase : Phase) (notice : Option Notice) :
    SameEnds m (s.goTo m phase notice) :=
  ⟨rfl, rfl, rfl, rfl, rfl, fun _ => ⟨rfl, rfl⟩⟩

theorem crash_ends (fault : Fault) : SameEnds m (s.crash m fault) :=
  ⟨rfl, rfl, rfl, rfl, rfl, fun hover => nomatch hover⟩

theorem fire_ends (state : State) (event : Event) (notice : Option Notice) :
    SameEnds m (s.fire now m state event notice) := by
  unfold fire
  split
  · exact crash_ends ..
  · exact ⟨rfl, rfl, rfl, rfl, rfl, fun hover => nomatch hover⟩
  · exact goTo_ends ..

theorem exchange_ends (purpose : Purpose) (frame : Frame) :
    SameEnds m (s.exchange now m purpose frame) := by
  unfold exchange
  split
  · exact crash_ends ..
  · exact goTo_ends ..

theorem work_ends (state : State) : SameEnds m (s.work now m state) :=
  work_cases now s m (crash_ends s m) (fire_ends now s m) (exchange_ends now s m) state

theorem accepted_ends (x : Exchange) : SameEnds m (s.accepted now m x) := by
  unfold accepted
  split
  · exact fire_ends ..
  · split
    · exact crash_ends ..
    · exact fire_ends ..

theorem refused_ends (x : Exchange) : SameEnds m (s.refused now m x) := by
  unfold refused
  split
  · exact fire_ends ..
  · split
    · exact crash_ends ..
    · exact fire_ends ..

theorem placed_ends (x : Exchange) : SameEnds m (s.placed m x) := by
  unfold placed
  split
  · split
    · exact crash_ends ..
    · exact goTo_ends ..
  · exact goTo_ends ..

theorem unlessOver_ends (x : Exchange) (next : Phase) :
    SameEnds m (s.unlessOver now m x next) := by
  unfold unlessOver
  split
  · exact fire_ends ..
  · split
    · exact fire_ends ..
    · exact goTo_ends ..

end

theorem SameEnds.of_inbound {m : Mailbox} {q : Queue Frame} {r : Reaction}
    (h : SameEnds { m with inbound := q } r)
    (hq : q = { m.inbound with items := q.items }) : SameEnds m r := by
  rw [hq] at h
  exact ⟨h.inboundCapacity, h.outboundCapacity, h.delivering, h.collecting, h.cancelled, h.own⟩

theorem SameEnds.of_outbound {m : Mailbox} {q : Queue Frame} {r : Reaction}
    (h : SameEnds { m with outbound := q } r)
    (hq : q = { m.outbound with items := q.items }) : SameEnds m r := by
  rw [hq] at h
  exact ⟨h.inboundCapacity, h.outboundCapacity, h.delivering, h.collecting, h.cancelled, h.own⟩

/-- A session holds on to its ends of the queues until it is over, and never
touches the other ends. -/
theorem step_mailbox (now : Instant) (s : Session) (m : Mailbox) : SameEnds m (s.step now m) := by
  unfold step
  split
  · exact goTo_ends ..
  · split <;> exact goTo_ends ..
  · exact work_ends ..
  · split
    · next hrecv => exact (goTo_ends ..).of_inbound (Queue.tryRecv_eq_ok_iff.mp hrecv).2
    · exact goTo_ends ..
  · exact unlessOver_ends ..
  · split
    · next outbound hsend =>
      obtain ⟨-, -, hq⟩ := Queue.trySend_eq_ok_iff.mp hsend
      exact (placed_ends ..).of_outbound (by rw [hq])
    · exact goTo_ends ..
    · exact goTo_ends ..
  · exact unlessOver_ends ..
  · split
    · next hrecv =>
      refine SameEnds.of_inbound ?_ (Queue.tryRecv_eq_ok_iff.mp hrecv).2
      dsimp only
      split
      · exact accepted_ends ..
      · exact refused_ends ..
      · exact fire_ends ..
      · exact goTo_ends ..
    · exact goTo_ends ..
    · exact goTo_ends ..
  · exact fire_ends ..
  · exact goTo_ends ..
  · exact goTo_ends ..

end Session

end BoardFlash
