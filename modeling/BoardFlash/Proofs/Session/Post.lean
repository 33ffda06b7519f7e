import BoardFlash.Proofs.Session.Course

/-!
# A session on its own

A `Post` is a session with its mailbox, and `Post.Event` all that can happen
to it: the session takes a step or breaks down, or others change the mailbox.

A session reads the clock for three things: when it began, until when it waits
and how long it took. `Session.Alike` leaves these readings out. What a session
does depends on the clock only by what this tells it when it looks
(`Session.glance`), so two sessions that are alike stay alike as long as the
clock tells them the same (`step_alike`). For whole runs this is `run_alike`.
Rounds in which nothing changes, such as those of a session that looks into an
empty queue again and again, may be left out of either run (`Post.Tells`).
-/

namespace BoardFlash

namespace Session

/-! ## Other readings of the clock -/

def Phase.retimed (deadline : Instant) (elapsed : Duration) : Phase → Phase
  | .waiting => .waiting
  | .boundary state => .boundary state
  | .entered state => .entered state
  | .clearing x => .clearing { x with deadline }
  | .beforeSend x => .beforeSend { x with deadline }
  | .placing x => .placing { x with deadline }
  | .beforeAnswer x => .beforeAnswer { x with deadline }
  | .receiving x => .receiving { x with deadline }
  | .lost x => .lost { x with deadline }
  | .finished failure _ => .finished failure elapsed
  | .crashed fault => .crashed fault

/-- The same session with other readings of the clock. -/
def retimed (s : Session) (started deadline : Instant) (elapsed : Duration) : Session :=
  { s with started, phase := s.phase.retimed deadline elapsed }

/-- The sessions differ in nothing but readings of the clock. -/
def Alike (s t : Session) : Prop :=
  ∃ started deadline elapsed, t = s.retimed started deadline elapsed

theorem Phase.exists_retimed_eq (phase : Phase) :
    ∃ deadline elapsed, phase.retimed deadline elapsed = phase := by
  cases phase with
  | clearing x | beforeSend x | placing x | beforeAnswer x | receiving x | lost x =>
      exact ⟨x.deadline, .zero, rfl⟩
  | finished failure elapsed => exact ⟨.origin, elapsed, rfl⟩
  | _ => exact ⟨.origin, .zero, rfl⟩

theorem Alike.refl (s : Session) : s.Alike s := by
  obtain ⟨deadline, elapsed, hsame⟩ := s.phase.exists_retimed_eq
  exact ⟨s.started, deadline, elapsed, by rw [retimed, hsame]⟩

/-- What the clock tells a session that looks at it: that the wait is over, or
that there is no such deadline. -/
def glance (s : Session) (now : Instant) : Bool :=
  match s.phase with
  | .beforeSend x | .beforeAnswer x => decide (x.deadline.nanos ≤ now.nanos)
  | .entered _ => (now.after? s.responseTimeout).isNone
  | _ => false

/-- The reactions leave the same behind, readings of the clock apart. -/
structure Reaction.Alike (r q : Reaction) : Prop where
  session : r.session.Alike q.session
  mailbox : q.mailbox = r.mailbox

section

variable (now now' started deadline : Instant) (elapsed : Duration) (s : Session) (m : Mailbox)

theorem goTo_alike (phase : Phase) (notice notice' : Option Notice) :
    (s.goTo m phase notice).Alike
      ((s.retimed started deadline elapsed).goTo m (phase.retimed deadline elapsed) notice') :=
  ⟨⟨started, deadline, elapsed, rfl⟩, rfl⟩

theorem crash_alike (fault : Fault) :
    (s.crash m fault).Alike ((s.retimed started deadline elapsed).crash m fault) :=
  ⟨⟨started, deadline, elapsed, rfl⟩, rfl⟩

theorem fire_alike (state : State) (event : Event) (notice notice' : Option Notice) :
    (s.fire now m state event notice).Alike
      ((s.retimed started deadline elapsed).fire now' m state event notice') := by
  unfold fire
  split
  · exact crash_alike ..
  · exact ⟨⟨started, deadline, _, rfl⟩, rfl⟩
  · exact ⟨⟨started, deadline, elapsed, rfl⟩, rfl⟩

theorem exchange_alike (purpose : Purpose) (frame : Frame)
    (htold : (now.after? s.responseTimeout).isNone = (now'.after? s.responseTimeout).isNone) :
    (s.exchange now m purpose frame).Alike
      ((s.retimed started deadline elapsed).exchange now' m purpose frame) := by
  have htimeout : (s.retimed started deadline elapsed).responseTimeout = s.responseTimeout := rfl
  unfold exchange
  rw [htimeout]
  cases h : now.after? s.responseTimeout with
  | none =>
      rw [h, Option.isNone_none, eq_comm, Option.isNone_iff_eq_none] at htold
      rw [htold]
      exact crash_alike ..
  | some t =>
      cases h' : now'.after? s.responseTimeout with
      | none =>
          rw [h, h'] at htold
          cases htold
      | some t' => exact ⟨⟨started, t', elapsed, rfl⟩, rfl⟩

theorem work_alike (state : State)
    (htold : (now.after? s.responseTimeout).isNone = (now'.after? s.responseTimeout).isNone) :
    (s.work now m state).Alike ((s.retimed started deadline elapsed).work now' m state) := by
  unfold work
  cases state with
  | requesting =>
      simp only [retimed]
      split
      · exact crash_alike ..
      · exact exchange_alike _ _ _ _ _ _ _ _ _ htold
  | preparing =>
      simp only [retimed]
      split
      · exact fire_alike ..
      · split
        · exact crash_alike ..
        · exact fire_alike ..
  | sending packet refusals =>
      have hlimit : (s.retimed started deadline elapsed).maxTransmissions = s.maxTransmissions :=
        rfl
      dsimp only
      rw [hlimit]
      by_cases hspent : s.maxTransmissions ≤ refusals
      · rw [if_pos hspent, if_pos hspent]
        exact fire_alike ..
      · rw [if_neg hspent, if_neg hspent]
        cases packet with
        | none => exact crash_alike ..
        | some frame => exact exchange_alike _ _ _ _ _ _ _ _ _ htold
  | done failure reported => exact fire_alike ..

theorem unlessOver_alike (x : Exchange) (next : Phase)
    (htold : decide (x.deadline.nanos ≤ now.nanos) = decide (deadline.nanos ≤ now'.nanos)) :
    (s.unlessOver now m x next).Alike
      ((s.retimed started deadline elapsed).unlessOver now' m { x with deadline }
        (next.retimed deadline elapsed)) := by
  unfold unlessOver
  split
  · exact fire_alike ..
  · by_cases hlate : x.deadline.nanos ≤ now.nanos
    · rw [if_pos hlate, if_pos (by simpa [hlate] using htold)]
      exact fire_alike ..
    · rw [if_neg hlate, if_neg (by simpa [hlate] using htold)]
      exact goTo_alike ..

theorem placed_alike (x : Exchange) :
    (s.placed m x).Alike ((s.retimed started deadline elapsed).placed m { x with deadline }) := by
  have hsame : Exchange.again { x with deadline } = x.again := rfl
  unfold placed
  rw [hsame]
  cases x.again with
  | true =>
      simp only [retimed, if_true]
      split
      · exact crash_alike ..
      · exact ⟨⟨started, deadline, elapsed, rfl⟩, rfl⟩
  | false => exact goTo_alike ..

theorem accepted_alike (x : Exchange) :
    (s.accepted now m x).Alike
      ((s.retimed started deadline elapsed).accepted now' m { x with deadline }) := by
  unfold accepted
  simp only [retimed]
  split
  · exact fire_alike ..
  · split
    · exact crash_alike ..
    · next chunksSent _ =>
      exact fire_alike now now' started deadline elapsed { s with
        cursor := s.cursor.advance
        bytesSent := s.bytesSent + x.frame.payload.length
        chunksSent } m _ _ _ _

theorem refused_alike (x : Exchange) :
    (s.refused now m x).Alike
      ((s.retimed started deadline elapsed).refused now' m { x with deadline }) := by
  unfold refused
  simp only [retimed]
  split
  · exact fire_alike ..
  · split
    · exact crash_alike ..
    · exact fire_alike ..

end

/-- Sessions that are alike stay alike if the clock tells them the same. -/
theorem step_alike {s t : Session} (h : s.Alike t) {now now' : Instant}
    (htold : s.glance now = t.glance now') (m : Mailbox) :
    (s.step now m).Alike (t.step now' m) := by
  obtain ⟨started, deadline, elapsed, rfl⟩ := h
  have hphase : (s.retimed started deadline elapsed).phase = s.phase.retimed deadline elapsed := rfl
  rw [glance, glance, hphase] at htold
  unfold step
  rw [hphase]
  cases hp : s.phase with
  | waiting => exact ⟨⟨now', deadline, elapsed, rfl⟩, rfl⟩
  | boundary state =>
      dsimp only [Phase.retimed]
      split
      · exact goTo_alike ..
      · exact goTo_alike ..
  | entered state =>
      rw [hp] at htold
      exact work_alike _ _ _ _ _ _ _ _ htold
  | clearing x =>
      dsimp only [Phase.retimed]
      split
      · exact goTo_alike ..
      · exact goTo_alike ..
  | beforeSend x =>
      rw [hp] at htold
      exact unlessOver_alike _ _ _ _ _ _ _ x (.placing x) htold
  | placing x =>
      dsimp only [Phase.retimed]
      split
      · exact placed_alike ..
      · exact goTo_alike ..
      · exact goTo_alike ..
  | beforeAnswer x =>
      rw [hp] at htold
      exact unlessOver_alike _ _ _ _ _ _ _ x (.receiving x) htold
  | receiving x =>
      dsimp only [Phase.retimed]
      split
      · split
        · exact accepted_alike ..
        · exact refused_alike ..
        · exact fire_alike ..
        · exact goTo_alike ..
      · exact goTo_alike ..
      · exact goTo_alike ..
  | lost x =>
      dsimp only [Phase.retimed]
      exact fire_alike ..
  | finished failure took =>
      exact goTo_alike started deadline elapsed s m (.finished failure took) ..
  | crashed fault => exact goTo_alike started deadline elapsed s m (.crashed fault) ..

theorem Alike.isOver {s t : Session} (h : s.Alike t) : t.isOver = s.isOver := by
  obtain ⟨started, deadline, elapsed, rfl⟩ := h
  simp only [Session.isOver, retimed]
  cases s.phase <;> rfl

end Session

/-- The outcome apart from the time it took. -/
def Outcome.untimed (o : Outcome) : Outcome := { o with elapsed := .zero }

theorem Session.Alike.outcome {s t : Session} (h : s.Alike t) :
    t.outcome?.map Outcome.untimed = s.outcome?.map Outcome.untimed := by
  obtain ⟨started, deadline, elapsed, rfl⟩ := h
  simp only [Session.outcome?, Session.retimed]
  cases s.phase <;> rfl

/-- The frame that the session is about to send. -/
def Session.Notice.frame? : Session.Notice → Option Frame
  | .announced f => some f
  | _ => none

/-! ## Runs of a single session -/

/-- A session with its mailbox. -/
@[ext]
structure Post where
  session : Session
  mailbox : Mailbox
  deriving DecidableEq

namespace Post

inductive Event where
  /-- The session takes its next step. -/
  | step (now : Instant)
  /-- The session breaks down, unless it is over. -/
  | kill
  | move (move : Mailbox.Move)
  deriving DecidableEq

/-- The session does it, and not somebody else. -/
def Event.isOwn : Event → Bool
  | .step _ | .kill => true
  | .move _ => false

def ofReaction (r : Session.Reaction) : Post := ⟨r.session, r.mailbox⟩

def apply (p : Post) : Event → Post
  | .step now => ofReaction (p.session.step now p.mailbox)
  | .kill => if p.session.isOver then p else ofReaction (p.session.crash p.mailbox .killed)
  | .move move => { p with mailbox := p.mailbox.apply move }

def run (p : Post) (events : List Event) : Post := events.foldl apply p

theorem run_cons (p : Post) (e : Event) (events : List Event) :
    p.run (e :: events) = (p.apply e).run events := rfl

theorem run_append (p : Post) (before after : List Event) :
    p.run (before ++ after) = (p.run before).run after := List.foldl_append ..

theorem apply_kill_of_over {p : Post} (hover : p.session.isOver = true) : p.apply .kill = p :=
  if_pos hover

theorem apply_kill_of_live {p : Post} (hlive : p.session.isOver = false) :
    p.apply .kill = ofReaction (p.session.crash p.mailbox .killed) :=
  if_neg (by rw [hlive]; exact Bool.false_ne_true)

/-- While the session does nothing itself it stays as it is, and the frames to
its board are only taken away. -/
theorem run_of_moves (p : Post) {events : List Event} (hmoves : ∀ e ∈ events, e.isOwn = false) :
    (p.run events).session = p.session
    ∧ (p.run events).mailbox.outbound.items <:+ p.mailbox.outbound.items := by
  induction events generalizing p with
  | nil => exact ⟨rfl, List.suffix_refl _⟩
  | cons e events ih =>
      obtain ⟨hsession, hqueue⟩ := ih (p.apply e) fun e he => hmoves e (List.mem_cons_of_mem _ he)
      have hfirst := hmoves e List.mem_cons_self
      cases e with
      | step | kill => cases hfirst
      | move change =>
          refine ⟨hsession, hqueue.trans ?_⟩
          cases change with
          | deliver f =>
              have hsame := (p.mailbox.apply_deliver_items f).1
              exact ⟨[], congrArg Queue.items hsame⟩
          | collect n =>
              show (p.mailbox.apply (.collect n)).outbound.items <:+ _
              unfold Mailbox.apply
              dsimp only
              split
              · exact List.drop_suffix n _
              · exact List.suffix_refl _
          | cancel | stopDelivering | stopCollecting => exact List.suffix_refl _

/-! ## What a session tells -/

/-- What the session tells of the event. -/
def notice? (p : Post) : Event → Option Session.Notice
  | .step now => (p.session.step now p.mailbox).notice
  | .kill | .move _ => none

/-- What the session tells in a run. -/
def notices (p : Post) : List Event → List Session.Notice
  | [] => []
  | e :: events => (p.notice? e).toList ++ (p.apply e).notices events

theorem notices_append (p : Post) (before after : List Event) :
    p.notices (before ++ after) = p.notices before ++ (p.run before).notices after := by
  induction before generalizing p with
  | nil => rfl
  | cons e before ih => rw [List.cons_append, notices, notices, ih, List.append_assoc, run_cons]

/-- A session that is over tells nothing. -/
theorem notice?_of_isOver {p : Post} (hover : p.session.isOver = true) (e : Event) :
    p.notice? e = none := by
  cases e with
  | step now =>
      unfold Session.isOver at hover
      unfold notice? Session.step
      split at hover
      · next hphase => rw [hphase]; rfl
      · next hphase => rw [hphase]; rfl
      · cases hover
  | kill | move => rfl

/-- The frame that the session announces in the event. -/
def announces? (p : Post) (e : Event) : Option Frame := (p.notice? e).bind Session.Notice.frame?

/-- The frames that the session announces in a run. -/
def announced (p : Post) (events : List Event) : List Frame :=
  (p.notices events).filterMap Session.Notice.frame?

theorem announced_append (p : Post) (before after : List Event) :
    p.announced (before ++ after) = p.announced before ++ (p.run before).announced after := by
  rw [announced, notices_append, List.filterMap_append]
  rfl

theorem announced_singleton (p : Post) (e : Event) :
    p.announced [e] = (p.announces? e).toList := by
  rw [announced, notices, notices, List.append_nil, announces?]
  cases p.notice? e with
  | none => rfl
  | some n => cases hframe : n.frame? <;> simp [hframe]

theorem announced_cons (p : Post) (e : Event) (events : List Event) :
    p.announced (e :: events) = (p.announces? e).toList ++ (p.apply e).announced events := by
  rw [← List.singleton_append, announced_append, announced_singleton]
  rfl

/-! ## Posts that are told the same -/

/-- The posts differ in nothing but readings of the clock. -/
structure Alike (p q : Post) : Prop where
  session : p.session.Alike q.session
  mailbox : q.mailbox = p.mailbox

theorem Alike.refl (p : Post) : p.Alike p := ⟨Session.Alike.refl _, rfl⟩

/-- Events of two posts that tell them the same: step for step the clock does,
and whatever else happens is the same and happens at the same point. Events
that leave a post as it is may be left out. -/
inductive Tells : Post → Post → List Event → List Event → Prop
  | nil {p q : Post} : Tells p q [] []
  | step {p q : Post} {now now' : Instant} {events events' : List Event}
      (told : p.session.glance now = q.session.glance now')
      (rest : Tells (p.apply (.step now)) (q.apply (.step now')) events events') :
      Tells p q (.step now :: events) (.step now' :: events')
  | kill {p q : Post} {events events' : List Event}
      (rest : Tells (p.apply .kill) (q.apply .kill) events events') :
      Tells p q (.kill :: events) (.kill :: events')
  | move {p q : Post} {move : Mailbox.Move} {events events' : List Event}
      (rest : Tells (p.apply (.move move)) (q.apply (.move move)) events events') :
      Tells p q (.move move :: events) (.move move :: events')
  | idle {p q : Post} {round events events' : List Event} (still : p.run round = p)
      (rest : Tells p q events events') : Tells p q (round ++ events) events'
  | idle_right {p q : Post} {round events events' : List Event} (still : q.run round = q)
      (rest : Tells p q events events') : Tells p q events (round ++ events')

theorem apply_step_alike {p q : Post} (h : p.Alike q) {now now' : Instant}
    (htold : p.session.glance now = q.session.glance now') :
    (p.apply (.step now)).Alike (q.apply (.step now')) := by
  obtain ⟨s, m⟩ := p
  obtain ⟨t, m'⟩ := q
  obtain ⟨hs, rfl⟩ := h
  obtain ⟨hstepped, hleft⟩ := Session.step_alike hs htold m'
  exact ⟨hstepped, hleft⟩

theorem apply_kill_alike {p q : Post} (h : p.Alike q) : (p.apply .kill).Alike (q.apply .kill) := by
  obtain ⟨s, m⟩ := p
  obtain ⟨t, m'⟩ := q
  obtain ⟨hs, rfl⟩ := h
  dsimp only at hs
  dsimp only [apply]
  rw [hs.isOver]
  split
  · exact ⟨hs, rfl⟩
  · obtain ⟨started, deadline, elapsed, rfl⟩ := hs
    obtain ⟨hcrashed, hreleased⟩ := Session.crash_alike started deadline elapsed s m' .killed
    exact ⟨hcrashed, hreleased⟩

/-- Posts that are alike stay alike as long as they are told the same. -/
theorem run_alike {p q : Post} {events events' : List Event} (htold : Tells p q events events')
    (h : p.Alike q) : (p.run events).Alike (q.run events') := by
  induction htold with
  | nil => exact h
  | step told rest ih => exact ih (apply_step_alike h told)
  | kill rest ih => exact ih (apply_kill_alike h)
  | move rest ih =>
      obtain ⟨hs, hm⟩ := h
      exact ih ⟨hs, by rw [apply, apply, hm]⟩
  | idle still rest ih =>
      rw [run_append, still]
      exact ih h
  | idle_right still rest ih =>
      rw [run_append, still]
      exact ih h

/-! ## Posts whose session breaks down -/

theorem board_run (p : Post) (events : List Event) :
    (p.run events).session.board = p.session.board := by
  induction events generalizing p with
  | nil => rfl
  | cons e events ih =>
      rw [run_cons, ih]
      cases e with
      | step now => exact Session.step_board now p.session p.mailbox
      | kill =>
          show (if _ then _ else _ : Post).session.board = _
          split <;> rfl
      | move move => rfl

theorem session_run_of_isOver {p : Post} (hover : p.session.isOver = true) (events : List Event) :
    (p.run events).session = p.session := by
  induction events generalizing p with
  | nil => rfl
  | cons e events ih =>
      have hsame : (p.apply e).session = p.session := by
        cases e with
        | step now => exact (Session.step_of_isOver now p.mailbox hover).1
        | kill => rw [apply, if_pos hover]
        | move move => rfl
      rw [run_cons, ih (hsame ▸ hover), hsame]

theorem notices_of_isOver {p : Post} (hover : p.session.isOver = true) (events : List Event) :
    p.notices events = [] := by
  induction events generalizing p with
  | nil => rfl
  | cons e events ih =>
      have hnext : (p.apply e).session = p.session := session_run_of_isOver hover [e]
      rw [notices, notice?_of_isOver hover, ih (hnext ▸ hover)]
      rfl

/-- The session broke down before it was over. -/
def Struck (p : Post) (events : List Event) : Prop :=
  ∃ before after, events = before ++ .kill :: after ∧ (p.run before).session.isOver = false

/-- All events but the breaking down. -/
def unhurt (events : List Event) : List Event := events.filter (· ≠ .kill)

theorem Struck.outcome {p : Post} {events : List Event} (h : p.Struck events) :
    (p.run events).session.outcome? = some (.aborted p.session.board) := by
  obtain ⟨before, after, rfl, hlive⟩ := h
  have hdown : ((p.run before).apply .kill).session
      = { (p.run before).session with phase := .crashed .killed } := by
    rw [apply, hlive]
    rfl
  have hover : ((p.run before).apply .kill).session.isOver = true := by rw [hdown]; rfl
  rw [run_append, run_cons, session_run_of_isOver hover, hdown, ← p.board_run before]
  rfl

/-- A session that does not break down before its end never hears of it. -/
theorem run_unhurt {p : Post} {events : List Event} (h : ¬ p.Struck events) :
    p.run (unhurt events) = p.run events := by
  induction events generalizing p with
  | nil => rfl
  | cons e events ih =>
      have hrest : ¬ (p.apply e).Struck events := by
        rintro ⟨before, after, rfl, hlive⟩
        exact h ⟨e :: before, after, rfl, hlive⟩
      by_cases he : e = .kill
      · subst he
        have hover : p.session.isOver = true := by
          cases hlive : p.session.isOver with
          | false => exact absurd ⟨[], events, rfl, hlive⟩ h
          | true => rfl
        have hsame : p.apply .kill = p := if_pos hover
        rw [hsame] at hrest
        rw [unhurt, List.filter_cons_of_neg (by simp), run_cons, hsame]
        exact ih hrest
      · rw [unhurt, List.filter_cons_of_pos (by simpa using he), run_cons, run_cons]
        exact ih hrest

end Post

end BoardFlash
