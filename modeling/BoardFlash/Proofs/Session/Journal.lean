import BoardFlash.Proofs.Session.Effort
import BoardFlash.Proofs.Session.Reference
import BoardFlash.Proofs.Session.Steady
import BoardFlash.Proofs.Session.Verdict

/-!
# The journal of a session

A `Journal` is a session with its mailbox and what an observer notes of it: the
frames that it has put in its outbound queue, and a `Window` for each exchange
that is over, with the frames that came in after those from before had been
thrown away. The answer of an exchange is read off its window
(`Window.answer`), so it depends on what came in and in which order and not on
what the session makes of it.

`Post.undisturbed` says that in a run the flag is never set, nobody closes a
queue, and time does not run out before a frame is in its queue. What holds of
a session in such a run is `Session.Fit`, and every event keeps it
(`Fit.apply`).
-/

namespace BoardFlash

/-- An exchange that is over, seen from outside. -/
structure Window where
  /-- The frames that came in since those from before were thrown away. -/
  arrived : List Frame
  /-- Those that are left in the inbound queue. -/
  unread : List Frame
  /-- The session looked at the clock, and the deadline was over. -/
  late : Bool
  deriving DecidableEq

/-- The first answer that came in, unless time ran out. -/
def Window.answer (w : Window) : Answer :=
  if w.late then .silence else (w.arrived.findSome? Frame.answer?).getD .silence

structure Journal where
  post : Post
  /-- All frames that the session has put in its outbound queue. -/
  sent : List Frame := []
  /-- The frames that came in since the session began to throw away what there
  was. -/
  arrived : List Frame := []
  windows : List Window := []
  deriving DecidableEq

namespace Journal

/-- The window that is over with the step of the session to `next`. -/
def closed? (j : Journal) (now : Instant) (next : Post) : Option Window :=
  match j.post.session.phase, next.session.phase with
  | .beforeSend x, .boundary _ | .beforeAnswer x, .boundary _ =>
    some ⟨j.arrived, j.post.mailbox.inbound.items, decide (x.deadline.nanos ≤ now.nanos)⟩
  | .receiving _, .boundary _ => some ⟨j.arrived, next.mailbox.inbound.items, false⟩
  | _, _ => none

/-- After a step of the session. -/
def stepped (j : Journal) (now : Instant) (next : Post) : Journal where
  post := next
  sent := j.sent ++ next.mailbox.outbound.items.drop j.post.mailbox.outbound.items.length
  arrived := match j.post.session.phase with
    | .clearing _ => []
    | _ => j.arrived
  windows := j.windows ++ (j.closed? now next).toList

/-- After something has happened to the mailbox. -/
def moved (j : Journal) (next : Post) : Journal :=
  { j with
    post := next
    arrived := j.arrived ++ next.mailbox.inbound.items.drop j.post.mailbox.inbound.items.length }

def apply (j : Journal) (e : Post.Event) : Journal :=
  match e with
  | .step now => j.stepped now (j.post.apply e)
  | .kill => { j with post := j.post.apply e }
  | .move _ => j.moved (j.post.apply e)

def run (j : Journal) (events : List Post.Event) : Journal := events.foldl apply j

theorem run_append (j : Journal) (before after : List Post.Event) :
    j.run (before ++ after) = (j.run before).run after := List.foldl_append ..

theorem post_run (j : Journal) (events : List Post.Event) :
    (j.run events).post = j.post.run events := by
  induction events generalizing j with
  | nil => rfl
  | cons e events ih =>
      have hpost : (j.apply e).post = j.post.apply e := by cases e <;> rfl
      rw [Post.run_cons, ← hpost]
      exact ih (j.apply e)

/-- The answers to the exchanges that are over. -/
def answers (j : Journal) : List Answer := j.windows.map Window.answer

end Journal

/-! ## Undisturbed runs -/

namespace Post

/-- The session is left alone with its board by this event, and has the time to
queue its frame. -/
def calm (p : Post) : Event → Bool
  | .step now =>
    match p.session.phase with
    | .entered _ => (now.after? p.session.responseTimeout).isSome
    | .beforeSend x => decide (now.nanos < x.deadline.nanos)
    | _ => true
  | .kill => false
  | .move (.deliver _) | .move (.collect _) => true
  | .move _ => false

def undisturbed (p : Post) : List Event → Bool
  | [] => true
  | e :: events => p.calm e && (p.apply e).undisturbed events

theorem undisturbed_append (p : Post) (before after : List Event) :
    p.undisturbed (before ++ after) = (p.undisturbed before && (p.run before).undisturbed after) := by
  induction before generalizing p with
  | nil => rfl
  | cons e before ih => rw [List.cons_append, undisturbed, undisturbed, ih, Bool.and_assoc, run_cons]

end Post

theorem Frame.answer?_eq_none_iff {f : Frame} : f.answer? = none ↔ f.type.isAnswer = false := by
  unfold Frame.answer? FrameType.isAnswer
  cases f.type <;> simp

namespace Session

/-- A chunk is sent only as long as it was refused less often than the limit
says. -/
def Phase.Within (limit : UInt32) : Phase → Prop
  | .boundary (.sending _ n) | .entered (.sending _ n) => n ≤ limit
  | .clearing x | .beforeSend x | .placing x | .beforeAnswer x | .receiving x =>
    ∀ n, x.purpose = .chunk n → n < limit
  | .lost _ => False
  | _ => True

/-- In an exchange the session has taken some of the frames that came in, and
none of them was an answer. -/
def Phase.Waits (arrived inbound : List Frame) : Phase → Prop
  | .beforeSend _ | .placing _ | .beforeAnswer _ | .receiving _ =>
    ∃ read, arrived = read ++ inbound ∧ ∀ f ∈ read, f.answer? = none
  | _ => True

/-- What holds of a session in an undisturbed run. -/
structure Fit (board : UInt8) (image : Firmware) (limit : UInt32) (s : Session) (m : Mailbox)
    (arrived : List Frame) : Prop where
  sound : Sound board image s
  most : s.maxTransmissions = limit
  counted : s.chunksSent.toNat + s.cursor.left = image.chunkCount.toNat
  free : m.cancelled = false
  delivering : m.inbound.senderOpen = true
  collecting : m.outbound.receiverOpen = true
  refusals : s.phase.Within limit
  waits : s.phase.Waits arrived m.inbound.items

section

variable {now : Instant} {s : Session} {m : Mailbox} {r : Reaction}

theorem Phase.within_iff {limit : UInt32} {phase : Phase} :
    phase.Within limit ↔ phase.AtMost limit ∧ ∀ x, phase ≠ .lost x := by
  cases phase with
  | lost x => simp [Within]
  | boundary state | entered state => cases state <;> simp [Within, AtMost]
  | _ => simp [Within, AtMost]

theorem Course.within (h : Course now s m r) (hdelivering : m.inbound.senderOpen = true)
    (hcollecting : m.outbound.receiverOpen = true) (hs : s.phase.Within s.maxTransmissions) :
    r.session.phase.Within s.maxTransmissions := by
  rw [Phase.within_iff] at hs ⊢
  refine ⟨h.atMost hs.1, fun x hlost => ?_⟩
  have hserved := h.served hcollecting hdelivering
  rw [hlost] at hserved
  cases hserved

/-- The frames that the journal has of an exchange after a step. -/
theorem Course.waits {arrived : List Frame} (h : Course now s m r)
    (hs : s.phase.Waits arrived m.inbound.items) :
    r.session.phase.Waits (match s.phase with | .clearing _ => [] | _ => arrived)
      r.mailbox.inbound.items := by
  cases h with
  | idle hover result =>
      subst result
      show s.phase.Waits _ _
      cases hp : s.phase <;> first | trivial | (rw [isOver, hp] at hover; cases hover)
  | clear x phase empty result =>
      subst result
      rw [phase]
      exact ⟨[], by rw [empty, List.nil_append], fun _ hf => absurd hf List.not_mem_nil⟩
  | ignore x frame inbound phase taken type result =>
      subst result
      rw [phase] at hs ⊢
      obtain ⟨read, harrived, hread⟩ := hs
      have hitems := (Queue.tryRecv_eq_ok_iff.mp taken).1
      refine ⟨read ++ [frame], by rw [harrived, hitems, List.append_assoc]; rfl, fun f hf => ?_⟩
      rcases List.mem_append.mp hf with hf | hf
      · exact hread f hf
      · rw [List.mem_singleton.mp hf]
        exact Frame.answer?_eq_none_iff.mpr type
  | trySend _ phase _ _ result | tryReceive _ phase _ _ result | place _ _ _ phase _ _ result
  | hold _ phase _ result | await _ phase _ _ result =>
      subst result
      rw [phase] at hs ⊢
      exact hs
  | start _ result | stop _ _ _ _ result | enter _ _ _ result | request _ _ _ _ _ result
  | prepare _ _ _ _ _ result | send _ _ _ _ _ _ result
  | complete _ _ result | exhaust _ _ _ _ result | discard _ _ _ _ _ result
  | cancel _ _ _ result | expire _ _ _ _ result | lose _ _ result | grant _ _ _ _ _ _ _ result
  | accept _ _ _ _ _ _ _ _ _ _ result | reject _ _ _ _ _ _ _ result
  | refuse _ _ _ _ _ _ _ _ _ _ result | fail _ _ _ _ _ _ result
  | giveUp _ _ _ _ result | finish _ _ _ result | crash _ _ _ result =>
      subst result
      trivial

theorem Fit.steady {board : UInt8} {image : Firmware} {limit : UInt32} {arrived : List Frame}
    (h : Fit board image limit s m arrived) : Steady board image limit s where
  sound := h.sound
  most := h.most
  counted := h.counted
  refusals := (Phase.within_iff.mp h.refusals).1

theorem Fit.step {board : UInt8} {image : Firmware} {limit : UInt32} {arrived : List Frame}
    (hcut : image.WellCut) (h : Fit board image limit s m arrived) (now : Instant) :
    Fit board image limit (s.step now m).session (s.step now m).mailbox
      (match s.phase with | .clearing _ => [] | _ => arrived) where
  sound := (h.steady.step hcut now m).sound
  most := (h.steady.step hcut now m).most
  counted := (h.steady.step hcut now m).counted
  free := (step_mailbox now s m).cancelled.trans h.free
  delivering := (step_mailbox now s m).delivering.trans h.delivering
  collecting := (step_mailbox now s m).collecting.trans h.collecting
  refusals := h.most ▸ (step_course now s m).within h.delivering h.collecting (h.most ▸ h.refusals)
  waits := (step_course now s m).waits h.waits

theorem Phase.Waits.more {phase : Phase} {arrived inbound : List Frame}
    (h : phase.Waits arrived inbound) (more : List Frame) :
    phase.Waits (arrived ++ more) (inbound ++ more) := by
  cases phase with
  | beforeSend x | placing x | beforeAnswer x | receiving x =>
      obtain ⟨read, harrived, hread⟩ := h
      exact ⟨read, by rw [harrived, List.append_assoc], hread⟩
  | _ => trivial

end

end Session

namespace Journal

/-- What holds of a journal of an undisturbed run. -/
def Fit (board : UInt8) (image : Firmware) (limit : UInt32) (j : Journal) : Prop :=
  Session.Fit board image limit j.post.session j.post.mailbox j.arrived

variable {board : UInt8} {image : Firmware} {limit : UInt32} {j : Journal}

theorem Fit.deliver (h : j.Fit board image limit) (f : Frame) :
    (j.apply (.move (.deliver f))).Fit board image limit := by
  have hnext : j.apply (.move (.deliver f))
      = j.moved ⟨j.post.session, j.post.mailbox.apply (.deliver f)⟩ := rfl
  rcases j.post.mailbox.apply_deliver f with hlost | hlast
  · rw [hnext, hlost, Fit, moved, List.drop_length, List.append_nil]
    exact h
  · rw [hnext, hlast, Fit, moved, List.drop_left]
    exact ⟨h.sound, h.most, h.counted, h.free, h.delivering, h.collecting, h.refusals,
      h.waits.more [f]⟩

theorem Fit.collect (h : j.Fit board image limit) (n : Nat) :
    (j.apply (.move (.collect n))).Fit board image limit := by
  have hnext : j.apply (.move (.collect n))
      = j.moved ⟨j.post.session, if j.post.mailbox.outbound.receiverOpen then
          { j.post.mailbox with outbound := (j.post.mailbox.outbound.take n).2 }
        else j.post.mailbox⟩ := rfl
  rw [hnext, if_pos h.collecting, Fit, moved, List.drop_length, List.append_nil]
  exact ⟨h.sound, h.most, h.counted, h.free, h.delivering, h.collecting, h.refusals, h.waits⟩

theorem Fit.apply (hcut : image.WellCut) (h : j.Fit board image limit) {e : Post.Event}
    (hcalm : j.post.calm e = true) : (j.apply e).Fit board image limit := by
  cases e with
  | step now => exact Session.Fit.step hcut h now
  | kill => cases hcalm
  | move move =>
      cases move with
      | deliver f => exact h.deliver f
      | collect n => exact h.collect n
      | _ => cases hcalm

end Journal

end BoardFlash
