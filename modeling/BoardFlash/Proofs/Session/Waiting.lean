import BoardFlash.Proofs.Session.Post

/-!
# How a wait is left

In an exchange a session waits twice: with its frame for room in the outbound
queue (`Phase.sends?`), and for an answer (`Phase.awaits?`). What puts an end to a
wait is in the surroundings of the session. A frame gets away if there is room or if
nobody takes frames any more (`Mailbox.Passable`). The answer is found if it is in the
inbound queue, and its absence if nobody puts frames there any more (`Mailbox.Decided`).
The flag and the deadline end both waits.

None of this is taken back by others, and a session that goes on with its steps gets
nearer to it: it tries the queue with every other step (`Phase.heeds`), and each frame
in front of the answer is out of the way after one try (`Mailbox.ahead`).
-/

namespace BoardFlash

namespace Mailbox

/-- There is room for one more frame, or nobody takes frames any more. -/
def Passable (m : Mailbox) : Prop :=
  m.outbound.items.length < m.outbound.capacity ∨ m.outbound.receiverOpen = false

/-- An answer is in the inbound queue, or none will come any more. -/
def Decided (m : Mailbox) : Prop :=
  (∃ f ∈ m.inbound.items, f.type.isAnswer = true) ∨ m.inbound.senderOpen = false

/-- The frames in front of the first answer; all of them if there is none. -/
def ahead (m : Mailbox) : List Frame := m.inbound.items.takeWhile fun f => !f.type.isAnswer

variable {m : Mailbox}

theorem apply_deliver_of_closed (h : m.inbound.senderOpen = false) (f : Frame) :
    m.apply (.deliver f) = m := by
  simp [apply, deliver?, h]

theorem apply_collect (m : Mailbox) (n : Nat) :
    (m.apply (.collect n)).inbound = m.inbound
    ∧ ∃ k, (m.apply (.collect n)).outbound
      = { m.outbound with items := m.outbound.items.drop k } := by
  unfold apply
  dsimp only
  split
  · exact ⟨rfl, n, rfl⟩
  · exact ⟨rfl, 0, rfl⟩

/-- Nobody but the session puts frames in the outbound queue. -/
theorem Passable.apply (h : m.Passable) (move : Move) : (m.apply move).Passable := by
  cases move with
  | deliver f =>
      rw [Passable, (m.apply_deliver_items f).1]
      exact h
  | collect n =>
      obtain ⟨-, k, houtbound⟩ := m.apply_collect n
      rw [Passable, houtbound]
      exact h.imp_left (Nat.lt_of_le_of_lt (List.drop_sublist k _).length_le)
  | cancel | stopDelivering => exact h
  | stopCollecting => exact .inr rfl

/-- Nobody but the session takes frames out of the inbound queue. -/
theorem Decided.apply (h : m.Decided) (move : Move) : (m.apply move).Decided := by
  cases move with
  | deliver f =>
      rcases h with ⟨g, hg, hanswer⟩ | hclosed
      · rcases m.apply_deliver f with hlost | hlast
        · rw [hlost]
          exact .inl ⟨g, hg, hanswer⟩
        · rw [hlast]
          exact .inl ⟨g, List.mem_append_left [f] hg, hanswer⟩
      · rw [apply_deliver_of_closed hclosed]
        exact .inr hclosed
  | collect n =>
      rw [Decided, (m.apply_collect n).1]
      exact h
  | cancel | stopCollecting => exact h
  | stopDelivering => exact .inr rfl

/-- Where it is decided what is found, what comes in later is behind it. -/
theorem Decided.ahead_apply (h : m.Decided) (move : Move) : (m.apply move).ahead = m.ahead := by
  cases move with
  | deliver f =>
      rcases h with ⟨g, hg, hanswer⟩ | hclosed
      · rcases m.apply_deliver f with hlost | hlast
        · rw [hlost]
        · rw [hlast, ahead, ahead, List.takeWhile_append, if_neg]
          intro hall
          have hnone := List.all_takeWhile (l := m.inbound.items) (p := fun f => !f.type.isAnswer)
          rw [(List.takeWhile_prefix _).eq_of_length hall] at hnone
          have hother := List.all_eq_true.mp hnone g hg
          rw [hanswer] at hother
          cases hother
      · rw [apply_deliver_of_closed hclosed]
  | collect n => rw [ahead, (m.apply_collect n).1, ahead]
  | cancel | stopDelivering | stopCollecting => rfl

end Mailbox

/-- A flag that is set stays set. -/
theorem Post.cancelled_apply {p : Post} (hflag : p.mailbox.cancelled = true) (e : Post.Event) :
    (p.apply e).mailbox.cancelled = true := by
  cases e with
  | step now => exact (Session.step_mailbox now p.session p.mailbox).cancelled.trans hflag
  | kill =>
      unfold apply
      dsimp only
      split
      · exact hflag
      · exact hflag
  | move change =>
      cases change with
      | deliver f =>
          show (p.mailbox.apply (.deliver f)).cancelled = true
          rcases p.mailbox.apply_deliver f with hlost | hlast
          · rw [hlost]
            exact hflag
          · rw [hlast]
            exact hflag
      | collect n =>
          show Mailbox.cancelled (if _ then _ else _) = true
          split
          · exact hflag
          · exact hflag
      | cancel => rfl
      | stopDelivering | stopCollecting => exact hflag

namespace Session

/-- The exchange whose frame the session wants to send. -/
def Phase.sends? : Phase → Option Exchange
  | .beforeSend x | .placing x => some x
  | _ => none

/-- The exchange whose answer the session waits for. -/
def Phase.awaits? : Phase → Option Exchange
  | .beforeAnswer x | .receiving x => some x
  | _ => none

theorem Phase.awaits?_eq_some_iff {phase : Phase} {x : Exchange} :
    phase.awaits? = some x ↔ phase = .beforeAnswer x ∨ phase = .receiving x := by
  cases phase <;> simp [awaits?]

/-- The session looks at the flag before it tries a queue. A flag that is set
after that last look comes too late for the try: while a frame is being placed
it is queued all the same, once, if its queue takes it, and an answer that is
there is taken. The flag is found at the look that follows. -/
def Phase.heeds : Phase → Bool
  | .placing _ | .receiving _ => false
  | _ => true

/-- The steps that the session takes until it has found the answer, less one. -/
def stepsToAnswer (s : Session) (m : Mailbox) : Nat :=
  2 * m.ahead.length + s.phase.heeds.toNat

variable {now : Instant} {s : Session} {m : Mailbox} {r : Reaction} {x : Exchange}

/-- A frame that can get away does so with the next try. -/
theorem Course.sends (h : Course now s m r) (hx : s.phase.sends? = some x)
    (hpassable : m.Passable) :
    r.session.phase.sends? ≠ some x
    ∨ r.session.phase.sends? = some x ∧ r.mailbox = m
      ∧ s.phase.heeds = true ∧ r.session.phase.heeds = false := by
  cases h with
  | trySend y phase _ _ result =>
      subst result
      rw [phase] at hx ⊢
      exact .inr ⟨hx, rfl, rfl, rfl⟩
  | hold y phase full result =>
      rcases hpassable with hroom | hclosed
      · cases hopen : m.outbound.receiverOpen with
        | true => rw [Queue.trySend_eq_ok_iff.mpr ⟨hopen, hroom, rfl⟩] at full; cases full
        | false => rw [Queue.trySend_eq_disconnected_iff.mpr hopen] at full; cases full
      · rw [Queue.trySend_eq_disconnected_iff.mpr hclosed] at full
        cases full
  | idle hover result =>
      unfold isOver at hover
      unfold Phase.sends? at hx
      split at hx <;> simp_all
  | discard _ _ _ phase _ _ | clear _ phase _ _ =>
      rw [phase] at hx
      cases hx
  | _ =>
      subst_vars
      left
      intro hsame
      cases hsame

/-- What is decided is found: each try takes one frame out of the way. -/
theorem Course.awaits (h : Course now s m r) (hx : s.phase.awaits? = some x)
    (hdecided : m.Decided) :
    r.session.phase.awaits? ≠ some x
    ∨ r.session.phase.awaits? = some x ∧ r.mailbox.Decided
      ∧ r.session.stepsToAnswer r.mailbox < s.stepsToAnswer m := by
  cases h with
  | tryReceive y phase _ _ result =>
      subst result
      rw [phase] at hx
      refine .inr ⟨hx, hdecided, ?_⟩
      simp [stepsToAnswer, phase, Phase.heeds]
  | ignore y frame inbound phase taken type result =>
      subst result
      obtain ⟨hitems, hinbound⟩ := Queue.tryRecv_eq_ok_iff.mp taken
      rw [phase] at hx
      refine .inr ⟨hx, ?_, ?_⟩
      · rcases hdecided with ⟨f, hf, hanswer⟩ | hclosed
        · rw [hitems, List.mem_cons] at hf
          rcases hf with rfl | hf
          · rw [type] at hanswer
            cases hanswer
          · exact .inl ⟨f, hf, hanswer⟩
        · rw [hinbound]
          exact .inr hclosed
      · simp [stepsToAnswer, Mailbox.ahead, phase, Phase.heeds, hitems, type]
        omega
  | await y phase empty isOpen result =>
      rcases hdecided with ⟨f, hf, -⟩ | hclosed
      · rw [empty] at hf
        cases hf
      · rw [isOpen] at hclosed
        cases hclosed
  | place y _ _ phase _ _ result =>
      rw [phase] at hx
      cases hx
  | idle hover result =>
      unfold isOver at hover
      unfold Phase.awaits? at hx
      split at hx <;> simp_all
  | _ =>
      subst_vars
      left
      intro hsame
      cases hsame

/-- How the wait for an answer is left. -/
theorem Course.awaits_exit (h : Course now s m r) (hx : s.phase.awaits? = some x)
    (hleft : r.session.phase.awaits? ≠ some x) :
    (∃ state, r.session.phase = .boundary state) ∨ (∃ y, r.session.phase = .lost y)
    ∨ ∃ fault, r.session.phase = .crashed fault := by
  cases h with
  | tryReceive _ phase _ _ result | ignore _ _ _ phase _ _ result | await _ phase _ _ result =>
      subst result
      rw [phase] at hx
      exact absurd hx hleft
  | lose y _ result =>
      subst result
      exact .inr (.inl ⟨y, rfl⟩)
  | crash fault _ _ result =>
      subst result
      exact .inr (.inr ⟨fault, rfl⟩)
  | enter _ phase _ _ | request _ _ phase _ _ _ | send _ _ _ phase _ _ _ | discard _ _ _ phase _ _
  | clear _ phase _ _ | trySend _ phase _ _ _ | hold _ phase _ _ | place _ _ _ phase _ _ _
  | finish _ _ phase _ =>
      rw [phase] at hx
      cases hx
  | idle hover _ =>
      unfold isOver at hover
      unfold Phase.awaits? at hx
      split at hx <;> simp_all
  | _ => subst_vars; exact .inl ⟨_, rfl⟩

end Session

end BoardFlash
