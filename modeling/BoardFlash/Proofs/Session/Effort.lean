import BoardFlash.Proofs.Cursor
import BoardFlash.Proofs.Session.Post

/-!
# A session comes to its end

Before it tries a queue a session looks at the clock, and goes on only if its
wait is not over. `Session.effort` bounds the steps that it has left, such looks
apart: each step makes it smaller, and a look before the deadline adds one at
most (`step_effort`). So in a whole run a session takes no more steps than its
effort at the beginning, two for each look before the deadline and one for each
frame that was delivered meanwhile, unless it is over (`Post.run_effort`).
-/

namespace BoardFlash

namespace Session

/-- The step finds the deadline of a wait still ahead. -/
def hesitates (now : Instant) (s : Session) (m : Mailbox) : Bool :=
  match s.phase with
  | .beforeSend x | .beforeAnswer x => !m.cancelled && decide (now.nanos < x.deadline.nanos)
  | _ => false

/-- The most steps for a chunk that is refused again and again. -/
def perChunk (s : Session) : Nat := 4 * s.maxTransmissions.toNat + 4

/-- The most steps left once the chunks before the cursor are with the board. -/
def fromHere (s : Session) (cursor : Cursor) : Nat := s.perChunk * cursor.left + 4

/-- The most steps left after the answer to the exchange. -/
def settled (s : Session) (x : Exchange) : Nat :=
  match x.purpose with
  | .request => s.fromHere s.cursor
  | .chunk refusals =>
    4 * (s.maxTransmissions.toNat - (refusals.toNat + 1)) + s.fromHere s.cursor.advance + 2

/-- The most steps left in the state, the first of them included. -/
def within (s : Session) (state : State) : Nat :=
  match state with
  | .requesting => s.fromHere s.cursor + 3
  | .preparing => s.fromHere s.cursor - 1
  | .sending _ refusals =>
    4 * (s.maxTransmissions.toNat - refusals.toNat) + s.fromHere s.cursor.advance + 1
  | .done .. => 1

/-- The most steps left, apart from looks before the deadline, with `n` frames
in the inbound queue. -/
def effort (s : Session) (n : Nat) : Nat :=
  match s.phase with
  | .waiting => s.fromHere s.cursor + 5 + n
  | .boundary state => s.within state + 1 + n
  | .entered state => s.within state + n
  | .beforeSend x | .beforeAnswer x => s.settled x + 1 + n
  | .clearing x | .placing x | .receiving x => s.settled x + 2 + n
  | .lost _ => 3 + n
  | .finished .. | .crashed _ => 0

section

variable {s : Session}

theorem four_le_fromHere (s : Session) (cursor : Cursor) : 4 ≤ s.fromHere cursor :=
  Nat.le_add_left ..

theorem four_le_settled (s : Session) (x : Exchange) : 4 ≤ s.settled x := by
  have hrequest := s.four_le_fromHere s.cursor
  have hchunk := s.four_le_fromHere s.cursor.advance
  unfold settled
  split <;> omega

theorem two_le_within (s : Session) {state : State} (hundone : state.isDone = false) :
    2 ≤ s.within state := by
  have := s.four_le_fromHere s.cursor
  have := s.four_le_fromHere s.cursor.advance
  cases state with
  | done => cases hundone
  | _ =>
      simp only [within]
      omega

theorem within_pos (s : Session) (state : State) : 0 < s.within state := by
  have := s.four_le_fromHere s.cursor
  cases state <;> simp only [within] <;> omega

theorem effort_pos (n : Nat) (hlive : s.isOver = false) : 0 < s.effort n := by
  unfold isOver at hlive
  unfold effort
  split
  case h_2 state _ | h_3 state _ =>
    have := s.within_pos state
    omega
  case h_10 heq | h_11 heq =>
    rw [heq] at hlive
    cases hlive
  all_goals omega

theorem effort_le (s : Session) {n k : Nat} (hk : n ≤ k) : s.effort k ≤ s.effort n + (k - n) := by
  unfold effort
  split <;> omega

end

theorem Course.effort {now : Instant} {s : Session} {m : Mailbox} {r : Reaction}
    (h : Course now s m r) (hsize : 0 < s.cursor.chunkSize) (hlive : s.isOver = false) :
    r.session.effort r.mailbox.inbound.items.length + 1
      ≤ s.effort m.inbound.items.length + 2 * (s.hesitates now m).toNat := by
  cases h with
  | idle hover =>
      rw [hlive] at hover
      cases hover
  | crash fault m' why result =>
      subst result
      exact Nat.le_add_right_of_le (effort_pos m.inbound.items.length hlive)
  | start phase result =>
      subst result
      simp only [Session.effort, phase, within, fromHere, perChunk]
      omega
  | stop state phase undone flag result =>
      subst result
      have := s.two_le_within undone
      simp only [Session.effort, phase]
      show 1 + 1 + _ + 1 ≤ _
      omega
  | enter state phase free result =>
      subst result
      simp only [Session.effort, phase]
      show s.within state + _ + 1 ≤ _
      omega
  | prepare chunk packet phase chunk_eq built result =>
      subst result
      simp only [Session.effort, phase, within, fromHere, perChunk, UInt32.toNat_zero,
        Cursor.left_eq_add_one hsize chunk_eq, Nat.mul_add_one]
      omega
  | request _ _ phase _ _ result =>
      subst result
      simp only [Session.effort, phase, settled, within, fromHere, perChunk]
      omega
  | send packet refusals deadline phase left due result =>
      subst result
      have hleft : refusals.toNat < s.maxTransmissions.toNat := UInt32.lt_iff_toNat_lt.mp left
      simp only [Session.effort, phase, settled, within, fromHere, perChunk]
      omega
  | complete phase _ result | exhaust _ _ phase _ result =>
      subst result
      simp only [Session.effort, phase, within, fromHere]
      omega
  | discard x frame inbound phase taken result =>
      subst result
      simp only [Session.effort, phase, (Queue.tryRecv_eq_ok_iff.mp taken).1, List.length_cons]
      show s.settled x + 2 + _ + 1 ≤ _
      omega
  | trySend x phase free early result | tryReceive x phase free early result =>
      subst result
      simp only [Session.effort, phase, hesitates, free, early, decide_true, Bool.not_false,
        Bool.and_self, Bool.toNat_true]
      show s.settled x + 2 + _ + 1 ≤ _
      omega
  | clear x phase _ result | place x _ _ phase _ _ result | hold x phase _ result
  | await x phase _ _ result =>
      subst result
      simp only [Session.effort, phase]
      show s.settled x + 1 + _ + 1 ≤ _
      omega
  | ignore x frame inbound phase taken type result =>
      subst result
      simp only [Session.effort, phase, (Queue.tryRecv_eq_ok_iff.mp taken).1, List.length_cons]
      show s.settled x + 1 + _ + 1 ≤ _
      omega
  | grant x frame inbound phase taken type purpose result
  | accept x _ frame inbound _ phase taken type purpose _ result =>
      subst result
      simp only [Session.effort, phase, settled, within, purpose, fromHere, perChunk,
        (Queue.tryRecv_eq_ok_iff.mp taken).1, List.length_cons]
      omega
  | refuse x refusals refusals' frame inbound phase taken type purpose count result =>
      subst result
      simp only [Session.effort, phase, settled, within, purpose, fromHere, perChunk,
        Word.toNat_of_next? count, (Queue.tryRecv_eq_ok_iff.mp taken).1, List.length_cons]
      omega
  | reject x frame inbound phase taken _ _ result | fail x frame inbound phase taken _ result =>
      subst result
      have := s.four_le_settled x
      simp only [Session.effort, phase, within, (Queue.tryRecv_eq_ok_iff.mp taken).1,
        List.length_cons]
      omega
  | cancel x phase _ result | expire x phase _ _ result =>
      subst result
      have := s.four_le_settled x
      rcases phase with phase | phase <;>
        · simp only [Session.effort, phase, within]
          omega
  | lose x closed result =>
      subst result
      have := s.four_le_settled x
      rcases closed with ⟨phase, -⟩ | ⟨phase, -⟩ <;>
        · simp only [Session.effort, phase]
          omega
  | giveUp _ _ phase _ result | finish _ _ phase result =>
      subst result
      simp only [Session.effort, phase, within]
      omega

/-- The cursor of a session stays in its image. -/
theorem step_chunkSize (now : Instant) (s : Session) (m : Mailbox) :
    (s.step now m).session.cursor.chunkSize = s.cursor.chunkSize := by
  cases step_course now s m <;> simp_all only [Cursor.advance]

end Session

namespace Post

/-- How many steps the session is given. -/
def steps (events : List Event) : Nat :=
  events.countP fun | .step _ => true | _ => false

theorem steps_cons_step (now : Instant) (events : List Event) :
    steps (.step now :: events) = steps events + 1 := List.countP_cons_of_pos rfl

theorem steps_cons_move (change : Mailbox.Move) (events : List Event) :
    steps (.move change :: events) = steps events := List.countP_cons_of_neg Bool.false_ne_true

/-- How many frames are put in the inbound queue, or get lost on the way. -/
def deliveries (events : List Event) : Nat :=
  events.countP fun | .move (.deliver _) => true | _ => false

theorem deliveries_cons (e : Event) (events : List Event) :
    deliveries (e :: events) = deliveries [e] + deliveries events := by
  simp only [deliveries, List.countP_cons, List.countP_nil, Nat.zero_add]
  exact Nat.add_comm ..

/-- The event is a step that finds a deadline still ahead. -/
def hesitates (p : Post) : Event → Bool
  | .step now => p.session.hesitates now p.mailbox
  | _ => false

/-- How many of the steps do so. -/
def looks (p : Post) : List Event → Nat
  | [] => 0
  | e :: events => (p.hesitates e).toNat + (p.apply e).looks events

/-- The most steps that the session has left, apart from looks before the
deadline. -/
def effort (p : Post) : Nat := p.session.effort p.mailbox.inbound.items.length

/-- Only a delivery makes the inbound queue longer. -/
theorem length_inbound_move (m : Mailbox) (move : Mailbox.Move) :
    m.inbound.items.length ≤ (m.apply move).inbound.items.length
    ∧ (m.apply move).inbound.items.length ≤ m.inbound.items.length + deliveries [.move move] := by
  cases move with
  | deliver f =>
      rcases (m.apply_deliver_items f).2 with hsame | hlast
      · rw [hsame]
        exact ⟨Nat.le_refl _, Nat.le_add_right ..⟩
      · rw [hlast, List.length_append, List.length_singleton]
        exact ⟨Nat.le_succ _, Nat.le_refl _⟩
  | collect n =>
      have hinbound : (m.apply (.collect n)).inbound = m.inbound := by
        show Mailbox.inbound (if _ then _ else _) = _
        split <;> rfl
      rw [hinbound]
      exact ⟨Nat.le_refl _, Nat.le_add_right ..⟩
  | cancel | stopDelivering | stopCollecting => exact ⟨Nat.le_refl _, Nat.le_add_right ..⟩

theorem effort_move (p : Post) (move : Mailbox.Move) :
    (p.apply (.move move)).effort ≤ p.effort + deliveries [.move move] := by
  obtain ⟨hlonger, hbound⟩ := length_inbound_move p.mailbox move
  have hmore := p.session.effort_le hlonger
  show p.session.effort (p.mailbox.apply move).inbound.items.length ≤ p.effort + _
  unfold effort
  omega

/-- A session that has taken that many steps is over. -/
theorem run_effort {p : Post} (hsize : 0 < p.session.cursor.chunkSize) (events : List Event) :
    (p.run events).session.isOver = true
      ∨ steps events + (p.run events).effort
        ≤ p.effort + 2 * p.looks events + deliveries events := by
  induction events generalizing p with
  | nil => exact .inr (by simp [steps, deliveries, run])
  | cons e events ih =>
      cases hlive : p.session.isOver with
      | true => exact .inl (by rw [session_run_of_isOver hlive, hlive])
      | false =>
          cases e with
          | step now =>
              have hstep : (p.apply (.step now)).effort + 1
                  ≤ p.effort + 2 * (p.session.hesitates now p.mailbox).toNat :=
                (Session.step_course now p.session p.mailbox).effort hsize hlive
              have hsize' : 0 < (p.apply (.step now)).session.cursor.chunkSize :=
                (Session.step_chunkSize now p.session p.mailbox).symm ▸ hsize
              refine (ih hsize').imp id fun hrest => ?_
              have hdeliveries : deliveries (.step now :: events) = deliveries events :=
                List.countP_cons_of_neg Bool.false_ne_true
              rw [steps_cons_step, hdeliveries, looks, hesitates, run_cons]
              omega
          | kill =>
              refine .inl ?_
              rw [run_cons, apply_kill_of_live hlive, session_run_of_isOver rfl]
              rfl
          | move move =>
              have hmove := p.effort_move move
              refine (ih (p := p.apply (.move move)) hsize).imp id fun hrest => ?_
              have hlook : p.hesitates (.move move) = false := rfl
              rw [steps_cons_move, deliveries_cons, looks, hlook, Bool.toNat_false, run_cons]
              omega

end Post

end BoardFlash
