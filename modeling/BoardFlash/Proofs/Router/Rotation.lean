import BoardFlash.Proofs.Router.Routing
import BoardFlash.Proofs.Router.Service

/-!
# Turns of the boards

A `Depot` follows a router through its passes while others change the hub.
`IsPass` says of a list of acts that they make up one pass, from one rest of
the router to the next, and `shipments` is what a list of acts puts in the
queue to the link, read off this queue.

In a pass the boards have their turns in rotating order, as long as the
queue to the link has room. `served_in_pass` says who can rely on being
served: with room for `k` frames when a pass begins, the first `k` boards of
the rotation. It follows a board from the beginning of the pass to its turn
(`Due`). With room for a frame of each board all have their turns, and the
rotation moves on (`moves_on_of_room`, by `Turning`).

From these, `fair_while_moving_on`: as many passes as there are boards serve
every board that has a frame waiting, if the rotation moves on. With less
room it need not, and those who come later can be left out in every pass
(`second_board_left_out`).
-/

namespace BoardFlash

namespace Router

deriving instance DecidableEq for Act

/-- A router at work among its queues. -/
structure Depot where
  router : Router := {}
  hub : Hub
  deriving DecidableEq

namespace Depot

def apply (d : Depot) : Act → Depot
  | .step =>
    let r := d.router.step d.hub
    ⟨r.router, r.hub⟩
  | .move move => { d with hub := d.hub.apply move }

def run (d : Depot) (acts : List Act) : Depot := acts.foldl apply d

/-- The number of frames that the queue to the link has room for. -/
def room (d : Depot) : Nat := d.hub.link.forth.capacity - d.hub.link.forth.items.length

/-- What one act puts in the queue to the link, and whose frame it is. -/
def shipped (d : Depot) (act : Act) : List (Peer × Frame) :=
  match act, d.router.phase with
  | .step, .pushing turn frame =>
    if (d.apply .step).hub.link.forth.items = d.hub.link.forth.items ++ [frame.encode] then
      [(d.router.peerAt d.hub turn, frame)]
    else []
  | _, _ => []

def shipments (d : Depot) : List Act → List (Peer × Frame)
  | [] => []
  | act :: rest => d.shipped act ++ (d.apply act).shipments rest

/-- The router comes to rest with the last of these acts, and not before. -/
def Returns (d : Depot) : List Act → Prop
  | [] => d.router.phase = .resting
  | act :: rest => d.router.phase ≠ .resting ∧ (d.apply act).Returns rest

instance Returns.decide (d : Depot) : (acts : List Act) → Decidable (d.Returns acts)
  | [] => inferInstanceAs (Decidable (_ = _))
  | act :: rest =>
    have := Returns.decide (d.apply act) rest
    inferInstanceAs (Decidable (_ ∧ _))

/-- These acts are one pass of the router and what others do meanwhile. -/
def IsPass (d : Depot) : List Act → Prop
  | .step :: rest =>
    d.router.phase = .resting ∧ d.hub.cancelled = false ∧ (d.apply .step).Returns rest
  | _ => False

instance (d : Depot) : (acts : List Act) → Decidable (d.IsPass acts)
  | [] | .move _ :: _ => inferInstanceAs (Decidable False)
  | .step :: _ => inferInstanceAs (Decidable (_ ∧ _ ∧ _))

end Depot

end Router

/-! ## What others do -/

namespace Hub

/-- As long as the link is served, others only take frames from the queue
that leads to it. -/
theorem apply_forth (h : Hub) {move : Move} (hmove : move ≠ .stopTransmitting) :
    ∃ n, (h.apply move).link.forth = { h.link.forth with items := h.link.forth.items.drop n } := by
  unfold apply respond
  cases move with
  | submit peer frame | collect peer n | hangUp peer halves =>
      refine ⟨0, ?_⟩
      dsimp only
      split
      · rw [setQueues_link]
        rfl
      · rfl
  | transmit n =>
      dsimp only [pull]
      split
      · exact ⟨n, rfl⟩
      · exact ⟨0, rfl⟩
  | stopTransmitting => exact absurd rfl hmove
  | _ => exact ⟨0, rfl⟩

/-- The oldest frame that the peer has queued for the link. -/
def oldest? (h : Hub) (peer : Peer) : Option Frame :=
  (h.queues? peer).bind (·.forth.items.head?)

theorem oldest?_eq_some_iff {h : Hub} {peer : Peer} {f : Frame} :
    h.oldest? peer = some f ↔
      ∃ d rest, h.queues? peer = some d ∧ d.forth.items = f :: rest := by
  unfold oldest?
  cases h.queues? peer with
  | none => simp
  | some d => simp [List.head?_eq_some_iff]

theorem oldest?_setQueues_ne {h : Hub} {peer p : Peer} (hp : p ≠ peer) (d : Duplex Frame) :
    (h.setQueues peer d).oldest? p = h.oldest? p := by
  rw [oldest?, queues?_setQueues_ne hp, oldest?]

/-- Only the router takes frames from the queues of the peers. -/
theorem oldest?_apply {h : Hub} {peer : Peer} {f : Frame} (hf : h.oldest? peer = some f)
    (move : Move) : (h.apply move).oldest? peer = some f := by
  have hset : ∀ p d d', h.queues? p = some d →
      (∀ rest, d.forth.items = f :: rest → ∃ rest', d'.forth.items = f :: rest') →
      (h.setQueues p d').oldest? peer = some f := by
    intro p d d' hd hkeep
    by_cases hp : peer = p
    · subst hp
      obtain ⟨e, rest, he, hrest⟩ := oldest?_eq_some_iff.mp hf
      obtain rfl := Option.some.inj (hd.symm.trans he)
      obtain ⟨rest', hrest'⟩ := hkeep rest hrest
      exact oldest?_eq_some_iff.mpr ⟨d', rest', queues?_setQueues_self hd d', hrest'⟩
    · rwa [oldest?_setQueues_ne hp]
  unfold apply respond
  cases move with
  | submit p frame =>
      dsimp only
      split
      · next d hd =>
        refine hset p d _ hd fun rest hrest => ?_
        unfold push
        split
        · exact ⟨rest, hrest⟩
        · split
          · next q hq =>
            obtain ⟨-, -, rfl⟩ := Queue.trySend_eq_ok_iff.mp hq
            exact ⟨rest ++ [frame], by simp [hrest]⟩
          · exact ⟨rest, hrest⟩
      · exact hf
  | collect p n =>
      dsimp only
      split
      · next d hd => exact hset p d _ hd fun rest hrest => ⟨rest, hrest⟩
      · exact hf
  | hangUp p halves =>
      dsimp only
      split
      · next d hd =>
        refine hset p d _ hd fun rest hrest => ⟨rest, ?_⟩
        cases halves <;> exact hrest
      · exact hf
  | _ => cases peer <;> exact hf

end Hub

/-! ## Waiting for a turn -/

namespace Router

/-- The turn that comes next in the pass, or that is being taken. -/
def Phase.turn? : Phase → Option Nat
  | .listening | .dispatching _ | .reporting _ => some 0
  | .visiting turn | .pulling turn | .pushing turn _ => some turn
  | .starting | .resting | .stopped => none

namespace Depot

/-- The `i`-th board, whose turn is the `p`-th of the round, still has to be
served: its frame `f` is the oldest in its queue and will find room in the
queue to the link, or is about to be put there. -/
inductive Due (i p : Nat) (f : Frame) (d : Depot) : Prop where
  | waiting (t : Nat) (turn : d.router.phase.turn? = some t) (early : t ≤ p)
      (apart : ∀ g, d.router.phase ≠ .pushing p g) (room : p < d.room + t)
      (oldest : d.hub.oldest? (.board i) = some f)
  | held (phase : d.router.phase = .pushing p f) (room : 0 < d.room)

/-- The link is served, and the round began with board `e`. -/
structure InRound (e n : Nat) (d : Depot) : Prop where
  next : d.router.next = e
  routes : d.hub.routes.length = n
  served : d.hub.link.forth.receiverOpen = true

theorem length_routes_eq {h h' : Hub} (hsame : Hub.SameRoutes h h') :
    h'.routes.length = h.routes.length := by
  have hlen := congrArg List.length hsame.ids
  rwa [Hub.ids, Hub.ids, List.length_map, List.length_map] at hlen

section

variable {e n i p : Nat} {f : Frame} {d : Depot}

theorem InRound.move (h : d.InRound e n) {move : Hub.Move} (hmove : move ≠ .stopTransmitting) :
    (d.apply (.move move)).InRound e n := by
  obtain ⟨k, hforth⟩ := d.hub.apply_forth hmove
  refine ⟨h.next, (length_routes_eq (Hub.sameRoutes_apply d.hub move)).trans h.routes, ?_⟩
  show (d.hub.apply move).link.forth.receiverOpen = true
  rw [hforth]
  exact h.served

/-- Others only make room. -/
theorem room_le_move {move : Hub.Move} (hmove : move ≠ .stopTransmitting) :
    d.room ≤ (d.apply (.move move)).room := by
  obtain ⟨k, hforth⟩ := d.hub.apply_forth hmove
  show d.room ≤ (d.hub.apply move).link.forth.capacity
    - (d.hub.apply move).link.forth.items.length
  rw [hforth, room]
  dsimp only
  rw [List.length_drop]
  omega

theorem Due.move (h : d.Due i p f) {move : Hub.Move} (hmove : move ≠ .stopTransmitting) :
    (d.apply (.move move)).Due i p f := by
  have hroom := room_le_move (d := d) hmove
  cases h with
  | held phase room => exact .held phase (Nat.lt_of_lt_of_le room hroom)
  | waiting t turn early apart room oldest =>
      exact .waiting t turn early apart (by omega) (Hub.oldest?_apply oldest move)

end

end Depot

/-! ## What the router does -/

section

variable (r : Router) (h : Hub)

theorem turnOver_phase (turn : Nat) (hturn : turn < h.routes.length) (notice : Option Notice) :
    (r.turnOver h turn notice).router.phase = .visiting (turn + 1) := if_pos hturn

/-- The rotation moves on when the boards have had their turns. -/
theorem step_next (hround : ∀ turn, r.phase = .visiting turn → turn < h.routes.length) :
    (r.step h).router.next = r.next := by
  unfold step
  split
  · rfl
  · split <;> rfl
  · unfold listen
    split
    · rfl
    · split
      · dsimp only
        split <;> rfl
      · rfl
      · rfl
  · split
    · unfold deliver
      split
      · rfl
      · split <;> rfl
    · rfl
  · rfl
  · next turn hp =>
    unfold visit
    dsimp only
    rw [if_pos (hround turn hp)]
    split <;> rfl
  · unfold pull
    dsimp only
    split
    · rfl
    · split
      · rfl
      · split <;> rfl
  · unfold push
    split <;> rfl
  · rfl

/-- The boards have all had their turns. -/
theorem visit_last {turn : Nat} (hp : r.phase = .visiting turn) (hlast : h.routes.length ≤ turn)
    (hboards : 0 < h.routes.length) :
    (r.step h).router.next = (r.next + 1) % h.routes.length
      ∧ ((r.step h).router.phase = .resting ∨ (r.step h).router.phase = .pulling turn) := by
  have hnonempty : h.routes.isEmpty = false := by
    simpa [← List.length_eq_zero_iff] using Nat.ne_of_gt hboards
  simp only [step, hp, visit, if_neg (Nat.not_lt.mpr hlast), hnonempty]
  split
  · exact ⟨rfl, .inl rfl⟩
  · exact ⟨rfl, .inr rfl⟩

/-- After a turn at which the queue to the link is not touched yet. -/
theorem pull_outcome {turn : Nat} (hp : r.phase = .pulling turn) :
    (r.step h).hub.link = h.link
      ∧ ((∃ g, (r.step h).router.phase = .pushing turn g)
        ∨ (r.step h).router.phase
          = if turn < h.routes.length then .visiting (turn + 1) else .resting) := by
  simp only [step, hp, pull]
  split
  · exact ⟨rfl, .inr rfl⟩
  · split
    · exact ⟨rfl, .inr rfl⟩
    · split
      · exact ⟨Hub.setQueues_link h _ _, .inl ⟨_, rfl⟩⟩
      · exact ⟨rfl, .inr rfl⟩
      · exact ⟨rfl, .inr rfl⟩

theorem push_outcome {turn : Nat} {frame : Frame} (hp : r.phase = .pushing turn frame) :
    (r.step h).hub.link.forth.capacity = h.link.forth.capacity
      ∧ (r.step h).hub.link.forth.items.length ≤ h.link.forth.items.length + 1
      ∧ (r.step h).router.phase
        = if turn < h.routes.length then .visiting (turn + 1) else .resting := by
  simp only [step, hp, push]
  split
  · next forth hsent =>
    obtain ⟨-, -, rfl⟩ := Queue.trySend_eq_ok_iff.mp hsent
    exact ⟨rfl, by simp [turnOver_hub], rfl⟩
  · exact ⟨rfl, Nat.le_succ _, rfl⟩

/-- The router is busy with what comes from the link. -/
def Phase.inbound : Phase → Bool
  | .listening | .dispatching _ | .reporting _ => true
  | _ => false

theorem turn?_of_inbound {phase : Phase}
    (hphase : phase = .visiting 0 ∨ phase.inbound = true) : phase.turn? = some 0 := by
  rcases hphase with rfl | hphase
  · rfl
  · cases phase with
    | listening | dispatching | reporting => rfl
    | _ => cases hphase

theorem ne_pushing_of_inbound {phase : Phase}
    (hphase : phase = .visiting 0 ∨ phase.inbound = true) (turn : Nat) (frame : Frame) :
    phase ≠ .pushing turn frame := by
  rintro rfl
  rcases hphase with hphase | hphase <;> cases hphase

/-- What comes from the link is dealt with before the first turn, and leaves
alone what is queued for the link. -/
structure BeforeTurns (reaction : Reaction) : Prop where
  phase : reaction.router.phase = .visiting 0 ∨ reaction.router.phase.inbound = true
  forth : reaction.hub.link.forth = h.link.forth
  oldest : ∀ peer, reaction.hub.oldest? peer = h.oldest? peer

theorem goTo_beforeTurns {phase : Phase} (hphase : phase = .visiting 0 ∨ phase.inbound = true)
    (notice : Option Notice) : BeforeTurns h (r.goTo h phase notice) :=
  ⟨hphase, rfl, fun _ => rfl⟩

theorem oldest?_setQueues_back {peer : Peer} {q : Duplex Frame} (hq : h.queues? peer = some q)
    (back : Queue Frame) (p : Peer) :
    (h.setQueues peer { q with back }).oldest? p = h.oldest? p := by
  by_cases hp : p = peer
  · subst hp
    rw [Hub.oldest?, Hub.queues?_setQueues_self hq, Hub.oldest?, hq]
    rfl
  · exact Hub.oldest?_setQueues_ne hp _

theorem step_beforeTurns (hp : r.phase.inbound = true) : BeforeTurns h (r.step h) := by
  unfold step
  split
  case h_3 =>
    unfold listen
    split
    · exact goTo_beforeTurns r h (.inl rfl) none
    · split
      · dsimp only
        split
        · exact ⟨.inr rfl, rfl, fun peer => by cases peer <;> rfl⟩
        · exact ⟨.inr rfl, rfl, fun peer => by cases peer <;> rfl⟩
      · exact goTo_beforeTurns r h (.inl rfl) none
      · exact ⟨.inl rfl, rfl, fun _ => rfl⟩
  case h_4 =>
    split
    · unfold deliver
      split
      · exact goTo_beforeTurns r h (.inr rfl) none
      · next q hq =>
        split
        · exact ⟨.inl rfl, congrArg Duplex.forth (Hub.setQueues_link h _ _),
            oldest?_setQueues_back h hq _⟩
        · exact goTo_beforeTurns r h (.inr rfl) _
    · exact goTo_beforeTurns r h (.inr rfl) _
  case h_5 => exact ⟨.inl rfl, rfl, fun peer => by cases peer <;> rfl⟩
  all_goals next heq => rw [heq] at hp; cases hp

end

namespace Depot

section

variable {e n i p : Nat} {f : Frame} {d : Depot}

theorem InRound.step (h : d.InRound e n)
    (hround : ∀ turn, d.router.phase = .visiting turn → turn < n) :
    (d.apply .step).InRound e n := by
  refine ⟨?_, (length_routes_eq (step_passage d.router d.hub).sameRoutes).trans h.routes, ?_⟩
  · rw [← h.next]
    exact step_next d.router d.hub fun turn hturn => h.routes ▸ hround turn hturn
  · rw [← h.served]
    exact (step_passage d.router d.hub).link_ends.1

theorem lt_capacity_of_room (hroom : 0 < d.room) :
    d.hub.link.forth.items.length < d.hub.link.forth.capacity := by
  rw [room] at hroom
  omega

/-- Different turns of a round are turns of different boards. -/
theorem mod_ne_of_lt {t : Nat} (hp : p < n) (ht : t < p) : (e + t) % n ≠ (e + p) % n := by
  intro hsame
  have hdvd := Nat.sub_mod_eq_zero_of_mod_eq hsame.symm
  rw [Nat.add_sub_add_left] at hdvd
  have hlt := Nat.mod_eq_of_lt (show p - t < n by omega)
  omega

/-- A frame that is held is put in the queue to the link. -/
theorem shipped_of_held (h : d.InRound e n) (hp : p < n) (hphase : d.router.phase = .pushing p f)
    (hroom : 0 < d.room) : (.board ((e + p) % n), f) ∈ d.shipped .step := by
  have hpeer : d.router.peerAt d.hub p = .board ((e + p) % n) := by
    rw [peerAt, h.routes, if_pos hp, h.next]
  have hsent : d.hub.link.forth.trySend f.encode
      = .ok { d.hub.link.forth with items := d.hub.link.forth.items ++ [f.encode] } :=
    Queue.trySend_eq_ok_iff.mpr ⟨h.served, lt_capacity_of_room hroom, rfl⟩
  have hgrown : (d.apply .step).hub.link.forth.items
      = d.hub.link.forth.items ++ [f.encode] := by
    simp only [apply, Router.step, hphase, push, hsent]
    rfl
  simp [shipped, hphase, hgrown, hpeer]

/-- The router comes to a turn before the board's, or to the board's own. -/
theorem Due.visit (h : d.InRound e n) (hp : p < n) {t : Nat}
    (hphase : d.router.phase = .visiting t) (early : t ≤ p) (room : p < d.room + t)
    (oldest : d.hub.oldest? (.board i) = some f) : (d.apply .step).Due i p f := by
  have hturn : t < d.hub.routes.length := h.routes ▸ Nat.lt_of_le_of_lt early hp
  have hroom : d.hub.link.forth.isFull = false :=
    Queue.isFull_eq_false_iff.mpr (lt_capacity_of_room (by omega))
  have hstep : d.router.step d.hub = d.router.goTo d.hub (.pulling t) := by
    simp only [Router.step, hphase, Router.visit, hroom, if_pos hturn]
    rfl
  simp only [apply, hstep]
  exact .waiting t rfl early (fun _ => Phase.noConfusion) room oldest

/-- An earlier turn than the board's is over. -/
theorem Due.turnOver (h : d.InRound e n) (hp : p < n) (r : Router) {t : Nat} (early : t < p)
    (room : p < d.room + (t + 1)) (oldest : d.hub.oldest? (.board i) = some f)
    (notice : Option Notice) :
    Due i p f ⟨(r.turnOver d.hub t notice).router, (r.turnOver d.hub t notice).hub⟩ := by
  have hvisit := turnOver_phase r d.hub t (by rw [h.routes]; omega) notice
  refine .waiting (t + 1) (by rw [hvisit]; rfl) early (fun g => ?_) room oldest
  rw [hvisit]
  exact Phase.noConfusion

/-- At an earlier turn than the board's, its frame stays where it is. -/
theorem Due.pull_other (h : d.InRound e n) (hp : p < n) {t : Nat}
    (hphase : d.router.phase = .pulling t) (early : t < p) (room : p < d.room + t)
    (oldest : d.hub.oldest? (.board ((e + p) % n)) = some f) :
    (d.apply .step).Due ((e + p) % n) p f := by
  have hpeer : d.router.peerAt d.hub t = .board ((e + t) % n) := by
    rw [peerAt, h.routes, if_pos (Nat.lt_trans early hp), h.next]
  have hne : Peer.board ((e + p) % n) ≠ .board ((e + t) % n) :=
    fun heq => mod_ne_of_lt hp early (Peer.board.inj heq).symm
  have hover := fun r notice => Due.turnOver h hp r early (by omega) oldest notice
  simp only [apply, Router.step, hphase, Router.pull, hpeer]
  split
  · exact hover d.router none
  · split
    · exact hover d.router none
    · next q hq =>
      split
      · next g forth _ =>
        refine .waiting t rfl (Nat.le_of_lt early) ?_ ?_ ?_
        · intro g' heq
          exact absurd (Phase.pushing.inj heq).1 (Nat.ne_of_lt early)
        · have hlink := Hub.setQueues_link d.hub (.board ((e + t) % n)) { q with forth }
          rw [Depot.room, goTo, hlink]
          exact room
        · rw [goTo, Hub.oldest?_setQueues_ne hne]
          exact oldest
      · exact hover d.router none
      · exact hover _ _

/-- At the board's own turn its frame is taken. -/
theorem Due.pull_own (h : d.InRound e n) (hp : p < n) (hphase : d.router.phase = .pulling p)
    (room : p < d.room + p) (oldest : d.hub.oldest? (.board ((e + p) % n)) = some f)
    (hgone : .board ((e + p) % n) ∉ d.router.gone) :
    (d.apply .step).Due ((e + p) % n) p f := by
  have hpeer : d.router.peerAt d.hub p = .board ((e + p) % n) := by
    rw [peerAt, h.routes, if_pos hp, h.next]
  obtain ⟨q, rest, hq, hitems⟩ := Hub.oldest?_eq_some_iff.mp oldest
  have htaken : q.forth.tryRecv = .ok (f, { q.forth with items := rest }) :=
    Queue.tryRecv_eq_ok_iff.mpr ⟨hitems, rfl⟩
  have hlink := Hub.setQueues_link d.hub (.board ((e + p) % n))
    { q with forth := { q.forth with items := rest } }
  simp only [apply, Router.step, hphase, Router.pull, hpeer, if_neg hgone, hq, htaken]
  refine .held rfl ?_
  rw [Depot.room, goTo, hlink]
  exact Nat.pos_of_lt_add_left room

/-- The frame of an earlier turn takes a place, but the turn is over. -/
theorem Due.push_other (h : d.InRound e n) (hp : p < n) {t : Nat} {g : Frame}
    (hphase : d.router.phase = .pushing t g) (early : t < p) (room : p < d.room + t)
    (oldest : d.hub.oldest? (.board i) = some f) : (d.apply .step).Due i p f := by
  simp only [apply, Router.step, hphase, Router.push]
  split
  · next forth hsent =>
    obtain ⟨-, hroom, rfl⟩ := Queue.trySend_eq_ok_iff.mp hsent
    have hvisit := turnOver_phase d.router d.hub t (by rw [h.routes]; omega) none
    refine .waiting (t + 1) (congrArg Phase.turn? hvisit) early (fun g' heq => ?_) ?_ ?_
    · exact Phase.noConfusion (hvisit.symm.trans heq)
    · rw [Depot.room, turnOver_hub]
      dsimp only
      rw [Depot.room] at room
      rw [List.length_append, List.length_singleton]
      omega
    · exact oldest
  · exact Due.turnOver h hp d.router early (by omega) oldest _

/-- A board that is due is served by the next step of the router, or is still
due after it. -/
theorem Due.step (h : d.InRound e n) (hp : p < n) (hdue : d.Due ((e + p) % n) p f)
    (hgone : ∀ peer ∈ d.router.gone, d.hub.oldest? peer = none) :
    (.board ((e + p) % n), f) ∈ d.shipped .step ∨ (d.apply .step).Due ((e + p) % n) p f := by
  cases hdue with
  | held phase room => exact .inl (shipped_of_held h hp phase room)
  | waiting t turn early apart room oldest =>
      refine .inr ?_
      cases hphase : d.router.phase with
      | starting | resting | stopped =>
          rw [hphase] at turn
          cases turn
      | listening | dispatching g | reporting g =>
          have hinbound : d.router.phase.inbound = true := by rw [hphase]; rfl
          obtain rfl : 0 = t := by rw [hphase] at turn; exact Option.some.inj turn
          obtain ⟨hnext, hforth, holdest⟩ := step_beforeTurns d.router d.hub hinbound
          refine .waiting 0 (turn?_of_inbound hnext) early ?_ ?_ ((holdest _).trans oldest)
          · exact fun g => ne_pushing_of_inbound hnext p g
          · rw [Depot.room, apply, hforth]
            exact room
      | visiting t' =>
          obtain rfl : t' = t := by rw [hphase] at turn; exact Option.some.inj turn
          exact Due.visit h hp hphase early room oldest
      | pulling t' =>
          obtain rfl : t' = t := by rw [hphase] at turn; exact Option.some.inj turn
          rcases Nat.lt_or_eq_of_le early with hlt | rfl
          · exact Due.pull_other h hp hphase hlt room oldest
          · refine Due.pull_own h hp hphase room oldest fun hmem => ?_
            rw [hgone _ hmem] at oldest
            cases oldest
      | pushing t' g =>
          obtain rfl : t' = t := by rw [hphase] at turn; exact Option.some.inj turn
          have hlt : t' < p := Nat.lt_of_le_of_ne early fun heq => apart g (heq ▸ hphase)
          exact Due.push_other h hp hphase hlt room oldest

end

/-! ## Peers that are gone -/

end Depot

end Router

namespace Hub

/-- Nothing of the peer is queued for the link, and nothing will be. -/
def Silent (h : Hub) (peer : Peer) : Prop :=
  ∀ d, h.queues? peer = some d → d.forth.items = [] ∧ d.forth.senderOpen = false

theorem Silent.oldest?_eq_none {h : Hub} {peer : Peer} (hs : h.Silent peer) :
    h.oldest? peer = none := by
  unfold oldest?
  cases hd : h.queues? peer with
  | none => rfl
  | some d => simp [(hs d hd).1]

/-- The queues of a peer are replaced, and in its queue to the router there
is nothing new. -/
theorem Silent.setQueues {h : Hub} {peer : Peer} (hs : h.Silent peer) {p : Peer}
    {d d' : Duplex Frame} (hd : h.queues? p = some d)
    (hkeep : d.forth.items = [] → d.forth.senderOpen = false →
      d'.forth.items = [] ∧ d'.forth.senderOpen = false) : (h.setQueues p d').Silent peer := by
  intro q hq
  by_cases hp : peer = p
  · subst hp
    rw [queues?_setQueues_self hd] at hq
    obtain rfl := Option.some.inj hq
    exact hkeep (hs d hd).1 (hs d hd).2
  · rw [queues?_setQueues_ne hp] at hq
    exact hs q hq

theorem Silent.of_queues?_eq {h h' : Hub} {peer : Peer} (hs : h.Silent peer)
    (heq : h'.queues? peer = h.queues? peer) : h'.Silent peer :=
  fun d hd => hs d (heq ▸ hd)

theorem Silent.apply {h : Hub} {peer : Peer} (hs : h.Silent peer) (move : Move) :
    (h.apply move).Silent peer := by
  unfold Hub.apply respond
  cases move with
  | submit p frame =>
      dsimp only
      split
      · next d hd =>
        refine hs.setQueues hd fun hitems hclosed => ?_
        simp only [push, hclosed]
        exact ⟨hitems, hclosed⟩
      · exact hs
  | collect p n =>
      dsimp only
      split
      · next d hd => exact hs.setQueues hd fun hitems hclosed => ⟨hitems, hclosed⟩
      · exact hs
  | hangUp p halves =>
      dsimp only
      split
      · next d hd =>
        refine hs.setQueues hd fun hitems hclosed => ?_
        cases halves with
        | sending | both => exact ⟨hitems, rfl⟩
        | receiving => exact ⟨hitems, hclosed⟩
      · exact hs
  | _ => exact hs.of_queues?_eq (by cases peer <;> rfl)

theorem Silent.release {h : Hub} {peer : Peer} (hs : h.Silent peer) : h.release.Silent peer := by
  intro d hd
  cases peer with
  | board i =>
      obtain ⟨r', hr', rfl⟩ := queues?_board hd
      simp only [Hub.release, List.getElem?_map, Option.map_eq_some_iff] at hr'
      obtain ⟨r, hr, rfl⟩ := hr'
      exact hs r.queues (by simp [queues?, hr])
  | console =>
      obtain ⟨q, hq, rfl⟩ := Option.map_eq_some_iff.mp hd
      exact hs q hq

end Hub

namespace Router

theorem Passage.silent {r r' : Router} {h h' : Hub} (p : Passage r h r' h') {peer : Peer}
    (hs : h.Silent peer) : h'.Silent peer := by
  cases p with
  | quiet _ _ hub | refuse _ _ _ _ _ _ hub | divert _ _ _ _ _ hub | drop _ _ _ _ _ _ hub =>
      rw [hub]
      exact hs
  | stop _ _ _ hub =>
      rw [hub]
      exact hs.release
  | listen _ _ _ _ _ _ _ hub | garble _ _ _ _ _ _ _ hub | report _ _ _ hub
  | push _ _ _ _ _ _ hub =>
      rw [hub]
      exact hs.of_queues?_eq (by cases peer <;> rfl)
  | deliver _ _ queues _ _ _ found _ _ hub =>
      rw [hub]
      exact hs.setQueues found fun hitems hclosed => ⟨hitems, hclosed⟩
  | pull _ queues frame _ _ found taken _ hub =>
      rw [hub]
      refine hs.setQueues found fun hitems _ => ?_
      rw [(Queue.tryRecv_eq_ok_iff.mp taken).1] at hitems
      cases hitems

/-- A peer is found gone only once nothing can come from it any more. -/
theorem step_gone (r : Router) (h : Hub) :
    ∀ peer ∈ (r.step h).router.gone, peer ∈ r.gone ∨ h.Silent peer := by
  have hsame : ∀ reaction : Reaction, reaction.router.gone = r.gone →
      ∀ peer ∈ reaction.router.gone, peer ∈ r.gone ∨ h.Silent peer :=
    fun _ heq peer hmem => .inl (heq ▸ hmem)
  unfold step
  split
  · exact hsame _ rfl
  · split <;> exact hsame _ rfl
  · unfold listen
    split
    · exact hsame _ rfl
    · split
      · dsimp only
        split <;> exact hsame _ rfl
      · exact hsame _ rfl
      · exact hsame _ rfl
  · split
    · unfold deliver
      split
      · exact hsame _ rfl
      · split <;> exact hsame _ rfl
    · exact hsame _ rfl
  · exact hsame _ rfl
  · unfold visit
    dsimp only
    split
    · split <;> exact hsame _ rfl
    · split <;> (split <;> exact hsame _ rfl)
  · unfold pull
    dsimp only
    split
    · exact hsame _ rfl
    · split
      · exact hsame _ rfl
      · next q hq =>
        split
        · exact hsame _ rfl
        · exact hsame _ rfl
        · next hclosed =>
          intro peer hmem
          rcases List.mem_cons.mp hmem with rfl | hmem
          · refine .inr fun d hd => ?_
            obtain rfl := Option.some.inj (hq.symm.trans hd)
            exact Queue.tryRecv_eq_disconnected_iff.mp hclosed
          · exact .inl hmem
  · unfold push
    split <;> exact hsame _ rfl
  · exact hsame _ rfl

namespace Depot

/-- The peers that the router has found gone will not queue anything. -/
def Settled (d : Depot) : Prop := ∀ peer ∈ d.router.gone, d.hub.Silent peer

theorem Settled.apply {d : Depot} (h : d.Settled) (act : Act) : (d.apply act).Settled := by
  cases act with
  | move move => exact fun peer hmem => (h peer hmem).apply move
  | step =>
      intro peer hmem
      refine (step_passage d.router d.hub).silent ?_
      rcases step_gone d.router d.hub peer hmem with hmem | hsilent
      · exact h peer hmem
      · exact hsilent

theorem Settled.run {d : Depot} (h : d.Settled) (acts : List Act) : (d.run acts).Settled := by
  induction acts generalizing d with
  | nil => exact h
  | cons act acts ih => exact ih (h.apply act)

/-! ## Whole passes -/

section

variable {e n p : Nat} {f : Frame} {d : Depot}

theorem Due.lt_of_visiting {i t : Nat} (hdue : d.Due i p f) (hp : p < n)
    (hphase : d.router.phase = .visiting t) : t < n := by
  cases hdue with
  | waiting t' turn early =>
      rw [hphase] at turn
      obtain rfl : t = t' := Option.some.inj turn
      exact Nat.lt_of_le_of_lt early hp
  | held phase =>
      rw [hphase] at phase
      cases phase

/-- A board that is due is served before the router rests. -/
theorem Due.served {acts : List Act} (hdue : d.Due ((e + p) % n) p f) (h : d.InRound e n)
    (hp : p < n) (hsettled : d.Settled) (hreturns : d.Returns acts)
    (hopen : .move .stopTransmitting ∉ acts) :
    (.board ((e + p) % n), f) ∈ d.shipments acts := by
  induction acts generalizing d with
  | nil =>
      have hrest : d.router.phase = .resting := hreturns
      cases hdue with
      | waiting t turn =>
          rw [hrest] at turn
          cases turn
      | held phase =>
          rw [hrest] at phase
          cases phase
  | cons act acts ih =>
      rw [List.mem_cons, not_or] at hopen
      refine List.mem_append.mpr ?_
      cases act with
      | move move =>
          have hmove : move ≠ .stopTransmitting := fun heq => hopen.1 (heq ▸ rfl)
          exact .inr (ih (hdue.move hmove) (h.move hmove) (hsettled.apply _) hreturns.2 hopen.2)
      | step =>
          rcases Due.step h hp hdue fun peer hmem => (hsettled peer hmem).oldest?_eq_none with
            hserved | hnext
          · exact .inl hserved
          · exact .inr (ih hnext (h.step fun t ht => hdue.lt_of_visiting hp ht)
              (hsettled.apply _) hreturns.2 hopen.2)

/-- What the pass has come to that began with room for a frame of each board:
those that still have their turn will find room, and after the last turn the
round moves on. -/
inductive Turning (e n : Nat) (d : Depot) : Prop where
  | early (t : Nat) (round : d.InRound e n) (turn : d.router.phase.turn? = some t)
      (before : t < n) (room : n ≤ d.room + t)
  | last (round : d.InRound e n) (phase : d.router.phase = .visiting n)
  | past (round : d.InRound ((e + 1) % n) n)
      (phase : d.router.phase = .resting ∨ d.router.phase = .pulling n
        ∨ ∃ g, d.router.phase = .pushing n g)

theorem Turning.move (h : d.Turning e n) {move : Hub.Move} (hmove : move ≠ .stopTransmitting) :
    (d.apply (.move move)).Turning e n := by
  have hroom := room_le_move (d := d) hmove
  cases h with
  | early t round turn before room => exact .early t (round.move hmove) turn before (by omega)
  | last round phase => exact .last (round.move hmove) phase
  | past round phase => exact .past (round.move hmove) phase

/-- The turn of a board is over; another board has the next one, or the round
is about to move on. -/
theorem Turning.of_turnOver (h : d.InRound e n) {t : Nat} (ht : t < n)
    (hphase : d.router.phase = .visiting (t + 1)) (hroom : n ≤ d.room + (t + 1)) :
    d.Turning e n := by
  rcases Nat.lt_or_eq_of_le (Nat.succ_le_of_lt ht) with hlt | rfl
  · exact .early (t + 1) h (by rw [hphase]; rfl) hlt hroom
  · exact .last h hphase

theorem Turning.step_early (h : d.InRound e n) {t : Nat} (turn : d.router.phase.turn? = some t)
    (before : t < n) (hroom : n ≤ d.room + t) : (d.apply .step).Turning e n := by
  have hround : (d.apply .step).InRound e n := by
    refine h.step fun t' ht' => ?_
    rw [ht'] at turn
    exact Option.some.inj turn ▸ before
  have hover : t < d.hub.routes.length := h.routes ▸ before
  cases hphase : d.router.phase with
  | starting | resting | stopped =>
      rw [hphase] at turn
      cases turn
  | listening | dispatching g | reporting g =>
      have hinbound : d.router.phase.inbound = true := by rw [hphase]; rfl
      obtain rfl : 0 = t := by rw [hphase] at turn; exact Option.some.inj turn
      obtain ⟨hnext, hforth, -⟩ := step_beforeTurns d.router d.hub hinbound
      refine .early 0 hround (turn?_of_inbound hnext) before ?_
      rw [Depot.room, apply, hforth]
      exact hroom
  | visiting t' =>
      obtain rfl : t' = t := by rw [hphase] at turn; exact Option.some.inj turn
      have hfree : d.hub.link.forth.isFull = false :=
        Queue.isFull_eq_false_iff.mpr (lt_capacity_of_room (by omega))
      have hstep : d.router.step d.hub = d.router.goTo d.hub (.pulling t') := by
        simp only [Router.step, hphase, Router.visit, hfree, if_pos hover]
        rfl
      refine .early t' hround ?_ before ?_
      · rw [apply, hstep]
        rfl
      · rw [apply, hstep]
        exact hroom
  | pulling t' =>
      obtain rfl : t' = t := by rw [hphase] at turn; exact Option.some.inj turn
      obtain ⟨hlink, hnext⟩ := pull_outcome d.router d.hub hphase
      have hsame : (d.apply .step).room = d.room := by rw [room, room, apply, hlink]
      rcases hnext with ⟨g, hnext⟩ | hnext
      · exact .early t' hround (by rw [apply, hnext]; rfl) before (hsame ▸ hroom)
      · rw [if_pos hover] at hnext
        exact .of_turnOver hround before hnext (by omega)
  | pushing t' g =>
      obtain rfl : t' = t := by rw [hphase] at turn; exact Option.some.inj turn
      obtain ⟨hcapacity, hlength, hnext⟩ := push_outcome d.router d.hub hphase
      rw [if_pos hover] at hnext
      refine .of_turnOver hround before hnext ?_
      simp only [room, apply] at hroom ⊢
      omega

theorem Turning.step_last (h : d.InRound e n) (hphase : d.router.phase = .visiting n)
    (hn : 0 < n) : (d.apply .step).Turning e n := by
  have hlast : d.hub.routes.length ≤ n := Nat.le_of_eq h.routes
  obtain ⟨hnext, hafter⟩ := visit_last d.router d.hub hphase hlast (h.routes.symm ▸ hn)
  rw [h.next, h.routes] at hnext
  have hroutes := (length_routes_eq (step_passage d.router d.hub).sameRoutes).trans h.routes
  have hserved := (step_passage d.router d.hub).link_ends.1.trans h.served
  exact .past ⟨hnext, hroutes, hserved⟩ (hafter.imp_right .inl)

theorem Turning.step (h : d.Turning e n) (hn : 0 < n) (hbusy : d.router.phase ≠ .resting) :
    (d.apply .step).Turning e n := by
  cases h with
  | early t round turn before room => exact .step_early round turn before room
  | last round phase => exact .step_last round phase hn
  | past round phase =>
      have hround : (d.apply .step).InRound ((e + 1) % n) n := by
        refine round.step fun t ht => ?_
        rw [ht] at phase
        rcases phase with hphase | hphase | ⟨g, hphase⟩ <;> cases hphase
      have hover : ¬ n < d.hub.routes.length := round.routes ▸ Nat.lt_irrefl n
      refine .past hround ?_
      rcases phase with hphase | hphase | ⟨g, hphase⟩
      · exact absurd hphase hbusy
      · obtain ⟨-, ⟨g, hnext⟩ | hnext⟩ := pull_outcome d.router d.hub hphase
        · exact .inr (.inr ⟨g, hnext⟩)
        · exact .inl (hnext.trans (if_neg hover))
      · obtain ⟨-, -, hnext⟩ := push_outcome d.router d.hub hphase
        exact .inl (hnext.trans (if_neg hover))

theorem Turning.moved_on {acts : List Act} (h : d.Turning e n) (hn : 0 < n)
    (hreturns : d.Returns acts) (hopen : .move .stopTransmitting ∉ acts) :
    (d.run acts).router.next = (e + 1) % n := by
  induction acts generalizing d with
  | nil =>
      have hrest : d.router.phase = .resting := hreturns
      cases h with
      | early t round turn =>
          rw [hrest] at turn
          cases turn
      | last round phase =>
          rw [hrest] at phase
          cases phase
      | past round => exact round.next
  | cons act acts ih =>
      rw [List.mem_cons, not_or] at hopen
      cases act with
      | move move => exact ih (h.move fun heq => hopen.1 (heq ▸ rfl)) hreturns.2 hopen.2
      | step => exact ih (h.step hn hreturns.1) hreturns.2 hopen.2

end

/-! ## One pass -/

section

variable {d : Depot} {acts : List Act}

theorem IsPass.departure (h : d.IsPass acts) :
    ∃ rest, acts = .step :: rest ∧ (d.apply .step).Returns rest
      ∧ d.apply .step = { d with router := { d.router with phase := .listening } } := by
  cases acts with
  | nil => exact h.elim
  | cons act rest =>
      cases act with
      | move move => exact h.elim
      | step =>
          obtain ⟨hrest, hwanted, hreturns⟩ := h
          refine ⟨rest, rfl, hreturns, ?_⟩
          simp only [apply, Router.step, hrest, hwanted]
          rfl

/-- With room for `k` frames at the beginning of a pass the first `k` boards of
the rotation are served in it, if they have anything to send. -/
theorem served_in_pass {p : Nat} {f : Frame} (hpass : d.IsPass acts) (hsettled : d.Settled)
    (hserved : d.hub.link.forth.receiverOpen = true) (hopen : .move .stopTransmitting ∉ acts)
    (hp : p < d.hub.routes.length) (hroom : p < d.room)
    (hf : d.hub.oldest? (.board ((d.router.next + p) % d.hub.routes.length)) = some f) :
    (.board ((d.router.next + p) % d.hub.routes.length), f) ∈ d.shipments acts := by
  obtain ⟨rest, rfl, hreturns, hdeparture⟩ := hpass.departure
  have hdue : (d.apply .step).Due ((d.router.next + p) % d.hub.routes.length) p f := by
    rw [hdeparture]
    exact .waiting 0 rfl (Nat.zero_le p) (fun _ => Phase.noConfusion) hroom hf
  have hround : (d.apply .step).InRound d.router.next d.hub.routes.length := by
    rw [hdeparture]
    exact ⟨rfl, rfl, hserved⟩
  exact List.mem_append_right _ (hdue.served hround hp (hsettled.apply .step) hreturns
    fun hmem => hopen (List.mem_cons_of_mem _ hmem))

/-- After these acts the next round begins with the board that was the second
in this one. -/
def MovesOn (d : Depot) (acts : List Act) : Prop :=
  (d.run acts).router.next = (d.router.next + 1) % d.hub.routes.length

/-- With room for a frame of each board at the beginning of a pass the rotation
moves on. -/
theorem moves_on_of_room (hpass : d.IsPass acts) (hboards : 0 < d.hub.routes.length)
    (hserved : d.hub.link.forth.receiverOpen = true) (hopen : .move .stopTransmitting ∉ acts)
    (hroom : d.hub.routes.length ≤ d.room) : d.MovesOn acts := by
  obtain ⟨rest, rfl, hreturns, hdeparture⟩ := hpass.departure
  have hturning : (d.apply .step).Turning d.router.next d.hub.routes.length := by
    rw [hdeparture]
    exact .early 0 ⟨rfl, rfl, hserved⟩ rfl hboards hroom
  exact hturning.moved_on hboards hreturns fun hmem => hopen (List.mem_cons_of_mem _ hmem)

end

/-! ## Passes in a row -/

end Depot

/-- A pass, and what others do before it while the router rests. -/
structure Leg where
  meanwhile : List Hub.Move := []
  pass : List Act

namespace Depot

/-- The acts of the legs, in order. -/
def itinerary (legs : List Leg) : List Act :=
  legs.flatMap fun leg => leg.meanwhile.map .move ++ leg.pass

/-- The legs follow each other, and each pass begins as required. -/
def Goes (start : Depot → List Act → Prop) (d : Depot) : List Leg → Prop
  | [] => True
  | leg :: legs =>
    let d := d.run (leg.meanwhile.map .move)
    d.IsPass leg.pass ∧ start d leg.pass ∧ (d.run leg.pass).Goes start legs

instance Goes.decide (start : Depot → List Act → Prop)
    [∀ d pass, Decidable (start d pass)] (d : Depot) :
    (legs : List Leg) → Decidable (d.Goes start legs)
  | [] => inferInstanceAs (Decidable True)
  | leg :: legs =>
    have := Goes.decide start ((d.run (leg.meanwhile.map .move)).run leg.pass) legs
    inferInstanceAs (Decidable (_ ∧ _ ∧ _))

theorem shipments_append (d : Depot) (first rest : List Act) :
    d.shipments (first ++ rest) = d.shipments first ++ (d.run first).shipments rest := by
  induction first generalizing d with
  | nil => rfl
  | cons act first ih =>
      rw [List.cons_append, shipments, ih, shipments, List.append_assoc]
      rfl

/-- The link stays served, and the routes stay as many as they are. -/
theorem run_served {acts : List Act} {d : Depot} (hopen : .move .stopTransmitting ∉ acts) :
    (d.run acts).hub.link.forth.receiverOpen = d.hub.link.forth.receiverOpen
      ∧ (d.run acts).hub.routes.length = d.hub.routes.length := by
  induction acts generalizing d with
  | nil => exact ⟨rfl, rfl⟩
  | cons act acts ih =>
      rw [List.mem_cons, not_or] at hopen
      obtain ⟨hserved, hroutes⟩ := ih (d := d.apply act) hopen.2
      refine ⟨hserved.trans ?_, hroutes.trans ?_⟩
      · cases act with
        | step => exact (step_passage d.router d.hub).link_ends.1
        | move move =>
            have hmove : move ≠ .stopTransmitting := fun heq => hopen.1 (heq ▸ rfl)
            obtain ⟨n, hforth⟩ := d.hub.apply_forth hmove
            rw [apply, hforth]
      · cases act with
        | step => exact length_routes_eq (step_passage d.router d.hub).sameRoutes
        | move move => exact length_routes_eq (Hub.sameRoutes_apply d.hub move)

theorem run_moves_router (d : Depot) (moves : List Hub.Move) :
    (d.run (moves.map .move)).router = d.router := by
  induction moves generalizing d with
  | nil => rfl
  | cons move moves ih => exact ih _

/-- Each board has a turn in a round. -/
theorem exists_turn {i n : Nat} (e : Nat) (hi : i < n) : ∃ p < n, (e + p) % n = i := by
  have hlt : e % n < n := Nat.mod_lt e (Nat.zero_lt_of_lt hi)
  by_cases hle : e % n ≤ i
  · refine ⟨i - e % n, by omega, ?_⟩
    rw [← Nat.mod_add_mod, Nat.add_sub_cancel' hle, Nat.mod_eq_of_lt hi]
  · refine ⟨i + n - e % n, by omega, ?_⟩
    rw [← Nat.mod_add_mod, Nat.add_sub_cancel' (by omega), Nat.add_mod_right, Nat.mod_eq_of_lt hi]

/-- What is required of each pass: the queue to the link has room for one
frame, the board has a frame waiting, and the rotation moves on, for which
room for a frame of each board is enough. -/
def FairStart (i : Nat) (d : Depot) (pass : List Act) : Prop :=
  0 < d.room ∧ (d.hub.oldest? (.board i)).isSome
    ∧ (d.hub.routes.length ≤ d.room ∨ d.MovesOn pass)

instance (i : Nat) (d : Depot) (pass : List Act) : Decidable (FairStart i d pass) :=
  inferInstanceAs (Decidable (_ ∧ _ ∧ (_ ∨ _ = _)))

theorem Goes.served {i p : Nat} {legs : List Leg} {d : Depot}
    (hgoes : d.Goes (FairStart i) legs) (hsettled : d.Settled)
    (hserved : d.hub.link.forth.receiverOpen = true)
    (hopen : .move .stopTransmitting ∉ itinerary legs) (hp : p < d.hub.routes.length)
    (hlong : p < legs.length) (hturn : (d.router.next + p) % d.hub.routes.length = i) :
    ∃ f, (.board i, f) ∈ d.shipments (itinerary legs) := by
  induction legs generalizing d p with
  | nil => exact absurd hlong (Nat.not_lt_zero p)
  | cons leg legs ih =>
      rw [itinerary, List.flatMap_cons, ← itinerary, List.mem_append, List.mem_append,
        not_or, not_or] at hopen
      obtain ⟨⟨hmeanwhile, hduring⟩, hafter⟩ := hopen
      generalize hs : d.run (leg.meanwhile.map .move) = s at *
      have hnext : s.router.next = d.router.next := by rw [← hs, run_moves_router]
      obtain ⟨hsame, hroutes⟩ := run_served (d := d) hmeanwhile
      rw [hs] at hsame hroutes
      have hsettled' : s.Settled := hs ▸ hsettled.run _
      rw [Goes, hs] at hgoes
      obtain ⟨hpass, ⟨hroom, hwaiting, hmoves⟩, hgoes⟩ := hgoes
      rw [itinerary, List.flatMap_cons, ← itinerary, shipments_append, shipments_append, hs]
      cases p with
      | zero =>
          obtain ⟨f, hf⟩ := Option.isSome_iff_exists.mp hwaiting
          rw [← hturn, ← hnext, ← hroutes] at hf ⊢
          have hship := served_in_pass hpass hsettled' (hsame.trans hserved) hduring
            (by omega) hroom hf
          exact ⟨f, List.mem_append_left _ (List.mem_append_right _ hship)⟩
      | succ p =>
          have hmoved : s.MovesOn leg.pass := hmoves.elim
            (moves_on_of_room hpass (by omega) (hsame.trans hserved) hduring) id
          obtain ⟨hsame', hroutes'⟩ := run_served (d := s) hduring
          obtain ⟨f, hf⟩ := ih (p := p) hgoes (hsettled'.run _)
            (hsame'.trans (hsame.trans hserved)) hafter (by omega)
            (Nat.lt_of_succ_lt_succ hlong) (by
              rw [hroutes', hroutes, hmoved, hnext, hroutes, Nat.mod_add_mod, ← hturn]
              congr 1
              omega)
          refine ⟨f, List.mem_append_right _ ?_⟩
          rwa [run, List.foldl_append, ← run, ← run, hs]

/-- The queues of a board that has these frames to send. -/
def backlog (frames : List Frame) : Duplex Frame where
  forth := { capacity := 3, items := frames }
  back := { capacity := 3 }

/-- Two boards have something to send, the first one more than the second. -/
def crowd (capacity : Nat) : Hub where
  link := ⟨{ capacity }, { capacity }⟩
  routes := [⟨1, backlog (List.replicate 3 (.empty .idRequest 0 1))⟩,
    ⟨2, backlog (List.replicate 2 (.empty .idRequest 0 2))⟩]
  console := none
  diagnostics := { capacity := 1 }

/-- Two passes in a row, of so many steps each. Before each of them the link
takes up to `room` frames. -/
def twoLegs (room steps : Nat) : List Leg :=
  List.replicate 2 ⟨[.transmit room], List.replicate steps .step⟩

/-- A router at rest or at work serves every board that has a frame waiting,
within as many passes as there are boards, provided that each pass begins
with room for a frame and the rotation moves on. -/
theorem fair_while_moving_on (hub : Hub) (next i : Nat) (before : List Act) (legs : List Leg)
    (hi : i < hub.routes.length) (hlong : hub.routes.length ≤ legs.length)
    (hserved : hub.link.forth.receiverOpen = true)
    (hopen : .move .stopTransmitting ∉ before ++ itinerary legs) :
    let d := run { router := { next }, hub } before
    d.Goes (FairStart i) legs → ∃ f, (.board i, f) ∈ d.shipments (itinerary legs) := by
  intro d hgoes
  rw [List.mem_append, not_or] at hopen
  obtain ⟨hsame, hroutes⟩ := run_served (d := { router := { next }, hub }) hopen.1
  have hsettled : d.Settled := Settled.run (fun _ hmem => absurd hmem List.not_mem_nil) before
  -- The board has its turn as many passes from now as it is away from the
  -- one that is first.
  obtain ⟨p, hp, hturn⟩ := exists_turn d.router.next (hroutes ▸ hi)
  exact hgoes.served hsettled (hsame.trans hserved) hopen.2 hp
    (Nat.lt_of_lt_of_le (hroutes ▸ hp) hlong) hturn

/-- With room for a frame of each board the second one is served. -/
theorem fair_with_room_for_two :
    let d := run { router := {}, hub := crowd 2 } [.step]
    d.Goes (FairStart 1) (twoLegs 2 9)
      ∧ ∃ f, (.board 1, f) ∈ d.shipments (itinerary (twoLegs 2 9)) := by
  have hgoes : (run { router := {}, hub := crowd 2 } [.step]).Goes (FairStart 1) (twoLegs 2 9) := by
    decide +kernel
  exact ⟨hgoes, fair_while_moving_on (crowd 2) 0 1 [.step] (twoLegs 2 9) (by decide) (by decide)
    rfl (by decide +kernel) hgoes⟩

/-- With room for one frame both passes end after the turn of the first board,
and the rotation does not move on: although the link has made room for a
frame before each pass, and the second board has one waiting all the time,
none of its frames gets to the link. -/
theorem second_board_left_out :
    let d := run { router := {}, hub := crowd 1 } [.step]
    let legs := twoLegs 1 6
    legs.length = d.hub.routes.length ∧ d.hub.link.forth.receiverOpen = true
      ∧ .move .stopTransmitting ∉ itinerary legs
      ∧ d.Goes (fun d _ => 0 < d.room) legs
      ∧ (∀ k ≤ (itinerary legs).length,
          ((d.run ((itinerary legs).take k)).hub.oldest? (.board 1)).isSome)
      ∧ ∀ shipment ∈ d.shipments (itinerary legs), shipment.1 ≠ .board 1 := by
  decide +kernel

end Depot

end Router

end BoardFlash
