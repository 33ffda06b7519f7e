import BoardFlash.Proofs.Router.Rotation
import BoardFlash.Proofs.Wire.RoundTrip

/-!
# Nothing is lost on the way to the link

The router takes a frame from the queue of a peer in one step and queues
its encoding for the link in another. Before it takes the frame it looks
whether there is room for it. In between others may take from the queue
to the link, but nobody else puts anything there, so that the room is
still there when it is needed (`Reserved`).

A `Ledger` follows a router through any run. It records what the queues
of the peers have accepted, what has entered the queue to the link and at
whose turn, and what has been taken from there. `step_conserves` says what
one step adds to it: what a peer loses is in the router's hands or has
entered the queue to the link.

In a pass the peers have their turns one after the other, and none has
two: what enters the queue to the link follows `turnsLeft`, a list
without repetitions.

`nothing_lost_outbound` is the main result. For each peer it accounts
for every frame that was accepted, in the order of acceptance.
-/

namespace BoardFlash

/-- What has been recorded for the peer. -/
def Peer.own {α : Type} (peer : Peer) (entries : List (Peer × α)) : List α :=
  entries.filterMap fun e => if e.1 = peer then some e.2 else none

section

variable {α : Type} {peer : Peer}

@[simp] theorem Peer.own_nil : peer.own ([] : List (Peer × α)) = [] := rfl

@[simp] theorem Peer.own_append (xs ys : List (Peer × α)) :
    peer.own (xs ++ ys) = peer.own xs ++ peer.own ys := List.filterMap_append

theorem Peer.own_singleton (p : Peer) (a : α) :
    peer.own [(p, a)] = if p = peer then [a] else [] := by
  by_cases hp : p = peer <;> simp [own, hp]

end

/-! ## What is seen of the queues -/

namespace Hub

/-- The frames that the peer has queued for the link and that are still in its
own queue. -/
def waiting (h : Hub) (peer : Peer) : List Frame :=
  ((h.queues? peer).map (·.forth.items)).getD []

/-- The frame of a move that was accepted into the queue of its peer. -/
def accepted (h : Hub) : Move → List (Peer × Frame)
  | .submit peer frame =>
    if (h.respond (.submit peer frame)).2 = .queued true then [(peer, frame)] else []
  | _ => []

/-- What a move takes from the queue to the link. -/
def transmitted (h : Hub) : Move → List (List UInt8)
  | .transmit n => (pull h.link.forth n).1
  | _ => []

/-- What has entered the back of the queue to the link. -/
def enqueued (h h' : Hub) : List (List UInt8) :=
  h'.link.forth.items.drop h.link.forth.items.length

theorem enqueued_of_append {h h' : Hub} {raws : List (List UInt8)}
    (hitems : h'.link.forth.items = h.link.forth.items ++ raws) : h.enqueued h' = raws := by
  rw [enqueued, hitems, List.drop_left]

section

variable {h h' : Hub} {peer : Peer} {d : Duplex Frame}

theorem waiting_eq (hd : h.queues? peer = some d) : h.waiting peer = d.forth.items := by
  rw [waiting, hd]
  rfl

theorem waiting_congr (heq : h'.queues? peer = h.queues? peer) :
    h'.waiting peer = h.waiting peer := by
  rw [waiting, heq, waiting]

theorem waiting_setQueues (hd : h.queues? peer = some d) (d' : Duplex Frame) (p : Peer) :
    (h.setQueues peer d').waiting p = if p = peer then d'.forth.items else h.waiting p := by
  rw [waiting, queues?_setQueues]
  split
  · rw [hd]
    rfl
  · rfl

/-- The queue from the peer to the router is left as it is. -/
theorem waiting_setQueues_same (hd : h.queues? peer = some d) (d' : Duplex Frame)
    (hforth : d'.forth.items = d.forth.items) (p : Peer) :
    (h.setQueues peer d').waiting p = h.waiting p := by
  rw [waiting_setQueues hd]
  split
  · next hp => rw [hforth, hp, waiting_eq hd]
  · rfl

theorem waiting_release (h : Hub) (peer : Peer) : h.release.waiting peer = h.waiting peer := by
  cases peer with
  | board i => cases hi : h.routes[i]? <;> simp [waiting, release, queues?, hi, Duplex.flip,
      Duplex.closeFirst, Queue.closeReceiver]
  | console => cases hc : h.console <;> simp [waiting, release, queues?, hc, Duplex.flip,
      Duplex.closeFirst, Queue.closeReceiver]

/-- A value is in the queue if and only if its sender is told so. -/
theorem push_items {α : Type} (q : Queue α) (a : α) :
    (push q a).1.items = q.items ++ if (push q a).2 = .queued true then [a] else [] := by
  unfold push
  cases q.senderOpen with
  | false => simp
  | true =>
      cases hsent : q.trySend a with
      | error why => simp
      | ok q' =>
          obtain ⟨-, -, rfl⟩ := Queue.trySend_eq_ok_iff.mp hsent
          simp

/-- What others add to the queue of a peer is what it accepts from this
peer. -/
theorem waiting_apply (h : Hub) (move : Move) (peer : Peer) :
    (h.apply move).waiting peer = h.waiting peer ++ peer.own (h.accepted move) := by
  cases move with
  | submit p frame =>
      cases hd : h.queues? p with
      | none => simp [apply, accepted, respond, hd]
      | some d =>
          simp only [apply, accepted, respond, hd, waiting_setQueues hd, push_items]
          by_cases hp : peer = p
          · subst hp
            rw [if_pos rfl, waiting_eq hd]
            split <;> simp [Peer.own_singleton]
          · rw [if_neg hp]
            split <;> simp [Peer.own_singleton, Ne.symm hp]
  | collect p n =>
      cases hd : h.queues? p with
      | none => simp [apply, accepted, respond, hd]
      | some d =>
          simp only [apply, accepted, respond, hd, Peer.own_nil, List.append_nil]
          exact waiting_setQueues_same hd { d with back := (pull d.back n).2 } rfl peer
  | hangUp p halves =>
      cases hd : h.queues? p with
      | none => simp [apply, accepted, respond, hd]
      | some d =>
          simp only [apply, accepted, respond, hd, Peer.own_nil, List.append_nil]
          exact waiting_setQueues_same hd _ (by cases halves <;> rfl) peer
  | _ => exact (waiting_congr (by cases peer <;> rfl)).trans (List.append_nil _).symm

/-- What others take from the queue to the link is what was first in it. -/
theorem transmitted_append (h : Hub) (move : Move) :
    h.transmitted move ++ (h.apply move).link.forth.items = h.link.forth.items := by
  cases move with
  | submit peer frame | collect peer n | hangUp peer halves =>
      cases hd : h.queues? peer <;> simp [transmitted, apply, respond, hd]
  | transmit n =>
      simp only [transmitted, apply, respond, pull]
      split
      · exact List.take_append_drop ..
      · rfl
  | _ => rfl

end

end Hub

namespace Router

/-! ## The router's hands -/

/-- The frame that the router has taken from the peer and not queued yet. -/
def holding (r : Router) (h : Hub) (peer : Peer) : List Frame :=
  match r.phase with
  | .pushing turn frame => peer.own [(r.peerAt h turn, frame)]
  | _ => []

/-- What has entered the queue to the link, and whose turn it was. -/
def forwarded (r : Router) (h h' : Hub) : List (Peer × List UInt8) :=
  (h.enqueued h').map fun raw => (r.peerAt h (r.phase.turn?.getD 0), raw)

theorem holding_of_free {r : Router} (hfree : r.phase.free = true) (h : Hub) (peer : Peer) :
    r.holding h peer = [] := by
  unfold holding
  split
  · next hp =>
    rw [hp] at hfree
    cases hfree
  · rfl

theorem holding_of_isResting {r : Router} (hrest : r.isResting = true) (h : Hub) (peer : Peer) :
    r.holding h peer = [] := by
  refine holding_of_free ?_ h peer
  unfold isResting at hrest
  cases hp : r.phase with
  | resting | stopped => rfl
  | _ =>
      rw [hp] at hrest
      cases hrest

theorem peerAt_congr {r r' : Router} {h h' : Hub} (hnext : r'.next = r.next)
    (hroutes : h'.routes.length = h.routes.length) (turn : Nat) :
    r'.peerAt h' turn = r.peerAt h turn := by
  rw [peerAt, hnext, hroutes, peerAt]

/-- The queue to the link is served, and if the router counts on room in it,
there is some. -/
structure Reserved (r : Router) (h : Hub) : Prop where
  served : h.link.forth.receiverOpen = true
  room : r.phase.reserves = true → h.link.forth.isFull = false

section

variable {r r' : Router} {h h' : Hub}

theorem reserves_of_calm {phase : Phase} (hcalm : phase.calm = true) :
    phase.reserves = false := by
  cases phase with
  | pulling | pushing => cases hcalm
  | _ => rfl

/-- There is room for a frame that the router is about to queue. -/
theorem Reserved.not_refused (hr : Reserved r h) {turn : Nat} {frame : Frame}
    (hp : r.phase = .pushing turn frame) {why : SendRefusal} :
    h.link.forth.trySend frame.encode ≠ .error why := by
  have hroom := hr.room (by rw [hp]; rfl)
  simp [Queue.trySend, hr.served, hroom]

theorem Reserved.apply (hr : Reserved r h) {move : Hub.Move} (hmove : move ≠ .stopTransmitting) :
    Reserved r (h.apply move) := by
  obtain ⟨n, hforth⟩ := h.apply_forth hmove
  refine ⟨by rw [hforth]; exact hr.served, fun hreserves => ?_⟩
  have hroom := hr.room hreserves
  simp only [hforth, Queue.isFull, List.length_drop, decide_eq_false_iff_not] at hroom ⊢
  omega

theorem Passage.reserved (p : Passage r h r' h') (hr : Reserved r h) : Reserved r' h' := by
  refine ⟨p.link_ends.1.trans hr.served, fun hreserves => ?_⟩
  cases p with
  | quiet _ after hub room =>
      rw [hub]
      cases hp : r'.phase with
      | pulling turn => exact room turn hp
      | pushing =>
          rw [hp] at after
          cases after
      | _ =>
          rw [hp] at hreserves
          cases hreserves
  | pull turn _ _ _ before _ _ _ hub =>
      rw [hub, Hub.setQueues_link]
      exact hr.room (by rw [before]; rfl)
  | push _ _ _ _ _ after | drop _ _ _ _ _ after =>
      rw [reserves_of_calm after] at hreserves
      cases hreserves
  | stop _ _ after | listen _ _ _ _ _ _ after | garble _ _ _ _ _ _ after
  | deliver _ _ _ _ _ _ _ _ after | refuse _ _ _ _ _ after | divert _ _ _ _ after
  | report _ _ after =>
      rw [after] at hreserves
      cases hreserves

/-- Only when it takes a frame from a peer the router changes what is waiting
there. -/
theorem Passage.waiting_eq (p : Passage r h r' h') (hpull : ∀ turn, r.phase ≠ .pulling turn)
    (peer : Peer) : h'.waiting peer = h.waiting peer := by
  cases p with
  | pull turn _ _ _ before => exact absurd before (hpull turn)
  | deliver _ _ queues back _ _ found _ _ hub =>
      rw [hub]
      exact Hub.waiting_setQueues_same found { queues with back } rfl peer
  | stop _ _ _ hub =>
      rw [hub]
      exact Hub.waiting_release h peer
  | quiet _ _ hub | refuse _ _ _ _ _ _ hub | divert _ _ _ _ _ hub | drop _ _ _ _ _ _ hub =>
      rw [hub]
  | listen _ _ _ _ _ _ _ hub | garble _ _ _ _ _ _ _ hub | report _ _ _ hub
  | push _ _ _ _ _ _ hub =>
      rw [hub]
      exact Hub.waiting_congr (by cases peer <;> rfl)

/-- Only when it has a frame to queue for the link the router puts something
there. -/
theorem Passage.forth_items_eq (p : Passage r h r' h')
    (hpush : ∀ turn f, r.phase ≠ .pushing turn f) :
    h'.link.forth.items = h.link.forth.items := by
  cases p with
  | push turn f _ before | drop turn f before => exact absurd before (hpush turn f)
  | deliver _ _ _ _ _ _ _ _ _ hub | pull _ _ _ _ _ _ _ _ hub =>
      rw [hub, Hub.setQueues_link]
  | stop _ _ _ hub | quiet _ _ hub | refuse _ _ _ _ _ _ hub | divert _ _ _ _ _ hub
  | listen _ _ _ _ _ _ _ hub | garble _ _ _ _ _ _ _ hub | report _ _ _ hub =>
      exact congrArg (·.link.forth.items) hub

/-- At its turn a peer may lose the oldest of its frames, which is then in the
router's hands. -/
theorem step_of_pulling {turn : Nat} (hp : r.phase = .pulling turn) (peer : Peer) :
    (r.step h).router.holding (r.step h).hub peer ++ (r.step h).hub.waiting peer
      = h.waiting peer := by
  have hpassage := step_passage r h
  have hnext : (r.step h).router.next = r.next := by
    refine step_next r h fun turn' hturn => ?_
    rw [hp] at hturn
    cases hturn
  have hpeer := peerAt_congr hnext (Depot.length_routes_eq hpassage.sameRoutes)
  cases hpassage with
  | pull turn' queues frame forth before found taken after hub =>
      obtain ⟨hitems, -⟩ := Queue.tryRecv_eq_ok_iff.mp taken
      have hholding : (r.step h).router.holding (r.step h).hub peer
          = peer.own [(r.peerAt h turn', frame)] := by
        rw [holding, after]
        dsimp only
        rw [hpeer]
      rw [hholding, hub, Hub.waiting_setQueues found, Peer.own_singleton]
      by_cases hown : peer = r.peerAt h turn'
      · rw [if_pos hown.symm, if_pos hown, hown, Hub.waiting_eq found, hitems]
        rfl
      · rw [if_neg (Ne.symm hown), if_neg hown, List.nil_append]
  | quiet before after hub => rw [holding_of_free after, hub, List.nil_append]
  | stop before | listen _ _ _ before | garble _ _ _ before | deliver _ _ _ _ before
  | refuse _ _ before | divert _ _ before | report _ before | push _ _ _ before
  | drop _ _ before =>
      rw [hp] at before
      cases before

/-- A frame in the router's hands enters the queue to the link. -/
theorem step_of_pushing (hr : Reserved r h) {turn : Nat} {frame : Frame}
    (hp : r.phase = .pushing turn frame) :
    (r.step h).hub.link.forth.items = h.link.forth.items ++ [frame.encode]
      ∧ (r.step h).router.phase.calm = true := by
  have hpassage := step_passage r h
  cases hpassage with
  | push turn' frame' forth before sent after hub =>
      obtain ⟨rfl, rfl⟩ := Phase.pushing.inj (hp.symm.trans before)
      obtain ⟨-, -, rfl⟩ := Queue.trySend_eq_ok_iff.mp sent
      rw [hub]
      exact ⟨rfl, after⟩
  | drop turn' frame' before why refused =>
      exact absurd refused (hr.not_refused before)
  | quiet before =>
      rw [hp] at before
      cases before
  | stop before | listen _ _ _ before | garble _ _ _ before | deliver _ _ _ _ before
  | refuse _ _ before | divert _ _ before | report _ before | pull _ _ _ _ before =>
      rw [hp] at before
      cases before

/-- The router takes no frame from a peer, and queues none. -/
theorem step_of_neither (hpull : ∀ turn, r.phase ≠ .pulling turn)
    (hpush : ∀ turn f, r.phase ≠ .pushing turn f) (turn : Nat) (frame : Frame) :
    (r.step h).router.phase ≠ .pushing turn frame := by
  intro hafter
  have hpassage := step_passage r h
  cases hpassage with
  | quiet _ after =>
      rw [hafter] at after
      cases after
  | push _ _ _ before | drop _ _ before => exact hpush _ _ before
  | pull _ _ _ _ before => exact hpull _ before
  | stop _ _ after | listen _ _ _ _ _ _ after | garble _ _ _ _ _ _ after
  | deliver _ _ _ _ _ _ _ _ after | refuse _ _ _ _ _ after | divert _ _ _ _ after
  | report _ _ after =>
      rw [hafter] at after
      cases after

theorem holding_of_not_pushing (hpush : ∀ turn f, r.phase ≠ .pushing turn f) (peer : Peer) :
    r.holding h peer = [] := by
  unfold holding
  split
  · next turn f hp => exact absurd hp (hpush turn f)
  · rfl

theorem forwarded_of_not_pushing (hpush : ∀ turn f, r.phase ≠ .pushing turn f) :
    r.forwarded h (r.step h).hub = [] := by
  have hitems := (step_passage r h).forth_items_eq hpush
  rw [forwarded, Hub.enqueued_of_append (hitems.trans (List.append_nil _).symm), List.map_nil]

/-- What a step puts in the queue to the link goes to its end. -/
theorem step_appends (hr : Reserved r h) :
    (r.step h).hub.link.forth.items
      = h.link.forth.items ++ (r.forwarded h (r.step h).hub).map Prod.snd := by
  by_cases hpush : ∃ turn frame, r.phase = .pushing turn frame
  · obtain ⟨turn, frame, hp⟩ := hpush
    obtain ⟨hitems, -⟩ := step_of_pushing hr hp
    rw [forwarded, Hub.enqueued_of_append hitems, hitems]
    rfl
  · have hnone : ∀ turn f, r.phase ≠ .pushing turn f := fun turn f hp => hpush ⟨turn, f, hp⟩
    rw [forwarded_of_not_pushing hnone, (step_passage r h).forth_items_eq hnone]
    exact (List.append_nil _).symm

/-- What a step takes from a peer is in the router's hands, and what was in
its hands has entered the queue to the link. -/
theorem step_conserves (hr : Reserved r h) (peer : Peer) :
    (peer.own (r.forwarded h (r.step h).hub)).map Frame.decode
        ++ ((r.step h).router.holding (r.step h).hub peer ++ (r.step h).hub.waiting peer).map .ok
      = (r.holding h peer ++ h.waiting peer).map .ok := by
  have hpassage := step_passage r h
  by_cases hpush : ∃ turn frame, r.phase = .pushing turn frame
  · obtain ⟨turn, frame, hp⟩ := hpush
    obtain ⟨hitems, hcalm⟩ := step_of_pushing hr hp
    have hwaiting := hpassage.waiting_eq (by simp [hp]) peer
    have hholding : r.holding h peer = peer.own [(r.peerAt h turn, frame)] := by rw [holding, hp]
    rw [forwarded, Hub.enqueued_of_append hitems, hp, holding_of_free (free_of_calm hcalm),
      hwaiting, hholding]
    simp only [Phase.turn?, Option.getD_some, List.map_cons, List.map_nil, Peer.own_singleton]
    split <;> simp [Frame.decode_encode]
  · have hnone : ∀ turn f, r.phase ≠ .pushing turn f := fun turn f hp => hpush ⟨turn, f, hp⟩
    rw [forwarded_of_not_pushing hnone, holding_of_not_pushing hnone, Peer.own_nil, List.map_nil, List.nil_append,
      List.nil_append]
    by_cases hpull : ∃ turn, r.phase = .pulling turn
    · obtain ⟨turn, hp⟩ := hpull
      rw [step_of_pulling hp]
    · have hpull' : ∀ turn, r.phase ≠ .pulling turn := fun turn hp => hpull ⟨turn, hp⟩
      rw [holding_of_not_pushing (step_of_neither hpull' hnone), hpassage.waiting_eq hpull',
        List.nil_append]

/-- The router finds the queue to the link unavailable only when this queue
refuses a frame. -/
theorem refused_of_linkUnavailable (hnotice : (r.step h).notice = some .linkUnavailable) :
    ∃ turn frame why, r.phase = .pushing turn frame
      ∧ h.link.forth.trySend frame.encode = .error why := by
  unfold step at hnotice
  split at hnotice
  · cases hnotice
  · split at hnotice <;> cases hnotice
  · unfold listen at hnotice
    split at hnotice
    · cases hnotice
    · split at hnotice
      · dsimp only at hnotice
        split at hnotice <;> cases hnotice
      · cases hnotice
      · cases hnotice
  · split at hnotice
    · unfold deliver at hnotice
      split at hnotice
      · cases hnotice
      · split at hnotice <;> cases hnotice
    · next diagnostic _ => cases diagnostic <;> cases hnotice
  · cases hnotice
  · unfold visit at hnotice
    dsimp only at hnotice
    split at hnotice
    · split at hnotice <;> cases hnotice
    · split at hnotice <;> cases hnotice
  · unfold pull at hnotice
    dsimp only at hnotice
    split at hnotice
    · cases hnotice
    · split at hnotice
      · cases hnotice
      · split at hnotice <;> cases hnotice
  · next turn frame hp =>
    unfold push at hnotice
    split at hnotice
    · cases hnotice
    · next why hrefused => exact ⟨turn, frame, why, hp, hrefused⟩
  · cases hnotice

end

/-! ## The turns of a pass -/

theorem visit_outcome (r : Router) (h : Hub) {turn : Nat} (hp : r.phase = .visiting turn) :
    (r.step h).router.phase = .resting ∨ (r.step h).router.phase = .pulling turn := by
  simp only [step, hp, visit]
  split <;> split <;> first | exact .inl rfl | exact .inr rfl

namespace Depot

/-- The peers that have their turns in this pass from the turn `t` on. -/
def turnsFrom (d : Depot) (t : Nat) : List Peer :=
  (List.range' t (d.hub.routes.length - t)).map (d.router.peerAt d.hub) ++ [.console]

/-- The peers that still have a turn in this pass. -/
def turnsLeft (d : Depot) : List Peer :=
  match d.router.phase.turn? with
  | some t => d.turnsFrom t
  | none => []

section

variable {d d' : Depot} {t : Nat}

theorem turnsFrom_of_lt (ht : t < d.hub.routes.length) :
    d.turnsFrom t = d.router.peerAt d.hub t :: d.turnsFrom (t + 1) := by
  have hsucc : d.hub.routes.length - t = d.hub.routes.length - (t + 1) + 1 := by omega
  rw [turnsFrom, hsucc, List.range'_succ, List.map_cons, List.cons_append, turnsFrom]

theorem turnsFrom_of_le (ht : d.hub.routes.length ≤ t) : d.turnsFrom t = [.console] := by
  rw [turnsFrom, Nat.sub_eq_zero_of_le ht]
  rfl

theorem turnsFrom_congr (hnext : d'.router.next = d.router.next)
    (hroutes : d'.hub.routes.length = d.hub.routes.length) : d'.turnsFrom t = d.turnsFrom t := by
  rw [turnsFrom, hroutes, funext (peerAt_congr hnext hroutes), turnsFrom]

theorem nodup_turnsFrom (d : Depot) (t : Nat) : (d.turnsFrom t).Nodup := by
  have hboards : ∀ k ∈ List.range' t (d.hub.routes.length - t),
      k < d.hub.routes.length
        ∧ d.router.peerAt d.hub k = .board ((d.router.next + k) % d.hub.routes.length) := by
    intro k hk
    rw [List.mem_range'_1] at hk
    have hlt : k < d.hub.routes.length := by omega
    exact ⟨hlt, if_pos hlt⟩
  rw [turnsFrom, List.nodup_append]
  refine ⟨?_, List.nodup_singleton _, ?_⟩
  · refine List.Nodup.map_on (fun j hj k hk hsame => ?_) List.nodup_range'
    obtain ⟨hjlt, hjpeer⟩ := hboards j hj
    obtain ⟨hklt, hkpeer⟩ := hboards k hk
    rw [hjpeer, hkpeer] at hsame
    have hmod := Peer.board.inj hsame
    rcases Nat.lt_trichotomy j k with hlt | heq | hlt
    · exact absurd hmod (mod_ne_of_lt hklt hlt)
    · exact heq
    · exact absurd hmod.symm (mod_ne_of_lt hjlt hlt)
  · rintro peer hpeer peer' hconsole rfl
    obtain ⟨k, hk, rfl⟩ := List.mem_map.mp hpeer
    rw [(hboards k hk).2, List.mem_singleton] at hconsole
    cases hconsole

/-- Once its turn is over a peer has none left in the pass. -/
theorem turnsLeft_of_turnOver (hnext : d'.router.next = d.router.next)
    (hroutes : d'.hub.routes.length = d.hub.routes.length)
    (hphase : d'.router.phase
      = if t < d.hub.routes.length then .visiting (t + 1) else .resting) :
    (d.router.peerAt d.hub t :: d'.turnsLeft).Sublist (d.turnsFrom t) := by
  by_cases ht : t < d.hub.routes.length
  · rw [if_pos ht] at hphase
    rw [turnsFrom_of_lt ht, turnsLeft, hphase]
    show (d.router.peerAt d.hub t :: d'.turnsFrom (t + 1)).Sublist _
    rw [turnsFrom_congr hnext hroutes]
  · rw [if_neg ht] at hphase
    rw [turnsFrom_of_le (Nat.le_of_not_lt ht), turnsLeft, hphase, peerAt, if_neg ht]
    exact .refl _

/-- What a step queues for the link it takes at the turn of a peer that has no
other turn after it. -/
theorem step_turns (d : Depot) (hbusy : d.router.phase ≠ .resting) :
    ((d.router.forwarded d.hub (d.apply .step).hub).map Prod.fst
      ++ (d.apply .step).turnsLeft).Sublist d.turnsLeft := by
  have hpassage := step_passage d.router d.hub
  have hroutes : (d.apply .step).hub.routes.length = d.hub.routes.length :=
    length_routes_eq hpassage.sameRoutes
  have hnext : (∀ t, d.router.phase = .visiting t → t < d.hub.routes.length) →
      (d.apply .step).router.next = d.router.next := step_next d.router d.hub
  have hidle : (∀ t f, d.router.phase ≠ .pushing t f) →
      d.router.forwarded d.hub (d.apply .step).hub = [] := forwarded_of_not_pushing
  cases hp : d.router.phase with
  | resting => exact absurd hp hbusy
  | starting | stopped =>
      have hafter : (d.apply .step).turnsLeft = [] := by
        simp only [turnsLeft, apply, Router.step, hp, goTo, Phase.turn?]
      rw [hidle (by simp [hp]), hafter]
      exact List.nil_sublist _
  | listening | dispatching f | reporting f =>
      have hinbound : d.router.phase.inbound = true := by rw [hp]; rfl
      obtain ⟨hphase, -, -⟩ := step_beforeTurns d.router d.hub hinbound
      have hafter : (d.apply .step).turnsLeft = (d.apply .step).turnsFrom 0 := by
        rw [turnsLeft, apply, turn?_of_inbound hphase]
      have hbefore : d.turnsLeft = d.turnsFrom 0 := by
        rw [turnsLeft, turn?_of_inbound (.inr hinbound)]
      rw [hidle (by simp [hp]), hafter, hbefore,
        turnsFrom_congr (hnext (by simp [hp])) hroutes]
      exact .refl _
  | visiting t =>
      have hbefore : d.turnsLeft = d.turnsFrom t := by rw [turnsLeft, hp]; rfl
      rw [hidle (by simp [hp]), hbefore]
      rcases visit_outcome d.router d.hub hp with hphase | hphase
      · have hafter : (d.apply .step).turnsLeft = [] := by rw [turnsLeft, apply, hphase]; rfl
        rw [hafter]
        exact List.nil_sublist _
      · have hafter : (d.apply .step).turnsLeft = (d.apply .step).turnsFrom t := by
          rw [turnsLeft, apply, hphase]
          rfl
        rw [hafter]
        by_cases ht : t < d.hub.routes.length
        · have hround : ∀ t', d.router.phase = .visiting t' → t' < d.hub.routes.length := by
            intro t' ht'
            rwa [← Phase.visiting.inj (hp.symm.trans ht')]
          rw [turnsFrom_congr (hnext hround) hroutes]
          exact .refl _
        · -- The rotation has moved on, but the console comes last in any case.
          rw [turnsFrom_of_le (Nat.le_of_not_lt ht),
            turnsFrom_of_le (hroutes.symm ▸ Nat.le_of_not_lt ht)]
          exact .refl _
  | pulling t =>
      obtain ⟨-, hphase⟩ := pull_outcome d.router d.hub hp
      have hbefore : d.turnsLeft = d.turnsFrom t := by rw [turnsLeft, hp]; rfl
      have hnext' := hnext (by simp [hp])
      rw [hidle (by simp [hp]), hbefore]
      rcases hphase with ⟨g, hphase⟩ | hphase
      · have hafter : (d.apply .step).turnsLeft = (d.apply .step).turnsFrom t := by
          rw [turnsLeft, apply, hphase]
          rfl
        rw [hafter, turnsFrom_congr hnext' hroutes]
        exact .refl _
      · exact (List.sublist_cons_self _ _).trans (turnsLeft_of_turnOver hnext' hroutes hphase)
  | pushing t f =>
      obtain ⟨-, hlength, hphase⟩ := push_outcome d.router d.hub hp
      have hbefore : d.turnsLeft = d.turnsFrom t := by rw [turnsLeft, hp]; rfl
      have hover := turnsLeft_of_turnOver (hnext (by simp [hp])) hroutes hphase
      rw [hbefore]
      have hfew : (d.hub.enqueued (d.apply .step).hub).length ≤ 1 := by
        rw [Hub.enqueued, List.length_drop]
        exact Nat.sub_le_of_le_add (Nat.add_comm 1 _ ▸ hlength)
      rw [forwarded, List.map_map, hp]
      cases henqueued : d.hub.enqueued (d.apply .step).hub with
      | nil => exact (List.sublist_cons_self _ _).trans hover
      | cons raw more =>
          rw [henqueued, List.length_cons] at hfew
          obtain rfl : more = [] := List.length_eq_zero_iff.mp (by omega)
          exact hover

end

end Depot

/-! ## Whole runs -/

/-- A router at work among its queues, and what has been seen of them. -/
structure Ledger extends Depot where
  /-- What the queues of the peers have accepted. -/
  accepted : List (Peer × Frame) := []
  /-- What has entered the queue to the link, and whose turn it was. -/
  forwarded : List (Peer × List UInt8) := []
  /-- What has been taken from the queue to the link. -/
  transmitted : List (List UInt8) := []

namespace Ledger

def apply (l : Ledger) (act : Act) : Ledger :=
  let d := l.toDepot.apply act
  match act with
  | .step => { l with toDepot := d, forwarded := l.forwarded ++ l.router.forwarded l.hub d.hub }
  | .move move =>
    { l with
      toDepot := d
      accepted := l.accepted ++ l.hub.accepted move
      transmitted := l.transmitted ++ l.hub.transmitted move }

def run (l : Ledger) (acts : List Act) : Ledger := acts.foldl apply l

/-- A new router among these queues, after all that was done. -/
def ofActs (hub : Hub) (acts : List Act) : Ledger := run { hub } acts

theorem toDepot_apply (l : Ledger) (act : Act) : (l.apply act).toDepot = l.toDepot.apply act := by
  cases act <;> rfl

/-- All that the peers' queues have accepted is accounted for. -/
structure Balanced (hub : Hub) (l : Ledger) : Prop where
  reserved : Reserved l.router l.hub
  peers : ∀ peer, (peer.own l.forwarded).map Frame.decode
      ++ (l.router.holding l.hub peer ++ l.hub.waiting peer).map .ok
    = (hub.waiting peer ++ peer.own l.accepted).map .ok
  link : l.transmitted ++ l.hub.link.forth.items
    = hub.link.forth.items ++ l.forwarded.map Prod.snd

theorem Balanced.apply {hub : Hub} {l : Ledger} (hl : Balanced hub l) {act : Act}
    (hact : act ≠ .move .stopTransmitting) : Balanced hub (l.apply act) := by
  cases act with
  | step =>
      refine ⟨(step_passage l.router l.hub).reserved hl.reserved, fun peer => ?_, ?_⟩
      · show (peer.own (l.forwarded ++ _)).map Frame.decode ++ _ = (_ ++ peer.own l.accepted).map _
        rw [Peer.own_append, List.map_append, List.append_assoc]
        exact (congrArg _ (step_conserves hl.reserved peer)).trans (hl.peers peer)
      · show l.transmitted ++ (l.router.step l.hub).hub.link.forth.items
          = _ ++ (l.forwarded ++ _).map Prod.snd
        rw [step_appends hl.reserved, ← List.append_assoc, hl.link, List.append_assoc,
          List.map_append]
        rfl
  | move move =>
      have hmove : move ≠ .stopTransmitting := fun heq => hact (heq ▸ rfl)
      refine ⟨hl.reserved.apply hmove, fun peer => ?_, ?_⟩
      · have hholding : l.router.holding (l.hub.apply move) peer = l.router.holding l.hub peer := by
          have hroutes := Depot.length_routes_eq (Hub.sameRoutes_apply l.hub move)
          simp only [holding, peerAt_congr rfl hroutes]
        show (peer.own l.forwarded).map Frame.decode
            ++ (l.router.holding (l.hub.apply move) peer ++ (l.hub.apply move).waiting peer).map .ok
          = (hub.waiting peer ++ peer.own (l.accepted ++ l.hub.accepted move)).map .ok
        rw [hholding, Hub.waiting_apply, Peer.own_append, ← List.append_assoc, ← List.append_assoc,
          List.map_append, ← List.append_assoc, hl.peers peer, ← List.map_append]
      · show (l.transmitted ++ l.hub.transmitted move) ++ (l.hub.apply move).link.forth.items = _
        rw [List.append_assoc, Hub.transmitted_append]
        exact hl.link

theorem Balanced.run {hub : Hub} {l : Ledger} (hl : Balanced hub l) {acts : List Act}
    (hopen : .move .stopTransmitting ∉ acts) : Balanced hub (l.run acts) := by
  induction acts generalizing l with
  | nil => exact hl
  | cons act acts ih =>
      rw [List.mem_cons, not_or] at hopen
      exact ih (hl.apply (Ne.symm hopen.1)) hopen.2

/-- Until the router rests, what it queues for the link follows the turns that
are left. -/
theorem run_turns {l : Ledger} {acts : List Act} (hreturns : l.Returns acts) :
    ∃ moved, (l.run acts).forwarded = l.forwarded ++ moved
      ∧ (moved.map Prod.fst).Sublist l.turnsLeft := by
  induction acts generalizing l with
  | nil => exact ⟨[], (List.append_nil _).symm, List.nil_sublist _⟩
  | cons act acts ih =>
      obtain ⟨hbusy, hreturns⟩ := hreturns
      rw [← toDepot_apply] at hreturns
      obtain ⟨moved, hmoved, hturns⟩ := ih hreturns
      rw [toDepot_apply] at hturns
      cases act with
      | step =>
          refine ⟨_, hmoved.trans (List.append_assoc ..), ?_⟩
          rw [List.map_append]
          exact (hturns.append_left _).trans (Depot.step_turns l.toDepot hbusy)
      | move move =>
          have hsame : (l.toDepot.apply (.move move)).turnsLeft = l.turnsLeft := by
            have hroutes := Depot.length_routes_eq (Hub.sameRoutes_apply l.hub move)
            simp only [Depot.turnsLeft, Depot.apply, Depot.turnsFrom, hroutes,
              funext (peerAt_congr rfl hroutes)]
          exact ⟨moved, hmoved, hsame ▸ hturns⟩

/-- In a pass at most one frame of each peer gets to the link. -/
theorem run_pass {l : Ledger} {pass : List Act} (hpass : l.IsPass pass) :
    ∃ moved, (l.run pass).forwarded = l.forwarded ++ moved ∧ (moved.map Prod.fst).Nodup := by
  obtain ⟨rest, rfl, hreturns, hdeparture⟩ := hpass.departure
  rw [← toDepot_apply] at hreturns
  obtain ⟨moved, hmoved, hturns⟩ := run_turns hreturns
  have hfirst : (l.apply .step).forwarded = l.forwarded := by
    have hhub : (l.toDepot.apply .step).hub = l.hub := by rw [hdeparture]
    have hnone : l.router.forwarded l.hub (l.toDepot.apply .step).hub = [] := by
      rw [hhub, Router.forwarded, Hub.enqueued_of_append (List.append_nil _).symm, List.map_nil]
    show l.forwarded ++ _ = _
    rw [hnone, List.append_nil]
  refine ⟨moved, hmoved.trans (congrArg (· ++ moved) hfirst), hturns.nodup ?_⟩
  rw [toDepot_apply, hdeparture]
  exact Depot.nodup_turnsFrom _ 0

/-- On the way out nothing is lost, doubled, changed or overtaken, as long as
the queue to the link is served. For each peer what has got to this queue,
then what the router holds and what is still waiting are the frames that the
peer's queue has accepted. Between two passes the router holds none, and in a
pass at most one of each peer gets through. While the queue to the link is
full none is taken from any peer, and none finds it unavailable. -/
theorem nothing_lost_outbound (hub : Hub) (acts : List Act)
    (hserved : hub.link.forth.receiverOpen = true) (hopen : .move .stopTransmitting ∉ acts) :
    let l := ofActs hub acts
    (∀ peer, (peer.own l.forwarded).map Frame.decode
        ++ (l.router.holding l.hub peer ++ l.hub.waiting peer).map .ok
      = (hub.waiting peer ++ peer.own l.accepted).map .ok)
    ∧ l.transmitted ++ l.hub.link.forth.items
      = hub.link.forth.items ++ l.forwarded.map Prod.snd
    ∧ (l.router.isResting = true → ∀ peer, l.router.holding l.hub peer = [])
    ∧ (∀ pass, l.IsPass pass → ∃ moved,
      (l.run pass).forwarded = l.forwarded ++ moved ∧ (moved.map Prod.fst).Nodup)
    ∧ (l.hub.link.forth.isFull = true →
      ∀ peer, (l.router.step l.hub).hub.waiting peer = l.hub.waiting peer)
    ∧ (l.router.step l.hub).notice ≠ some .linkUnavailable := by
  intro l
  have hstart : Balanced hub { hub } := by
    refine ⟨⟨hserved, fun hreserves => nomatch hreserves⟩, fun peer => ?_, ?_⟩
    · simp [holding]
    · simp
  have hl : Balanced hub l := hstart.run hopen
  refine ⟨hl.peers, hl.link, fun hrest => holding_of_isResting hrest l.hub, fun pass => run_pass,
    fun hfull => ?_, fun hnotice => ?_⟩
  · refine (step_passage l.router l.hub).waiting_eq fun turn hp => ?_
    rw [hl.reserved.room (by rw [hp]; rfl)] at hfull
    cases hfull
  · obtain ⟨turn, frame, why, hp, hrefused⟩ := refused_of_linkUnavailable hnotice
    exact hl.reserved.not_refused hp hrefused

/-- The first of two boards hangs up with frames still waiting, and the link has
room for one frame at a time. Two passes get two of its frames through; the
third is still there, and so is all that the second board has queued. -/
theorem hung_up_with_frames_waiting :
    let acts := .move (.hangUp (.board 0) .sending) :: List.replicate 7 .step
      ++ [.move (.transmit 1), .move (.submit (.board 1) (.empty .idRequest 0 2))]
      ++ List.replicate 6 .step
    let l := ofActs (Depot.crowd 1) acts
    (Depot.crowd 1).link.forth.receiverOpen = true ∧ .move .stopTransmitting ∉ acts
      ∧ l.forwarded.map Prod.fst = [.board 0, .board 0] ∧ l.accepted.length = 1
      ∧ l.hub.link.forth.isFull = true
      ∧ ∀ peer, (peer.own l.forwarded).map Frame.decode ++ (l.hub.waiting peer).map .ok
        = ((Depot.crowd 1).waiting peer ++ peer.own l.accepted).map .ok := by
  intro acts l
  have hopen : .move .stopTransmitting ∉ acts := by decide +kernel
  obtain ⟨hpeers, -, hrest, -⟩ := nothing_lost_outbound (Depot.crowd 1) acts rfl hopen
  have hresting : l.router.isResting = true := by decide +kernel
  refine ⟨rfl, hopen, by decide +kernel, by decide +kernel, by decide +kernel, fun peer => ?_⟩
  have hpeer := hpeers peer
  rwa [hrest hresting, List.nil_append] at hpeer

end Ledger

end Router

end BoardFlash
