import BoardFlash.Router.Machine

/-!
# The steps of the router

`Router.Passage` lists what one step of the router can do to the hub.
The router holds a frame in three phases: one from the link that is to
be delivered (`dispatching`), one that is to be reported (`reporting`)
and one from a peer that is to be queued for the link (`pushing`). Each
of the other phases is `free`. A frame is taken up in one step and put
down in another; in between others may change the hub.

`step_passage` is the inversion of `Router.step`: it says all that a
step does to the hub, under which condition, and what the router holds
afterwards.
-/

namespace BoardFlash

namespace Router

/-- The router holds no frame. -/
def Phase.free : Phase → Bool
  | .dispatching _ | .reporting _ | .pushing .. => false
  | _ => true

/-- The router holds no frame, is not about to ask for one and has not
stopped. -/
def Phase.calm : Phase → Bool
  | .starting | .resting | .listening | .visiting _ => true
  | _ => false

/-- The router counts on room in the queue to the link. -/
def Phase.reserves : Phase → Bool
  | .pulling _ | .pushing .. => true
  | _ => false

/-- What one step of the router can do. -/
inductive Passage (r : Router) (h : Hub) (r' : Router) (h' : Hub) : Prop where
  /-- Nothing is moved. A peer is about to be asked for a frame only when
  the queue to the link has room. -/
  | quiet (before : r.phase.free = true) (after : r'.phase.free = true) (hub : h' = h)
      (room : ∀ turn, r'.phase = .pulling turn → h.link.forth.isFull = false)
      (stopped : r'.phase = .stopped → r.phase = .stopped)
  | stop (before : r.phase = .resting) (cancelled : h.cancelled = true)
      (after : r'.phase = .stopped) (hub : h' = h.release)
  | listen (raw : List UInt8) (back : Queue (List UInt8)) (frame : Frame)
      (before : r.phase = .listening) (taken : h.link.back.tryRecv = .ok (raw, back))
      (decoded : Frame.decode raw = .ok frame) (after : r'.phase = .dispatching frame)
      (hub : h' = { h with link := { h.link with back } })
  | garble (raw : List UInt8) (back : Queue (List UInt8)) (error : Frame.DecodeError)
      (before : r.phase = .listening) (taken : h.link.back.tryRecv = .ok (raw, back))
      (decoded : Frame.decode raw = .error error)
      (after : r'.phase = .reporting (.undecodable raw error))
      (hub : h' = { h with link := { h.link with back } })
  | deliver (frame : Frame) (peer : Peer) (queues : Duplex Frame) (back : Queue Frame)
      (before : r.phase = .dispatching frame) (dest : h.destination frame = .peer peer)
      (found : h.queues? peer = some queues) (sent : queues.back.trySend frame = .ok back)
      (after : r'.phase = .visiting 0) (hub : h' = h.setQueues peer { queues with back })
  | refuse (frame : Frame) (peer : Peer) (before : r.phase = .dispatching frame)
      (dest : h.destination frame = .peer peer)
      (refused : ∀ queues, h.queues? peer = some queues →
        ∃ why, queues.back.trySend frame = .error why)
      (after : r'.phase = .reporting (.undelivered frame)) (hub : h' = h)
  | divert (frame : Frame) (diagnostic : Diagnostic) (before : r.phase = .dispatching frame)
      (dest : h.destination frame = .report diagnostic)
      (after : r'.phase = .reporting diagnostic) (hub : h' = h)
  | report (diagnostic : Diagnostic) (before : r.phase = .reporting diagnostic)
      (after : r'.phase = .visiting 0)
      (hub : h' = { h with diagnostics := h.diagnostics.offer diagnostic })
  | pull (turn : Nat) (queues : Duplex Frame) (frame : Frame) (forth : Queue Frame)
      (before : r.phase = .pulling turn) (found : h.queues? (r.peerAt h turn) = some queues)
      (taken : queues.forth.tryRecv = .ok (frame, forth))
      (after : r'.phase = .pushing turn frame)
      (hub : h' = h.setQueues (r.peerAt h turn) { queues with forth })
  | push (turn : Nat) (frame : Frame) (forth : Queue (List UInt8))
      (before : r.phase = .pushing turn frame)
      (sent : h.link.forth.trySend frame.encode = .ok forth) (after : r'.phase.calm = true)
      (hub : h' = { h with link := { h.link with forth } })
  | drop (turn : Nat) (frame : Frame) (before : r.phase = .pushing turn frame)
      (why : SendRefusal) (refused : h.link.forth.trySend frame.encode = .error why)
      (after : r'.phase.calm = true) (hub : h' = h)

section

variable (r : Router) (h : Hub)

theorem free_of_calm {phase : Phase} (hcalm : phase.calm = true) : phase.free = true := by
  cases phase with
  | dispatching | reporting | pushing => cases hcalm
  | _ => rfl

theorem calm_passage {r' : Router} (before : r.phase.free = true)
    (after : r'.phase.calm = true) : Passage r h r' h := by
  refine .quiet before (free_of_calm after) rfl (fun turn hturn => ?_) fun hstop => ?_
  · rw [hturn] at after
    cases after
  · rw [hstop] at after
    cases after

/-- After a turn the router visits the next peer or rests. -/
theorem turnOver_calm (turn : Nat) (notice : Option Notice) :
    (r.turnOver h turn notice).router.phase.calm = true := by
  unfold turnOver goTo
  dsimp only
  split <;> rfl

theorem turnOver_hub (turn : Nat) (notice : Option Notice) :
    (r.turnOver h turn notice).hub = h := rfl

theorem turnOver_passage (s : Router) (turn : Nat) (notice : Option Notice)
    (before : r.phase.free = true) :
    Passage r h (s.turnOver h turn notice).router (s.turnOver h turn notice).hub := by
  rw [turnOver_hub]
  exact calm_passage r h before (turnOver_calm s h turn notice)

theorem listen_passage (hp : r.phase = .listening) :
    Passage r h (r.listen h).router (r.listen h).hub := by
  have hfree : r.phase.free = true := by rw [hp]; rfl
  unfold listen
  split
  · exact calm_passage r h hfree rfl
  · split
    · next raw back htaken =>
      dsimp only
      split
      · next frame hdecoded => exact .listen raw back frame hp htaken hdecoded rfl rfl
      · next error hdecoded => exact .garble raw back error hp htaken hdecoded rfl rfl
    · exact calm_passage r h hfree rfl
    · exact calm_passage r h hfree rfl

theorem deliver_passage {frame : Frame} {peer : Peer} (hp : r.phase = .dispatching frame)
    (hdest : h.destination frame = .peer peer) :
    Passage r h (r.deliver h peer frame).router (r.deliver h peer frame).hub := by
  unfold deliver
  split
  · next hnone =>
    refine .refuse frame peer hp hdest (fun queues hfound => ?_) rfl rfl
    rw [hnone] at hfound
    cases hfound
  · next queues hfound =>
    split
    · next back hsent => exact .deliver frame peer queues back hp hdest hfound hsent rfl rfl
    · next why hrefused =>
      refine .refuse frame peer hp hdest (fun queues' hfound' => ⟨why, ?_⟩) rfl rfl
      obtain rfl := Option.some.inj (hfound.symm.trans hfound')
      exact hrefused

theorem visit_passage {turn : Nat} (hp : r.phase = .visiting turn) :
    Passage r h (r.visit h turn).router (r.visit h turn).hub := by
  have hfree : r.phase.free = true := by rw [hp]; rfl
  unfold visit
  dsimp only
  split
  · split
    · exact calm_passage r h hfree rfl
    · next hroom =>
      exact .quiet hfree rfl rfl (fun _ _ => by simpa using hroom) (fun hstop => nomatch hstop)
  · split
    · exact calm_passage r h hfree rfl
    · next hroom =>
      exact .quiet hfree rfl rfl (fun _ _ => by simpa using hroom) (fun hstop => nomatch hstop)

theorem pull_passage {turn : Nat} (hp : r.phase = .pulling turn) :
    Passage r h (r.pull h turn).router (r.pull h turn).hub := by
  have hfree : r.phase.free = true := by rw [hp]; rfl
  unfold pull
  dsimp only
  split
  · exact turnOver_passage r h r turn none hfree
  · split
    · exact turnOver_passage r h r turn none hfree
    · next queues hfound =>
      split
      · next frame forth htaken => exact .pull turn queues frame forth hp hfound htaken rfl rfl
      · exact turnOver_passage r h r turn none hfree
      · exact turnOver_passage r h _ turn _ hfree

theorem push_passage {turn : Nat} {frame : Frame} (hp : r.phase = .pushing turn frame) :
    Passage r h (r.push h turn frame).router (r.push h turn frame).hub := by
  unfold push
  split
  · next forth hsent =>
    exact .push turn frame forth hp hsent (turnOver_calm ..) (turnOver_hub ..)
  · next why hrefused =>
    exact .drop turn frame hp why hrefused (turnOver_calm ..) (turnOver_hub ..)

theorem step_passage : Passage r h (r.step h).router (r.step h).hub := by
  unfold step
  split
  · next hp =>
    exact calm_passage r h (by rw [hp]; rfl) rfl
  · next hp =>
    split
    · next hcancelled => exact .stop hp hcancelled rfl rfl
    · exact calm_passage r h (by rw [hp]; rfl) rfl
  · next hp => exact listen_passage r h hp
  · next frame hp =>
    split
    · next peer hdest => exact deliver_passage r h hp hdest
    · next diagnostic hdest => exact .divert frame diagnostic hp hdest rfl rfl
  · next diagnostic hp => exact .report diagnostic hp rfl rfl
  · next turn hp => exact visit_passage r h hp
  · next turn hp => exact pull_passage r h hp
  · next turn frame hp => exact push_passage r h hp
  · next hp =>
    exact .quiet (by rw [hp]; rfl) rfl rfl (fun _ hturn => nomatch hturn) (fun _ => hp)

end

end Router

end BoardFlash
