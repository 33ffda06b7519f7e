import BoardFlash.Proofs.Router.Hub
import BoardFlash.Proofs.Router.Passage

/-!
# What the boards' queues can expect of the router

Unless it stops, the router holds on to its ends of all queues
(`Hub.Served`), and it stops only when it is asked to (`Passage.stopped`).
The ends of the link's queues that the bridge holds are never touched. From
the queue of a session it takes frames, and to the queue of its answers it
adds them, one at a time (`Route.Serviced`).
-/

namespace BoardFlash

/-! ## What the router holds on to -/

/-- The router holds its ends of the boards' queues and of those to the
link. -/
structure Hub.Served (h : Hub) : Prop where
  routes : ∀ (i : Nat) (r : Route), h.routes[i]? = some r →
    r.queues.forth.receiverOpen = true ∧ r.queues.back.senderOpen = true
  linkForth : h.link.forth.senderOpen = true
  linkBack : h.link.back.receiverOpen = true

/-- The queues of a peer are replaced by some with the same ends. -/
theorem Hub.Served.setQueues {h : Hub} (hs : h.Served) {peer : Peer} {q : Duplex Frame}
    (hq : h.queues? peer = some q) {d : Duplex Frame}
    (hforth : d.forth.receiverOpen = q.forth.receiverOpen)
    (hback : d.back.senderOpen = q.back.senderOpen) : (h.setQueues peer d).Served := by
  refine ⟨fun i r hr => ?_, ?_, ?_⟩
  · cases peer with
    | console => exact hs.routes i r hr
    | board k =>
        obtain ⟨r', hr', rfl⟩ := queues?_board hq
        by_cases hk : k = i
        · subst hk
          obtain rfl := Option.some.inj ((route_setQueues hr' d).symm.trans hr)
          rw [hforth, hback]
          exact hs.routes k r' hr'
        · exact hs.routes i r ((route_setQueues_ne hk d).symm.trans hr)
  · rw [setQueues_link]
    exact hs.linkForth
  · rw [setQueues_link]
    exact hs.linkBack

namespace Router

theorem not_stopped_of_calm {phase : Phase} (h : phase.calm = true) : phase ≠ .stopped := by
  rintro rfl
  cases h

section

variable {r r' : Router} {h h' : Hub}

/-- Unless it stops, the router holds on to its queues. -/
theorem Passage.served (p : Passage r h r' h') (hs : h.Served) (hgo : r'.phase ≠ .stopped) :
    h'.Served := by
  cases p with
  | stop _ _ after => exact absurd after hgo
  | quiet _ _ hub | refuse _ _ _ _ _ _ hub | divert _ _ _ _ _ hub | drop _ _ _ _ _ _ hub =>
      rw [hub]
      exact hs
  | report _ _ _ hub =>
      rw [hub]
      exact ⟨hs.routes, hs.linkForth, hs.linkBack⟩
  | listen _ back _ _ taken _ _ hub | garble _ back _ _ taken _ _ hub =>
      rw [hub]
      refine ⟨hs.routes, hs.linkForth, ?_⟩
      rw [(Queue.tryRecv_eq_ok_iff.mp taken).2]
      exact hs.linkBack
  | deliver _ _ queues back _ _ found sent _ hub =>
      rw [hub]
      obtain ⟨-, -, rfl⟩ := Queue.trySend_eq_ok_iff.mp sent
      exact hs.setQueues found rfl rfl
  | pull _ queues _ forth _ found taken _ hub =>
      rw [hub]
      refine hs.setQueues found ?_ rfl
      rw [(Queue.tryRecv_eq_ok_iff.mp taken).2]
  | push _ _ forth _ sent _ hub =>
      rw [hub]
      obtain ⟨-, -, rfl⟩ := Queue.trySend_eq_ok_iff.mp sent
      exact ⟨hs.routes, hs.linkForth, hs.linkBack⟩

/-- The router never touches the ends of the link's queues that the bridge
holds. -/
theorem Passage.link_ends (p : Passage r h r' h') :
    h'.link.forth.receiverOpen = h.link.forth.receiverOpen
      ∧ h'.link.back.senderOpen = h.link.back.senderOpen := by
  cases p with
  | quiet _ _ hub | refuse _ _ _ _ _ _ hub | divert _ _ _ _ _ hub | drop _ _ _ _ _ _ hub
  | report _ _ _ hub | stop _ _ _ hub =>
      rw [hub]
      exact ⟨rfl, rfl⟩
  | listen _ back _ _ taken _ _ hub | garble _ back _ _ taken _ _ hub =>
      rw [hub]
      refine ⟨rfl, ?_⟩
      rw [(Queue.tryRecv_eq_ok_iff.mp taken).2]
  | deliver _ _ _ _ _ _ _ _ _ hub | pull _ _ _ _ _ _ _ _ hub =>
      rw [hub, Hub.setQueues_link]
      exact ⟨rfl, rfl⟩
  | push _ _ _ _ sent _ hub =>
      rw [hub]
      obtain ⟨-, -, rfl⟩ := Queue.trySend_eq_ok_iff.mp sent
      exact ⟨rfl, rfl⟩

/-- The router stops only when it is asked to. -/
theorem Passage.stopped (p : Passage r h r' h') (hstop : r'.phase = .stopped) :
    r.phase = .stopped ∨ h.cancelled = true := by
  cases p with
  | quiet _ _ _ _ stopped => exact .inl (stopped hstop)
  | stop _ cancelled => exact .inr cancelled
  | push _ _ _ _ _ after | drop _ _ _ _ _ after => exact absurd hstop (not_stopped_of_calm after)
  | listen _ _ _ _ _ _ after | garble _ _ _ _ _ _ after | deliver _ _ _ _ _ _ _ _ after
  | refuse _ _ _ _ _ after | divert _ _ _ _ after | report _ _ after
  | pull _ _ _ _ _ _ _ after =>
      rw [hstop] at after
      cases after

end

theorem step_of_stopped {r : Router} (h : Hub) (hr : r.phase = .stopped) :
    (r.step h).router.phase = .stopped := by
  rw [step, hr]
  rfl

end Router

/-! ## What the router does to the queues of a board -/

/-- Frames may have been taken from the board's session, and one may have been
put in its queue. -/
structure Route.Serviced (r r' : Route) : Prop where
  forth : ∃ n, r'.queues.forth.items = r.queues.forth.items.drop n
  back : r'.queues.back.items = r.queues.back.items
    ∨ ∃ f, r'.queues.back.items = r.queues.back.items ++ [f]

namespace Route

theorem Serviced.of_same {r r' : Route} (hforth : r'.queues.forth.items = r.queues.forth.items)
    (hback : r'.queues.back.items = r.queues.back.items) : r.Serviced r' :=
  ⟨⟨0, hforth⟩, .inl hback⟩

theorem Serviced.refl (r : Route) : r.Serviced r := .of_same rfl rfl

end Route

namespace Router

theorem serviced_setQueues {h : Hub} {peer : Peer} {q d : Duplex Frame}
    (hq : h.queues? peer = some q) {i : Nat} {r : Route} (hr : h.routes[i]? = some r)
    (hservice : ∀ r : Route, r.queues = q → r.Serviced { r with queues := d }) :
    ∃ r', (h.setQueues peer d).routes[i]? = some r' ∧ r.Serviced r' := by
  cases peer with
  | console => exact ⟨r, hr, .refl r⟩
  | board k =>
      by_cases hk : k = i
      · subst hk
        obtain ⟨r', hr', hq'⟩ := Hub.queues?_board hq
        obtain rfl := Option.some.inj (hr'.symm.trans hr)
        exact ⟨_, Hub.route_setQueues hr d, hservice _ hq'⟩
      · exact ⟨r, (Hub.route_setQueues_ne hk d).trans hr, .refl r⟩

theorem Passage.serviced {r r' : Router} {h h' : Hub} (p : Passage r h r' h') {i : Nat}
    {route : Route} (hr : h.routes[i]? = some route) :
    ∃ route', h'.routes[i]? = some route' ∧ route.Serviced route' := by
  cases p with
  | stop _ _ _ hub =>
      rw [hub]
      have hreleased : h.release.routes[i]?
          = some { route with queues := route.queues.flip.closeFirst.flip } := by
        simp [Hub.release, hr]
      exact ⟨_, hreleased, .of_same rfl rfl⟩
  | deliver frame _ queues back _ _ found sent _ hub =>
      rw [hub]
      obtain ⟨-, -, rfl⟩ := Queue.trySend_eq_ok_iff.mp sent
      refine serviced_setQueues found hr fun r hq => ⟨⟨0, ?_⟩, .inr ⟨frame, ?_⟩⟩
      · rw [hq]
        rfl
      · rw [hq]
  | pull _ queues frame forth _ found taken _ hub =>
      rw [hub]
      refine serviced_setQueues found hr fun r hq => ⟨⟨1, ?_⟩, .inl ?_⟩
      · rw [hq, (Queue.tryRecv_eq_ok_iff.mp taken).1]
        rfl
      · rw [hq]
  | quiet _ _ hub | refuse _ _ _ _ _ _ hub | divert _ _ _ _ _ hub | drop _ _ _ _ _ _ hub
  | report _ _ _ hub | listen _ _ _ _ _ _ _ hub | garble _ _ _ _ _ _ _ hub
  | push _ _ _ _ _ _ hub =>
      rw [hub]
      exact ⟨route, hr, .refl route⟩

end Router

end BoardFlash
