import BoardFlash.Proofs.Pipeline.Bench

/-!
# The frames of one route

A step of the router takes a frame from the queue of a session, puts one
in, or moves one on in the pipe. Either way the frames under way to a
board and back stay the same, but for their order (`Handover.keeps`).
For the route of the frame it leaves one place and comes into another, and
for any other route it does not count.

A frame can only get lost if there is no room for it in the queue of its
session. That queue can hold a frame, so it would have to hold one
already, which is one frame too many.

An answer takes the frame that is answered from the board and puts the
answer in the pipe: for the route of the board the one comes for the other
(`Intact.perm_of_answer`).
-/

namespace BoardFlash

/-- There is room for a frame in the queue to the session, and what comes
from the session is for its board. -/
structure Route.Proper (r : Route) : Prop where
  capacity : 0 < r.queues.back.capacity
  dest : ∀ f ∈ r.queues.forth.items, f.dest = r.board

/-! ## Frames of other boards -/

section

variable (key : Frame → UInt8) {board : UInt8} {l l' : List Frame} {f : Frame}

theorem filter_perm_of_eq (h : l'.Perm (f :: l)) (hf : key f = board) :
    (l'.filter (key · = board)).Perm (f :: l.filter (key · = board)) := by
  have hfilter := h.filter (key · = board)
  rwa [List.filter_cons_of_pos (by simpa using hf)] at hfilter

theorem filter_perm_of_ne (h : l'.Perm (f :: l)) (hf : key f ≠ board) :
    (l'.filter (key · = board)).Perm (l.filter (key · = board)) := by
  have hfilter := h.filter (key · = board)
  rwa [List.filter_cons_of_neg (by simpa using hf)] at hfilter

end

/-! ## Steps of the router, route by route -/

namespace Pipe

section

variable {h h' : Hub} {p p' : Pipe} {i : Nat} {r : Route}

theorem Moves.requests (hm : Moves p p') (r : Route) (owed : List Frame) :
    (r.requests p' owed).Perm (r.requests p owed) :=
  ((hm.descending.filter _).append_right _).append_left _

theorem Moves.answers (hm : Moves p p') (r : Route) : (r.answers p').Perm (r.answers p) :=
  (hm.ascending.filter _).append_right _

theorem Handover.intact (hh : Handover h h' p p') : p'.Intact := by
  cases hh with
  | still routes moves => exact moves.intact
  | pulled _ _ _ _ _ _ _ intact | delivered _ _ _ _ _ _ _ _ intact | lost _ _ intact =>
      exact intact

/-- What a handover leaves of a route. -/
structure SameRoute (r r' : Route) : Prop where
  board : r'.board = r.board
  receiver : r'.queues.back.receiverOpen = r.queues.back.receiverOpen
  proper : r'.Proper

theorem Handover.route (hh : Handover h h' p p') (hr : h.routes[i]? = some r)
    (hproper : r.Proper) : ∃ r', h'.routes[i]? = some r' ∧ SameRoute r r' := by
  cases hh with
  | still routes | lost _ routes =>
      rw [routes]
      exact ⟨r, hr, rfl, rfl, hproper⟩
  | pulled k d f forth found taken hub =>
      rw [hub]
      by_cases hk : k = i
      · subst hk
        obtain ⟨r', hr', rfl⟩ := Hub.queues?_board found
        obtain rfl := Option.some.inj (hr.symm.trans hr')
        obtain ⟨hitems, hforth⟩ := Queue.tryRecv_eq_ok_iff.mp taken
        refine ⟨_, Hub.route_setQueues hr _, rfl, rfl, hproper.capacity, fun g hg => ?_⟩
        exact hproper.dest g (by rw [hitems]; exact List.mem_cons_of_mem _ hg)
      · rw [Hub.route_setQueues_ne hk]
        exact ⟨r, hr, rfl, rfl, hproper⟩
  | delivered k d f back found route sent hub =>
      rw [hub]
      by_cases hk : k = i
      · subst hk
        obtain ⟨r', hr', rfl⟩ := Hub.queues?_board found
        obtain rfl := Option.some.inj (hr.symm.trans hr')
        obtain ⟨-, -, rfl⟩ := Queue.trySend_eq_ok_iff.mp sent
        exact ⟨_, Hub.route_setQueues hr _, rfl, rfl, hproper.capacity, hproper.dest⟩
      · rw [Hub.route_setQueues_ne hk]
        exact ⟨r, hr, rfl, rfl, hproper⟩

/-- No frame of a board gets lost on the way through the router as long as
its session can receive and nothing else of the board is under way. -/
theorem Handover.keeps (hh : Handover h h' p p') {r' : Route} {owed : List Frame}
    (hnodup : h.ids.Nodup) (hproper : ∀ (k : Nat) (r : Route), h.routes[k]? = some r → r.Proper)
    (hr : h.routes[i]? = some r) (hr' : h'.routes[i]? = some r')
    (hopen : r.queues.back.receiverOpen = true)
    (hfew : (r.requests p owed).length + (r.answers p).length ≤ 1) :
    (r'.requests p' owed).Perm (r.requests p owed) ∧ (r'.answers p').Perm (r.answers p) := by
  cases hh with
  | still routes moves =>
      rw [routes] at hr'
      obtain rfl := Option.some.inj (hr.symm.trans hr')
      exact ⟨moves.requests r owed, moves.answers r⟩
  | pulled k d f forth found taken hub intact descending ascending =>
      obtain ⟨rk, hrk, rfl⟩ := Hub.queues?_board found
      obtain ⟨hitems, -⟩ := Queue.tryRecv_eq_ok_iff.mp taken
      have hdest : f.dest = rk.board :=
        (hproper k rk hrk).dest f (by rw [hitems]; exact List.mem_cons_self)
      subst hub
      by_cases hk : k = i
      · subst hk
        obtain rfl := Option.some.inj (hr.symm.trans hrk)
        obtain rfl := Option.some.inj ((Hub.route_setQueues hr _).symm.trans hr')
        refine ⟨?_, ?_⟩
        · simp only [Route.requests, hitems]
          have hfilter := filter_perm_of_eq Frame.dest descending hdest
          exact ((hfilter.append_right _).append_left _).trans List.perm_middle
        · simp only [Route.answers, ascending]
          exact .refl _
      · rw [Hub.route_setQueues_ne hk] at hr'
        obtain rfl := Option.some.inj (hr.symm.trans hr')
        have hother : f.dest ≠ r.board := by
          intro hsame
          have hroute := Hub.isRouteOf_of_nodup hnodup hrk
          rw [← hdest, hsame] at hroute
          exact hk (Hub.isRouteOf_unique hroute (Hub.isRouteOf_of_nodup hnodup hr))
        refine ⟨?_, ?_⟩
        · have hfilter := filter_perm_of_ne Frame.dest descending hother
          exact (hfilter.append_right _).append_left _
        · simp only [Route.answers, ascending]
          exact .refl _
  | delivered k d f back found route sent hub intact descending ascending =>
      obtain ⟨rk, hrk, rfl⟩ := Hub.queues?_board found
      obtain ⟨-, -, rfl⟩ := Queue.trySend_eq_ok_iff.mp sent
      subst hub
      by_cases hk : k = i
      · subst hk
        obtain rfl := Option.some.inj (hr.symm.trans hrk)
        obtain rfl := Option.some.inj ((Hub.route_setQueues hr _).symm.trans hr')
        refine ⟨?_, ?_⟩
        · simp only [Route.requests, descending]
          exact .refl _
        · have hsource : f.source = r.board := (Hub.board_of_isRouteOf route hr).symm
          have hfilter := filter_perm_of_eq Frame.source ascending hsource
          simp only [Route.answers]
          rw [← List.append_assoc]
          exact (List.perm_append_singleton _ _).trans (hfilter.append_right _).symm
      · rw [Hub.route_setQueues_ne hk] at hr'
        obtain rfl := Option.some.inj (hr.symm.trans hr')
        have hother : f.source ≠ r.board := by
          intro hsame
          rw [hsame] at route
          exact hk (Hub.isRouteOf_unique route (Hub.isRouteOf_of_nodup hnodup hr))
        refine ⟨?_, ?_⟩
        · simp only [Route.requests, descending]
          exact .refl _
        · exact ((filter_perm_of_ne Frame.source ascending hother).append_right _).symm
  | lost f routes intact why descending ascending =>
      rw [routes] at hr'
      obtain rfl := Option.some.inj (hr.symm.trans hr')
      -- A lost frame is none of this board: there would be room for it, since
      -- nothing else of the board can be in the queue.
      have hother : f.source ≠ r.board := by
        intro hsame
        have hroute := Hub.isRouteOf_of_nodup hnodup hr
        have hadmits := why i (hsame ▸ hroute)
        have hfilter := (filter_perm_of_eq Frame.source ascending hsame).length_eq
        simp only [Route.answers, List.length_append, hfilter, List.length_cons] at hfew
        have hroom := (hproper i r hr).capacity
        simp only [Hub.admits, Hub.queues?, hr, Option.map_some, Option.any_some, hopen,
          Bool.true_and, Queue.isFull, Bool.not_eq_false', decide_eq_true_eq] at hadmits
        omega
      refine ⟨?_, ?_⟩
      · simp only [Route.requests, descending]
        exact .refl _
      · exact ((filter_perm_of_ne Frame.source ascending hother).append_right _).symm

/-! ## Answers of the boards -/

/-- The frames that the answer of a board concerns. -/
theorem Intact.perm_of_answer (hp : p.Intact) {owed : List Frame} {k : Nat}
    {heard frame : Frame} (hk : owed[k]? = some heard) (hanswers : frame.Answers heard)
    (hboard : heard.dest = r.board) :
    (r.requests p owed).Perm (heard :: r.requests (p.put frame) (owed.eraseIdx k))
      ∧ (r.answers (p.put frame)).Perm (frame :: r.answers p) := by
  obtain ⟨-, hdescending, hascending⟩ := hp.put hanswers.1 hanswers.2.1
  obtain ⟨hlt, rfl⟩ := List.getElem?_eq_some_iff.mp hk
  have howed := (List.getElem_cons_eraseIdx_perm hlt).symm
  refine ⟨?_, ?_⟩
  · have hfilter := filter_perm_of_eq Frame.dest howed hboard
    simp only [Route.requests, hdescending]
    refine ((hfilter.append_left _).append_left _).trans ?_
    rw [← List.append_assoc, ← List.append_assoc]
    exact List.perm_middle
  · have hfilter := filter_perm_of_eq Frame.source hascending (hanswers.2.2.trans hboard)
    exact hfilter.append_right _

/-- An answer of another board makes no difference. -/
theorem Intact.perm_of_other (hp : p.Intact) {owed : List Frame} {k : Nat}
    {heard frame : Frame} (hk : owed[k]? = some heard) (hanswers : frame.Answers heard)
    (hboard : heard.dest ≠ r.board) :
    (r.requests (p.put frame) (owed.eraseIdx k)).Perm (r.requests p owed)
      ∧ (r.answers (p.put frame)).Perm (r.answers p) := by
  obtain ⟨-, hdescending, hascending⟩ := hp.put hanswers.1 hanswers.2.1
  obtain ⟨hlt, rfl⟩ := List.getElem?_eq_some_iff.mp hk
  have howed := (List.getElem_cons_eraseIdx_perm hlt).symm
  refine ⟨?_, ?_⟩
  · have hfilter := filter_perm_of_ne Frame.dest howed hboard
    simp only [Route.requests, hdescending]
    exact ((hfilter.append_left _).append_left _).symm
  · have hsource : frame.source ≠ r.board := hanswers.2.2 ▸ hboard
    exact (filter_perm_of_ne Frame.source hascending hsource).append_right _

end

end Pipe

end BoardFlash
