import BoardFlash.Proofs.Pipeline.Pipe
import BoardFlash.Proofs.Router.Routing

/-!
# The router at the end of the pipe

A step of the router moves a frame within the pipe or hands one over: from
the queue of a session to the pipe (`pulled`) or from the pipe to the
queue of the session whose board sent it (`delivered`). What it hands over
to nobody (`lost`) is a frame from a board without a session, or from one
whose session has no room for it.

`Intact.route` says that this is all a step of the router does, as long as
nobody has stopped it and there is no console. In particular it never finds
the queue to the link full or closed once it has taken a frame.
-/

namespace BoardFlash

namespace Pipe

/-- What a step of the router does to the sessions' queues in the hub and to
the frames in the pipe. -/
inductive Handover (h h' : Hub) (p p' : Pipe) : Prop where
  | still (routes : h'.routes = h.routes) (moves : Moves p p')
  | pulled (k : Nat) (d : Duplex Frame) (f : Frame) (forth : Queue Frame)
      (found : h.queues? (.board k) = some d) (taken : d.forth.tryRecv = .ok (f, forth))
      (hub : h' = h.setQueues (.board k) { d with forth }) (intact : p'.Intact)
      (descending : p'.descending.Perm (f :: p.descending))
      (ascending : p'.ascending = p.ascending)
  | delivered (k : Nat) (d : Duplex Frame) (f : Frame) (back : Queue Frame)
      (found : h.queues? (.board k) = some d) (route : h.isRouteOf k f.source)
      (sent : d.back.trySend f = .ok back)
      (hub : h' = h.setQueues (.board k) { d with back }) (intact : p'.Intact)
      (descending : p'.descending = p.descending)
      (ascending : p.ascending.Perm (f :: p'.ascending))
  | lost (f : Frame) (routes : h'.routes = h.routes) (intact : p'.Intact)
      (why : ∀ k, h.isRouteOf k f.source → h.admits (.board k) = false)
      (descending : p'.descending = p.descending)
      (ascending : p.ascending.Perm (f :: p'.ascending))

section

variable {p : Pipe}

/-- The router turns to something else, and holds no frame before or after. -/
theorem Intact.turn (h : p.Intact) {router : Router.Phase}
    (hbefore : p.router.outgoing = [] ∧ p.router.incoming = [])
    (hafter : router.outgoing = [] ∧ router.incoming = [])
    (hroom : router.reserves = true → p.link.forth.isFull = false) :
    Moves p { p with router } := by
  have hdescending : Pipe.descending { p with router } = p.descending := by
    simp only [descending, hbefore.1, hafter.1]
  have hascending : Pipe.ascending { p with router } = p.ascending := by
    simp only [ascending, hbefore.2, hafter.2]
  refine ⟨{ h with forthRoom := hroom, answers := ?_ }, .of_eq hdescending, .of_eq hascending⟩
  rw [hascending]
  exact h.answers

theorem Intact.listen (h : p.Intact) {f : Frame} {raw : List UInt8} {back : Queue (List UInt8)}
    (hp : p.router = .listening) (htaken : p.link.back.tryRecv = .ok (raw, back))
    (hdecoded : Frame.decode raw = .ok f) :
    Moves p { p with router := .dispatching f, link := { p.link with back } } := by
  obtain ⟨hitems, hback⟩ := Queue.tryRecv_eq_ok_iff.mp htaken
  obtain rfl := Frame.encode_of_decode hdecoded
  have hascending : (Pipe.ascending { p with
      router := .dispatching f, link := { p.link with back } }).Perm p.ascending := by
    rw [List.perm_iff_count]
    intro g
    simp only [ascending, hp, hitems, Router.Phase.incoming, List.filterMap_cons,
      Frame.read?_encode, List.count_append, List.count_cons, List.count_nil]
    omega
  refine ⟨?_, ?_, hascending⟩
  · refine { h with backOpen := ?_, forthRoom := ?_, backRoom := ?_, back := ?_, answers := ?_ }
    · rw [hback]
      exact h.backOpen
    · exact fun hreserves => absurd hreserves Bool.false_ne_true
    · intro hreserves
      have hroom := h.backRoom hreserves
      rw [hback]
      rw [Queue.isFull_eq_false_iff, hitems, List.length_cons] at hroom
      exact Queue.isFull_eq_false_iff.mpr (Nat.lt_of_succ_lt hroom)
    · intro raw hraw
      exact h.back raw (by rw [hitems]; exact List.mem_cons_of_mem _ hraw)
    · exact fun g hg => h.answers g (hascending.mem_iff.mp hg)
  · rw [descending, descending, hp]
    exact .refl _

/-- The frame in the router's hand leaves the pipe. -/
theorem Intact.release (h : p.Intact) {f : Frame} (router : Router.Phase)
    (hp : p.router = .dispatching f) (hafter : router.outgoing = [] ∧ router.incoming = [])
    (hroom : router.reserves = false) :
    Pipe.Intact { p with router }
      ∧ Pipe.descending { p with router } = p.descending
      ∧ p.ascending.Perm (f :: Pipe.ascending { p with router }) := by
  have hincoming : p.router.incoming = [f] := by rw [hp]; rfl
  have houtgoing : p.router.outgoing = [] := by rw [hp]; rfl
  have hascending : p.ascending.Perm (f :: Pipe.ascending { p with router }) := by
    rw [List.perm_iff_count]
    intro g
    simp only [ascending, hincoming, hafter.2, List.count_append, List.count_cons,
      List.count_nil]
    omega
  refine ⟨{ h with forthRoom := ?_, answers := ?_ }, ?_, hascending⟩
  · intro hreserves
    rw [hroom] at hreserves
    cases hreserves
  · intro g hg
    exact h.answers g (hascending.mem_iff.mpr (List.mem_cons_of_mem _ hg))
  · simp only [descending, houtgoing, hafter.1]

theorem Intact.push (h : p.Intact) {turn : Nat} {f : Frame} {forth : Queue (List UInt8)}
    {router : Router.Phase} (hp : p.router = .pushing turn f)
    (hsent : p.link.forth.trySend f.encode = .ok forth)
    (hafter : router.outgoing = [] ∧ router.incoming = []) (hroom : router.reserves = false) :
    Moves p { p with router, link := { p.link with forth } } := by
  obtain ⟨-, -, rfl⟩ := Queue.trySend_eq_ok_iff.mp hsent
  have hincoming : p.router.incoming = [] := by rw [hp]; rfl
  have houtgoing : p.router.outgoing = [f] := by rw [hp]; rfl
  have hascending : Pipe.ascending { p with
      router
      link := { p.link with
        forth := { p.link.forth with items := p.link.forth.items ++ [f.encode] } } }
      = p.ascending := by
    simp only [ascending, hincoming, hafter.2]
  refine ⟨?_, ?_, .of_eq hascending⟩
  · refine { h with forthRoom := ?_, forth := ?_, answers := ?_ }
    · intro hreserves
      rw [hroom] at hreserves
      cases hreserves
    · intro raw hraw
      rcases List.mem_append.mp hraw with hraw | hraw
      · exact h.forth raw hraw
      · exact ⟨f, (List.mem_singleton.mp hraw).symm⟩
    · rw [hascending]
      exact h.answers
  · rw [List.perm_iff_count]
    intro g
    simp only [descending, houtgoing, hafter.1, List.filterMap_append, List.filterMap_cons,
      List.filterMap_nil, Frame.read?_encode, List.count_append, List.count_cons, List.count_nil]
    omega

theorem Intact.pull (h : p.Intact) {turn : Nat} (f : Frame) (hp : p.router = .pulling turn) :
    Pipe.Intact { p with router := .pushing turn f }
      ∧ (Pipe.descending { p with router := .pushing turn f }).Perm (f :: p.descending)
      ∧ Pipe.ascending { p with router := .pushing turn f } = p.ascending := by
  have hascending : Pipe.ascending { p with router := .pushing turn f } = p.ascending := by
    simp only [ascending, hp, Router.Phase.incoming]
  refine ⟨{ h with forthRoom := ?_, answers := ?_ }, ?_, hascending⟩
  · exact fun _ => h.forthRoom (by rw [hp]; rfl)
  · rw [hascending]
    exact h.answers
  · rw [List.perm_iff_count]
    intro g
    simp only [descending, hp, Router.Phase.outgoing, List.count_append, List.count_cons,
      List.count_nil]
    omega

theorem outgoing_of_free {router : Router.Phase} (h : router.free = true) :
    router.outgoing = [] ∧ router.incoming = [] := by
  cases router with
  | pushing | dispatching => cases h
  | _ => exact ⟨rfl, rfl⟩

/-- A step of the router moves a frame within the pipe or hands one over. -/
theorem Intact.route (h : p.Intact) {r r' : Router} {hub hub' : Hub} (hrouter : p.router = r.phase)
    (hlink : p.link = hub.link) (hcancelled : hub.cancelled = false)
    (hconsole : hub.console = none) (hstep : Router.Passage r hub r' hub') :
    Handover hub hub' p { p with router := r'.phase, link := hub'.link } := by
  cases hstep with
  | quiet before after same room stopped =>
      subst same
      rw [← hlink]
      refine .still rfl (h.turn ?_ (outgoing_of_free after) fun hreserves => ?_)
      · rw [hrouter]
        exact outgoing_of_free before
      · cases hphase : r'.phase with
        | pulling turn =>
            rw [hlink]
            exact room turn hphase
        | pushing => rw [hphase] at after; cases after
        | _ => rw [hphase] at hreserves; cases hreserves
  | stop before cancelled after same =>
      rw [hcancelled] at cancelled
      cases cancelled
  | listen raw back f before taken decoded after same =>
      subst same
      rw [after]
      rw [← hlink] at taken ⊢
      exact .still rfl (h.listen (hrouter.trans before) taken decoded)
  | garble raw back error before taken decoded after same =>
      rw [← hlink] at taken
      obtain ⟨f, rfl⟩ := h.back raw (by
        rw [(Queue.tryRecv_eq_ok_iff.mp taken).1]
        exact List.mem_cons_self)
      rw [Frame.decode_encode] at decoded
      cases decoded
  | deliver f peer d back before dest found sent after same =>
      obtain ⟨hintact, hdescending, hascending⟩ :=
        h.release (.visiting 0) (hrouter.trans before) ⟨rfl, rfl⟩ rfl
      have hanswer := h.answers f (hascending.mem_iff.mpr List.mem_cons_self)
      rcases Hub.destination_peer dest with ⟨htype, -⟩ | ⟨-, -, k, hroute, rfl⟩
      · exact absurd htype hanswer.1
      · have hlink' : hub'.link = p.link := by rw [same, Hub.setQueues_link, hlink]
        rw [hlink', after]
        exact .delivered k d f back found hroute sent same hintact hdescending hascending
  | refuse f peer before dest refused after same =>
      subst same
      rw [← hlink, after]
      obtain ⟨hintact, hdescending, hascending⟩ :=
        h.release (.reporting (.undelivered f)) (hrouter.trans before) ⟨rfl, rfl⟩ rfl
      refine .lost f rfl hintact (fun k hroute => ?_) hdescending hascending
      have hanswer := h.answers f (hascending.mem_iff.mpr List.mem_cons_self)
      rcases Hub.destination_peer dest with ⟨htype, -⟩ | ⟨-, -, k', hroute', rfl⟩
      · exact absurd htype hanswer.1
      · obtain rfl := Hub.isRouteOf_unique hroute hroute'
        exact Hub.not_admits_of_refused refused
  | divert f diagnostic before dest after same =>
      subst same
      rw [← hlink, after]
      obtain ⟨hintact, hdescending, hascending⟩ :=
        h.release (.reporting diagnostic) (hrouter.trans before) ⟨rfl, rfl⟩ rfl
      have hanswer := h.answers f (hascending.mem_iff.mpr List.mem_cons_self)
      refine .lost f rfl hintact (fun k hroute => ?_) hdescending hascending
      rcases Hub.destination_report dest with ⟨htype, -⟩ | ⟨-, hdest, -⟩ | ⟨-, -, hnone, -⟩
      · exact absurd htype hanswer.1
      · exact absurd hanswer.2 hdest
      · exact absurd hroute (hnone k)
  | report diagnostic before after same =>
      subst same
      rw [← hlink, after]
      refine .still rfl (h.turn ?_ ⟨rfl, rfl⟩ fun hreserves => nomatch hreserves)
      rw [hrouter, before]
      exact ⟨rfl, rfl⟩
  | pull turn d f forth before found taken after same =>
      have hlink' : hub'.link = p.link := by rw [same, Hub.setQueues_link, hlink]
      rw [hlink', after]
      cases hpeer : r.peerAt hub turn with
      | console =>
          rw [hpeer, Hub.queues?, hconsole] at found
          cases found
      | board k =>
          rw [hpeer] at found same
          obtain ⟨hintact, hdescending, hascending⟩ := h.pull f (hrouter.trans before)
          exact .pulled k d f forth found taken same hintact hdescending hascending
  | push turn f forth before sent after same =>
      subst same
      rw [← hlink] at sent ⊢
      refine .still rfl (h.push (hrouter.trans before) sent
        (outgoing_of_free (Router.free_of_calm after)) ?_)
      cases hphase : r'.phase with
      | pulling | pushing => rw [hphase] at after; cases after
      | _ => rfl
  | drop turn f before why refused after same =>
      have hroom := h.forthRoom (by rw [hrouter, before]; rfl)
      rw [← hlink, Queue.trySend, h.forthOpen.2, hroom] at refused
      cases refused

end

end Pipe

end BoardFlash
