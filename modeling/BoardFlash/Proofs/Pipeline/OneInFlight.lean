import BoardFlash.Proofs.Pipeline.Orderly

/-!
# One frame in flight

While a session is at work there is at most one frame between it and its
board, and nothing that the station does on the way drops it.

This is read off a bench in order: the queue that a frame is put in next
has room for it (`Unobstructed`), and of all that can happen only a step
of the session and an answer of its board change the frames under way, in
one of three ways (`Change`). `one_frame_in_flight` puts this together for
every run.
-/

namespace BoardFlash

namespace Bench

/-- What the router and the bridge are about to put in a queue goes in, as far
as this board is concerned, and its session finds nothing to throw away. -/
structure Unobstructed (w : Bench) (i : Nat) : Prop where
  push : ∀ turn f, w.station.router.phase = .pushing turn f →
    ∃ q, w.station.hub.link.forth.trySend f.encode = .ok q
  store : ∀ raw, w.station.bridge.phase = .storing raw →
    ∃ q, w.station.hub.link.back.trySend raw = .ok q
  deliver : ∀ f r, w.station.hub.routes[i]? = some r →
    w.station.router.phase = .dispatching f → f.source = r.board →
    w.station.hub.destination f = .peer (.board i) ∧ ∃ q, r.queues.back.trySend f = .ok q
  clear : ∀ s r x, w.station.campaign.sessions[i]? = some s →
    w.station.hub.routes[i]? = some r → s.phase = .clearing x → r.queues.back.items = []

/-- How the frames under way to a board and back can change: the session sends
the frame of an exchange, the board answers it, and the session takes the
answer. -/
inductive Change (s : Session) (w w' : Bench) (i : Nat) : Prop where
  | keep (keeps : Keeps w w' i)
  | send (x : Session.Exchange) (stage : s.stage = .armed x)
      (before : w.requests i = [] ∧ w.answers i = [])
      (after : w'.requests i = [x.frame] ∧ w'.answers i = [])
  | answer (heard frame : Frame) (answers : frame.Answers heard)
      (before : w.requests i = [heard] ∧ w.answers i = [])
      (after : w'.requests i = [] ∧ w'.answers i = [frame])
  | take (x : Session.Exchange) (f : Frame) (stage : s.stage = .awaiting x)
      (before : w.requests i = [] ∧ w.answers i = [f])
      (after : w'.requests i = [] ∧ w'.answers i = [])

section

variable {image : Firmware} {w : Bench} {i : Nat} {s : Session}

theorem Orderly.allows (h : Orderly image w) (hs : w.station.campaign.sessions[i]? = some s)
    (hlive : s.isOver = false) : s.stage.Allows (w.requests i) (w.answers i) := by
  obtain ⟨r, hr, hserves⟩ := h.serves i s hs
  rw [requests_eq hr, answers_eq hr]
  exact hserves.allows hlive

theorem Orderly.unobstructed (h : Orderly image w)
    (hs : w.station.campaign.sessions[i]? = some s) (hlive : s.isOver = false) :
    w.Unobstructed i := by
  obtain ⟨r, hr, hserves⟩ := h.serves i s hs
  have hallows := hserves.allows hlive
  refine ⟨fun turn f hp => ?_, fun raw hp => ?_, fun f r' hr' hp hsource => ?_,
    fun s' r' x hs' hr' hp => ?_⟩
  · have hroom : w.station.hub.link.forth.isFull = false :=
      h.pipe.forthRoom (by rw [Bench.pipe, hp]; rfl)
    exact ⟨_, Queue.trySend_eq_ok_iff.mpr
      ⟨h.pipe.forthOpen.2, Queue.isFull_eq_false_iff.mp hroom, rfl⟩⟩
  · have hroom : w.station.hub.link.back.isFull = false :=
      h.pipe.backRoom (by rw [Bench.pipe, hp]; rfl)
    exact ⟨_, Queue.trySend_eq_ok_iff.mpr
      ⟨h.pipe.backOpen, Queue.isFull_eq_false_iff.mp hroom, rfl⟩⟩
  · obtain rfl := Option.some.inj (hr.symm.trans hr')
    have hascending : f ∈ w.pipe.ascending := by
      have hincoming : w.pipe.router.incoming = [f] := by rw [Bench.pipe, hp]; rfl
      rw [Pipe.ascending, hincoming]
      exact List.mem_append_right _ (List.mem_singleton_self f)
    obtain ⟨htype, hdest⟩ := h.pipe.answers f hascending
    have hroute : w.station.hub.isRouteOf i f.source := by
      rw [hsource]
      exact Hub.isRouteOf_of_nodup h.nodup hr
    refine ⟨Hub.destination_of_isRouteOf htype hdest hroute, _,
      Queue.trySend_eq_ok_iff.mpr ⟨hserves.receiver hlive, ?_, rfl⟩⟩
    have hfew := hallows.length_le
    have hmem : f ∈ w.pipe.ascending.filter (·.source = r.board) :=
      List.mem_filter.mpr ⟨hascending, by simpa using hsource⟩
    have hpos := List.length_pos_of_mem hmem
    rw [Route.answers, List.length_append] at hfew
    have hcapacity := (h.proper i r hr).capacity
    omega
  · obtain rfl := Option.some.inj (hr.symm.trans hr')
    obtain rfl := Option.some.inj (hs.symm.trans hs')
    have hstage : s.stage = .idle := by rw [Session.stage, hp]; rfl
    rw [hstage] at hallows
    exact (List.append_eq_nil_iff.mp hallows.2).2

theorem frames_afterSession (w : Bench) {r : Route} (hr : w.station.hub.routes[i]? = some r)
    (reaction : Session.Reaction) :
    requests { w with station := w.station.afterSession i reaction } i
        = reaction.mailbox.outbound.items
          ++ (w.pipe.descending.filter (·.dest = r.board) ++ w.owed.filter (·.dest = r.board))
      ∧ answers { w with station := w.station.afterSession i reaction } i
        = w.pipe.ascending.filter (·.source = r.board) ++ reaction.mailbox.inbound.items := by
  have hself : (w.station.afterSession i reaction).hub.routes[i]?
      = some { r with queues := ⟨reaction.mailbox.outbound, reaction.mailbox.inbound⟩ } :=
    Hub.route_setQueues hr _
  refine ⟨?_, ?_⟩
  · rw [requests_eq hself]
    rfl
  · rw [answers_eq hself]
    rfl

theorem Orderly.session_change (h : Orderly image w)
    (hs : w.station.campaign.sessions[i]? = some s) (hlive : s.isOver = false) (now : Instant)
    (portion : Option Nat) : Change s w (w.apply (.unit (.session i) now portion)) i := by
  have happly : w.apply (.unit (.session i) now portion)
      = { w with
          station := (w.station.step now (w.pipe.reply portion) (.session i)).station } := rfl
  rw [happly]
  rcases w.station.step_session now (w.pipe.reply portion) i with hsame | ⟨r, s', hr, hs', hstep⟩
  · rw [hsame]
    exact .keep (.refl w i)
  · rw [hstep]
    obtain rfl := Option.some.inj (hs.symm.trans hs')
    obtain ⟨r', hr', hserves⟩ := h.serves i s hs
    obtain rfl := Option.some.inj (hr.symm.trans hr')
    have hallows := h.allows hs hlive
    have hbefore : w.requests i = (w.station.mailboxOf i r).outbound.items
          ++ (w.pipe.descending.filter (·.dest = r.board) ++ w.owed.filter (·.dest = r.board))
        ∧ w.answers i = w.pipe.ascending.filter (·.source = r.board)
          ++ (w.station.mailboxOf i r).inbound.items := ⟨requests_eq hr, answers_eq hr⟩
    have hafter := w.frames_afterSession hr (s.step now (w.station.mailboxOf i r))
    have hallows' := hallows
    rw [hbefore.1, hbefore.2] at hallows'
    rcases hallows'.changes (Session.step_passage now s (w.station.mailboxOf i r)) with
      ⟨houtbound, hinbound⟩ | ⟨x, hstage, hrequests, hanswers⟩
      | ⟨x, f, hstage, hrequests, hanswers, hrequests', hanswers'⟩
    · refine .keep ⟨.of_eq ?_, .of_eq ?_⟩
      · rw [hafter.1, houtbound, hbefore.1]
      · rw [hafter.2, hinbound, hbefore.2]
    · rw [hstage] at hallows
      exact .send x hstage hallows ⟨hafter.1.trans hrequests, hafter.2.trans hanswers⟩
    · exact .take x f hstage ⟨hbefore.1.trans hrequests, hbefore.2.trans hanswers⟩
        ⟨hafter.1.trans hrequests', hafter.2.trans hanswers'⟩

theorem Orderly.answer_change (h : Orderly image w)
    (hs : w.station.campaign.sessions[i]? = some s) (hlive : s.isOver = false) {r : Route}
    (hr : w.station.hub.routes[i]? = some r) {k : Nat} {heard frame : Frame}
    (hk : w.owed[k]? = some heard) (hanswers : frame.Answers heard)
    (hboard : heard.dest = r.board) : Change s w (w.apply (.answer k frame)) i := by
  have hlen := (h.allows hs hlive).length_le
  obtain ⟨hrequests, hframes⟩ := h.pipe.perm_of_answer hk hanswers hboard
  have hr' : (w.answered k frame).station.hub.routes[i]? = some r := hr
  rw [requests_eq hr, answers_eq hr, hrequests.length_eq, List.length_cons] at hlen
  have hnil : r.requests (w.pipe.put frame) (w.owed.eraseIdx k) = [] :=
    List.length_eq_zero_iff.mp (by omega)
  have hnone : r.answers w.pipe = [] := List.length_eq_zero_iff.mp (by omega)
  rw [w.apply_answer hk hanswers]
  refine .answer heard frame hanswers ⟨?_, (answers_eq hr).trans hnone⟩
    ⟨(requests_eq hr').trans hnil, ?_⟩
  · rw [requests_eq hr]
    exact List.perm_singleton.mp (hnil ▸ hrequests)
  · rw [answers_eq hr']
    exact List.perm_singleton.mp (hnone ▸ hframes)

/-- Whatever happens while a session is at work, the frames under way to its
board and back change only as its exchange goes on. -/
theorem Orderly.change (h : Orderly image w) (hs : w.station.campaign.sessions[i]? = some s)
    (hlive : s.isOver = false) (e : Event) : Change s w (w.apply e) i := by
  have hrunning := Campaign.isOver_of_live hs hlive
  obtain ⟨-, hkeeps⟩ := h.apply hrunning e
  by_cases htouches : e.Touches w i
  · cases e with
    | unit actor now portion =>
        cases actor with
        | session k =>
            obtain rfl : k = i := htouches
            exact h.session_change hs hlive now portion
        | _ => exact htouches.elim
    | answer k frame =>
        obtain ⟨heard, r, hk, hr, hboard⟩ := htouches
        by_cases hanswers : frame.Answers heard
        · exact h.answer_change hs hlive hr hk hanswers hboard
        · rw [w.apply_answer_of_not fun heard' hk' => by
            rwa [← Option.some.inj (hk.symm.trans hk')]]
          exact .keep (.refl w i)
    | hear => exact htouches.elim
    | interrupt => exact htouches.elim
  · exact .keep (hkeeps i s hs hlive htouches)

end

/-- In every run of a station whose queues can hold a frame, with a link that
works and boards that have ids of their own and answer each frame at most
once, there is at most one frame between a session that is at work and its
board. It is the frame that the session has sent last or the answer to it,
and nothing on the way drops it: it stays until the board answers it or the
session takes it, and no queue that it is put in refuses it. -/
theorem one_frame_in_flight (settings : Settings) (image : Firmware) (boards : List UInt8)
    (events : List Event) (hcapacity : settings.queueCapacity ≠ 0) (hdistinct : boards.Nodup) :
    let w := run settings image boards events
    ∀ i s, w.station.campaign.sessions[i]? = some s → s.isOver = false →
      w.inFlight i ≤ 1
      ∧ s.stage.Allows (w.requests i) (w.answers i)
      ∧ w.Unobstructed i
      ∧ ∀ e, Change s w (w.apply e) i ∧ (¬ e.Touches w i → Keeps w (w.apply e) i) := by
  intro w i s hs hlive
  have hrunning := Campaign.isOver_of_live hs hlive
  have horderly : Orderly image w :=
    run_orderly settings image hcapacity hdistinct events hrunning
  have hallows := horderly.allows hs hlive
  refine ⟨Nat.le_trans (w.inFlight_le i) hallows.length_le, hallows, horderly.unobstructed hs hlive,
    fun e => ⟨horderly.change hs hlive e, ?_⟩⟩
  exact (horderly.apply hrunning e).2 i s hs hlive

/-- The first frame is on its way, and three bytes of it are on the link. -/
def partway : List Event :=
  List.replicate 6 (.unit (.session 0) .origin none)
    ++ List.replicate 6 (.unit .router .origin none)
    ++ List.replicate 6 (.unit .bridge .origin (some 2))

theorem one_frame_in_flight_partway :
    let w := run { queueCapacity := 1 } ⟨#[7], Vector.replicate 32 0, 1, 1⟩ [1] partway
    w.toBoards.length = 3 ∧ w.station.bridge.phase.unwritten ≠ []
      ∧ ∃ s, w.station.campaign.sessions[0]? = some s ∧ s.isOver = false ∧ w.inFlight 0 ≤ 1 := by
  intro w
  have hmap : w.station.campaign.sessions[0]?.map Session.isOver = some false := by
    decide +kernel
  obtain ⟨s, hs, hlive⟩ := Option.map_eq_some_iff.mp hmap
  have hclaim := one_frame_in_flight { queueCapacity := 1 }
    ⟨#[7], Vector.replicate 32 0, 1, 1⟩ [1] partway (by decide) (by decide) 0 s hs hlive
  exact ⟨by decide +kernel, by decide +kernel, s, hs, hlive, hclaim.1⟩

end Bench

end BoardFlash
