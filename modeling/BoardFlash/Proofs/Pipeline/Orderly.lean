import BoardFlash.Proofs.Pipeline.Keeping
import BoardFlash.Proofs.Station.Steps

/-!
# A bench in order

`Orderly` is the invariant of a run: the pipe is intact, a session has
its queues open, its frames are for its board, and what is under way to
this board and back is what the session's stage allows. A step of the
router, of the bridge or of another session keeps the frames of a board
(`Keeps`) because whoever is about to put a frame in a queue finds room
there: the queues of the pipe by looking first, and the queue of a session
because it can hold one frame and there is no other. The steps that do
change the frames under way, those of the board and of its own session,
are what `Session.Stage.Allows` follows.

`Orderly.apply` is the step and `run_orderly` a whole run.
-/

namespace BoardFlash

/-! ## The invariant -/

/-- The session updates the board of the route. Unless it is over it can
receive, and its stage allows what is under way. -/
structure Route.Serves (image : Firmware) (r : Route) (s : Session) (p : Pipe)
    (owed : List Frame) : Prop where
  sound : Session.Sound r.board image s
  receiver : s.isOver = false → r.queues.back.receiverOpen = true
  allows : s.isOver = false → s.stage.Allows (r.requests p owed) (r.answers p)

theorem Route.Serves.of_same {image : Firmware} {r r' : Route} {s : Session} {p p' : Pipe}
    {owed owed' : List Frame} (h : r.Serves image s p owed) (hsame : Pipe.SameRoute r r')
    (hkeeps : s.isOver = false → (r'.requests p' owed').Perm (r.requests p owed)
      ∧ (r'.answers p').Perm (r.answers p)) : r'.Serves image s p' owed' := by
  refine ⟨?_, fun hs => ?_, fun hs => ?_⟩
  · rw [hsame.board]
    exact h.sound
  · rw [hsame.receiver]
    exact h.receiver hs
  · obtain ⟨hrequests, hanswers⟩ := hkeeps hs
    exact (h.allows hs).of_perm hrequests hanswers

namespace Bench

/-- While a session is at work nobody has stopped the router or the bridge,
and between each session and its board all is in order. -/
structure Orderly (image : Firmware) (w : Bench) : Prop where
  updating : w.station.phase = .updating
  running : w.station.hub.cancelled = false ∧ w.station.bridgeCancelled = false
  alarm : w.station.alarm = false
  console : w.station.console = none ∧ w.station.hub.console = none
  pipe : w.pipe.Intact
  nodup : w.station.hub.ids.Nodup
  proper : ∀ (i : Nat) (r : Route), w.station.hub.routes[i]? = some r → r.Proper
  serves : ∀ (i : Nat) (s : Session), w.station.campaign.sessions[i]? = some s →
    ∃ r, w.station.hub.routes[i]? = some r ∧ r.Serves image s w.pipe w.owed

/-- Of every session at work the frames under way are kept. -/
def KeepsAll (w w' : Bench) : Prop :=
  ∀ (i : Nat) (s : Session), w.station.campaign.sessions[i]? = some s → s.isOver = false →
    Keeps w w' i

section

variable {image : Firmware} {w : Bench}

theorem keeps_iff {w' : Bench} {i : Nat} {r r' : Route}
    (hr : w.station.hub.routes[i]? = some r) (hr' : w'.station.hub.routes[i]? = some r') :
    Keeps w w' i ↔ (r'.requests w'.pipe w'.owed).Perm (r.requests w.pipe w.owed)
      ∧ (r'.answers w'.pipe).Perm (r.answers w.pipe) := by
  rw [Keeps, requests_eq hr, requests_eq hr', answers_eq hr, answers_eq hr']

/-! ## Events -/

theorem Orderly.router (h : Orderly image w) (now : Instant) (portion : Option Nat) :
    Orderly image (w.apply (.unit .router now portion))
      ∧ KeepsAll w (w.apply (.unit .router now portion)) := by
  have hpassage := Router.step_passage w.station.router w.station.hub
  have hover : Pipe.Handover w.station.hub (w.station.router.step w.station.hub).hub w.pipe
      (w.apply (.unit .router now portion)).pipe :=
    h.pipe.route rfl rfl h.running.1 h.console.2 hpassage
  have hroutes := hpassage.sameRoutes
  have hkeeps : ∀ (i : Nat) (r r' : Route) (s : Session), w.station.hub.routes[i]? = some r →
      (w.station.router.step w.station.hub).hub.routes[i]? = some r' →
      r.Serves image s w.pipe w.owed → s.isOver = false →
      (r'.requests (w.apply (.unit .router now portion)).pipe w.owed).Perm
          (r.requests w.pipe w.owed)
        ∧ (r'.answers (w.apply (.unit .router now portion)).pipe).Perm (r.answers w.pipe) := by
    intro i r r' s hr hr' hserves hs
    exact hover.keeps h.nodup h.proper hr hr' (hserves.receiver hs) (hserves.allows hs).length_le
  refine ⟨⟨h.updating, ⟨?_, h.running.2⟩, h.alarm, ⟨h.console.1, ?_⟩, hover.intact, ?_,
    fun i r' hr' => ?_, fun i s hs => ?_⟩, fun i s hs hlive => ?_⟩
  · exact hpassage.cancelled_eq.trans h.running.1
  · exact hroutes.console_eq_none h.console.2
  · exact hroutes.ids ▸ h.nodup
  · obtain ⟨r, hr, -⟩ := hroutes.exists_route hr'
    obtain ⟨r'', hr'', hsame⟩ := hover.route hr (h.proper i r hr)
    obtain rfl := Option.some.inj (hr''.symm.trans hr')
    exact hsame.proper
  · obtain ⟨r, hr, hserves⟩ := h.serves i s hs
    obtain ⟨r', hr', hsame⟩ := hover.route hr (h.proper i r hr)
    exact ⟨r', hr', hserves.of_same hsame fun hlive => hkeeps i r r' s hr hr' hserves hlive⟩
  · obtain ⟨r, hr, hserves⟩ := h.serves i s hs
    obtain ⟨r', hr', -⟩ := hover.route hr (h.proper i r hr)
    exact (keeps_iff hr hr').mpr (hkeeps i r r' s hr hr' hserves hlive)

/-- The routes are left alone, and so are the frames under way on each. -/
theorem Orderly.serves_of_routes (h : Orderly image w) (w' : Bench)
    (hroutes : w'.station.hub.routes = w.station.hub.routes)
    (hkeeps : ∀ r : Route, (r.requests w'.pipe w'.owed).Perm (r.requests w.pipe w.owed)
      ∧ (r.answers w'.pipe).Perm (r.answers w.pipe)) :
    (∀ (i : Nat) (s : Session), w.station.campaign.sessions[i]? = some s →
        ∃ r, w'.station.hub.routes[i]? = some r ∧ r.Serves image s w'.pipe w'.owed)
      ∧ KeepsAll w w' := by
  refine ⟨fun i s hs => ?_, fun i s hs _ => ?_⟩
  · obtain ⟨r, hr, hserves⟩ := h.serves i s hs
    rw [hroutes]
    exact ⟨r, hr, hserves.of_same ⟨rfl, rfl, h.proper i r hr⟩ fun _ => hkeeps r⟩
  · obtain ⟨r, hr, -⟩ := h.serves i s hs
    exact (keeps_iff hr (by rw [hroutes, hr])).mpr (hkeeps r)

/-- After a step of the bridge that raises no alarm. -/
def served (w : Bench) (portion : Option Nat) : Bench :=
  let link := w.pipe.reply portion
  let r := w.station.bridge.step w.station.trunk link
  { w with
    station := { w.station with
      bridge := r.bridge, hub := { w.station.hub with link := r.trunk.queues } }
    toBoards := w.toBoards ++ Link.sent link w.pipe.call?
    fromBoards := w.fromBoards.drop (Link.received link w.pipe.call?).length }

theorem Orderly.bridge (h : Orderly image w) (now : Instant) (portion : Option Nat) :
    Orderly image (w.serve now portion) ∧ KeepsAll w (w.serve now portion) := by
  cases hstarved : w.pipe.starved with
  | true =>
      rw [serve, if_pos hstarved]
      exact ⟨h, fun _ _ _ _ => .refl w _⟩
  | false =>
      have hpassage := Bridge.step_passage w.station.bridge w.station.trunk (w.pipe.reply portion)
      obtain ⟨hmoves, -, halarm⟩ := h.pipe.serve rfl h.running.2 hstarved hpassage
      have hstation := w.station.step_bridge now (w.pipe.reply portion) halarm
      have hw : w.serve now portion = w.served portion := by
        rw [serve, if_neg (by rw [hstarved]; exact Bool.false_ne_true)]
        dsimp only
        rw [hstation]
        rfl
      rw [hw]
      obtain ⟨hserves, hkeeps⟩ := h.serves_of_routes (w.served portion) rfl
        fun r => ⟨hmoves.requests r w.owed, hmoves.answers r⟩
      exact ⟨⟨h.updating, h.running, h.alarm, h.console, hmoves.intact, h.nodup, h.proper,
        hserves⟩, hkeeps⟩

/-- A board reads a frame, which it owes an answer from then on. -/
theorem Orderly.hear (h : Orderly image w) :
    Orderly image (w.apply .hear) ∧ KeepsAll w (w.apply .hear) := by
  cases hsplit : Frame.split? w.toBoards with
  | none =>
      have hw : w.apply .hear = w := by simp [apply, hsplit]
      rw [hw]
      exact ⟨h, fun _ _ _ _ => .refl w _⟩
  | some head =>
      obtain ⟨f, rest⟩ := head
      obtain ⟨hintact, hdescending, hascending⟩ := h.pipe.hear hsplit
      have hw : w.apply .hear = { w with toBoards := rest, owed := w.owed ++ [f] } := by
        simp [apply, hsplit]
      have hkeeps : ∀ r : Route,
          (r.requests { w.pipe with toBoards := rest } (w.owed ++ [f])).Perm
              (r.requests w.pipe w.owed)
            ∧ (r.answers { w.pipe with toBoards := rest }).Perm (r.answers w.pipe) := by
        intro r
        refine ⟨?_, .of_eq (by simp only [Route.answers, hascending])⟩
        simp only [Route.requests, ← List.filter_append]
        refine (List.Perm.filter _ ?_).append_left _
        rw [← List.append_assoc]
        exact (List.perm_append_singleton f _).trans (hdescending.append_right _).symm
      obtain ⟨hserves, hkeeps⟩ :=
        h.serves_of_routes { w with toBoards := rest, owed := w.owed ++ [f] } rfl hkeeps
      rw [hw]
      exact ⟨⟨h.updating, h.running, h.alarm, h.console, hintact, h.nodup, h.proper, hserves⟩,
        hkeeps⟩

theorem Orderly.interrupt (h : Orderly image w) :
    Orderly image (w.apply .interrupt) ∧ KeepsAll w (w.apply .interrupt) :=
  ⟨⟨h.updating, h.running, h.alarm, h.console, h.pipe, h.nodup, h.proper, h.serves⟩,
    fun _ _ _ _ => keeps_of_eq rfl rfl rfl⟩

theorem Orderly.answer (h : Orderly image w) {k : Nat} {heard frame : Frame}
    (hk : w.owed[k]? = some heard) (hanswers : frame.Answers heard) :
    Orderly image (w.apply (.answer k frame)) := by
  obtain ⟨hintact, -⟩ := h.pipe.put hanswers.1 hanswers.2.1
  rw [w.apply_answer hk hanswers]
  refine ⟨h.updating, h.running, h.alarm, h.console, hintact, h.nodup, h.proper,
    fun i s hs => ?_⟩
  obtain ⟨r, hr, hserves⟩ := h.serves i s hs
  refine ⟨r, hr, ?_⟩
  by_cases hboard : heard.dest = r.board
  · obtain ⟨hrequests, hanswers'⟩ := h.pipe.perm_of_answer hk hanswers hboard
    exact ⟨hserves.sound, hserves.receiver, fun hlive =>
      (hserves.allows hlive).answer hrequests hanswers'⟩
  · exact hserves.of_same ⟨rfl, rfl, h.proper i r hr⟩ fun _ =>
      h.pipe.perm_of_other hk hanswers hboard

/-- The mailbox of a session after one of its steps, as the queues of a
route. -/
def routeAfter (r : Route) (m : Mailbox) : Route :=
  { r with queues := ⟨m.outbound, m.inbound⟩ }

theorem serves_step {r : Route} {s : Session} {owed : List Frame} {p : Pipe} (m : Mailbox)
    (hproper : r.Proper) (hserves : r.Serves image s p owed) (now : Instant)
    (hinbound : m.inbound = r.queues.back) (houtbound : m.outbound = r.queues.forth) :
    (routeAfter r (s.step now m).mailbox).Proper
      ∧ (routeAfter r (s.step now m).mailbox).Serves image (s.step now m).session p owed := by
  have hpassage := Session.step_passage now s m
  have hends := Session.step_mailbox now s m
  have hlive : (s.step now m).session.isOver = false → s.isOver = false := by
    intro hs'
    cases hs : s.isOver with
    | false => rfl
    | true =>
        rw [(Session.step_of_isOver now m hs).1, hs] at hs'
        cases hs'
  have hdest : ∀ f ∈ (s.step now m).mailbox.outbound.items, f.dest = r.board := by
    have hold : ∀ f ∈ m.outbound.items, f.dest = r.board := by
      rw [houtbound]
      exact hproper.dest
    cases hpassage with
    | send x before after cursor inbound outbound =>
        intro f hf
        rw [outbound] at hf
        rcases List.mem_append.mp hf with hf | hf
        · exact hold f hf
        · rw [List.mem_singleton.mp hf, (hserves.sound.fits_of_armed before).dest]
          exact hserves.sound.board
    | quiet _ _ _ outbound | discard _ _ _ _ _ outbound | arm _ _ _ _ _ _ outbound
    | ignore _ _ _ _ _ _ _ outbound | accept _ _ _ _ _ _ _ outbound
    | refuse _ _ _ _ _ _ _ outbound | conclude _ _ _ _ _ _ _ outbound =>
        rw [outbound]
        exact hold
  refine ⟨⟨?_, hdest⟩, Session.step_sound m now hserves.sound, fun hs' => ?_, fun hs' => ?_⟩
  · show 0 < (s.step now m).mailbox.inbound.capacity
    rw [hends.inboundCapacity, hinbound]
    exact hproper.capacity
  · show (s.step now m).mailbox.inbound.receiverOpen = true
    rw [(hends.own hs').1, hinbound]
    exact hserves.receiver (hlive hs')
  · have hallows := hserves.allows (hlive hs')
    rw [Route.requests, Route.answers, ← hinbound, ← houtbound] at hallows
    exact hallows.passage hpassage

theorem Orderly.session (h : Orderly image w) (k : Nat) (now : Instant) (portion : Option Nat) :
    Orderly image (w.apply (.unit (.session k) now portion))
      ∧ ∀ i, i ≠ k → Keeps w (w.apply (.unit (.session k) now portion)) i := by
  have happly : w.apply (.unit (.session k) now portion)
      = { w with
          station := (w.station.step now (w.pipe.reply portion) (.session k)).station } := rfl
  rcases w.station.step_session now (w.pipe.reply portion) k with hsame | ⟨r, s, hr, hs, hstep⟩
  · rw [happly, hsame]
    exact ⟨h, fun i _ => .refl w i⟩
  · rw [happly, hstep]
    obtain ⟨r', hr', hserves⟩ := h.serves k s hs
    obtain rfl := Option.some.inj (hr.symm.trans hr')
    obtain ⟨hproper', hserves'⟩ :=
      serves_step (w.station.mailboxOf k r) (h.proper k r hr) hserves now rfl rfl
    have hself := Hub.route_setQueues hr
      ⟨(s.step now (w.station.mailboxOf k r)).mailbox.outbound,
        (s.step now (w.station.mailboxOf k r)).mailbox.inbound⟩
    refine ⟨⟨h.updating, h.running, h.alarm, h.console, h.pipe, ?_, fun i r' hr' => ?_,
      fun i s' hs' => ?_⟩, fun i hi => ?_⟩
    · show (w.station.hub.setQueues (.board k) _).ids.Nodup
      rw [(Hub.sameRoutes_setQueues ..).ids]
      exact h.nodup
    · by_cases hk : k = i
      · subst hk
        obtain rfl := Option.some.inj (hself.symm.trans hr')
        exact hproper'
      · exact h.proper i r' ((Hub.route_setQueues_ne hk _).symm.trans hr')
    · by_cases hk : k = i
      · subst hk
        obtain ⟨hlt, -⟩ := List.getElem?_eq_some_iff.mp hs
        obtain rfl := Option.some.inj ((List.getElem?_set_self hlt).symm.trans hs')
        exact ⟨_, hself, hserves'⟩
      · obtain ⟨ri, hri, hservesi⟩ := h.serves i s' ((List.getElem?_set_ne hk).symm.trans hs')
        exact ⟨ri, (Hub.route_setQueues_ne hk _).trans hri, hservesi⟩
    · exact keeps_of_eq (Hub.route_setQueues_ne hi.symm _) rfl rfl

/-- The event changes the frames under way to the `i`-th board and back: it
is a step of its session or an answer of the board. -/
def Event.Touches (w : Bench) (i : Nat) : Event → Prop
  | .unit (.session k) _ _ => k = i
  | .answer k _ => ∃ heard r, w.owed[k]? = some heard ∧ w.station.hub.routes[i]? = some r
      ∧ heard.dest = r.board
  | _ => False

/-- Whatever happens while a session is at work keeps the bench in order, and
only what touches the frames of a board changes them. -/
theorem Orderly.apply (h : Orderly image w) (hrunning : w.station.campaign.isOver = false)
    (e : Event) :
    Orderly image (w.apply e) ∧ ∀ i s, w.station.campaign.sessions[i]? = some s →
      s.isOver = false → ¬ e.Touches w i → Keeps w (w.apply e) i := by
  cases e with
  | unit actor now portion =>
      cases actor with
      | session k =>
          obtain ⟨horderly, hkeeps⟩ := h.session k now portion
          exact ⟨horderly, fun i _ _ _ htouches => hkeeps i (Ne.symm htouches)⟩
      | router =>
          obtain ⟨horderly, hkeeps⟩ := h.router now portion
          exact ⟨horderly, fun i s hs hlive _ => hkeeps i s hs hlive⟩
      | bridge =>
          obtain ⟨horderly, hkeeps⟩ := h.bridge now portion
          exact ⟨horderly, fun i s hs hlive _ => hkeeps i s hs hlive⟩
      | console =>
          have hw : w.apply (.unit .console now portion) = w := by
            simp [Bench.apply, Station.step, h.console.1]
          rw [hw]
          exact ⟨h, fun i _ _ _ _ => .refl w i⟩
      | keeper =>
          have hw : w.apply (.unit .keeper now portion) = w := by
            simp [Bench.apply, Station.step, w.station.keep_of_running h.updating hrunning]
          rw [hw]
          exact ⟨h, fun i _ _ _ _ => .refl w i⟩
  | hear =>
      obtain ⟨horderly, hkeeps⟩ := h.hear
      exact ⟨horderly, fun i s hs hlive _ => hkeeps i s hs hlive⟩
  | interrupt =>
      obtain ⟨horderly, hkeeps⟩ := h.interrupt
      exact ⟨horderly, fun i s hs hlive _ => hkeeps i s hs hlive⟩
  | answer k frame =>
      by_cases hanswers : ∃ heard, w.owed[k]? = some heard ∧ frame.Answers heard
      · obtain ⟨heard, hk, hanswers⟩ := hanswers
        refine ⟨h.answer hk hanswers, fun i s hs hlive htouches => ?_⟩
        obtain ⟨r, hr, -⟩ := h.serves i s hs
        have hboard : heard.dest ≠ r.board := fun hboard => htouches ⟨heard, r, hk, hr, hboard⟩
        have hr' : (w.answered k frame).station.hub.routes[i]? = some r := hr
        rw [w.apply_answer hk hanswers]
        exact (keeps_iff hr hr').mpr (h.pipe.perm_of_other hk hanswers hboard)
      · rw [w.apply_answer_of_not fun heard hk hframe => hanswers ⟨heard, hk, hframe⟩]
        exact ⟨h, fun i _ _ _ _ => .refl w i⟩

theorem isOver_apply (e : Event) (hover : w.station.campaign.isOver = true) :
    (w.apply e).station.campaign.isOver = true := by
  cases e with
  | unit actor now portion =>
      cases actor with
      | bridge =>
          show (w.serve now portion).station.campaign.isOver = true
          unfold serve
          split
          · exact hover
          · exact w.station.isOver_of_step now _ .bridge hover
      | session | router | console | keeper => exact w.station.isOver_of_step now _ _ hover
  | hear =>
      simp only [Bench.apply]
      split <;> exact hover
  | interrupt => exact hover
  | answer k frame =>
      simp only [Bench.apply]
      split
      · split <;> exact hover
      · exact hover

end

/-! ## Whole runs -/

theorem start_intact (settings : Settings) (image : Firmware) (boards : List UInt8) :
    (pipe { station := Station.new settings image boards none }).Intact where
  bridge := trivial
  forthOpen := ⟨rfl, rfl⟩
  backOpen := rfl
  forthRoom := fun hreserves => nomatch hreserves
  backRoom := fun hreserves => nomatch hreserves
  forth := fun _ hraw => nomatch hraw
  back := fun _ hraw => nomatch hraw
  written := .nil
  read := .nil
  answers := by
    intro f hf
    simp [Pipe.ascending, pipe, Station.new, Duplex.ofCapacity, Bridge.Phase.held,
      Router.Phase.incoming] at hf

theorem start_orderly (settings : Settings) (image : Firmware) {boards : List UInt8}
    (hcapacity : settings.queueCapacity ≠ 0) (hdistinct : boards.Nodup) :
    Orderly image { station := Station.new settings image boards none } := by
  have hpos : 0 < settings.queueCapacity.toNat := by
    rw [Nat.pos_iff_ne_zero]
    exact fun hzero => hcapacity (UInt64.toNat_inj.mp hzero)
  have hroute : ∀ (i : Nat) (r : Route),
      (Station.new settings image boards none).hub.routes[i]? = some r →
      ∃ board, boards[i]? = some board ∧ r = ⟨board, .ofCapacity settings.queueCapacity.toNat⟩ := by
    intro i r hr
    simp only [Station.new, List.getElem?_map, Option.map_eq_some_iff] at hr
    obtain ⟨board, hboard, rfl⟩ := hr
    exact ⟨board, hboard, rfl⟩
  refine ⟨rfl, ⟨rfl, rfl⟩, rfl, ⟨rfl, rfl⟩, start_intact settings image boards, ?_,
    fun i r hr => ?_, fun i s hs => ?_⟩
  · have hids : (Station.new settings image boards none).hub.ids = boards := by
      simp [Hub.ids, Station.new, Function.comp_def]
    rw [hids]
    exact hdistinct
  · obtain ⟨board, -, rfl⟩ := hroute i r hr
    exact ⟨hpos, fun _ hf => absurd hf List.not_mem_nil⟩
  · simp only [Station.new, Campaign.new, List.getElem?_map, Option.map_eq_some_iff] at hs
    obtain ⟨board, hboard, rfl⟩ := hs
    refine ⟨⟨board, .ofCapacity settings.queueCapacity.toNat⟩, by simp [Station.new, hboard],
      Session.new_sound board image settings, fun _ => rfl, fun _ => ?_⟩
    constructor
    · simp [Route.requests, Pipe.descending, pipe, Station.new, Duplex.ofCapacity,
        Bridge.Phase.unwritten, Router.Phase.outgoing]
    · simp [Route.answers, Pipe.ascending, pipe, Station.new, Duplex.ofCapacity,
        Bridge.Phase.held, Router.Phase.incoming]

/-- A run is in order for as long as a session is at work. -/
theorem run_orderly (settings : Settings) (image : Firmware) {boards : List UInt8}
    (hcapacity : settings.queueCapacity ≠ 0) (hdistinct : boards.Nodup) (events : List Event)
    (hrunning : (run settings image boards events).station.campaign.isOver = false) :
    Orderly image (run settings image boards events) := by
  induction events using List.reverseRecOn with
  | nil => exact start_orderly settings image hcapacity hdistinct
  | append_singleton events e ih =>
      rw [run, List.foldl_append, List.foldl_cons, List.foldl_nil] at hrunning ⊢
      cases hbefore : (run settings image boards events).station.campaign.isOver with
      | true =>
          have hover := isOver_apply e hbefore
          rw [run] at hover
          rw [hover] at hrunning
          cases hrunning
      | false => exact ((ih hbefore).apply hbefore e).1

end Bench

end BoardFlash
