import BoardFlash.Proofs.Bridge.Ending
import BoardFlash.Proofs.Router.Routing
import BoardFlash.Proofs.Router.Service
import BoardFlash.Proofs.Session.Verdict
import BoardFlash.Proofs.Station.Steps

/-!
# The order in which a station comes to its end

A station may take its steps in any order, over any link, and the operator
may interrupt it at any moment (`Station.Event`). Yet its units come to
their ends in one order: the sessions, the console, the router, the bridge.
`Station.Ordered` says so of a state, and `run_ordered` of every state that
a station can reach.

The router is asked to stop only when the sessions and the console are over,
and holds on to all its queues until then (`Hub.Served`). So no session ever
finds them closed, and none comes to be disconnected. The bridge may stop
before its time when the link fails; it then lets go of its queues only after
it has raised the alarm, and with the alarm the group of flags is cancelled.
-/

namespace BoardFlash

/-! ## The console -/

namespace Console

theorem isOver_step {c : Console} (d : Desk) (hover : c.isOver = true) :
    (c.step d).console.isOver = true := by
  unfold isOver at hover
  split at hover
  · next hp =>
    rw [step, hp]
    rfl
  · cases hover

/-- The console never takes its flag back. -/
theorem cancelled_step (c : Console) {d : Desk} (hflag : d.cancelled = true) :
    (c.step d).desk.cancelled = true := by
  unfold step
  split
  · exact hflag
  · split <;> exact hflag
  · unfold read
    split
    · exact hflag
    · split <;> exact hflag
  · unfold judge
    split
    · exact hflag
    · split <;> exact hflag
  · unfold queue
    split <;> exact hflag
  · rfl
  · unfold display
    split
    · exact hflag
    · split <;> exact hflag
  · unfold diagnose
    split
    · exact hflag
    · split
      · exact hflag
      · split <;> exact hflag
  · exact hflag

end Console

/-! ## What can happen to a station -/

namespace Station

inductive Event where
  /-- A unit takes a step at the time `now`; `link` is how the link behaves at
  that moment. -/
  | unit (actor : Actor) (now : Instant) (link : Link)
  /-- The operator interrupts the run. -/
  | interrupt
  /-- The flag of one session is raised before those of the others are. -/
  | raise (i : Nat)
  | raiseConsole
  /-- The operator types a line, or lets go of the keyboard. -/
  | type (line : List Char)
  | endInput

def apply (st : Station) : Event → Station
  | .unit actor now link => (st.step now link actor).station
  | .interrupt => st.interrupt
  | .raise i => { st with flags := st.flags.set i true }
  | .raiseConsole => { st with consoleCancelled := true }
  | .type line =>
    if st.keyboard.senderOpen then { st with keyboard := st.keyboard.offer line } else st
  | .endInput => { st with keyboard := st.keyboard.closeSender }

def run (st : Station) (events : List Event) : Station := events.foldl apply st

/-- How far the keeper has come, as a number. -/
def Phase.rank : Phase → Nat
  | .updating => 0
  | .announcing => 1
  | .shuttingDown => 2
  | .awaitingConsole => 3
  | .cancellingRouter => 4
  | .awaitingRouter => 5
  | .cancellingBridge => 6
  | .awaitingBridge => 7
  | .finished => 8

/-- All flags of the group are set. -/
structure Interrupted (st : Station) : Prop where
  sessions : ∀ flag ∈ st.flags, flag = true
  console : st.consoleCancelled = true

/-- Who has come to an end by when, and who holds on to what until then. -/
structure Ordered (st : Station) : Prop where
  sessionsOver : 1 ≤ st.phase.rank → st.campaign.isOver = true
  consoleOver : 4 ≤ st.phase.rank → st.consoleOver = true
  routerAsked : st.hub.cancelled = true → 5 ≤ st.phase.rank
  routerStopped : st.router.phase = .stopped → st.hub.cancelled = true
  routerOver : 6 ≤ st.phase.rank → st.router.phase = .stopped
  bridgeAsked : st.bridgeCancelled = true → 7 ≤ st.phase.rank
  served : st.router.phase ≠ .stopped → st.hub.Served
  /-- No session has found a queue closed. -/
  connected : ∀ s ∈ st.campaign.sessions,
    (∀ x, s.phase ≠ .lost x) ∧ s.verdict? ≠ some (some .disconnected)
  /-- Without a failure the bridge ends only after the router. -/
  bridgeEnded : st.bridge.phase.ending? = some none → st.router.phase = .stopped
  bridgeFailed : ∀ e, st.bridge.phase.ending? = some (some e) → st.alarm = true
  /-- The bridge holds on to its queues until it is over. -/
  bridgeHolds : st.bridge.isOver = false →
    st.hub.link.forth.receiverOpen = true ∧ st.hub.link.back.senderOpen = true
  alarmed : st.alarm = true → st.Interrupted

/-! ## Events beside the updates -/

/-- What happened concerns the console, the keyboard or the flags alone, and
no flag was taken back. -/
structure Aside (st st' : Station) : Prop where
  campaign : st'.campaign = st.campaign
  router : st'.router = st.router
  bridge : st'.bridge = st.bridge
  bridgeCancelled : st'.bridgeCancelled = st.bridgeCancelled
  alarm : st'.alarm = st.alarm
  phase : st'.phase = st.phase
  routes : st'.hub.routes = st.hub.routes
  link : st'.hub.link = st.hub.link
  cancelled : st'.hub.cancelled = st.hub.cancelled
  consoleOver : st.consoleOver = true → st'.consoleOver = true
  interrupted : st.Interrupted → st'.Interrupted

theorem Ordered.aside {st st' : Station} (h : st.Ordered) (ha : st.Aside st') : st'.Ordered where
  sessionsOver := by
    rw [ha.phase, ha.campaign]
    exact h.sessionsOver
  consoleOver := by
    rw [ha.phase]
    exact fun hphase => ha.consoleOver (h.consoleOver hphase)
  routerAsked := by
    rw [ha.cancelled, ha.phase]
    exact h.routerAsked
  routerStopped := by
    rw [ha.cancelled, ha.router]
    exact h.routerStopped
  routerOver := by
    rw [ha.phase, ha.router]
    exact h.routerOver
  bridgeAsked := by
    rw [ha.phase, ha.bridgeCancelled]
    exact h.bridgeAsked
  served := by
    rw [ha.router]
    exact fun hgo =>
      ⟨ha.routes ▸ (h.served hgo).routes, ha.link ▸ (h.served hgo).linkForth,
        ha.link ▸ (h.served hgo).linkBack⟩
  connected := by
    rw [ha.campaign]
    exact h.connected
  bridgeEnded := by
    rw [ha.bridge, ha.router]
    exact h.bridgeEnded
  bridgeFailed := by
    rw [ha.bridge, ha.alarm]
    exact h.bridgeFailed
  bridgeHolds := by
    rw [ha.bridge, ha.link]
    exact h.bridgeHolds
  alarmed := by
    rw [ha.alarm]
    exact fun halarm => ha.interrupted (h.alarmed halarm)

theorem aside_console (st : Station) (now : Instant) (link : Link) :
    st.Aside (st.step now link .console).station := by
  unfold step
  dsimp only
  split
  · next c d hc hd =>
    obtain ⟨q, hq, rfl⟩ := Option.map_eq_some_iff.mp hd
    refine ⟨rfl, rfl, rfl, rfl, rfl, rfl, rfl, rfl, rfl, fun hover => ?_, fun hall => ?_⟩
    · rw [consoleOver, hc] at hover
      exact Console.isOver_step _ hover
    · exact ⟨hall.sessions, Console.cancelled_step c hall.console⟩
  · exact ⟨rfl, rfl, rfl, rfl, rfl, rfl, rfl, rfl, rfl, id, id⟩

theorem aside_raise (st : Station) (i : Nat) : st.Aside (st.apply (.raise i)) :=
  ⟨rfl, rfl, rfl, rfl, rfl, rfl, rfl, rfl, rfl, id, fun hall =>
    ⟨fun flag hflag => (List.mem_or_eq_of_mem_set hflag).elim (hall.sessions flag) id,
      hall.console⟩⟩

theorem aside_raiseConsole (st : Station) : st.Aside (st.apply .raiseConsole) :=
  ⟨rfl, rfl, rfl, rfl, rfl, rfl, rfl, rfl, rfl, id, fun hall => ⟨hall.sessions, rfl⟩⟩

theorem interrupted_interrupt (st : Station) : st.interrupt.Interrupted := by
  refine ⟨fun flag hflag => ?_, rfl⟩
  obtain ⟨_, -, rfl⟩ := List.mem_map.mp hflag
  rfl

theorem aside_interrupt (st : Station) : st.Aside st.interrupt :=
  ⟨rfl, rfl, rfl, rfl, rfl, rfl, rfl, rfl, rfl, id, fun _ => interrupted_interrupt st⟩

theorem aside_type (st : Station) (line : List Char) : st.Aside (st.apply (.type line)) := by
  unfold apply
  dsimp only
  split <;> exact ⟨rfl, rfl, rfl, rfl, rfl, rfl, rfl, rfl, rfl, id, fun hall =>
    ⟨hall.sessions, hall.console⟩⟩

/-! ## Steps of the units -/

theorem Ordered.router {st : Station} (h : st.Ordered) (now : Instant) (link : Link) :
    (st.step now link .router).station.Ordered := by
  have hpassage := Router.step_passage st.router st.hub
  have hstay := Router.step_of_stopped (r := st.router) st.hub
  obtain ⟨hforth, hback⟩ := hpassage.link_ends
  exact {
    sessionsOver := h.sessionsOver
    consoleOver := h.consoleOver
    routerAsked := fun hasked => h.routerAsked (hpassage.cancelled_eq ▸ hasked)
    routerStopped := fun hstop => hpassage.cancelled_eq.trans
      ((hpassage.stopped hstop).elim h.routerStopped id)
    routerOver := fun hphase => hstay (h.routerOver hphase)
    bridgeAsked := h.bridgeAsked
    served := fun hgo => hpassage.served (h.served fun hstop => hgo (hstay hstop)) hgo
    connected := h.connected
    bridgeEnded := fun hend => hstay (h.bridgeEnded hend)
    bridgeFailed := h.bridgeFailed
    bridgeHolds := fun hgo =>
      ⟨hforth.trans (h.bridgeHolds hgo).1, hback.trans (h.bridgeHolds hgo).2⟩
    alarmed := fun halarm => ⟨(h.alarmed halarm).sessions, (h.alarmed halarm).console⟩ }

/-- A step of the bridge, and all of the group is cancelled with the alarm. -/
theorem step_bridge_eq (st : Station) (now : Instant) (link : Link) :
    ∃ flags consoleCancelled,
      (st.step now link .bridge).station
        = { st with
            bridge := (st.bridge.step st.trunk link).bridge
            hub := { st.hub with link := (st.bridge.step st.trunk link).trunk.queues }
            alarm := (st.bridge.step st.trunk link).trunk.alarm
            flags, consoleCancelled }
      ∧ ((st.alarm = true → st.Interrupted) → (st.bridge.step st.trunk link).trunk.alarm = true →
          (∀ flag ∈ flags, flag = true) ∧ consoleCancelled = true) := by
  simp only [step, setTrunk]
  split
  · refine ⟨_, _, rfl, fun _ _ => ?_⟩
    obtain ⟨hsessions, hconsole⟩ := interrupted_interrupt st
    exact ⟨hsessions, hconsole⟩
  · next hsame =>
    refine ⟨_, _, rfl, fun hall halarm => ?_⟩
    rw [halarm, Bool.true_and, Bool.not_eq_true, Bool.not_eq_false'] at hsame
    exact ⟨(hall hsame).sessions, (hall hsame).console⟩

theorem Ordered.bridge {st : Station} (h : st.Ordered) (now : Instant) (link : Link) :
    (st.step now link .bridge).station.Ordered := by
  have hpassage := Bridge.step_passage st.bridge st.trunk link
  have hover := Bridge.isOver_step (b := st.bridge) st.trunk link
  obtain ⟨hforth, hback, -⟩ := hpassage.far_ends
  obtain ⟨flags, consoleCancelled, hstep, hall⟩ := step_bridge_eq st now link
  rw [hstep]
  generalize st.bridge.step st.trunk link = r at *
  -- While the router is at work, the bridge is not asked to stop, nor is its
  -- queue closed.
  have hidle : st.trunk.cancelled = true ∨ st.trunk.queues.forth.senderOpen = false →
      st.router.phase = .stopped := by
    rintro (hasked | hclosed)
    · exact h.routerOver (Nat.le_of_succ_le (h.bridgeAsked hasked))
    · refine Decidable.byContradiction fun hgo => ?_
      rw [show st.trunk.queues.forth.senderOpen = true from (h.served hgo).linkForth] at hclosed
      cases hclosed
  exact {
    sessionsOver := h.sessionsOver
    consoleOver := h.consoleOver
    routerAsked := h.routerAsked
    routerStopped := h.routerStopped
    routerOver := h.routerOver
    bridgeAsked := h.bridgeAsked
    served := fun hgo => ⟨(h.served hgo).routes, hforth.trans (h.served hgo).linkForth,
      hback.trans (h.served hgo).linkBack⟩
    connected := h.connected
    bridgeEnded := fun hend => by
      rcases hpassage.ending hend with hbefore | ⟨-, hwhy⟩ | ⟨hsome, -⟩
      · exact h.bridgeEnded hbefore
      · exact hidle (hwhy.imp_right And.right)
      · exact absurd rfl hsome
    bridgeFailed := fun e hend => by
      rcases hpassage.ending hend with hbefore | ⟨hnone, -⟩ | ⟨-, halarm⟩
      · exact hpassage.alarm_of_alarm (h.bridgeFailed e hbefore)
      · cases hnone
      · exact halarm
    bridgeHolds := fun hgo => by
      obtain ⟨hown, hown'⟩ := hpassage.near_ends hgo
      have hbefore : st.bridge.isOver = false := by
        refine Bool.eq_false_iff.mpr fun hstopped => ?_
        rw [hover hstopped] at hgo
        cases hgo
      exact ⟨hown.trans (h.bridgeHolds hbefore).1, hown'.trans (h.bridgeHolds hbefore).2⟩
    alarmed := fun halarm => ⟨(hall h.alarmed halarm).1, (hall h.alarmed halarm).2⟩ }

/-- The keeper goes on to a phase for which everything is in order. -/
theorem Ordered.goTo {st : Station} (h : st.Ordered) {phase : Phase}
    (hrank : st.phase.rank ≤ phase.rank) (hsessions : st.campaign.isOver = true)
    (hconsole : 4 ≤ phase.rank → st.consoleOver = true)
    (hrouter : 6 ≤ phase.rank → st.router.phase = .stopped) (notice : Option Notice) :
    (st.goTo phase notice).station.Ordered :=
  { h with
    sessionsOver := fun _ => hsessions
    consoleOver := hconsole
    routerAsked := fun hasked => Nat.le_trans (h.routerAsked hasked) hrank
    routerOver := hrouter
    bridgeAsked := fun hasked => Nat.le_trans (h.bridgeAsked hasked) hrank
    alarmed := fun halarm => ⟨(h.alarmed halarm).sessions, (h.alarmed halarm).console⟩ }

theorem Ordered.keeper {st : Station} (h : st.Ordered) : st.keep.station.Ordered := by
  have hsessions := h.sessionsOver
  have hconsole := h.consoleOver
  have hrouter := h.routerOver
  cases hp : st.phase <;> rw [hp] at hsessions hconsole hrouter <;> simp only [keep, hp]
  case updating =>
    split
    · next hover =>
      exact h.goTo (by rw [hp]; decide) hover (fun hle => absurd hle (by decide))
        (fun hle => absurd hle (by decide)) _
    · exact h
  case announcing =>
    exact h.goTo (by rw [hp]; decide) (hsessions (by decide)) (fun hle => absurd hle (by decide))
      (fun hle => absurd hle (by decide)) _
  case shuttingDown =>
    exact h.goTo (by rw [hp]; decide) (hsessions (by decide)) (fun hle => absurd hle (by decide))
      (fun hle => absurd hle (by decide)) _
  case awaitingConsole =>
    split
    · next hover =>
      exact (h.aside (aside_raiseConsole st)).goTo (by rw [apply, hp]; decide)
        (hsessions (by decide)) (fun _ => hover) (fun hle => absurd hle (by decide)) _
    · exact h
  case cancellingRouter =>
    have hasked : Ordered { st with hub := st.hub.apply .cancel, phase := .awaitingRouter } :=
      { h with
        sessionsOver := fun _ => hsessions (by decide)
        consoleOver := fun _ => hconsole (by decide)
        routerAsked := fun _ => Nat.le_refl 5
        routerStopped := fun _ => rfl
        routerOver := fun hle => absurd hle (by decide : ¬ 6 ≤ 5)
        bridgeAsked := fun hasked => absurd (h.bridgeAsked hasked) (by rw [hp]; decide)
        served := fun hgo => ⟨(h.served hgo).routes, (h.served hgo).linkForth,
          (h.served hgo).linkBack⟩
        alarmed := fun halarm => ⟨(h.alarmed halarm).sessions, (h.alarmed halarm).console⟩ }
    exact hasked
  case awaitingRouter =>
    split
    · next hover =>
      exact h.goTo (by rw [hp]; decide) (hsessions (by decide)) (fun _ => hconsole (by decide))
        (fun _ => of_decide_eq_true hover) _
    · exact h
  case cancellingBridge =>
    have hasked : Ordered { st with bridgeCancelled := true, phase := .awaitingBridge } :=
      { h with
        sessionsOver := fun _ => hsessions (by decide)
        consoleOver := fun _ => hconsole (by decide)
        routerAsked := fun _ => (by decide : 5 ≤ 7)
        routerOver := fun _ => hrouter (by decide)
        bridgeAsked := fun _ => Nat.le_refl 7
        alarmed := fun halarm => ⟨(h.alarmed halarm).sessions, (h.alarmed halarm).console⟩ }
    exact hasked
  case awaitingBridge =>
    split
    · exact h.goTo (by rw [hp]; decide) (hsessions (by decide)) (fun _ => hconsole (by decide))
        (fun _ => hrouter (by decide)) _
    · exact h
  case finished => exact h

/-- While a session is at work the router holds its queues. -/
theorem Ordered.served_of_live {st : Station} (h : st.Ordered) {i : Nat} {s : Session}
    (hs : st.campaign.sessions[i]? = some s) (hlive : s.isOver = false) :
    st.phase = .updating ∧ st.hub.Served := by
  have hrunning := Campaign.isOver_of_live hs hlive
  have hphase : st.phase = .updating := by
    have hrank : ¬ 1 ≤ st.phase.rank := fun hlate => by
      rw [h.sessionsOver hlate] at hrunning
      cases hrunning
    cases hp : st.phase with
    | updating => rfl
    | _ =>
        rw [hp] at hrank
        exact absurd (by decide) hrank
  refine ⟨hphase, h.served fun hstop => ?_⟩
  have hasked := h.routerAsked (h.routerStopped hstop)
  rw [hphase] at hasked
  exact absurd hasked (by decide)

/-- A session that has not found a queue closed does not come to be
disconnected. -/
theorem connected_step {s : Session} (hlost : ∀ x, s.phase ≠ .lost x)
    (hverdict : s.verdict? ≠ some (some .disconnected)) (now : Instant) (m : Mailbox) :
    (s.step now m).session.verdict? ≠ some (some .disconnected) := by
  intro hdisconnected
  cases hv : s.verdict? with
  | some v =>
      rw [Session.step_of_verdict now m hv] at hdisconnected
      exact hverdict (hv.trans hdisconnected)
  | none =>
      cases Session.step_verdict now m hv hdisconnected with
      | disconnected x _ phase => exact hlost x phase

theorem afterSession_self {st : Station} {i : Nat} {r : Route} {s : Session}
    {reaction : Session.Reaction} (hr : st.hub.routes[i]? = some r)
    (hs : st.campaign.sessions[i]? = some s) (hsession : reaction.session = s)
    (hmailbox : reaction.mailbox = st.mailboxOf i r) : st.afterSession i reaction = st := by
  have hqueues : st.hub.queues? (.board i) = some r.queues := by simp [Hub.queues?, hr]
  have hset : st.campaign.sessions.set i s = st.campaign.sessions := by
    obtain ⟨hi, rfl⟩ := List.getElem?_eq_some_iff.mp hs
    exact List.set_getElem_self hi
  rw [afterSession, hsession, hmailbox, hset, mailboxOf, Hub.setQueues_self hqueues]

theorem Ordered.session {st : Station} (h : st.Ordered) (now : Instant) (link : Link) (i : Nat) :
    (st.step now link (.session i)).station.Ordered := by
  rcases step_session st now link i with hsame | ⟨r, s, hr, hs, hstep⟩
  · rw [hsame]
    exact h
  · cases hover : s.isOver with
    | true =>
        obtain ⟨hsession, hmailbox⟩ := Session.step_of_isOver now (st.mailboxOf i r) hover
        rw [hstep, afterSession_self hr hs hsession hmailbox]
        exact h
    | false =>
        obtain ⟨hphase, hserved⟩ := h.served_of_live hs hover
        obtain ⟨hforth, hback⟩ := hserved.routes i r hr
        have hends := Session.step_mailbox now s (st.mailboxOf i r)
        have hqueues : st.hub.queues? (.board i) = some r.queues := by simp [Hub.queues?, hr]
        have hapart := Session.step_served now s (m := st.mailboxOf i r) hforth hback
        rw [hstep, afterSession]
        exact {
          sessionsOver := fun hlate => by
            rw [show st.phase = .updating from hphase] at hlate
            exact absurd hlate (by decide)
          consoleOver := h.consoleOver
          routerAsked := fun hasked =>
            h.routerAsked ((Hub.setQueues_cancelled ..).symm.trans hasked)
          routerStopped := fun hstop =>
            (Hub.setQueues_cancelled ..).trans (h.routerStopped hstop)
          routerOver := h.routerOver
          bridgeAsked := h.bridgeAsked
          served := fun _ => hserved.setQueues hqueues hends.collecting hends.delivering
          connected := fun s' hs' => by
            rcases List.mem_or_eq_of_mem_set hs' with hmem | rfl
            · exact h.connected s' hmem
            · obtain ⟨hlost, hverdict⟩ := h.connected s (List.mem_of_getElem? hs)
              refine ⟨fun x hx => ?_, connected_step hlost hverdict now _⟩
              rw [hx] at hapart
              cases hapart
          bridgeEnded := h.bridgeEnded
          bridgeFailed := h.bridgeFailed
          bridgeHolds := fun hgo => by
            rw [Hub.setQueues_link]
            exact h.bridgeHolds hgo
          alarmed := fun halarm => ⟨(h.alarmed halarm).sessions, (h.alarmed halarm).console⟩ }

/-! ## Whole runs -/

theorem new_ordered (settings : Settings) (image : Firmware) (boards : List UInt8)
    (keyboard : Option (Queue (List Char))) : (new settings image boards keyboard).Ordered where
  sessionsOver := fun hle => absurd hle (by decide : ¬ 1 ≤ 0)
  consoleOver := fun hle => absurd hle (by decide : ¬ 4 ≤ 0)
  routerAsked := Bool.noConfusion
  routerStopped := Router.Phase.noConfusion
  routerOver := fun hle => absurd hle (by decide : ¬ 6 ≤ 0)
  bridgeAsked := Bool.noConfusion
  served := fun _ => by
    refine ⟨fun i r hr => ?_, rfl, rfl⟩
    obtain ⟨board, -, rfl⟩ := List.mem_map.mp (List.mem_of_getElem? hr)
    exact ⟨rfl, rfl⟩
  connected := fun s hs => by
    obtain ⟨board, -, rfl⟩ := List.mem_map.mp hs
    exact ⟨fun _ => Session.Phase.noConfusion, fun hv => nomatch hv⟩
  bridgeEnded := fun hend => nomatch hend
  bridgeFailed := fun _ hend => nomatch hend
  bridgeHolds := fun _ => ⟨rfl, rfl⟩
  alarmed := Bool.noConfusion

theorem Ordered.apply {st : Station} (h : st.Ordered) (e : Event) : (st.apply e).Ordered := by
  cases e with
  | unit actor now link =>
      cases actor with
      | session i => exact h.session now link i
      | router => exact h.router now link
      | bridge => exact h.bridge now link
      | console => exact h.aside (aside_console st now link)
      | keeper => exact h.keeper
  | interrupt => exact h.aside (aside_interrupt st)
  | raise i => exact h.aside (aside_raise st i)
  | raiseConsole => exact h.aside (aside_raiseConsole st)
  | type line => exact h.aside (aside_type st line)
  | endInput =>
      exact h.aside ⟨rfl, rfl, rfl, rfl, rfl, rfl, rfl, rfl, rfl, id, fun hall =>
        ⟨hall.sessions, hall.console⟩⟩

/-- However a station runs, its units come to their ends in order. -/
theorem run_ordered {st : Station} (h : st.Ordered) (events : List Event) :
    (st.run events).Ordered := by
  induction events generalizing st with
  | nil => exact h
  | cons e events ih => exact ih (h.apply e)

end Station

end BoardFlash
