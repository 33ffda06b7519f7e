import BoardFlash.Proofs.Station.Order
import Mathlib.Algebra.GroupWithZero.Nat

/-!
# An interrupt reaches everybody

The flags of the sessions are set one by one or all at once: by the operator,
or by the bridge when the link has failed. From the moment that its flag is
set, a session does as it should (`Station.Heeds`). If it has not begun, it
never puts anything in its queue and is over, cancelled, after four turns. If
it has, it is over soon, and has not waited for its board to the end.

What happens to one session and its queues while the station goes on is in
`apply_corner`: either the session takes a turn, or the router takes frames
from the one queue and puts a frame in the other.
-/

namespace BoardFlash

namespace Station

/-! ## One session in the course of events -/

/-- The `i`-th session takes a step with this event. -/
def turn (st : Station) (i : Nat) : Event → Nat
  | .unit (.session k) _ _ => if k = i ∧ st.campaign.mayStep i = true then 1 else 0
  | _ => 0

/-- The number of steps that the `i`-th session takes. -/
def turns (st : Station) (i : Nat) : List Event → Nat
  | [] => 0
  | e :: events => st.turn i e + (st.apply e).turns i events

/-- What an event does to a session and its queues. -/
inductive Corner (st : Station) (e : Event) (i : Nat) (s : Session) (r : Route) (s' : Session)
    (r' : Route) : Prop where
  | turn (now : Instant) (taken : st.turn i e = 1)
      (session : s' = (s.step now (st.mailboxOf i r)).session)
      (inbound : r'.queues.back = (s.step now (st.mailboxOf i r)).mailbox.inbound)
      (outbound : r'.queues.forth = (s.step now (st.mailboxOf i r)).mailbox.outbound)
  | rest (none_ : st.turn i e = 0) (session : s' = s) (serviced : r.Serviced r')

theorem step_session_eq (st : Station) (now : Instant) (link : Link) {i : Nat} {r : Route}
    {s : Session} (hr : st.hub.routes[i]? = some r) (hs : st.campaign.sessions[i]? = some s) :
    (st.step now link (.session i)).station
      = if st.campaign.mayStep i then st.afterSession i (s.step now (st.mailboxOf i r))
        else st := by
  have hmailbox : st.mailbox? i = some (st.mailboxOf i r) := by
    simp [mailbox?, hr, mailboxOf]
  have hself : st.setMailbox i (st.mailboxOf i r) = st := by
    have hqueues : st.hub.queues? (.board i) = some r.queues := by simp [Hub.queues?, hr]
    rw [setMailbox, mailboxOf, Hub.setQueues_self hqueues]
  simp only [step, hmailbox, Campaign.step, hs]
  split
  · rfl
  · exact hself

/-- A session and its queues are not touched by the steps of another. -/
theorem afterSession_ne (st : Station) {i k : Nat} (hk : k ≠ i) (reaction : Session.Reaction) :
    (st.afterSession k reaction).campaign.sessions[i]? = st.campaign.sessions[i]?
      ∧ (st.afterSession k reaction).hub.routes[i]? = st.hub.routes[i]? :=
  ⟨List.getElem?_set_ne hk, Hub.route_setQueues_ne hk _⟩

/-- What the keeper leaves alone. -/
structure Kept (st st' : Station) : Prop where
  campaign : st'.campaign = st.campaign
  routes : st'.hub.routes = st.hub.routes
  flags : st'.flags = st.flags
  bridge : st'.bridge = st.bridge
  alarm : st'.alarm = st.alarm

theorem keep_kept (st : Station) : st.Kept st.keep.station := by
  unfold keep
  split <;> first | exact ⟨rfl, rfl, rfl, rfl, rfl⟩ | (split <;> exact ⟨rfl, rfl, rfl, rfl, rfl⟩)

theorem session_corner (st : Station) (now : Instant) (link : Link) (k : Nat) {i : Nat}
    {s : Session} {r : Route} (hs : st.campaign.sessions[i]? = some s)
    (hr : st.hub.routes[i]? = some r) :
    let st' := (st.step now link (.session k)).station
    ∃ s' r', st'.campaign.sessions[i]? = some s' ∧ st'.hub.routes[i]? = some r'
      ∧ st.Corner (.unit (.session k) now link) i s r s' r' := by
  dsimp only
  by_cases hk : k = i
  · subst hk
    rw [step_session_eq st now link hr hs]
    split
    · next hmay =>
      obtain ⟨hlt, -⟩ := List.getElem?_eq_some_iff.mp hs
      exact ⟨_, _, List.getElem?_set_self hlt, Hub.route_setQueues hr _,
        .turn now (if_pos ⟨rfl, hmay⟩) rfl rfl rfl⟩
    · next hmay => exact ⟨s, r, hs, hr, .rest (if_neg fun h => hmay h.2) rfl (.refl r)⟩
  · have hturn : st.turn i (.unit (.session k) now link) = 0 := if_neg fun h => hk h.1
    rcases step_session st now link k with hsame | ⟨r', s', -, -, hstep⟩
    · rw [hsame]
      exact ⟨s, r, hs, hr, .rest hturn rfl (.refl r)⟩
    · obtain ⟨hsession, hroute⟩ := st.afterSession_ne hk (s'.step now (st.mailboxOf k r'))
      rw [hstep, hsession, hroute]
      exact ⟨s, r, hs, hr, .rest hturn rfl (.refl r)⟩

theorem apply_corner (st : Station) (e : Event) {i : Nat} {s : Session} {r : Route}
    (hs : st.campaign.sessions[i]? = some s) (hr : st.hub.routes[i]? = some r) :
    ∃ s' r', (st.apply e).campaign.sessions[i]? = some s' ∧ (st.apply e).hub.routes[i]? = some r'
      ∧ st.Corner e i s r s' r' := by
  have hrest : ∀ st' : Station, st'.campaign = st.campaign → st'.hub.routes = st.hub.routes →
      st.turn i e = 0 → ∃ s' r', st'.campaign.sessions[i]? = some s'
        ∧ st'.hub.routes[i]? = some r' ∧ st.Corner e i s r s' r' :=
    fun st' hcampaign hroutes hturn =>
      ⟨s, r, hcampaign ▸ hs, hroutes ▸ hr, .rest hturn rfl (.refl r)⟩
  cases e with
  | interrupt | raise k | raiseConsole | endInput => exact hrest _ rfl rfl rfl
  | type line =>
      have haside := aside_type st line
      exact hrest _ haside.campaign haside.routes rfl
  | unit actor now link =>
      cases actor with
      | session k => exact session_corner st now link k hs hr
      | router =>
          obtain ⟨r', hr', hserviced⟩ := (Router.step_passage st.router st.hub).serviced hr
          exact ⟨s, r', hs, hr', .rest rfl rfl hserviced⟩
      | bridge =>
          obtain ⟨flags, consoleCancelled, hstep, -⟩ := step_bridge_eq st now link
          exact hrest _ (by rw [apply, hstep]) (by rw [apply, hstep]) rfl
      | console =>
          have haside := aside_console st now link
          exact hrest _ haside.campaign haside.routes rfl
      | keeper =>
          have hkept := st.keep_kept
          exact hrest _ hkept.campaign hkept.routes rfl

/-! ## Flags that are set -/

/-- Flags are only ever set: none, one or all of them. -/
theorem flags_apply (st : Station) (e : Event) :
    (st.apply e).flags = st.flags ∨ (∃ k, (st.apply e).flags = st.flags.set k true)
      ∨ (st.apply e).flags = st.flags.map fun _ => true := by
  cases e with
  | interrupt => exact .inr (.inr rfl)
  | raiseConsole | endInput => exact .inl rfl
  | raise k => exact .inr (.inl ⟨k, rfl⟩)
  | type line =>
      unfold apply
      dsimp only
      split <;> exact .inl rfl
  | unit actor now link =>
      cases actor with
      | session k =>
          rcases step_session st now link k with hsame | ⟨r, s, -, -, hstep⟩
          · exact .inl (by rw [apply, hsame])
          · exact .inl (by rw [apply, hstep]; rfl)
      | router => exact .inl rfl
      | bridge =>
          simp only [apply, step, setTrunk]
          split
          · exact .inr (.inr rfl)
          · exact .inl rfl
      | console =>
          simp only [apply, step]
          split <;> exact .inl rfl
      | keeper => exact .inl st.keep_kept.flags

theorem flag_apply (st : Station) (e : Event) {i : Nat} (hflag : st.flags[i]? = some true) :
    (st.apply e).flags[i]? = some true := by
  obtain ⟨hlt, -⟩ := List.getElem?_eq_some_iff.mp hflag
  rcases st.flags_apply e with h | ⟨k, h⟩ | h
  · rw [h]
    exact hflag
  · rw [h, List.getElem?_set]
    split
    · next hk => rw [if_pos (hk ▸ hlt)]
    · exact hflag
  · rw [h, List.getElem?_map, hflag]
    rfl

theorem length_flags_apply (st : Station) (e : Event) :
    (st.apply e).flags.length = st.flags.length := by
  rcases st.flags_apply e with h | ⟨k, h⟩ | h <;> rw [h]
  · rw [List.length_set]
  · rw [List.length_map]

theorem cancelled_mailboxOf {st : Station} {i : Nat} (hflag : st.flags[i]? = some true)
    (r : Route) : (st.mailboxOf i r).cancelled = true := by
  simp [mailboxOf, hflag]

/-! ## Sessions that had not begun -/

/-- The flag of the `i`-th session was set before it began. Nothing is in its
queue, and it has `left` steps to its end. -/
structure CalledOff (st : Station) (i left : Nat) : Prop where
  flag : st.flags[i]? = some true
  session : ∃ s, st.campaign.sessions[i]? = some s ∧ s.CalledOff left
  unsent : ∃ r, st.hub.routes[i]? = some r ∧ r.queues.forth.items = []

theorem CalledOff.apply {st : Station} {i left : Nat} (h : st.CalledOff i left) (e : Event) :
    (st.apply e).CalledOff i (left - st.turn i e) := by
  obtain ⟨hflag, ⟨s, hs, hoff⟩, r, hr, hunsent⟩ := h
  obtain ⟨s', r', hs', hr', hcorner⟩ := st.apply_corner e hs hr
  cases hcorner with
  | turn now taken session inbound outbound =>
      obtain ⟨hoff', houtbound⟩ := hoff.step now (cancelled_mailboxOf hflag r)
      rw [taken]
      exact ⟨st.flag_apply e hflag, ⟨s', hs', session ▸ hoff'⟩, r', hr',
        (congrArg Queue.items outbound).trans (houtbound.trans hunsent)⟩
  | rest hnone session serviced =>
      obtain ⟨n, hforth⟩ := serviced.forth
      rw [hnone]
      refine ⟨st.flag_apply e hflag, ⟨s', hs', session ▸ hoff⟩, r', hr', ?_⟩
      rw [hforth, hunsent, List.drop_nil]

theorem CalledOff.run {st : Station} {i left : Nat} (h : st.CalledOff i left)
    (events : List Event) : (st.run events).CalledOff i (left - st.turns i events) := by
  induction events generalizing st left with
  | nil => exact h
  | cons e events ih =>
      rw [turns, Nat.sub_add_eq]
      exact ih (h.apply e)

/-! ## Sessions at work -/

/-- The number of frames in the queue of answers of the `i`-th session. -/
def backlog (st : Station) (i : Nat) : Nat :=
  (st.hub.routes[i]?.map (·.queues.back.items.length)).getD 0

theorem backlog_eq {st : Station} {i : Nat} {r : Route} (hr : st.hub.routes[i]? = some r) :
    st.backlog i = r.queues.back.items.length := by
  simp [backlog, hr]

/-- The number of frames that are put in that queue in the course of the
events. -/
def deliveries (st : Station) (i : Nat) : List Event → Nat
  | [] => 0
  | e :: events => ((st.apply e).backlog i - st.backlog i) + (st.apply e).deliveries i events

theorem patience_apply (st : Station) (e : Event) {i : Nat} {s s' : Session} {r r' : Route}
    (hflag : st.flags[i]? = some true) (hr : st.hub.routes[i]? = some r)
    (hr' : (st.apply e).hub.routes[i]? = some r') (hcorner : st.Corner e i s r s' r')
    (hlive : s.isOver = false) :
    st.turn i e + s'.phase.patience ((st.apply e).backlog i)
      ≤ s.phase.patience (st.backlog i) + ((st.apply e).backlog i - st.backlog i) := by
  rw [backlog_eq hr, backlog_eq hr']
  cases hcorner with
  | turn now taken session inbound outbound =>
      have hless : (s.step now (st.mailboxOf i r)).session.phase.patience
            (s.step now (st.mailboxOf i r)).mailbox.inbound.items.length
          < s.phase.patience r.queues.back.items.length :=
        Session.step_patience now (cancelled_mailboxOf hflag r) hlive
      rw [taken, session, inbound]
      omega
  | rest hnone session serviced =>
      rw [hnone, session, Nat.zero_add]
      refine Session.Phase.patience_le s.phase ?_
      rcases serviced.back with hback | ⟨f, hback⟩ <;> simp [hback]

/-- How a session fares in the course of events after its flag was set: it is
`s` before them and `s'` afterwards. -/
structure Fares (st : Station) (i : Nat) (events : List Event) (s s' : Session) : Prop where
  board : s'.board = s.board
  ended : s.isOver = true → s'.isOver = true
  spared : s.Spared → s'.Spared
  soon : s'.isOver = true ∨
    st.turns i events + s'.phase.patience ((st.run events).backlog i)
      ≤ s.phase.patience (st.backlog i) + st.deliveries i events

theorem fares_apply {st : Station} {e : Event} {i : Nat} {s s' : Session} {r r' : Route}
    (hflag : st.flags[i]? = some true) (hr : st.hub.routes[i]? = some r)
    (hr' : (st.apply e).hub.routes[i]? = some r') (hcorner : st.Corner e i s r s' r') :
    st.Fares i [e] s s' := by
  have hover : s.isOver = true → s'.isOver = true := by
    intro hover
    cases hcorner with
    | turn now _ session =>
        rw [session, (Session.step_of_isOver now _ hover).1]
        exact hover
    | rest _ session => exact session ▸ hover
  refine ⟨?_, hover, ?_, ?_⟩
  · cases hcorner with
    | turn now _ session => exact session ▸ Session.step_board now s _
    | rest _ session => exact congrArg Session.board session
  · intro hspared
    cases hcorner with
    | turn now _ session => exact session ▸ hspared.step now (cancelled_mailboxOf hflag r)
    | rest _ session => exact session ▸ hspared
  · cases hlive : s.isOver with
    | true => exact .inl (hover hlive)
    | false => exact .inr (st.patience_apply e hflag hr hr' hcorner hlive)

theorem run_fares {st : Station} {i : Nat} {s : Session} {r : Route} (events : List Event)
    (hs : st.campaign.sessions[i]? = some s) (hr : st.hub.routes[i]? = some r)
    (hflag : st.flags[i]? = some true) :
    ∃ s', (st.run events).campaign.sessions[i]? = some s' ∧ st.Fares i events s s' := by
  induction events generalizing st s r with
  | nil => exact ⟨s, hs, rfl, id, id, .inr (by simp [turns, deliveries, run])⟩
  | cons e events ih =>
      obtain ⟨s₁, r₁, hs₁, hr₁, hcorner⟩ := st.apply_corner e hs hr
      have hfirst := fares_apply hflag hr hr₁ hcorner
      obtain ⟨s', hs', hlater⟩ := ih hs₁ hr₁ (st.flag_apply e hflag)
      refine ⟨s', hs', hlater.board.trans hfirst.board, hlater.ended ∘ hfirst.ended,
        hlater.spared ∘ hfirst.spared, ?_⟩
      rcases hfirst.soon with hover | hfew
      · exact .inl (hlater.ended hover)
      · refine hlater.soon.imp_right fun hmore => ?_
        simp only [turns, deliveries, run, List.foldl_cons, List.foldl_nil, Nat.add_zero]
          at hfew hmore ⊢
        omega

/-! ## Failures of the link -/

/-- The bridge takes a step with this event. -/
def bridgeStep : Event → Nat
  | .unit .bridge _ _ => 1
  | _ => 0

/-- The number of steps that the bridge takes. -/
def bridgeSteps (events : List Event) : Nat := (events.map bridgeStep).sum

/-- The alarm is raised, or will be with at most so many steps of the
bridge. -/
def Raising (st : Station) (left : Nat) : Prop :=
  st.alarm = true ∨ ∃ k ≤ left, st.bridge.phase.untilAlarm? = some k

theorem bridge_apply (st : Station) {e : Event} (he : bridgeStep e = 0) :
    (st.apply e).bridge = st.bridge ∧ (st.apply e).alarm = st.alarm := by
  cases e with
  | interrupt | raise k | raiseConsole | endInput => exact ⟨rfl, rfl⟩
  | type line =>
      have haside := aside_type st line
      exact ⟨haside.bridge, haside.alarm⟩
  | unit actor now link =>
      cases actor with
      | session k =>
          rcases step_session st now link k with hsame | ⟨r, s, -, -, hstep⟩
          · rw [apply, hsame]
            exact ⟨rfl, rfl⟩
          · rw [apply, hstep]
            exact ⟨rfl, rfl⟩
      | router => exact ⟨rfl, rfl⟩
      | bridge => cases he
      | console =>
          have haside := aside_console st now link
          exact ⟨haside.bridge, haside.alarm⟩
      | keeper => exact ⟨st.keep_kept.bridge, st.keep_kept.alarm⟩

theorem Raising.apply {st : Station} {left : Nat} (h : st.Raising left) (e : Event) :
    (st.apply e).Raising (left - bridgeStep e) := by
  by_cases he : bridgeStep e = 0
  · obtain ⟨hbridge, halarm⟩ := st.bridge_apply he
    rw [Raising, hbridge, halarm, he]
    exact h
  · obtain ⟨now, link, rfl⟩ : ∃ now link, e = .unit .bridge now link := by
      cases e with
      | unit actor now link =>
          cases actor with
          | bridge => exact ⟨now, link, rfl⟩
          | _ => exact absurd rfl he
      | _ => exact absurd rfl he
    obtain ⟨flags, consoleCancelled, hstep, -⟩ := step_bridge_eq st now link
    rw [Raising, Station.apply, hstep]
    rcases h with halarm | ⟨k, hk, huntil⟩
    · exact .inl ((Bridge.step_passage st.bridge st.trunk link).alarm_of_alarm halarm)
    · refine (Bridge.step_untilAlarm st.trunk link huntil).imp_right fun huntil' => ?_
      exact ⟨k - 1, Nat.sub_le_sub_right hk 1, huntil'⟩

theorem Raising.run {st : Station} {left : Nat} (h : st.Raising left) (events : List Event) :
    (st.run events).Raising (left - bridgeSteps events) := by
  induction events generalizing st left with
  | nil => exact h
  | cons e events ih =>
      rw [bridgeSteps, List.map_cons, List.sum_cons, Nat.sub_add_eq]
      exact ih (h.apply e)

/-- Two more steps of the bridge after the link has failed, and all flags are
set. -/
theorem interrupted_of_fault {st : Station} (h : st.Ordered) (now : Instant) {link : Link}
    {c : Link.Call} {e : IoError} (hcall : st.bridge.call? = some c)
    (hfault : Bridge.fault? c (link c) = some e) {events : List Event}
    (htwo : 2 ≤ bridgeSteps events) :
    ((st.apply (.unit .bridge now link)).run events).Interrupted := by
  have hraising : (st.apply (.unit .bridge now link)).Raising 2 := by
    obtain ⟨flags, consoleCancelled, hstep, -⟩ := step_bridge_eq st now link
    rw [Raising, apply, hstep]
    exact .inr ⟨2, Nat.le_refl 2, congrArg Bridge.Phase.untilAlarm?
      (Bridge.step_failing st.trunk hcall hfault)⟩
  have hraised := hraising.run events
  rw [Nat.sub_eq_zero_of_le htwo] at hraised
  refine (run_ordered (h.apply _) events).alarmed (hraised.resolve_right ?_)
  rintro ⟨k, hk, huntil⟩
  obtain rfl := Nat.le_zero.mp hk
  unfold Bridge.Phase.untilAlarm? at huntil
  split at huntil <;> cases huntil

/-! ## Sessions that have not begun -/

/-- Until it begins, a session has done nothing. -/
def Fresh (st : Station) (i : Nat) : Prop :=
  ∃ s r, st.campaign.sessions[i]? = some s ∧ st.hub.routes[i]? = some r
    ∧ (s.phase = .waiting → s.CalledOff 4 ∧ r.queues.forth.items = [])

theorem Fresh.apply {st : Station} (h : st.Ordered) {i : Nat} (hfresh : st.Fresh i) (e : Event) :
    (st.apply e).Fresh i := by
  obtain ⟨s, r, hs, hr, hwaiting⟩ := hfresh
  obtain ⟨s', r', hs', hr', hcorner⟩ := st.apply_corner e hs hr
  refine ⟨s', r', hs', hr', fun hphase => ?_⟩
  cases hcorner with
  | turn now _ session =>
      cases hover : s.isOver with
      | true =>
          rw [session, (Session.step_of_isOver now _ hover).1] at hphase
          rw [Session.isOver, hphase] at hover
          cases hover
      | false =>
          obtain ⟨hforth, hback⟩ := (h.served_of_live hs hover).2.routes i r hr
          have hapart := Session.step_served now s (m := st.mailboxOf i r) hforth hback
          rw [← session, hphase] at hapart
          cases hapart
  | rest _ session serviced =>
      obtain ⟨hoff, hunsent⟩ := hwaiting (session ▸ hphase)
      obtain ⟨n, hforth⟩ := serviced.forth
      exact ⟨session ▸ hoff, by rw [hforth, hunsent, List.drop_nil]⟩

theorem new_fresh (settings : Settings) (image : Firmware) (boards : List UInt8)
    (keyboard : Option (Queue (List Char))) {i : Nat} (hi : i < boards.length) :
    (new settings image boards keyboard).Fresh i := by
  refine ⟨.new boards[i] image settings, ⟨boards[i], .ofCapacity settings.queueCapacity.toNat⟩,
    ?_, ?_, fun _ => ⟨⟨rfl, rfl, rfl, rfl⟩, rfl⟩⟩
  · simp [new, Campaign.new, hi]
  · simp [new, hi]

theorem run_fresh {st : Station} (h : st.Ordered) {i : Nat} (hfresh : st.Fresh i)
    (events : List Event) : (st.run events).Fresh i := by
  induction events generalizing st with
  | nil => exact hfresh
  | cons e events ih => exact ih (h.apply e) (hfresh.apply h e)

/-! ## Everybody is reached -/

/-- What a session makes of it that its flag is set: it is `s` at this moment
and `s'` after the events. -/
structure Heeds (st : Station) (i : Nat) (events : List Event) (s s' : Session) : Prop where
  board : s'.board = s.board
  /-- A session that has not begun never puts anything in its queue. -/
  unsent : s.phase = .waiting → ∀ r, (st.run events).hub.routes[i]? = some r →
    r.queues.forth.items = []
  /-- It is over after four turns, cancelled. -/
  ends : s.phase = .waiting → 4 ≤ st.turns i events →
    ∃ elapsed, s'.outcome? = some ⟨s.board, some .cancelled, elapsed, 0, 0, 0⟩
  /-- A session at work comes to its end for another reason than that it has
  waited too long or lost the router. -/
  spared : s.verdict? = none → s'.Spared
  /-- It is over soon, apart from the turns in which it throws away frames. -/
  soon : s.phase.patience (st.backlog i) + st.deliveries i events < st.turns i events →
    s'.isOver = true

theorem run_heeds {st : Station} {i : Nat} (hfresh : st.Fresh i)
    (hflag : st.flags[i]? = some true) (events : List Event) :
    ∃ s s', st.campaign.sessions[i]? = some s ∧ (st.run events).campaign.sessions[i]? = some s'
      ∧ st.Heeds i events s s' := by
  obtain ⟨s, r, hs, hr, hwaiting⟩ := hfresh
  obtain ⟨s', hs', hfares⟩ := run_fares events hs hr hflag
  have hoff : s.phase = .waiting → (st.run events).CalledOff i (4 - st.turns i events) := by
    intro hphase
    obtain ⟨hoff, hunsent⟩ := hwaiting hphase
    exact CalledOff.run ⟨hflag, ⟨s, hs, hoff⟩, r, hr, hunsent⟩ events
  refine ⟨s, s', hs, hs', hfares.board, fun hphase r' hr' => ?_, fun hphase hfour => ?_,
    fun hnone => hfares.spared (.of_undecided hnone), fun hlong => ?_⟩
  · obtain ⟨-, -, r'', hr'', hunsent⟩ := hoff hphase
    obtain rfl := Option.some.inj (hr'.symm.trans hr'')
    exact hunsent
  · obtain ⟨-, ⟨s'', hs'', hended⟩, -⟩ := hoff hphase
    obtain rfl := Option.some.inj (hs'.symm.trans hs'')
    rw [Nat.sub_eq_zero_of_le hfour] at hended
    rw [← hfares.board]
    exact hended.outcome
  · rcases hfares.soon with hover | hfew
    · exact hover
    · omega

theorem length_flags_run (st : Station) (events : List Event) :
    (st.run events).flags.length = st.flags.length := by
  induction events generalizing st with
  | nil => rfl
  | cons e events ih => exact (ih (st.apply e)).trans (st.length_flags_apply e)

/-- In whatever order the units of a station take their steps, however the link
behaves and whatever the operator does: the units come to their ends in order
and no session loses the router. An interrupt and a failure of the link set
all flags, and each session heeds its own. -/
theorem interrupt_reaches_everybody (settings : Settings) (image : Firmware)
    (boards : List UInt8) (keyboard : Option (Queue (List Char))) (before : List Event) :
    let st := (new settings image boards keyboard).run before
    st.Ordered
    ∧ (∀ s ∈ st.campaign.sessions, ∀ o, s.outcome? = some o → o.failure ≠ some .disconnected)
    ∧ (st.apply .interrupt).Interrupted
    ∧ (∀ now link c e, st.bridge.call? = some c → Bridge.fault? c (link c) = some e →
        ∀ events, 2 ≤ bridgeSteps events →
          ((st.apply (.unit .bridge now link)).run events).Interrupted)
    ∧ ∀ i < boards.length, (st.Interrupted → st.flags[i]? = some true)
      ∧ (st.flags[i]? = some true → ∀ events, ∃ s s', st.campaign.sessions[i]? = some s
        ∧ (st.run events).campaign.sessions[i]? = some s' ∧ st.Heeds i events s s') := by
  intro st
  have hnew := new_ordered settings image boards keyboard
  have hordered : st.Ordered := run_ordered hnew before
  refine ⟨hordered, fun s hs o ho => ?_, interrupted_interrupt st,
    fun now link c e hcall hfault events htwo =>
      interrupted_of_fault hordered now hcall hfault htwo,
    fun i hi => ⟨fun hall => ?_, run_heeds (run_fresh hnew (new_fresh _ _ _ _ hi) before)⟩⟩
  · intro hfailure
    refine (hordered.connected s hs).2 ?_
    rw [Session.verdict?_of_outcome ho, hfailure]
  · have hlt : i < st.flags.length := by
      rw [length_flags_run, new, List.length_map]
      exact hi
    rw [List.getElem?_eq_getElem hlt, hall.sessions _ (List.getElem_mem hlt)]

/-- The first of two boards is being updated when the operator interrupts the
run. -/
def untilInterrupt : List Event :=
  List.replicate 6 (.unit (.session 0) .origin fun _ => .error .endOfInput) ++ [.interrupt]

/-- The first session comes to its end, then the second one. -/
def afterInterrupt : List Event :=
  List.replicate 9 (.unit (.session 0) .origin fun _ => .error .endOfInput)
    ++ List.replicate 4 (.unit (.session 1) .origin fun _ => .error .endOfInput)

theorem interrupted_before_the_second :
    let st := (new {} ⟨#[7], Vector.replicate 32 0, 1, 1⟩ [1, 2] none).run untilInterrupt
    st.flags[1]? = some true ∧ st.turns 1 afterInterrupt = 4
      ∧ ∃ s' elapsed, (st.run afterInterrupt).campaign.sessions[1]? = some s'
        ∧ s'.outcome? = some ⟨2, some .cancelled, elapsed, 0, 0, 0⟩ := by
  intro st
  have hflag : st.flags[1]? = some true := by decide +kernel
  have hturns : st.turns 1 afterInterrupt = 4 := by decide +kernel
  have hfirst :
      st.campaign.sessions[1]?.map (fun s => (s.phase, s.board)) = some (.waiting, 2) := by
    decide +kernel
  have heach : st.flags[1]? = some true → ∀ events, ∃ s s', st.campaign.sessions[1]? = some s
      ∧ (st.run events).campaign.sessions[1]? = some s' ∧ st.Heeds 1 events s s' :=
    ((interrupt_reaches_everybody {} ⟨#[7], Vector.replicate 32 0, 1, 1⟩ [1, 2] none
      untilInterrupt).2.2.2.2 1 (by decide)).2
  clear_value st
  obtain ⟨s, s', hs, hs', hheeds⟩ := heach hflag afterInterrupt
  rw [hs] at hfirst
  obtain ⟨hphase, hboard⟩ := Prod.mk.inj (Option.some.inj hfirst)
  obtain ⟨elapsed, hended⟩ := hheeds.ends hphase (Nat.le_of_eq hturns.symm)
  rw [hboard] at hended
  exact ⟨hflag, hturns, s', elapsed, hs', hended⟩

end Station

end BoardFlash
