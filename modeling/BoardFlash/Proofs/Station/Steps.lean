import BoardFlash.Proofs.Router.Hub
import BoardFlash.Proofs.Session.Stage
import BoardFlash.Station.Machine

/-!
# Steps of a station's units

A step of a unit is a step of that unit with its view of the station, and
changes only what belongs to this view: `step_session` for a session,
`step_bridge` for the bridge as long as it raises no alarm. The keeper
does nothing while a session is at work (`keep_of_running`).

A session that is over stays as it is, so a campaign that is over stays over
(`isOver_of_step`).
-/

namespace BoardFlash

theorem Campaign.isOver_of_live {c : Campaign} {i : Nat} {s : Session}
    (hs : c.sessions[i]? = some s) (hlive : s.isOver = false) : c.isOver = false := by
  rw [Campaign.isOver, List.all_eq_false]
  exact ⟨s, List.mem_of_getElem? hs, by rw [hlive]; exact Bool.false_ne_true⟩

namespace Station

variable (st : Station) (now : Instant) (link : Link)

/-- After a step of the `i`-th session. -/
def afterSession (i : Nat) (r : Session.Reaction) : Station :=
  { st with
    campaign := { st.campaign with sessions := st.campaign.sessions.set i r.session }
    hub := st.hub.setQueues (.board i) ⟨r.mailbox.outbound, r.mailbox.inbound⟩ }

/-- What the `i`-th session shares with its surroundings. -/
def mailboxOf (i : Nat) (r : Route) : Mailbox :=
  ⟨r.queues.back, r.queues.forth, st.flags.getD i false⟩

/-- A session that may take a step takes it with its own queues; otherwise
nothing happens. -/
theorem step_session (i : Nat) :
    (st.step now link (.session i)).station = st
    ∨ ∃ r s, st.hub.routes[i]? = some r ∧ st.campaign.sessions[i]? = some s
      ∧ (st.step now link (.session i)).station
        = st.afterSession i (s.step now (st.mailboxOf i r)) := by
  cases hr : st.hub.routes[i]? with
  | none =>
      refine .inl ?_
      simp [step, mailbox?, hr]
  | some r =>
      have hmailbox : st.mailbox? i = some (st.mailboxOf i r) := by
        simp [mailbox?, hr, mailboxOf]
      have hself : st.setMailbox i (st.mailboxOf i r) = st := by
        have hqueues : st.hub.queues? (.board i) = some r.queues := by
          simp [Hub.queues?, hr]
        rw [setMailbox, mailboxOf, Hub.setQueues_self hqueues]
      simp only [step, hmailbox, Campaign.step]
      cases hs : st.campaign.sessions[i]? with
      | none => exact .inl hself
      | some s =>
          dsimp only
          split
          · exact .inr ⟨r, s, rfl, rfl, rfl⟩
          · exact .inl hself

/-- A step of the bridge that raises no alarm touches nothing but the bridge
and its queues. -/
theorem step_bridge (halarm : (st.bridge.step st.trunk link).trunk.alarm = st.alarm) :
    (st.step now link .bridge).station
      = { st with
          bridge := (st.bridge.step st.trunk link).bridge
          hub := { st.hub with link := (st.bridge.step st.trunk link).trunk.queues } } := by
  simp only [step, setTrunk, halarm]
  cases st.alarm <;> rfl

theorem keep_of_running (hphase : st.phase = .updating) (hrunning : st.campaign.isOver = false) :
    st.keep.station = st := by
  simp [keep, hphase, hrunning]

theorem isOver_of_step (actor : Actor) (hover : st.campaign.isOver = true) :
    (st.step now link actor).station.campaign.isOver = true := by
  cases actor with
  | session i =>
      rcases step_session st now link i with hsame | ⟨r, s, -, hs, hstep⟩
      · rw [hsame]
        exact hover
      · have hdone : s.isOver = true :=
          List.all_eq_true.mp hover s (List.mem_of_getElem? hs)
        obtain ⟨hi, rfl⟩ := List.getElem?_eq_some_iff.mp hs
        rw [hstep, afterSession, (Session.step_of_isOver now _ hdone).1, List.set_getElem_self]
        exact hover
  | router => exact hover
  | bridge =>
      simp only [step, setTrunk]
      split <;> exact hover
  | console =>
      unfold step
      dsimp only
      split <;> exact hover
  | keeper =>
      show st.keep.station.campaign.isOver = true
      unfold keep
      split <;> first | exact hover | (split <;> exact hover)

end Station

end BoardFlash
