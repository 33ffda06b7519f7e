import BoardFlash.Proofs.Session.Steady

/-!
# How much is left to a session

A chunk is sent at most as often as the limit says, so at any time the chunks
that are left and the refusals of the one at the cursor bound how many frames
with data a session has yet to announce (`Session.quota`). What it has announced
comes off the quota, and what it has sent again as well (`Dwindles`).

`Session.rank` counts the steps between two exchanges in addition, so it falls
with every step that is not in the middle of an exchange, and an exchange, while
it lasts, does not raise it. Nothing else is needed to see that a session ends.
-/

namespace BoardFlash

namespace Session

/-- The exchange that the session is in the middle of. -/
@[simp] def Phase.exchange? : Phase → Option Exchange
  | .clearing x | .beforeSend x | .placing x | .beforeAnswer x | .receiving x => some x
  | _ => none

section

variable (limit : Nat) (cursor : Cursor)

/-- The most frames with data that will be announced from the state on. -/
@[simp] def State.quota : State → Nat
  | .sending _ refusals => cursor.advance.left * limit + (limit - refusals.toNat)
  | .done .. => 0
  | _ => cursor.left * limit

/-- The most frames with data that will be announced after the frame of the
exchange. -/
def Exchange.quota (x : Exchange) : Nat :=
  match x.purpose with
  | .request => cursor.left * limit
  | .chunk refusals => cursor.advance.left * limit + (limit - (refusals.toNat + 1))

/-- The most frames with data that will be announced from now on. -/
@[simp] def Phase.quota : Phase → Nat
  | .waiting => cursor.left * limit
  | .boundary state | .entered state => state.quota limit cursor
  | .clearing x => x.state.quota limit cursor
  | .beforeSend x | .placing x | .beforeAnswer x | .receiving x => x.quota limit cursor
  | .lost _ | .finished .. | .crashed _ => 0

end

/-- The request has not been announced yet. -/
@[simp] def Phase.unasked : Phase → Bool
  | .waiting | .boundary .requesting | .entered .requesting => true
  | .clearing x => decide (x.purpose = .request)
  | _ => false

/-- A frame with data has been announced and is not in the outbound queue yet. -/
@[simp] def Phase.pending : Phase → Bool
  | .beforeSend x | .placing x => decide (x.purpose ≠ .request)
  | _ => false

/-- The steps to the end of a session that announces nothing more, without those
within its exchange. -/
@[simp] def Phase.distance : Phase → Nat
  | .waiting => 12
  | .boundary .requesting => 11
  | .entered .requesting => 10
  | .clearing x => if x.purpose = .request then 9 else 3
  | .beforeSend _ | .placing _ | .beforeAnswer _ | .receiving _ => 8
  | .boundary .preparing => 7
  | .entered .preparing => 6
  | .boundary (.sending ..) => 5
  | .entered (.sending ..) => 4
  | .lost _ => 3
  | .boundary (.done ..) => 2
  | .entered (.done ..) => 1
  | .finished .. | .crashed _ => 0

def quota (s : Session) : Nat := s.phase.quota s.maxTransmissions.toNat s.cursor

/-- An announcement takes one frame off the quota and five steps back. -/
def rank (s : Session) : Nat := 6 * s.quota + s.phase.distance

/-- What becomes less in a step. -/
structure Dwindles (s : Session) (r : Reaction) : Prop where
  announced : r.session.quota + r.session.phase.unasked.toNat
      + (r.notice.bind Notice.frame?).toList.length
    ≤ s.quota + s.phase.unasked.toNat
  resent : r.session.retransmissions.toNat + r.session.phase.pending.toNat + r.session.quota
    ≤ s.retransmissions.toNat + s.phase.pending.toNat + s.quota
  rank : r.session.rank ≤ s.rank
  onward : s.isOver = false → s.phase.exchange? = none ∨ r.session.phase.exchange? = none →
    r.session.rank < s.rank
  /-- An exchange is not left for another one. -/
  exchange : ∀ x, s.phase.exchange? = some x →
    r.session.phase.exchange? = some x ∨ r.session.phase.exchange? = none

section

variable {board : UInt8} {image : Firmware} {limit : UInt32} {now : Instant} {s : Session}
  {m : Mailbox} {r : Reaction}

theorem rank_pos (hlive : s.isOver = false) : 0 < s.rank := by
  refine Nat.lt_of_lt_of_le ?_ (Nat.le_add_left s.phase.distance _)
  unfold isOver at hlive
  cases hphase : s.phase with
  | boundary state | entered state => cases state <;> simp
  | clearing x =>
      rw [Phase.distance]
      split <;> simp
  | finished failure elapsed | crashed fault => simp [hphase] at hlive
  | _ => simp

theorem Course.dwindles (hcut : image.WellCut) (hs : s.Steady board image limit)
    (h : Course now s m r) : Dwindles s r := by
  have hsize := hs.chunkSize_pos hcut
  have hwithin := hs.refusals
  cases h with
  | idle hover result =>
      subst result
      exact ⟨by simp, by simp, Nat.le_refl _, by simp [hover], by simp +contextual⟩
  | start phase result | request _ _ phase _ _ result | discard _ _ _ phase _ result
  | trySend _ phase _ _ result | tryReceive _ phase _ _ result | hold _ phase _ result
  | ignore _ _ _ phase _ _ result | await _ phase _ _ result | giveUp _ _ phase _ result
  | finish _ _ phase result | complete phase _ result | exhaust _ _ phase _ result
  | reject _ _ _ phase _ _ _ result | fail _ _ _ phase _ _ result =>
      subst result
      constructor <;> simp [quota, rank, phase, Exchange.state, Notice.frame?]
  | stop state phase undone _ result =>
      subst result
      cases state with
      | done failure reported => cases undone
      | _ => constructor <;> simp [quota, rank, phase]
  | enter state phase _ result =>
      subst result
      cases state <;> constructor <;> simp [quota, rank, phase, entryNotice, Notice.frame?]
  | cancel x phase _ result | expire x phase _ _ result =>
      subst result
      rcases phase with phase | phase <;> constructor <;> simp [quota, rank, phase]
      all_goals omega
  | lose x closed result =>
      subst result
      rcases closed with ⟨phase, -⟩ | ⟨phase, -⟩ <;> constructor <;> simp [quota, rank, phase]
      all_goals omega
  | prepare chunk packet phase chunk_eq built result =>
      subst result
      have hleft := Cursor.left_eq_add_one hsize chunk_eq
      constructor <;> simp [quota, rank, phase, hleft, Nat.add_one_mul]
  | send packet refusals deadline phase left due result =>
      subst result
      constructor <;> simp [quota, rank, phase, Exchange.state]
  | clear x phase empty result =>
      subst result
      rw [phase] at hwithin
      rcases hx : x.purpose with _ | n
      · constructor <;> simp [quota, rank, phase, Exchange.state, Exchange.quota, Notice.frame?, hx]
      · have hlt := UInt32.lt_iff_toNat_lt.mp (hwithin n hx)
        rw [← hs.most] at hlt
        constructor <;>
          simp [quota, rank, phase, Exchange.state, Exchange.quota, Notice.frame?, hx] <;> omega
  | place x outbound retransmissions phase sent count result =>
      subst result
      -- Only a chunk is sent again, so what is counted now was pending before.
      have hcount : retransmissions.toNat
          ≤ s.retransmissions.toNat + (decide (x.purpose ≠ .request)).toNat := by
        rcases hx : x.purpose with _ | n
        · simp [Exchange.again, hx] at count
          simp [count]
        · by_cases hagain : 0 < n
          · simp [Exchange.again, hx, hagain] at count
            simp [Word.toNat_of_next? count]
          · simp [Exchange.again, hx, hagain] at count
            simp [count]
      constructor <;> simp [quota, rank, phase]
      simp at hcount
      omega
  | grant x frame inbound phase taken type purpose result =>
      subst result
      constructor <;> simp [quota, rank, phase, Exchange.quota, purpose]
  | accept x refusals frame inbound chunksSent phase taken type purpose count result =>
      subst result
      constructor <;> simp [quota, rank, phase, Exchange.quota, purpose]
      all_goals omega
  | refuse x refusals refusals' frame inbound phase taken type purpose count result =>
      subst result
      have hcount := Word.toNat_of_next? count
      constructor <;> simp [quota, rank, phase, Exchange.quota, purpose, hcount, Notice.frame?]
  | crash fault m' why result =>
      subst result
      refine ⟨Nat.zero_le _, ?_, Nat.zero_le _, fun hlive _ => rank_pos hlive, fun x _ => .inr rfl⟩
      show s.retransmissions.toNat ≤ _
      omega

theorem quota_new (hcut : image.WellCut) (board : UInt8) (settings : Settings) :
    (new board image settings).quota
      = image.chunkCount.toNat * settings.maxTransmissions.toNat := by
  rw [hcut.count]
  rfl

/-- No more frames than the limit allows for can ever be sent again. -/
theorem resent_new (hcut : image.WellCut) (board : UInt8) (settings : Settings) :
    (new board image settings).retransmissions.toNat
        + (new board image settings).phase.pending.toNat + (new board image settings).quota
      = image.chunkCount.toNat * settings.maxTransmissions.toNat := by
  rw [quota_new hcut]
  simp [new]

end

end Session

namespace Post

/-- Nobody breaks the session down, and the clock can show the deadline of the
exchange that it is about to begin. -/
def spared (p : Post) : Event → Bool
  | .step now =>
    match p.session.phase with
    | .entered _ => (now.after? p.session.responseTimeout).isSome
    | _ => true
  | .kill => false
  | .move _ => true

section

variable {board : UInt8} {image : Firmware} {limit : UInt32} {p : Post}

theorem dwindles_step (hcut : image.WellCut) (hs : p.session.Steady board image limit)
    (now : Instant) : Session.Dwindles p.session (p.session.step now p.mailbox) :=
  (Session.step_course now p.session p.mailbox).dwindles hcut hs

/-- What a session announces in a run comes off its quota. -/
theorem length_announced_le (hcut : image.WellCut) (hs : p.session.Steady board image limit)
    (events : List Event) :
    (p.announced events).length
        + ((p.run events).session.quota + (p.run events).session.phase.unasked.toNat)
      ≤ p.session.quota + p.session.phase.unasked.toNat := by
  induction events generalizing p with
  | nil => simp [announced, notices, run]
  | cons e events ih =>
      have hrest := ih (steady_apply hcut hs e)
      rw [announced_cons, List.length_append, run_cons]
      have hfirst : (p.announces? e).toList.length
            + ((p.apply e).session.quota + (p.apply e).session.phase.unasked.toNat)
          ≤ p.session.quota + p.session.phase.unasked.toNat := by
        cases e with
        | step now =>
            have hstep := (dwindles_step hcut hs now).announced
            rw [Nat.add_comm]
            exact hstep
        | kill =>
            cases hlive : p.session.isOver with
            | true => simp [apply_kill_of_over hlive, announces?, notice?]
            | false => simp [apply_kill_of_live hlive, announces?, notice?, ofReaction,
                Session.crash, Session.quota]
        | move change => simp [apply, announces?, notice?]
      omega

theorem resent_le (hcut : image.WellCut) (hs : p.session.Steady board image limit)
    (events : List Event) :
    (p.run events).session.retransmissions.toNat + (p.run events).session.phase.pending.toNat
        + (p.run events).session.quota
      ≤ p.session.retransmissions.toNat + p.session.phase.pending.toNat + p.session.quota := by
  induction events generalizing p with
  | nil => exact Nat.le_refl _
  | cons e events ih =>
      refine Nat.le_trans (ih (steady_apply hcut hs e)) ?_
      cases e with
      | step now => exact (dwindles_step hcut hs now).resent
      | kill =>
          cases hlive : p.session.isOver with
          | true => simp [apply_kill_of_over hlive]
          | false =>
              rw [apply_kill_of_live hlive]
              simp only [ofReaction, Session.crash, Session.quota, Session.Phase.quota,
                Session.Phase.pending, Bool.toNat_false]
              omega
      | move change => exact Nat.le_refl _

/-- A session that nobody breaks down has too many frames to send again to count
them when it breaks down. -/
theorem crash_of_spared (hcut : image.WellCut) (hs : p.session.Steady board image limit)
    {e : Event} (hspared : p.spared e = true) {fault : Session.Fault}
    (hdown : (p.apply e).session.phase = .crashed fault) :
    p.session.phase = .crashed fault
    ∨ fault = .counterOverflow
      ∧ 4294967296 ≤ p.session.retransmissions.toNat + p.session.phase.pending.toNat := by
  cases e with
  | kill => cases hspared
  | move change => exact .inl hdown
  | step now =>
      have hcourse := Session.step_course now p.session p.mailbox
      change (p.session.step now p.mailbox).session.phase = _ at hdown
      generalize p.session.step now p.mailbox = r at hcourse hdown
      cases hcourse with
      | crash fault' m' why result =>
          subst result
          obtain rfl := Session.Phase.crashed.inj hdown
          rcases hs.fault_of_breaks hcut why with ⟨-, -, never, state, phase, -⟩
            | ⟨hfault, x, -, phase, again, most, -⟩
          · simp [spared, phase, never] at hspared
          · have hchunk : x.purpose ≠ .request := by
              intro hrequest
              simp [Session.Exchange.again, hrequest] at again
            refine .inr ⟨hfault, ?_⟩
            rw [phase, most]
            simp [hchunk]
      | idle _ result =>
          subst result
          exact .inl hdown
      | _ =>
          subst_vars
          cases hdown

/-- All along the events the session is spared. -/
def unharmed (p : Post) : List Event → Bool
  | [] => true
  | e :: events => p.spared e && (p.apply e).unharmed events

theorem unharmed_append (p : Post) (before after : List Event) :
    p.unharmed (before ++ after) = (p.unharmed before && (p.run before).unharmed after) := by
  induction before generalizing p with
  | nil => rfl
  | cons e before ih => rw [List.cons_append, unharmed, unharmed, ih, run_cons, Bool.and_assoc]

/-- There is one way left for a session to break down in a run: it has more frames to
send again than it can count. -/
theorem crash_of_unharmed (hcut : image.WellCut) (hs : p.session.Steady board image limit)
    (hlive : p.session.isOver = false) {events : List Event} (hunharmed : p.unharmed events = true)
    {fault : Session.Fault} (hdown : (p.run events).session.phase = .crashed fault) :
    fault = .counterOverflow ∧ 4294967296 ≤ p.session.retransmissions.toNat
      + p.session.phase.pending.toNat + p.session.quota := by
  induction events generalizing p with
  | nil =>
      have hphase : p.session.phase = .crashed fault := hdown
      rw [Session.isOver, hphase] at hlive
      cases hlive
  | cons e events ih =>
      obtain ⟨hspared, hrest⟩ := Bool.and_eq_true_iff.mp hunharmed
      have hspent : _ ≤ p.session.retransmissions.toNat + p.session.phase.pending.toNat
        + p.session.quota := resent_le hcut hs [e]
      cases hover : (p.apply e).session.isOver with
      | false =>
          obtain ⟨hfault, hmany⟩ := ih (steady_apply hcut hs e) hover hrest hdown
          exact ⟨hfault, Nat.le_trans hmany hspent⟩
      | true =>
          rw [run_cons, session_run_of_isOver hover] at hdown
          rcases crash_of_spared hcut hs hspared hdown with hbefore | ⟨hfault, hmany⟩
          · rw [Session.isOver, hbefore] at hlive
            cases hlive
          · exact ⟨hfault, Nat.le_trans hmany (Nat.le_add_right ..)⟩

end

end Post

end BoardFlash
