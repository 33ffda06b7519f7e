import BoardFlash.Proofs.Session.Refinement

/-!
# Cancelled sessions

A session looks at its flag whenever it enters a state and whenever it is about
to try a queue. Only between such a look and the queue itself it does not heed
a flag that is set (`Phase.heeds`); anywhere else a flag that is set counts
before everything else that is pending. From then on nothing more is sent and
nothing more is counted, and what the session comes to is certain
(`Session.sentence`): it is cancelled, unless it had nothing left to send or
nothing left to try already. `Course.heeded` says so of a step and
`Journal.Halted.run` of a run; `Journal.flag_obeyed` puts it together.

A session that is done does not look at its mailbox any more, so a flag that is
set then changes nothing (`Post.run_of_verdict`).
-/

namespace BoardFlash

namespace Session

/-! ## Looks at the flag -/

/-- What the session comes to if it is cancelled now. -/
def sentence (s : Session) : Option Failure :=
  match s.phase with
  | .boundary (.done failure _) | .entered (.done failure _) | .finished failure _ => failure
  | .entered .preparing => if s.cursor.current? = none then none else some .cancelled
  | .entered (.sending _ refusals) =>
    if s.maxTransmissions ≤ refusals then some (.retriesExhausted refusals) else some .cancelled
  | _ => some .cancelled

/-- What a step of a cancelled session leaves as it was. -/
structure Heeded (now : Instant) (s : Session) (m : Mailbox) (r : Reaction) : Prop where
  heeds : r.session.phase.heeds = true
  cursor : r.session.cursor = s.cursor
  bytesSent : r.session.bytesSent = s.bytesSent
  chunksSent : r.session.chunksSent = s.chunksSent
  retransmissions : r.session.retransmissions = s.retransmissions
  outbound : r.mailbox.outbound.items = m.outbound.items
  sentence : (∀ fault, r.session.phase ≠ .crashed fault) → r.session.sentence = s.sentence
  crashed : ∀ fault, r.session.phase = .crashed fault → s.phase = .crashed fault
    ∨ fault = .deadlineOverflow ∧ now.after? s.responseTimeout = none

section

variable {board : UInt8} {image : Firmware} {limit : UInt32} {now : Instant} {s : Session}
  {m : Mailbox} {r : Reaction}

/-- Whenever a session tells something it looks at the flag next. -/
theorem Course.heeds_of_notice (h : Course now s m r) {n : Notice} (hn : r.notice = some n) :
    r.session.phase.heeds = true := by
  cases h with
  | trySend _ _ _ _ result | tryReceive _ _ _ _ result | idle _ result =>
      subst result
      cases hn
  | _ => subst_vars; rfl

/-- A session that has just looked tries the queue once. -/
theorem Course.heeds_of_blind (h : Course now s m r) (hblind : s.phase.heeds = false) :
    r.session.phase.heeds = true := by
  cases h with
  | trySend _ phase _ _ _ | tryReceive _ phase _ _ _ =>
      rw [phase] at hblind
      cases hblind
  | idle hover result =>
      unfold isOver at hover
      split at hover
      · next hp =>
        rw [hp] at hblind
        cases hblind
      · next hp =>
        rw [hp] at hblind
        cases hblind
      · cases hover
  | _ => subst_vars; rfl

theorem Heeded.of_phase {phase : Phase} {m' : Mailbox} {notice : Option Notice}
    (hheeds : phase.heeds = true) (houtbound : m'.outbound.items = m.outbound.items)
    (hwhole : ∀ fault, phase ≠ .crashed fault)
    (hsentence : Session.sentence { s with phase } = s.sentence) :
    Heeded now s m ⟨{ s with phase }, m', notice⟩ :=
  ⟨hheeds, rfl, rfl, rfl, rfl, houtbound, fun _ => hsentence,
    fun fault hdown => absurd hdown (hwhole fault)⟩

theorem Course.heeded (hcut : image.WellCut) (hs : s.Steady board image limit)
    (h : Course now s m r) (hflag : m.cancelled = true) (hheeds : s.phase.heeds = true) :
    Heeded now s m r := by
  cases h with
  | trySend _ _ free _ _ | tryReceive _ _ free _ _ | expire _ _ free _ _ =>
      rw [hflag] at free
      cases free
  | place _ _ _ phase _ _ _ | hold _ phase _ _ | grant _ _ _ phase _ _ _ _
  | accept _ _ _ _ _ phase _ _ _ _ _ | reject _ _ _ phase _ _ _ _
  | refuse _ _ _ _ _ phase _ _ _ _ _ | fail _ _ _ phase _ _ _ | ignore _ _ _ phase _ _ _
  | await _ phase _ _ _ =>
      rw [phase] at hheeds
      cases hheeds
  | lose _ closed _ =>
      rcases closed with ⟨phase, -⟩ | ⟨phase, -⟩
      · rw [phase] at hheeds
        cases hheeds
      · rw [phase] at hheeds
        cases hheeds
  | crash fault m' why result =>
      subst result
      rcases hs.fault_of_breaks hcut why with ⟨rfl, rfl, never, -⟩ | ⟨-, x, -, phase, -⟩
      · refine ⟨rfl, rfl, rfl, rfl, rfl, rfl, fun hwhole => absurd rfl (hwhole _), ?_⟩
        rintro fault ⟨⟩
        exact .inr ⟨rfl, never⟩
      · rw [phase] at hheeds
        cases hheeds
  | idle _ result =>
      subst result
      exact ⟨hheeds, rfl, rfl, rfl, rfl, rfl, fun _ => rfl, fun _ hdown => .inl hdown⟩
  | enter state phase free result =>
      subst result
      refine .of_phase rfl rfl (by rintro _ ⟨⟩) ?_
      cases state with
      | done failure reported => simp only [Session.sentence, phase]
      | _ =>
          rcases free with free | free
          · rw [hflag] at free
            cases free
          · cases free
  | stop state phase undone _ result =>
      subst result
      refine .of_phase rfl rfl (by rintro _ ⟨⟩) ?_
      cases state with
      | done failure reported => cases undone
      | _ => simp only [Session.sentence, phase]
  | giveUp x failure phase why result =>
      subst result
      refine .of_phase rfl rfl (by rintro _ ⟨⟩) ?_
      simp only [Session.sentence, phase, why, hflag, if_true]
  | cancel x phase _ result =>
      subst result
      refine .of_phase rfl rfl (by rintro _ ⟨⟩) ?_
      rcases phase with phase | phase
      · simp only [Session.sentence, phase]
      · simp only [Session.sentence, phase]
  | prepare chunk _ phase chunk_eq _ result =>
      subst result
      refine .of_phase rfl rfl (by rintro _ ⟨⟩) ?_
      simp only [Session.sentence, phase, chunk_eq, reduceCtorEq, if_false]
  | complete phase atEnd result =>
      subst result
      refine .of_phase rfl rfl (by rintro _ ⟨⟩) ?_
      simp only [Session.sentence, phase, atEnd, if_true]
  | send packet refusals _ phase left _ result =>
      subst result
      refine .of_phase rfl rfl (by rintro _ ⟨⟩) ?_
      simp only [Session.sentence, phase, UInt32.not_le.mpr left, if_false]
  | exhaust packet refusals phase spent result =>
      subst result
      refine .of_phase rfl rfl (by rintro _ ⟨⟩) ?_
      simp only [Session.sentence, phase, spent, if_true]
  | start phase result =>
      subst result
      refine ⟨rfl, rfl, rfl, rfl, rfl, rfl, fun _ => ?_, by rintro _ ⟨⟩⟩
      simp only [Session.sentence, phase]
  | request _ _ phase _ _ result | discard _ _ _ phase _ result
  | clear _ phase _ result | finish _ _ phase result =>
      subst result
      refine .of_phase rfl rfl (by rintro _ ⟨⟩) ?_
      simp only [Session.sentence, phase]

/-- A session at work is cancelled, but for two exceptions. -/
theorem Steady.sentence_cases (hs : s.Steady board image limit) (hundone : s.verdict? = none) :
    s.sentence = some .cancelled
    ∨ (s.phase = .entered .preparing ∧ s.cursor.current? = none ∧ s.sentence = none)
    ∨ ∃ packet, s.phase = .entered (.sending packet limit)
      ∧ s.sentence = some (.retriesExhausted limit) := by
  have hrefusals := hs.refusals
  unfold verdict? at hundone
  unfold sentence
  cases hp : s.phase with
  | boundary state =>
      cases state with
      | done failure reported =>
          rw [hp] at hundone
          cases hundone
      | _ => exact .inl rfl
  | entered state =>
      cases state with
      | done failure reported =>
          rw [hp] at hundone
          cases hundone
      | requesting => exact .inl rfl
      | preparing =>
          dsimp only
          split
          · next hend => exact .inr (.inl ⟨rfl, hend, rfl⟩)
          · exact .inl rfl
      | sending packet refusals =>
          dsimp only
          split
          · next hspent =>
            rw [hp] at hrefusals
            have heq : refusals = limit := UInt32.le_antisymm hrefusals (hs.most ▸ hspent)
            exact .inr (.inr ⟨packet, by rw [heq], by rw [heq]⟩)
          · exact .inl rfl
  | finished failure elapsed =>
      rw [hp] at hundone
      cases hundone
  | _ => exact .inl rfl

/-- Once a session is done its mailbox does not matter any more. -/
theorem step_of_settled (now : Instant) {s : Session} {v : Option Failure}
    (hs : s.verdict? = some v) (m m' : Mailbox) :
    (s.step now m).session = (s.step now m').session
    ∧ (s.step now m).notice = (s.step now m').notice := by
  unfold verdict? at hs
  unfold step
  cases hp : s.phase with
  | boundary state =>
      cases state with
      | done failure reported =>
          simp only [State.isDone, Bool.not_true, Bool.and_false, Bool.false_eq_true, if_false]
          exact ⟨rfl, rfl⟩
      | _ =>
          rw [hp] at hs
          cases hs
  | entered state =>
      cases state with
      | done failure reported => exact ⟨rfl, rfl⟩
      | _ =>
          rw [hp] at hs
          cases hs
  | finished failure elapsed => exact ⟨rfl, rfl⟩
  | crashed fault => exact ⟨rfl, rfl⟩
  | _ =>
      rw [hp] at hs
      cases hs

/-- Only a session that is done reports. -/
theorem verdict?_of_report {now : Instant} {s : Session} {m : Mailbox} {failure : Option Failure}
    {elapsed : Duration} (h : (s.step now m).notice = some (.reported failure elapsed)) :
    s.verdict? = some failure := by
  have hcourse := step_course now s m
  generalize s.step now m = r at h hcourse
  cases hcourse with
  | finish failure' reported phase result =>
      subst result
      cases h
      rw [verdict?, phase]
      rfl
  | enter state _ _ result =>
      subst result
      cases state <;> cases h
  | _ => subst_vars; cases h

end

end Session

namespace Post

/-! ## Runs of a cancelled session -/

/-- A cancelled session comes to its end within a few steps, apart from those
that throw away what came in. -/
theorem run_patience {p : Post} (hflag : p.mailbox.cancelled = true) (events : List Event) :
    (p.run events).session.isOver = true
    ∨ steps events + (p.run events).session.patience (p.run events).mailbox
      ≤ p.session.patience p.mailbox + deliveries events := by
  induction events generalizing p with
  | nil => exact .inr (by simp [steps, deliveries, run])
  | cons e events ih =>
      have hrest := ih (cancelled_apply hflag e)
      cases hlive : p.session.isOver with
      | true => exact .inl (by rw [session_run_of_isOver hlive, hlive])
      | false =>
          cases e with
          | step now =>
              have hless : (p.apply (.step now)).session.patience (p.apply (.step now)).mailbox
                  < p.session.patience p.mailbox := Session.step_patience now hflag hlive
              have hsteps : steps (.step now :: events) = steps events + 1 :=
                List.countP_cons_of_pos rfl
              have hdeliveries : deliveries (.step now :: events) = deliveries events :=
                List.countP_cons_of_neg Bool.false_ne_true
              refine hrest.imp id fun hrest => ?_
              rw [run_cons]
              omega
          | kill =>
              refine .inl ?_
              rw [run_cons, apply_kill_of_live hlive, session_run_of_isOver rfl]
              rfl
          | move change =>
              obtain ⟨hlonger, hbound⟩ := length_inbound_move p.mailbox change
              have hmore :
                  (p.apply (.move change)).session.patience (p.apply (.move change)).mailbox
                    ≤ p.session.patience p.mailbox
                      + ((p.mailbox.apply change).inbound.items.length
                        - p.mailbox.inbound.items.length) :=
                Session.Phase.patience_le p.session.phase hlonger
              have hsteps : steps (.move change :: events) = steps events :=
                List.countP_cons_of_neg Bool.false_ne_true
              refine hrest.imp id fun hrest => ?_
              rw [run_cons, deliveries_cons]
              omega

/-- From the moment when a session is done its mailbox does not matter any
more. -/
theorem run_of_verdict {p q : Post} {v : Option Failure} (hsame : p.session = q.session)
    (hdone : p.session.verdict? = some v) (events : List Event) :
    (p.run events).session = (q.run events).session ∧ p.notices events = q.notices events := by
  induction events generalizing p q v with
  | nil => exact ⟨hsame, rfl⟩
  | cons e events ih =>
      have hnext : (p.apply e).session = (q.apply e).session ∧ p.notice? e = q.notice? e
          ∧ ∃ v, (p.apply e).session.verdict? = some v := by
        cases e with
        | step now =>
            obtain ⟨hsession, hnotice⟩ :=
              Session.step_of_settled now hdone p.mailbox q.mailbox
            refine ⟨?_, ?_, v, Session.step_of_verdict now p.mailbox hdone⟩
            · show (p.session.step now p.mailbox).session = (q.session.step now q.mailbox).session
              rw [hsession, hsame]
            · show (p.session.step now p.mailbox).notice = (q.session.step now q.mailbox).notice
              rw [hnotice, hsame]
        | kill =>
            refine ⟨?_, rfl, ?_⟩
            · unfold apply
              dsimp only
              rw [hsame]
              split
              · exact hsame
              · rfl
            · unfold apply
              dsimp only
              split
              · exact ⟨v, hdone⟩
              · exact ⟨_, rfl⟩
        | move change => exact ⟨hsame, rfl, v, hdone⟩
      obtain ⟨hsession, hnotice, v', hdone'⟩ := hnext
      obtain ⟨hend, hrest⟩ := ih hsession hdone'
      exact ⟨hend, by rw [notices, notices, hnotice, hrest]⟩

/-- What a session is done with is what it reports and returns. -/
theorem report_of_verdict {p : Post} {v : Option Failure} (hdone : p.session.verdict? = some v)
    (events : List Event) :
    (∀ failure elapsed, .reported failure elapsed ∈ p.notices events → failure = v)
    ∧ ∀ failure elapsed, (p.run events).session.phase = .finished failure elapsed →
      failure = v := by
  induction events generalizing p with
  | nil =>
      refine ⟨fun failure elapsed h => absurd h List.not_mem_nil, fun failure elapsed hphase => ?_⟩
      have hfinished : p.session.phase = .finished failure elapsed := hphase
      rw [Session.verdict?, hfinished] at hdone
      exact Option.some.inj hdone
  | cons e events ih =>
      cases e with
      | step now =>
          obtain ⟨hreported, hfinished⟩ := ih (p := p.apply (.step now))
            (Session.step_of_verdict now p.mailbox hdone)
          refine ⟨fun failure elapsed hmem => ?_, hfinished⟩
          rcases List.mem_append.mp hmem with hnow | hlater
          · have htold := Session.verdict?_of_report (Option.mem_toList.mp hnow)
            exact Option.some.inj (htold.symm.trans hdone)
          · exact hreported failure elapsed hlater
      | kill =>
          cases hover : p.session.isOver with
          | true =>
              rw [run_cons, notices, apply_kill_of_over hover]
              exact ih hdone
          | false =>
              rw [run_cons, notices, apply_kill_of_live hover, notices_of_isOver rfl,
                session_run_of_isOver rfl]
              exact ⟨fun failure elapsed h => absurd h List.not_mem_nil, by rintro _ _ ⟨⟩⟩
      | move change => exact ih hdone

/-- The session has not begun, or the last it did was to tell something. -/
def Attentive (p : Post) (events : List Event) : Prop :=
  (∀ e ∈ events, e.isOwn = false)
  ∨ ∃ before now notice moves, events = before ++ .step now :: moves
    ∧ (p.run before).notice? (.step now) = some notice ∧ ∀ e ∈ moves, e.isOwn = false

theorem Attentive.heeds {p : Post} {events : List Event} (h : p.Attentive events)
    (hwaiting : p.session.phase = .waiting) : (p.run events).session.phase.heeds = true := by
  rcases h with hmoves | ⟨before, now, notice, moves, rfl, hnotice, hmoves⟩
  · rw [(p.run_of_moves hmoves).1, hwaiting]
    rfl
  · rw [run_append, run_cons, (run_of_moves _ hmoves).1]
    exact (Session.step_course now _ _).heeds_of_notice hnotice

end Post

namespace Journal

variable {board : UInt8} {image : Firmware} {limit : UInt32} {j j' : Journal}
  {events : List Post.Event}

/-- Since the session `j` was cancelled it has come to `j'`. -/
structure Halted (board : UInt8) (image : Firmware) (limit : UInt32) (j : Journal)
    (events : List Post.Event) (j' : Journal) : Prop where
  steady : j'.post.session.Steady board image limit
  flag : j'.post.mailbox.cancelled = true
  heeds : j'.post.session.phase.heeds = true
  sent : j'.sent = j.sent
  cursor : j'.post.session.cursor = j.post.session.cursor
  bytesSent : j'.post.session.bytesSent = j.post.session.bytesSent
  chunksSent : j'.post.session.chunksSent = j.post.session.chunksSent
  retransmissions : j'.post.session.retransmissions = j.post.session.retransmissions
  responseTimeout : j'.post.session.responseTimeout = j.post.session.responseTimeout
  sentence : (∀ fault, j'.post.session.phase ≠ .crashed fault) →
    j'.post.session.sentence = j.post.session.sentence
  crashed : ∀ fault, j'.post.session.phase = .crashed fault →
    j.post.session.phase = .crashed fault
    ∨ (fault = .killed ∧ .kill ∈ events)
    ∨ (fault = .deadlineOverflow
      ∧ ∃ now, .step now ∈ events ∧ now.after? j.post.session.responseTimeout = none)

namespace Halted

theorem refl (hs : j.post.session.Steady board image limit)
    (hflag : j.post.mailbox.cancelled = true) (hheeds : j.post.session.phase.heeds = true) :
    Halted board image limit j [] j :=
  ⟨hs, hflag, hheeds, rfl, rfl, rfl, rfl, rfl, rfl, fun _ => rfl, fun _ hdown => .inl hdown⟩

theorem more (h : Halted board image limit j events j') (e : Post.Event) :
    Halted board image limit j (events ++ [e]) j' :=
  { h with crashed := fun fault hdown => (h.crashed fault hdown).imp id (Or.imp
      (And.imp id (List.mem_append_left _))
      (And.imp id fun ⟨now, hnow, hnever⟩ => ⟨now, List.mem_append_left _ hnow, hnever⟩)) }

theorem step (hcut : image.WellCut) (h : Halted board image limit j events j') (now : Instant) :
    Halted board image limit j (events ++ [.step now]) (j'.apply (.step now)) := by
  have hheeded := (Session.step_course now j'.post.session j'.post.mailbox).heeded hcut h.steady
    h.flag h.heeds
  refine ⟨h.steady.step hcut now _, Post.cancelled_apply h.flag (.step now), hheeded.heeds,
    (sent_stepped hheeded.outbound).trans h.sent, hheeded.cursor.trans h.cursor,
    hheeded.bytesSent.trans h.bytesSent, hheeded.chunksSent.trans h.chunksSent,
    hheeded.retransmissions.trans h.retransmissions,
    (Session.step_responseTimeout now _ _).trans h.responseTimeout, ?_, ?_⟩
  · intro hwhole
    refine (hheeded.sentence hwhole).trans (h.sentence fun fault hdown => hwhole fault ?_)
    have hover : j'.post.session.isOver = true := by rw [Session.isOver, hdown]
    have hsame := (Session.step_of_isOver now j'.post.mailbox hover).1
    exact (congrArg Session.phase hsame).trans hdown
  · intro fault hdown
    rcases hheeded.crashed fault hdown with hbefore | ⟨rfl, hnever⟩
    · exact (h.more (.step now)).crashed fault hbefore
    · exact .inr (.inr ⟨rfl, now, by simp, h.responseTimeout ▸ hnever⟩)

theorem kill (h : Halted board image limit j events j') :
    Halted board image limit j (events ++ [.kill]) (j'.apply .kill) := by
  cases hover : j'.post.session.isOver with
  | true =>
      have hsame : j'.apply .kill = j' := by
        show { j' with post := j'.post.apply .kill } = j'
        rw [Post.apply_kill_of_over hover]
      rw [hsame]
      exact h.more .kill
  | false =>
      have hnext : j'.apply .kill
          = { j' with post := .ofReaction (j'.post.session.crash j'.post.mailbox .killed) } := by
        rw [← Post.apply_kill_of_live hover]
        rfl
      rw [hnext]
      exact ⟨h.steady.crash j'.post.mailbox .killed, h.flag, rfl, h.sent, h.cursor, h.bytesSent,
        h.chunksSent, h.retransmissions, h.responseTimeout, fun hwhole => absurd rfl (hwhole _),
        fun fault hkilled => .inr (.inl ⟨(Session.Phase.crashed.inj hkilled).symm, by simp⟩)⟩

theorem move (h : Halted board image limit j events j') (change : Mailbox.Move) :
    Halted board image limit j (events ++ [.move change]) (j'.apply (.move change)) :=
  { h.more (.move change) with flag := Post.cancelled_apply h.flag (.move change) }

/-- Whatever happens to a cancelled session, it keeps to that. -/
theorem run (hcut : image.WellCut) {past : List Post.Event}
    (h : Halted board image limit j past j') (events : List Post.Event) :
    Halted board image limit j (past ++ events) (j'.run events) := by
  induction events generalizing past j' with
  | nil =>
      rw [List.append_nil]
      exact h
  | cons e events ih =>
      have hnext : Halted board image limit j (past ++ [e]) (j'.apply e) := by
        cases e with
        | step now => exact h.step hcut now
        | kill => exact h.kill
        | move change => exact h.move change
      have hrest := ih hnext
      rw [List.append_assoc] at hrest
      exact hrest

end Halted

/-! ## The flag is obeyed -/

/-- What becomes of a session that was cancelled at `j` and has come to `j'`. -/
structure Stopped (j : Journal) (events : List Post.Event) (j' : Journal) : Prop where
  /-- No more frames go in the outbound queue. -/
  sent : j'.sent = j.sent
  cursor : j'.post.session.cursor = j.post.session.cursor
  bytesSent : j'.post.session.bytesSent = j.post.session.bytesSent
  chunksSent : j'.post.session.chunksSent = j.post.session.chunksSent
  retransmissions : j'.post.session.retransmissions = j.post.session.retransmissions
  ends : j'.post.session.isOver = true
    ∨ Post.steps events ≤ j.post.session.patience j.post.mailbox + Post.deliveries events
  result : ∀ failure elapsed, j'.post.session.phase = .finished failure elapsed →
    failure = j.post.session.sentence
  /-- It breaks down only when it is stopped from outside or there is no such
  deadline. -/
  crashed : ∀ fault, j'.post.session.phase = .crashed fault →
    j.post.session.phase = .crashed fault
    ∨ (fault = .killed ∧ .kill ∈ events)
    ∨ (fault = .deadlineOverflow
      ∧ ∃ now, .step now ∈ events ∧ now.after? j.post.session.responseTimeout = none)

/-- How a session obeys its flag if that is set at `j`, and the events follow. -/
structure Obeys (limit : UInt32) (j : Journal) (events : List Post.Event) : Prop where
  stopped : j.post.session.phase.heeds = true →
    Stopped j events (j.run (.move .cancel :: events))
  /-- If it does not heed the flag, it does after its next step. -/
  blind : j.post.session.phase.heeds = false →
    ∀ now, (j.post.apply (.step now)).session.phase.heeds = true
  /-- If it was not yet done it is cancelled, but for a session in `preparing` with
  nothing left to send and one in `sending` with nothing left to try. -/
  undone : j.post.session.verdict? = none → j.post.session.sentence = some .cancelled
    ∨ (j.post.session.phase = .entered .preparing ∧ j.post.session.cursor.current? = none
      ∧ j.post.session.sentence = none)
    ∨ ∃ packet, j.post.session.phase = .entered (.sending packet limit)
      ∧ j.post.session.sentence = some (.retriesExhausted limit)
  /-- Once it is done all goes on as without the flag, and what is reported and
  returned is what it was done with. -/
  done : ∀ v, j.post.session.verdict? = some v →
    (j.run (.move .cancel :: events)).post.session = (j.run events).post.session
    ∧ j.post.notices (.move .cancel :: events) = j.post.notices events
    ∧ (∀ failure elapsed, .reported failure elapsed ∈ j.post.notices events → failure = v)
    ∧ ∀ failure elapsed, (j.run events).post.session.phase = .finished failure elapsed →
      failure = v

theorem Halted.stopped (h : Halted board image limit (j.apply (.move .cancel)) events j')
    (hrun : j' = (j.apply (.move .cancel)).run events) : Stopped j events j' where
  sent := h.sent
  cursor := h.cursor
  bytesSent := h.bytesSent
  chunksSent := h.chunksSent
  retransmissions := h.retransmissions
  ends := by
    have hflag : (j.apply (.move .cancel)).post.mailbox.cancelled = true := rfl
    rw [hrun, post_run]
    exact (Post.run_patience hflag events).imp id (Nat.le_trans (Nat.le_add_right ..))
  result := by
    intro failure elapsed hphase
    have hsentence := h.sentence fun fault hdown => by
      rw [hphase] at hdown
      cases hdown
    rw [Session.sentence, hphase] at hsentence
    exact hsentence
  crashed := h.crashed

theorem obeys (hcut : image.WellCut) (hs : j.post.session.Steady board image limit)
    (events : List Post.Event) : Obeys limit j events where
  stopped := by
    intro hheeds
    have hflagged := Halted.refl (j := j.apply (.move .cancel)) hs rfl hheeds
    exact (hflagged.run hcut events).stopped rfl
  blind := fun hblind now => (Session.step_course now _ _).heeds_of_blind hblind
  undone := hs.sentence_cases
  done := by
    intro v hdone
    obtain ⟨hsession, hnotices⟩ := Post.run_of_verdict (p := j.post.apply (.move .cancel))
      (q := j.post) rfl hdone events
    rw [post_run, post_run]
    exact ⟨hsession, hnotices, Post.report_of_verdict hdone events⟩

/-- A flag that is set before the session begins, before a frame goes in the
outbound queue, in a state or after a frame was ignored stops the session at
once and comes before all that is pending. -/
theorem flag_obeyed {origin : String} {bytes : Array UInt8} {chunkSize : UInt64}
    {key : List UInt8} {image : Firmware}
    (hbuilt : Firmware.build origin bytes chunkSize key = .ok image) (board : UInt8)
    (settings : Settings) (mailbox : Mailbox) (before after : List Post.Event) :
    let first := start board image settings mailbox
    (first.post.Attentive before → (first.run before).post.session.phase.heeds = true)
    ∧ Obeys settings.maxTransmissions (first.run before) after := by
  intro first
  have hcut := Firmware.wellCut_of_build hbuilt
  have hsteady := Post.steady_run hcut (p := first.post)
    (Session.Steady.init hcut board settings) before
  rw [← post_run] at hsteady
  constructor
  · intro hattentive
    rw [post_run]
    exact hattentive.heeds rfl
  · exact obeys hcut hsteady after

/-- Until the frame with the first chunk is about to be sent. -/
def untilAnnounced : List Post.Event :=
  List.replicate 7 (.step .origin) ++ .move (.deliver (.empty .ack 7 hostId))
    :: List.replicate 5 (.step .origin) ++ [.step .origin]

/-- An answer comes, the queues are closed, and it is late. -/
def allAtOnce : List Post.Event :=
  [.move (.deliver (.empty .ack 7 hostId)), .move .stopDelivering, .move .stopCollecting]
    ++ List.replicate 3 (.step ⟨1000000000000000⟩)

theorem cancelled_before_first_chunk :
    let first := start 7 twoChunks {} (.ofCapacity 4)
    let j := first.run untilAnnounced
    let j' := j.run (.move .cancel :: allAtOnce)
    first.post.Attentive untilAnnounced
    ∧ j.sent.length = 1 ∧ j'.sent = j.sent
    ∧ j'.post.session.outcome?.map Outcome.failure = some (some .cancelled)
    ∧ Obeys 5 j allAtOnce := by
  intro first j j'
  have hannounced : ((first.post.run (untilAnnounced.dropLast)).notice? (.step .origin)).isSome
      = true := by decide +kernel
  obtain ⟨notice, hnotice⟩ := Option.isSome_iff_exists.mp hannounced
  have hattentive : first.post.Attentive untilAnnounced :=
    .inr ⟨_, .origin, notice, [], rfl, hnotice, nofun⟩
  obtain ⟨hheeds, hobeys⟩ := @flag_obeyed "firmware" #[1, 2, 3] 2 [] twoChunks rfl 7 {}
    (.ofCapacity 4) untilAnnounced allAtOnce
  exact ⟨hattentive, by decide +kernel, (hobeys.stopped (hheeds hattentive)).sent,
    by decide +kernel, hobeys⟩

end Journal

end BoardFlash
