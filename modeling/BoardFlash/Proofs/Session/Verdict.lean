import BoardFlash.Proofs.Session.Course

/-!
# What a session comes to

A session at work has no `verdict?`; once it has one, only the report of it
is left to be done, and it stays (`step_of_verdict`). `Reason` lists what
leads to each verdict, and nothing else does (`step_verdict`). As long as the
queues are open at their other ends, a session does not find them closed
(`step_served`).

A session that is cancelled before it begins is called off: it takes four
steps to its end and leaves the queues alone (`CalledOff.step`). One that is
cancelled in the middle of its work ends within a few steps, apart from those
that throw away what came in too early (`step_patience`).
-/

namespace BoardFlash

namespace Session

/-- What a session has come to: `some none` when the board was updated. -/
def Phase.verdict? : Phase → Option (Option Failure)
  | .boundary (.done failure _) | .entered (.done failure _) | .finished failure _ => some failure
  | .crashed _ => some (some .aborted)
  | _ => none

def verdict? (s : Session) : Option (Option Failure) := s.phase.verdict?

theorem verdict?_of_outcome {s : Session} {o : Outcome} (ho : s.outcome? = some o) :
    s.verdict? = some o.failure := by
  unfold outcome? at ho
  unfold verdict?
  split at ho
  · next hp =>
    obtain rfl := Option.some.inj ho
    rw [hp]
    rfl
  · next hp =>
    obtain rfl := Option.some.inj ho
    rw [hp]
    rfl
  · cases ho

/-- Why a session at work comes to a verdict in this step. -/
inductive Reason (now : Instant) (s : Session) (m : Mailbox) : Option Failure → Prop
  | complete (phase : s.phase = .entered .preparing) (atEnd : s.cursor.current? = none) :
      Reason now s m none
  | exhausted (packet : Option Frame) (refusals : UInt32)
      (phase : s.phase = .entered (.sending packet refusals))
      (spent : s.maxTransmissions ≤ refusals) :
      Reason now s m (some (.retriesExhausted refusals))
  | rejected (x : Exchange) (frame : Frame) (phase : s.phase = .receiving x)
      (purpose : x.purpose = .request) (answer : m.inbound.items.head? = some frame)
      (type : frame.type = .nack) : Reason now s m (some .rejected)
  | boardFault (x : Exchange) (frame : Frame) (phase : s.phase = .receiving x)
      (answer : m.inbound.items.head? = some frame) (type : frame.type = .fatalError) :
      Reason now s m (some .boardFault)
  | cancelled (flag : m.cancelled = true) : Reason now s m (some .cancelled)
  | timeout (x : Exchange) (free : m.cancelled = false)
      (phase : s.phase = .beforeSend x ∨ s.phase = .beforeAnswer x)
      (late : x.deadline.nanos ≤ now.nanos) : Reason now s m (some .timeout)
  | disconnected (x : Exchange) (free : m.cancelled = false) (phase : s.phase = .lost x) :
      Reason now s m (some .disconnected)
  | aborted (fault : Fault) (m' : Mailbox) (why : Breaks now s m fault m') :
      Reason now s m (some .aborted)

section

variable {now : Instant} {s : Session} {m : Mailbox} {r : Reaction}

theorem head?_of_tryRecv {q q' : Queue Frame} {f : Frame} (h : q.tryRecv = .ok (f, q')) :
    q.items.head? = some f := by
  rw [(Queue.tryRecv_eq_ok_iff.mp h).1]
  rfl

theorem Course.reason (h : Course now s m r) (hs : s.verdict? = none) {v : Option Failure}
    (hv : r.session.verdict? = some v) : Reason now s m v := by
  rw [verdict?] at hs hv
  cases h with
  | stop _ _ _ flag result | cancel _ _ flag result =>
      subst result
      obtain rfl := Option.some.inj hv
      exact .cancelled flag
  | complete phase atEnd result =>
      subst result
      obtain rfl := Option.some.inj hv
      exact .complete phase atEnd
  | exhaust packet refusals phase spent result =>
      subst result
      obtain rfl := Option.some.inj hv
      exact .exhausted packet refusals phase spent
  | expire x phase free late result =>
      subst result
      obtain rfl := Option.some.inj hv
      exact .timeout x free phase late
  | reject x frame inbound phase taken type purpose result =>
      subst result
      obtain rfl := Option.some.inj hv
      exact .rejected x frame phase purpose (head?_of_tryRecv taken) type
  | fail x frame inbound phase taken type result =>
      subst result
      obtain rfl := Option.some.inj hv
      exact .boardFault x frame phase (head?_of_tryRecv taken) type
  | giveUp x failure phase why result =>
      subst result
      obtain rfl := Option.some.inj hv
      cases hflag : m.cancelled with
      | true =>
          rw [hflag, if_pos rfl] at why
          exact why ▸ .cancelled hflag
      | false =>
          rw [hflag] at why
          exact why ▸ .disconnected x hflag phase
  | crash fault m' why result =>
      subst result
      obtain rfl := Option.some.inj hv
      exact .aborted fault m' why
  | enter state phase _ result =>
      subst result
      rw [phase] at hs
      cases state with
      | done failure reported => cases hs
      | _ => cases hv
  | finish failure reported phase result =>
      rw [phase] at hs
      cases hs
  | idle _ result =>
      subst result
      rw [hs] at hv
      cases hv
  | _ =>
      subst_vars
      cases hv

end

/-- A session comes to a verdict only for a reason. -/
theorem step_verdict (now : Instant) {s : Session} (m : Mailbox) (hs : s.verdict? = none)
    {v : Option Failure} (hv : (s.step now m).session.verdict? = some v) : Reason now s m v :=
  (step_course now s m).reason hs hv

/-- A session keeps its verdict. -/
theorem step_of_verdict (now : Instant) {s : Session} (m : Mailbox) {v : Option Failure}
    (hs : s.verdict? = some v) : (s.step now m).session.verdict? = some v := by
  rw [verdict?] at hs
  unfold step
  split
  case h_2 state hp =>
    rw [hp] at hs
    cases state with
    | done failure reported =>
        rw [show (m.cancelled && !(State.done failure reported).isDone) = false from
          Bool.and_false _]
        exact hs
    | _ => cases hs
  case h_3 state hp =>
    rw [hp] at hs
    cases state with
    | done failure reported => exact hs
    | _ => cases hs
  case h_10 hp => exact hs
  case h_11 hp => exact hs
  all_goals
    next hp =>
    rw [hp] at hs
    cases hs

/-! ## Closed queues -/

/-- The session has not begun, or it has found a queue closed and nothing has
been made of it yet. -/
def Phase.apart : Phase → Bool
  | .waiting | .lost _ => true
  | _ => false

theorem Course.served {now : Instant} {s : Session} {m : Mailbox} {r : Reaction}
    (h : Course now s m r) (houtbound : m.outbound.receiverOpen = true)
    (hinbound : m.inbound.senderOpen = true) : r.session.phase.apart = false := by
  cases h with
  | lose x closed =>
      rcases closed with ⟨-, hclosed⟩ | ⟨-, -, hclosed⟩
      · rw [houtbound] at hclosed
        cases hclosed
      · rw [hinbound] at hclosed
        cases hclosed
  | idle hover result =>
      subst result
      unfold isOver at hover
      split at hover
      · next hp => rw [hp]; rfl
      · next hp => rw [hp]; rfl
      · cases hover
  | _ => subst_vars; rfl

/-- As long as both queues are open at the router's ends, a session does not
find them closed. -/
theorem step_served (now : Instant) (s : Session) {m : Mailbox}
    (houtbound : m.outbound.receiverOpen = true) (hinbound : m.inbound.senderOpen = true) :
    (s.step now m).session.phase.apart = false :=
  (step_course now s m).served houtbound hinbound

/-! ## Cancelled sessions -/

/-- The session has not come to its end because it waited too long or lost the
router. -/
structure Spared (s : Session) : Prop where
  timeout : s.verdict? ≠ some (some .timeout)
  disconnected : s.verdict? ≠ some (some .disconnected)

theorem Spared.of_undecided {s : Session} (h : s.verdict? = none) : s.Spared := by
  constructor <;> (rw [h]; exact fun hv => nomatch hv)

theorem Spared.step {s : Session} (h : s.Spared) (now : Instant) {m : Mailbox}
    (hflag : m.cancelled = true) : (s.step now m).session.Spared := by
  cases hv : s.verdict? with
  | some v =>
      have hsame := (step_of_verdict now m hv).trans hv.symm
      exact ⟨hsame ▸ h.timeout, hsame ▸ h.disconnected⟩
  | none =>
      refine ⟨fun hlate => ?_, fun hlost => ?_⟩
      · cases step_verdict now m hv hlate with
        | timeout _ free =>
            rw [hflag] at free
            cases free
      · cases step_verdict now m hv hlost with
        | disconnected _ free =>
            rw [hflag] at free
            cases free

/-- The steps left for a session that was cancelled before it began. -/
def Phase.leftWhenOff? : Phase → Option Nat
  | .waiting => some 4
  | .boundary .requesting => some 3
  | .boundary (.done (some .cancelled) false) => some 2
  | .entered (.done (some .cancelled) false) => some 1
  | .finished (some .cancelled) _ => some 0
  | _ => none

/-- The session was cancelled before it began. It has sent nothing, and has
`left` steps to its end. -/
structure CalledOff (s : Session) (left : Nat) : Prop where
  phase : s.phase.leftWhenOff? = some left
  bytesSent : s.bytesSent = 0
  chunksSent : s.chunksSent = 0
  retransmissions : s.retransmissions = 0

theorem CalledOff.step {s : Session} {left : Nat} (h : s.CalledOff left) (now : Instant)
    {m : Mailbox} (hflag : m.cancelled = true) :
    (s.step now m).session.CalledOff (left - 1)
      ∧ (s.step now m).mailbox.outbound.items = m.outbound.items := by
  obtain ⟨hphase, hbytes, hchunks, hretransmissions⟩ := h
  unfold Phase.leftWhenOff? at hphase
  split at hphase
  case h_6 => cases hphase
  all_goals
    next hp =>
    obtain rfl := Option.some.inj hphase
    simp only [Session.step, hp, hflag]
    exact ⟨⟨rfl, hbytes, hchunks, hretransmissions⟩, rfl⟩

theorem CalledOff.outcome {s : Session} (h : s.CalledOff 0) :
    ∃ elapsed, s.outcome? = some ⟨s.board, some .cancelled, elapsed, 0, 0, 0⟩ := by
  obtain ⟨hphase, hbytes, hchunks, hretransmissions⟩ := h
  unfold Phase.leftWhenOff? at hphase
  split at hphase
  case h_5 elapsed hp =>
    refine ⟨elapsed, ?_⟩
    rw [outcome?, hp, hbytes, hchunks, hretransmissions]
  all_goals cases hphase

/-- The most steps left for a session that is cancelled now, with `n` frames
in its inbound queue. -/
def Phase.patience (n : Nat) : Phase → Nat
  | .waiting => 4
  | .boundary state => if state.isDone then 2 else 3
  | .entered state => if state.isDone then 1 else 5 + n
  | .clearing _ => 4 + n
  | .placing _ | .receiving _ => 4
  | .beforeSend _ | .beforeAnswer _ | .lost _ => 3
  | .finished .. | .crashed _ => 0

theorem Phase.patience_le (phase : Phase) {n k : Nat} (hk : n ≤ k) :
    phase.patience k ≤ phase.patience n + (k - n) := by
  cases phase with
  | entered state =>
      simp only [patience]
      split <;> omega
  | clearing x =>
      simp only [patience]
      omega
  | _ => exact Nat.le_add_right ..

def patience (s : Session) (m : Mailbox) : Nat := s.phase.patience m.inbound.items.length

theorem patience_pos {s : Session} (m : Mailbox) (hlive : s.isOver = false) :
    0 < s.patience m := by
  unfold isOver at hlive
  unfold patience Phase.patience
  split
  case h_2 | h_3 => split <;> omega
  case h_10 heq | h_11 heq =>
    rw [heq] at hlive
    cases hlive
  all_goals omega

theorem Course.patience {now : Instant} {s : Session} {m : Mailbox} {r : Reaction}
    (h : Course now s m r) (hflag : m.cancelled = true) (hlive : s.isOver = false) :
    r.session.patience r.mailbox < s.patience m := by
  cases h with
  | idle hover =>
      rw [hlive] at hover
      cases hover
  | expire _ _ free | trySend _ _ free | tryReceive _ _ free =>
      rw [hflag] at free
      cases free
  | crash fault m' why result =>
      subst result
      exact patience_pos m hlive
  | enter state phase free result =>
      subst result
      have hdone : state.isDone = true := free.resolve_left (by simp [hflag])
      simp [Session.patience, phase, Phase.patience, hdone]
  | discard x frame inbound phase taken result =>
      subst result
      simp [Session.patience, phase, Phase.patience, (Queue.tryRecv_eq_ok_iff.mp taken).1]
  | cancel x phase flag result =>
      subst result
      rcases phase with phase | phase <;>
        simp [Session.patience, phase, Phase.patience, State.isDone]
  | lose x closed result =>
      subst result
      rcases closed with ⟨phase, -⟩ | ⟨phase, -⟩ <;> simp [Session.patience, phase, Phase.patience]
  | stop state phase undone _ result =>
      subst result
      simp only [Session.patience, phase, Phase.patience, undone]
      exact Nat.lt_succ_self 2
  | request _ _ phase _ _ result | prepare _ _ phase _ _ result | complete phase _ result
  | send _ _ _ phase _ _ result | exhaust _ _ phase _ result | clear _ phase _ result =>
      subst result
      simp only [Session.patience, phase, Phase.patience, State.isDone, reduceIte,
        Bool.false_eq_true]
      omega
  | start phase result | place _ _ _ phase _ _ result | hold _ phase _ result
  | grant _ _ _ phase _ _ _ result | accept _ _ _ _ _ phase _ _ _ _ result
  | reject _ _ _ phase _ _ _ result | refuse _ _ _ _ _ phase _ _ _ _ result
  | fail _ _ _ phase _ _ result | ignore _ _ _ phase _ _ result | await _ phase _ _ result
  | giveUp _ _ phase _ result | finish _ _ phase result =>
      subst result
      simp [Session.patience, phase, Phase.patience, State.isDone]

/-- Each step of a cancelled session brings it closer to its end. -/
theorem step_patience (now : Instant) {s : Session} {m : Mailbox} (hflag : m.cancelled = true)
    (hlive : s.isOver = false) :
    (s.step now m).session.patience (s.step now m).mailbox < s.patience m :=
  (step_course now s m).patience hflag hlive

end Session

end BoardFlash
