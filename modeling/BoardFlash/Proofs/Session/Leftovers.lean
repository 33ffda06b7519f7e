import BoardFlash.Proofs.Session.Journal

/-!
# Frames that came in too early or too late

A session reads its inbound queue in two places. At the beginning of an exchange
it throws away what there is, and then it takes one frame after the other up to
the first answer (`Post.audible`). In any other place it does not matter what is
in the queue: a step does the same with other frames there (`step_refill`).

`Littered` relates two runs in the same surroundings. In the second one more
frames are put in the inbound queue, whenever the session will not hear them
(`Post.deaf`): it has not begun, it is between two exchanges, it still throws
away what there is, or the answer is in the queue already. To throw away more
frames takes more steps, and a queue that is full of them takes no more, so the
mailboxes of the two runs differ; but what the session may still hear does not
(`Agree`), and so neither does anything that it tells or leaves behind
(`leftovers_never_matter`).
-/

namespace BoardFlash

/-- The same mailbox with other frames in the inbound queue. -/
def Mailbox.refill (m : Mailbox) (frames : List Frame) : Mailbox :=
  { m with inbound := { m.inbound with items := frames } }

namespace Mailbox

theorem refill_items (m : Mailbox) : m.refill m.inbound.items = m := rfl

/-- Whatever others do, but for a delivery, they do not touch the frames in the
inbound queue. -/
theorem apply_refill (m : Mailbox) (frames : List Frame) {change : Move}
    (hchange : ∀ f, change ≠ .deliver f) :
    (m.refill frames).apply change = (m.apply change).refill frames
    ∧ (m.apply change).inbound.items = m.inbound.items := by
  cases change with
  | deliver f => exact absurd rfl (hchange f)
  | collect n =>
      have houtbound : (m.refill frames).outbound = m.outbound := rfl
      unfold apply
      dsimp only
      rw [houtbound]
      split <;> exact ⟨rfl, rfl⟩
  | cancel | stopDelivering | stopCollecting => exact ⟨rfl, rfl⟩

end Mailbox

namespace Session

/-- The same reaction with other frames left in the inbound queue. -/
def Reaction.refill (r : Reaction) (frames : List Frame) : Reaction :=
  { r with mailbox := r.mailbox.refill frames }

/-! ## Steps with other frames in the queue -/

/-- The session waits with its frame or for the answer to it. -/
def Phase.listens : Phase → Bool
  | .beforeSend _ | .placing _ | .beforeAnswer _ | .receiving _ => true
  | _ => false

section

variable (now : Instant) (s : Session) (m : Mailbox) (frames : List Frame)

theorem fire_refill (state : State) (event : Event) (notice : Option Notice) :
    s.fire now (m.refill frames) state event notice
      = (s.fire now m state event notice).refill frames := by
  unfold fire
  split <;> rfl

theorem exchange_refill (purpose : Purpose) (frame : Frame) :
    s.exchange now (m.refill frames) purpose frame
      = (s.exchange now m purpose frame).refill frames := by
  unfold exchange
  split <;> rfl

theorem work_refill (state : State) :
    s.work now (m.refill frames) state = (s.work now m state).refill frames := by
  unfold work
  cases state with
  | requesting =>
      dsimp only
      split
      · rfl
      · exact exchange_refill ..
  | preparing =>
      dsimp only
      split
      · exact fire_refill ..
      · split
        · rfl
        · exact fire_refill ..
  | sending packet refusals =>
      dsimp only
      split
      · exact fire_refill ..
      · split
        · rfl
        · exact exchange_refill ..
  | done failure reported => exact fire_refill ..

theorem unlessOver_refill (x : Exchange) (next : Phase) :
    s.unlessOver now (m.refill frames) x next = (s.unlessOver now m x next).refill frames := by
  have hflag : (m.refill frames).cancelled = m.cancelled := rfl
  unfold unlessOver
  rw [hflag, fire_refill, fire_refill]
  split
  · rfl
  · split <;> rfl

theorem placed_refill (x : Exchange) :
    s.placed (m.refill frames) x = (s.placed m x).refill frames := by
  unfold placed
  split
  · split <;> rfl
  · rfl

theorem accepted_refill (x : Exchange) :
    s.accepted now (m.refill frames) x = (s.accepted now m x).refill frames := by
  unfold accepted
  split
  · exact fire_refill ..
  · split
    · rfl
    · exact fire_refill ..

theorem refused_refill (x : Exchange) :
    s.refused now (m.refill frames) x = (s.refused now m x).refill frames := by
  unfold refused
  split
  · exact fire_refill ..
  · split
    · rfl
    · exact fire_refill ..

/-- A step that does not look into the inbound queue does the same with other
frames there. -/
theorem step_refill (hclearing : ∀ x, s.phase ≠ .clearing x)
    (hreceiving : ∀ x, s.phase ≠ .receiving x) :
    s.step now (m.refill frames) = (s.step now m).refill frames := by
  have hflag : (m.refill frames).cancelled = m.cancelled := rfl
  have houtbound : (m.refill frames).outbound = m.outbound := rfl
  unfold step
  rw [hflag, houtbound]
  cases hp : s.phase with
  | clearing x => exact absurd hp (hclearing x)
  | receiving x => exact absurd hp (hreceiving x)
  | boundary state =>
      dsimp only
      split <;> rfl
  | entered state => exact work_refill ..
  | beforeSend x | beforeAnswer x => exact unlessOver_refill ..
  | placing x =>
      dsimp only
      split
      · next outbound _ => exact placed_refill s { m with outbound } frames x
      · rfl
      · rfl
  | lost x => exact fire_refill ..
  | waiting | finished | crashed => rfl

/-- A session that takes a frame does the same with other frames behind it. -/
theorem step_refill_cons {x : Exchange} (hp : s.phase = .receiving x) {f : Frame}
    {rest : List Frame} (hitems : m.inbound.items = f :: rest) :
    s.step now (m.refill (f :: frames)) = (s.step now m).refill frames := by
  have htaken : m.inbound.tryRecv = .ok (f, { m.inbound with items := rest }) :=
    Queue.tryRecv_eq_ok_iff.mpr ⟨hitems, rfl⟩
  have htaken' : (m.refill (f :: frames)).inbound.tryRecv
      = .ok (f, { m.inbound with items := frames }) := rfl
  unfold step
  rw [hp]
  dsimp only
  rw [htaken, htaken']
  dsimp only
  split
  · exact accepted_refill now s { m with inbound := { m.inbound with items := rest } } frames x
  · exact refused_refill now s { m with inbound := { m.inbound with items := rest } } frames x
  · exact fire_refill now s { m with inbound := { m.inbound with items := rest } } frames ..
  · rfl

/-- A session announces a frame when nothing is left to be thrown away. -/
theorem step_announces (now : Instant) (s : Session) (m : Mailbox) :
    (s.step now m).notice.bind Notice.frame? = match s.phase with
      | .clearing x => if m.inbound.items = [] then some x.frame else none
      | _ => none := by
  have hcourse := step_course now s m
  generalize s.step now m = r at hcourse
  cases hcourse with
  | clear x phase empty result =>
      subst result
      simp [phase, empty, Notice.frame?]
  | discard x frame inbound phase taken result =>
      subst result
      simp [phase, (Queue.tryRecv_eq_ok_iff.mp taken).1, Notice.frame?]
  | idle hover result =>
      subst result
      unfold isOver at hover
      split at hover <;> simp_all
  | enter state phase _ result =>
      subst result
      rw [phase]
      cases state <;> rfl
  | lose x closed result =>
      subst result
      rcases closed with ⟨phase, -⟩ | ⟨phase, -⟩ <;> (rw [phase]; rfl)
  | cancel x phase _ result | expire x phase _ _ result =>
      subst result
      rcases phase with phase | phase <;> (rw [phase]; rfl)
  | crash fault m' why result =>
      subst result
      cases why <;> simp_all
  | _ => simp_all [Notice.frame?]

/-- Where a session listens it has listened before, or it has just thrown away all
there was. Of what it could hear it has taken one frame at most. -/
theorem Course.listens {now : Instant} {s : Session} {m : Mailbox} {r : Reaction}
    (h : Course now s m r) (hlistens : r.session.phase.listens = true) :
    (∃ x, s.phase = .clearing x)
    ∨ (s.phase.listens = true ∧ r.mailbox.inbound = m.inbound
      ∧ ∀ x, s.phase = .receiving x → m.inbound.items = [])
    ∨ ∃ x f, s.phase = .receiving x ∧ f.type.isAnswer = false
      ∧ m.inbound.items = f :: r.mailbox.inbound.items := by
  cases h with
  | clear x phase _ _ => exact .inl ⟨x, phase⟩
  | trySend _ phase _ _ result | tryReceive _ phase _ _ result | place _ _ _ phase _ _ result
  | hold _ phase _ result =>
      subst result
      refine .inr (.inl ⟨by rw [phase]; rfl, rfl, fun y hp => ?_⟩)
      rw [phase] at hp
      cases hp
  | await _ phase empty _ result =>
      subst result
      exact .inr (.inl ⟨by rw [phase]; rfl, rfl, fun _ _ => empty⟩)
  | ignore x frame inbound phase taken type result =>
      subst result
      exact .inr (.inr ⟨x, frame, phase, type, (Queue.tryRecv_eq_ok_iff.mp taken).1⟩)
  | idle hover result =>
      subst result
      unfold isOver at hover
      split at hover <;> simp_all [Phase.listens]
  | _ =>
      subst_vars
      cases hlistens

end

/-! ## Sessions that are alike -/

theorem Alike.listens {s t : Session} (h : s.Alike t) : t.phase.listens = s.phase.listens := by
  obtain ⟨started, deadline, elapsed, rfl⟩ := h
  cases hp : s.phase <;> simp [retimed, Phase.retimed, Phase.listens, hp]

theorem Alike.trans {s t u : Session} (hst : s.Alike t) (htu : t.Alike u) : s.Alike u := by
  obtain ⟨_, _, _, rfl⟩ := hst
  obtain ⟨started, deadline, elapsed, rfl⟩ := htu
  refine ⟨started, deadline, elapsed, ?_⟩
  cases hp : s.phase <;> simp [retimed, Phase.retimed, hp]

end Session

/-! ## What a session will hear -/

/-- The frames up to the first answer. -/
def upToAnswer : List Frame → List Frame
  | [] => []
  | f :: frames => if f.type.isAnswer then [f] else f :: upToAnswer frames

theorem any_upToAnswer (frames : List Frame) :
    (upToAnswer frames).any (·.type.isAnswer) = frames.any (·.type.isAnswer) := by
  induction frames with
  | nil => rfl
  | cons f frames ih => by_cases hf : f.type.isAnswer = true <;> simp [upToAnswer, hf, ih]

theorem upToAnswer_eq_self {frames : List Frame} (h : frames.any (·.type.isAnswer) = false) :
    upToAnswer frames = frames := by
  induction frames with
  | nil => rfl
  | cons f frames ih =>
      obtain ⟨hf, hrest⟩ := Bool.or_eq_false_iff.mp h
      simp [upToAnswer, hf, ih hrest]

theorem upToAnswer_append {frames : List Frame} (h : frames.any (·.type.isAnswer) = true)
    (more : List Frame) : upToAnswer (frames ++ more) = upToAnswer frames := by
  induction frames with
  | nil => cases h
  | cons f frames ih =>
      by_cases hf : f.type.isAnswer = true
      · simp [upToAnswer, hf]
      · have hrest : frames.any (·.type.isAnswer) = true := by simpa [hf] using h
        simp [upToAnswer, hf, ih hrest]

theorem upToAnswer_eq_nil {frames : List Frame} (h : upToAnswer frames = []) : frames = [] := by
  cases frames with
  | nil => rfl
  | cons f frames => by_cases hf : f.type.isAnswer = true <;> simp [upToAnswer, hf] at h

theorem eq_cons_of_upToAnswer {f : Frame} {frames more : List Frame}
    (h : upToAnswer more = upToAnswer (f :: frames)) :
    ∃ rest, more = f :: rest
      ∧ (f.type.isAnswer = false → upToAnswer rest = upToAnswer frames) := by
  cases more with
  | nil => by_cases hf : f.type.isAnswer = true <;> simp [upToAnswer, hf] at h
  | cons g rest =>
      by_cases hf : f.type.isAnswer = true <;> by_cases hg : g.type.isAnswer = true <;>
        simp_all [upToAnswer]

namespace Post

/-- What the session will hear of what is in its inbound queue. -/
def audible (p : Post) : List Frame :=
  if p.session.phase.listens then upToAnswer p.mailbox.inbound.items else []

/-- Whatever comes in now, the session will not hear it. -/
def deaf (p : Post) : Bool :=
  !p.session.phase.listens || p.mailbox.inbound.items.any (·.type.isAnswer)

/-- The session is about to throw a frame away. -/
def discards (p : Post) : Bool :=
  match p.session.phase with
  | .clearing _ => !p.mailbox.inbound.items.isEmpty
  | _ => false

/-- The posts differ in nothing but readings of the clock and frames that the session
will not hear. -/
structure Agree (p q : Post) : Prop where
  session : p.session.Alike q.session
  mailbox : q.mailbox = p.mailbox.refill q.mailbox.inbound.items
  audible : q.audible = p.audible

theorem Agree.refl (p : Post) : p.Agree p := ⟨.refl _, rfl, rfl⟩

theorem audible_of_listens {p : Post} (h : p.session.phase.listens = true) :
    p.audible = upToAnswer p.mailbox.inbound.items := if_pos h

theorem audible_of_not_listens {p : Post} (h : p.session.phase.listens = false) :
    p.audible = [] := if_neg (Bool.not_eq_true _ ▸ h)

theorem audible_refill (r : Session.Reaction) (rest : List Frame)
    (hrest : r.session.phase.listens = true →
      upToAnswer rest = upToAnswer r.mailbox.inbound.items) :
    audible (ofReaction (r.refill rest)) = audible (ofReaction r) := by
  cases hlistens : r.session.phase.listens with
  | true =>
      rw [audible_of_listens hlistens, audible_of_listens hlistens]
      exact hrest hlistens
  | false => rw [audible_of_not_listens hlistens, audible_of_not_listens hlistens]

/-- Sessions in one place that will hear the same do the same in a step, unless one of
them throws a frame away and the other one does not. -/
theorem agree_step (now : Instant) (s : Session) (m : Mailbox) (frames : List Frame)
    (haudible : audible ⟨s, m.refill frames⟩ = audible ⟨s, m⟩)
    (hdiscards : discards ⟨s, m.refill frames⟩ = discards ⟨s, m⟩) :
    (s.step now (m.refill frames)).session = (s.step now m).session
    ∧ Agree (ofReaction (s.step now m)) (ofReaction (s.step now (m.refill frames))) := by
  by_cases hclearing : ∃ x, s.phase = .clearing x
  · obtain ⟨x, hp⟩ := hclearing
    simp only [discards, hp, Mailbox.refill] at hdiscards
    unfold Session.step
    rw [hp]
    cases hitems : m.inbound.items with
    | nil =>
        cases frames with
        | nil =>
            have hsame : m.refill [] = m := by rw [Mailbox.refill, ← hitems]
            rw [hsame]
            exact ⟨rfl, .refl _⟩
        | cons g frames => simp [hitems] at hdiscards
    | cons f rest =>
        cases frames with
        | nil => simp [hitems] at hdiscards
        | cons g frames =>
            simp only [Mailbox.refill, Queue.tryRecv, hitems]
            exact ⟨rfl, .refl _, rfl, rfl⟩
  · have hcourse := Session.step_course now s m
    by_cases hreceiving : ∃ x, s.phase = .receiving x
    · obtain ⟨x, hp⟩ := hreceiving
      simp only [audible, hp, Session.Phase.listens, if_true, Mailbox.refill] at haudible
      cases hitems : m.inbound.items with
      | nil =>
          rw [hitems] at haudible
          have hsame : m.refill frames = m := by
            rw [upToAnswer_eq_nil haudible, Mailbox.refill, ← hitems]
          rw [hsame]
          exact ⟨rfl, .refl _⟩
      | cons f rest =>
          rw [hitems] at haudible
          obtain ⟨rest', rfl, hnext⟩ := eq_cons_of_upToAnswer haudible
          rw [Session.step_refill_cons now s m rest' hp hitems]
          refine ⟨rfl, .refl _, rfl, audible_refill _ rest' fun hlistens => ?_⟩
          rcases hcourse.listens hlistens with
            hcleared | ⟨-, -, hempty⟩ | ⟨y, g, -, hignored, htaken⟩
          · exact absurd hcleared hclearing
          · rw [hempty x hp] at hitems
            cases hitems
          · obtain ⟨rfl, hleft⟩ := List.cons.inj (hitems.symm.trans htaken)
            rw [hnext hignored, hleft]
    · rw [Session.step_refill now s m frames (fun x hp => hclearing ⟨x, hp⟩)
        fun x hp => hreceiving ⟨x, hp⟩]
      refine ⟨rfl, .refl _, rfl, audible_refill _ frames fun hlistens => ?_⟩
      rcases hcourse.listens hlistens with hcleared | ⟨hbefore, hsame, -⟩ | ⟨y, g, hp, -⟩
      · exact absurd hcleared hclearing
      · rw [audible_of_listens hbefore, audible_of_listens hbefore] at haudible
        rw [hsame]
        exact haudible
      · exact absurd ⟨y, hp⟩ hreceiving

section

variable {p q : Post} {s t : Session} {now now' : Instant}

theorem audible_alike (h : s.Alike t) (m : Mailbox) : audible ⟨t, m⟩ = audible ⟨s, m⟩ := by
  simp only [audible, h.listens]

theorem discards_alike (h : s.Alike t) (m : Mailbox) : discards ⟨t, m⟩ = discards ⟨s, m⟩ := by
  obtain ⟨started, deadline, elapsed, rfl⟩ := h
  cases hp : s.phase <;> simp [discards, Session.retimed, Session.Phase.retimed, hp]

theorem Agree.trans_alike {r : Post} (h : p.Agree q) (halike : q.Alike r) : p.Agree r := by
  obtain ⟨t, m⟩ := q
  obtain ⟨u, m'⟩ := r
  obtain ⟨hsession, rfl⟩ := halike
  exact ⟨h.session.trans hsession, h.mailbox, (audible_alike hsession m').trans h.audible⟩

theorem Agree.step (h : p.Agree q) (htold : p.session.glance now = q.session.glance now')
    (hdiscards : q.discards = p.discards) :
    (p.apply (.step now)).Agree (q.apply (.step now')) := by
  obtain ⟨s, m⟩ := p
  obtain ⟨t, m'⟩ := q
  obtain ⟨hsession, hmailbox, haudible⟩ := h
  dsimp only at hsession hmailbox htold
  rw [audible_alike hsession] at haudible
  rw [discards_alike hsession] at hdiscards
  -- In between stands the first session with the mailbox of the second one.
  have hmiddle : Agree (ofReaction (s.step now m)) (ofReaction (s.step now m')) := by
    rw [hmailbox] at haudible hdiscards ⊢
    exact (agree_step now s m _ haudible hdiscards).2
  obtain ⟨hstepped, hleft⟩ := Session.step_alike hsession htold m'
  exact hmiddle.trans_alike ⟨hstepped, hleft⟩

theorem Agree.announces (h : p.Agree q) (hdiscards : q.discards = p.discards) :
    q.announces? (.step now') = p.announces? (.step now) := by
  obtain ⟨s, m⟩ := p
  obtain ⟨t, m'⟩ := q
  obtain ⟨⟨started, deadline, elapsed, hsession⟩, -, -⟩ := h
  dsimp only at hsession
  subst hsession
  rw [announces?, announces?, notice?, notice?, Session.step_announces, Session.step_announces]
  rw [discards_alike ⟨started, deadline, elapsed, rfl⟩] at hdiscards
  cases hp : s.phase with
  | clearing x =>
      have hempty : m'.inbound.items = [] ↔ m.inbound.items = [] := by
        simp only [discards, hp] at hdiscards
        rw [← List.isEmpty_iff, ← List.isEmpty_iff, Bool.not_inj hdiscards]
      simp [Session.retimed, Session.Phase.retimed, hp, hempty]
  | _ => simp [Session.retimed, Session.Phase.retimed, hp]

theorem Agree.refill_left (h : p.Agree q) {frames : List Frame}
    (haudible : Post.audible ⟨p.session, p.mailbox.refill frames⟩ = p.audible) :
    Agree ⟨p.session, p.mailbox.refill frames⟩ q :=
  ⟨h.session, h.mailbox, h.audible.trans haudible.symm⟩

theorem Agree.refill_right (h : p.Agree q) {frames : List Frame}
    (haudible : Post.audible ⟨q.session, q.mailbox.refill frames⟩ = q.audible) :
    Agree p ⟨q.session, q.mailbox.refill frames⟩ :=
  ⟨h.session, congrArg (·.refill frames) h.mailbox, haudible.trans h.audible⟩

/-- A session that throws a frame away does nothing else. -/
theorem apply_of_discards (now : Instant) (h : p.discards = true) :
    p.announces? (.step now) = none
    ∧ p.apply (.step now) = ⟨p.session, p.mailbox.refill p.mailbox.inbound.items.tail⟩
    ∧ audible ⟨p.session, p.mailbox.refill p.mailbox.inbound.items.tail⟩ = p.audible := by
  obtain ⟨s, m⟩ := p
  unfold discards at h
  split at h
  · next x hp =>
    dsimp only at hp h
    cases hitems : m.inbound.items with
    | nil => simp [hitems] at h
    | cons f rest =>
        have htaken : m.inbound.tryRecv = .ok (f, { m.inbound with items := rest }) :=
          Queue.tryRecv_eq_ok_iff.mpr ⟨hitems, rfl⟩
        have hlistens : s.phase.listens = false := by rw [hp]; rfl
        refine ⟨?_, ?_, ?_⟩
        · rw [announces?, notice?, Session.step_announces, hp]
          exact if_neg (by simp [hitems])
        · simp only [apply, Session.step, hp, htaken, List.tail_cons]
          rw [ofReaction, Session.goTo, ← hp]
          rfl
        · rw [audible_of_not_listens hlistens, audible_of_not_listens hlistens]
  · cases h

/-- A frame that comes in unheard does not change what will be heard. -/
theorem deliver_of_deaf (h : p.deaf = true) (f : Frame) :
    ∃ frames, p.apply (.move (.deliver f)) = ⟨p.session, p.mailbox.refill frames⟩
      ∧ audible ⟨p.session, p.mailbox.refill frames⟩ = p.audible := by
  obtain ⟨s, m⟩ := p
  rcases m.apply_deliver f with hlost | hlast
  · exact ⟨m.inbound.items, congrArg (Post.mk s) hlost, rfl⟩
  · refine ⟨m.inbound.items ++ [f], congrArg (Post.mk s) hlast, ?_⟩
    cases hlistens : s.phase.listens with
    | false => rw [audible_of_not_listens hlistens, audible_of_not_listens hlistens]
    | true =>
        rw [audible_of_listens hlistens, audible_of_listens hlistens]
        simp only [deaf, hlistens, Bool.not_true, Bool.false_or] at h
        exact upToAnswer_append h [f]

theorem Agree.discard (h : p.Agree q) (hdiscards : p.discards = true) :
    (p.apply (.step now)).Agree q := by
  obtain ⟨-, hstep, haudible⟩ := apply_of_discards now hdiscards
  rw [hstep]
  exact h.refill_left haudible

theorem Agree.discard_right (h : p.Agree q) (hdiscards : q.discards = true) :
    p.Agree (q.apply (.step now)) := by
  obtain ⟨-, hstep, haudible⟩ := apply_of_discards now hdiscards
  rw [hstep]
  exact h.refill_right haudible

theorem Agree.litter (h : p.Agree q) (hdeaf : q.deaf = true) (f : Frame) :
    p.Agree (q.apply (.move (.deliver f))) := by
  obtain ⟨frames, hcame, haudible⟩ := deliver_of_deaf hdeaf f
  rw [hcame]
  exact h.refill_right haudible

theorem Agree.kill (h : p.Agree q) : (p.apply .kill).Agree (q.apply .kill) := by
  cases hover : p.session.isOver with
  | true =>
      rw [apply_kill_of_over hover, apply_kill_of_over (h.session.isOver.trans hover)]
      exact h
  | false =>
      rw [apply_kill_of_live hover, apply_kill_of_live (h.session.isOver.trans hover)]
      obtain ⟨⟨started, deadline, elapsed, hsession⟩, hmailbox, -⟩ := h
      refine ⟨⟨started, deadline, elapsed, ?_⟩, ?_, rfl⟩
      · rw [hsession]
        rfl
      · show q.mailbox.release = _
        rw [hmailbox]
        rfl

theorem Agree.deaf (h : p.Agree q) : q.deaf = p.deaf := by
  have haudible := h.audible
  rw [Post.deaf, Post.deaf, h.session.listens]
  cases hlistens : p.session.phase.listens with
  | false => rfl
  | true =>
      rw [audible_of_listens hlistens,
        audible_of_listens (h.session.listens.trans hlistens)] at haudible
      rw [← any_upToAnswer, haudible, any_upToAnswer]

/-- Where a session hears all there is, the mailboxes are the same. -/
theorem Agree.mailbox_eq (h : p.Agree q) (hdeaf : p.deaf = false) : q.mailbox = p.mailbox := by
  have hdeaf' := h.deaf.trans hdeaf
  have haudible := h.audible
  obtain ⟨hlistens, hall⟩ := Bool.or_eq_false_iff.mp hdeaf
  obtain ⟨hlistens', hall'⟩ := Bool.or_eq_false_iff.mp hdeaf'
  rw [audible_of_listens (by simpa using hlistens'), audible_of_listens (by simpa using hlistens),
    upToAnswer_eq_self hall, upToAnswer_eq_self hall'] at haudible
  rw [h.mailbox, haudible, Mailbox.refill_items]

theorem Agree.move (h : p.Agree q) (change : Mailbox.Move) :
    (p.apply (.move change)).Agree (q.apply (.move change)) := by
  by_cases hdelivers : ∃ f, change = .deliver f
  · obtain ⟨f, rfl⟩ := hdelivers
    cases hdeaf : p.deaf with
    | true =>
        obtain ⟨frames, hcame, haudible⟩ := deliver_of_deaf hdeaf f
        rw [hcame]
        exact (h.litter (h.deaf.trans hdeaf) f).refill_left haudible
    | false =>
        have hsame := h.mailbox_eq hdeaf
        exact (Agree.refl _).trans_alike ⟨h.session, congrArg (·.apply (.deliver f)) hsame⟩
  · have hchange : ∀ f, change ≠ .deliver f := fun f hf => hdelivers ⟨f, hf⟩
    have hp := (p.mailbox.apply_refill q.mailbox.inbound.items hchange)
    have hq := (q.mailbox.apply_refill [] hchange).2
    refine ⟨h.session, ?_, ?_⟩
    · show q.mailbox.apply change
        = (p.mailbox.apply change).refill (q.mailbox.apply change).inbound.items
      rw [hq, ← hp.1, ← h.mailbox]
    · have haudible := h.audible
      simp only [Post.audible, apply, hp.2, hq] at haudible ⊢
      exact haudible

end

/-! ## Runs with more frames that nobody hears -/

/-- The second run goes as the first one, step for step, but more frames come in that
the session will not hear, and each session throws away what there is in its own
time. -/
inductive Littered : Post → Post → List Event → List Event → Prop
  | nil {p q : Post} : Littered p q [] []
  | step {p q : Post} {now now' : Instant} {events events' : List Event}
      (told : p.session.glance now = q.session.glance now') (discards : q.discards = p.discards)
      (rest : Littered (p.apply (.step now)) (q.apply (.step now')) events events') :
      Littered p q (.step now :: events) (.step now' :: events')
  | kill {p q : Post} {events events' : List Event}
      (rest : Littered (p.apply .kill) (q.apply .kill) events events') :
      Littered p q (.kill :: events) (.kill :: events')
  | move {p q : Post} {move : Mailbox.Move} {events events' : List Event}
      (rest : Littered (p.apply (.move move)) (q.apply (.move move)) events events') :
      Littered p q (.move move :: events) (.move move :: events')
  | litter {p q : Post} {f : Frame} {events events' : List Event} (deaf : q.deaf = true)
      (rest : Littered p (q.apply (.move (.deliver f))) events events') :
      Littered p q events (.move (.deliver f) :: events')
  | discard {p q : Post} {now : Instant} {events events' : List Event}
      (discards : p.discards = true) (rest : Littered (p.apply (.step now)) q events events') :
      Littered p q (.step now :: events) events'
  | discard_right {p q : Post} {now : Instant} {events events' : List Event}
      (discards : q.discards = true) (rest : Littered p (q.apply (.step now)) events events') :
      Littered p q events (.step now :: events')

theorem Agree.outbound {p q : Post} (h : p.Agree q) :
    q.mailbox.outbound = p.mailbox.outbound := by
  rw [h.mailbox]
  rfl

/-- A session that throws a frame away puts none in the outbound queue. -/
theorem sent_of_discards {j : Journal} {now : Instant} (h : j.post.discards = true) :
    (j.apply (.step now)).sent = j.sent := by
  obtain ⟨-, hstep, -⟩ := apply_of_discards now h
  show j.sent ++ (j.post.apply (.step now)).mailbox.outbound.items.drop _ = _
  rw [hstep]
  exact (congrArg (j.sent ++ ·) List.drop_length).trans (List.append_nil _)

theorem Littered.agree {events events' : List Event} {p q : Post}
    (h : Littered p q events events') (hagree : p.Agree q) {j k : Journal} (hj : j.post = p)
    (hk : k.post = q) (hsent : k.sent = j.sent) :
    (p.run events).Agree (q.run events') ∧ q.announced events' = p.announced events
    ∧ (k.run events').sent = (j.run events).sent := by
  induction h generalizing j k with
  | nil => exact ⟨hagree, rfl, hsent⟩
  | @step p q now now' _ _ told discards rest ih =>
      subst hj hk
      have hnext := hagree.step told discards
      have hsent' : (k.apply (.step now')).sent = (j.apply (.step now)).sent := by
        show k.sent ++ _ = j.sent ++ _
        rw [hsent, hnext.outbound, hagree.outbound]
      obtain ⟨hend, hannounced, hqueued⟩ := ih hnext rfl rfl hsent'
      refine ⟨hend, ?_, hqueued⟩
      rw [announced_cons, announced_cons, hannounced, hagree.announces discards]
  | kill rest ih =>
      subst hj hk
      obtain ⟨hend, hannounced, hqueued⟩ := ih hagree.kill (j := j.apply .kill)
        (k := k.apply .kill) rfl rfl hsent
      exact ⟨hend, by rw [announced_cons, announced_cons, hannounced]; rfl, hqueued⟩
  | @move p q move _ _ rest ih =>
      subst hj hk
      obtain ⟨hend, hannounced, hqueued⟩ := ih (hagree.move move) (j := j.apply (.move move))
        (k := k.apply (.move move)) rfl rfl hsent
      exact ⟨hend, by rw [announced_cons, announced_cons, hannounced]; rfl, hqueued⟩
  | @litter p q f _ _ deaf rest ih =>
      subst hj hk
      obtain ⟨hend, hannounced, hqueued⟩ := ih (hagree.litter deaf f)
        (k := k.apply (.move (.deliver f))) rfl rfl hsent
      exact ⟨hend, by rw [announced_cons, hannounced]; rfl, hqueued⟩
  | @discard p q now _ _ discards rest ih =>
      subst hj hk
      obtain ⟨hend, hannounced, hqueued⟩ := ih (hagree.discard discards)
        (j := j.apply (.step now)) rfl rfl (hsent.trans (sent_of_discards discards).symm)
      refine ⟨hend, ?_, hqueued⟩
      rw [announced_cons, hannounced, (apply_of_discards _ discards).1]
      rfl
  | @discard_right p q now _ _ discards rest ih =>
      subst hj hk
      obtain ⟨hend, hannounced, hqueued⟩ := ih (hagree.discard_right discards)
        (k := k.apply (.step now)) rfl rfl ((sent_of_discards discards).trans hsent)
      refine ⟨hend, ?_, hqueued⟩
      rw [announced_cons, hannounced, (apply_of_discards _ discards).1]
      rfl

/-! ## More frames for any run -/

/-- The frames that the session has yet to throw away. -/
def backlog (p : Post) : Nat :=
  match p.session.phase with
  | .clearing _ => p.mailbox.inbound.items.length
  | _ => 0

/-- What happens to the second post while `e` happens to the first one: its session
throws away what there is when the other one is done with that. -/
def keepUp (p q : Post) (e : Event) : List Event :=
  match e with
  | .step _ =>
    if p.discards then if q.discards then [e] else []
    else List.replicate q.backlog e ++ [e]
  | .kill | .move _ => [e]

/-- The frames come in, unless the session would hear them. -/
def strew (q : Post) (frames : List Frame) : List Event :=
  if q.deaf then frames.map fun f => .move (.deliver f) else []

/-- The events of the second post, with frames that come in before each of the events
of the first one. -/
def littered (p q : Post) : List (List Frame × Event) → List Event
  | [] => []
  | (frames, e) :: plan =>
    let q' := q.run (q.strew frames)
    q.strew frames ++ (p.keepUp q' e ++ (p.apply e).littered (q'.run (p.keepUp q' e)) plan)

/-- The posts agree, and the clock has told their sessions the same. -/
structure Twin (p q : Post) : Prop where
  agree : p.Agree q
  session : q.session = p.session

section

variable {p q : Post} {events events' : List Event}

theorem Twin.step (h : p.Twin q) (hdiscards : q.discards = p.discards) (now : Instant) :
    (p.apply (.step now)).Twin (q.apply (.step now)) := by
  obtain ⟨s, m⟩ := p
  obtain ⟨t, m'⟩ := q
  obtain ⟨⟨-, hmailbox, haudible⟩, hsession⟩ := h
  dsimp only at hsession hmailbox
  subst hsession
  show Twin (ofReaction (t.step now m)) (ofReaction (t.step now m'))
  rw [hmailbox] at haudible hdiscards ⊢
  obtain ⟨hsession, hagree⟩ := agree_step now t m _ haudible hdiscards
  exact ⟨hagree, hsession⟩

theorem Twin.kill (h : p.Twin q) : (p.apply .kill).Twin (q.apply .kill) := by
  refine ⟨h.agree.kill, ?_⟩
  cases hover : p.session.isOver with
  | true => rw [apply_kill_of_over hover, apply_kill_of_over (h.session ▸ hover), h.session]
  | false =>
      rw [apply_kill_of_live hover, apply_kill_of_live (h.session ▸ hover)]
      exact congrArg ({ · with phase := .crashed .killed }) h.session

theorem Twin.discard (h : p.Twin q) (hdiscards : p.discards = true) (now : Instant) :
    (p.apply (.step now)).Twin q := by
  refine ⟨h.agree.discard hdiscards, ?_⟩
  rw [(apply_of_discards _ hdiscards).2.1]
  exact h.session

theorem Twin.discard_right (h : p.Twin q) (hdiscards : q.discards = true) (now : Instant) :
    p.Twin (q.apply (.step now)) := by
  refine ⟨h.agree.discard_right hdiscards, ?_⟩
  rw [(apply_of_discards _ hdiscards).2.1]
  exact h.session

theorem Twin.strew (h : p.Twin q) (frames : List Frame) : p.Twin (q.run (q.strew frames)) := by
  unfold Post.strew
  split
  · next hdeaf =>
    induction frames generalizing q with
    | nil => exact h
    | cons f frames ih =>
        exact ih ⟨h.agree.litter hdeaf f, h.session⟩
          (((Agree.refl q).litter hdeaf f).deaf.trans hdeaf)
  · exact h

theorem Littered.of_strew (frames : List Frame)
    (h : Littered p (q.run (q.strew frames)) events events') :
    Littered p q events (q.strew frames ++ events') := by
  unfold Post.strew at h ⊢
  split
  · next hdeaf =>
    rw [if_pos hdeaf] at h
    induction frames generalizing q with
    | nil => exact h
    | cons f frames ih =>
        exact .litter hdeaf (ih h (((Agree.refl q).litter hdeaf f).deaf.trans hdeaf))
  · next hhears =>
    rw [if_neg hhears] at h
    exact h

theorem discards_eq (p : Post) : p.discards = decide (0 < p.backlog) := by
  unfold discards backlog
  split
  · cases p.mailbox.inbound.items <;> simp
  · rfl

theorem backlog_apply {n : Nat} (h : q.backlog = n + 1) (now : Instant) :
    (q.apply (.step now)).backlog = n := by
  rw [(apply_of_discards _ (by rw [discards_eq, h]; rfl)).2.1]
  unfold backlog at h ⊢
  split at h
  · next x hp =>
    dsimp only
    rw [hp]
    simp [Mailbox.refill, h]
  · cases h

theorem Twin.backlog {n : Nat} (h : p.Twin q) (hn : q.backlog = n) (now : Instant) :
    p.Twin (q.run (List.replicate n (.step now)))
    ∧ (q.run (List.replicate n (.step now))).discards = false := by
  induction n generalizing q with
  | zero =>
      refine ⟨h, ?_⟩
      show q.discards = false
      rw [discards_eq, hn]
      rfl
  | succ n ih =>
      exact ih (h.discard_right (by rw [discards_eq, hn]; rfl) now) (backlog_apply hn now)

theorem Littered.of_backlog {n : Nat} (hn : q.backlog = n) (now : Instant)
    (h : Littered p (q.run (List.replicate n (.step now))) events events') :
    Littered p q events (List.replicate n (.step now) ++ events') := by
  induction n generalizing q with
  | zero => exact h
  | succ n ih => exact .discard_right (by rw [discards_eq, hn]; rfl) (ih (backlog_apply hn now) h)

/-- The second session is where the first one is again, and that without anything to be
heard in between. -/
theorem Twin.keepUp (h : p.Twin q) (e : Event) :
    (p.apply e).Twin (q.run (p.keepUp q e))
    ∧ (Littered (p.apply e) (q.run (p.keepUp q e)) events events' →
      Littered p q (e :: events) (p.keepUp q e ++ events')) := by
  cases e with
  | kill => exact ⟨h.kill, .kill⟩
  | move change => exact ⟨⟨h.agree.move change, h.session⟩, .move⟩
  | step now =>
      have htold : p.session.glance now = q.session.glance now := by rw [h.session]
      unfold Post.keepUp
      dsimp only
      split
      · next hp =>
        split
        · next hq => exact ⟨h.step (hq.trans hp.symm) now, .step htold (hq.trans hp.symm)⟩
        · exact ⟨h.discard hp now, .discard hp⟩
      · next hp =>
        obtain ⟨htwin, hq⟩ := h.backlog rfl now
        have hdiscards := hq.trans (Bool.eq_false_iff.mpr hp).symm
        rw [run_append]
        refine ⟨htwin.step hdiscards now, fun hrest => ?_⟩
        rw [List.append_assoc]
        exact .of_backlog rfl now (.step (by rw [htwin.session]) hdiscards hrest)

theorem Twin.littered (h : p.Twin q) (plan : List (List Frame × Event)) :
    Littered p q (plan.map Prod.snd) (p.littered q plan) := by
  induction plan generalizing p q with
  | nil => exact .nil
  | cons first plan ih =>
      obtain ⟨frames, e⟩ := first
      obtain ⟨htwin, hlittered⟩ := (h.strew frames).keepUp e
      exact .of_strew frames (hlittered (ih htwin))

end

/-- Nobody who sees what the sessions announce, queue and return can tell the runs
apart. -/
structure Indistinct (p q : Post) (events events' : List Event) : Prop where
  announced : q.announced events' = p.announced events
  queued : (Journal.run { post := q } events').sent = (Journal.run { post := p } events).sent
  /-- The counters are the same at the end, and all else but readings of the clock. -/
  session : (p.run events).session.Alike (q.run events').session
  outcome : (q.run events').session.outcome?.map Outcome.untimed
    = (p.run events).session.outcome?.map Outcome.untimed

/-- Whatever more comes in, before the session begins or whenever it will not hear it,
in any surroundings, the session does and comes to the same. There is such a run for
any frames at any time. -/
theorem leftovers_never_matter (board : UInt8) (image : Firmware) (settings : Settings)
    (mailbox : Mailbox) (frames : List Frame) :
    let p : Post := ⟨.new board image settings, mailbox⟩
    let q : Post := ⟨.new board image settings, mailbox.refill frames⟩
    (∀ events events', Littered p q events events' → Indistinct p q events events')
    ∧ ∀ plan : List (List Frame × Event),
      Littered p q (plan.map Prod.snd) (p.littered q plan) := by
  intro p q
  have hagree : p.Agree q := ⟨.refl _, rfl, rfl⟩
  refine ⟨fun events events' hlittered => ?_, Twin.littered ⟨hagree, rfl⟩⟩
  obtain ⟨hend, hannounced, hqueued⟩ := hlittered.agree hagree (j := { post := p })
    (k := { post := q }) rfl rfl rfl
  exact ⟨hannounced, hqueued, hend.session, hend.session.outcome⟩

/-- The board takes the only chunk. There are errors in the queue before the session
begins, before it asks for the update, and behind both answers. -/
def strewnUpdate : List (List Frame × Event) :=
  let frame (type : FrameType) : Frame := .empty type 7 hostId
  let steps (n : Nat) : List (List Frame × Event) := List.replicate n ([], .step .origin)
  let comes (type : FrameType) : List Frame × Event := ([], .move (.deliver (frame type)))
  steps 7 ++ comes .ack :: ([frame .fatalError], .step .origin)
    :: ([frame .nack, frame .fatalError], .step .origin) :: steps 7 ++ comes .ack
    :: ([frame .fatalError], .step .origin) :: steps 4

theorem updated_despite_errors :
    let image : Firmware := ⟨#[1, 2], Hmac.mac [1, 2] [], 2, 1⟩
    let p : Post := ⟨.new 7 image {}, .ofCapacity 3⟩
    let q : Post := ⟨.new 7 image {}, (Mailbox.ofCapacity 3).refill [.empty .fatalError 7 hostId]⟩
    let events := strewnUpdate.map Prod.snd
    Littered p q events (p.littered q strewnUpdate)
    ∧ events.length + 8 = (p.littered q strewnUpdate).length
    ∧ (q.run (p.littered q strewnUpdate)).session.outcome? = some ⟨7, none, .zero, 2, 1, 0⟩
    ∧ Indistinct p q events (p.littered q strewnUpdate) := by
  intro image p q events
  obtain ⟨hsame, hany⟩ := leftovers_never_matter 7 image {} (.ofCapacity 3)
    [.empty .fatalError 7 hostId]
  exact ⟨hany strewnUpdate, by decide +kernel, by decide +kernel, hsame _ _ (hany strewnUpdate)⟩

end Post

end BoardFlash
