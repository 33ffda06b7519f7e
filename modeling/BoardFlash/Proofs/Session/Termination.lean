import BoardFlash.Proofs.Progress
import BoardFlash.Proofs.Session.Counters
import BoardFlash.Proofs.Session.Quota
import BoardFlash.Proofs.Session.Waiting
import Mathlib.Data.Nat.Order.Lemmas

/-!
# Every session ends

What a session does is limited in every run (`Audit.Limited`): it announces one
request and each chunk as often as the limit says, it does not come back to a
chunk that the board has taken, and it reports once, at its end.

That it comes to its end is a matter of its surroundings. In a run without end
they let it end (`Post.Ending`) if the session goes on with its steps and what it
waits for comes about at some time: nothing is left of what came in too early, a
queue has room, an answer or is closed, the flag is set, or the clock is past the
deadline. Then every wait is left (`Ending.exists_sent`, `Ending.exists_answered`),
every exchange is over at some time, and the rank of the session falls again and
again: with any step between two exchanges, and with the step that ends an exchange.
-/

namespace BoardFlash

/-- What is reported at the end of a session. -/
def Session.Notice.report? : Session.Notice → Option (Option Failure × Duration)
  | .reported failure elapsed => some (failure, elapsed)
  | _ => none

/-- What a session that does not break down has ended with. -/
def Session.Phase.ended? : Session.Phase → Option (Option Failure × Duration)
  | .finished failure elapsed => some (failure, elapsed)
  | _ => none

namespace Session

/-- The exchange whose frame or whose answer the session waits with. -/
def Phase.waits? : Phase → Option Exchange
  | .beforeSend x | .placing x | .beforeAnswer x | .receiving x => some x
  | _ => none

section

variable {now : Instant} {s : Session} {m : Mailbox} {r : Reaction}

theorem Phase.exchange?_eq_some_iff {phase : Phase} {x : Exchange} :
    phase.exchange? = some x ↔ phase = .clearing x ∨ phase.waits? = some x := by
  cases phase <;> simp [exchange?, waits?]

theorem Phase.waits?_eq_some_iff {phase : Phase} {x : Exchange} :
    phase.waits? = some x ↔ phase.sends? = some x ∨ phase.awaits? = some x := by
  cases phase <;> simp [waits?, sends?, awaits?]

/-- With the flag set or at its deadline a wait is over, at the latest after one more try. -/
theorem Course.timesOut (h : Course now s m r) {x : Exchange} (hx : s.phase.waits? = some x) :
    r.session.phase.exchange? = none
    ∨ r.session.phase.waits? = some x
      ∧ (m.cancelled = true ∨ x.deadline.nanos ≤ now.nanos →
        r.session.phase.heeds = true ∧ s.phase.heeds = false) := by
  cases h with
  | trySend y phase free early result | tryReceive y phase free early result =>
      subst result
      rw [phase] at hx
      obtain rfl := Option.some.inj hx
      refine .inr ⟨rfl, ?_⟩
      rintro (hflag | hlate)
      · rw [free] at hflag
        cases hflag
      · exact absurd hlate (Int.not_le.mpr early)
  | place y _ _ phase _ _ result | hold y phase _ result | ignore y _ _ phase _ _ result
  | await y phase _ _ result =>
      subst result
      rw [phase] at hx ⊢
      exact .inr ⟨hx, fun _ => ⟨rfl, rfl⟩⟩
  | request _ _ phase _ _ _ | send _ _ _ phase _ _ _ | discard _ _ _ phase _ _
  | clear _ phase _ _ =>
      rw [phase] at hx
      cases hx
  | idle hover result =>
      unfold isOver at hover
      unfold Phase.waits? at hx
      split at hx <;> simp_all
  | _ => subst_vars; exact .inl rfl

/-- Once its frame is away a session waits for the answer. -/
theorem Course.sends_exit (h : Course now s m r) {x : Exchange} (hx : s.phase.sends? = some x)
    (hleft : r.session.phase.sends? ≠ some x) :
    r.session.phase.exchange? = none ∨ r.session.phase.awaits? = some x := by
  rcases h.timesOut (Phase.waits?_eq_some_iff.mpr (.inl hx)) with hout | ⟨hin, -⟩
  · exact .inl hout
  · exact .inr ((Phase.waits?_eq_some_iff.mp hin).resolve_left hleft)

/-- Once it does not wait for the answer any more the exchange is over. -/
theorem Course.exchange?_of_answered (h : Course now s m r) {x : Exchange}
    (hx : s.phase.awaits? = some x) (hleft : r.session.phase.awaits? ≠ some x) :
    r.session.phase.exchange? = none := by
  rcases h.awaits_exit hx hleft with ⟨state, hnext⟩ | ⟨y, hnext⟩ | ⟨fault, hnext⟩
  · exact congrArg Phase.exchange? hnext
  · exact congrArg Phase.exchange? hnext
  · exact congrArg Phase.exchange? hnext

/-- A session that finds nothing left goes on. -/
theorem Course.clearing_exit (h : Course now s m r) {x : Exchange} (hx : s.phase = .clearing x)
    (hempty : m.inbound.items = []) : r.session.phase ≠ .clearing x := by
  cases h with
  | discard _ _ _ _ taken _ =>
      rw [(Queue.tryRecv_eq_ok_iff.mp taken).1] at hempty
      cases hempty
  | request _ _ phase _ _ _ | send _ _ _ phase _ _ _ =>
      rw [phase] at hx
      cases hx
  | idle hover _ =>
      rw [isOver, hx] at hover
      cases hover
  | _ =>
      subst_vars
      intro hsame
      cases hsame

/-- A session at work reports when it ends, and only then. -/
theorem Course.report (h : Course now s m r) (hlive : s.isOver = false) :
    r.notice.bind Notice.report? = r.session.phase.ended? := by
  cases h with
  | idle hover result =>
      rw [hlive] at hover
      cases hover
  | enter state _ _ result =>
      subst result
      cases state <;> rfl
  | _ => subst_vars; rfl

theorem isOver_of_ended {end' : Option Failure × Duration} (h : s.phase.ended? = some end') :
    s.isOver = true := by
  unfold Phase.ended? at h
  unfold isOver
  split at h
  · next hphase => rw [hphase]
  · cases h

theorem ended?_of_live (hlive : s.isOver = false) : s.phase.ended? = none := by
  cases hend : s.phase.ended? with
  | none => rfl
  | some e =>
      rw [isOver_of_ended hend] at hlive
      cases hlive

/-- A step leads the session on in the image, if anywhere. -/
theorem Course.offset_le (h : Course now s m r) (hs : s.cursor.offset ≤ s.cursor.bytes.size) :
    s.cursor.offset ≤ r.session.cursor.offset := by
  cases h with
  | accept _ _ _ _ _ _ _ _ _ _ result =>
      subst result
      exact Nat.le_min.mpr ⟨Nat.le_add_right .., hs⟩
  | _ => subst_vars; exact Nat.le_refl _

end

end Session

namespace Post

/-- What the session reports in a run. -/
def reports (p : Post) (events : List Event) : List (Option Failure × Duration) :=
  (p.notices events).filterMap Session.Notice.report?

/-- After the first `n` of the events. -/
def after (p : Post) (events : ℕ → Event) : ℕ → Post
  | 0 => p
  | n + 1 => (p.after events n).apply (events n)

/-- The flag is set, or from now on the session finds the clock past the deadline. -/
def Expired (p : Post) (events : ℕ → Event) (deadline : Instant) (m : ℕ) : Prop :=
  (p.after events m).mailbox.cancelled = true
  ∨ ∀ k now, m ≤ k → events k = .step now → deadline.nanos ≤ now.nanos

/-- The session goes on with its steps, and nobody breaks it down. What it waits for
comes about at some time, unless its wait is over before. -/
structure Ending (p : Post) (events : ℕ → Event) : Prop where
  spared : ∀ n, (p.after events n).spared (events n) = true
  steps : ∀ n, ∃ m, n ≤ m ∧ ∃ now, events m = .step now
  /-- The session finds that nothing is left of what came in too early. -/
  leftovers : ∀ n x, (p.after events n).session.phase = .clearing x → ∃ m, n ≤ m
    ∧ ((p.after events m).session.phase ≠ .clearing x
      ∨ (∃ now, events m = .step now) ∧ (p.after events m).mailbox.inbound.items = [])
  /-- Its frame gets away, or its time is over. -/
  sends : ∀ n x, (p.after events n).session.phase.sends? = some x → ∃ m, n ≤ m
    ∧ ((p.after events m).session.phase.sends? ≠ some x
      ∨ (p.after events m).mailbox.Passable ∨ p.Expired events x.deadline m)
  /-- There is an answer, or there will be none, or its time is over. -/
  answers : ∀ n x, (p.after events n).session.phase.awaits? = some x → ∃ m, n ≤ m
    ∧ ((p.after events m).session.phase.awaits? ≠ some x
      ∨ (p.after events m).mailbox.Decided ∨ p.Expired events x.deadline m)

section

variable {board : UInt8} {image : Firmware} {limit : UInt32} {p : Post}

theorem after_eq_run (p : Post) (events : ℕ → Event) (n : ℕ) :
    p.after events n = p.run ((List.range n).map events) := by
  induction n with
  | zero => rfl
  | succ n ih =>
      rw [after, ih, List.range_succ, List.map_append, run_append]
      rfl

theorem after_steady (hcut : image.WellCut) (hs : p.session.Steady board image limit)
    (events : ℕ → Event) (n : ℕ) : (p.after events n).session.Steady board image limit := by
  rw [after_eq_run]
  exact steady_run hcut hs _

/-- A session reports once it has ended, and only then. -/
theorem reports_eq (hlive : p.session.isOver = false) (events : List Event) :
    p.reports events = (p.run events).session.phase.ended?.toList := by
  induction events generalizing p with
  | nil => simp [reports, notices, run, Session.ended?_of_live hlive]
  | cons e events ih =>
      have hfirst : ((p.notice? e).bind Session.Notice.report?)
          = (p.apply e).session.phase.ended? := by
        cases e with
        | step now => exact (Session.step_course now p.session p.mailbox).report hlive
        | kill => simp [notice?, apply_kill_of_live hlive, ofReaction, Session.crash,
            Session.Phase.ended?]
        | move change => simp [notice?, apply, Session.ended?_of_live hlive]
      have hsplit : p.reports (e :: events)
          = (p.apply e).session.phase.ended?.toList ++ (p.apply e).reports events := by
        rw [← hfirst, reports, notices, List.filterMap_append]
        cases p.notice? e with
        | none => rfl
        | some n => cases hreport : n.report? <;> simp [reports, hreport]
      rw [hsplit, run_cons]
      cases hover : (p.apply e).session.isOver with
      | false => rw [Session.ended?_of_live hover, ih hover, Option.toList_none, List.nil_append]
      | true =>
          rw [session_run_of_isOver hover, reports, notices_of_isOver hover, List.filterMap_nil,
            List.append_nil]

theorem offset_le_apply (hs : p.session.Steady board image limit) (e : Event) :
    p.session.cursor.offset ≤ (p.apply e).session.cursor.offset := by
  cases e with
  | step now =>
      exact (Session.step_course now p.session p.mailbox).offset_le hs.sound.offset_le
  | kill =>
      rw [apply]
      split
      · exact Nat.le_refl _
      · exact Nat.le_refl _
  | move change => exact Nat.le_refl _

end

end Post

namespace Audit

/-- What a run of a session is limited to, seen at one time and at a later one. -/
structure Limited (image : Firmware) (limit : UInt32) (a : Audit)
    (before after : List Post.Event) : Prop where
  announced : (a.post.announced (before ++ after)).length
    ≤ 1 + image.chunkCount.toNat * limit.toNat
  /-- The session stays past the chunks that were answered with an `ack`, -/
  past : ∀ place ∈ (a.run before).acked,
    place < (a.run (before ++ after)).post.session.cursor.offset
  /-- and no frame of theirs is queued any more. -/
  fresh : ∃ queued, (a.run (before ++ after)).queued = (a.run before).queued ++ queued
    ∧ ∀ place ∈ (a.run before).acked, place ∉ queued
  reports : a.post.reports (before ++ after)
    = (a.post.run (before ++ after)).session.phase.ended?.toList

section

variable {board : UInt8} {image : Firmware} {limit : UInt32} {a : Audit}

theorem run_append (a : Audit) (before after : List Post.Event) :
    a.run (before ++ after) = (a.run before).run after := List.foldl_append ..

theorem post_apply (a : Audit) (e : Post.Event) : (a.apply e).post = a.post.apply e := by
  cases e <;> rfl

/-- The session is past the chunks that were answered with an `ack`. -/
def Past (a : Audit) : Prop := ∀ place ∈ a.acked, place < a.post.session.cursor.offset

theorem Past.apply (hcut : image.WellCut) (hs : a.post.session.Steady board image limit)
    (h : a.Past) (e : Post.Event) : (a.apply e).Past := by
  intro place hplace
  rw [post_apply]
  have hle := Post.offset_le_apply hs e
  cases e with
  | kill | move => exact Nat.lt_of_lt_of_le (h place hplace) hle
  | step now =>
      cases (Session.step_course now a.post.session a.post.mailbox).tally hcut hs with
      | hear x refusals chunksSent phase purpose heard count session outbound =>
          rw [acked_of_heard heard, List.mem_append, List.mem_singleton] at hplace
          rcases hplace with hbefore | rfl
          · exact Nat.lt_of_lt_of_le (h place hbefore) hle
          · have hfits := hs.sound.phase
            rw [phase] at hfits
            have hmore := (Cursor.current?_eq_some_iff.mp (hfits.chunk purpose).payload).1
            have hsize := hs.chunkSize_pos hcut
            change _ < (Session.step now a.post.session a.post.mailbox).session.cursor.offset
            rw [session]
            exact Nat.lt_min.mpr ⟨Nat.lt_add_of_pos_right hsize, hmore⟩
      | nothing _ _ _ _ _ unheard _ _ =>
          rw [acked_of_unheard unheard] at hplace
          exact Nat.lt_of_lt_of_le (h place hplace) hle
      | queue _ _ phase _ _ _ | overflow _ phase _ _ _ _ =>
          rw [acked_of_unheard (Session.hearsAck_of_phase fun y => by simp [phase])] at hplace
          exact Nat.lt_of_lt_of_le (h place hplace) hle

theorem Past.run (hcut : image.WellCut) (hs : a.post.session.Steady board image limit)
    (h : a.Past) (events : List Post.Event) : (a.run events).Past := by
  induction events generalizing a with
  | nil => exact h
  | cons e events ih =>
      exact ih (post_apply a e ▸ Post.steady_apply hcut hs e) (h.apply hcut hs e)

/-- What is queued in a run belongs to chunks that are not yet past. -/
theorem exists_queued (hcut : image.WellCut) (hs : a.post.session.Steady board image limit)
    (events : List Post.Event) :
    a.post.session.cursor.offset ≤ (a.run events).post.session.cursor.offset
    ∧ ∃ queued, (a.run events).queued = a.queued ++ queued
      ∧ ∀ place ∈ queued, a.post.session.cursor.offset ≤ place := by
  induction events generalizing a with
  | nil => exact ⟨Nat.le_refl _, [], (List.append_nil _).symm, by simp⟩
  | cons e events ih =>
      obtain ⟨hle, queued, hqueued, hplaces⟩ :=
        ih (a := a.apply e) (post_apply a e ▸ Post.steady_apply hcut hs e)
      have hfirst := Post.offset_le_apply hs e
      rw [← post_apply] at hfirst
      refine ⟨hfirst.trans hle, ?_⟩
      cases e with
      | kill | move =>
          exact ⟨queued, hqueued, fun place hplace => hfirst.trans (hplaces place hplace)⟩
      | step now =>
          refine ⟨_ ++ queued, by rw [← List.append_assoc]; exact hqueued, fun place hplace => ?_⟩
          rcases List.mem_append.mp hplace with hnow | hlater
          · obtain ⟨f, -, rfl⟩ := List.mem_map.mp hnow
            exact Nat.le_refl _
          · exact hfirst.trans (hplaces place hlater)

theorem limited (hcut : image.WellCut) (board : UInt8) (settings : Settings) (mailbox : Mailbox)
    (before after : List Post.Event) :
    Limited image settings.maxTransmissions (start board image settings mailbox) before after := by
  have hstart : (start board image settings mailbox).post.session.Steady board image
      settings.maxTransmissions := Session.Steady.init hcut board settings
  have hfirst : (start board image settings mailbox).Past := by simp [Past, start]
  have hpast := hfirst.run hcut hstart before
  have hsteady := Post.steady_run hcut hstart before
  rw [← post_run] at hsteady
  obtain ⟨hle, queued, hqueued, hplaces⟩ := exists_queued hcut hsteady after
  rw [← run_append] at hle hqueued
  refine ⟨?_, fun place hplace => Nat.lt_of_lt_of_le (hpast place hplace) hle,
    ⟨queued, hqueued, fun place hplace hagain => ?_⟩, Post.reports_eq rfl _⟩
  · have hspent := Post.length_announced_le hcut hstart (before ++ after)
    have hquota : (start board image settings mailbox).post.session.quota
        = image.chunkCount.toNat * settings.maxTransmissions.toNat :=
      Session.quota_new hcut board settings
    have hunasked : (start board image settings mailbox).post.session.phase.unasked.toNat = 1 := rfl
    omega
  · exact absurd (hplaces place hagain) (Nat.not_le.mpr (hpast place hplace))

end

end Audit

namespace Post

/-- How a session has ended: with one report, and with its outcome. -/
structure Concluded (p : Post) (events : List Event) (failure : Option Failure)
    (elapsed : Duration) : Prop where
  phase : (p.run events).session.phase = .finished failure elapsed
  reports : p.reports events = [(failure, elapsed)]
  outcome : (p.run events).session.outcome? = some ⟨p.session.board, failure, elapsed,
    (p.run events).session.bytesSent, (p.run events).session.chunksSent,
    (p.run events).session.retransmissions⟩

section

variable {board : UInt8} {image : Firmware} {limit : UInt32} {p : Post} {events : ℕ → Event}

/-- The `n`-th event is a step outside an exchange, or the last one of an exchange. -/
def Advances (p : Post) (events : ℕ → Event) (n : ℕ) : Prop :=
  (∃ now, events n = .step now)
  ∧ ((p.after events n).session.phase.exchange? = none
    ∨ (p.after events (n + 1)).session.phase.exchange? = none)

/-- In an event that is no step nothing happens to the session. -/
theorem session_apply_of_spared {e : Event} (hspared : p.spared e = true) :
    (∃ now, e = .step now) ∨ (p.apply e).session = p.session := by
  cases e with
  | step now => exact .inl ⟨now, rfl⟩
  | kill => cases hspared
  | move change => exact .inr rfl

theorem dwindles_after (hcut : image.WellCut) (hs : p.session.Steady board image limit) {n : ℕ}
    {now : Instant} (hstep : events n = .step now) :
    ∃ m, Session.Dwindles (p.after events n).session
      ⟨(p.after events (n + 1)).session, m, (p.after events n).notice? (.step now)⟩ := by
  rw [after, hstep]
  exact ⟨_, dwindles_step hcut (after_steady hcut hs events n) now⟩

theorem Ending.rank_le (hcut : image.WellCut) (hs : p.session.Steady board image limit)
    (h : p.Ending events) (n : ℕ) :
    (p.after events (n + 1)).session.rank ≤ (p.after events n).session.rank := by
  rcases session_apply_of_spared (h.spared n) with ⟨now, hstep⟩ | hsame
  · obtain ⟨m, hless⟩ := dwindles_after hcut hs hstep
    exact hless.rank
  · rw [after, hsame]

theorem cancelled_after {m k : ℕ} (hflag : (p.after events m).mailbox.cancelled = true)
    (hk : m ≤ k) : (p.after events k).mailbox.cancelled = true := by
  induction hk with
  | refl => exact hflag
  | step _ ih => exact cancelled_apply ih _

/-- Whatever a session is no longer engaged in has been left with a step. -/
theorem Ending.exists_exit (h : p.Ending events) (engaged : Session.Phase → Prop) {n m : ℕ}
    (hn : engaged (p.after events n).session.phase) (hm : n ≤ m)
    (hleft : ¬ engaged (p.after events m).session.phase) :
    ∃ k now, n ≤ k ∧ events k = .step now ∧ engaged (p.after events k).session.phase
      ∧ ¬ engaged (p.after events (k + 1)).session.phase := by
  obtain ⟨i, hin, hout⟩ := Nat.exists_not_and_succ_of_not_zero_of_exists
    (p := fun i => ¬ engaged (p.after events (n + i)).session.phase)
    (not_not.mpr hn) ⟨m - n, by rwa [Nat.add_sub_cancel' hm]⟩
  have hin := not_not.mp hin
  rcases session_apply_of_spared (h.spared (n + i)) with ⟨now, hstep⟩ | hsame
  · exact ⟨n + i, now, Nat.le_add_right n i, hstep, hin, hout⟩
  · rw [← Nat.add_assoc, after, hsame] at hout
    exact absurd hin hout

/-- Something comes about in the end if every step brings it nearer and nothing that
others do puts it off. -/
theorem Ending.exists_of_nearing (h : p.Ending events) (waits done : ℕ → Prop) (rank : ℕ → ℕ)
    (hmove : ∀ k change, events k = .move change → waits k →
      waits (k + 1) ∧ rank (k + 1) = rank k)
    (hstep : ∀ k now, events k = .step now → waits k →
      done (k + 1) ∨ waits (k + 1) ∧ rank (k + 1) < rank k)
    {n : ℕ} (hn : waits n) : ∃ k, n ≤ k ∧ done k := by
  refine exists_of_rank waits done rank h.steps (fun k hwaits => ?_)
    (fun k hwaits ⟨now, hevent⟩ => (hstep k now hevent hwaits).imp_right And.right) hn
  cases hevent : events k with
  | step now => exact (hstep k now hevent hwaits).imp_right fun ⟨hin, hless⟩ => ⟨hin, hless.le⟩
  | kill =>
      have hspared := h.spared k
      rw [hevent] at hspared
      cases hspared
  | move change => exact .inr ((hmove k change hevent hwaits).imp_right Eq.le)

/-- A wait is left some time after its time is over. -/
theorem Ending.exists_left (h : p.Ending events) {m : ℕ} {x : Session.Exchange}
    (hx : (p.after events m).session.phase.waits? = some x)
    (hexpired : p.Expired events x.deadline m) :
    ∃ k, m ≤ k ∧ (p.after events k).session.phase.waits? ≠ some x := by
  refine h.exists_of_nearing
    (fun k => m ≤ k ∧ (p.after events k).session.phase.waits? = some x) _
    (fun k => (!(p.after events k).session.phase.heeds).toNat)
    (fun k change hevent hwaits => ?_) (fun k now hevent ⟨hk, hwaits⟩ => ?_) ⟨Nat.le_refl m, hx⟩
  · rw [after, hevent]
    exact ⟨⟨Nat.le_succ_of_le hwaits.1, hwaits.2⟩, rfl⟩
  · have hover : (p.after events k).mailbox.cancelled = true ∨ x.deadline.nanos ≤ now.nanos :=
      hexpired.imp (cancelled_after · hk) fun hlate => hlate k now hk hevent
    rw [after, hevent]
    rcases (Session.step_course now _ _).timesOut hwaits with hout | ⟨hin, hlook⟩
    · left
      intro hin
      exact hout.trans_ne (Option.some_ne_none x).symm
        (Session.Phase.exchange?_eq_some_iff.mpr (.inr hin))
    · obtain ⟨hheeds, hblind⟩ := hlook hover
      refine .inr ⟨⟨Nat.le_succ_of_le hk, hin⟩, ?_⟩
      rw [apply, ofReaction, hheeds, hblind]
      decide

/-- What came in too early is thrown away. -/
theorem Ending.exists_cleared (h : p.Ending events) {n : ℕ} {x : Session.Exchange}
    (hx : (p.after events n).session.phase = .clearing x) :
    ∃ m, n ≤ m ∧ (p.after events m).session.phase ≠ .clearing x := by
  obtain ⟨m, hm, hleft | ⟨⟨now, hevent⟩, hempty⟩⟩ := h.leftovers n x hx
  · exact ⟨m, hm, hleft⟩
  · by_cases hin : (p.after events m).session.phase = .clearing x
    · refine ⟨m + 1, Nat.le_succ_of_le hm, ?_⟩
      rw [after, hevent]
      exact (Session.step_course now _ _).clearing_exit hin hempty
    · exact ⟨m, hm, hin⟩

/-- The wait with a frame is over at some time. -/
theorem Ending.exists_unsent (h : p.Ending events) {n : ℕ} {x : Session.Exchange}
    (hx : (p.after events n).session.phase.sends? = some x) :
    ∃ m, n ≤ m ∧ (p.after events m).session.phase.sends? ≠ some x := by
  obtain ⟨m, hm, hcase⟩ := h.sends n x hx
  by_cases hin : (p.after events m).session.phase.sends? = some x
  · rcases hcase with hleft | hpassable | hexpired
    · exact absurd hin hleft
    · obtain ⟨k, hk, hout⟩ := h.exists_of_nearing
        (fun k => (p.after events k).session.phase.sends? = some x
          ∧ (p.after events k).mailbox.Passable)
        (fun k => (p.after events k).session.phase.sends? ≠ some x)
        (fun k => (p.after events k).session.phase.heeds.toNat)
        (fun k change hevent hwaits => by
          rw [after, hevent]
          exact ⟨⟨hwaits.1, hwaits.2.apply change⟩, rfl⟩)
        (fun k now hevent ⟨hwaits, hpass⟩ => by
          rw [after, hevent]
          rcases (Session.step_course now _ _).sends hwaits hpass with
            hout | ⟨hstays, hsame, hheeds, hblind⟩
          · exact .inl hout
          · refine .inr ⟨⟨hstays, ?_⟩, ?_⟩
            · rw [apply, ofReaction, hsame]
              exact hpass
            · rw [apply, ofReaction, hblind, hheeds]
              decide)
        ⟨hin, hpassable⟩
      exact ⟨k, hm.trans hk, hout⟩
    · obtain ⟨k, hk, hout⟩ :=
        h.exists_left (Session.Phase.waits?_eq_some_iff.mpr (.inl hin)) hexpired
      refine ⟨k, hm.trans hk, fun hsends => hout ?_⟩
      exact Session.Phase.waits?_eq_some_iff.mpr (.inl hsends)
  · exact ⟨m, hm, hin⟩

/-- Then the session waits for the answer, unless the exchange is over. -/
theorem Ending.exists_sent (h : p.Ending events) {n : ℕ} {x : Session.Exchange}
    (hx : (p.after events n).session.phase.sends? = some x) :
    ∃ m, n ≤ m ∧ ((p.after events m).session.phase.exchange? = none
      ∨ (p.after events m).session.phase.awaits? = some x) := by
  obtain ⟨m, hm, hleft⟩ := h.exists_unsent hx
  obtain ⟨k, now, hk, hevent, hbefore, hafter⟩ :=
    h.exists_exit (fun phase => phase.sends? = some x) hx hm hleft
  refine ⟨k + 1, Nat.le_succ_of_le hk, ?_⟩
  rw [after, hevent] at hafter ⊢
  exact (Session.step_course now _ _).sends_exit hbefore hafter

/-- The wait for an answer is over at some time. -/
theorem Ending.exists_answered (h : p.Ending events) {n : ℕ} {x : Session.Exchange}
    (hx : (p.after events n).session.phase.awaits? = some x) :
    ∃ m, n ≤ m ∧ (p.after events m).session.phase.awaits? ≠ some x := by
  obtain ⟨m, hm, hcase⟩ := h.answers n x hx
  by_cases hin : (p.after events m).session.phase.awaits? = some x
  · rcases hcase with hleft | hdecided | hexpired
    · exact absurd hin hleft
    · obtain ⟨k, hk, hout⟩ := h.exists_of_nearing
        (fun k => (p.after events k).session.phase.awaits? = some x
          ∧ (p.after events k).mailbox.Decided)
        (fun k => (p.after events k).session.phase.awaits? ≠ some x)
        (fun k => (p.after events k).session.stepsToAnswer (p.after events k).mailbox)
        (fun k change hevent hwaits => by
          rw [after, hevent]
          refine ⟨⟨hwaits.1, hwaits.2.apply change⟩, ?_⟩
          rw [apply, Session.stepsToAnswer, hwaits.2.ahead_apply change, Session.stepsToAnswer])
        (fun k now hevent ⟨hwaits, hdecided⟩ => by
          rw [after, hevent]
          rcases (Session.step_course now _ _).awaits hwaits hdecided with
            hout | ⟨hstays, hstill, hless⟩
          · exact .inl hout
          · exact .inr ⟨⟨hstays, hstill⟩, hless⟩)
        ⟨hin, hdecided⟩
      exact ⟨k, hm.trans hk, hout⟩
    · obtain ⟨k, hk, hout⟩ :=
        h.exists_left (Session.Phase.waits?_eq_some_iff.mpr (.inr hin)) hexpired
      refine ⟨k, hm.trans hk, fun hawaits => hout ?_⟩
      exact Session.Phase.waits?_eq_some_iff.mpr (.inr hawaits)
  · exact ⟨m, hm, hin⟩

/-- No wait is for ever, so every exchange comes to its end. -/
theorem Ending.exchange_ends (h : p.Ending events) {n : ℕ} {x : Session.Exchange}
    (hx : (p.after events n).session.phase.exchange? = some x) :
    ∃ m, n ≤ m ∧ (p.after events m).session.phase.exchange? ≠ some x := by
  have hanswer {n : ℕ} (hx : (p.after events n).session.phase.awaits? = some x) :
      ∃ m, n ≤ m ∧ (p.after events m).session.phase.exchange? ≠ some x := by
    obtain ⟨m, hm, hleft⟩ := h.exists_answered hx
    obtain ⟨k, now, hk, hevent, hbefore, hafter⟩ :=
      h.exists_exit (fun phase => phase.awaits? = some x) hx hm hleft
    refine ⟨k + 1, Nat.le_succ_of_le hk, ?_⟩
    rw [after, hevent] at hafter ⊢
    have hnone := (Session.step_course now _ _).exchange?_of_answered hbefore hafter
    exact hnone.trans_ne (Option.some_ne_none x).symm
  have hwait {n : ℕ} (hx : (p.after events n).session.phase.waits? = some x) :
      ∃ m, n ≤ m ∧ (p.after events m).session.phase.exchange? ≠ some x := by
    rcases Session.Phase.waits?_eq_some_iff.mp hx with hsends | hawaits
    · obtain ⟨m, hm, hleft | hawaits⟩ := h.exists_sent hsends
      · exact ⟨m, hm, hleft.trans_ne (Option.some_ne_none x).symm⟩
      · obtain ⟨k, hk, hleft⟩ := hanswer hawaits
        exact ⟨k, hm.trans hk, hleft⟩
    · exact hanswer hawaits
  rcases Session.Phase.exchange?_eq_some_iff.mp hx with hclearing | hwaiting
  · obtain ⟨m, hm, hcleared⟩ := h.exists_cleared hclearing
    by_cases hin : (p.after events m).session.phase.exchange? = some x
    · obtain ⟨k, hk, hleft⟩ :=
        hwait ((Session.Phase.exchange?_eq_some_iff.mp hin).resolve_left hcleared)
      exact ⟨k, hm.trans hk, hleft⟩
    · exact ⟨m, hm, hin⟩
  · exact hwait hwaiting

/-- The session gets on again and again. -/
theorem Ending.exists_advances (hcut : image.WellCut) (hs : p.session.Steady board image limit)
    (h : p.Ending events) (n : ℕ) : ∃ m, n ≤ m ∧ p.Advances events m := by
  obtain ⟨k, hk, now, hstep⟩ := h.steps n
  cases hx : (p.after events k).session.phase.exchange? with
  | none => exact ⟨k, hk, ⟨now, hstep⟩, .inl hx⟩
  | some x =>
      obtain ⟨m, hm, hleft⟩ := h.exchange_ends hx
      obtain ⟨i, now, hi, hstep, hin, hout⟩ :=
        h.exists_exit (fun phase => phase.exchange? = some x) hx hm hleft
      obtain ⟨m', hless⟩ := dwindles_after hcut hs hstep
      exact ⟨i, hk.trans hi, ⟨now, hstep⟩, .inr ((hless.exchange x hin).resolve_left hout)⟩

/-- A session that gets on again and again is over in the end. -/
theorem Ending.exists_over (hcut : image.WellCut) (hs : p.session.Steady board image limit)
    (h : p.Ending events) : ∃ n, (p.after events n).session.isOver = true := by
  have hnext (n : ℕ) : (p.after events (n + 1)).session.isOver = true
      ∨ (p.after events (n + 1)).session.isOver = false := by
    cases (p.after events (n + 1)).session.isOver with
    | true => exact .inl rfl
    | false => exact .inr rfl
  cases hlive : p.session.isOver with
  | true => exact ⟨0, hlive⟩
  | false =>
      obtain ⟨n, -, hover⟩ := exists_of_rank
        (fun n => (p.after events n).session.isOver = false)
        (fun n => (p.after events n).session.isOver = true)
        (fun n => (p.after events n).session.rank) (h.exists_advances hcut hs)
        (fun n _ => (hnext n).imp id fun hlive => ⟨hlive, h.rank_le hcut hs n⟩)
        (fun n hlive hadvances => by
          obtain ⟨⟨now, hstep⟩, hbetween⟩ := hadvances
          obtain ⟨m, hless⟩ := dwindles_after hcut hs hstep
          exact .inr (hless.onward hlive hbetween))
        (n := 0) hlive
      exact ⟨n, hover⟩

theorem session_after_of_isOver {n : ℕ} (hover : (p.after events n).session.isOver = true) {k : ℕ}
    (hk : n ≤ k) : (p.after events k).session = (p.after events n).session := by
  induction hk with
  | refl => rfl
  | step hk ih =>
      rw [← ih] at hover ⊢
      exact session_run_of_isOver hover [events _]

theorem concluded_of_finished (hlive : p.session.isOver = false) {n : ℕ}
    {failure : Option Failure} {elapsed : Duration}
    (hphase : (p.after events n).session.phase = .finished failure elapsed) {k : ℕ} (hk : n ≤ k) :
    p.Concluded ((List.range k).map events) failure elapsed := by
  have hover : (p.after events n).session.isOver = true := by rw [Session.isOver, hphase]
  rw [← session_after_of_isOver hover hk, after_eq_run] at hphase
  refine ⟨hphase, ?_, ?_⟩
  · rw [reports_eq hlive, hphase]
    rfl
  · rw [Session.outcome?, hphase, board_run]

theorem Ending.unharmed (h : p.Ending events) (n : ℕ) :
    p.unharmed ((List.range n).map events) = true := by
  induction n with
  | zero => rfl
  | succ n ih =>
      rw [List.range_succ, List.map_append, unharmed_append, ih, ← after_eq_run]
      simp [Post.unharmed, h.spared n]

end

end Post

namespace Audit

/-- What any session does on its way is limited. It ends for good after finitely
many steps in all surroundings that let it end, with one report of what its
outcome tells; but for a session that breaks down with the first frame sent again
that it cannot count any more. -/
theorem session_ends {origin : String} {bytes : Array UInt8} {chunkSize : UInt64}
    {key : List UInt8} {image : Firmware}
    (hbuilt : Firmware.build origin bytes chunkSize key = .ok image) (board : UInt8)
    (settings : Settings) (mailbox : Mailbox) :
    (∀ before after : List Post.Event,
      Limited image settings.maxTransmissions (start board image settings mailbox) before after)
    ∧ ∀ events : ℕ → Post.Event, (start board image settings mailbox).post.Ending events →
      ∃ last, (∃ failure elapsed, ∀ n, last ≤ n →
          (start board image settings mailbox).post.Concluded ((List.range n).map events) failure
            elapsed)
        ∨ ((start board image settings mailbox).post.after events last).session.phase
            = .crashed .counterOverflow
          ∧ 4294967296 ≤ ((start board image settings mailbox).run
              ((List.range last).map events)).repeats
          ∧ 4294967296 ≤ image.chunkCount.toNat * settings.maxTransmissions.toNat := by
  have hcut := Firmware.wellCut_of_build hbuilt
  refine ⟨limited hcut board settings mailbox, fun events hending => ?_⟩
  have hsteady : (start board image settings mailbox).post.session.Steady board image
      settings.maxTransmissions := Session.Steady.init hcut board settings
  obtain ⟨last, hover⟩ := hending.exists_over hcut hsteady
  cases hphase : ((start board image settings mailbox).post.after events last).session.phase with
  | finished failure elapsed =>
      exact ⟨last, .inl ⟨failure, elapsed, fun n hn => Post.concluded_of_finished rfl hphase hn⟩⟩
  | crashed fault =>
      have hdown := hphase
      rw [Post.after_eq_run] at hdown
      obtain ⟨rfl, hmany⟩ := Post.crash_of_unharmed hcut hsteady rfl (hending.unharmed last) hdown
      have hcounted := (exact_run hbuilt board settings mailbox ((List.range last).map events)).counted
        hcut (steady_run hcut board settings mailbox _)
      rw [← post_run] at hdown
      rcases hcounted.crashed _ hdown with hkilled | hlate | ⟨-, hrepeats⟩
      · cases hkilled
      · cases hlate
      · have hmost := Session.resent_new hcut board settings
        exact ⟨last, .inr ⟨hphase, hrepeats, hmany.trans_eq hmost⟩⟩
  | _ => simp [Session.isOver, hphase] at hover

/-- The board accepts the update and is silent from then on; half a second passes
with every step. -/
def silentAfterAck (n : ℕ) : Post.Event :=
  if n = 7 then .move (.deliver (.empty .ack 7 hostId)) else .step ⟨n * 500000000⟩

theorem silent_board_times_out :
    let image : Firmware := ⟨#[1, 2, 3], Hmac.mac [1, 2, 3] [], 2, 2⟩
    let p := (start 7 image {} (.ofCapacity 2)).post
    Firmware.build "firmware" #[1, 2, 3] 2 [] = .ok image
    ∧ p.Ending silentAfterAck
    ∧ ∃ last elapsed, ∀ n, last ≤ n →
      p.Concluded ((List.range n).map silentAfterAck) (some .timeout) elapsed := by
  intro image p
  have hbuilt : Firmware.build "firmware" #[1, 2, 3] 2 [] = .ok image := rfl
  have hdone : (p.after silentAfterAck 30).session.phase
      = .finished (some .timeout) ⟨12, ⟨0, by omega⟩⟩ := by decide +kernel
  have hafter {n : ℕ} (hn : 30 ≤ n) : (p.after silentAfterAck n).session.phase
      = .finished (some .timeout) ⟨12, ⟨0, by omega⟩⟩ := by
    rw [Post.session_after_of_isOver (by rw [Session.isOver, hdone]) hn, hdone]
  have hending : p.Ending silentAfterAck := by
    refine ⟨fun n => ?_, fun n => ⟨n + 8, Nat.le_add_right n 8, _, if_neg (by omega)⟩,
      fun n x _ => ⟨n + 30, Nat.le_add_right n 30, .inl ?_⟩,
      fun n x _ => ⟨n + 30, Nat.le_add_right n 30, .inl ?_⟩,
      fun n x _ => ⟨n + 30, Nat.le_add_right n 30, .inl ?_⟩⟩
    · rcases Nat.lt_or_ge n 30 with hn | hn
      · have hfirst : ∀ n < 30, (p.after silentAfterAck n).spared (silentAfterAck n) = true := by
          decide +kernel
        exact hfirst n hn
      · rw [silentAfterAck, if_neg (by omega), Post.spared, hafter hn]
    · rw [hafter (Nat.le_add_left 30 n)]
      intro hsame
      cases hsame
    · rw [hafter (Nat.le_add_left 30 n)]
      intro hsame
      cases hsame
    · rw [hafter (Nat.le_add_left 30 n)]
      intro hsame
      cases hsame
  refine ⟨hbuilt, hending, ?_⟩
  obtain ⟨last, ⟨failure, elapsed, hconcluded⟩ | ⟨-, -, hmany⟩⟩ :=
    (session_ends hbuilt 7 {} (.ofCapacity 2)).2 silentAfterAck hending
  · have hfinished := (hconcluded _ (Nat.le_max_left last 30)).phase
    rw [← Post.after_eq_run, hafter (Nat.le_max_right last 30)] at hfinished
    cases hfinished
    exact ⟨last, _, hconcluded⟩
  · exact absurd hmany (by decide)

end Audit

end BoardFlash
