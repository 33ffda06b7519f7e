import BoardFlash.Proofs.Campaign.Manager
import Mathlib.Data.List.Basic

/-!
# One board after the other

When the campaign is not parallel, its manager has at most one session running:
a session that was started is the last one, and the outcomes of all before it
have been collected. So the frames on the link are those of the first board,
then those of the second one and so on (`Manager.one_board_at_a_time`), and each board
gets the frames that its session sends on its own.

A list whose entries come in the order of their numbers is its parts for the
single numbers, one after the other (`eq_flatMap_filter`). That the frames do
come in this order is an invariant of the manager (`Lined`).
-/

namespace BoardFlash

/-! ## Parts of a list -/

section

variable {α : Type} {l : List (Nat × α)}

theorem filter_lt_append_filter_eq (hsorted : l.Pairwise fun a b => a.1 ≤ b.1) {n : Nat}
    (hbelow : ∀ a ∈ l, a.1 < n + 1) :
    l.filter (·.1 < n) ++ l.filter (·.1 = n) = l := by
  induction l with
  | nil => rfl
  | cons a l ih =>
      obtain ⟨hfirst, hrest⟩ := List.pairwise_cons.mp hsorted
      have hlater : ∀ b ∈ l, b.1 < n + 1 := fun b hb => hbelow b (List.mem_cons_of_mem _ hb)
      by_cases ha : a.1 < n
      · have hne : ¬ a.1 = n := Nat.ne_of_lt ha
        rw [List.filter_cons_of_pos (by simpa using ha),
          List.filter_cons_of_neg (by simpa using hne), List.cons_append, ih hrest hlater]
      · have hlast : a.1 = n := by
          have := hbelow a List.mem_cons_self
          omega
        have hall : ∀ b ∈ a :: l, b.1 = n := by
          intro b hb
          have := hbelow b hb
          rcases List.mem_cons.mp hb with rfl | hb
          · exact hlast
          · have := hfirst b hb
            omega
        rw [List.filter_eq_nil_iff.mpr fun b hb => by simp [hall b hb],
          List.filter_eq_self.mpr fun b hb => by simp [hall b hb], List.nil_append]

/-- A sorted list is its parts for the single numbers. -/
theorem eq_flatMap_filter (hsorted : l.Pairwise fun a b => a.1 ≤ b.1) (n : Nat)
    (hbelow : ∀ a ∈ l, a.1 < n) : l = (List.range n).flatMap fun i => l.filter (·.1 = i) := by
  induction n generalizing l with
  | zero => exact List.eq_nil_iff_forall_not_mem.mpr fun a ha => Nat.not_lt_zero _ (hbelow a ha)
  | succ n ih =>
      have hfirst := ih (hsorted.filter (·.1 < n)) fun a ha => by
        simpa using (List.mem_filter.mp ha).2
      have hsame : ∀ i ∈ List.range n, (l.filter (·.1 < n)).filter (·.1 = i)
          = l.filter (·.1 = i) := by
        intro i hi
        have hlt := List.mem_range.mp hi
        rw [List.filter_filter]
        refine List.filter_congr fun a _ => ?_
        rw [← Bool.decide_and]
        exact decide_eq_decide.mpr ⟨And.left, fun h => ⟨h, by omega⟩⟩
      rw [List.flatMap_congr hsame] at hfirst
      rw [List.range_succ, List.flatMap_append, ← hfirst, List.flatMap_cons, List.flatMap_nil,
        List.append_nil, filter_lt_append_filter_eq hsorted hbelow]

end

/-- A session announces a frame in a step of its own, before it is over. -/
theorem Post.own_of_announces? {p : Post} {e : Post.Event} {f : Frame}
    (h : p.announces? e = some f) : e.isOwn = true ∧ p.session.isOver = false := by
  constructor
  · cases e with
    | step | kill => rfl
    | move => cases h
  · cases hover : p.session.isOver with
    | false => rfl
    | true =>
        rw [announces?, notice?_of_isOver hover] at h
        cases h

namespace Manager

variable {settings : Settings} {image : Firmware} {targets : List Target} {m : Manager}

theorem mem_log_iff {i : Nat} {e : Post.Event} : e ∈ m.log i ↔ (i, e) ∈ m.happened := by
  rw [log, List.mem_filterMap]
  constructor
  · rintro ⟨⟨j, e'⟩, hmem, hsome⟩
    split at hsome
    · next hj =>
      obtain rfl := Option.some.inj hsome
      exact hj ▸ hmem
    · cases hsome
  · intro hmem
    exact ⟨(i, e), hmem, if_pos rfl⟩

/-- A session that was not started is as new. -/
theorem Kept.untouched (hm : Kept settings image targets m) {i : Nat} {t : Target}
    (ht : targets[i]? = some t) (hi : m.started ≤ i) :
    ∃ p, m.roster.post? i = some p ∧ p.session = Session.new t.board image settings
      ∧ p.mailbox.outbound.items <:+ t.mailbox.outbound.items := by
  have hmoves : ∀ e ∈ m.log i, e.isOwn = false := by
    intro e he
    cases hown : e.isOwn with
    | false => rfl
    | true => exact absurd (hm.fresh _ (mem_log_iff.mp he) hown) (Nat.not_lt.mpr hi)
  refine ⟨(Post.new settings image t).run (m.log i), ?_, Post.run_of_moves _ hmoves⟩
  rw [hm.alone, ht]
  rfl

/-! ## At most one session is running -/

theorem Kept.started_le_add_one (hm : Kept settings image targets m)
    (hmode : settings.parallel = false) : m.started ≤ m.collected.length + 1 :=
  hm.ahead.resolve_left (by rw [hmode]; exact Bool.false_ne_true)

/-- A session that is running is the last one that was started. -/
theorem Kept.eq_of_running (hm : Kept settings image targets m) (hmode : settings.parallel = false)
    {i : Nat} {p : Post} (hp : m.roster.post? i = some p) (hlive : p.session.isOver = false)
    (hi : i < m.started) : i = m.collected.length ∧ m.started = i + 1 := by
  have hge : m.collected.length ≤ i := by
    refine Nat.le_of_not_lt fun hlt => ?_
    rw [hm.isOver_of_collected hlt hp] at hlive
    cases hlive
  have hahead := hm.started_le_add_one hmode
  omega

/-- The frames come in the order of the boards. -/
structure Lined (m : Manager) : Prop where
  below : ∀ a ∈ m.announced, a.1 < m.started
  sorted : m.announced.Pairwise fun a b => a.1 ≤ b.1

theorem Lined.init : (new settings image targets).Lined := by
  constructor
  · intro a ha
    cases ha
  · exact .nil

theorem Lined.record (hlined : m.Lined) (hm : Kept settings image targets m)
    (hmode : settings.parallel = false) {i : Nat} {p : Post} {e : Post.Event}
    (hp : m.roster.post? i = some p) (hlets : m.lets i e = true) : (m.record i p e).Lined := by
  cases hf : p.announces? e with
  | none =>
      have hsame : (m.record i p e).announced = m.announced := by
        rw [Manager.record, hf]
        exact List.append_nil _
      constructor
      · rw [hsame]
        exact hlined.below
      · rw [hsame]
        exact hlined.sorted
  | some f =>
      have hnext : (m.record i p e).announced = m.announced ++ [(i, f)] := by
        rw [Manager.record, hf]
        rfl
      obtain ⟨hown, hlive⟩ := Post.own_of_announces? hf
      have hstarted : i < m.started := by simpa [lets, hown] using hlets
      obtain ⟨-, hlast⟩ := hm.eq_of_running hmode hp hlive hstarted
      constructor
      · intro a ha
        rw [hnext, List.mem_append, List.mem_singleton] at ha
        rcases ha with hbefore | rfl
        · exact hlined.below a hbefore
        · exact hstarted
      · rw [hnext, List.pairwise_append]
        refine ⟨hlined.sorted, List.pairwise_singleton .., ?_⟩
        intro a ha b hb
        obtain rfl := List.mem_singleton.mp hb
        have hbelow := hlined.below a ha
        rw [hlast] at hbelow
        exact Nat.le_of_lt_succ hbelow

theorem Lined.apply (hlined : m.Lined) (hm : Kept settings image targets m)
    (hmode : settings.parallel = false) (e : Event) : (m.apply e).Lined := by
  cases e with
  | manage =>
      show m.proceed.Lined
      unfold proceed
      split
      · exact ⟨fun a ha => Nat.lt_succ_of_lt (hlined.below a ha), hlined.sorted⟩
      · split
        · exact ⟨hlined.below, hlined.sorted⟩
        · exact hlined
  | session i e =>
      unfold Manager.apply
      dsimp only
      split
      · next p hp =>
        split
        · next hlets => exact hlined.record hm hmode hp hlets
        · exact hlined
      · exact hlined

theorem Lined.run (hlined : m.Lined) (hm : Kept settings image targets m)
    (hmode : settings.parallel = false) (events : List Event) : (m.run events).Lined := by
  induction events generalizing m with
  | nil => exact hlined
  | cons e events ih => exact ih (hlined.apply hm hmode e) (hm.apply e)

/-! ## Board by board -/

/-- How a campaign that is not parallel stands at any time. -/
structure Serialised (settings : Settings) (image : Firmware) (targets : List Target)
    (m : Manager) : Prop where
  /-- It has come about in a run of the campaign. -/
  campaign : m.roster
    = (Roster.new settings image targets).run (m.happened.map fun h => .ofPost h.1 h.2)
  /-- Each session is what it is on its own after what happened to it. -/
  alone : ∀ i t, targets[i]? = some t →
    m.roster.post? i = some ((Post.new settings image t).run (m.log i))
  /-- Nothing that a session does counts before the outcomes of all before it
  were collected. -/
  turns : ∀ i e, e.isOwn = true → m.collected.length < i → m.apply (.session i e) = m
  /-- Until then it is as new, and there are no new frames to its board. -/
  untouched : ∀ i t, targets[i]? = some t → m.collected.length < i →
    ∃ p, m.roster.post? i = some p ∧ p.session = Session.new t.board image settings
      ∧ p.mailbox.outbound.items <:+ t.mailbox.outbound.items
  /-- So a queue that was empty at first stays empty until then. -/
  silent : ∀ i t, targets[i]? = some t → m.collected.length < i →
    t.mailbox.outbound.items = [] →
      ∃ p, m.roster.post? i = some p ∧ p.mailbox.outbound.items = []
  /-- The session at whose outcome the manager has arrived is the only one that
  may be running. -/
  running : ∀ i p, m.roster.post? i = some p → i < m.started → p.session.isOver = false →
    i = m.collected.length
  /-- What was collected are the outcomes of the sessions, which are over. -/
  collected : ∀ i o, m.collected[i]? = some o → ∃ t, targets[i]? = some t
    ∧ ((Post.new settings image t).run (m.log i)).session.outcome? = some o
  /-- The frames of each board come before those of the boards after it. -/
  ordered : m.announced.Pairwise fun a b => a.1 ≤ b.1
  /-- They are the frames that the sessions announce on their own, board by
  board. -/
  frames : m.announced = targets.zipIdx.flatMap fun (t, i) =>
    ((Post.new settings image t).announced (m.log i)).map (i, ·)
  /-- No board is left out: when it is its turn its session is started, -/
  start : m.started = m.collected.length → m.started < targets.length →
    (m.apply .manage).started = m.started + 1
  /-- and however the session has ended, its outcome is collected. -/
  collect : ∀ p o, m.collected.length < m.started →
    m.roster.post? m.collected.length = some p → p.session.outcome? = some o →
      (m.apply .manage).collected = m.collected ++ [o]
  /-- In the end there are the outcomes of the campaign. -/
  complete : m.collected.length = targets.length →
    m.roster.campaign.outcomes? = some m.collected

theorem Kept.frames_of_sorted (hm : Kept settings image targets m)
    (hsorted : m.announced.Pairwise fun a b => a.1 ≤ b.1) :
    m.announced = targets.zipIdx.flatMap fun (t, i) =>
      ((Post.new settings image t).announced (m.log i)).map (i, ·) := by
  have hrange : List.range targets.length = targets.zipIdx.map Prod.snd := by
    rw [List.range_eq_range', List.zipIdx_map_snd]
  rw [eq_flatMap_filter hsorted targets.length hm.known, hrange, List.flatMap_map]
  refine List.flatMap_congr fun ⟨t, i⟩ hti => ?_
  have ht : targets[i]? = some t := List.mk_mem_zipIdx_iff_getElem?.mp hti
  dsimp only
  rw [← hm.frames i t ht, List.map_map]
  refine (List.map_id _).symm.trans (List.map_congr_left fun a ha => ?_)
  have hnumber : a.1 = i := by simpa using (List.mem_filter.mp ha).2
  rw [Function.comp, ← hnumber]
  rfl

theorem apply_of_not_lets {i : Nat} {e : Post.Event} (hlets : m.lets i e = false) :
    m.apply (.session i e) = m := by
  unfold apply
  dsimp only
  split
  · rw [hlets]
    rfl
  · rfl

/-- Once all outcomes are collected they are those of the campaign. -/
theorem Kept.outcomes_eq (hm : Kept settings image targets m)
    (hall : m.collected.length = targets.length) :
    m.roster.campaign.outcomes? = some m.collected := by
  refine Roster.mapM_outcome?_eq_some_iff.mpr (List.ext_getElem? fun i => ?_)
  rw [List.getElem?_map, List.getElem?_map]
  cases ho : m.collected[i]? with
  | none =>
      have hlength := List.getElem?_eq_none_iff.mp ho
      rw [List.getElem?_eq_none_iff.mpr (by rw [hm.length_sessions, ← hall]; exact hlength)]
      rfl
  | some o =>
      obtain ⟨p, hp, houtcome⟩ := hm.collected i o ho
      rw [(Roster.post?_eq_some_iff.mp hp).1, Option.map_some, houtcome]
      rfl

theorem Kept.serialised (hm : Kept settings image targets m) (hlined : m.Lined)
    (hmode : settings.parallel = false) : Serialised settings image targets m where
  campaign := hm.campaign
  alone := fun i t ht => by
    rw [hm.alone, ht]
    rfl
  turns := fun i e hown hi => by
    have hahead := hm.started_le_add_one hmode
    refine apply_of_not_lets ?_
    rw [lets, hown, decide_eq_false (by omega)]
    rfl
  untouched := fun i t ht hi => by
    have hahead := hm.started_le_add_one hmode
    exact hm.untouched ht (by omega)
  silent := fun i t ht hi hempty => by
    have hahead := hm.started_le_add_one hmode
    obtain ⟨p, hp, -, hsuffix⟩ := hm.untouched ht (by omega)
    rw [hempty] at hsuffix
    exact ⟨p, hp, List.suffix_nil.mp hsuffix⟩
  running := fun i p hp hi hlive => (hm.eq_of_running hmode hp hlive hi).1
  collected := fun i o ho => by
    obtain ⟨p, hp, houtcome⟩ := hm.collected i o ho
    obtain ⟨t, ht, rfl⟩ := Option.map_eq_some_iff.mp ((hm.alone i).symm.trans hp)
    exact ⟨t, ht, houtcome⟩
  ordered := hlined.sorted
  frames := hm.frames_of_sorted hlined.sorted
  start := fun hturn hleft => by
    have hstarts : m.starts = true := by
      rw [starts, hm.length_sessions, hturn, beq_self_eq_true, Bool.or_true, Bool.and_true,
        decide_eq_true_eq, ← hturn]
      exact hleft
    rw [Manager.apply, proceed, if_pos hstarts]
  collect := fun p o hbehind hp ho => by
    have hstarts : ¬ m.starts = true := by
      rw [starts, hm.mode, hmode, Bool.false_or, Bool.and_eq_true, beq_iff_eq]
      exact fun h => Nat.ne_of_gt hbehind h.2
    have hjoined : m.joined? = some o := by
      rw [joined?, if_pos hbehind, hp]
      exact ho
    rw [Manager.apply, proceed, if_neg hstarts, hjoined]
  complete := hm.outcomes_eq

/-- Unless the campaign is parallel its boards are served one after the other,
whatever becomes of their sessions. -/
theorem one_board_at_a_time (settings : Settings) (image : Firmware) (targets : List Target)
    (hmode : settings.parallel = false) (events : List Event) :
    Serialised settings image targets ((new settings image targets).run events) :=
  (Kept.init.run events).serialised
    (Lined.init.run Kept.init hmode events) hmode

/-- The first session breaks down right after it has announced its request;
the board of the second one, which is told to go on too early, rejects it. -/
def secondAfterBreakdown : List Event :=
  let steps (i n : Nat) : List Event := List.replicate n (.session i (.step .origin))
  .manage :: steps 1 3 ++ steps 0 4 ++ [.manage, .session 0 .kill, .manage, .manage] ++ steps 1 6
    ++ .session 1 (.move (.deliver (.empty .nack 2 hostId))) :: steps 1 4 ++ [.manage]

theorem second_starts_after_breakdown :
    let targets : List Target := [⟨1, .ofCapacity 4⟩, ⟨2, .ofCapacity 4⟩]
    let image : Firmware := ⟨#[7], Vector.replicate 32 0, 1, 1⟩
    let m := (new {} image targets).run secondAfterBreakdown
    m.collected = [.aborted 1, ⟨2, some .rejected, .zero, 0, 0, 0⟩]
    ∧ m.announced.map Prod.fst = [0, 1]
    ∧ Serialised {} image targets m := by
  intro targets image m
  refine ⟨by decide +kernel, by decide +kernel, ?_⟩
  exact one_board_at_a_time {} image targets rfl secondAfterBreakdown

end Manager

end BoardFlash
