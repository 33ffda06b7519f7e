import BoardFlash.Campaign
import BoardFlash.Proofs.Session.Effort

/-!
# Boards do not disturb each other

A `Roster` is a campaign together with the mailboxes of its sessions, no two of
which share one. In a run of a roster the sessions take steps and break down in
any order that the mode of the campaign allows, and others change any mailbox
at any time. The `log` of a session is what happened to it and its mailbox in
the run, with everything else left out.

A session and its mailbox are what this log alone makes of them
(`run_post`), so each of the outcomes is that of a session on its own and in
neither mode depends on the other boards. `boards_isolated` says so for all
runs; `exists_sequential` lines up the sessions of a run one after the other.
-/

namespace BoardFlash

/-- A board to update, and what its session shares with its surroundings. -/
structure Target where
  board : UInt8
  mailbox : Mailbox

/-- The session that is to update the board, on its own. -/
def Post.new (settings : Settings) (image : Firmware) (t : Target) : Post :=
  ⟨Session.new t.board image settings, t.mailbox⟩

/-- A campaign with the mailboxes of its sessions. -/
structure Roster where
  campaign : Campaign
  mailboxes : List Mailbox

namespace Roster

inductive Event where
  /-- The `i`-th session takes its next step, if it may. -/
  | step (i : Nat) (now : Instant)
  /-- The `i`-th session breaks down, if it has begun and is not over. -/
  | kill (i : Nat)
  | move (i : Nat) (move : Mailbox.Move)

namespace Event

/-- The number of the session that the event is about. -/
def place : Event → Nat
  | .step i _ | .kill i | .move i _ => i

/-- What the event is to this session. -/
def toPost : Event → Post.Event
  | .step _ now => .step now
  | .kill _ => .kill
  | .move _ change => .move change

/-- The event, happening to the `i`-th session. -/
def ofPost (i : Nat) : Post.Event → Event
  | .step now => .step i now
  | .kill => .kill i
  | .move change => .move i change

@[simp] theorem place_ofPost (i : Nat) (e : Post.Event) : (ofPost i e).place = i := by
  cases e <;> rfl

@[simp] theorem toPost_ofPost (i : Nat) (e : Post.Event) : (ofPost i e).toPost = e := by
  cases e <;> rfl

end Event

def new (settings : Settings) (image : Firmware) (targets : List Target) : Roster where
  campaign := .new settings image (targets.map Target.board)
  mailboxes := targets.map Target.mailbox

variable (f : Roster)

/-- The `i`-th session with its mailbox. -/
def post? (i : Nat) : Option Post :=
  match f.campaign.sessions[i]?, f.mailboxes[i]? with
  | some s, some m => some ⟨s, m⟩
  | _, _ => none

def apply (e : Event) : Roster :=
  match f.post? e.place with
  | none => f
  | some p =>
    match e with
    | .step i now =>
      let (campaign, mailbox, _) := f.campaign.step i now p.mailbox
      ⟨campaign, f.mailboxes.set i mailbox⟩
    | .kill i =>
      if f.campaign.mayStep i && !p.session.isOver then
        let (campaign, mailbox) := f.campaign.kill i p.mailbox
        ⟨campaign, f.mailboxes.set i mailbox⟩
      else f
    | .move i move => { f with mailboxes := f.mailboxes.set i (p.mailbox.apply move) }

def run (events : List Event) : Roster := events.foldl apply f

/-- The mode of the campaign lets the event happen. -/
def admits : Event → Bool
  | .step i _ | .kill i => f.campaign.mayStep i
  | .move .. => true

/-- What happens to the `i`-th session and its mailbox in a run. -/
def log (f : Roster) (i : Nat) : List Event → List Post.Event
  | [] => []
  | e :: events =>
    if e.place = i ∧ f.admits e = true then e.toPost :: (f.apply e).log i events
    else (f.apply e).log i events

/-! ## A session hears of nothing but its own events -/

/-- With another session and mailbox at the `i`-th place. -/
def put (i : Nat) (p : Post) : Roster where
  campaign := { f.campaign with sessions := f.campaign.sessions.set i p.session }
  mailboxes := f.mailboxes.set i p.mailbox

variable {f}

theorem post?_eq_some_iff {i : Nat} {p : Post} :
    f.post? i = some p ↔
      f.campaign.sessions[i]? = some p.session ∧ f.mailboxes[i]? = some p.mailbox := by
  unfold post?
  cases f.campaign.sessions[i]? <;> cases f.mailboxes[i]? <;> simp [Post.ext_iff]

theorem post?_put {i : Nat} {p : Post} (hp : f.post? i = some p) (q : Post) (j : Nat) :
    (f.put i q).post? j = if j = i then some q else f.post? j := by
  obtain ⟨hs, hm⟩ := post?_eq_some_iff.mp hp
  obtain ⟨hi, -⟩ := List.getElem?_eq_some_iff.mp hs
  obtain ⟨hi', -⟩ := List.getElem?_eq_some_iff.mp hm
  unfold post? put
  by_cases hij : j = i
  · subst hij
    simp [hi, hi']
  · simp [hij, List.getElem?_set_ne (Ne.symm hij)]

theorem put_self {i : Nat} {p : Post} (hp : f.post? i = some p) : f.put i p = f := by
  obtain ⟨hs, hm⟩ := post?_eq_some_iff.mp hp
  obtain ⟨hi, hs⟩ := List.getElem?_eq_some_iff.mp hs
  obtain ⟨hi', hm⟩ := List.getElem?_eq_some_iff.mp hm
  rw [put, ← hs, ← hm, List.set_getElem_self, List.set_getElem_self]

/-- An event that the mode lets happen touches no post but that of its place,
and that one as it would on its own. -/
theorem apply_of_admits {e : Event} {p : Post} (hp : f.post? e.place = some p)
    (hadmits : f.admits e = true) : f.apply e = f.put e.place (p.apply e.toPost) := by
  have hat := post?_eq_some_iff.mp hp
  rw [apply, hp]
  cases e with
  | step i now =>
      have hs : f.campaign.sessions[i]? = some p.session := hat.1
      have hmay : f.campaign.mayStep i = true := hadmits
      simp only [Campaign.step, hs, if_pos hmay]
      rfl
  | kill i =>
      have hs : f.campaign.sessions[i]? = some p.session := hat.1
      have hmay : f.campaign.mayStep i = true := hadmits
      simp only [Campaign.kill, hs, hmay, Bool.true_and]
      cases hover : p.session.isOver with
      | true =>
          have hsame : p.apply (Event.kill i).toPost = p := if_pos hover
          rw [hsame, put_self hp]
          rfl
      | false =>
          have hdown : p.apply (Event.kill i).toPost
              = .ofReaction (p.session.crash p.mailbox .killed) :=
            if_neg (by rw [hover]; exact Bool.false_ne_true)
          rw [hdown]
          rfl
  | move i change =>
      obtain ⟨_, hs⟩ := List.getElem?_eq_some_iff.mp hat.1
      simp only [Event.place] at hs
      simp only [put, Event.place, Event.toPost, Post.apply, ← hs, List.set_getElem_self]

theorem apply_of_not_admits {e : Event} {p : Post} (hp : f.post? e.place = some p)
    (hadmits : ¬ f.admits e = true) : f.apply e = f := by
  have hat := post?_eq_some_iff.mp hp
  rw [apply, hp]
  cases e with
  | step i now =>
      have hs : f.campaign.sessions[i]? = some p.session := hat.1
      have hmay : ¬ f.campaign.mayStep i = true := hadmits
      obtain ⟨_, hm⟩ := List.getElem?_eq_some_iff.mp hat.2
      simp only [Event.place] at hm
      simp only [Campaign.step, hs, if_neg hmay, ← hm, List.set_getElem_self]
  | kill i =>
      have hmay : ¬ f.campaign.mayStep i = true := hadmits
      simp [hmay]
  | move i change => exact absurd rfl hadmits

theorem apply_of_none {e : Event} (hp : f.post? e.place = none) : f.apply e = f := by
  rw [apply, hp]

/-- What an event is to the `i`-th post. -/
theorem post?_apply (f : Roster) (e : Event) (i : Nat) :
    (f.apply e).post? i
      = if e.place = i ∧ f.admits e = true then (f.post? i).map (·.apply e.toPost)
        else f.post? i := by
  cases hp : f.post? e.place with
  | none =>
      rw [apply_of_none hp]
      split
      · next hown => rw [← hown.1, hp]; rfl
      · rfl
  | some p =>
      by_cases hadmits : f.admits e = true
      · rw [apply_of_admits hp hadmits, post?_put hp]
        by_cases hi : e.place = i
        · rw [if_pos hi.symm, if_pos ⟨hi, hadmits⟩, ← hi, hp]
          rfl
        · rw [if_neg (Ne.symm hi), if_neg (fun h => hi h.1)]
      · rw [apply_of_not_admits hp hadmits, if_neg (fun h => hadmits h.2)]

/-- A session and its mailbox are what their own log makes of them. -/
theorem post?_run (f : Roster) (events : List Event) (i : Nat) :
    (f.run events).post? i = (f.post? i).map (·.run (f.log i events)) := by
  induction events generalizing f with
  | nil =>
      show f.post? i = (f.post? i).map id
      rw [Option.map_id_fun, id]
  | cons e events ih =>
      have hstep : (f.run (e :: events)).post? i
          = ((f.apply e).post? i).map (·.run ((f.apply e).log i events)) := ih (f.apply e)
      rw [hstep, post?_apply, log]
      split
      · rw [Option.map_map]
        rfl
      · rfl

/-! ## Every session on its own -/

theorem post?_new (settings : Settings) (image : Firmware) (targets : List Target) (i : Nat) :
    (new settings image targets).post? i = targets[i]?.map (Post.new settings image) := by
  simp only [post?, new, Campaign.new, List.getElem?_map]
  cases targets[i]? <;> rfl

theorem length_apply (f : Roster) (e : Event) :
    (f.apply e).campaign.sessions.length = f.campaign.sessions.length := by
  cases hp : f.post? e.place with
  | none => rw [apply_of_none hp]
  | some p =>
      by_cases hadmits : f.admits e = true
      · rw [apply_of_admits hp hadmits, put, List.length_set]
      · rw [apply_of_not_admits hp hadmits]

theorem length_run (f : Roster) (events : List Event) :
    (f.run events).campaign.sessions.length = f.campaign.sessions.length := by
  induction events generalizing f with
  | nil => rfl
  | cons e events ih => exact (ih (f.apply e)).trans (f.length_apply e)

section

variable (settings : Settings) (image : Firmware) (targets : List Target) (events : List Event)

/-- The session of a target on its own, after what happened to the `i`-th one
in the run. -/
def alone (i : Nat) (t : Target) : Post :=
  (Post.new settings image t).run ((new settings image targets).log i events)

theorem post?_eq_alone {i : Nat} {t : Target} (ht : targets[i]? = some t) :
    ((new settings image targets).run events).post? i
      = some (alone settings image targets events i t) := by
  rw [post?_run, post?_new, ht]
  rfl

/-- The sessions after a run, each of them as on its own. -/
theorem sessions_run :
    ((new settings image targets).run events).campaign.sessions
      = targets.mapIdx fun i t => (alone settings image targets events i t).session := by
  refine List.ext_getElem? fun i => ?_
  rw [List.getElem?_mapIdx]
  cases ht : targets[i]? with
  | some t => exact (post?_eq_some_iff.mp (post?_eq_alone settings image targets events ht)).1
  | none =>
      have hlength : (new settings image targets).campaign.sessions.length = targets.length := by
        simp [new, Campaign.new]
      rw [Option.map_none, List.getElem?_eq_none_iff, length_run, hlength]
      exact List.getElem?_eq_none_iff.mp ht

theorem isOver_run :
    ((new settings image targets).run events).campaign.isOver = true
      ↔ ∀ i t, targets[i]? = some t →
        (alone settings image targets events i t).session.isOver = true := by
  rw [Campaign.isOver, sessions_run, List.all_eq_true]
  constructor
  · intro hall i t ht
    exact hall _ (List.mem_of_getElem? (i := i) (by rw [List.getElem?_mapIdx, ht]; rfl))
  · intro hall s hs
    obtain ⟨i, hi, rfl⟩ := List.mem_mapIdx.mp hs
    exact hall i _ (List.getElem?_eq_getElem hi)

/-! ## The outcomes -/

/-- What the outcomes of a campaign that is over tell of its boards. -/
structure Reports (outcomes : List Outcome) : Prop where
  length : outcomes.length = targets.length
  each : ∀ i t, targets[i]? = some t → ∃ o, outcomes[i]? = some o ∧ o.board = t.board
    ∧ (alone settings image targets events i t).session.outcome? = some o
    ∧ ((Post.new settings image t).Struck ((new settings image targets).log i events) →
      o = .aborted t.board)
    ∧ (¬ (Post.new settings image t).Struck ((new settings image targets).log i events) →
      ((Post.new settings image t).run
        (Post.unhurt ((new settings image targets).log i events))).session.outcome? = some o)
  total : ∀ elapsed, (Summary.mk outcomes elapsed).succeeded + (Summary.mk outcomes elapsed).failed
    = targets.length
  success : ∀ elapsed, (Summary.mk outcomes elapsed).allSucceeded = true ↔
    targets ≠ [] ∧ ∀ i t, targets[i]? = some t →
      ∃ o, (alone settings image targets events i t).session.outcome? = some o
        ∧ o.failure = none

theorem mapM_outcome?_eq_some_iff {sessions : List Session} {outcomes : List Outcome} :
    sessions.mapM Session.outcome? = some outcomes
      ↔ sessions.map Session.outcome? = outcomes.map some := by
  induction sessions generalizing outcomes with
  | nil => cases outcomes <;> simp
  | cons s sessions ih =>
      rw [List.mapM_cons, List.map_cons]
      cases outcomes with
      | nil =>
          cases s.outcome? <;> cases sessions.mapM Session.outcome? <;> simp
      | cons o outcomes =>
          rw [List.map_cons, List.cons.injEq, ← ih]
          cases s.outcome? <;> cases sessions.mapM Session.outcome? <;> simp

theorem isSome_outcome? (s : Session) : s.outcome?.isSome = s.isOver := by
  unfold Session.outcome? Session.isOver
  cases s.phase <;> rfl

theorem board_of_outcome? {s : Session} {o : Outcome} (ho : s.outcome? = some o) :
    o.board = s.board := by
  unfold Session.outcome? at ho
  split at ho
  · exact Option.some.inj ho ▸ rfl
  · exact Option.some.inj ho ▸ rfl
  · cases ho

/-- There are outcomes as soon as all sessions are over. -/
theorem isSome_outcomes? (c : Campaign) : c.outcomes?.isSome = c.isOver := by
  rw [Bool.eq_iff_iff, Campaign.isOver, List.all_eq_true]
  constructor
  · intro hsome s hs
    obtain ⟨outcomes, houtcomes⟩ := Option.isSome_iff_exists.mp hsome
    have hmem : s.outcome? ∈ outcomes.map some :=
      mapM_outcome?_eq_some_iff.mp houtcomes ▸ List.mem_map_of_mem hs
    obtain ⟨o, -, ho⟩ := List.mem_map.mp hmem
    rw [← isSome_outcome?, ← ho]
    rfl
  · intro hover
    have hall : c.sessions.map Session.outcome?
        = (c.sessions.map fun s => s.outcome?.getD (.aborted s.board)).map some := by
      rw [List.map_map]
      refine List.map_congr_left fun s hs => ?_
      have hsome : s.outcome?.isSome = true := (isSome_outcome? s).trans (hover s hs)
      obtain ⟨o, ho⟩ := Option.isSome_iff_exists.mp hsome
      rw [Function.comp, ho, Option.getD_some]
    rw [Campaign.outcomes?, mapM_outcome?_eq_some_iff.mpr hall]
    rfl

theorem reports_of_outcomes? {outcomes : List Outcome}
    (h : ((new settings image targets).run events).campaign.outcomes? = some outcomes) :
    Reports settings image targets events outcomes := by
  have hmap := mapM_outcome?_eq_some_iff.mp h
  rw [sessions_run] at hmap
  have hlength : outcomes.length = targets.length := by
    simpa using (congrArg List.length hmap).symm
  have hat : ∀ i t, targets[i]? = some t → ∃ o, outcomes[i]? = some o
      ∧ (alone settings image targets events i t).session.outcome? = some o := by
    intro i t ht
    have hi := congrArg (fun l : List (Option Outcome) => l[i]?) hmap
    simp only [List.getElem?_map, List.getElem?_mapIdx, ht, Option.map_some] at hi
    obtain ⟨o, ho, hsome⟩ := Option.map_eq_some_iff.mp hi.symm
    exact ⟨o, ho, hsome.symm⟩
  refine ⟨hlength, fun i t ht => ?_, fun elapsed => ?_, fun elapsed => ?_⟩
  · obtain ⟨o, ho, halone⟩ := hat i t ht
    refine ⟨o, ho, ?_, halone, fun hstruck => ?_, fun hunhurt => ?_⟩
    · rw [board_of_outcome? halone, alone, Post.board_run]
      rfl
    · exact Option.some.inj (halone.symm.trans hstruck.outcome)
    · rw [Post.run_unhurt hunhurt]
      exact halone
  · have hle : (Summary.mk outcomes elapsed).succeeded ≤ outcomes.length := List.countP_le_length
    rw [Summary.failed, hlength]
    omega
  · have hempty : outcomes.isEmpty = false ↔ targets ≠ [] := by
      rw [List.isEmpty_eq_false_iff, ← List.length_pos_iff, ← List.length_pos_iff, hlength]
    have hfailed : (Summary.mk outcomes elapsed).failed = 0 ↔ ∀ o ∈ outcomes, o.failure = none := by
      have hle : (Summary.mk outcomes elapsed).succeeded ≤ outcomes.length := List.countP_le_length
      have hnone : outcomes.length ≤ (Summary.mk outcomes elapsed).succeeded
          ↔ (Summary.mk outcomes elapsed).succeeded = outcomes.length :=
        ⟨Nat.le_antisymm hle, fun h => Nat.le_of_eq h.symm⟩
      rw [Summary.failed, Nat.sub_eq_zero_iff_le, hnone, Summary.succeeded, List.countP_eq_length]
      simp [Outcome.success]
    rw [Summary.allSucceeded, Bool.and_eq_true, Bool.not_eq_true', beq_iff_eq, hempty, hfailed]
    refine and_congr_right fun _ => ⟨fun hall i t ht => ?_, fun hall o ho => ?_⟩
    · obtain ⟨o, ho, halone⟩ := hat i t ht
      exact ⟨o, halone, hall o (List.mem_of_getElem? ho)⟩
    · obtain ⟨i, hi, rfl⟩ := List.mem_iff_getElem.mp ho
      obtain ⟨o, halone, hnone⟩ := hall i _ (List.getElem?_eq_getElem (hlength ▸ hi))
      obtain ⟨o', ho', halone'⟩ := hat i _ (List.getElem?_eq_getElem (hlength ▸ hi))
      rw [List.getElem?_eq_getElem hi] at ho'
      rw [Option.some.inj ho', Option.some.inj (halone'.symm.trans halone), hnone]

end

/-! ## One session after the other -/

theorem log_append (f : Roster) (i : Nat) (before after : List Event) :
    f.log i (before ++ after) = f.log i before ++ (f.run before).log i after := by
  induction before generalizing f with
  | nil => rfl
  | cons e before ih =>
      rw [List.cons_append, log, log]
      split
      · rw [ih (f.apply e), List.cons_append]
        rfl
      · rw [ih (f.apply e)]
        rfl

theorem mayStep_apply {i : Nat} (e : Event) (he : e.place = i) :
    (f.apply e).campaign.mayStep i = f.campaign.mayStep i := by
  subst he
  cases hp : f.post? e.place with
  | none => rw [apply_of_none hp]
  | some p =>
      by_cases hadmits : f.admits e = true
      · rw [apply_of_admits hp hadmits]
        simp only [put, Campaign.mayStep, List.take_set,
          List.set_eq_of_length_le (List.length_take_le ..)]
      · rw [apply_of_not_admits hp hadmits]

/-- A session that may take steps may take them all in a row. -/
theorem log_in_a_row {i : Nat} (hmay : f.campaign.mayStep i = true) (events : List Post.Event)
    (j : Nat) : f.log j (events.map (.ofPost i)) = if j = i then events else [] := by
  induction events generalizing f with
  | nil => rw [List.map_nil, log, ite_self]
  | cons e events ih =>
      have hadmits : f.admits (.ofPost i e) = true := by
        cases e with
        | step | kill => exact hmay
        | move => rfl
      have hmay' := (mayStep_apply (f := f) (.ofPost i e) (Event.place_ofPost i e)).trans hmay
      rw [List.map_cons, log, ih hmay', Event.place_ofPost, Event.toPost_ofPost]
      by_cases hj : j = i
      · rw [if_pos ⟨hj.symm, hadmits⟩, if_pos hj, if_pos hj]
      · rw [if_neg (fun h => hj h.1.symm), if_neg hj, if_neg hj]

section

variable {settings : Settings} {image : Firmware} {targets : List Target} {events : List Event}

theorem mayStep_of_over {i : Nat} (hover : ∀ j < i, ∀ s,
    f.campaign.sessions[j]? = some s → s.isOver = true) : f.campaign.mayStep i = true := by
  have hall : (f.campaign.sessions.take i).all Session.isOver = true := by
    rw [List.all_eq_true]
    intro s hs
    obtain ⟨j, hj, rfl⟩ := List.mem_take_iff_getElem.mp hs
    exact hover j (Nat.lt_of_lt_of_le hj (Nat.min_le_left ..)) _ (List.getElem?_eq_getElem _)
  rw [Campaign.mayStep, hall, Bool.or_true]

/-- Whatever happens to the boards in a run to its end may as well happen to one
board after the other. -/
theorem exists_sequential
    (hover : ((new settings image targets).run events).campaign.isOver = true) :
    ∃ events', ∀ i t, targets[i]? = some t →
      (new { settings with parallel := false } image targets).log i events'
        = (new settings image targets).log i events := by
  have hrow : ∀ k ≤ targets.length, ∃ events', ∀ i t, targets[i]? = some t →
      (new { settings with parallel := false } image targets).log i events'
        = if i < k then (new settings image targets).log i events else [] := by
    intro k hk
    induction k with
    | zero => exact ⟨[], fun i t _ => by rw [if_neg (Nat.not_lt_zero i)]; rfl⟩
    | succ k ih =>
        obtain ⟨before, hbefore⟩ := ih (Nat.le_of_succ_le hk)
        -- the first `k` sessions are over by now, as they are after the given run
        have hmay : ((new { settings with parallel := false } image targets).run
            before).campaign.mayStep k = true := by
          refine mayStep_of_over fun j hj s hs => ?_
          have hjt : j < targets.length := by omega
          have htarget := List.getElem?_eq_getElem hjt
          have halone := (isOver_run settings image targets events).mp hover j _ htarget
          rw [sessions_run, List.getElem?_mapIdx, htarget, Option.map_some, alone,
            hbefore j _ htarget, if_pos hj] at hs
          exact Option.some.inj hs ▸ halone
        refine ⟨before ++ ((new settings image targets).log k events).map (.ofPost k),
          fun i t ht => ?_⟩
        rw [log_append, hbefore i t ht, log_in_a_row hmay]
        rcases Nat.lt_trichotomy i k with hlt | rfl | hgt
        · rw [if_pos hlt, if_neg (Nat.ne_of_lt hlt), if_pos (Nat.lt_succ_of_lt hlt),
            List.append_nil]
        · rw [if_neg (Nat.lt_irrefl i), if_pos rfl, if_pos (Nat.lt_succ_self i), List.nil_append]
        · rw [if_neg (Nat.lt_asymm hgt), if_neg (Nat.ne_of_gt hgt), if_neg (by omega),
            List.append_nil]
  obtain ⟨events', hevents'⟩ := hrow targets.length (Nat.le_refl _)
  refine ⟨events', fun i t ht => ?_⟩
  rw [hevents' i t ht, if_pos (List.getElem?_eq_some_iff.mp ht).1]

end

/-! ## Boards do not disturb each other -/

section

variable (settings : Settings) (image : Firmware) (targets : List Target) (events : List Event)

/-- How the boards of a campaign fare in a run. -/
structure Isolated : Prop where
  /-- Each session and its mailbox are what they would be on their own. -/
  alone : ∀ i t, targets[i]? = some t →
    ((new settings image targets).run events).post? i
      = some (alone settings image targets events i t)
  /-- There are outcomes once all sessions are over, and not before. -/
  complete : ((new settings image targets).run events).campaign.outcomes?.isSome
    = ((new settings image targets).run events).campaign.isOver
  reports : ∀ outcomes,
    ((new settings image targets).run events).campaign.outcomes? = some outcomes →
      Reports settings image targets events outcomes
  /-- Until then some session may take a step. -/
  progress : ((new settings image targets).run events).campaign.isOver = false →
    ∃ i, ((new settings image targets).run events).campaign.next? = some i
      ∧ ((new settings image targets).run events).campaign.mayStep i = true
  /-- A session comes to its end in so many steps. -/
  bounded : 0 < image.chunkSize → ∀ i t, targets[i]? = some t →
    (Roster.alone settings image targets events i t).session.isOver = true
    ∨ Post.steps ((new settings image targets).log i events)
      ≤ (Post.new settings image t).effort
        + 2 * (Post.new settings image t).looks ((new settings image targets).log i events)
        + Post.deliveries ((new settings image targets).log i events)
  /-- In either mode and whatever the other boards are and do, a session that is
  told the same does the same. -/
  noninterference : ∀ parallel targets' events' i j t,
    targets[i]? = some t → targets'[j]? = some t →
      (Post.new settings image t).Tells (Post.new settings image t)
        ((new settings image targets).log i events)
        ((new { settings with parallel } image targets').log j events') →
      ∃ p p', ((new settings image targets).run events).post? i = some p
        ∧ ((new { settings with parallel } image targets').run events').post? j = some p'
        ∧ p.Alike p'
  /-- So both modes have the same outcomes. -/
  modes : ∀ parallel events', (∀ i t, targets[i]? = some t →
      (Post.new settings image t).Tells (Post.new settings image t)
        ((new settings image targets).log i events)
        ((new { settings with parallel } image targets).log i events')) →
    ((new { settings with parallel } image targets).run events').campaign.outcomes?.map
        (·.map Outcome.untimed)
      = ((new settings image targets).run events).campaign.outcomes?.map (·.map Outcome.untimed)
  /-- What happens to the boards together may happen to one after the other. -/
  sequential : ((new settings image targets).run events).campaign.isOver = true →
    ∃ events', ∀ i t, targets[i]? = some t →
      (new { settings with parallel := false } image targets).log i events'
        = (new settings image targets).log i events

end

theorem next?_of_running {c : Campaign} (hrunning : c.isOver = false) :
    ∃ i, c.next? = some i ∧ c.mayStep i = true := by
  obtain ⟨s, hs, hlive⟩ := List.all_eq_false.mp hrunning
  have hsome : (c.sessions.findIdx? (!·.isOver)).isSome = true := by
    rw [List.findIdx?_isSome, List.any_eq_true]
    exact ⟨s, hs, by simpa using hlive⟩
  obtain ⟨i, hi⟩ := Option.isSome_iff_exists.mp hsome
  refine ⟨i, hi, mayStep_of_over (f := ⟨c, []⟩) fun j hj s hs => ?_⟩
  obtain ⟨hlt, -, hbefore⟩ := List.findIdx?_eq_some_iff_getElem.mp hi
  obtain ⟨hjt, rfl⟩ := List.getElem?_eq_some_iff.mp hs
  simpa using hbefore j hj

theorem untimed_outcomes? (c : Campaign) : c.outcomes?.map (·.map Outcome.untimed)
    = (c.sessions.map fun s => s.outcome?.map Outcome.untimed).mapM id := by
  unfold Campaign.outcomes?
  induction c.sessions with
  | nil => rfl
  | cons s sessions ih =>
      rw [List.map_cons, List.mapM_cons, List.mapM_cons, ← ih]
      cases s.outcome? <;> cases sessions.mapM Session.outcome? <;> rfl

theorem boards_isolated (settings : Settings) (image : Firmware) (targets : List Target)
    (events : List Event) : Isolated settings image targets events where
  alone := fun i t ht => post?_eq_alone settings image targets events ht
  complete := isSome_outcomes? _
  reports := fun outcomes h => reports_of_outcomes? settings image targets events h
  progress := next?_of_running
  bounded := fun hsize i t _ =>
    (Post.run_effort (p := Post.new settings image t) hsize _).imp id
      (Nat.le_trans (Nat.le_add_right ..))
  noninterference := fun parallel targets' events' i j t ht ht' htold =>
    ⟨_, _, post?_eq_alone settings image targets events ht,
      post?_eq_alone { settings with parallel } image targets' events' ht',
      Post.run_alike htold (.refl _)⟩
  modes := fun parallel events' htold => by
    rw [untimed_outcomes?, untimed_outcomes?, sessions_run, sessions_run]
    congr 1
    refine List.ext_getElem? fun i => ?_
    simp only [List.getElem?_map, List.getElem?_mapIdx]
    cases ht : targets[i]? with
    | none => rfl
    | some t => exact congrArg some (Post.run_alike (htold i t ht) (.refl _)).session.outcome
  sequential := exists_sequential

/-- The first session breaks down in the middle of its work, and the second
board answers to all it is sent. -/
def oneBreaksDown : List Event :=
  List.replicate 4 (.step 0 .origin) ++ List.replicate 6 (.step 1 .origin) ++ [.kill 0]
    ++ .move 1 (.deliver (.empty .ack 2 hostId)) :: List.replicate 9 (.step 1 .origin)
    ++ .move 1 (.deliver (.empty .ack 2 hostId)) :: List.replicate 6 (.step 1 .origin)

theorem other_board_unhurt :
    let targets : List Target := [⟨1, .ofCapacity 4⟩, ⟨2, .ofCapacity 4⟩]
    let image : Firmware := ⟨#[7], Vector.replicate 32 0, 1, 1⟩
    Reports { parallel := true } image targets oneBreaksDown
      [.aborted 1, ⟨2, none, .zero, 1, 1, 0⟩] := by
  intro targets image
  exact (boards_isolated { parallel := true } image targets oneBreaksDown).reports _
    (by decide +kernel)

end Roster

end BoardFlash
