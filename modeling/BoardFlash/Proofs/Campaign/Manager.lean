import BoardFlash.Proofs.Campaign.Isolation

/-!
# The thread that runs a campaign

A `Manager` is the thread that starts the sessions of a campaign, each in a
thread of its own, and collects their outcomes in the order of the boards. It
waits for the next outcome until the session is over. In parallel mode it
starts all sessions before it waits for one; otherwise it starts a session only
when it has the outcomes of all before it.

Nothing else holds a session back: one that was started takes its steps or
breaks down at any time, and others change any mailbox at any time. What the
campaign says of the steps that a session may take follows from this, so a run
of the manager is a run of the roster (`Kept.campaign`). `Manager.happened` and
`Manager.announced` are the chronicle of a run.
-/

namespace BoardFlash

/-- The thread that runs a campaign, and the threads of its sessions. -/
structure Manager where
  roster : Roster
  /-- So many sessions were started, the first ones. -/
  started : Nat := 0
  /-- The outcomes of the sessions that were waited for. -/
  collected : List Outcome := []
  /-- What happened to the sessions and their mailboxes so far. -/
  happened : List (Nat × Post.Event) := []
  /-- The frames that the sessions announced so far. -/
  announced : List (Nat × Frame) := []

namespace Manager

inductive Event where
  /-- The manager starts a session or collects an outcome, if it can. -/
  | manage
  /-- Something happens to the `i`-th session, if it can. -/
  | session (i : Nat) (e : Post.Event)

/-- A campaign of which nothing has begun. -/
def new (settings : Settings) (image : Firmware) (targets : List Target) : Manager where
  roster := .new settings image targets

variable (m : Manager)

/-- It is time to start another session. -/
def starts : Bool :=
  decide (m.started < m.roster.campaign.sessions.length)
    && (m.roster.campaign.parallel || m.started == m.collected.length)

/-- The outcome that the manager waits for. -/
def joined? : Option Outcome :=
  if m.collected.length < m.started then
    (m.roster.post? m.collected.length).bind (·.session.outcome?)
  else none

def proceed : Manager :=
  if m.starts then { m with started := m.started + 1 }
  else
    match m.joined? with
    | some o => { m with collected := m.collected ++ [o] }
    | none => m

/-- A session does nothing before it was started. -/
def lets (i : Nat) (e : Post.Event) : Bool := !e.isOwn || decide (i < m.started)

/-- The `i`-th post after the event. -/
def record (i : Nat) (p : Post) (e : Post.Event) : Manager :=
  { m with
    roster := m.roster.put i (p.apply e)
    happened := m.happened ++ [(i, e)]
    announced := m.announced ++ (p.announces? e).toList.map (i, ·) }

def apply : Event → Manager
  | .manage => m.proceed
  | .session i e =>
    match m.roster.post? i with
    | some p => if m.lets i e then m.record i p e else m
    | none => m

def run (events : List Event) : Manager := events.foldl apply m

/-- What happened to the `i`-th session and its mailbox. -/
def log (i : Nat) : List Post.Event :=
  m.happened.filterMap fun h => if h.1 = i then some h.2 else none

variable {m}

theorem log_record (i j : Nat) (p : Post) (e : Post.Event) :
    (m.record i p e).log j = m.log j ++ if i = j then [e] else [] := by
  rw [log, record, List.filterMap_append]
  congr 1
  by_cases hij : i = j
  · simp [hij]
  · simp [hij]

/-! ## A run of the manager is a run of the campaign -/

variable {settings : Settings} {image : Firmware} {targets : List Target}

/-- What is known of a manager at any time. -/
structure Kept (settings : Settings) (image : Firmware) (targets : List Target) (m : Manager) :
    Prop where
  campaign : m.roster
    = (Roster.new settings image targets).run (m.happened.map fun h => .ofPost h.1 h.2)
  alone : ∀ i, m.roster.post? i
    = targets[i]?.map fun t => (Post.new settings image t).run (m.log i)
  mode : m.roster.campaign.parallel = settings.parallel
  frames : ∀ i t, targets[i]? = some t →
    (m.announced.filter (·.1 = i)).map Prod.snd = (Post.new settings image t).announced (m.log i)
  known : ∀ a ∈ m.announced, a.1 < targets.length
  collected : ∀ i o, m.collected[i]? = some o →
    ∃ p, m.roster.post? i = some p ∧ p.session.outcome? = some o
  started_le : m.started ≤ targets.length
  behind : m.collected.length ≤ m.started
  ahead : settings.parallel = true ∨ m.started ≤ m.collected.length + 1
  fresh : ∀ h ∈ m.happened, h.2.isOwn = true → h.1 < m.started

namespace Kept

theorem init : Kept settings image targets (.new settings image targets) where
  campaign := rfl
  alone := fun i => by
    rw [new, Roster.post?_new]
    rfl
  mode := rfl
  frames := fun i t _ => rfl
  known := fun a ha => by cases ha
  collected := fun i o ho => by cases ho
  started_le := Nat.zero_le _
  behind := Nat.le_refl _
  ahead := .inr (Nat.zero_le _)
  fresh := fun h hh => by cases hh

theorem length_sessions (hm : Kept settings image targets m) :
    m.roster.campaign.sessions.length = targets.length := by
  rw [hm.campaign, Roster.length_run, Roster.new, Campaign.new, List.length_map, List.length_map]

/-- A session whose outcome was collected is over. -/
theorem isOver_of_collected (hm : Kept settings image targets m) {i : Nat} {p : Post}
    (hi : i < m.collected.length) (hp : m.roster.post? i = some p) : p.session.isOver = true := by
  obtain ⟨q, hq, ho⟩ := hm.collected i _ (List.getElem?_eq_getElem hi)
  obtain rfl := Option.some.inj (hp.symm.trans hq)
  rw [← Roster.isSome_outcome?, ho]
  rfl

/-- What the manager lets happen, the mode of the campaign admits. -/
theorem admits (hm : Kept settings image targets m) {i : Nat} {e : Post.Event}
    (hlets : m.lets i e = true) : m.roster.admits (.ofPost i e) = true := by
  have hown : e.isOwn = true → m.roster.campaign.mayStep i = true := by
    intro hown
    have hstarted : i < m.started := by simpa [lets, hown] using hlets
    rcases hm.ahead with hparallel | hahead
    · rw [Campaign.mayStep, hm.mode, hparallel, Bool.true_or]
    · refine Roster.mayStep_of_over fun j hj s hs => ?_
      have hcollected : j < m.collected.length := by omega
      obtain ⟨p, hp, -⟩ := hm.collected j _ (List.getElem?_eq_getElem hcollected)
      have hover := hm.isOver_of_collected hcollected hp
      rwa [← Option.some.inj (hs.symm.trans (Roster.post?_eq_some_iff.mp hp).1)] at hover
  cases e with
  | step now => exact hown rfl
  | kill => exact hown rfl
  | move move => rfl

theorem start (hm : Kept settings image targets m) (hstarts : m.starts = true) :
    Kept settings image targets { m with started := m.started + 1 } := by
  rw [starts, Bool.and_eq_true, decide_eq_true_eq, hm.length_sessions, hm.mode, Bool.or_eq_true,
    beq_iff_eq] at hstarts
  refine { hm with
    started_le := hstarts.1
    behind := Nat.le_succ_of_le hm.behind
    ahead := ?_
    fresh := ?_ }
  · show settings.parallel = true ∨ m.started + 1 ≤ m.collected.length + 1
    exact hstarts.2.imp id fun heq => Nat.succ_le_succ (Nat.le_of_eq heq)
  · intro h hh hown
    exact Nat.lt_succ_of_lt (hm.fresh h hh hown)

theorem join (hm : Kept settings image targets m) {o : Outcome} (ho : m.joined? = some o) :
    Kept settings image targets { m with collected := m.collected ++ [o] } := by
  unfold joined? at ho
  split at ho
  · next hlt =>
    obtain ⟨p, hp, hover⟩ := Option.bind_eq_some_iff.mp ho
    refine { hm with collected := ?_, behind := ?_, ahead := ?_ }
    · intro i o' ho'
      rw [List.getElem?_append] at ho'
      split at ho'
      · exact hm.collected i o' ho'
      · next hge =>
        have hi : i = m.collected.length := by
          have := (List.getElem?_eq_some_iff.mp ho').1
          simp only [List.length_singleton] at this
          omega
        rw [hi, Nat.sub_self, List.getElem?_cons_zero] at ho'
        exact ⟨p, hi ▸ hp, hover.trans ho'⟩
    · show (m.collected ++ [o]).length ≤ m.started
      rw [List.length_append]
      exact hlt
    · show settings.parallel = true ∨ m.started ≤ (m.collected ++ [o]).length + 1
      rw [List.length_append]
      exact hm.ahead.imp id fun h => by omega
  · cases ho

theorem record (hm : Kept settings image targets m) {i : Nat} {p : Post} {e : Post.Event}
    (hp : m.roster.post? i = some p) (hlets : m.lets i e = true) :
    Kept settings image targets (m.record i p e) := by
  obtain ⟨t, ht, hrun⟩ := Option.map_eq_some_iff.mp ((hm.alone i).symm.trans hp)
  have hpost (j : Nat) : (m.record i p e).roster.post? j
      = if j = i then some (p.apply e) else m.roster.post? j := Roster.post?_put hp _ j
  refine { hm with campaign := ?_, alone := ?_, frames := ?_, known := ?_, collected := ?_,
                   fresh := ?_ }
  · have hsame := Roster.apply_of_admits (e := .ofPost i e)
      (by rw [Roster.Event.place_ofPost]; exact hp) (hm.admits hlets)
    rw [Roster.Event.place_ofPost, Roster.Event.toPost_ofPost] at hsame
    show m.roster.put i (p.apply e) = _
    rw [← hsame, Manager.record, List.map_append, Roster.run, List.foldl_append]
    exact congrArg (Roster.apply · (.ofPost i e)) hm.campaign
  · intro j
    rw [hpost, log_record]
    by_cases hij : i = j
    · rw [if_pos hij.symm, if_pos hij, ← hij, ht, Option.map_some, Post.run_append,
        hrun]
      rfl
    · rw [if_neg (Ne.symm hij), if_neg hij, List.append_nil]
      exact hm.alone j
  · intro j u hu
    rw [log_record, Post.announced_append, ← hm.frames j u hu, Manager.record, List.filter_append,
      List.map_append]
    congr 1
    by_cases hij : i = j
    · obtain rfl := Option.some.inj (ht.symm.trans (hij ▸ hu))
      rw [if_pos hij, Post.announced_singleton, ← hij, hrun]
      cases p.announces? e <;> simp
    · rw [if_neg hij]
      cases p.announces? e <;> simp [hij, Post.announced, Post.notices]
  · intro a ha
    rcases List.mem_append.mp ha with hbefore | hnow
    · exact hm.known a hbefore
    · obtain ⟨f, -, rfl⟩ := List.mem_map.mp hnow
      exact (List.getElem?_eq_some_iff.mp ht).1
  · intro j o ho
    obtain ⟨q, hq, hover⟩ := hm.collected j o ho
    rw [hpost]
    by_cases hij : j = i
    · obtain rfl := Option.some.inj (hp.symm.trans (hij ▸ hq))
      have hdone := hm.isOver_of_collected (List.getElem?_eq_some_iff.mp ho).1 hq
      refine ⟨_, if_pos hij, ?_⟩
      rw [← hover, ← Post.session_run_of_isOver hdone [e]]
      rfl
    · exact ⟨q, (if_neg hij).trans hq, hover⟩
  · intro h hh hown
    rcases List.mem_append.mp hh with hbefore | hnow
    · exact hm.fresh h hbefore hown
    · obtain rfl := List.mem_singleton.mp hnow
      have hstarted : i < m.started := by
        have hself : e.isOwn = true := hown
        simpa [lets, hself] using hlets
      exact hstarted

theorem apply (hm : Kept settings image targets m) (e : Event) :
    Kept settings image targets (m.apply e) := by
  cases e with
  | manage =>
      show Kept settings image targets m.proceed
      unfold proceed
      split
      · next hstarts => exact hm.start hstarts
      · split
        · next o ho => exact hm.join ho
        · exact hm
  | session i e =>
      unfold Manager.apply
      dsimp only
      split
      · next p hp =>
        split
        · next hlets => exact hm.record hp hlets
        · exact hm
      · exact hm

theorem run (hm : Kept settings image targets m) (events : List Event) :
    Kept settings image targets (m.run events) := by
  induction events generalizing m with
  | nil => exact hm
  | cons e events ih => exact ih (hm.apply e)

end Kept

end Manager

end BoardFlash
