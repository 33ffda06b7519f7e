import BoardFlash.Proofs.Bridge.Ending
import BoardFlash.Proofs.Bridge.Intake
import BoardFlash.Proofs.Cancel
import BoardFlash.Proofs.Progress
import Mathlib.Data.Prod.Lex

/-!
# What goes out, and what a failure of the link does

The bridge fetches the frames that are queued for the link and writes them, one
after the other. A step either leaves the frames that go out alone, or fetches
one, or writes a part of one, or the link fails with it (`Flow`). An `Outflow`
is the bridge at work, with all that it has fetched and written, the calls that
have failed, and the flags of the units that depend on the link.

`Sound` is the invariant: what was written is what was fetched, less the rest
of the last frame, and a call has failed exactly if the bridge is about to end
with that failure or has done so. From there on nothing is read or written any
more (`Frozen`), and the bridge sets all the flags of its group; without a
failure it sets none (`Obeyed`).
-/

namespace BoardFlash

namespace Trunk

/-- What others put in the queue to the link. -/
def submitted (t : Trunk) (move : Move) : List (List UInt8) :=
  (t.apply move).queues.forth.items.drop t.queues.forth.items.length

/-- Others put frames in the queue to the link, at its end, and take none. -/
theorem forth_apply (t : Trunk) (move : Move) :
    (t.apply move).queues.forth.items = t.queues.forth.items ++ t.submitted move := by
  have hgrows : t.queues.forth.items <+: (t.apply move).queues.forth.items := by
    cases move with
    | submit raw =>
        simp only [apply, Queue.offer]
        split
        · split
          · next q hsent =>
            rw [(Queue.trySend_eq_ok_iff.mp hsent).2.2]
            exact List.prefix_append _ _
          · exact List.prefix_rfl
        · exact List.prefix_rfl
    | collect n =>
        simp only [apply]
        split <;> exact List.prefix_rfl
    | cancel | stopSubmitting | stopCollecting => exact List.prefix_rfl
  obtain ⟨more, hmore⟩ := hgrows
  rw [submitted, ← hmore, List.drop_left]

/-- Others never raise the alarm, and they do not take back an order to stop. -/
theorem flags_apply (t : Trunk) (move : Move) :
    (t.apply move).alarm = t.alarm ∧ (t.cancelled = true → (t.apply move).cancelled = true) := by
  cases move with
  | submit raw | collect n =>
      simp only [apply]
      split <;> exact ⟨rfl, id⟩
  | cancel => exact ⟨rfl, fun _ => rfl⟩
  | stopSubmitting | stopCollecting => exact ⟨rfl, id⟩

/-- Behind a closed end nothing goes in any more. -/
theorem closed_apply (t : Trunk) (move : Move) (hclosed : t.queues.forth.senderOpen = false) :
    (t.apply move).queues.forth.senderOpen = false
      ∧ (t.apply move).queues.forth.items = t.queues.forth.items := by
  cases move with
  | submit raw => simp [apply, hclosed]
  | collect n =>
      simp only [apply]
      split <;> exact ⟨hclosed, rfl⟩
  | cancel | stopCollecting => exact ⟨hclosed, rfl⟩
  | stopSubmitting => exact ⟨rfl, rfl⟩

end Trunk

namespace Bridge

/-! ## Failures -/

/-- The failure of the link that the bridge is about to end with, or has ended with. -/
def Phase.cause? : Phase → Option IoError
  | .failing e | .alarming e => some e
  | .stopping failure | .stopped failure => failure
  | _ => none

/-- The call of the next step, if the link fails with it for good, and the failure. -/
def hit (b : Bridge) (link : Link) : Option (Link.Call × IoError) :=
  b.call?.bind fun c => (fault? c (link c)).map (c, ·)

section

variable {b b' : Bridge} {t t' : Trunk} {link : Link} {c : Link.Call} {e : IoError}

theorem hit_eq_some_iff :
    b.hit link = some (c, e) ↔ b.call? = some c ∧ fault? c (link c) = some e := by
  simp only [hit, Option.bind_eq_some_iff, Option.map_eq_some_iff, Prod.mk.injEq]
  constructor
  · rintro ⟨c', hcall, e', hfault, rfl, rfl⟩
    exact ⟨hcall, hfault⟩
  · rintro ⟨hcall, hfault⟩
    exact ⟨c, hcall, e, hfault, rfl, rfl⟩

theorem fault?_of_spared (hspared : b.hit link = none) (hcall : b.call? = some c) :
    fault? c (link c) = none := by
  rw [hit, hcall] at hspared
  exact Option.map_eq_none_iff.mp hspared

theorem hit_of_call (hcall : b.call? = none) : b.hit link = none := by
  rw [hit, hcall]
  rfl

theorem cause?_of_free {phase : Phase} (hfree : phase.free = true) : phase.cause? = none := by
  cases phase with
  | failing | alarming | stopping | stopped => cases hfree
  | _ => rfl

theorem cause?_toWrite (rest : List UInt8) : (Phase.toWrite rest).cause? = none := by
  cases rest <;> rfl

theorem cause?_of_call (hcall : b.call? = some c) : b.phase.cause? = none := by
  unfold call? at hcall
  split at hcall <;> first | (next hp => rw [hp]; rfl) | cases hcall

/-- A call that fails the bridge takes no bytes. -/
theorem sent_of_fault (hfault : fault? c (link c) = some e) : link.sent (some c) = [] := by
  cases c with
  | write bytes =>
      unfold Link.sent
      dsimp only
      cases hreply : link (.write bytes) with
      | error e' => rfl
      | ok n =>
          rw [hreply, fault?, Option.ite_none_right_eq_some] at hfault
          dsimp only
          rw [hfault.1, List.take_zero]
  | _ => rfl

/-- Without writing the bridge sends no bytes. -/
theorem sent_of_not_writing (hwriting : ∀ rest, b.phase ≠ .writing rest) :
    link.sent b.call? = [] := by
  unfold call?
  cases hp : b.phase with
  | writing rest => exact absurd hp (hwriting rest)
  | _ => rfl

/-! ## One step -/

/-- What one step does to the frames that go out. -/
inductive Flow (b : Bridge) (t : Trunk) (link : Link) (b' : Bridge) (t' : Trunk) : Prop where
  | aside (spared : b.hit link = none) (items : t'.queues.forth.items = t.queues.forth.items)
      (sent : link.sent b.call? = []) (unwritten : b'.phase.unwritten = b.phase.unwritten)
      (cause : b'.phase.cause? = b.phase.cause?)
  | fetch (raw : List UInt8) (before : b.phase = .fetching)
      (items : t.queues.forth.items = raw :: t'.queues.forth.items)
      (after : b'.phase = .toWrite raw)
  | write (rest : List UInt8) (n : Nat) (before : b.phase = .writing rest)
      (spared : b.hit link = none) (items : t'.queues.forth.items = t.queues.forth.items)
      (sent : link.sent b.call? = rest.take n) (after : b'.phase = .toWrite (rest.drop n))
  | fail (c : Link.Call) (e : IoError) (hit : b.hit link = some (c, e))
      (items : t'.queues.forth.items = t.queues.forth.items) (sent : link.sent b.call? = [])
      (after : b'.phase = .failing e)

/-- Only a fetch changes the queue to the link. -/
theorem forth_of_passage (p : Passage b t link b' t') (hfetching : b.phase ≠ .fetching) :
    t'.queues.forth.items = t.queues.forth.items := by
  cases p with
  | fetch _ _ before => exact absurd before hfetching
  | _ =>
      subst_vars
      rfl

/-- A step that keeps out of the way of the frames that go out. -/
theorem Flow.of_phases {phase phase' : Phase} (before : b.phase = phase) (after : b'.phase = phase')
    (hitems : t'.queues.forth.items = t.queues.forth.items) (hspared : b.hit link = none)
    (hwriting : ∀ rest, phase ≠ .writing rest) (hunwritten : phase'.unwritten = phase.unwritten)
    (hcause : phase'.cause? = phase.cause?) : Flow b t link b' t' := by
  subst before after
  exact .aside hspared hitems (sent_of_not_writing hwriting) hunwritten hcause

theorem flow_of_passage (p : Passage b t link b' t') (hspared : b.hit link = none) :
    Flow b t link b' t' := by
  cases p with
  | quiet before after trunk =>
      subst trunk
      exact .aside hspared rfl (silent_of_free before link).2
        ((Phase.unwritten_of_free after).trans (Phase.unwritten_of_free before).symm)
        ((cause?_of_free after).trans (cause?_of_free before).symm)
  | fetch raw forth before taken after trunk =>
      subst trunk
      exact .fetch raw before (Queue.tryRecv_eq_ok_iff.mp taken).1 after
  | write rest n before reply _ after trunk =>
      subst trunk
      refine .write rest n.val before hspared rfl ?_ after
      rw [call?, before, Link.sent, reply]
  | again c e call reply _ after trunk =>
      subst trunk
      refine .aside hspared rfl ?_ (by rw [after]) (by rw [after])
      rw [call]
      exact (Link.silent_of_error reply).2
  | fail c e call why =>
      rw [fault?_of_spared hspared call] at why
      cases why
  | stop before after trunk =>
      subst trunk
      rcases before with ⟨before, -⟩ | ⟨before, -⟩ <;>
        exact .of_phases before after rfl hspared (by simp) rfl rfl
  | start _ before _ _ after trunk | read _ _ _ before _ _ after trunk
  | header _ _ _ _ before _ _ _ _ after trunk | garble _ _ _ before _ _ _ _ after trunk
  | whole _ _ _ before _ _ _ after trunk | cut _ _ _ before _ _ after trunk
  | store _ _ before _ after trunk | overflow _ _ before _ after trunk | alarm _ before after trunk
  | raise _ before after trunk | release _ before after trunk | stopped _ before after trunk =>
      subst trunk
      exact .of_phases before after rfl hspared (by simp) rfl rfl

theorem step_flow (b : Bridge) (t : Trunk) (link : Link) :
    Flow b t link (b.step t link).bridge (b.step t link).trunk := by
  have hpassage := step_passage b t link
  cases hhit : b.hit link with
  | none => exact flow_of_passage hpassage hhit
  | some fault =>
      obtain ⟨c, e⟩ := fault
      obtain ⟨hcall, hfault⟩ := hit_eq_some_iff.mp hhit
      have hfetching : b.phase ≠ .fetching := by
        intro hp
        rw [call?, hp] at hcall
        cases hcall
      refine .fail c e hhit (forth_of_passage hpassage hfetching) ?_ (step_failing t hcall hfault)
      rw [hcall]
      exact sent_of_fault hfault

end

/-! ## Runs -/

/-- The bridge at work, and what goes out. -/
structure Outflow extends Intake where
  /-- The flags of all units. -/
  flags : CancelTable
  /-- The group of flags that is cancelled when the link fails. -/
  dependents : Nat
  /-- What others have done to the flags. -/
  others : List CancelOp := []
  /-- All that has been put in the queue to the link. -/
  submitted : List (List UInt8)
  /-- The frames that the bridge has taken from it. -/
  fetched : List (List UInt8) := []
  /-- All that the link has taken. -/
  written : List UInt8 := []
  /-- The calls on the link that have failed for good. -/
  faults : List (Link.Call × IoError) := []

namespace Outflow

/-- What may happen next. -/
inductive Act where
  | step (link : Link)
  | move (move : Trunk.Move)
  /-- Others make flags and groups, or cancel them. -/
  | flag (op : CancelOp)

/-- The bridge starts, after all this has been done to the flags. -/
def start (trunk : Trunk) (dependents : Nat) (before : List CancelOp) : Outflow where
  trunk
  flags := CancelTable.run {} before
  dependents
  others := before
  submitted := trunk.queues.forth.items

/-- After a step that left bridge and trunk behind like this. With the alarm the
group is cancelled. -/
def served (o : Outflow) (link : Link) (bridge : Bridge) (trunk : Trunk) : Outflow where
  toIntake := o.toIntake.served link bridge trunk
  flags := if trunk.alarm && !o.trunk.alarm then o.flags.step (.cancelAll o.dependents) else o.flags
  dependents := o.dependents
  others := o.others
  submitted := o.submitted
  fetched := o.fetched ++ o.trunk.queues.forth.items.take
    (o.trunk.queues.forth.items.length - trunk.queues.forth.items.length)
  written := o.written ++ link.sent o.bridge.call?
  faults := o.faults ++ (o.bridge.hit link).toList

def apply (o : Outflow) : Act → Outflow
  | .step link =>
    let r := o.bridge.step o.trunk link
    o.served link r.bridge r.trunk
  | .move move =>
    { o with
      toIntake := o.toIntake.apply (.move move)
      submitted := o.submitted ++ o.trunk.submitted move }
  | .flag op => { o with flags := o.flags.step op, others := o.others ++ [op] }

/-- After the first `n` of the acts. -/
def after (o : Outflow) (acts : ℕ → Act) : ℕ → Outflow
  | 0 => o
  | n + 1 => (o.after acts n).apply (acts n)

/-- What is left of the frame whose write is under way or has failed. -/
def unsent (o : Outflow) : List UInt8 :=
  match o.faults with
  | [] => o.bridge.phase.unwritten
  | (.write rest, _) :: _ => rest
  | _ => []

/-- What was written is what was fetched, less the rest of the last frame. -/
structure Sound (o : Outflow) : Prop where
  queue : o.fetched ++ o.trunk.queues.forth.items = o.submitted
  bytes : o.written ++ o.unsent = o.fetched.flatten
  last : o.unsent = [] ∨ ∃ done got, o.fetched = done ++ [got ++ o.unsent]
  faults : o.faults.map Prod.snd = o.bridge.phase.cause?.toList
  /-- Without a failure the bridge has ended only because it was asked to, or
  there was nothing left to write. -/
  ended : o.bridge.phase.ending? = some none → o.trunk.cancelled = true
    ∨ o.trunk.queues.forth.items = [] ∧ o.trunk.queues.forth.senderOpen = false

section

variable {o : Outflow} {b' : Bridge} {t' : Trunk} {link : Link}

theorem unsent_of_no_fault (hfaults : o.faults = []) : o.unsent = o.bridge.phase.unwritten := by
  rw [unsent, hfaults]

/-- A failed call leaves the rest of the frame unsent. -/
theorem Sound.unsent_of_hit (h : o.Sound) (b' : Bridge) (t' : Trunk) {c : Link.Call}
    {e : IoError} (hhit : o.bridge.hit link = some (c, e)) :
    o.faults = [] ∧ (o.served link b' t').unsent = o.unsent := by
  obtain ⟨hcall, -⟩ := hit_eq_some_iff.mp hhit
  have hnone : o.faults = [] := by
    have hfaults := h.faults
    rw [cause?_of_call hcall] at hfaults
    exact List.map_eq_nil_iff.mp hfaults
  refine ⟨hnone, ?_⟩
  have hafter : (o.served link b' t').faults = [(c, e)] := by
    simp [served, hnone, hhit]
  rw [unsent_of_no_fault hnone, unsent, hafter]
  unfold call? at hcall
  split at hcall <;> first
    | (next hp => obtain rfl := Option.some.inj hcall; rw [hp]; rfl)
    | cases hcall

theorem Sound.no_faults (h : o.Sound) (hcause : o.bridge.phase.cause? = none) : o.faults = [] := by
  have hfaults := h.faults
  rw [hcause] at hfaults
  exact List.map_eq_nil_iff.mp hfaults

/-- Without a failure the bridge ends only because it is asked to, or there is nothing
left to write. -/
theorem Sound.ended_served (h : o.Sound) (p : Passage o.bridge o.trunk link b' t')
    (flow : Flow o.bridge o.trunk link b' t') (hend : b'.phase.ending? = some none) :
    t'.cancelled = true ∨ t'.queues.forth.items = [] ∧ t'.queues.forth.senderOpen = false := by
  obtain ⟨hsender, -, hcancelled⟩ := p.far_ends
  have hwhy : o.trunk.cancelled = true
      ∨ o.trunk.queues.forth.items = [] ∧ o.trunk.queues.forth.senderOpen = false := by
    rcases p.ending hend with hbefore | ⟨-, hwhy⟩ | ⟨hsome, -⟩
    · exact h.ended hbefore
    · exact hwhy
    · exact absurd rfl hsome
  rw [hsender, hcancelled]
  refine hwhy.imp_right fun ⟨hnil, hclosed⟩ => ⟨?_, hclosed⟩
  cases flow with
  | fetch raw before items =>
      rw [hnil] at items
      cases items
  | aside _ items | write _ _ _ _ items | fail _ _ _ items => rw [items, hnil]

/-- At most one frame is fetched, with no other one unsent, and what is sent or is left
unsent is what was left of the last frame or is this one. -/
theorem Sound.next (h : o.Sound) (new : List (List UInt8))
    (items : o.trunk.queues.forth.items = new ++ t'.queues.forth.items)
    (one : new = [] ∨ o.unsent = [] ∧ ∃ raw, new = [raw])
    (bytes : link.sent o.bridge.call? ++ (o.served link b' t').unsent = o.unsent ++ new.flatten)
    (faults : (o.served link b' t').faults.map Prod.snd = b'.phase.cause?.toList)
    (ended : b'.phase.ending? = some none →
      t'.cancelled = true ∨ t'.queues.forth.items = [] ∧ t'.queues.forth.senderOpen = false) :
    (o.served link b' t').Sound := by
  have hfetched : (o.served link b' t').fetched = o.fetched ++ new := by
    simp [Outflow.served, items]
  refine ⟨?_, ?_, ?_, faults, ended⟩
  · rw [hfetched, List.append_assoc]
    exact (congrArg (o.fetched ++ ·) items.symm).trans h.queue
  · show o.written ++ link.sent o.bridge.call? ++ (o.served link b' t').unsent = _
    rw [List.append_assoc, bytes, ← List.append_assoc, h.bytes, hfetched, List.flatten_append]
  · rw [hfetched]
    rcases one with rfl | ⟨hnone, raw, rfl⟩
    · rw [List.flatten_nil, List.append_nil] at bytes
      rcases h.last with hnone | ⟨done, got, hlast⟩
      · rw [hnone] at bytes
        exact .inl (List.append_eq_nil_iff.mp bytes).2
      · refine .inr ⟨done, got ++ link.sent o.bridge.call?, ?_⟩
        rw [List.append_assoc, bytes, List.append_nil]
        exact hlast
    · refine .inr ⟨o.fetched, link.sent o.bridge.call?, ?_⟩
      rw [bytes, hnone]
      simp

theorem Sound.served (h : o.Sound) (p : Passage o.bridge o.trunk link b' t')
    (flow : Flow o.bridge o.trunk link b' t') : (o.served link b' t').Sound := by
  have hended := h.ended_served p flow
  cases flow with
  | aside spared items sent unwritten cause =>
      have hfaults : (o.served link b' t').faults = o.faults := by
        simp [Outflow.served, spared]
      have hunsent : (o.served link b' t').unsent = o.unsent := by
        unfold unsent
        rw [hfaults]
        split <;> first | exact unwritten | rfl
      refine h.next [] items.symm (.inl rfl) ?_ ?_ hended
      · rw [sent, hunsent]
        exact (List.append_nil _).symm
      · rw [hfaults, h.faults, cause]
  | fetch raw before items after =>
      have hnone := h.no_faults (by rw [before]; rfl)
      have hspared : o.bridge.hit link = none := hit_of_call (by rw [call?, before])
      have hfaults : (o.served link b' t').faults = [] := by
        simp [Outflow.served, hspared, hnone]
      have hsaved : o.unsent = [] := by
        rw [unsent_of_no_fault hnone, before]
        rfl
      have hunsent : (o.served link b' t').unsent = raw := by
        rw [unsent_of_no_fault hfaults]
        exact (congrArg Phase.unwritten after).trans (Phase.unwritten_toWrite raw)
      refine h.next [raw] items (.inr ⟨hsaved, raw, rfl⟩) ?_ ?_ hended
      · rw [sent_of_not_writing (by simp [before]), hunsent, hsaved]
        simp
      · rw [hfaults, after, cause?_toWrite]
        rfl
  | write rest n before spared items sent after =>
      have hnone := h.no_faults (by rw [before]; rfl)
      have hfaults : (o.served link b' t').faults = [] := by
        simp [Outflow.served, spared, hnone]
      have hrest : o.unsent = rest := by
        rw [unsent_of_no_fault hnone, before]
        rfl
      have hunsent : (o.served link b' t').unsent = rest.drop n := by
        rw [unsent_of_no_fault hfaults]
        exact (congrArg Phase.unwritten after).trans (Phase.unwritten_toWrite _)
      refine h.next [] items.symm (.inl rfl) ?_ ?_ hended
      · rw [sent, hunsent, hrest, List.take_append_drop, List.flatten_nil, List.append_nil]
      · rw [hfaults, after, cause?_toWrite]
        rfl
  | fail c e hhit items sent after =>
      obtain ⟨hnone, hunsent⟩ := h.unsent_of_hit b' t' hhit
      refine h.next [] items.symm (.inl rfl) ?_ ?_ hended
      · rw [sent, hunsent]
        exact (List.append_nil _).symm
      · simp [Outflow.served, hnone, hhit, after, Phase.cause?]

theorem Sound.apply (h : o.Sound) (act : Act) : (o.apply act).Sound := by
  cases act with
  | step link =>
      exact h.served (step_passage o.bridge o.trunk link) (step_flow o.bridge o.trunk link)
  | move move =>
      refine { h with queue := ?_, ended := fun hend => ?_ }
      · show o.fetched ++ (o.trunk.apply move).queues.forth.items = o.submitted ++ _
        rw [o.trunk.forth_apply, ← List.append_assoc, h.queue]
      · rcases h.ended hend with hcancelled | ⟨hnil, hclosed⟩
        · exact .inl ((o.trunk.flags_apply move).2 hcancelled)
        · obtain ⟨hclosed', hitems⟩ := o.trunk.closed_apply move hclosed
          exact .inr ⟨hitems.trans hnil, hclosed'⟩
  | flag op => exact { h with }

theorem Sound.after (h : o.Sound) (acts : ℕ → Act) (n : ℕ) : (o.after acts n).Sound := by
  induction n with
  | zero => exact h
  | succ n ih => exact ih.apply (acts n)

theorem sound_start (trunk : Trunk) (dependents : Nat) (before : List CancelOp) :
    (start trunk dependents before).Sound where
  queue := rfl
  bytes := rfl
  last := .inl rfl
  faults := rfl
  ended := by simp [start, Phase.ending?]

/-! ## The flags -/

/-- These are the flags of the bridge's group. Before the alarm others alone have
used the flags, and the alarm sets all flags of the group. -/
structure Obeyed (cells : List Nat) (o : Outflow) : Prop where
  sound : o.flags.Sound
  existing : o.dependents < o.flags.groups.length
  group : o.flags.members o.dependents = cells
  alarm : o.trunk.alarm = true ↔ ∃ e, o.bridge.phase.ending? = some (some e)
  calm : o.trunk.alarm = false → o.flags = CancelTable.run {} o.others
  raised : o.trunk.alarm = true → ∀ cell ∈ cells, o.flags.isSet cell = true

variable {cells : List Nat}

/-- Others use a flag or a group, but add nothing to the group of the bridge. -/
theorem Obeyed.flag (h : o.Obeyed cells) {op : CancelOp}
    (hop : ∀ flag, op ≠ .add o.dependents flag) : (o.apply (.flag op)).Obeyed cells where
  sound := h.sound.step op
  existing := Nat.lt_of_lt_of_le h.existing (o.flags.groups_le_step op)
  group := (CancelTable.members_step h.existing hop).trans h.group
  alarm := h.alarm
  calm := fun hcalm => by
    show o.flags.step op = CancelTable.run {} (o.others ++ [op])
    rw [h.calm hcalm, CancelTable.run_concat]
  raised := fun hraised cell hcell => CancelTable.isSet_of_isSet op (h.raised hraised cell hcell)

theorem Obeyed.served (h : o.Obeyed cells) (p : Passage o.bridge o.trunk link b' t') :
    (o.served link b' t').Obeyed cells := by
  have halarm := p.alarm_iff h.alarm
  cases hnew : t'.alarm && !o.trunk.alarm with
  | false =>
      have hflags : (o.served link b' t').flags = o.flags := by
        simp [Outflow.served, hnew]
      refine ⟨hflags ▸ h.sound, hflags ▸ h.existing, hflags ▸ h.group, halarm,
        fun (hcalm : t'.alarm = false) => ?_, fun (hraised : t'.alarm = true) => ?_⟩
      · have hbefore : o.trunk.alarm = false := by
          refine Bool.eq_false_iff.mpr fun hbefore => ?_
          rw [p.alarm_of_alarm hbefore] at hcalm
          cases hcalm
        rw [hflags]
        exact h.calm hbefore
      · have hbefore : o.trunk.alarm = true := by simpa [hraised] using hnew
        rw [hflags]
        exact h.raised hbefore
  | true =>
      have hflags : (o.served link b' t').flags = o.flags.step (.cancelAll o.dependents) := by
        simp [Outflow.served, hnew]
      have hcalls : t'.alarm = true := (Bool.and_eq_true_iff.mp hnew).1
      refine ⟨hflags ▸ h.sound.step _, ?_, ?_, halarm, fun (hcalm : t'.alarm = false) => ?_,
        fun _ cell hcell => ?_⟩
      · rw [hflags]
        exact Nat.lt_of_lt_of_le h.existing (o.flags.groups_le_step _)
      · rw [hflags]
        exact (CancelTable.members_step h.existing (by simp)).trans h.group
      · rw [hcalm] at hcalls
        cases hcalls
      · rw [hflags]
        exact h.sound.isSet_cancelAll (h.group ▸ hcell)

theorem Obeyed.apply (h : o.Obeyed cells) {act : Act}
    (howned : ∀ flag, act ≠ .flag (.add o.dependents flag)) : (o.apply act).Obeyed cells := by
  cases act with
  | step link => exact h.served (step_passage o.bridge o.trunk link)
  | move move =>
      have halarm : (o.apply (.move move)).trunk.alarm = o.trunk.alarm :=
        (o.trunk.flags_apply move).1
      refine { h with alarm := ?_, calm := ?_, raised := ?_ }
      · rw [halarm]
        exact h.alarm
      · rw [halarm]
        exact h.calm
      · rw [halarm]
        exact h.raised
  | flag op => exact h.flag fun flag hop => howned flag (hop ▸ rfl)

theorem dependents_after (o : Outflow) (acts : ℕ → Act) (n : ℕ) :
    (o.after acts n).dependents = o.dependents := by
  induction n with
  | zero => rfl
  | succ n ih =>
      rw [← ih, Outflow.after]
      cases acts n <;> rfl

theorem Obeyed.after (h : o.Obeyed cells) {acts : ℕ → Act}
    (howned : ∀ n flag, acts n ≠ .flag (.add o.dependents flag)) (n : ℕ) :
    (o.after acts n).Obeyed cells := by
  induction n with
  | zero => exact h
  | succ n ih =>
      refine ih.apply fun flag => ?_
      rw [dependents_after]
      exact howned n flag

theorem obeyed_start {trunk : Trunk} {dependents : Nat} {before : List CancelOp}
    (halarm : trunk.alarm = false)
    (hgroup : dependents < (CancelTable.run {} before).groups.length) :
    (start trunk dependents before).Obeyed ((CancelTable.run {} before).members dependents) where
  sound := CancelTable.sound_empty.run before
  existing := hgroup
  group := rfl
  alarm := by simp [start, halarm, Phase.ending?]
  calm := fun _ => rfl
  raised := by simp [start, halarm]

end

/-! ## After a failure -/

/-- Nothing more was read, fetched or written, no frame was queued for the router,
and no call has failed. -/
structure Frozen (o o' : Outflow) : Prop where
  heard : o'.heard = o.heard
  pieces : o'.pieces = o.pieces
  fetched : o'.fetched = o.fetched
  written : o'.written = o.written
  faults : o'.faults = o.faults

section

variable {o : Outflow} {acts : ℕ → Act}

/-- With a failure the bridge makes no call on the link and leaves its queues alone. -/
theorem idle_of_cause {b : Bridge} {e : IoError} (t : Trunk) (link : Link)
    (hcause : b.phase.cause? = some e) :
    b.call? = none ∧ (b.step t link).bridge.phase.cause? = some e
      ∧ (b.step t link).trunk.queues.forth.items = t.queues.forth.items
      ∧ (b.step t link).trunk.queues.back.items = t.queues.back.items := by
  cases hp : b.phase with
  | failing e' | alarming e' | stopping failure | stopped failure =>
      rw [hp] at hcause
      rw [call?, step, hp]
      exact ⟨rfl, hcause, rfl, rfl⟩
  | _ =>
      rw [hp] at hcause
      cases hcause

theorem frozen_apply {e : IoError} (hcause : o.bridge.phase.cause? = some e) (act : Act) :
    (o.apply act).bridge.phase.cause? = some e ∧ Frozen o (o.apply act) := by
  cases act with
  | step link =>
      obtain ⟨hcall, hcause', hforth, hback⟩ := idle_of_cause o.trunk link hcause
      have hreading : ∀ got missing, o.bridge.phase ≠ .reading got missing := by
        intro got missing hp
        rw [hp] at hcause
        cases hcause
      refine ⟨hcause', ?_, ?_, ?_, ?_, ?_⟩
      · show o.heard ++ link.received o.bridge.call? = o.heard
        rw [hcall]
        exact List.append_nil _
      · show o.pieces ++ o.toIntake.made link _ _ = o.pieces
        rw [Intake.made, stored_of_items hback, (silent_of_not_reading hreading _).2]
        exact List.append_nil _
      · simp [Outflow.apply, served, hforth]
      · show o.written ++ link.sent o.bridge.call? = o.written
        rw [hcall]
        exact List.append_nil _
      · show o.faults ++ (o.bridge.hit link).toList = o.faults
        rw [hit_of_call hcall]
        exact List.append_nil _
  | move | flag => exact ⟨hcause, rfl, rfl, rfl, rfl, rfl⟩

theorem frozen_after {e : IoError} {n m : ℕ}
    (hcause : (o.after acts n).bridge.phase.cause? = some e) (hle : n ≤ m) :
    (o.after acts m).bridge.phase.cause? = some e ∧ Frozen (o.after acts n) (o.after acts m) := by
  induction hle with
  | refl => exact ⟨hcause, rfl, rfl, rfl, rfl, rfl⟩
  | @step m _ ih =>
      obtain ⟨hcause', hfrozen⟩ := ih
      obtain ⟨hcause'', h⟩ := frozen_apply hcause' (acts m)
      exact ⟨hcause'', h.heard.trans hfrozen.heard, h.pieces.trans hfrozen.pieces,
        h.fetched.trans hfrozen.fetched, h.written.trans hfrozen.written,
        h.faults.trans hfrozen.faults⟩

/-- The steps that are left until the bridge is over, once the link has failed. -/
def stepsLeft : Phase → ℕ
  | .failing _ => 3
  | .alarming _ => 2
  | .stopping _ => 1
  | _ => 0

/-- With a failure each step brings the bridge nearer to its end. -/
theorem stepsLeft_step {b : Bridge} {e : IoError} (t : Trunk) (link : Link)
    (hcause : b.phase.cause? = some e) :
    (b.step t link).bridge.phase = .stopped (some e)
      ∨ stepsLeft (b.step t link).bridge.phase < stepsLeft b.phase := by
  cases hp : b.phase with
  | failing e' | alarming e' =>
      rw [step, hp]
      exact .inr (Nat.lt_succ_self _)
  | stopping failure | stopped failure =>
      rw [hp] at hcause
      obtain rfl : failure = some e := hcause
      rw [step, hp]
      exact .inl rfl
  | _ =>
      rw [hp] at hcause
      cases hcause

/-- A failure ends the bridge. -/
theorem eventually_stopped (hsteps : ∀ n, ∃ m, n ≤ m ∧ ∃ link, acts m = .step link) {e : IoError}
    {n : ℕ} (hcause : (o.after acts n).bridge.phase.cause? = some e) :
    ∃ m, n ≤ m ∧ (o.after acts m).bridge.phase = .stopped (some e) := by
  refine exists_of_rank (fun n => (o.after acts n).bridge.phase.cause? = some e)
    (fun n => (o.after acts n).bridge.phase = .stopped (some e))
    (fun n => stepsLeft (o.after acts n).bridge.phase) hsteps (fun n hwaits => ?_)
    (fun n hwaits => ?_) hcause
  · have hnext := (frozen_apply hwaits (acts n)).1
    rw [Outflow.after]
    cases hact : acts n with
    | step link =>
        rw [hact] at hnext
        rcases stepsLeft_step (o.after acts n).trunk link hwaits with hdone | hlt
        · exact .inl hdone
        · exact .inr ⟨hnext, hlt.le⟩
    | move | flag => exact .inr ⟨hwaits, le_rfl⟩
  · rintro ⟨link, hact⟩
    rw [Outflow.after, hact]
    exact stepsLeft_step (o.after acts n).trunk link hwaits

end

end Outflow

end Bridge

end BoardFlash
