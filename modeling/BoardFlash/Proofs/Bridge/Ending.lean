import BoardFlash.Proofs.Bridge.Passage

/-!
# How the bridge ends

The bridge ends when it is asked to or when its queue is closed, and it ends
when the link fails (`step_failing`), with the alarm raised
(`Passage.ending`). Until it is over it holds on to its queues
(`Passage.near_ends`), and the ends that the router holds it never touches
(`Passage.far_ends`).
-/

namespace BoardFlash

namespace Bridge

/-- The bridge has left its loop, with a failure or without. -/
def Phase.ending? : Phase → Option (Option IoError)
  | .stopping failure | .stopped failure => some failure
  | _ => none

theorem ending?_toWrite (rest : List UInt8) : (Phase.toWrite rest).ending? = none := by
  unfold Phase.toWrite
  split <;> rfl

theorem ending?_of_free {phase : Phase} (h : phase.free = true) : phase.ending? = none := by
  cases phase <;> first | rfl | cases h

theorem ending?_of_call {b : Bridge} {c : Link.Call} (h : b.call? = some c) :
    b.phase.ending? = none := by
  unfold call? at h
  split at h <;> first | (next hp => rw [hp]; rfl) | cases h

section

variable {b b' : Bridge} {t t' : Trunk} {link : Link}

/-- What ends the bridge: it is asked to stop, or nothing is queued for the link
and nothing will be; and if the link has failed, the alarm is raised. -/
theorem Passage.ending (p : Passage b t link b' t') {failure : Option IoError}
    (hend : b'.phase.ending? = some failure) :
    b.phase.ending? = some failure
      ∨ failure = none ∧ (t.cancelled = true
        ∨ t.queues.forth.items = [] ∧ t.queues.forth.senderOpen = false)
      ∨ failure ≠ none ∧ t'.alarm = true := by
  cases p with
  | quiet _ after =>
      rw [ending?_of_free after] at hend
      cases hend
  | fetch _ _ _ _ after | write _ _ _ _ _ after =>
      rw [after, ending?_toWrite] at hend
      cases hend
  | again _ _ call _ _ after =>
      rw [after, ending?_of_call call] at hend
      cases hend
  | start _ _ _ _ after | read _ _ _ _ _ _ after | header _ _ _ _ _ _ _ _ _ after
  | garble _ _ _ _ _ _ _ _ after | whole _ _ _ _ _ _ _ after | cut _ _ _ _ _ _ after
  | store _ _ _ _ after | overflow _ _ _ _ after | fail _ _ _ _ after | alarm _ _ after =>
      rw [after] at hend
      cases hend
  | raise e _ after trunk =>
      rw [after] at hend
      obtain rfl := Option.some.inj hend
      exact .inr (.inr ⟨Option.some_ne_none e, trunk ▸ rfl⟩)
  | stop before after =>
      rw [after] at hend
      obtain rfl := Option.some.inj hend
      refine .inr (.inl ⟨rfl, ?_⟩)
      rcases before with ⟨-, hcancelled⟩ | ⟨-, hclosed⟩
      · exact .inl hcancelled
      · exact .inr (Queue.tryRecv_eq_disconnected_iff.mp hclosed)
  | release failure' before after | stopped failure' before after =>
      rw [after] at hend
      rw [before]
      exact .inl hend

/-- The bridge never touches the ends of its queues that the router holds,
nor its flag. -/
theorem Passage.far_ends (p : Passage b t link b' t') :
    t'.queues.forth.senderOpen = t.queues.forth.senderOpen
      ∧ t'.queues.back.receiverOpen = t.queues.back.receiverOpen
      ∧ t'.cancelled = t.cancelled := by
  cases p with
  | store _ _ _ sent =>
      subst_vars
      obtain ⟨-, -, rfl⟩ := Queue.trySend_eq_ok_iff.mp sent
      exact ⟨rfl, rfl, rfl⟩
  | fetch _ _ _ taken =>
      subst_vars
      refine ⟨?_, rfl, rfl⟩
      rw [(Queue.tryRecv_eq_ok_iff.mp taken).2]
  | _ =>
      subst_vars
      exact ⟨rfl, rfl, rfl⟩

/-- Until it is over the bridge holds on to its own ends. -/
theorem Passage.near_ends (p : Passage b t link b' t') (hgo : b'.isOver = false) :
    t'.queues.forth.receiverOpen = t.queues.forth.receiverOpen
      ∧ t'.queues.back.senderOpen = t.queues.back.senderOpen := by
  cases p with
  | store _ _ _ sent =>
      subst_vars
      obtain ⟨-, -, rfl⟩ := Queue.trySend_eq_ok_iff.mp sent
      exact ⟨rfl, rfl⟩
  | fetch _ _ _ taken =>
      subst_vars
      refine ⟨?_, rfl⟩
      rw [(Queue.tryRecv_eq_ok_iff.mp taken).2]
  | release _ _ after =>
      rw [isOver, after] at hgo
      cases hgo
  | _ =>
      subst_vars
      exact ⟨rfl, rfl⟩

theorem Passage.alarm_of_alarm (p : Passage b t link b' t') (halarm : t.alarm = true) :
    t'.alarm = true := by
  cases p <;> subst_vars <;> first | exact halarm | rfl

/-- The bridge raises the alarm when it ends with a failure, and only then. -/
theorem Passage.alarm_iff (p : Passage b t link b' t')
    (h : t.alarm = true ↔ ∃ e, b.phase.ending? = some (some e)) :
    t'.alarm = true ↔ ∃ e, b'.phase.ending? = some (some e) := by
  constructor
  · intro halarm
    cases p with
    | raise e _ after => exact ⟨e, by rw [after]; rfl⟩
    | quiet before _ trunk =>
        subst trunk
        obtain ⟨e, hend⟩ := h.mp halarm
        rw [ending?_of_free before] at hend
        cases hend
    | again _ _ call _ _ _ trunk | fail _ _ call _ _ trunk =>
        subst trunk
        obtain ⟨e, hend⟩ := h.mp halarm
        rw [ending?_of_call call] at hend
        cases hend
    | stop before _ trunk =>
        subst trunk
        obtain ⟨e, hend⟩ := h.mp halarm
        rcases before with ⟨before, -⟩ | ⟨before, -⟩ <;> rw [before] at hend <;> cases hend
    | release failure before after trunk | stopped failure before after trunk =>
        subst trunk
        obtain ⟨e, hend⟩ := h.mp halarm
        rw [before] at hend
        exact ⟨e, by rw [after]; exact hend⟩
    | start _ before _ _ _ trunk | read _ _ _ before _ _ _ trunk
    | header _ _ _ _ before _ _ _ _ _ trunk | garble _ _ _ before _ _ _ _ _ trunk | whole _ _ _ before _ _ _ _ trunk
    | cut _ _ _ before _ _ _ trunk | store _ _ before _ _ trunk | overflow _ _ before _ _ trunk
    | fetch _ _ before _ _ trunk | write _ _ before _ _ _ trunk | alarm _ before _ trunk =>
        subst trunk
        obtain ⟨e, hend⟩ := h.mp halarm
        rw [before] at hend
        cases hend
  · rintro ⟨e, hend⟩
    rcases p.ending hend with hbefore | ⟨hnone, -⟩ | ⟨-, halarm⟩
    · exact p.alarm_of_alarm (h.mpr ⟨e, hbefore⟩)
    · cases hnone
    · exact halarm

end

theorem isOver_step {b : Bridge} (t : Trunk) (link : Link) (hover : b.isOver = true) :
    (b.step t link).bridge.isOver = true := by
  unfold isOver at hover
  split at hover
  · next hp =>
    rw [step, hp]
    rfl
  · cases hover

/-! ## Failures of the link -/

/-- The steps that the bridge takes to raise the alarm. -/
def Phase.untilAlarm? : Phase → Option Nat
  | .failing _ => some 2
  | .alarming _ => some 1
  | _ => none

/-- A call on the link that fails for good fails the bridge. -/
theorem step_failing {b : Bridge} (t : Trunk) {link : Link} {c : Link.Call} {e : IoError}
    (hcall : b.call? = some c) (hfault : fault? c (link c) = some e) :
    (b.step t link).bridge.phase = .failing e := by
  unfold call? at hcall
  split at hcall
  · next hp =>
    obtain rfl := Option.some.inj hcall
    rw [step, hp]
    cases hreply : link .available with
    | ok n =>
        rw [hreply] at hfault
        cases hfault
    | error e' =>
        rw [hreply] at hfault
        obtain rfl := Option.some.inj hfault
        rfl
  · next got missing hp =>
    obtain rfl := Option.some.inj hcall
    rw [step, hp]
    show (afterRead t got missing ((link (.read missing)).map (·.val))).bridge.phase = _
    cases hreply : link (.read missing) with
    | ok bytes =>
        rw [hreply, fault?, Option.ite_none_right_eq_some] at hfault
        obtain ⟨hnil, heq⟩ := hfault
        rw [Except.map, hnil, ← Option.some.inj heq]
        rfl
    | error e' =>
        rw [hreply, fault?, Option.ite_none_left_eq_some, not_or] at hfault
        obtain ⟨⟨hagain, hquiet⟩, heq⟩ := hfault
        rw [Except.map, afterRead, if_neg hagain, if_neg hquiet, ← Option.some.inj heq]
        rfl
  · next rest hp =>
    obtain rfl := Option.some.inj hcall
    rw [step, hp]
    show (afterWrite t rest ((link (.write rest)).map (·.val))).bridge.phase = _
    cases hreply : link (.write rest) with
    | ok n =>
        rw [hreply, fault?, Option.ite_none_right_eq_some] at hfault
        obtain ⟨hnone, heq⟩ := hfault
        rw [Except.map, hnone, ← Option.some.inj heq]
        rfl
    | error e' =>
        rw [hreply, fault?, Option.ite_none_left_eq_some] at hfault
        obtain ⟨hagain, heq⟩ := hfault
        rw [Except.map, afterWrite, if_neg hagain, ← Option.some.inj heq]
        rfl
  · next hp =>
    obtain rfl := Option.some.inj hcall
    rw [step, hp]
    cases hreply : link .flush with
    | ok _ =>
        rw [hreply] at hfault
        cases hfault
    | error e' =>
        rw [hreply] at hfault
        obtain rfl := Option.some.inj hfault
        rfl
  · cases hcall

theorem step_untilAlarm {b : Bridge} (t : Trunk) (link : Link) {k : Nat}
    (hk : b.phase.untilAlarm? = some k) :
    (b.step t link).trunk.alarm = true
      ∨ (b.step t link).bridge.phase.untilAlarm? = some (k - 1) := by
  unfold Phase.untilAlarm? at hk
  split at hk
  · next e hp =>
    obtain rfl := Option.some.inj hk
    rw [step, hp]
    exact .inr rfl
  · next e hp =>
    rw [step, hp]
    exact .inl rfl
  · cases hk

end Bridge

end BoardFlash
