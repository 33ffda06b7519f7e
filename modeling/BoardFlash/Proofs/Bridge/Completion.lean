import BoardFlash.Proofs.Bridge.Outflow

/-!
# The bridge writes all that is queued

When nothing will be queued for the link any more, each step brings the bridge
nearer to its end unless it is interrupted (`rank_step`): it goes round its loop
once for each frame that is left, and what it reads or writes on the way gets
shorter. So it ends (`eventually_drained`), and by then all has been written.

`written_in_order` is the main result.
-/

namespace BoardFlash

namespace Bridge

namespace Outflow

/-! ## Round the loop -/

/-- How much of a round is left: a round ends with the next fetch. -/
def stage : Phase → ℕ
  | .writing _ => 9
  | .starting | .flushing => 8
  | .resting => 7
  | .checking => 6
  | .polling => 5
  | .reading got _ => if got.length < Frame.headerLength then 4 else 3
  | .storing _ => 2
  | .fetching => 1
  | _ => 0

/-- How many bytes are left to be read or written within a stage. -/
def size : Phase → ℕ
  | .reading _ missing => missing
  | .writing rest => rest.length
  | _ => 0

/-- How far the bridge is from its end with so many frames in its queue. -/
def rankOf (frames : ℕ) (phase : Phase) : ℕ ×ₗ ℕ := toLex (9 * frames + stage phase, size phase)

/-- The second phase is nearer to the next fetch than the first one. -/
def Nearer (phase phase' : Phase) : Prop :=
  stage phase' < stage phase ∨ stage phase' ≤ stage phase ∧ size phase' < size phase

/-- The call of the next step is interrupted. -/
def Interrupted (b : Bridge) (link : Link) : Prop :=
  ∃ c e, b.call? = some c ∧ link c = .error e ∧ e.kind = .interrupted

section

variable {b : Bridge} {t : Trunk} {link : Link}

theorem rankOf_lt {phase phase' : Phase} (frames : ℕ) (hnearer : Nearer phase phase') :
    rankOf frames phase' < rankOf frames phase := by
  rw [rankOf, rankOf, Prod.Lex.toLex_lt_toLex]
  rcases hnearer with hlt | ⟨hle, hlt⟩
  · exact .inl (Nat.add_lt_add_left hlt _)
  · rcases Nat.eq_or_lt_of_le hle with heq | hless
    · exact .inr ⟨by rw [heq], hlt⟩
    · exact .inl (Nat.add_lt_add_left hless _)

theorem stage_toWrite_le (rest : List UInt8) : stage (.toWrite rest) ≤ 9 := by
  cases rest with
  | nil => decide
  | cons byte bytes => exact Nat.le_refl 9

theorem size_toWrite (rest : List UInt8) : size (.toWrite rest) = rest.length := by
  cases rest <;> rfl

theorem le_stage_of_reading (got : List UInt8) (missing : ℕ) :
    3 ≤ stage (.reading got missing) := by
  by_cases hheader : got.length < Frame.headerLength <;> simp [stage, hheader]

/-- A read that does not fail brings something in. -/
theorem length_pos_of_spared {got : List UInt8} {missing : ℕ} (hp : b.phase = .reading got missing)
    {bytes : (Link.Call.read missing).Result} (hreply : link (.read missing) = .ok bytes)
    (hspared : b.hit link = none) : 0 < bytes.val.length := by
  have hfault := fault?_of_spared (c := .read missing) hspared (by rw [call?, hp])
  refine List.length_pos_iff.mpr fun hnil => ?_
  rw [hreply, fault?, if_pos hnil] at hfault
  cases hfault

/-- Between two frames the bridge goes on with its round. -/
theorem nearer_of_free (hfree : b.phase.free = true) (hfetching : b.phase ≠ .fetching)
    (hgoing : t.cancelled = false) (hspared : b.hit link = none) :
    Nearer b.phase (b.step t link).bridge.phase := by
  left
  cases hp : b.phase with
  | starting =>
      rw [step, hp]
      exact Nat.lt_succ_self 7
  | resting =>
      rw [step, hp]
      simp only [hgoing]
      exact Nat.lt_succ_self 6
  | checking =>
      rw [step, hp]
      dsimp only
      split <;> simp [goTo, stage]
  | polling =>
      have hcall : b.call? = some .available := by rw [call?, hp]
      have hfault := fault?_of_spared hspared hcall
      rw [step, hp]
      cases hreply : link .available with
      | ok n =>
          simp only [polled, goTo]
          split <;> simp [stage, Frame.headerLength]
      | error e =>
          rw [hreply] at hfault
          cases hfault
  | flushing =>
      have hcall : b.call? = some .flush := by rw [call?, hp]
      have hfault := fault?_of_spared hspared hcall
      rw [step, hp]
      cases hreply : link .flush with
      | ok done => exact Nat.lt_succ_self 7
      | error e =>
          rw [hreply] at hfault
          cases hfault
  | fetching => exact absurd hp hfetching
  | _ =>
      rw [hp] at hfree
      cases hfree

/-- With a frame in its hands the bridge gets on with it, unless it is interrupted. -/
theorem nearer_of_busy (t : Trunk) (hbusy : b.phase.free = false) (hcause : b.phase.cause? = none)
    (hspared : b.hit link = none) :
    (b.step t link).bridge.phase = .stopped none
      ∨ Nearer b.phase (b.step t link).bridge.phase
      ∨ Interrupted b link ∧ (b.step t link).bridge.phase = b.phase := by
  cases step_passage b t link with
  | read got missing bytes before reply few after =>
      have hpos := length_pos_of_spared before reply hspared
      right; left; right
      rw [before, after]
      simp only [stage, size, List.length_append]
      split <;> split <;> omega
  | header got missing n bytes before reply all complete announced after =>
      have hpos := length_pos_of_spared before reply hspared
      rw [List.length_append] at complete
      right; left; left
      rw [before, after]
      simp only [stage, List.length_append]
      rw [if_neg (by omega), if_pos (by omega)]
      decide
  | whole _ _ _ before _ _ _ after | garble _ _ _ before _ _ _ _ after
  | cut _ _ _ before _ _ after =>
      right; left; left
      rw [before, after]
      exact Nat.lt_of_lt_of_le (by simp [stage]) (le_stage_of_reading _ _)
  | store _ _ before _ after | overflow _ _ before _ after =>
      right; left; left
      rw [before, after]
      exact Nat.lt_succ_self 1
  | write rest n before reply progress after =>
      have hpos := Nat.pos_of_ne_zero progress
      have hle := Nat.le_of_lt_succ n.isLt
      right; left; right
      rw [before, after, size_toWrite, List.length_drop]
      exact ⟨stage_toWrite_le _, Nat.sub_lt (Nat.lt_of_lt_of_le hpos hle) hpos⟩
  | again c e call reply why after => exact .inr (.inr ⟨⟨c, e, call, reply, why⟩, after⟩)
  | fail c e call why =>
      rw [fault?_of_spared hspared call] at why
      cases why
  | alarm _ before | raise _ before =>
      rw [before] at hcause
      cases hcause
  | release failure before after | stopped failure before after =>
      rw [before] at hcause
      obtain rfl : failure = none := hcause
      exact .inl after
  | quiet before =>
      rw [before] at hbusy
      cases hbusy
  | start _ before | fetch _ _ before =>
      rw [before] at hbusy
      cases hbusy
  | stop before =>
      rcases before with ⟨before, -⟩ | ⟨before, -⟩ <;> rw [before] at hbusy <;> cases hbusy

/-- A fetch makes the queue shorter, or it finds that nothing will be queued any more. -/
theorem rank_of_fetching (hp : b.phase = .fetching) (hclosed : t.queues.forth.senderOpen = false) :
    rankOf (b.step t link).trunk.queues.forth.items.length (b.step t link).bridge.phase
      < rankOf t.queues.forth.items.length b.phase := by
  have hstep : b.step t link = fetch t := by rw [step, hp]
  rw [hstep, hp]
  unfold fetch
  split
  · next raw forth htaken =>
    have hlen := congrArg List.length (Queue.tryRecv_eq_ok_iff.mp htaken).1
    have hstage := stage_toWrite_le raw
    rw [rankOf, rankOf, Prod.Lex.toLex_lt_toLex]
    left
    show 9 * forth.items.length + stage (.toWrite raw) < 9 * t.queues.forth.items.length + 1
    rw [List.length_cons] at hlen
    omega
  · next hempty =>
    rw [(Queue.tryRecv_eq_empty_iff.mp hempty).2] at hclosed
    cases hclosed
  · exact rankOf_lt _ (.inl Nat.zero_lt_one)

/-- When nothing will be queued any more each step brings the bridge nearer to its end,
unless it is interrupted. -/
theorem rank_step (hgoing : t.cancelled = false) (hclosed : t.queues.forth.senderOpen = false)
    (hcause : b.phase.cause? = none) (hspared : b.hit link = none) :
    (b.step t link).bridge.phase = .stopped none
      ∨ rankOf (b.step t link).trunk.queues.forth.items.length (b.step t link).bridge.phase
        < rankOf t.queues.forth.items.length b.phase
      ∨ Interrupted b link
        ∧ rankOf (b.step t link).trunk.queues.forth.items.length (b.step t link).bridge.phase
          = rankOf t.queues.forth.items.length b.phase := by
  by_cases hfetching : b.phase = .fetching
  · exact .inr (.inl (rank_of_fetching hfetching hclosed))
  -- Without a fetch the queue stays as it is, and the phase decides.
  rw [forth_of_passage (step_passage b t link) hfetching]
  cases hfree : b.phase.free with
  | true => exact .inr (.inl (rankOf_lt _ (nearer_of_free hfree hfetching hgoing hspared)))
  | false =>
      rcases nearer_of_busy t hfree hcause hspared with hover | hnearer | ⟨hagain, hsame⟩
      · exact .inl hover
      · exact .inr (.inl (rankOf_lt _ hnearer))
      · exact .inr (.inr ⟨hagain, by rw [hsame]⟩)

end

/-! ## Whole runs -/

section

variable {o : Outflow} {acts : ℕ → Act}

/-- The bridge goes on: again and again it makes a step that is not interrupted. -/
def GoesOn (o : Outflow) (acts : ℕ → Act) : Prop :=
  ∀ n, ∃ m, n ≤ m ∧ ∃ link, acts m = .step link ∧ ¬ Interrupted (o.after acts m).bridge link

theorem closed_of_apply (act : Act) (hclosed : o.trunk.queues.forth.senderOpen = false) :
    (o.apply act).trunk.queues.forth.senderOpen = false := by
  cases act with
  | step link => exact (step_passage o.bridge o.trunk link).far_ends.1.trans hclosed
  | move move => exact (o.trunk.closed_apply move hclosed).1
  | flag op => exact hclosed

/-- How far the bridge is from its end. -/
def rank (o : Outflow) : ℕ ×ₗ ℕ := rankOf o.trunk.queues.forth.items.length o.bridge.phase

theorem Sound.rank_apply (h : o.Sound) {link : Link} (hgoing : o.trunk.cancelled = false)
    (hclosed : o.trunk.queues.forth.senderOpen = false)
    (hspared : (o.apply (.step link)).faults = []) :
    (o.apply (.step link)).bridge.phase = .stopped none
      ∨ (o.apply (.step link)).rank < o.rank
      ∨ Interrupted o.bridge link ∧ (o.apply (.step link)).rank = o.rank := by
  obtain ⟨hnone, hhit⟩ := List.append_eq_nil_iff.mp hspared
  have hcause : o.bridge.phase.cause? = none := by
    have hfaults := h.faults
    rw [hnone] at hfaults
    exact Option.toList_eq_nil_iff.mp hfaults.symm
  exact rank_step hgoing hclosed hcause (Option.toList_eq_nil_iff.mp hhit)

/-- A bridge that goes on ends when nothing will be queued any more. -/
theorem Sound.eventually_drained (h : o.Sound) (hgoes : GoesOn o acts)
    (hgoing : ∀ n, (o.after acts n).trunk.cancelled = false)
    (hspared : ∀ n, (o.after acts n).faults = []) {n : ℕ}
    (hclosed : (o.after acts n).trunk.queues.forth.senderOpen = false) :
    ∃ m, n ≤ m ∧ (o.after acts m).bridge.phase = .stopped none := by
  refine exists_of_rank (fun n => (o.after acts n).trunk.queues.forth.senderOpen = false)
    (fun n => (o.after acts n).bridge.phase = .stopped none) (fun n => (o.after acts n).rank)
    hgoes (fun n hwaits => ?_) (fun n hwaits => ?_) hclosed
  · have hstays := closed_of_apply (acts n) hwaits
    have hnone := hspared (n + 1)
    rw [Outflow.after] at hnone ⊢
    cases hact : acts n with
    | step link =>
        rw [hact] at hstays hnone
        rcases (h.after acts n).rank_apply (hgoing n) hwaits hnone with hdone | hlt | ⟨-, hsame⟩
        · exact .inl hdone
        · exact .inr ⟨hstays, hlt.le⟩
        · exact .inr ⟨hstays, hsame.le⟩
    | move move =>
        rw [hact] at hstays
        refine .inr ⟨hstays, le_of_eq ?_⟩
        show rankOf ((o.after acts n).trunk.apply move).queues.forth.items.length _ = _
        rw [((o.after acts n).trunk.closed_apply move hwaits).2]
        rfl
    | flag op => exact .inr ⟨hwaits, le_rfl⟩
  · rintro ⟨link, hact, hgo⟩
    have hnone := hspared (n + 1)
    rw [Outflow.after, hact] at hnone ⊢
    rcases (h.after acts n).rank_apply (hgoing n) hwaits hnone with hdone | hlt | ⟨hagain, -⟩
    · exact .inl hdone
    · exact .inr hlt
    · exact absurd hagain hgo

theorem Sound.unsent_cases (h : o.Sound) : o.unsent = [] ∨ o.bridge.phase = .writing o.unsent
    ∨ ∃ e, o.faults = [(.write o.unsent, e)] := by
  have hone : o.faults.length ≤ 1 := by
    rw [← List.length_map Prod.snd, h.faults]
    cases o.bridge.phase.cause? <;> simp
  cases hfaults : o.faults with
  | nil =>
      rw [unsent_of_no_fault hfaults]
      cases hp : o.bridge.phase with
      | writing rest => exact .inr (.inl rfl)
      | _ => exact .inl rfl
  | cons fault more =>
      rw [hfaults] at hone
      have hnomore : more.length ≤ 0 := Nat.le_of_succ_le_succ hone
      obtain rfl : more = [] := List.length_eq_zero_iff.mp (Nat.le_zero.mp hnomore)
      obtain ⟨c, e⟩ := fault
      rw [unsent, hfaults]
      cases c with
      | write rest => exact .inr (.inr ⟨e, rfl⟩)
      | _ => exact .inl rfl

/-- A frame is written as a whole, unless its write is under way or has failed. -/
theorem Sound.whole (h : o.Sound) : o.written = o.fetched.flatten
    ∨ ∃ done got rest, o.fetched = done ++ [got ++ rest] ∧ o.written = done.flatten ++ got
      ∧ (o.bridge.phase = .writing rest ∨ ∃ e, o.faults = [(.write rest, e)]) := by
  have hbytes := h.bytes
  have hall (hnone : o.unsent = []) : o.written = o.fetched.flatten := by
    rw [hnone, List.append_nil] at hbytes
    exact hbytes
  rcases h.unsent_cases with hnone | hwhere
  · exact .inl (hall hnone)
  · rcases h.last with hnone | ⟨done, got, hlast⟩
    · exact .inl (hall hnone)
    · refine .inr ⟨done, got, o.unsent, hlast, ?_, hwhere⟩
      rw [hlast, List.flatten_append, List.flatten_singleton, ← List.append_assoc] at hbytes
      exact List.append_cancel_right hbytes

/-- A bridge that was not asked to stop and has not failed has written all that was queued. -/
theorem Sound.all_written (h : o.Sound) (hover : o.bridge.phase = .stopped none)
    (hgoing : o.trunk.cancelled = false) : o.written = o.submitted.flatten := by
  have hnone := h.no_faults (by rw [hover]; rfl)
  have hbytes := h.bytes
  rw [unsent_of_no_fault hnone, hover] at hbytes
  rcases h.ended (by rw [hover]; rfl) with hcancelled | ⟨hnil, -⟩
  · rw [hgoing] at hcancelled
    cases hcancelled
  · rw [← h.queue, hnil, List.append_nil, ← hbytes]
    exact (List.append_nil _).symm

theorem Sound.exists_cause (h : o.Sound) (hfaults : o.faults ≠ []) :
    ∃ e, o.bridge.phase.cause? = some e := by
  refine Option.ne_none_iff_exists'.mp fun hcause => ?_
  exact hfaults (h.no_faults hcause)

theorem Sound.prefix_submitted (h : o.Sound) : o.written <+: o.submitted.flatten := by
  rw [← h.queue, List.flatten_append, ← h.bytes, List.append_assoc]
  exact List.prefix_append _ _

/-- The frames that are queued for the link are written in their order, each as a
whole, except the one whose write is under way or has failed; and all of them are
written by the time that the bridge ends, if it was not asked to stop and the link
has not failed. The bridge returns a failure exactly if a call on the link has
failed for good (`fault?`), and then it is that failure. From there on nothing is
read or written and no frame is queued for the router, and when the bridge returns
it has set all the flags of its group. Without a failure the flags are what others
have made of them. A failure does end the bridge, and without one it ends when
nothing will be queued any more, as long as it goes on. -/
theorem written_in_order (trunk : Trunk) (dependents : Nat) (before : List CancelOp)
    (acts : ℕ → Act) (halarm : trunk.alarm = false)
    (hgroup : dependents < (CancelTable.run {} before).groups.length)
    (howned : ∀ n flag, acts n ≠ .flag (.add dependents flag)) :
    let o := (start trunk dependents before).after acts
    (∀ n, (o n).written <+: (o n).submitted.flatten
      ∧ (o n).fetched ++ (o n).trunk.queues.forth.items = (o n).submitted
      ∧ ((o n).written = (o n).fetched.flatten
        ∨ ∃ done got rest, (o n).fetched = done ++ [got ++ rest]
          ∧ (o n).written = done.flatten ++ got
          ∧ ((o n).bridge.phase = .writing rest ∨ ∃ e, (o n).faults = [(.write rest, e)])))
    ∧ (∀ n, (o n).bridge.phase = .stopped none → (o n).trunk.cancelled = false →
      (o n).written = (o n).submitted.flatten)
    ∧ (∀ n failure, (o n).bridge.phase = .stopped failure →
      (o n).faults.map Prod.snd = failure.toList)
    ∧ (∀ n m, (o n).faults ≠ [] → n ≤ m → Frozen (o n) (o m))
    ∧ (∀ n e, (o n).bridge.phase = .stopped (some e) →
      ∀ cell ∈ (CancelTable.run {} before).members dependents, (o n).flags.isSet cell = true)
    ∧ (∀ n, (o n).bridge.phase = .stopped none → (o n).flags = CancelTable.run {} (o n).others)
    ∧ ((∀ n, ∃ m, n ≤ m ∧ ∃ link, acts m = .step link) →
      ∀ n c e, (c, e) ∈ (o n).faults → ∃ m, n ≤ m ∧ (o m).bridge.phase = .stopped (some e))
    ∧ (GoesOn (start trunk dependents before) acts → (∀ n, (o n).trunk.cancelled = false) →
      (∀ n, (o n).faults = []) → ∀ n, (o n).trunk.queues.forth.senderOpen = false →
      ∃ m, n ≤ m ∧ (o m).bridge.phase = .stopped none
        ∧ (o m).written = (o m).submitted.flatten) := by
  intro o
  have hsound (n : ℕ) : (o n).Sound := (sound_start trunk dependents before).after acts n
  have hobeyed (n : ℕ) : (o n).Obeyed ((CancelTable.run {} before).members dependents) :=
    (obeyed_start halarm hgroup).after howned n
  refine ⟨fun n => ⟨(hsound n).prefix_submitted, (hsound n).queue, (hsound n).whole⟩,
    fun n hover hgoing => (hsound n).all_written hover hgoing, fun n failure hover => ?_,
    fun n m hfaults hle => ?_, fun n e hover => ?_, fun n hover => ?_,
    fun hsteps n c e hfault => ?_, fun hgoes hgoing hspared n hclosed => ?_⟩
  · rw [(hsound n).faults, hover]
    rfl
  · obtain ⟨e, hcause⟩ := (hsound n).exists_cause hfaults
    exact (frozen_after hcause hle).2
  · exact (hobeyed n).raised ((hobeyed n).alarm.mpr ⟨e, by rw [hover]; rfl⟩)
  · refine (hobeyed n).calm (Bool.eq_false_iff.mpr fun hraised => ?_)
    obtain ⟨e, hend⟩ := (hobeyed n).alarm.mp hraised
    rw [hover] at hend
    cases hend
  · have hcause : (o n).bridge.phase.cause? = some e := by
      have hmem : e ∈ (o n).faults.map Prod.snd := List.mem_map_of_mem hfault
      rw [(hsound n).faults] at hmem
      exact Option.mem_toList.mp hmem
    exact eventually_stopped hsteps hcause
  · obtain ⟨m, hle, hover⟩ :=
      (sound_start trunk dependents before).eventually_drained hgoes hgoing hspared hclosed
    exact ⟨m, hle, hover, (hsound m).all_written hover (hgoing m)⟩

/-- Two frames are queued, and the link breaks when it has taken one byte of the
second one. Of two flags the second one is in the group of the bridge. -/
theorem second_frame_breaks_off :
    let forth : Queue (List UInt8) := { capacity := 2, items := [[1, 2, 3], [4, 5]] }
    let trunk : Trunk := { queues := ⟨forth, { capacity := 1 }⟩ }
    let before : List CancelOp := [.newFlag, .newFlag, .newGroup, .add 0 1]
    let acts (n : ℕ) : Act :=
      .step (if n < 14 then .offering [] (some 0) else fun _ => .error (.ofKind .brokenPipe))
    let o := (start trunk 0 before).after acts
    trunk.alarm = false ∧ 0 < (CancelTable.run {} before).groups.length
      ∧ (∀ n flag, acts n ≠ .flag (.add 0 flag))
      ∧ (o 18).bridge.phase = .stopped (some (.ofKind .brokenPipe))
      ∧ (o 18).faults = [(.write [5], .ofKind .brokenPipe)]
      ∧ (o 18).flags.isSet 0 = false ∧ (o 18).flags.isSet 1 = true
      ∧ ∀ m, 18 ≤ m → (o m).written = [1, 2, 3, 4] := by
  intro forth trunk before acts o
  have howned : ∀ n flag, acts n ≠ .flag (.add 0 flag) := by simp [acts]
  obtain ⟨-, -, -, hfrozen, hset, -⟩ :=
    written_in_order trunk 0 before acts rfl (by decide) howned
  have hover : (o 18).bridge.phase = .stopped (some (.ofKind .brokenPipe)) := by decide +kernel
  have hfaults : (o 18).faults = [(.write [5], .ofKind .brokenPipe)] := by decide +kernel
  have hwritten : (o 18).written = [1, 2, 3, 4] := by decide +kernel
  refine ⟨rfl, by decide, howned, hover, hfaults, by decide +kernel, hset 18 _ hover 1 (by decide),
    fun m hm => ?_⟩
  exact ((hfrozen 18 m (by rw [hfaults]; simp) hm).written).trans hwritten

end

end Outflow

end Bridge

end BoardFlash
