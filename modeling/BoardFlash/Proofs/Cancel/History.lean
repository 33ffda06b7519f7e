import BoardFlash.Proofs.Cancel
import Mathlib.Data.List.Induction
import Mathlib.Logic.Relation

/-!
# Which flags are set

A flag is set exactly if one of the operations so far cancelled it or a copy of
it, by its name or as a member of a group that was cancelled
(`cancelled_iff_reached`). This is said of the operations, without the table:
which flags are copies of each other (`Copies`), which flags a group has at a
moment (`Contains`) and which flags an operation cancels if it is done at that
moment (`Cancels`).

In the table copies are flags of one cell (`Copies.cell_eq`, `copies_of_cell`),
and a group has the cells of its members (`Contains.exists_cell`,
`exists_contains`). A cell is set if it was the target of an operation
(`isSet_run_iff`), and one that is no member of a group is the same in the end
whether that group was cancelled on the way or not (`AgreeOutside.run`).
-/

namespace BoardFlash

namespace CancelTable

/-! ## Histories

Flags and groups are known by their numbers, in order of creation. An operation on one that
there is not does nothing. -/

/-- What the flag reads after the operations, if there is one of this number. -/
def reading (ops : List CancelOp) (flag : Nat) : Option Bool := (run {} ops).readings[flag]?

/-- How many flags there are if there were so many before the operation. -/
def flagsAfter (flags : Nat) : CancelOp → Nat
  | .newFlag => flags + 1
  | .copyFlag flag => if flag < flags then flags + 1 else flags
  | _ => flags

/-- How many groups there are if there were so many before the operation. -/
def groupsAfter (groups : Nat) : CancelOp → Nat
  | .newGroup => groups + 1
  | .copyGroup group => if group < groups then groups + 1 else groups
  | _ => groups

def flagCount (ops : List CancelOp) : Nat := ops.foldl flagsAfter 0

def groupCount (ops : List CancelOp) : Nat := ops.foldl groupsAfter 0

/-- One of the operations made the first flag as a copy of the second. -/
inductive CopyOf (ops : List CancelOp) : Nat → Nat → Prop
  | made {past : List CancelOp} {flag : Nat} (done : past ++ [.copyFlag flag] <+: ops)
      (known : flag < flagCount past) : CopyOf ops (flagCount past) flag

/-- The flags are copies of each other, by way of any number of copies. -/
def Copies (ops : List CancelOp) : Nat → Nat → Prop := Relation.EqvGen (CopyOf ops)

/-- After the operations the group has the flag as a member. A copy of a group begins with
the members that the group has at that moment. -/
inductive Contains : List CancelOp → Nat → Nat → Prop
  | add {ops : List CancelOp} {group flag : Nat} (known_group : group < groupCount ops)
      (known_flag : flag < flagCount ops) : Contains (ops ++ [.add group flag]) group flag
  | copy {ops : List CancelOp} {group flag : Nat} (member : Contains ops group flag) :
      Contains (ops ++ [.copyGroup group]) (groupCount ops) flag
  | keep {ops : List CancelOp} {group flag : Nat} (member : Contains ops group flag)
      (op : CancelOp) : Contains (ops ++ [op]) group flag

/-- The operation cancels the flag if it is done now, by its name or as a member of a
group. -/
def Cancels (past : List CancelOp) : CancelOp → Nat → Prop
  | .cancel flag, other => other = flag ∧ flag < flagCount past
  | .cancelAll group, other => Contains past group other
  | _, _ => False

/-- One of the operations cancelled the flag, or a flag that is a copy of it by now. -/
def Reached (ops : List CancelOp) (flag : Nat) : Prop :=
  ∃ past op other, past ++ [op] <+: ops ∧ Cancels past op other ∧ Copies ops flag other

/-! ## What a history does -/

section

variable {past ops : List CancelOp}

theorem flags_prefix_run (t : CancelTable) (ops : List CancelOp) :
    t.flags <+: (t.run ops).flags := by
  induction ops generalizing t with
  | nil => exact List.prefix_rfl
  | cons op ops ih => exact (t.flags_prefix_step op).trans (ih (t.step op))

/-- A flag keeps its cell. -/
theorem getElem?_flags_mono (h : past <+: ops) {flag cell : Nat}
    (hcell : (run {} past).flags[flag]? = some cell) : (run {} ops).flags[flag]? = some cell := by
  obtain ⟨more, rfl⟩ := h
  obtain ⟨made, hmade⟩ := flags_prefix_run (run {} past) more
  obtain ⟨hlt, -⟩ := List.getElem?_eq_some_iff.mp hcell
  rw [run, List.foldl_append, ← run, ← run, ← hmade, List.getElem?_append_left hlt, hcell]

theorem length_flags_step (t : CancelTable) (op : CancelOp) :
    (t.step op).flags.length = flagsAfter t.flags.length op := by
  cases op with
  | newFlag => exact List.length_append
  | newGroup => rfl
  | copyFlag flag =>
      simp only [step, flagsAfter]
      split
      · next cell hcell =>
        rw [if_pos (List.getElem?_eq_some_iff.mp hcell).1, List.length_append]
        rfl
      · next hnone => rw [if_neg (Nat.not_lt.mpr (List.getElem?_eq_none_iff.mp hnone))]
  | cancel flag | copyGroup group | add group flag | cancelAll group =>
      simp only [step]
      split <;> rfl

theorem length_groups_step (t : CancelTable) (op : CancelOp) :
    (t.step op).groups.length = groupsAfter t.groups.length op := by
  cases op with
  | newGroup => exact List.length_append
  | newFlag => rfl
  | copyGroup group =>
      simp only [step, groupsAfter]
      split
      · next members hmembers =>
        rw [if_pos (List.getElem?_eq_some_iff.mp hmembers).1, List.length_append]
        rfl
      · next hnone => rw [if_neg (Nat.not_lt.mpr (List.getElem?_eq_none_iff.mp hnone))]
  | add group flag =>
      simp only [step]
      split
      · exact List.length_modify ..
      · rfl
  | copyFlag flag | cancel flag | cancelAll group =>
      simp only [step]
      split <;> rfl

theorem length_flags_run (ops : List CancelOp) : (run {} ops).flags.length = flagCount ops := by
  induction ops using List.reverseRecOn with
  | nil => rfl
  | append_singleton ops op ih =>
      rw [run_concat, length_flags_step, ih, flagCount, flagCount, List.foldl_append]
      rfl

theorem length_groups_run (ops : List CancelOp) : (run {} ops).groups.length = groupCount ops := by
  induction ops using List.reverseRecOn with
  | nil => rfl
  | append_singleton ops op ih =>
      rw [run_concat, length_groups_step, ih, groupCount, groupCount, List.foldl_append]
      rfl

theorem exists_cell_iff {flag : Nat} :
    (∃ cell, (run {} ops).flags[flag]? = some cell) ↔ flag < flagCount ops := by
  rw [← length_flags_run]
  constructor
  · rintro ⟨cell, hcell⟩
    exact (List.getElem?_eq_some_iff.mp hcell).1
  · intro hlt
    exact ⟨_, List.getElem?_eq_getElem hlt⟩

theorem concat_prefix_concat_iff {op last : CancelOp} :
    past ++ [op] <+: ops ++ [last] ↔ (past = ops ∧ op = last) ∨ past ++ [op] <+: ops := by
  rw [List.prefix_concat_iff, List.append_singleton_inj]

/-- A cell is set if it was the target of an operation that was done. -/
theorem isSet_run_iff (ops : List CancelOp) (cell : Nat) :
    (run {} ops).isSet cell = true
      ↔ ∃ past op, past ++ [op] <+: ops ∧ cell ∈ (run {} past).targets op := by
  induction ops using List.reverseRecOn with
  | nil => simp [run, isSet]
  | append_singleton ops last ih =>
      rw [run_concat, (sound_empty.run ops).isSet_step_iff, ih]
      constructor
      · rintro (htarget | ⟨past, op, hdone, htarget⟩)
        · exact ⟨ops, last, List.prefix_rfl, htarget⟩
        · exact ⟨past, op, hdone.trans (List.prefix_append ..), htarget⟩
      · rintro ⟨past, op, hdone, htarget⟩
        rcases concat_prefix_concat_iff.mp hdone with ⟨rfl, rfl⟩ | hbefore
        · exact .inl htarget
        · exact .inr ⟨past, op, hbefore, htarget⟩

/-! ## Copies have one cell -/

theorem CopyOf.exists_cell {copy flag : Nat} (h : CopyOf ops copy flag) :
    ∃ cell, (run {} ops).flags[copy]? = some cell ∧ (run {} ops).flags[flag]? = some cell := by
  obtain @⟨past, flag, done, known⟩ := h
  obtain ⟨cell, hcell⟩ := exists_cell_iff.mpr known
  have hcopy : (run {} (past ++ [.copyFlag flag])).flags = (run {} past).flags ++ [cell] := by
    rw [run_concat]
    simp [step, hcell]
  refine ⟨cell, getElem?_flags_mono done ?_, getElem?_flags_mono ?_ hcell⟩
  · rw [hcopy, ← length_flags_run, List.getElem?_concat_length]
  · exact (List.prefix_append ..).trans done

theorem Copies.cell_eq {flag other : Nat} (h : Copies ops flag other) :
    (run {} ops).flags[flag]? = (run {} ops).flags[other]? := by
  induction h with
  | rel copy flag hcopy =>
      obtain ⟨cell, hc, hf⟩ := hcopy.exists_cell
      rw [hc, hf]
  | refl => rfl
  | symm _ _ _ ih => exact ih.symm
  | trans _ _ _ _ _ ih ih' => exact ih.trans ih'

theorem Copies.mono (h : past <+: ops) {flag other : Nat} (hcopies : Copies past flag other) :
    Copies ops flag other := by
  refine Relation.EqvGen.mono ?_ _ _ hcopies
  rintro _ _ ⟨done, known⟩
  exact .made (done.trans h) known

theorem getElem?_concat_eq_some {l : List Nat} {x i cell : Nat}
    (h : (l ++ [x])[i]? = some cell) : l[i]? = some cell ∨ (i = l.length ∧ cell = x) := by
  rcases Nat.lt_or_ge i l.length with hlt | hge
  · rw [List.getElem?_append_left hlt] at h
    exact .inl h
  · rw [List.getElem?_append_right hge, List.getElem?_singleton] at h
    split at h
    · exact .inr ⟨by omega, (Option.some.inj h).symm⟩
    · cases h

theorem copies_of_cell {flag other cell : Nat} (hflag : (run {} ops).flags[flag]? = some cell)
    (hother : (run {} ops).flags[other]? = some cell) : Copies ops flag other := by
  induction ops using List.reverseRecOn generalizing flag other with
  | nil => cases hflag
  | append_singleton ops op ih =>
      have hbefore : ops <+: ops ++ [op] := List.prefix_append ..
      rw [run_concat] at hflag hother
      rcases (run {} ops).flags_step_cases op with
        hsame | ⟨rfl, hnew⟩ | ⟨source, c, rfl, hsource, hcopy⟩
      · rw [hsame] at hflag hother
        exact (ih hflag hother).mono hbefore
      · -- no flag that was there before has the new cell
        have hfresh {i : Nat} (h : (run {} ops).flags[i]? = some cell) :
            cell ≠ (run {} ops).cells.length :=
          Nat.ne_of_lt ((sound_empty.run ops).flags cell (List.mem_of_getElem? h))
        rw [hnew] at hflag hother
        rcases getElem?_concat_eq_some hflag with hflag | ⟨rfl, hlast⟩ <;>
          rcases getElem?_concat_eq_some hother with hother | ⟨rfl, hlast'⟩
        · exact (ih hflag hother).mono hbefore
        · exact absurd hlast' (hfresh hflag)
        · exact absurd hlast (hfresh hother)
        · exact .refl _
      · have hmade : Copies (ops ++ [.copyFlag source]) (flagCount ops) source :=
          .rel _ _ (.made List.prefix_rfl (exists_cell_iff.mp ⟨c, hsource⟩))
        have hold {i : Nat} (h : ((run {} ops).step (.copyFlag source)).flags[i]? = some cell) :
            ∃ j, (run {} ops).flags[j]? = some cell ∧ Copies (ops ++ [.copyFlag source]) i j := by
          rw [hcopy] at h
          rcases getElem?_concat_eq_some h with h | ⟨rfl, rfl⟩
          · exact ⟨i, h, .refl _⟩
          · rw [length_flags_run]
            exact ⟨source, hsource, hmade⟩
        obtain ⟨i, hi, hflag⟩ := hold hflag
        obtain ⟨j, hj, hother⟩ := hold hother
        exact .trans _ _ _ hflag (.trans _ _ _ ((ih hi hj).mono hbefore) (.symm _ _ hother))

/-! ## Members have cells of the group -/

theorem Contains.exists_cell {group flag : Nat} (h : Contains ops group flag) :
    ∃ cell ∈ (run {} ops).members group, (run {} ops).flags[flag]? = some cell := by
  induction h with
  | add known_group known_flag =>
      obtain ⟨cell, hcell⟩ := exists_cell_iff.mpr known_flag
      refine ⟨cell, ?_, getElem?_flags_mono (List.prefix_append ..) hcell⟩
      rw [← length_groups_run] at known_group
      rw [run_concat]
      exact (mem_members_step ..).mpr (.inr (.inl ⟨_, rfl, known_group, hcell⟩))
  | copy member ih =>
      obtain ⟨cell, hmember, hcell⟩ := ih
      refine ⟨cell, ?_, getElem?_flags_mono (List.prefix_append ..) hcell⟩
      rw [run_concat, ← length_groups_run]
      exact (mem_members_step ..).mpr (.inr (.inr ⟨_, rfl, rfl, hmember⟩))
  | keep member op ih =>
      obtain ⟨cell, hmember, hcell⟩ := ih
      refine ⟨cell, ?_, getElem?_flags_mono (List.prefix_append ..) hcell⟩
      rw [run_concat]
      exact (mem_members_step ..).mpr (.inl hmember)

theorem exists_contains {group cell : Nat} (h : cell ∈ (run {} ops).members group) :
    ∃ flag, Contains ops group flag ∧ (run {} ops).flags[flag]? = some cell := by
  induction ops using List.reverseRecOn generalizing group with
  | nil => simp [run, members] at h
  | append_singleton ops op ih =>
      have hkept {flag : Nat} (hcell : (run {} ops).flags[flag]? = some cell) :
          (run {} (ops ++ [op])).flags[flag]? = some cell :=
        getElem?_flags_mono (List.prefix_append ..) hcell
      rw [run_concat] at h
      rcases (mem_members_step ..).mp h with
        hold | ⟨flag, rfl, hgroup, hcell⟩ | ⟨source, rfl, rfl, hmember⟩
      · obtain ⟨flag, hmember, hcell⟩ := ih hold
        exact ⟨flag, hmember.keep op, hkept hcell⟩
      · rw [length_groups_run] at hgroup
        exact ⟨flag, .add hgroup (exists_cell_iff.mp ⟨cell, hcell⟩), hkept hcell⟩
      · obtain ⟨flag, hmember, hcell⟩ := ih hmember
        rw [length_groups_run]
        exact ⟨flag, hmember.copy, hkept hcell⟩

/-! ## What is cancelled -/

theorem Cancels.exists_cell {op : CancelOp} {flag : Nat} (h : Cancels past op flag) :
    ∃ cell ∈ (run {} past).targets op, (run {} past).flags[flag]? = some cell := by
  cases op with
  | cancel named =>
      obtain ⟨rfl, known⟩ := h
      obtain ⟨cell, hcell⟩ := exists_cell_iff.mpr known
      exact ⟨cell, by simp [targets, hcell], hcell⟩
  | cancelAll group => exact Contains.exists_cell h
  | newFlag | copyFlag | newGroup | copyGroup | add => cases h

theorem exists_cancels {op : CancelOp} {cell : Nat} (h : cell ∈ (run {} past).targets op) :
    ∃ flag, Cancels past op flag ∧ (run {} past).flags[flag]? = some cell := by
  cases op with
  | cancel named =>
      have hcell := Option.mem_toList.mp h
      exact ⟨named, ⟨rfl, exists_cell_iff.mp ⟨cell, hcell⟩⟩, hcell⟩
  | cancelAll group => exact exists_contains h
  | newFlag | copyFlag | newGroup | copyGroup | add => cases h

theorem isSome_reading_iff {flag : Nat} :
    (reading ops flag).isSome = true ↔ flag < flagCount ops := by
  rw [reading, readings, List.getElem?_map, Option.isSome_map, Option.isSome_iff_exists,
    exists_cell_iff]

theorem reading_eq_true_iff {flag : Nat} :
    reading ops flag = some true
      ↔ ∃ cell, (run {} ops).flags[flag]? = some cell ∧ (run {} ops).isSet cell = true := by
  rw [reading, readings, List.getElem?_map, Option.map_eq_some_iff]

theorem reading_eq_true_iff_reached (ops : List CancelOp) (flag : Nat) :
    reading ops flag = some true ↔ Reached ops flag := by
  rw [reading_eq_true_iff]
  constructor
  · rintro ⟨cell, hcell, hset⟩
    obtain ⟨past, op, hdone, htarget⟩ := (isSet_run_iff ops cell).mp hset
    obtain ⟨other, hcancels, hother⟩ := exists_cancels htarget
    have hsame := getElem?_flags_mono ((List.prefix_append ..).trans hdone) hother
    exact ⟨past, op, other, hdone, hcancels, copies_of_cell hcell hsame⟩
  · rintro ⟨past, op, other, hdone, hcancels, hcopies⟩
    obtain ⟨cell, htarget, hother⟩ := hcancels.exists_cell
    have hsame := getElem?_flags_mono ((List.prefix_append ..).trans hdone) hother
    have hset := (isSet_run_iff ops cell).mpr ⟨past, op, hdone, htarget⟩
    exact ⟨cell, hcopies.cell_eq.trans hsame, hset⟩

theorem Reached.mono (h : past <+: ops) {flag : Nat} (hreached : Reached past flag) :
    Reached ops flag := by
  obtain ⟨before, op, other, hdone, hcancels, hcopies⟩ := hreached
  exact ⟨before, op, other, hdone.trans h, hcancels, hcopies.mono h⟩

/-- A flag has no copy in a group exactly if its cell is none of the group's. -/
theorem no_copy_iff (h : past <+: ops) {group flag cell : Nat}
    (hcell : (run {} ops).flags[flag]? = some cell) :
    (∀ other, Contains past group other → ¬ Copies ops flag other)
      ↔ cell ∉ (run {} past).members group := by
  constructor
  · intro hspared hmember
    obtain ⟨other, hcontains, hother⟩ := exists_contains hmember
    exact hspared other hcontains (copies_of_cell hcell (getElem?_flags_mono h hother))
  · intro hout other hcontains hcopies
    obtain ⟨c, hmember, hother⟩ := hcontains.exists_cell
    have hsame := hcopies.cell_eq
    rw [hcell, getElem?_flags_mono h hother] at hsame
    obtain rfl := Option.some.inj hsame
    exact hout hmember

end

/-! ## A group that is not cancelled -/

/-- The tables differ at most in whether these cells are set. -/
structure AgreeOutside (hit : List Nat) (t t' : CancelTable) : Prop where
  flags : t.flags = t'.flags
  groups : t.groups = t'.groups
  length : t.cells.length = t'.cells.length
  isSet : ∀ cell ∉ hit, t.isSet cell = t'.isSet cell

section

variable {hit : List Nat} {t t' : CancelTable}

theorem AgreeOutside.targets_eq (h : AgreeOutside hit t t') (op : CancelOp) :
    t.targets op = t'.targets op := by
  cases op <;> simp [targets, members, h.flags, h.groups]

theorem AgreeOutside.step (h : AgreeOutside hit t t') (ht : t.Sound) (ht' : t'.Sound)
    (op : CancelOp) : AgreeOutside hit (t.step op) (t'.step op) where
  flags := by
    cases op with
    | newFlag => simp only [CancelTable.step, h.flags, h.length]
    | newGroup => exact h.flags
    | copyFlag flag | cancel flag | copyGroup group | add group flag | cancelAll group =>
        simp only [CancelTable.step, h.flags, h.groups]
        split
        · rfl
        · exact h.flags
  groups := by
    cases op with
    | newFlag => exact h.groups
    | newGroup => simp only [CancelTable.step, h.groups]
    | copyFlag flag | cancel flag | copyGroup group | add group flag | cancelAll group =>
        simp only [CancelTable.step, h.flags, h.groups]
        split
        · rfl
        · exact h.groups
  length := by
    by_cases hop : op = .newFlag
    · subst hop
      simp [CancelTable.step, h.length]
    · rw [length_step_of_ne hop, length_step_of_ne hop, h.length]
  isSet := by
    intro cell hcell
    rw [Bool.eq_iff_iff, ht.isSet_step_iff, ht'.isSet_step_iff, h.targets_eq, h.isSet cell hcell]

theorem AgreeOutside.run (h : AgreeOutside hit t t') (ht : t.Sound) (ht' : t'.Sound)
    (ops : List CancelOp) : AgreeOutside hit (t.run ops) (t'.run ops) := by
  induction ops generalizing t t' with
  | nil => exact h
  | cons op ops ih => exact ih (h.step ht ht' op) (ht.step op) (ht'.step op)

theorem Sound.agreeOutside_cancelAll (h : t.Sound) (group : Nat) :
    AgreeOutside (t.members group) (t.step (.cancelAll group)) t where
  flags := by
    simp only [CancelTable.step]
    split <;> rfl
  groups := by
    simp only [CancelTable.step]
    split <;> rfl
  length := length_step_of_ne nofun
  isSet := by
    intro cell hcell
    rw [Bool.eq_iff_iff, h.isSet_step_iff, targets]
    exact or_iff_right hcell

end

/-- What is not a member when a group is cancelled reads as if that had not been done, then and
later on. -/
theorem reading_of_spared {ops more : List CancelOp} {group flag : Nat}
    (hspared : ∀ other, Contains ops group other →
      ¬ Copies (ops ++ .cancelAll group :: more) flag other) :
    reading (ops ++ .cancelAll group :: more) flag = reading (ops ++ more) flag := by
  have hsound := sound_empty.run ops
  have hagree := (hsound.agreeOutside_cancelAll group).run (hsound.step _) hsound more
  have hwith : run {} (ops ++ .cancelAll group :: more)
      = ((run {} ops).step (.cancelAll group)).run more := List.foldl_append
  have hwithout : run {} (ops ++ more) = (run {} ops).run more := List.foldl_append
  rw [reading, reading, readings, readings, List.getElem?_map, List.getElem?_map, hwith, hwithout,
    hagree.flags]
  cases hcell : ((run {} ops).run more).flags[flag]? with
  | none => rfl
  | some cell =>
      have hhere : (run {} (ops ++ .cancelAll group :: more)).flags[flag]? = some cell := by
        rw [hwith, hagree.flags, hcell]
      have hout := (no_copy_iff (List.prefix_append ..) hhere).mp hspared
      exact congrArg some (hagree.isSet cell hout)

theorem reading_add (ops : List CancelOp) (group flag other : Nat) :
    reading (ops ++ [.add group flag]) other = reading ops other := by
  have hsame : ((run {} ops).step (.add group flag)).readings = (run {} ops).readings := by
    simp only [step]
    split <;> rfl
  rw [reading, reading, run_concat, hsame]

/-- After any operations a flag is set exactly if one of them cancelled it or a copy of it. So
a flag that is set stays set, flags outside a group are untouched when it is cancelled, and so
are those that are added to it later on. -/
theorem cancelled_iff_reached :
    (∀ ops flag, ((reading ops flag).isSome = true ↔ flag < flagCount ops)
      ∧ (reading ops flag = some true ↔ Reached ops flag))
    ∧ (∀ ops more flag, reading ops flag = some true → reading (ops ++ more) flag = some true)
    ∧ (∀ ops group more flag, (∀ other, Contains ops group other →
        ¬ Copies (ops ++ .cancelAll group :: more) flag other) →
      reading (ops ++ .cancelAll group :: more) flag = reading (ops ++ more) flag)
    ∧ ∀ ops group more flag, (∀ other, Contains ops group other →
        ¬ Copies (ops ++ .cancelAll group :: more) flag other) →
      reading (ops ++ .cancelAll group :: more ++ [.add group flag]) flag
        = reading (ops ++ more) flag := by
  refine ⟨fun ops flag => ⟨isSome_reading_iff, reading_eq_true_iff_reached ops flag⟩,
    fun ops more flag hset => ?_,
    fun ops group more flag => reading_of_spared, fun ops group more flag hspared => ?_⟩
  · rw [reading_eq_true_iff_reached] at hset ⊢
    exact hset.mono (List.prefix_append ..)
  · rw [reading_add]
    exact reading_of_spared hspared

/-- The first of two flags is in a group that is copied and cancelled by way of the copy. It is
set then, and so is a copy that is made of it afterwards, whatever else is done. The second flag
is added to the group when it is too late. -/
theorem late_member_spared :
    let ops : List CancelOp := [.newFlag, .newFlag, .newGroup, .add 0 0, .copyGroup 0]
    let more : List CancelOp := [.copyFlag 0]
    (reading (ops ++ .cancelAll 1 :: more) 2 = some true
      ∧ reading (ops ++ .cancelAll 1 :: more ++ [.newFlag, .cancel 3]) 2 = some true)
    ∧ (∀ other, Contains ops 1 other → ¬ Copies (ops ++ .cancelAll 1 :: more) 1 other)
    ∧ reading (ops ++ .cancelAll 1 :: more ++ [.add 1 1]) 1 = some false := by
  intro ops more
  have hset : reading (ops ++ .cancelAll 1 :: more) 2 = some true := rfl
  have hcell : (run {} (ops ++ .cancelAll 1 :: more)).flags[1]? = some 1 := rfl
  have hspared := (no_copy_iff (List.prefix_append ..) hcell).mpr
    (show 1 ∉ (run {} ops).members 1 by decide)
  obtain ⟨-, hstays, -, hlate⟩ := cancelled_iff_reached
  exact ⟨⟨hset, hstays _ [.newFlag, .cancel 3] 2 hset⟩, hspared, hlate ops 1 more 1 hspared⟩

end CancelTable

end BoardFlash
