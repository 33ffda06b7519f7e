import BoardFlash.Cancel

/-!
# Flags and groups

Flags and groups are told apart by the cells that they name, and all of these
exist (`CancelTable.Sound`). What one operation does is said once of each part
of the table: which flags it makes (`flags_step_cases`), which members it gives
to a group (`mem_members_step`) and which cells it sets (`isSet_step`). So no
cell is ever cleared (`isSet_of_isSet`), and a group keeps its members unless a
flag is added to it (`members_step`).
-/

namespace BoardFlash

namespace CancelTable

/-- The cells that exist are the only ones that flags and groups name. -/
structure Sound (t : CancelTable) : Prop where
  flags : ∀ cell ∈ t.flags, cell < t.cells.length
  members : ∀ members ∈ t.groups, ∀ cell ∈ members, cell < t.cells.length

/-- The cells of the members of the group. -/
def members (t : CancelTable) (group : Nat) : List Nat := t.groups.getD group []

/-- The cells that the operation sets. -/
def targets (t : CancelTable) : CancelOp → List Nat
  | .cancel flag => t.flags[flag]?.toList
  | .cancelAll group => t.members group
  | _ => []

theorem sound_empty : Sound {} := ⟨nofun, nofun⟩

theorem length_set (cells : List Bool) (cell : Nat) : (set cells cell).length = cells.length :=
  List.length_set

theorem length_foldl_set (cells : List Bool) (members : List Nat) :
    (members.foldl set cells).length = cells.length := by
  induction members generalizing cells with
  | nil => rfl
  | cons cell members ih => rw [List.foldl_cons, ih, length_set]

theorem getD_set (cells : List Bool) (cell c : Nat) (hc : c < cells.length) :
    (set cells cell).getD c false = (decide (c = cell) || cells.getD c false) := by
  rw [set, List.getD_eq_getElem?_getD, List.getElem?_set, List.getD_eq_getElem?_getD]
  by_cases h : cell = c
  · subst h
    simp [hc]
  · simp [h, Ne.symm h]

theorem getD_foldl_set (cells : List Bool) (members : List Nat) {c : Nat} (hc : c < cells.length) :
    (members.foldl set cells).getD c false = (decide (c ∈ members) || cells.getD c false) := by
  induction members generalizing cells with
  | nil => simp
  | cons cell members ih =>
      rw [List.foldl_cons, ih _ (by rwa [length_set]), getD_set _ _ _ hc]
      by_cases h : c = cell <;> simp [h]

/-- A group that is made is the last one. -/
theorem getD_concat (groups : List (List Nat)) (made : List Nat) (group : Nat) :
    (groups ++ [made]).getD group []
      = if group = groups.length then made else groups.getD group [] := by
  rw [List.getD_eq_getElem?_getD, List.getD_eq_getElem?_getD]
  rcases Nat.lt_trichotomy group groups.length with hlt | rfl | hgt
  · rw [List.getElem?_append_left hlt, if_neg (Nat.ne_of_lt hlt)]
  · simp
  · rw [if_neg (Nat.ne_of_gt hgt), List.getElem?_eq_none (Nat.le_of_lt hgt),
      List.getElem?_eq_none (by simp; omega)]

section

variable {t : CancelTable} {op : CancelOp}

theorem run_concat (t : CancelTable) (ops : List CancelOp) (op : CancelOp) :
    t.run (ops ++ [op]) = (t.run ops).step op := by
  rw [run, run, List.foldl_append]
  rfl

/-! ## What one operation does -/

theorem length_step_of_ne (hop : op ≠ .newFlag) :
    (t.step op).cells.length = t.cells.length := by
  cases op with
  | newFlag => exact absurd rfl hop
  | newGroup => rfl
  | copyFlag flag | copyGroup group | add group flag =>
      simp only [step]
      split <;> rfl
  | cancel flag =>
      simp only [step]
      split
      · exact length_set ..
      · rfl
  | cancelAll group =>
      simp only [step]
      split
      · exact length_foldl_set ..
      · rfl

theorem length_le_step (t : CancelTable) (op : CancelOp) :
    t.cells.length ≤ (t.step op).cells.length := by
  by_cases hop : op = .newFlag
  · subst hop
    simp [step]
  · exact Nat.le_of_eq (length_step_of_ne hop).symm

/-- What a step makes of the flags. -/
theorem flags_step_cases (t : CancelTable) (op : CancelOp) :
    (t.step op).flags = t.flags
    ∨ (op = .newFlag ∧ (t.step op).flags = t.flags ++ [t.cells.length])
    ∨ ∃ flag cell, op = .copyFlag flag ∧ t.flags[flag]? = some cell
      ∧ (t.step op).flags = t.flags ++ [cell] := by
  cases op with
  | newFlag => exact .inr (.inl ⟨rfl, rfl⟩)
  | newGroup => exact .inl rfl
  | copyFlag flag =>
      cases hcell : t.flags[flag]? with
      | none => exact .inl (by simp [step, hcell])
      | some cell => exact .inr (.inr ⟨flag, cell, rfl, hcell, by simp [step, hcell]⟩)
  | cancel flag | copyGroup group | add group flag | cancelAll group =>
      left
      simp only [step]
      split <;> rfl

theorem flags_prefix_step (t : CancelTable) (op : CancelOp) : t.flags <+: (t.step op).flags := by
  rcases t.flags_step_cases op with hsame | ⟨-, hnew⟩ | ⟨_, _, -, -, hcopy⟩
  · exact ⟨[], by rw [List.append_nil, hsame]⟩
  · rw [hnew]
    exact List.prefix_append ..
  · rw [hcopy]
    exact List.prefix_append ..

theorem groups_le_step (t : CancelTable) (op : CancelOp) :
    t.groups.length ≤ (t.step op).groups.length := by
  cases op with
  | newFlag => exact Nat.le_refl _
  | newGroup => simp [step]
  | copyFlag flag | cancel flag | cancelAll group =>
      simp only [step]
      split <;> exact Nat.le_refl _
  | copyGroup group =>
      simp only [step]
      split <;> simp
  | add group flag =>
      simp only [step]
      split <;> simp

/-- A group keeps its members unless a flag is added to it. -/
theorem members_step {group : Nat} (hgroup : group < t.groups.length)
    (hop : ∀ flag, op ≠ .add group flag) : (t.step op).members group = t.members group := by
  cases op with
  | newFlag => rfl
  | newGroup => simp [step, members, List.getD_eq_getElem?_getD, List.getElem?_append, hgroup]
  | copyFlag flag | cancel flag | cancelAll group =>
      simp only [step]
      split <;> rfl
  | copyGroup group =>
      simp only [step]
      split
      · simp [members, List.getD_eq_getElem?_getD, List.getElem?_append, hgroup]
      · rfl
  | add other flag =>
      have hother : other ≠ group := fun h => hop flag (h ▸ rfl)
      simp only [step]
      split
      · simp [members, List.getD_eq_getElem?_getD, hother]
      · rfl

/-- What a step makes of the members of a group. -/
theorem mem_members_step (t : CancelTable) (op : CancelOp) (group cell : Nat) :
    cell ∈ (t.step op).members group ↔ cell ∈ t.members group
      ∨ (∃ flag, op = .add group flag ∧ group < t.groups.length ∧ t.flags[flag]? = some cell)
      ∨ ∃ source, op = .copyGroup source ∧ group = t.groups.length ∧ cell ∈ t.members source := by
  cases op with
  | newFlag => simp [step, members]
  | copyFlag flag | cancel flag =>
      simp only [step]
      split <;> simp [members]
  | cancelAll other =>
      simp only [step]
      split <;> simp [members]
  | newGroup =>
      rw [members, step, getD_concat]
      split
      · next hnew =>
        subst hnew
        simp [members, List.getD_eq_getElem?_getD]
      · simp [members]
  | copyGroup source =>
      cases hsource : t.groups[source]? with
      | none => simp [step, members, hsource, List.getD_eq_getElem?_getD]
      | some made =>
          have hmade : t.members source = made := by
            rw [members, List.getD_eq_getElem?_getD, hsource, Option.getD_some]
          simp only [step, hsource]
          rw [members, getD_concat]
          split
          · next hnew =>
            subst hnew
            simp [members, List.getD_eq_getElem?_getD, ← hmade]
          · next hold => simp [members, hold]
  | add other flag =>
      cases hcell : t.flags[flag]? with
      | none => simp [step, members, hcell]
      | some c =>
          simp only [step, hcell, members, List.getD_eq_getElem?_getD, List.getElem?_modify]
          by_cases hother : other = group
          · subst hother
            cases hold : t.groups[other]? with
            | none =>
                have hgroup := List.getElem?_eq_none_iff.mp hold
                simp [Nat.not_lt.mpr hgroup]
            | some ms =>
                have hgroup := (List.getElem?_eq_some_iff.mp hold).1
                simp [hcell, hgroup, eq_comm]
          · simp [hother]

/-- An operation sets its targets and leaves the other cells as they are. -/
theorem isSet_step (t : CancelTable) (op : CancelOp) {cell : Nat} (hcell : cell < t.cells.length) :
    (t.step op).isSet cell = (decide (cell ∈ t.targets op) || t.isSet cell) := by
  cases op with
  | newFlag => simp [step, isSet, targets, List.getD_eq_getElem?_getD, List.getElem?_append, hcell]
  | newGroup => rfl
  | copyFlag flag =>
      simp only [step, targets]
      split <;> simp [isSet]
  | copyGroup group =>
      simp only [step, targets]
      split <;> simp [isSet]
  | add group flag =>
      simp only [step, targets]
      split <;> simp [isSet]
  | cancel flag =>
      simp only [step, targets]
      split
      · next c hc =>
        simp only [hc, Option.toList_some, List.mem_singleton, isSet]
        exact getD_set _ _ _ hcell
      · next hc => simp [hc]
  | cancelAll group =>
      simp only [step, targets, members]
      split
      · next ms hms =>
        simp only [isSet, List.getD_eq_getElem?_getD, hms, Option.getD_some]
        rw [← List.getD_eq_getElem?_getD, ← List.getD_eq_getElem?_getD,
          getD_foldl_set _ _ hcell]
      · next hms => simp [List.getD_eq_getElem?_getD, hms]

theorem lt_of_isSet {t : CancelTable} {cell : Nat} (hset : t.isSet cell = true) :
    cell < t.cells.length := by
  refine Nat.lt_of_not_le fun hge => ?_
  rw [isSet, List.getD_eq_getElem?_getD, List.getElem?_eq_none hge] at hset
  cases hset

/-- Nothing clears a cell. -/
theorem isSet_of_isSet (op : CancelOp) {cell : Nat} (hset : t.isSet cell = true) :
    (t.step op).isSet cell = true := by
  rw [isSet_step t op (lt_of_isSet hset), hset, Bool.or_true]

/-! ## Only cells that exist are named -/

theorem Sound.lt_of_mem_members (h : t.Sound) {group cell : Nat} (hcell : cell ∈ t.members group) :
    cell < t.cells.length := by
  rw [CancelTable.members, List.getD_eq_getElem?_getD] at hcell
  cases hgroup : t.groups[group]? with
  | some ms =>
      rw [hgroup] at hcell
      exact h.members ms (List.mem_of_getElem? hgroup) cell hcell
  | none =>
      rw [hgroup] at hcell
      cases hcell

theorem flags_step (h : t.Sound) (op : CancelOp) :
    ∀ cell ∈ (t.step op).flags, cell < (t.step op).cells.length := by
  intro cell hcell
  rcases t.flags_step_cases op with hsame | ⟨rfl, hnew⟩ | ⟨flag, c, -, hc, hcopy⟩
  · rw [hsame] at hcell
    exact Nat.lt_of_lt_of_le (h.flags cell hcell) (t.length_le_step op)
  · rw [hnew, List.mem_append, List.mem_singleton] at hcell
    rw [step, List.length_append, List.length_singleton]
    rcases hcell with hold | rfl
    · exact Nat.lt_add_right 1 (h.flags cell hold)
    · exact Nat.lt_succ_self _
  · rw [hcopy, List.mem_append, List.mem_singleton] at hcell
    refine Nat.lt_of_lt_of_le (h.flags cell ?_) (t.length_le_step op)
    rcases hcell with hold | rfl
    · exact hold
    · exact List.mem_of_getElem? hc

theorem Sound.step (h : t.Sound) (op : CancelOp) : (t.step op).Sound := by
  refine ⟨flags_step h op, fun ms hms cell hcell => ?_⟩
  obtain ⟨group, hgroup⟩ := List.mem_iff_getElem?.mp hms
  have hmember : cell ∈ (t.step op).members group := by
    rwa [CancelTable.members, List.getD_eq_getElem?_getD, hgroup]
  refine Nat.lt_of_lt_of_le ?_ (t.length_le_step op)
  rcases (mem_members_step ..).mp hmember with hold | ⟨flag, -, -, hflag⟩ | ⟨source, -, -, hsource⟩
  · exact h.lt_of_mem_members hold
  · exact h.flags cell (List.mem_of_getElem? hflag)
  · exact h.lt_of_mem_members hsource

theorem Sound.run (h : t.Sound) (ops : List CancelOp) : (t.run ops).Sound := by
  induction ops generalizing t with
  | nil => exact h
  | cons op ops ih => exact ih (h.step op)

theorem Sound.lt_of_mem_targets (h : t.Sound) {cell : Nat} (hcell : cell ∈ t.targets op) :
    cell < t.cells.length := by
  cases op with
  | cancel flag => exact h.flags cell (List.mem_of_getElem? (Option.mem_toList.mp hcell))
  | cancelAll group => exact h.lt_of_mem_members hcell
  | newFlag | copyFlag | newGroup | copyGroup | add => cases hcell

/-- A cell is set if it is one of the targets or was set before. -/
theorem Sound.isSet_step_iff (h : t.Sound) (op : CancelOp) (cell : Nat) :
    (t.step op).isSet cell = true ↔ cell ∈ t.targets op ∨ t.isSet cell = true := by
  rcases Nat.lt_or_ge cell t.cells.length with hold | hnew
  · rw [isSet_step t op hold, Bool.or_eq_true, decide_eq_true_eq]
  · refine iff_of_false ?_ ?_
    · intro hset
      have hlt := lt_of_isSet hset
      by_cases hop : op = .newFlag
      · subst hop
        rw [isSet, CancelTable.step, List.getD_eq_getElem?_getD,
          List.getElem?_append_right hnew] at hset
        cases hplace : cell - t.cells.length <;> simp [hplace] at hset
      · rw [length_step_of_ne hop] at hlt
        exact absurd hnew (Nat.not_le.mpr hlt)
    · rintro (htarget | hset)
      · exact absurd hnew (Nat.not_le.mpr (h.lt_of_mem_targets htarget))
      · exact absurd hnew (Nat.not_le.mpr (lt_of_isSet hset))

/-- To cancel a group is to set the flags of all its members. -/
theorem Sound.isSet_cancelAll (h : t.Sound) {group cell : Nat} (hcell : cell ∈ t.members group) :
    (t.step (.cancelAll group)).isSet cell = true :=
  (h.isSet_step_iff _ cell).mpr (.inl hcell)

end

end CancelTable

end BoardFlash
