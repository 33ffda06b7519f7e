import BoardFlash.BoardList
import BoardFlash.Proofs.Number.Decimal
import BoardFlash.Proofs.Occurrences
import BoardFlash.Proofs.Text.Trim

/-!
# The ids in a list of boards

A line names a board when it denotes a number from 1 to 255, with nothing but
white space around it (`BoardList.Denotes`, `named?_eq_some_iff`). The ids in a
text are what its lines name, the first occurrence of each (`parse_eq`); so
what a line contributes depends on the lines before it only through the ids that
these have named, and a line that names no board can be left out
(`ids_in_order_of_appearance`).

A text is cut at its line feeds and nowhere else. Carriage returns in front of
them are white space, so it makes no difference that reading takes them off
(`filterMap_linesFrom`), nor that there is no line behind a last line feed.
-/

namespace BoardFlash

namespace Text

/-- Where neither an empty line nor a carriage return at the end of a line
counts, the lines are what stands between the line feeds. -/
theorem filterMap_linesFrom {α β : Type} [DecidableEq α] {cr lf : α} {f : List α → Option β}
    (hempty : f [] = none) (hcr : ∀ line, f (line ++ [cr]) = f line) (line text : List α) :
    (linesFrom cr lf line text).filterMap f
      = ((text.splitOn lf).modifyHead (line.reverse ++ ·)).filterMap f := by
  induction text generalizing line with
  | nil =>
      rw [linesFrom, List.splitOn_nil, List.modifyHead_cons, List.append_nil]
      cases line with
      | nil => rw [List.isEmpty_nil, if_pos rfl, List.reverse_nil, List.filterMap_cons_none hempty]
      | cons a more => rw [List.isEmpty_cons, if_neg nofun]
  | cons a rest ih =>
      rw [linesFrom, List.splitOn_cons_eq_if_modifyHead]
      by_cases ha : a = lf
      · have hended : f (ended cr line) = f line.reverse := by
          unfold ended
          split
          · rfl
          · split
            · next h => rw [h, List.reverse_cons, hcr]
            · rfl
        have hnext : (linesFrom cr lf [] rest).filterMap f = (rest.splitOn lf).filterMap f :=
          (ih []).trans (congrArg _ (congrFun List.modifyHead_id _))
        rw [if_pos ha, if_pos (beq_iff_eq.mpr ha), List.modifyHead_cons, List.append_nil,
          List.filterMap_cons, List.filterMap_cons, hended, hnext]
      · rw [if_neg ha, if_neg (mt beq_iff_eq.mp ha), ih (a :: line), List.modifyHead_modifyHead]
        simp [Function.comp_def]

theorem filterMap_lines {β : Type} {f : List Char → Option β} (hempty : f [] = none)
    (hcr : ∀ line, f (line ++ ['\r']) = f line) (text : List Char) :
    (lines text).filterMap f = (text.splitOn '\n').filterMap f :=
  (filterMap_linesFrom hempty hcr [] text).trans (congrArg _ (congrFun List.modifyHead_id _))

end Text

namespace BoardList

/-! ## What a line names -/

/-- The line is a number `n` with nothing but white space around it. -/
def Denotes (line : List Char) (n : Nat) : Prop :=
  ∃ before number after, line = before ++ number ++ after ∧
    (∀ c ∈ before, Text.isBlank c = true) ∧ (∀ c ∈ after, Text.isBlank c = true) ∧
    Decimal.Denotes number n

/-- The board that the line names. The host is none. -/
def named? (line : List Char) : Option UInt8 :=
  match entry line with
  | .board id => if id = hostId then none else some id
  | _ => none

theorem isBlank_eq_false_of_numeral {c : Char} (h : c = '+' ∨ c.isDigit = true) :
    Text.isBlank c = false := by
  rcases h with rfl | h
  · decide
  · obtain ⟨hlow, hhigh⟩ : 48 ≤ c.toNat ∧ c.toNat ≤ 57 := Char.isDigit_iff_toNat.mp h
    exact Text.isBlank_eq_false_of_printable (by omega) (by omega)

theorem denotes_iff {line : List Char} {n : Nat} :
    Denotes line n ↔ Decimal.Denotes (Text.trim line) n := by
  constructor
  · rintro ⟨before, number, after, rfl, hbefore, hafter, hnumber⟩
    have hsolid : ∀ c ∈ number, Text.isBlank c = false :=
      fun c hc => isBlank_eq_false_of_numeral (hnumber.chars c hc)
    rwa [Text.trim_append_right hafter, Text.trim_append_left hbefore, Text.trim_eq_self hsolid]
  · intro h
    obtain ⟨before, after, hline, hbefore, hafter⟩ := Text.exists_trim line
    exact ⟨before, _, after, hline, hbefore, hafter, h⟩

/-- Neither a blank line nor a comment denotes a number. -/
theorem not_denotes_of_skipped {line : List Char} {n : Nat}
    (h : Text.trim line = [] ∨ (Text.trim line).head? = some '#') : ¬Denotes line n := by
  rw [denotes_iff]
  intro hdenotes
  rcases h with h | h
  · obtain ⟨sign, digits, htext, -, hne, -⟩ := hdenotes
    rw [h] at htext
    exact hne (List.append_eq_nil_iff.mp htext.symm).2
  · rcases hdenotes.chars '#' (List.mem_of_head? h) with hc | hc <;> cases hc

theorem entry_eq_board_iff {line : List Char} {id : UInt8} :
    entry line = .board id ↔ Denotes line id.toNat := by
  unfold entry
  dsimp only
  split
  · next htext => simpa using not_denotes_of_skipped (.inl htext)
  · next rest htext => simpa using not_denotes_of_skipped (.inr (htext ▸ rfl))
  · have hread : ∀ n, Decimal.read (Decimal.largest 8) (Text.trim line) = .ok n
        ↔ Denotes line n ∧ n ≤ 255 := fun n => by
      rw [denotes_iff]
      exact Decimal.read_eq_ok_iff
    have hid : id.toNat ≤ 255 := Nat.le_of_lt_succ id.toNat_lt
    split
    · next fault herror =>
      simp only [reduceCtorEq, false_iff]
      intro hdenotes
      rw [(hread _).mpr ⟨hdenotes, hid⟩] at herror
      cases herror
    · next n hok =>
      obtain ⟨hdenotes, hn⟩ := (hread n).mp hok
      rw [Entry.board.injEq]
      constructor
      · rintro rfl
        rwa [Nat.toUInt8_eq, UInt8.toNat_ofNat_of_lt' (Nat.lt_succ_of_le hn)]
      · intro h
        obtain rfl : n = id.toNat := Except.ok.inj (hok.symm.trans ((hread _).mpr ⟨h, hid⟩))
        exact UInt8.ofNat_toNat

theorem named?_of_board {line : List Char} {id : UInt8} (h : entry line = .board id) :
    named? line = if id = hostId then none else some id := by
  rw [named?, h]

theorem named?_eq_some_iff {line : List Char} {id : UInt8} :
    named? line = some id ↔ id ≠ hostId ∧ Denotes line id.toNat := by
  rw [← entry_eq_board_iff]
  unfold named?
  split
  · next board hentry =>
    rw [hentry, Entry.board.injEq]
    split
    · next hhost =>
      subst hhost
      simpa using Ne.symm
    · next hother =>
      rw [Option.some.injEq]
      exact ⟨fun h => ⟨h ▸ hother, h⟩, And.right⟩
  · next hentry =>
    simp only [reduceCtorEq, false_iff]
    exact fun h => hentry id h.2

theorem named?_congr {line line' : List Char} (h : Text.trim line = Text.trim line') :
    named? line = named? line' := by
  rw [named?, named?, entry, entry, h]

theorem named?_concat_cr (line : List Char) : named? (line ++ ['\r']) = named? line :=
  named?_congr (Text.trim_append_right (List.forall_mem_singleton.mpr (by decide)))

/-! ## What a text names -/

theorem ids_add {r : Reading} {seen : List UInt8} (hids : r.ids = seen.eraseDups) (number : Nat)
    (line : List Char) : (r.add number line).ids = (seen ++ (named? line).toList).eraseDups := by
  have hskip : named? line = none → r.ids = (seen ++ (named? line).toList).eraseDups := fun h => by
    rw [h, Option.toList_none, List.append_nil, hids]
  unfold Reading.add
  split
  · next hentry => exact hskip (by rw [named?, hentry])
  · next text fault hentry => exact hskip (by rw [named?, hentry])
  · next id hentry =>
    split
    · next hhost => exact hskip (by rw [named?_of_board hentry, if_pos hhost])
    · next hboard =>
      have hnamed : named? line = some id := by rw [named?_of_board hentry, if_neg hboard]
      have hlisted : id ∈ r.ids ↔ id ∈ seen := by rw [hids, List.mem_eraseDups]
      rw [hnamed, Option.toList_some, eraseDups_concat, ← hids]
      split
      · next hold =>
        rw [if_pos (hlisted.mp hold), List.append_nil]
        rfl
      · next hnew =>
        rw [if_neg (mt hlisted.mpr hnew)]
        rfl

theorem ids_addAll {r : Reading} {seen : List UInt8} (hids : r.ids = seen.eraseDups)
    (number : Nat) (lines : List (List Char)) :
    (r.addAll number lines).ids = (seen ++ lines.filterMap named?).eraseDups := by
  induction lines generalizing r number seen with
  | nil => rwa [List.filterMap_nil, List.append_nil]
  | cons line rest ih =>
      rw [Reading.addAll, ih (ids_add hids number line), List.append_assoc]
      cases hline : named? line with
      | none => rw [List.filterMap_cons_none hline]; rfl
      | some id => rw [List.filterMap_cons_some hline]; rfl

theorem parse_eq (text : List Char) :
    parse text = ((text.splitOn '\n').filterMap named?).eraseDups := by
  have hblank : named? [] = none := by decide
  have hnothing : ({} : Reading).ids = ([] : List UInt8).eraseDups := rfl
  rw [parse, read, ids_addAll hnothing, List.nil_append, Text.filterMap_lines hblank
    named?_concat_cr]

/-- The second part adds the ids that the first part has not named. -/
theorem parse_append (t u : List Char) :
    parse (t ++ '\n' :: u) = parse t ++ (parse u).filter (· ∉ parse t) := by
  rw [parse_eq t, parse_eq u, parse_eq, List.splitOn_append_cons_self, List.filterMap_append,
    eraseDups_append_eq]

theorem parse_line {line : List Char} (h : '\n' ∉ line) : parse line = (named? line).toList := by
  rw [parse_eq, List.splitOn_eq_singleton h]
  cases hline : named? line with
  | none => rw [List.filterMap_cons_none hline]; rfl
  | some id => rw [List.filterMap_cons_some hline]; rfl

/-- A line that names no board can be left out. -/
theorem parse_of_idle {line : List Char} (hline : parse line = []) (t u : List Char) :
    parse (t ++ '\n' :: (line ++ '\n' :: u)) = parse (t ++ '\n' :: u) := by
  rw [parse_append t, parse_append line, hline, parse_append t]
  simp

/-! ## Ids written one below the other -/

/-- The id as it is written on a line. -/
def digits (id : UInt8) : List Char := (toString id.toNat).toList

theorem digits_eq (id : UInt8) : digits id = Nat.toDigits 10 id.toNat := by
  rw [digits, Nat.toString_eq_repr, Nat.toList_repr]

theorem named?_digits {id : UInt8} (h : id ≠ hostId) : named? (digits id) = some id := by
  refine named?_eq_some_iff.mpr ⟨h, [], digits id, [], ?_, nofun, nofun, ?_⟩
  · rw [List.nil_append, List.append_nil]
  · rw [digits_eq]
    exact Decimal.denotes_toDigits id.toNat

theorem lf_not_mem_digits (id : UInt8) : '\n' ∉ digits id := by
  rw [digits_eq]
  intro h
  cases Nat.isDigit_of_mem_toDigits (by decide) (by decide) h

section

variable {ids : List UInt8} {ending : List Char}

/-- A line with an id that does not stand further below. -/
theorem parse_digits {id : UInt8} {text : List Char} (hboard : id ≠ hostId)
    (hending : ending = ['\n'] ∨ ending = ['\r', '\n']) (hnew : id ∉ parse text) :
    parse (digits id ++ ending ++ text) = id :: parse text := by
  have hline : ∀ line, '\n' ∉ line → named? line = some id →
      parse (line ++ '\n' :: text) = id :: parse text := by
    intro line hlf hnamed
    have hothers : (parse text).filter (· ∉ [id]) = parse text := by
      refine List.filter_eq_self.mpr fun other hmem => ?_
      rw [decide_eq_true_iff, List.mem_singleton]
      rintro rfl
      exact hnew hmem
    rw [parse_append, parse_line hlf, hnamed, Option.toList_some, hothers]
    rfl
  rcases hending with rfl | rfl
  · rw [List.append_assoc]
    exact hline _ (lf_not_mem_digits id) (named?_digits hboard)
  · rw [List.append_assoc]
    refine (congrArg parse ?_).trans
      (hline (digits id ++ ['\r']) ?_ ((named?_concat_cr _).trans (named?_digits hboard)))
    · simp
    · simpa using lf_not_mem_digits id

theorem parse_flatMap (hnodup : ids.Nodup) (hboards : hostId ∉ ids)
    (hending : ending = ['\n'] ∨ ending = ['\r', '\n']) :
    parse (ids.flatMap fun id => digits id ++ ending) = ids := by
  induction ids with
  | nil => rfl
  | cons id rest ih =>
      obtain ⟨hnew, hnodup⟩ := List.nodup_cons.mp hnodup
      obtain ⟨hid, hrest⟩ := List.ne_and_not_mem_of_not_mem_cons hboards
      have hrest := ih hnodup hrest
      rw [List.flatMap_cons, parse_digits hid.symm hending (hrest.symm ▸ hnew), hrest]

theorem parse_intercalate (hnodup : ids.Nodup) (hboards : hostId ∉ ids)
    (hending : ending = ['\n'] ∨ ending = ['\r', '\n']) :
    parse (ending.intercalate (ids.map digits)) = ids := by
  induction ids with
  | nil => rfl
  | cons id rest ih =>
      obtain ⟨hnew, hnodup⟩ := List.nodup_cons.mp hnodup
      obtain ⟨hid, hboards⟩ := List.ne_and_not_mem_of_not_mem_cons hboards
      have hrest := ih hnodup hboards
      cases rest with
      | nil =>
          rw [List.map_singleton, List.intercalate_singleton, parse_line (lf_not_mem_digits id),
            named?_digits hid.symm]
          rfl
      | cons next rest =>
          rw [List.map_cons, List.map_cons, List.intercalate_cons_cons, ← List.map_cons,
            parse_digits hid.symm hending (hrest.symm ▸ hnew), hrest]

end

/-! ## The main result -/

/-- A text is read line by line, and each line names at most one board. What is
found are the ids that the lines name, in the order in which they first appear
and each of them once. A line that names none changes nothing. Ids that are
written one below the other are read back, whatever of the two ends a line. -/
theorem ids_in_order_of_appearance :
    (∀ line id, named? line = some id ↔ id ≠ hostId ∧ Denotes line id.toNat)
    ∧ (∀ text, parse text = ((text.splitOn '\n').filterMap named?).eraseDups
      ∧ (parse text).Nodup)
    ∧ (∀ t u, parse (t ++ '\n' :: u) = parse t ++ (parse u).filter (· ∉ parse t))
    ∧ (∀ line, '\n' ∉ line → (∀ id : UInt8, id ≠ hostId → ¬Denotes line id.toNat) →
      parse line = [] ∧ ∀ t u, parse (t ++ '\n' :: (line ++ '\n' :: u)) = parse (t ++ '\n' :: u))
    ∧ ∀ ids ending, ids.Nodup → hostId ∉ ids → (ending = ['\n'] ∨ ending = ['\r', '\n']) →
      parse (ids.flatMap fun id => digits id ++ ending) = ids
      ∧ parse (ending.intercalate (ids.map digits)) = ids := by
  refine ⟨fun _ _ => named?_eq_some_iff, fun text => ⟨parse_eq text, ?_⟩, parse_append,
    fun line hlf hidle => ?_, fun ids ending hnodup hboards hending =>
      ⟨parse_flatMap hnodup hboards hending, parse_intercalate hnodup hboards hending⟩⟩
  · rw [parse_eq]
    exact nodup_eraseDups _
  · have hnone : named? line = none := by
      refine Option.eq_none_iff_forall_ne_some.mpr fun id hid => ?_
      obtain ⟨hboard, hdenotes⟩ := named?_eq_some_iff.mp hid
      exact hidle id hboard hdenotes
    have hempty : parse line = [] := by rw [parse_line hlf, hnone, Option.toList_none]
    exact ⟨hempty, parse_of_idle hempty⟩

/-- Two boards, in rising and in falling order. -/
theorem two_boards_read_back :
    parse ['2', '0', '0', '\r', '\n', '7', '\r', '\n'] = [200, 7]
    ∧ parse ['7', '\n', '2', '0', '0'] = [7, 200] := by
  obtain ⟨-, -, -, -, hback⟩ := ids_in_order_of_appearance
  exact ⟨(hback [200, 7] ['\r', '\n'] (by decide) (by decide) (.inr rfl)).1,
    (hback [7, 200] ['\n'] (by decide) (by decide) (.inl rfl)).2⟩

end BoardList

end BoardFlash
