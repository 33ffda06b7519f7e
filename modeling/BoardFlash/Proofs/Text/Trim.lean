import BoardFlash.Text.Blank
import Mathlib.Data.List.DropRight

/-!
# Texts with blank ends

What `Text.dropEndWhile` and `Text.trim` take off a text, and what they leave.
A text is its trimmed self between two blank ones (`exists_trim`), and the
trimmed text does not depend on the blank ends (`trim_append_left`,
`trim_append_right`).
-/

namespace BoardFlash

namespace Text

/-! ## Dropping the end -/

section

variable (p : Char → Bool) (text : List Char)

theorem exists_dropEndWhile :
    ∃ ends, text = dropEndWhile p text ++ ends ∧ ∀ c ∈ ends, p c = true := by
  refine ⟨(text.reverse.takeWhile p).reverse, ?_, fun c hc => ?_⟩
  · rw [dropEndWhile, ← List.reverse_append, List.takeWhile_append_dropWhile, List.reverse_reverse]
  · exact List.mem_takeWhile_imp (List.mem_reverse.mp hc)

variable {p text}

theorem dropEndWhile_append {ends : List Char} (hends : ∀ c ∈ ends, p c = true) :
    dropEndWhile p (text ++ ends) = dropEndWhile p text := by
  unfold dropEndWhile
  rw [List.reverse_append,
    List.dropWhile_append_of_pos fun c hc => hends c (List.mem_reverse.mp hc)]

theorem dropEndWhile_eq_self (hlast : ∀ h : text ≠ [], p (text.getLast h) = false) :
    dropEndWhile p text = text :=
  List.rdropWhile_eq_self_iff.mpr fun h => Bool.eq_false_iff.mp (hlast h)

end

/-! ## Trimming -/

section

variable {text before after : List Char}

theorem trim_append_left (hbefore : ∀ c ∈ before, isBlank c = true) :
    trim (before ++ text) = trim text := by
  rw [trim, trimLeft, List.dropWhile_append_of_pos hbefore]
  rfl

theorem trim_append_right (hafter : ∀ c ∈ after, isBlank c = true) :
    trim (text ++ after) = trim text := by
  unfold trim trimLeft
  rw [List.dropWhile_append]
  split
  · next hblank =>
    have hleft : text.dropWhile isBlank = [] := List.isEmpty_iff.mp hblank
    rw [hleft, List.dropWhile_eq_nil_iff.mpr hafter]
  · exact dropEndWhile_append hafter

theorem trim_eq_self (h : ∀ c ∈ text, isBlank c = false) : trim text = text := by
  have hleft : trimLeft text = text := by
    cases text with
    | nil => rfl
    | cons c rest => exact List.dropWhile_cons_of_neg (Bool.eq_false_iff.mp (h c (.head _)))
  rw [trim, hleft]
  exact dropEndWhile_eq_self fun hne => h _ (List.getLast_mem hne)

theorem exists_trim (text : List Char) :
    ∃ before after, text = before ++ trim text ++ after ∧ (∀ c ∈ before, isBlank c = true) ∧
      ∀ c ∈ after, isBlank c = true := by
  obtain ⟨after, hright, hafter⟩ := exists_dropEndWhile isBlank (trimLeft text)
  refine ⟨text.takeWhile isBlank, after, ?_, fun c => List.mem_takeWhile_imp, hafter⟩
  rw [List.append_assoc]
  exact (List.takeWhile_append_dropWhile (p := isBlank)).symm.trans (congrArg _ hright)

theorem trim_dropEndWhile {p : Char → Bool} (h : ∀ c, p c = true → isBlank c = true)
    (text : List Char) : trim (dropEndWhile p text) = trim text := by
  obtain ⟨ends, htext, hends⟩ := exists_dropEndWhile p text
  conv_rhs => rw [htext]
  exact (trim_append_right fun c hc => h c (hends c hc)).symm

end

/-! ## Characters that are not blank -/

theorem isBlank_eq_false_of_printable {c : Char} (hlow : 0x20 < c.toNat) (hhigh : c.toNat < 0x85) :
    isBlank c = false := by
  simp only [isBlank, covers, blankRanges, List.any_cons, List.any_nil, Bool.or_false,
    Bool.or_eq_false_iff, Bool.and_eq_false_iff, decide_eq_false_iff_not]
  omega

end Text

end BoardFlash
