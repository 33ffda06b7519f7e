import Mathlib.Data.List.Induction
import Mathlib.Data.List.Nodup

/-!
# First occurrences

`List.eraseDups` keeps of each value in a list the first occurrence. What is
kept of a list that grows at its end is decided once and for all, so these
lemmas go by induction from the end.
-/

namespace BoardFlash

theorem eraseDups_concat {α : Type} [BEq α] [LawfulBEq α] [DecidableEq α] (l : List α) (a : α) :
    (l ++ [a]).eraseDups = l.eraseDups ++ if a ∈ l then [] else [a] := by
  rw [List.eraseDups_append]
  by_cases hmem : a ∈ l
  · simp [List.removeAll, hmem]
  · simp [List.removeAll, hmem, List.eraseDups_cons]

section

variable {α : Type} [DecidableEq α]

theorem nodup_eraseDups (l : List α) : l.eraseDups.Nodup := by
  induction l using List.reverseRecOn with
  | nil => exact List.nodup_nil
  | append_singleton l a ih =>
      rw [eraseDups_concat]
      split
      · rwa [List.append_nil]
      · next hnew =>
        rw [← List.concat_eq_append]
        exact ih.concat (mt List.mem_eraseDups.mp hnew)

theorem eraseDups_filter (p : α → Bool) (l : List α) :
    (l.filter p).eraseDups = l.eraseDups.filter p := by
  induction l using List.reverseRecOn with
  | nil => rfl
  | append_singleton l a ih =>
      rw [List.filter_append, eraseDups_concat, List.filter_append, ← ih]
      cases hp : p a with
      | false => by_cases hmem : a ∈ l <;> simp [hp, hmem]
      | true =>
          rw [List.filter_cons_of_pos hp, List.filter_nil, eraseDups_concat]
          by_cases hmem : a ∈ l <;> simp [hp, hmem]

/-- Of the second part only what is not in the first part is kept. -/
theorem eraseDups_append_eq (l k : List α) :
    (l ++ k).eraseDups = l.eraseDups ++ k.eraseDups.filter (· ∉ l.eraseDups) := by
  rw [List.eraseDups_append, List.removeAll, eraseDups_filter]
  congr 2
  funext a
  simp [List.mem_eraseDups]

end

end BoardFlash
