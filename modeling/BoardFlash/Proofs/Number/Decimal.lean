import BoardFlash.Number.Decimal
import Mathlib.Data.List.Basic

/-!
# What is read as a number

`Decimal.read` goes through a text from the left and stops at the first fault.
Which texts it accepts can be said without that: those that denote a number
(`Decimal.Denotes`) no larger than the limit (`read_eq_ok_iff`). As reading one
more digit never makes a number smaller (`le_ofDigitChars`), it does not matter
that the limit is checked after each digit.
-/

namespace BoardFlash

namespace Decimal

/-- The text is one or more digits, perhaps behind a plus sign, and their value
is `n`. Zeros may lead. -/
def Denotes (text : List Char) (n : Nat) : Prop :=
  ∃ sign digits, text = sign ++ digits ∧ (sign = [] ∨ sign = ['+']) ∧ digits ≠ [] ∧
    (∀ c ∈ digits, c.isDigit = true) ∧ Nat.ofDigitChars 10 digits 0 = n

/-! ## Digit by digit -/

theorem digit?_of_isDigit {c : Char} (h : c.isDigit = true) :
    digit? c = some (c.toNat - '0'.toNat) :=
  if_pos h

theorem digit?_of_not_isDigit {c : Char} (h : c.isDigit = false) : digit? c = none :=
  if_neg (Bool.eq_false_iff.mp h)

theorem le_ofDigitChars (digits : List Char) (n : Nat) : n ≤ Nat.ofDigitChars 10 digits n := by
  induction digits generalizing n with
  | nil => exact Nat.le_refl n
  | cons c rest ih =>
      rw [Nat.ofDigitChars_cons]
      exact Nat.le_trans (by omega) (ih _)

theorem readFrom_eq_ok_iff {limit m : Nat} {digits : List Char} {n : Nat} (hn : n ≤ limit) :
    readFrom limit n digits = .ok m ↔
      (∀ c ∈ digits, c.isDigit = true) ∧ Nat.ofDigitChars 10 digits n = m ∧ m ≤ limit := by
  induction digits generalizing n with
  | nil =>
      rw [readFrom, Nat.ofDigitChars_nil, Except.ok.injEq]
      constructor
      · rintro rfl
        exact ⟨nofun, rfl, hn⟩
      · exact fun h => h.2.1
  | cons c rest ih =>
      rw [readFrom, List.forall_mem_cons, Nat.ofDigitChars_cons, Nat.mul_comm 10 n]
      cases hc : c.isDigit with
      | false => simp [digit?_of_not_isDigit hc]
      | true =>
          rw [digit?_of_isDigit hc]
          dsimp only
          split
          · next hlarge =>
            simp only [reduceCtorEq, false_iff]
            rintro ⟨-, rfl, hm⟩
            exact Nat.not_le.mpr hlarge (Nat.le_trans (le_ofDigitChars rest _) hm)
          · next hfits =>
            rw [ih (Nat.le_of_not_lt hfits)]
            simp

/-! ## Whole texts -/

/-- A plus sign is no digit. -/
theorem ne_plus_of_isDigit {c : Char} (h : c.isDigit = true) : c ≠ '+' := by
  rintro rfl
  cases h

/-- The first character tells whether there is a sign. -/
theorem denotes_plus_iff {rest : List Char} {n : Nat} :
    Denotes ('+' :: rest) n ↔
      rest ≠ [] ∧ (∀ c ∈ rest, c.isDigit = true) ∧ Nat.ofDigitChars 10 rest 0 = n := by
  constructor
  · rintro ⟨sign, digits, htext, rfl | rfl, hne, hdigits, hvalue⟩
    · rw [List.nil_append] at htext
      subst htext
      exact absurd rfl (ne_plus_of_isDigit (hdigits '+' (.head _)))
    · obtain rfl : rest = digits := (List.cons.inj htext).2
      exact ⟨hne, hdigits, hvalue⟩
  · rintro ⟨hne, hdigits, hvalue⟩
    exact ⟨['+'], rest, rfl, .inr rfl, hne, hdigits, hvalue⟩

theorem denotes_iff_of_ne_plus {c : Char} {rest : List Char} {n : Nat} (hc : c ≠ '+') :
    Denotes (c :: rest) n ↔
      (∀ d ∈ c :: rest, d.isDigit = true) ∧ Nat.ofDigitChars 10 (c :: rest) 0 = n := by
  constructor
  · rintro ⟨sign, digits, htext, rfl | rfl, hne, hdigits, hvalue⟩
    · rw [List.nil_append] at htext
      exact htext ▸ ⟨hdigits, hvalue⟩
    · exact absurd (List.cons.inj htext).1 hc
  · rintro ⟨hdigits, hvalue⟩
    exact ⟨[], c :: rest, rfl, .inl rfl, List.cons_ne_nil c rest, hdigits, hvalue⟩

theorem read_eq_ok_iff {limit n : Nat} {text : List Char} :
    read limit text = .ok n ↔ Denotes text n ∧ n ≤ limit := by
  unfold read
  split
  · simp only [reduceCtorEq, false_iff]
    rintro ⟨⟨sign, digits, htext, -, hne, -⟩, -⟩
    exact hne (List.append_eq_nil_iff.mp htext.symm).2
  · simp only [reduceCtorEq, false_iff]
    rintro ⟨hdenotes, -⟩
    exact (denotes_plus_iff.mp hdenotes).1 rfl
  · next rest hne =>
    have hrest : rest ≠ [] := by
      rintro rfl
      exact hne rfl
    rw [readFrom_eq_ok_iff (Nat.zero_le _), denotes_plus_iff]
    simp [hrest, and_assoc]
  · next hempty _ hplus =>
    cases text with
    | nil => exact absurd rfl hempty
    | cons c rest =>
        have hc : c ≠ '+' := by
          rintro rfl
          exact hplus rest rfl
        rw [readFrom_eq_ok_iff (Nat.zero_le _), denotes_iff_of_ne_plus hc, and_assoc]

/-- A number is denoted by its decimal digits. -/
theorem denotes_toDigits (n : Nat) : Denotes (Nat.toDigits 10 n) n :=
  ⟨[], Nat.toDigits 10 n, rfl, .inl rfl, Nat.toDigits_ne_nil,
    fun _ hc => Nat.isDigit_of_mem_toDigits (by decide) (by decide) hc,
    Nat.ofDigitChars_ten_toDigits⟩

/-- The characters that may stand in a number. -/
theorem Denotes.chars {text : List Char} {n : Nat} (h : Denotes text n) :
    ∀ c ∈ text, c = '+' ∨ c.isDigit = true := by
  obtain ⟨sign, digits, rfl, hsign, -, hdigits, -⟩ := h
  intro c hc
  rcases List.mem_append.mp hc with hc | hc
  · rcases hsign with rfl | rfl
    · cases hc
    · exact .inl (List.mem_singleton.mp hc)
  · exact .inr (hdigits c hc)

end Decimal

end BoardFlash
