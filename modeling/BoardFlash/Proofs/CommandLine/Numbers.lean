import BoardFlash.CommandLine.Run
import BoardFlash.Proofs.Number.Decimal

/-!
# Numbers on the command line

A parameter with a number behind it, as in `--timeout=30`, is read as just that
number, if it is within the range of the parameter (`add_number`, `number_eq_ok`).
-/

namespace BoardFlash

namespace CommandLine

namespace Parameter

theorem ofLong?_long {p : Parameter} {name : String} (h : p.entry.long = some name) :
    ofLong? name = some p := by
  cases p <;> obtain rfl := Option.some.inj h <;> decide

/-- A name can be told from the dashes in front of it and from what follows it. -/
theorem long_chars {p : Parameter} {name : String} (h : p.entry.long = some name) :
    name.toList.head? ≠ some '-' ∧ name.toList ≠ [] ∧ '=' ∉ name.toList := by
  cases p <;> obtain rfl := Option.some.inj h <;> decide

end Parameter

namespace Request

variable (r : Request) {p : Parameter} {name value : String}

theorem give_digits {value : List Char} (hne : value ≠ [])
    (hdigits : ∀ c ∈ value, c.isDigit = true) :
    r.give p ('=' :: value) = .ok { r with values := r.values ++ [(p, String.ofList value)] } := by
  cases value with
  | nil => exact absurd rfl hne
  | cons c rest =>
      have hc : c ≠ '=' := by
        rintro rfl
        cases hdigits '=' (.head _)
      have hvalue : ('=' :: c :: rest).dropWhile (· = '=') = c :: rest := by
        rw [List.dropWhile_cons_of_pos (by simp), List.dropWhile_cons_of_neg (by simpa using hc)]
      rw [give, hvalue]

theorem addLong_eq (hname : p.entry.long = some name) (value : List Char) :
    r.addLong (name.toList ++ '=' :: value) = r.give p ('=' :: value) := by
  obtain ⟨hdash, hne, hequals⟩ := Parameter.long_chars hname
  have hplain : ∀ c ∈ name.toList, decide (c ≠ '=') = true := by
    intro c hc
    rw [decide_eq_true_iff]
    rintro rfl
    exact hequals hc
  have htext : (name.toList ++ '=' :: value).dropWhile (· = '-') = name.toList ++ '=' :: value := by
    cases hchars : name.toList with
    | nil => exact absurd hchars hne
    | cons c rest =>
        rw [hchars, List.head?_cons, ne_eq, Option.some.injEq] at hdash
        exact List.dropWhile_cons_of_neg (by simpa using hdash)
  have hhead : (name.toList ++ '=' :: value).takeWhile (· ≠ '=') = name.toList := by
    rw [List.takeWhile_append_of_pos hplain, List.takeWhile_cons_of_neg (by simp), List.append_nil]
  have htail : (name.toList ++ '=' :: value).dropWhile (· ≠ '=') = '=' :: value := by
    rw [List.dropWhile_append_of_pos hplain, List.dropWhile_cons_of_neg (by simp)]
  rw [addLong, htext, hhead, htail, String.ofList_toList, Parameter.ofLong?_long hname]

theorem add_number (hname : p.entry.long = some name) (n : Nat) :
    r.add ("--" ++ name ++ "=" ++ toString n)
      = .ok { r with values := r.values ++ [(p, toString n)] } := by
  have hchars : ("--" ++ name ++ "=" ++ toString n).toList
      = '-' :: '-' :: (name.toList ++ '=' :: Nat.toDigits 10 n) := by
    simp [String.toList_append, Nat.toString_eq_repr, Nat.toList_repr]
  have hvalue : String.ofList (Nat.toDigits 10 n) = toString n := by
    rw [Nat.toString_eq_repr, ← Nat.toList_repr, String.ofList_toList]
  rw [add, hchars]
  show r.addLong (name.toList ++ '=' :: _) = _
  rw [addLong_eq r hname, give_digits r Nat.toDigits_ne_nil
    fun c hc => Nat.isDigit_of_mem_toDigits (by decide) (by decide) hc, hvalue]

/-- What does not begin with a dash is an operand. -/
theorem add_operand {argument : String} (h : argument.toList.head? ≠ some '-') :
    r.add argument = r.addOperand argument := by
  unfold add
  split
  · next hchars => exact absurd (congrArg List.head? hchars) h
  · rfl
  · next hchars => exact absurd (congrArg List.head? hchars) h
  · rfl

variable {r}

theorem addAll_cons {argument : String} (hargument : argument ≠ "--") {r' : Request}
    (hadd : r.add argument = .ok r') (rest : List String) :
    r.addAll false (argument :: rest) = r'.addAll false rest := by
  simp [addAll, hargument, hadd]

theorem number_eq_ok {bits n : Nat} (hvalue : r.value? p = some (toString n))
    (hn : n ≤ Decimal.largest bits) : r.number bits p = .ok n := by
  have hread : Decimal.read (Decimal.largest bits) (toString n).toList = .ok n := by
    rw [Nat.toString_eq_repr, Nat.toList_repr]
    exact Decimal.read_eq_ok_iff.mpr ⟨Decimal.denotes_toDigits n, hn⟩
  rw [number, hvalue, Option.getD_some, hread]

end Request

end CommandLine

end BoardFlash
