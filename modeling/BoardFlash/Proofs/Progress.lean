import Mathlib.Order.WellFounded

/-!
# What comes about in the end

In a run without end that is seen from time to time, something comes about if
there is a rank that tells how far off it is.
-/

namespace BoardFlash

/-- Something comes about in the end if what may happen never puts it off and some of
it, which happens again and again, brings it nearer. -/
theorem exists_of_rank {α : Type} [LinearOrder α] [WellFoundedLT α] {helps : ℕ → Prop}
    (waits done : ℕ → Prop) (rank : ℕ → α) (hagain : ∀ n, ∃ m, n ≤ m ∧ helps m)
    (hstep : ∀ n, waits n → done (n + 1) ∨ waits (n + 1) ∧ rank (n + 1) ≤ rank n)
    (hhelps : ∀ n, waits n → helps n → done (n + 1) ∨ rank (n + 1) < rank n)
    {n : ℕ} (hn : waits n) : ∃ m, n ≤ m ∧ done m := by
  induction hr : rank n using WellFoundedLT.induction generalizing n with
  | ind r ih =>
      -- Until the next time that helps, nothing makes it worse.
      have hreach : ∀ k, n ≤ k → (∃ j, n ≤ j ∧ done j) ∨ waits k ∧ rank k ≤ rank n := by
        intro k hk
        induction hk with
        | refl => exact .inr ⟨hn, le_rfl⟩
        | @step k hk ihk =>
            rcases ihk with hdone | ⟨hwaits, hle⟩
            · exact .inl hdone
            · rcases hstep k hwaits with hdone | ⟨hwaits', hle'⟩
              · exact .inl ⟨k + 1, Nat.le_succ_of_le hk, hdone⟩
              · exact .inr ⟨hwaits', hle'.trans hle⟩
      obtain ⟨m, hm, hhelp⟩ := hagain n
      rcases hreach m hm with hdone | ⟨hwaits, hle⟩
      · exact hdone
      rcases hstep m hwaits with hdone | ⟨hwaits', -⟩
      · exact ⟨m + 1, Nat.le_succ_of_le hm, hdone⟩
      rcases hhelps m hwaits hhelp with hdone | hlt
      · exact ⟨m + 1, Nat.le_succ_of_le hm, hdone⟩
      obtain ⟨j, hj, hdone⟩ := ih _ (hr ▸ hlt.trans_le hle) hwaits' rfl
      exact ⟨j, (Nat.le_succ_of_le hm).trans hj, hdone⟩

end BoardFlash
