import BoardFlash.Console.Machine
import BoardFlash.Proofs.Text.Trim

/-!
# The steps of the console

`Console.Course` lists what a step of the console can be: in which phase it is
taken, under which condition, and all that it leaves behind. `step_course` is the
inversion of `Console.step` in these terms.

A line is looked at in two ways. What ends it, carriage returns and line feeds, is
taken off before it is sent (`bare`), and all white space around it does not count
when it is compared with the line that ends the console. As the first are white
space themselves, the order does not matter (`isEnd_eq_true_iff`). Whatever is
typed, there is a frame for it (`exists_lineFrame`).
-/

namespace BoardFlash

namespace Console

/-! ## Lines -/

theorem isEnd_eq_true_iff {line : List Char} : isEnd line = true ↔ Text.trim line = endLine := by
  rw [isEnd, beq_iff_eq, bare, Text.trim_dropEndWhile]
  intro c hc
  rw [Bool.or_eq_true, beq_iff_eq, beq_iff_eq] at hc
  rcases hc with rfl | rfl
  · decide
  · decide

/-- What a step of the console can be. -/
inductive Course (c : Console) (d : Desk) (r : Reaction) : Prop where
  | start (phase : c.phase = .starting)
      (result : r = ⟨{ c with phase := .resting }, d, some (.started c.target)⟩)
  | stop (phase : c.phase = .resting) (flag : d.cancelled = true)
      (result : r = ⟨{ c with phase := .stopped }, d.release, some .stopped⟩)
  | resume (phase : c.phase = .resting) (free : d.cancelled = false)
      (result : r = ⟨{ c with phase := .reading }, d, none⟩)
  | take (line : List Char) (lines : Queue (List Char)) (phase : c.phase = .reading)
      (isOpen : c.inputOpen = true) (taken : d.lines.tryRecv = .ok (line, lines))
      (result : r = ⟨{ c with phase := .judging line }, { d with lines }, none⟩)
  /-- There is nothing to read, or nobody to read from any more. -/
  | skip (phase : c.phase = .reading)
      (nothing : c.inputOpen = false ∨ d.lines.items = [] ∧ d.lines.senderOpen = true)
      (result : r = ⟨{ c with phase := .showing }, d, none⟩)
  | exhaust (phase : c.phase = .reading) (isOpen : c.inputOpen = true)
      (empty : d.lines.items = []) (closed : d.lines.senderOpen = false)
      (result : r = ⟨{ c with inputOpen := false, phase := .leaving }, d, some .inputEnded⟩)
  | heed (line : List Char) (phase : c.phase = .judging line) (final : isEnd line = true)
      (result : r = ⟨{ c with phase := .leaving }, d, some .endedByOperator⟩)
  | discard (line : List Char) (phase : c.phase = .judging line) (plain : isEnd line = false)
      (target : c.target = none)
      (result : r = ⟨{ c with phase := .showing }, d, some .noTarget⟩)
  | address (line : List Char) (target : UInt8) (notice : Option Notice)
      (phase : c.phase = .judging line) (plain : isEnd line = false)
      (target_eq : c.target = some target)
      (result : r = ⟨{ c with phase := .queueing (lineFrame target line) }, d, notice⟩)
  | send (frame : Frame) (forth : Queue Frame) (phase : c.phase = .queueing frame)
      (sent : d.queues.forth.trySend frame = .ok forth)
      (result : r = ⟨{ c with phase := .showing },
        { d with queues := { d.queues with forth } }, none⟩)
  | drop (frame : Frame) (why : SendRefusal) (notice : Notice) (phase : c.phase = .queueing frame)
      (refused : d.queues.forth.trySend frame = .error why)
      (result : r = ⟨{ c with phase := .showing }, d, some notice⟩)
  | leave (phase : c.phase = .leaving)
      (result : r = ⟨{ c with phase := .showing }, { d with cancelled := true }, none⟩)
  /-- At most one frame is taken and shown. -/
  | display (inboundOpen : Bool) (back : Queue Frame) (notice : Option Notice)
      (phase : c.phase = .showing)
      (one : back = d.queues.back ∧ notice = none
        ∨ ∃ frame, d.queues.back.tryRecv = .ok (frame, back) ∧ notice = some (.shown frame))
      (result : r = ⟨{ c with inboundOpen, phase := .diagnosing },
        { d with queues := { d.queues with back } }, notice⟩)
  /-- At most one diagnostic is taken and shown. -/
  | diagnose (diagnosticsOpen : Bool) (diagnostics : Option (Queue Diagnostic))
      (notice : Option Notice) (phase : c.phase = .diagnosing)
      (one : diagnostics = d.diagnostics ∧ notice = none
        ∨ ∃ q q' diagnostic, d.diagnostics = some q ∧ q.tryRecv = .ok (diagnostic, q')
          ∧ diagnostics = some q' ∧ notice = some (.diagnosed diagnostic))
      (result : r = ⟨{ c with diagnosticsOpen, phase := .resting }, { d with diagnostics },
        notice⟩)
  | idle (phase : c.phase = .stopped) (result : r = ⟨c, d, none⟩)

section

variable {c : Console} {d : Desk}

theorem read_course (hp : c.phase = .reading) : Course c d (c.read d) := by
  unfold read
  split
  · next hclosed =>
    rw [Bool.not_eq_true'] at hclosed
    exact .skip hp (.inl hclosed) rfl
  · next hopen =>
    rw [Bool.not_eq_true', Bool.not_eq_false] at hopen
    split
    · next line lines htaken => exact .take line lines hp hopen htaken rfl
    · next hnothing => exact .skip hp (.inr (Queue.tryRecv_eq_empty_iff.mp hnothing)) rfl
    · next hnothing =>
      obtain ⟨hempty, hclosed⟩ := Queue.tryRecv_eq_disconnected_iff.mp hnothing
      exact .exhaust hp hopen hempty hclosed rfl

theorem judge_course {line : List Char} (hp : c.phase = .judging line) :
    Course c d (c.judge d line) := by
  unfold judge
  split
  · next hfinal => exact .heed line hp hfinal rfl
  · next hplain =>
    have hplain : isEnd line = false := Bool.eq_false_iff.mpr hplain
    split
    · next htarget => exact .discard line hp hplain htarget rfl
    · next target htarget => exact .address line target _ hp hplain htarget rfl

theorem queue_course {frame : Frame} (hp : c.phase = .queueing frame) :
    Course c d (c.queue d frame) := by
  unfold queue
  split
  · next forth hsent => exact .send frame forth hp hsent rfl
  · next hrefused => exact .drop frame .full .noRoom hp hrefused rfl
  · next hrefused => exact .drop frame .disconnected .routerGone hp hrefused rfl

theorem display_course (hp : c.phase = .showing) : Course c d (c.display d) := by
  unfold display
  split
  · exact .display c.inboundOpen d.queues.back none hp (.inl ⟨rfl, rfl⟩) rfl
  · split
    · next frame back htaken =>
      exact .display c.inboundOpen back _ hp (.inr ⟨frame, htaken, rfl⟩) rfl
    · exact .display c.inboundOpen d.queues.back none hp (.inl ⟨rfl, rfl⟩) rfl
    · exact .display false d.queues.back none hp (.inl ⟨rfl, rfl⟩) rfl

theorem diagnose_course (hp : c.phase = .diagnosing) : Course c d (c.diagnose d) := by
  unfold diagnose
  split
  · exact .diagnose c.diagnosticsOpen d.diagnostics none hp (.inl ⟨rfl, rfl⟩) rfl
  · next q hq =>
    split
    · exact .diagnose c.diagnosticsOpen d.diagnostics none hp (.inl ⟨rfl, rfl⟩) rfl
    · split
      · next diagnostic q' htaken =>
        exact .diagnose c.diagnosticsOpen (some q') _ hp
          (.inr ⟨q, q', diagnostic, hq, htaken, rfl, rfl⟩) rfl
      · exact .diagnose c.diagnosticsOpen d.diagnostics none hp (.inl ⟨rfl, rfl⟩) rfl
      · exact .diagnose false d.diagnostics none hp (.inl ⟨rfl, rfl⟩) rfl

variable (c d)

theorem step_course : Course c d (c.step d) := by
  unfold step
  split
  · next hp => exact .start hp rfl
  · next hp =>
    split
    · next hflag => exact .stop hp hflag rfl
    · next hfree => exact .resume hp (Bool.eq_false_iff.mpr hfree) rfl
  · next hp => exact read_course hp
  · next line hp => exact judge_course hp
  · next frame hp => exact queue_course hp
  · next hp => exact .leave hp rfl
  · next hp => exact display_course hp
  · next hp => exact diagnose_course hp
  · next hp =>
    refine .idle hp ?_
    rw [goTo, ← hp]

end

end Console

end BoardFlash
