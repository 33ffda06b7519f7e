import BoardFlash.Proofs.Console.Course

/-!
# What becomes of the lines that are typed

A `Transcript` is the console with its desk and what an observer keeps of them: the
lines that were typed, those that the console has read, how the outbound queue
looked whenever the console tried to put a frame there, and the frames that it
did put there. Between any two steps of the console others may do anything to the
desk that they can (`Desk.Move`).

Each line that is read is tried once before the next one is read
(`Transcript.Kept`, which every event keeps). Whether its frame goes in depends on
the queue at that moment and on nothing else, so a line that is dropped has no effect
on the others. The line that ends the console is no text: it is not tried, and it is
the last one that is read (`Kept.texts_eq`, `Kept.sent_eq`).
-/

namespace BoardFlash

/-! ## What others do -/

namespace Desk

/-- What others can do to the desk. -/
inductive Move where
  /-- A line is typed, and read in if there is room for it. -/
  | type (line : List Char)
  | endInput
  /-- The router has a frame for the console, or a diagnostic. -/
  | deliver (frame : Frame)
  | report (diagnostic : Diagnostic)
  | stopDelivering
  | stopReporting
  /-- The router takes up to `n` frames. -/
  | collect (n : Nat)
  | stopCollecting
  | cancel
  deriving DecidableEq

def apply (d : Desk) : Move → Desk
  | .type line => if d.lines.senderOpen then { d with lines := d.lines.offer line } else d
  | .endInput => { d with lines := d.lines.closeSender }
  | .deliver frame =>
    if d.queues.back.senderOpen then
      { d with queues := { d.queues with back := d.queues.back.offer frame } }
    else d
  | .report diagnostic =>
    { d with
      diagnostics := d.diagnostics.map fun q => if q.senderOpen then q.offer diagnostic else q }
  | .stopDelivering => { d with queues := { d.queues with back := d.queues.back.closeSender } }
  | .stopReporting => { d with diagnostics := d.diagnostics.map Queue.closeSender }
  | .collect n =>
    if d.queues.forth.receiverOpen then
      { d with queues := { d.queues with forth := (d.queues.forth.take n).2 } }
    else d
  | .stopCollecting => { d with queues := { d.queues with forth := d.queues.forth.closeReceiver } }
  | .cancel => { d with cancelled := true }

/-- What others can do to the lines and to the flag. -/
structure Changes (d d' : Desk) : Prop where
  typed : ∃ more, d'.lines.items = d.lines.items ++ more ∧ (d.lines.senderOpen = false → more = [])
  closed : d.lines.senderOpen = false → d'.lines.senderOpen = false
  flag : d.cancelled = true → d'.cancelled = true

theorem Changes.of_lines {d d' : Desk} (hlines : d'.lines = d.lines)
    (hflag : d.cancelled = true → d'.cancelled = true) : Changes d d' where
  typed := ⟨[], by rw [hlines, List.append_nil], fun _ => rfl⟩
  closed := by
    rw [hlines]
    exact id
  flag := hflag

theorem changes_apply (d : Desk) (m : Move) : Changes d (d.apply m) := by
  cases m with
  | type line =>
      unfold apply
      dsimp only
      split
      · next hopen =>
        have hlines := congrArg Queue.items (d.lines.offer_eq line)
        refine ⟨⟨_, hlines, fun hclosed => ?_⟩, fun hclosed => ?_, id⟩
        · rw [hopen] at hclosed
          cases hclosed
        · rw [hopen] at hclosed
          cases hclosed
      · exact .of_lines rfl id
  | endInput => exact ⟨⟨[], (List.append_nil _).symm, fun _ => rfl⟩, fun _ => rfl, id⟩
  | cancel => exact .of_lines rfl fun _ => rfl
  | deliver | collect =>
      unfold apply
      dsimp only
      split
      · exact .of_lines rfl id
      · exact .of_lines rfl id
  | report | stopDelivering | stopReporting | stopCollecting => exact .of_lines rfl id

end Desk

/-! ## On the way out -/

namespace Console

/-- The console is about to end by itself, or stops because it has been asked to; `flag`
is whether it has been. -/
def Phase.Closing (flag : Bool) : Phase → Prop
  | .judging line => isEnd line = true
  | .leaving => True
  | .showing | .diagnosing | .resting | .stopped => flag = true
  | .starting | .reading | .queueing _ => False

theorem Phase.Closing.mono {flag flag' : Bool} {phase : Phase} (h : phase.Closing flag)
    (hflag : flag = true → flag' = true) : phase.Closing flag' := by
  cases phase with
  | showing | diagnosing | resting | stopped => exact hflag h
  | _ => exact h

theorem Phase.not_closing_of_judging {flag : Bool} {line : List Char} {phase : Phase}
    (hphase : phase = .judging line) (hplain : isEnd line = false) : ¬phase.Closing flag := by
  rw [hphase, Closing, hplain]
  exact Bool.false_ne_true

/-- The console has a line in hand. -/
def Phase.holds : Phase → Bool
  | .judging _ | .queueing _ => true
  | _ => false

end Console

/-! ## The observer -/

structure Transcript where
  console : Console
  desk : Desk
  /-- All lines that were typed, in order. -/
  typed : List (List Char)
  /-- Those that the console has taken from its queue. -/
  read : List (List Char) := []
  /-- The outbound queue at each moment when the console tried it. -/
  tries : List (Queue Frame) := []
  /-- The frames that the console has put there. -/
  sent : List Frame := []

namespace Transcript

inductive Act where
  /-- The console takes its next step. -/
  | step
  | move (m : Desk.Move)
  deriving DecidableEq

def start (target : Option UInt8) (desk : Desk) : Transcript where
  console := { target }
  desk
  typed := desk.lines.items

/-- After a step of the console. -/
def stepped (t : Transcript) : Transcript :=
  let r := t.console.step t.desk
  { t with
    console := r.console
    desk := r.desk
    read := t.read
      ++ t.desk.lines.items.take (t.desk.lines.items.length - r.desk.lines.items.length)
    tries := match t.console.phase with
      | .queueing _ => t.tries ++ [t.desk.queues.forth]
      | _ => t.tries
    sent := t.sent ++ r.desk.queues.forth.items.drop t.desk.queues.forth.items.length }

/-- After others have done something to the desk. -/
def moved (t : Transcript) (desk : Desk) : Transcript :=
  { t with
    desk
    typed := t.typed ++ desk.lines.items.drop t.desk.lines.items.length }

def apply (t : Transcript) : Act → Transcript
  | .step => t.stepped
  | .move m => t.moved (t.desk.apply m)

def run (t : Transcript) (acts : List Act) : Transcript := acts.foldl apply t

theorem run_cons (t : Transcript) (a : Act) (acts : List Act) :
    t.run (a :: acts) = (t.apply a).run acts := rfl

/-- The lines that were read before the one that ends the console. -/
def texts (t : Transcript) : List (List Char) :=
  t.read.takeWhile (Text.trim · ≠ Console.endLine)

/-- The frame that a line becomes when the outbound queue is like this. It takes room
in the queue, and a router to take it from there. -/
def conveyed? (board : UInt8) (line : List Char) (q : Queue Frame) : Option Frame :=
  if q.receiverOpen = true ∧ q.items.length < q.capacity then
    some (Console.lineFrame board line)
  else none

section

variable {t : Transcript}

/-- Most steps neither read a line nor try the outbound queue. -/
theorem stepped_quiet {c : Console} {d : Desk} {notice : Option Console.Notice}
    (h : t.console.step t.desk = ⟨c, d, notice⟩) (hlines : d.lines.items = t.desk.lines.items)
    (hforth : d.queues.forth.items = t.desk.queues.forth.items)
    (hphase : ∀ frame, t.console.phase ≠ .queueing frame) :
    t.stepped = { t with console := c, desk := d } := by
  unfold stepped
  rw [h]
  dsimp only
  rw [hlines, hforth, Nat.sub_self, List.take_zero, List.append_nil, List.drop_length,
    List.append_nil]
  split
  · next frame hp => exact absurd hp (hphase frame)
  · rfl

theorem stepped_take {c : Console} {line : List Char} {lines : Queue (List Char)}
    (h : t.console.step t.desk = ⟨c, { t.desk with lines }, none⟩)
    (htaken : t.desk.lines.tryRecv = .ok (line, lines)) (hphase : t.console.phase = .reading) :
    t.stepped
      = { t with console := c, desk := { t.desk with lines }, read := t.read ++ [line] } := by
  obtain ⟨hitems, -⟩ := Queue.tryRecv_eq_ok_iff.mp htaken
  unfold stepped
  rw [h, hphase, hitems]
  simp

theorem stepped_try {c : Console} {d : Desk} {notice : Option Console.Notice} {frame : Frame}
    {more : List Frame} (h : t.console.step t.desk = ⟨c, d, notice⟩)
    (hphase : t.console.phase = .queueing frame) (hlines : d.lines = t.desk.lines)
    (hforth : d.queues.forth.items = t.desk.queues.forth.items ++ more) :
    t.stepped = { t with
      console := c
      desk := d
      tries := t.tries ++ [t.desk.queues.forth]
      sent := t.sent ++ more } := by
  unfold stepped
  rw [h, hphase]
  simp [hlines, hforth]

end

/-! ## Line after line -/

/-- What the console has tried so far: each of the lines, at some state of the queue. -/
def Tally (target : Option UInt8) (lines : List (List Char)) (tries : List (Queue Frame))
    (sent : List Frame) : Prop :=
  match target with
  | none => tries = [] ∧ sent = []
  | some board => tries.length = lines.length
    ∧ sent = (lines.zip tries).filterMap fun x => conveyed? board x.1 x.2

/-- What was read and has not been tried: nothing, the line in hand, or the line that
ends the console. -/
inductive Last (target : Option UInt8) (c : Console) (d : Desk) : List (List Char) → Prop
  | nothing (free : c.phase.holds = false) : Last target c d []
  | judged (line : List Char) (phase : c.phase = .judging line) : Last target c d [line]
  | addressed (line : List Char) (board : UInt8) (plain : Console.isEnd line = false)
      (target_eq : target = some board)
      (phase : c.phase = .queueing (Console.lineFrame board line)) : Last target c d [line]
  | final (line : List Char) (isEnd : Console.isEnd line = true) (free : c.phase.holds = false)
      (closing : c.phase.Closing d.cancelled) : Last target c d [line]

/-- What holds of a console at any time: the lines that it is done with were all tried. -/
structure Kept (target : Option UInt8) (t : Transcript) (lines last : List (List Char)) :
    Prop where
  target_eq : t.console.target = target
  order : t.typed = t.read ++ t.desk.lines.items
  read_eq : t.read = lines ++ last
  plain : ∀ line ∈ lines, Console.isEnd line = false
  tally : Tally target lines t.tries t.sent
  last : Last target t.console t.desk last
  gone : t.console.inputOpen = false ∨ t.console.phase = .stopped →
    t.console.phase.Closing t.desk.cancelled

theorem Tally.concat {target : Option UInt8} {lines : List (List Char)}
    {tries : List (Queue Frame)} {sent : List Frame} {board : UInt8}
    (h : Tally target lines tries sent) (htarget : target = some board) (line : List Char)
    (q : Queue Frame) :
    Tally target (lines ++ [line]) (tries ++ [q]) (sent ++ (conveyed? board line q).toList) := by
  subst htarget
  obtain ⟨hlength, hsent⟩ := h
  refine ⟨by rw [List.length_append, List.length_append, hlength]; rfl, ?_⟩
  rw [List.zip_append hlength.symm, List.filterMap_append, hsent]
  cases hq : conveyed? board line q with
  | none => simp [hq]
  | some frame => simp [hq]

section

variable {target : Option UInt8} {t : Transcript} {lines last : List (List Char)}

theorem Last.mono {c : Console} {d d' : Desk} (h : Last target c d last)
    (hflag : d.cancelled = true → d'.cancelled = true) : Last target c d' last := by
  cases h with
  | nothing free => exact .nothing free
  | judged line phase => exact .judged line phase
  | addressed line board plain target_eq phase => exact .addressed line board plain target_eq phase
  | final line isEnd free closing => exact .final line isEnd free (closing.mono hflag)

/-- Between two passes nothing is in hand. -/
theorem Last.eq_nil {c : Console} {d : Desk} (h : Last target c d last)
    (hfree : c.phase.holds = false) (hopen : ¬c.phase.Closing d.cancelled) : last = [] := by
  cases h with
  | nothing free => rfl
  | judged line phase =>
      rw [phase] at hfree
      cases hfree
  | addressed line board plain target_eq phase =>
      rw [phase] at hfree
      cases hfree
  | final line isEnd free closing => exact absurd closing hopen

/-- A step that neither reads nor tries anything. -/
theorem Last.keep {c c' : Console} {d d' : Desk} (h : Last target c d last)
    (hfree : c.phase.holds = false) (hfree' : c'.phase.holds = false)
    (hclosing : c.phase.Closing d.cancelled → c'.phase.Closing d'.cancelled) :
    Last target c' d' last := by
  cases h with
  | nothing free => exact .nothing hfree'
  | judged line phase =>
      rw [phase] at hfree
      cases hfree
  | addressed line board plain target_eq phase =>
      rw [phase] at hfree
      cases hfree
  | final line isEnd free closing => exact .final line isEnd hfree' (hclosing closing)

/-- A console that is not on its way out has not found its input at its end, and does not
stop with its next step. -/
theorem Kept.not_gone (h : Kept target t lines last) {phase : Console.Phase}
    (hopen : ¬t.console.phase.Closing t.desk.cancelled) (hphase : phase ≠ .stopped) :
    ¬(t.console.inputOpen = false ∨ phase = .stopped) := by
  rintro (hinput | hstop)
  · exact hopen (h.gone (.inl hinput))
  · exact hphase hstop

/-- Others do nothing to what has been read and tried. -/
theorem Kept.moved (h : Kept target t lines last) (m : Desk.Move) :
    Kept target (t.moved (t.desk.apply m)) lines last := by
  obtain ⟨⟨more, hitems, -⟩, -, hflag⟩ := t.desk.changes_apply m
  have htyped : (t.moved (t.desk.apply m)).typed = t.typed ++ more := by
    rw [Transcript.moved, hitems, List.drop_left]
  refine ⟨h.target_eq, ?_, h.read_eq, h.plain, h.tally, h.last.mono hflag,
    fun hover => (h.gone hover).mono hflag⟩
  rw [htyped, h.order, List.append_assoc, ← hitems]
  rfl

/-- A step that neither reads nor tries anything. -/
theorem Kept.quiet (h : Kept target t lines last) {c : Console} {d : Desk}
    {notice : Option Console.Notice} (hstep : t.console.step t.desk = ⟨c, d, notice⟩)
    (hlines : d.lines.items = t.desk.lines.items)
    (hforth : d.queues.forth.items = t.desk.queues.forth.items)
    (hphase : ∀ frame, t.console.phase ≠ .queueing frame) (htarget : c.target = t.console.target)
    (hlast : Last target c d last)
    (hover : c.inputOpen = false ∨ c.phase = .stopped → c.phase.Closing d.cancelled) :
    Kept target t.stepped lines last := by
  rw [stepped_quiet hstep hlines hforth hphase]
  exact ⟨htarget.trans h.target_eq, hlines ▸ h.order, h.read_eq, h.plain, h.tally, hlast, hover⟩

/-- A step with nothing in hand before and after. -/
theorem Kept.pass (h : Kept target t lines last) {phase : Console.Phase} {d : Desk}
    {inboundOpen diagnosticsOpen : Bool} {notice : Option Console.Notice}
    (hstep : t.console.step t.desk
      = ⟨{ t.console with inboundOpen, diagnosticsOpen, phase }, d, notice⟩)
    (hlines : d.lines.items = t.desk.lines.items)
    (hforth : d.queues.forth.items = t.desk.queues.forth.items)
    (hfree : t.console.phase.holds = false) (hfree' : phase.holds = false)
    (hclosing : t.console.phase.Closing t.desk.cancelled → phase.Closing d.cancelled)
    (hstopped : phase = .stopped → phase.Closing d.cancelled) :
    Kept target t.stepped lines last := by
  refine h.quiet hstep hlines hforth ?_ rfl (h.last.keep hfree hfree' hclosing) ?_
  · intro frame hp
    rw [hp] at hfree
    cases hfree
  · rintro (hinput | hstop)
    · exact hclosing (h.gone (.inl hinput))
    · exact hstopped hstop

theorem Kept.take (h : Kept target t lines last) {line : List Char}
    {rest : Queue (List Char)} (hphase : t.console.phase = .reading)
    (htaken : t.desk.lines.tryRecv = .ok (line, rest))
    (hstep : t.console.step t.desk
      = ⟨{ t.console with phase := .judging line }, { t.desk with lines := rest }, none⟩) :
    Kept target t.stepped lines [line] := by
  have hopen : ¬t.console.phase.Closing t.desk.cancelled := by
    rw [hphase]
    exact id
  have hnone : last = [] := h.last.eq_nil (by rw [hphase]; rfl) hopen
  have hread : t.read = lines := by rw [h.read_eq, hnone, List.append_nil]
  obtain ⟨hitems, -⟩ := Queue.tryRecv_eq_ok_iff.mp htaken
  rw [stepped_take hstep htaken hphase]
  refine ⟨h.target_eq, ?_, by rw [hread], h.plain, h.tally, .judged line rfl,
    fun hgone => absurd hgone (h.not_gone hopen nofun)⟩
  show t.typed = t.read ++ [line] ++ rest.items
  rw [h.order, hitems, List.append_assoc, List.singleton_append]

/-- A line in hand is the last one that was read. -/
theorem Kept.last_of_judging (h : Kept target t lines last) {line : List Char}
    (hphase : t.console.phase = .judging line) : last = [line] := by
  cases h.last with
  | judged line' phase =>
      rw [hphase, Console.Phase.judging.injEq] at phase
      rw [phase]
  | nothing free | final _ _ free _ =>
      rw [hphase] at free
      cases free
  | addressed _ _ _ _ phase =>
      rw [hphase] at phase
      cases phase

theorem Kept.plain_concat (h : Kept target t lines last) {line : List Char}
    (hline : Console.isEnd line = false) : ∀ l ∈ lines ++ [line], Console.isEnd l = false := by
  intro l hl
  rcases List.mem_append.mp hl with hl | hl
  · exact h.plain l hl
  · rwa [List.mem_singleton.mp hl]

/-- Without a target the line is done with as soon as it is found to be one. -/
theorem Kept.discard (h : Kept target t lines last) {line : List Char}
    {notice : Option Console.Notice} (hphase : t.console.phase = .judging line)
    (hplain : Console.isEnd line = false) (htarget : t.console.target = none)
    (hstep : t.console.step t.desk = ⟨{ t.console with phase := .showing }, t.desk, notice⟩) :
    Kept target t.stepped (lines ++ [line]) [] := by
  have hread := h.read_eq
  rw [h.last_of_judging hphase] at hread
  have hqueueing : ∀ frame, t.console.phase ≠ .queueing frame := by
    intro frame hp
    rw [hphase] at hp
    cases hp
  obtain rfl : target = none := h.target_eq.symm.trans htarget
  rw [stepped_quiet hstep rfl rfl hqueueing]
  have hopen : ¬t.console.phase.Closing t.desk.cancelled :=
    Console.Phase.not_closing_of_judging hphase hplain
  exact ⟨h.target_eq, h.order, by rw [hread, List.append_nil], h.plain_concat hplain, h.tally,
    .nothing rfl, fun hgone => absurd hgone (h.not_gone hopen nofun)⟩

/-- The outbound queue is tried, and the line is done with. -/
theorem Kept.attempt (h : Kept target t lines last) {frame : Frame} {d : Desk} {more : List Frame}
    {notice : Option Console.Notice} (hphase : t.console.phase = .queueing frame)
    (hstep : t.console.step t.desk = ⟨{ t.console with phase := .showing }, d, notice⟩)
    (hlines : d.lines = t.desk.lines)
    (hforth : d.queues.forth.items = t.desk.queues.forth.items ++ more)
    (hmore : more = if t.desk.queues.forth.receiverOpen = true
        ∧ t.desk.queues.forth.items.length < t.desk.queues.forth.capacity then [frame] else []) :
    ∃ line, Kept target t.stepped (lines ++ [line]) [] := by
  cases h.last with
  | judged _ phase =>
      rw [hphase] at phase
      cases phase
  | nothing free | final _ _ free _ =>
      rw [hphase] at free
      cases free
  | addressed line board plain target_eq phase =>
      rw [hphase, Console.Phase.queueing.injEq] at phase
      subst phase
      have hconveyed : more = (conveyed? board line t.desk.queues.forth).toList := by
        rw [hmore, conveyed?]
        split
        · rfl
        · rfl
      have hopen : ¬t.console.phase.Closing t.desk.cancelled := by
        rw [hphase]
        exact id
      refine ⟨line, ?_⟩
      rw [stepped_try hstep hphase hlines hforth]
      refine ⟨h.target_eq, by rw [hlines]; exact h.order, by rw [h.read_eq, List.append_nil],
        h.plain_concat plain, ?_, .nothing rfl,
        fun hgone => absurd hgone (h.not_gone hopen nofun)⟩
      rw [hconveyed]
      exact h.tally.concat target_eq line _

theorem Kept.stepped (h : Kept target t lines last) :
    ∃ lines' last', Kept target t.stepped lines' last' := by
  cases Console.step_course t.console t.desk with
  | start phase result =>
      refine ⟨_, _, h.pass result rfl rfl (by rw [phase]; rfl) rfl ?_ nofun⟩
      rw [phase]
      exact False.elim
  | stop phase flag result =>
      exact ⟨_, _, h.pass result rfl rfl (by rw [phase]; rfl) rfl (fun _ => flag) fun _ => flag⟩
  | resume phase free result =>
      refine ⟨_, _, h.pass result rfl rfl (by rw [phase]; rfl) rfl ?_ nofun⟩
      rw [phase, free]
      exact nofun
  | take line rest phase isOpen taken result => exact ⟨_, _, h.take phase taken result⟩
  | skip phase nothing result =>
      refine ⟨_, _, h.pass result rfl rfl (by rw [phase]; rfl) rfl ?_ nofun⟩
      rw [phase]
      exact False.elim
  | exhaust phase isOpen empty closed result =>
      have hfree : t.console.phase.holds = false := by rw [phase]; rfl
      refine ⟨_, _, h.quiet result rfl rfl (by rw [phase]; exact nofun) rfl ?_ fun _ => trivial⟩
      exact h.last.keep hfree rfl fun _ => trivial
  | heed line phase final result =>
      refine ⟨lines, last, h.quiet result rfl rfl (by rw [phase]; exact nofun) rfl ?_
        fun _ => trivial⟩
      rw [h.last_of_judging phase]
      exact .final line final rfl trivial
  | discard line phase plain target result => exact ⟨_, _, h.discard phase plain target result⟩
  | address line board notice phase plain target_eq result =>
      have hopen : ¬t.console.phase.Closing t.desk.cancelled :=
        Console.Phase.not_closing_of_judging phase plain
      refine ⟨lines, last, h.quiet result rfl rfl (by rw [phase]; exact nofun) rfl ?_
        fun hgone => absurd hgone (h.not_gone hopen nofun)⟩
      rw [h.last_of_judging phase]
      exact .addressed line board plain (h.target_eq.symm.trans target_eq) rfl
  | send frame forth phase sent result =>
      obtain ⟨hopen, hroom, rfl⟩ := Queue.trySend_eq_ok_iff.mp sent
      obtain ⟨line, hkept⟩ := h.attempt phase result rfl rfl (if_pos ⟨hopen, hroom⟩).symm
      exact ⟨_, _, hkept⟩
  | drop frame why notice phase refused result =>
      have hfull : ¬(t.desk.queues.forth.receiverOpen = true
          ∧ t.desk.queues.forth.items.length < t.desk.queues.forth.capacity) := by
        rintro ⟨hopen, hroom⟩
        rw [Queue.trySend_eq_ok_iff.mpr ⟨hopen, hroom, rfl⟩] at refused
        cases refused
      obtain ⟨line, hkept⟩ :=
        h.attempt phase result rfl (List.append_nil _).symm (if_neg hfull).symm
      exact ⟨_, _, hkept⟩
  | leave phase result =>
      exact ⟨_, _, h.pass result rfl rfl (by rw [phase]; rfl) rfl (fun _ => rfl) nofun⟩
  | display inboundOpen back notice phase one result =>
      refine ⟨_, _, h.pass result rfl rfl (by rw [phase]; rfl) rfl ?_ nofun⟩
      rw [phase]
      exact id
  | diagnose diagnosticsOpen diagnostics notice phase one result =>
      refine ⟨_, _, h.pass result rfl rfl (by rw [phase]; rfl) rfl ?_ nofun⟩
      rw [phase]
      exact id
  | idle phase result =>
      refine ⟨_, _, h.pass result rfl rfl (by rw [phase]; rfl) (by rw [phase]; rfl) id ?_⟩
      exact fun hstop => h.gone (.inr hstop)

theorem Kept.run (h : Kept target t lines last) (acts : List Act) :
    ∃ lines' last', Kept target (t.run acts) lines' last' := by
  induction acts generalizing t lines last with
  | nil => exact ⟨lines, last, h⟩
  | cons a acts ih =>
      rw [run_cons]
      cases a with
      | step =>
          obtain ⟨_, _, hnext⟩ := h.stepped
          exact ih hnext
      | move m => exact ih (h.moved m)

end

end Transcript

end BoardFlash
