import BoardFlash.Proofs.Bridge.Holding

/-!
# What becomes of the bytes from the link

The bridge cuts what it reads into pieces: a piece is queued for the router
as a frame, or it is dropped, as a header that no frame starts with or as a
part of a frame after which the link went quiet. An `Intake` is the bridge
at work, with everything that it has heard and what it has made of it.
The link is a new one for each step and may reply whatever it likes.

`Accounted` is the invariant: the pieces and what the bridge holds are
what it has heard, and nothing that was complete has been dropped.
Before it reads the bridge looks whether there is room in its queue, and
it is the only one that puts anything there, so that the room is still
there when the frame is complete.
-/

namespace BoardFlash

/-- What is taken from the queue of received frames. -/
def Trunk.collected (t : Trunk) : Move → List (List UInt8)
  | .collect n => if t.queues.back.receiverOpen then (t.queues.back.take n).1 else []
  | _ => []

/-- The bridge alone puts frames in the queue to the router; others take some
from the front, at most. -/
theorem Trunk.back_apply (t : Trunk) {move : Move} (hmove : move ≠ .stopCollecting) :
    ∃ n, (t.apply move).queues.back
      = { t.queues.back with items := t.queues.back.items.drop n } := by
  cases move with
  | stopCollecting => exact absurd rfl hmove
  | submit raw =>
      refine ⟨0, ?_⟩
      simp only [apply]
      split <;> rfl
  | collect n =>
      simp only [apply]
      split
      · exact ⟨n, rfl⟩
      · exact ⟨0, rfl⟩
  | cancel | stopSubmitting => exact ⟨0, rfl⟩

theorem Trunk.collected_append (t : Trunk) (move : Move) :
    t.collected move ++ (t.apply move).queues.back.items = t.queues.back.items := by
  cases move with
  | submit raw =>
      simp only [apply]
      split <;> rfl
  | collect n =>
      simp only [collected, apply]
      split
      · exact List.take_append_drop ..
      · rfl
  | cancel | stopSubmitting | stopCollecting => rfl

namespace Bridge

/-! ## Pieces -/

/-- What the bridge has made of some of the bytes that it has read. -/
inductive Piece where
  /-- They are queued for the router. -/
  | queued (raw : List UInt8)
  /-- They were dropped, as a header that no frame starts with. -/
  | refused (header : List UInt8)
  /-- They were dropped when the link went quiet. -/
  | cut (part : List UInt8) (cause : IoError)
  deriving DecidableEq

namespace Piece

def bytes : Piece → List UInt8
  | .queued raw => raw
  | .refused header => header
  | .cut part _ => part

/-- The frame that the router gets. -/
def raw? : Piece → Option (List UInt8)
  | .queued raw => some raw
  | _ => none

/-- The bridge had a reason to end the piece where it ends. -/
def Proper : Piece → Prop
  | .queued raw => Frame.Sized raw
  | .refused header => header.length = Frame.headerLength ∧ Frame.remaining? header = none
  | .cut part cause => (∃ missing, Frame.Expects part missing) ∧ isQuiet cause = true

end Piece

/-- What the bridge holds is as long as the header in it says. -/
def Phase.Measured : Phase → Prop
  | .reading got missing => Frame.Expects got missing
  | .storing raw => Frame.Sized raw
  | _ => True

/-- The link has failed for good. -/
def Phase.failed : Phase → Bool
  | .failing _ | .alarming _ | .stopping (some _) | .stopped (some _) => true
  | _ => false

/-- A complete frame was dropped. -/
def Notice.unstored : Notice → Bool
  | .noRoom | .routerGone => true
  | _ => false

/-- What a step puts in the queue of received frames. -/
def stored (t t' : Trunk) : List (List UInt8) :=
  t'.queues.back.items.drop t.queues.back.items.length

/-- What a step drops of the bytes that the bridge has read. -/
def dropped (link : Link) : Phase → Phase → List Piece
  | .reading got missing, .fetching =>
    match link (.read missing) with
    | .ok bytes => [.refused (got ++ bytes.val)]
    | .error cause => [.cut got cause]
  | _, _ => []

section

variable {b : Bridge} {t t' : Trunk} {link : Link}

theorem stored_of_items (hitems : t'.queues.back.items = t.queues.back.items) :
    stored t t' = [] := by
  rw [stored, hitems, List.drop_length]

/-- Without reading the bridge gets no bytes and drops none. -/
theorem silent_of_not_reading (hreading : ∀ got missing, b.phase ≠ .reading got missing)
    (phase : Phase) : link.received b.call? = [] ∧ dropped link b.phase phase = [] := by
  unfold call?
  cases hp : b.phase with
  | reading got missing => exact absurd hp (hreading got missing)
  | _ => exact ⟨rfl, rfl⟩

theorem dropped_of_not_fetching {phase phase' : Phase} (hfetching : phase' ≠ .fetching) :
    dropped link phase phase' = [] := by
  cases phase with
  | reading got missing =>
      cases phase' with
      | fetching => exact absurd rfl hfetching
      | _ => rfl
  | _ => rfl

theorem measured_of_free {phase : Phase} (hfree : phase.free = true) : phase.Measured := by
  cases phase with
  | reading | storing => cases hfree
  | _ => trivial

theorem measured_toWrite (rest : List UInt8) : (Phase.toWrite rest).Measured := by
  cases rest <;> trivial

theorem failed_toWrite (rest : List UInt8) : (Phase.toWrite rest).failed = false := by
  cases rest <;> rfl

theorem failed_of_free {phase : Phase} (hfree : phase.free = true) : phase.failed = false := by
  cases phase with
  | failing | alarming | stopping | stopped => cases hfree
  | _ => rfl

theorem received_of_reading {got : List UInt8} {missing : Nat}
    {bytes : (Link.Call.read missing).Result} (hp : b.phase = .reading got missing)
    (hreply : link (.read missing) = .ok bytes) : link.received b.call? = bytes.val := by
  rw [call?, hp, Link.received, hreply]

/-- A call that fails the bridge brings nothing in. -/
theorem received_of_fault {c : Link.Call} {e : IoError} (hfault : fault? c (link c) = some e) :
    link.received (some c) = [] := by
  cases c with
  | read most =>
      unfold Link.received
      dsimp only
      cases hreply : link (.read most) with
      | error e' => rfl
      | ok bytes =>
          rw [hreply, fault?, Option.ite_none_right_eq_some] at hfault
          exact hfault.1
  | _ => rfl

/-- Only a frame that is stored changes the queue to the router. -/
theorem back_of_passage {b' : Bridge} (p : Passage b t link b' t')
    (hstoring : ∀ raw, b.phase ≠ .storing raw) :
    t'.queues.back.items = t.queues.back.items
      ∧ t'.queues.back.isFull = t.queues.back.isFull := by
  cases p with
  | store raw _ before => exact absurd before (hstoring raw)
  | _ =>
      subst_vars
      exact ⟨rfl, rfl⟩

theorem length_le_of_passage {b' : Bridge} (p : Passage b t link b' t')
    (hfits : t.queues.back.items.length ≤ t.queues.back.capacity) :
    t'.queues.back.items.length ≤ t.queues.back.capacity
      ∧ t'.queues.back.capacity = t.queues.back.capacity := by
  cases p with
  | store raw _ _ sent =>
      subst_vars
      obtain ⟨-, hroom, rfl⟩ := Queue.trySend_eq_ok_iff.mp sent
      refine ⟨?_, rfl⟩
      rw [List.length_append]
      exact hroom
  | _ =>
      subst_vars
      exact ⟨hfits, rfl⟩

/-- The bridge reports a complete frame as dropped only if its queue has
refused it. -/
theorem refused_of_unstored (hnotice : (b.step t link).notice.any Notice.unstored = true) :
    ∃ raw why, b.phase = .storing raw ∧ t.queues.back.trySend raw = .error why := by
  unfold step at hnotice
  split at hnotice
  · cases hnotice
  · cases hnotice
  · cases hnotice
  · unfold polled at hnotice
    split at hnotice <;> cases hnotice
  · unfold afterRead at hnotice
    split at hnotice
    · cases hnotice
    · dsimp only at hnotice
      split at hnotice
      · unfold complete at hnotice
        split at hnotice
        · split at hnotice <;> cases hnotice
        · cases hnotice
      · cases hnotice
    · split at hnotice
      · cases hnotice
      · split at hnotice <;> cases hnotice
  · next raw hp =>
    unfold store at hnotice
    split at hnotice
    · cases hnotice
    · next hrefused => exact ⟨raw, _, hp, hrefused⟩
    · next hrefused => exact ⟨raw, _, hp, hrefused⟩
  · unfold fetch at hnotice
    split at hnotice <;> cases hnotice
  · unfold afterWrite at hnotice
    split at hnotice <;> cases hnotice
  · split at hnotice <;> cases hnotice
  all_goals cases hnotice

end

/-! ## Runs -/

/-- What may happen next: a step of the bridge, with the link as it is then, or
something that others do to its trunk. -/
inductive Act where
  | step (link : Link)
  | move (move : Trunk.Move)

/-- The bridge at work, and what has been seen of it. -/
structure Intake where
  bridge : Bridge := {}
  trunk : Trunk
  /-- All that the bridge has read. -/
  heard : List UInt8 := []
  /-- What it has made of it. -/
  pieces : List Piece := []
  /-- The frames that the router has taken. -/
  taken : List (List UInt8) := []

namespace Intake

/-- What a step makes of the bytes that the bridge holds. -/
def made (i : Intake) (link : Link) (bridge : Bridge) (trunk : Trunk) : List Piece :=
  (stored i.trunk trunk).map .queued ++ dropped link i.bridge.phase bridge.phase

/-- After a step that left bridge and trunk behind like this. -/
def served (i : Intake) (link : Link) (bridge : Bridge) (trunk : Trunk) : Intake where
  bridge
  trunk
  heard := i.heard ++ link.received i.bridge.call?
  pieces := i.pieces ++ i.made link bridge trunk
  taken := i.taken

def apply (i : Intake) : Act → Intake
  | .step link =>
    let r := i.bridge.step i.trunk link
    i.served link r.bridge r.trunk
  | .move move =>
    { i with trunk := i.trunk.apply move, taken := i.taken ++ i.trunk.collected move }

def run (i : Intake) (acts : List Act) : Intake := acts.foldl apply i

/-- The frames that the bridge has queued for the router. -/
def queued (i : Intake) : List (List UInt8) := i.pieces.filterMap Piece.raw?

/-- Every byte that was read is accounted for. Here `old` is what was in the
queue of received frames at the start. -/
structure Accounted (old : List (List UInt8)) (i : Intake) : Prop where
  served : i.trunk.queues.back.receiverOpen = true
  room : i.bridge.phase.reserves = true → i.trunk.queues.back.isFull = false
  measured : i.bridge.phase.Measured
  proper : ∀ piece ∈ i.pieces, piece.Proper
  /-- What is missing from the pieces was lost when the link failed. -/
  pieces : i.pieces.flatMap Piece.bytes <+: i.heard
  held : i.bridge.phase.failed = false →
    i.heard = i.pieces.flatMap Piece.bytes ++ i.bridge.phase.held
  queue : i.taken ++ i.trunk.queues.back.items = old ++ i.queued

section

variable {old : List (List UInt8)} {i : Intake} {b b' : Bridge} {t t' : Trunk} {link : Link}

/-- The bridge has read nothing and has made nothing of what it holds. -/
theorem Accounted.still (h : Accounted old i) (received : link.received i.bridge.call? = [])
    (dropped : dropped link i.bridge.phase b'.phase = [])
    (back : t'.queues.back.items = i.trunk.queues.back.items
      ∧ t'.queues.back.receiverOpen = i.trunk.queues.back.receiverOpen)
    (room : b'.phase.reserves = true → t'.queues.back.isFull = false)
    (measured : b'.phase.Measured)
    (held : b'.phase.failed = false →
      i.bridge.phase.failed = false ∧ b'.phase.held = i.bridge.phase.held) :
    Accounted old (i.served link b' t') := by
  obtain ⟨items, served⟩ := back
  have hsame : i.served link b' t' = { i with bridge := b', trunk := t' } := by
    simp [Intake.served, made, received, dropped, stored_of_items items]
  rw [hsame]
  refine { h with
    served := served.trans h.served, room, measured, held := fun hgo => ?_, queue := ?_ }
  · obtain ⟨hgo, hheld⟩ := held hgo
    rw [h.held hgo, hheld]
  · rw [items]
    exact h.queue

/-- The bridge does something else and holds no bytes, neither before nor
after. -/
theorem Accounted.aside (h : Accounted old i)
    (reading : ∀ got missing, i.bridge.phase ≠ .reading got missing)
    (back : t'.queues.back.items = i.trunk.queues.back.items
      ∧ t'.queues.back.receiverOpen = i.trunk.queues.back.receiverOpen)
    (room : b'.phase.reserves = true → t'.queues.back.isFull = false)
    (measured : b'.phase.Measured) (held : i.bridge.phase.held = [] ∧ b'.phase.held = [])
    (failed : b'.phase.failed = i.bridge.phase.failed) :
    Accounted old (i.served link b' t') := by
  obtain ⟨hreceived, hdropped⟩ := silent_of_not_reading reading b'.phase
  refine h.still hreceived hdropped back room measured fun hgo => ?_
  exact ⟨failed ▸ hgo, held.2.trans held.1.symm⟩

/-- The bridge has read some bytes or has made pieces of what it holds. -/
theorem Accounted.more (h : Accounted old i) {bytes : List UInt8} {new : List Piece}
    (received : link.received i.bridge.call? = bytes) (made : i.made link b' t' = new)
    (going : i.bridge.phase.failed = false)
    (served : t'.queues.back.receiverOpen = i.trunk.queues.back.receiverOpen)
    (room : b'.phase.reserves = true → t'.queues.back.isFull = false)
    (measured : b'.phase.Measured)
    (proper : ∀ piece ∈ new, piece.Proper)
    (held : i.bridge.phase.held ++ bytes = new.flatMap Piece.bytes ++ b'.phase.held)
    (items : t'.queues.back.items = i.trunk.queues.back.items ++ new.filterMap Piece.raw?) :
    Accounted old (i.served link b' t') := by
  have hsame : i.served link b' t'
      = { i with
          bridge := b', trunk := t', heard := i.heard ++ bytes, pieces := i.pieces ++ new } := by
    rw [Intake.served, received, made]
  have hheard : i.heard ++ bytes = (i.pieces ++ new).flatMap Piece.bytes ++ b'.phase.held := by
    rw [h.held going, List.append_assoc, held, List.flatMap_append, List.append_assoc]
  rw [hsame]
  refine ⟨served.trans h.served, room, measured, ?_, ⟨_, hheard.symm⟩, fun _ => hheard, ?_⟩
  · intro piece hpiece
    rcases List.mem_append.mp hpiece with hpiece | hpiece
    · exact h.proper piece hpiece
    · exact proper piece hpiece
  · show i.taken ++ t'.queues.back.items = old ++ (i.pieces ++ new).filterMap Piece.raw?
    rw [items, ← List.append_assoc, h.queue, List.filterMap_append, ← List.append_assoc]
    rfl

/-- As long as the bridge goes on to read or has got a whole frame it makes nothing
of what it holds. -/
theorem made_of_reading {phase : Phase} (after : b'.phase = phase) (hfetching : phase ≠ .fetching) :
    i.made link b' i.trunk = [] := by
  rw [made, stored_of_items rfl, dropped_of_not_fetching (after ▸ hfetching)]
  rfl

theorem made_of_stored {raw : List UInt8}
    (hreading : ∀ got missing, i.bridge.phase ≠ .reading got missing)
    (hitems : t'.queues.back.items = i.trunk.queues.back.items ++ [raw]) :
    i.made link b' t' = [.queued raw] := by
  rw [made, stored, hitems, List.drop_left, (silent_of_not_reading hreading b'.phase).2]
  rfl

/-- A step of the bridge accounts for the bytes that it reads. -/
theorem Accounted.serve (h : Accounted old i) (p : Passage i.bridge i.trunk link b' t') :
    Accounted old (i.served link b' t') := by
  have hmeasured := h.measured
  cases p with
  | quiet before after trunk room =>
      subst trunk
      have hreading : ∀ got missing, i.bridge.phase ≠ .reading got missing := by
        intro got missing hp
        rw [hp] at before
        cases before
      refine h.aside hreading ⟨rfl, rfl⟩ (fun hreserves => room ?_) (measured_of_free after)
        ⟨Phase.held_of_free before, Phase.held_of_free after⟩
        ((failed_of_free after).trans (failed_of_free before).symm)
      cases hp : b'.phase with
      | polling => rfl
      | reading | storing => rw [hp] at after; cases after
      | _ => rw [hp] at hreserves; cases hreserves
  | start n before reply enough after trunk =>
      subst trunk
      have hroom := h.room (by rw [before]; rfl)
      exact h.aside (by simp [before]) ⟨rfl, rfl⟩ (fun _ => hroom)
        (by rw [after]; exact Frame.expects_nil) (by rw [before, after]; exact ⟨rfl, rfl⟩)
        (by rw [before, after]; rfl)
  | read got missing bytes before reply few after trunk =>
      subst trunk
      have hroom := h.room (by rw [before]; rfl)
      rw [before] at hmeasured
      refine h.more (received_of_reading before reply) (made_of_reading after (by simp))
        (by rw [before]; rfl) rfl (fun _ => hroom) ?_ (by simp) ?_ (List.append_nil _).symm
      · rw [after]
        exact Frame.Expects.more hmeasured few
      · rw [before, after]
        rfl
  | header got missing n bytes before reply all complete announced after trunk =>
      subst trunk
      have hroom := h.room (by rw [before]; rfl)
      refine h.more (received_of_reading before reply) (made_of_reading after (by simp))
        (by rw [before]; rfl) rfl (fun _ => hroom) ?_ (by simp) ?_ (List.append_nil _).symm
      · rw [after]
        exact Frame.Expects.announced complete announced
      · rw [before, after]
        rfl
  | garble got missing bytes before reply all complete announced after trunk =>
      subst trunk
      have hmade : i.made link b' i.trunk = [.refused (got ++ bytes.val)] := by
        rw [made, stored_of_items rfl, before, after, dropped, reply]
        rfl
      refine h.more (received_of_reading before reply) hmade (by rw [before]; rfl) rfl
        (by simp [after, Phase.reserves]) ?_ ?_ ?_ (List.append_nil _).symm
      · rw [after]
        trivial
      · rintro piece hpiece
        rw [List.mem_singleton.mp hpiece]
        exact ⟨complete, announced⟩
      · rw [before, after]
        simp [Phase.held, Piece.bytes]
  | whole got missing bytes before reply all complete after trunk =>
      subst trunk
      have hroom := h.room (by rw [before]; rfl)
      rw [before] at hmeasured
      refine h.more (received_of_reading before reply) (made_of_reading after (by simp))
        (by rw [before]; rfl) rfl (fun _ => hroom) ?_ (by simp) ?_ (List.append_nil _).symm
      · rw [after]
        exact Frame.Expects.sized hmeasured all complete
      · rw [before, after]
        rfl
  | cut got missing e before reply why after trunk =>
      subst trunk
      rw [before] at hmeasured
      have hmade : i.made link b' i.trunk = [.cut got e] := by
        rw [made, stored_of_items rfl, before, after, dropped, reply]
        rfl
      have hreceived : link.received i.bridge.call? = [] := by
        rw [call?, before]
        exact (Link.silent_of_error reply).1
      refine h.more hreceived hmade (by rw [before]; rfl) rfl
        (by simp [after, Phase.reserves]) ?_ ?_ ?_ (List.append_nil _).symm
      · rw [after]
        trivial
      · rintro piece hpiece
        rw [List.mem_singleton.mp hpiece]
        exact ⟨⟨missing, hmeasured⟩, why⟩
      · rw [before, after]
        simp [Phase.held, Piece.bytes]
  | store raw back before sent after trunk =>
      subst trunk
      rw [before] at hmeasured
      obtain ⟨-, -, rfl⟩ := Queue.trySend_eq_ok_iff.mp sent
      have hreading : ∀ got missing, i.bridge.phase ≠ .reading got missing := by simp [before]
      refine h.more (silent_of_not_reading hreading b'.phase).1 (made_of_stored hreading rfl)
        (by rw [before]; rfl) rfl (by simp [after, Phase.reserves]) ?_ ?_ ?_ rfl
      · rw [after]
        trivial
      · rintro piece hpiece
        rw [List.mem_singleton.mp hpiece]
        exact hmeasured
      · rw [before, after]
        simp [Phase.held, Piece.bytes]
  | overflow raw why before refused after trunk =>
      -- Nobody else fills the queue, so the room that was there before the read still is.
      have hroom := h.room (by rw [before]; rfl)
      simp [Queue.trySend, h.served, hroom] at refused
  | fetch raw forth before taken after trunk =>
      subst trunk
      refine h.aside (by simp [before]) ⟨rfl, rfl⟩ ?_ ?_ ?_ ?_ <;> rw [after]
      · simp [Phase.reserves_toWrite]
      · exact measured_toWrite raw
      · rw [before]
        exact ⟨rfl, Phase.held_toWrite raw⟩
      · rw [before]
        exact failed_toWrite raw
  | write rest n before reply progress after trunk =>
      subst trunk
      refine h.aside (by simp [before]) ⟨rfl, rfl⟩ ?_ ?_ ?_ ?_ <;> rw [after]
      · simp [Phase.reserves_toWrite]
      · exact measured_toWrite _
      · rw [before]
        exact ⟨rfl, Phase.held_toWrite _⟩
      · rw [before]
        exact failed_toWrite _
  | again c e call reply why after trunk =>
      subst trunk
      have hreceived : link.received i.bridge.call? = [] := by
        rw [call]
        exact (Link.silent_of_error reply).1
      have hdropped : dropped link i.bridge.phase b'.phase = [] := by
        rw [after]
        unfold call? at call
        split at call <;> first | (next hp => rw [hp]; rfl) | cases call
      refine h.still hreceived hdropped ⟨rfl, rfl⟩ (after ▸ h.room) (after ▸ hmeasured) ?_
      rw [after]
      exact fun hgo => ⟨hgo, rfl⟩
  | fail c e call why after trunk =>
      subst trunk
      have hreceived : link.received i.bridge.call? = [] := by
        rw [call]
        exact received_of_fault why
      exact h.still hreceived (dropped_of_not_fetching (by simp [after])) ⟨rfl, rfl⟩
        (by simp [after, Phase.reserves]) (by simp [after, Phase.Measured])
        (by simp [after, Phase.failed])
  | alarm e before after trunk | raise e before after trunk =>
      subst trunk
      exact h.aside (by simp [before]) ⟨rfl, rfl⟩ (by simp [after, Phase.reserves])
        (by simp [after, Phase.Measured]) (by simp [before, after, Phase.held])
        (by simp [before, after, Phase.failed])
  | release failure before after trunk | stopped failure before after trunk =>
      subst trunk
      exact h.aside (by simp [before]) ⟨rfl, rfl⟩ (by simp [after, Phase.reserves])
        (by simp [after, Phase.Measured]) (by simp [before, after, Phase.held])
        (by cases failure <;> simp [before, after, Phase.failed])
  | stop before after trunk =>
      subst trunk
      rcases before with ⟨before, -⟩ | ⟨before, -⟩ <;>
        exact h.aside (by simp [before]) ⟨rfl, rfl⟩ (by simp [after, Phase.reserves])
          (by simp [after, Phase.Measured]) (by simp [before, after, Phase.held])
          (by rw [before, after]; rfl)

/-! ## Whole runs -/

theorem Accounted.apply (h : Accounted old i) {act : Act} (hact : act ≠ .move .stopCollecting) :
    Accounted old (i.apply act) := by
  cases act with
  | step link => exact h.serve (step_passage i.bridge i.trunk link)
  | move move =>
      have hmove : move ≠ .stopCollecting := fun heq => hact (heq ▸ rfl)
      obtain ⟨n, hback⟩ := i.trunk.back_apply hmove
      refine { h with served := ?_, room := fun hreserves => ?_, queue := ?_ }
      · show (i.trunk.apply move).queues.back.receiverOpen = true
        rw [hback]
        exact h.served
      · have hroom := h.room hreserves
        show (i.trunk.apply move).queues.back.isFull = false
        simp only [hback, Queue.isFull, List.length_drop, decide_eq_false_iff_not] at hroom ⊢
        omega
      · show i.taken ++ i.trunk.collected move ++ (i.trunk.apply move).queues.back.items = _
        rw [List.append_assoc, Trunk.collected_append]
        exact h.queue

theorem Accounted.run (h : Accounted old i) {acts : List Act}
    (hopen : .move .stopCollecting ∉ acts) : Accounted old (i.run acts) := by
  induction acts generalizing i with
  | nil => exact h
  | cons act acts ih =>
      rw [List.mem_cons, not_or] at hopen
      exact ih (h.apply (Ne.symm hopen.1)) hopen.2

/-- A complete frame is queued in the next step of the bridge. -/
theorem Accounted.pieces_of_storing (h : Accounted old i) {raw : List UInt8}
    (hp : i.bridge.phase = .storing raw) (link : Link) :
    (i.apply (.step link)).pieces = i.pieces ++ [.queued raw] := by
  have hreading : ∀ got missing, i.bridge.phase ≠ .reading got missing := by simp [hp]
  have hroom := h.room (by rw [hp]; rfl)
  have hitems : (i.bridge.step i.trunk link).trunk.queues.back.items
      = i.trunk.queues.back.items ++ [raw] := by
    rw [step, hp]
    simp [store, goTo, Queue.trySend, h.served, hroom]
  exact congrArg (i.pieces ++ ·) (made_of_stored hreading hitems)

theorem Accounted.queued_of_storing (h : Accounted old i) {raw : List UInt8}
    (hp : i.bridge.phase = .storing raw) (link : Link) :
    (i.apply (.step link)).queued = i.queued ++ [raw] := by
  rw [queued, h.pieces_of_storing hp, List.filterMap_append]
  rfl

/-- The bridge deals with every byte that it reads, in the order of the bytes,
whatever the link replies and whatever others do, as long as the queue of
received frames is served. It queues a frame that is as long as its header
says, or it drops a header that no frame starts with, or a part of a frame
after which the link went quiet; the rest it holds, unless the link has failed.
A complete frame is always queued, and it is read as a frame or fails its
checksum. -/
theorem stream_partitioned (trunk : Trunk) (acts : List Act)
    (hserved : trunk.queues.back.receiverOpen = true) (hopen : .move .stopCollecting ∉ acts) :
    let i := run { trunk } acts
    (∃ rest, i.heard = i.pieces.flatMap Piece.bytes ++ rest
      ∧ (i.bridge.phase.failed = false → rest = i.bridge.phase.held))
    ∧ (∀ piece ∈ i.pieces, piece.Proper)
    ∧ i.taken ++ i.trunk.queues.back.items = trunk.queues.back.items ++ i.queued
    ∧ (∀ raw, i.bridge.phase = .storing raw →
      ∀ link, (i.apply (.step link)).queued = i.queued ++ [raw])
    ∧ (∀ link, (i.bridge.step i.trunk link).notice ≠ some .noRoom
      ∧ (i.bridge.step i.trunk link).notice ≠ some .routerGone)
    ∧ (∀ raw ∈ i.queued, (∃ f, Frame.decode raw = .ok f)
      ∨ ∃ computed sent, Frame.decode raw = .error (.checksum computed sent))
    ∧ (∀ raw, ((∃ f, Frame.decode raw = .ok f)
        ∨ ∃ computed sent, Frame.decode raw = .error (.checksum computed sent))
      ↔ Frame.remaining? (raw.take Frame.headerLength)
        = some (raw.length - Frame.headerLength)) := by
  intro i
  have hstart : Accounted trunk.queues.back.items { trunk } :=
    ⟨hserved, by simp [Phase.reserves], trivial, by simp, List.nil_prefix, fun _ => rfl,
      by simp [queued]⟩
  have hi : Accounted trunk.queues.back.items i := hstart.run hopen
  refine ⟨?_, hi.proper, hi.queue, fun raw hp => hi.queued_of_storing hp, fun link => ?_,
    fun raw hraw => ?_, fun raw => ?_⟩
  · obtain ⟨rest, hrest⟩ := hi.pieces
    refine ⟨rest, hrest.symm, fun hgo => ?_⟩
    exact List.append_cancel_left (hrest.trans (hi.held hgo))
  · have hstored : ¬ (i.bridge.step i.trunk link).notice.any Notice.unstored = true := by
      intro hnotice
      obtain ⟨raw, why, hp, hrefused⟩ := refused_of_unstored hnotice
      have hroom := hi.room (by rw [hp]; rfl)
      simp [Queue.trySend, hi.served, hroom] at hrefused
    constructor <;> intro hnotice <;> exact hstored (by rw [hnotice]; rfl)
  · obtain ⟨piece, hpiece, hraw⟩ := List.mem_filterMap.mp hraw
    cases piece with
    | queued raw' =>
        obtain rfl := Option.some.inj hraw
        exact Frame.decode_iff_sized.mpr (hi.proper _ hpiece)
    | refused | cut => cases hraw
  · rw [Frame.decode_iff_sized, Frame.sized_iff, Frame.remaining?_take]

/-- A header that no frame starts with, a frame, and another one that stops
behind its header. The queue has room for one frame, which is taken before the
second one comes. -/
theorem frame_between_garbage :
    let ack := [2, 0, 1, 0, 0, 0x42]
    let offer (ready : List UInt8) : Act := .step (.offering ready (some 9))
    let acts := List.replicate 5 (offer [1, 0, 99, 0, 0]) ++ List.replicate 5 (offer ack)
      ++ List.replicate 7 (offer (ack.drop 5)) ++ .move (.collect 1) :: List.replicate 3 (offer ack)
      ++ [.step (.quiet (.ofKind .timedOut))]
    let i := run { trunk := .ofCapacity 1 } acts
    (Trunk.ofCapacity 1).queues.back.receiverOpen = true ∧ .move .stopCollecting ∉ acts
      ∧ i.heard = i.pieces.flatMap Piece.bytes
      ∧ i.pieces.map Piece.bytes = [[1, 0, 99, 0, 0], ack, ack.take 5]
      ∧ i.queued = [ack] ∧ i.taken = [ack] := by
  intro ack offer acts i
  have hopen : .move .stopCollecting ∉ acts := by
    simp [acts, offer]
  obtain ⟨⟨rest, hheard, hrest⟩, -⟩ := stream_partitioned (.ofCapacity 1) acts rfl hopen
  have hgoing : i.bridge.phase.failed = false := by decide +kernel
  have hnothing : i.bridge.phase.held = [] := by decide +kernel
  rw [hrest hgoing, hnothing, List.append_nil] at hheard
  exact ⟨rfl, hopen, hheard, by decide +kernel, by decide +kernel, by decide +kernel⟩

end

end Intake

end Bridge

end BoardFlash
