import BoardFlash.Proofs.Bridge.Ending
import BoardFlash.Proofs.Bridge.Intake
import Mathlib.Data.Nat.Notation

/-!
# The bridge on a slow link

A `Line` is the bridge on a link that works, however slowly: bytes come in
when they like, a call gets some of them through or is interrupted, and a
read that finds none waits for the next one or gives up. `Event` lists what
one act does to a line.

A line stays `Sound`: nothing of this ends the bridge, and all that it has
read is accounted for. What has come in is read or ready to be read
(`heard_after`), and as long as no read gives up no piece ends early
(`pieces_since`). What that leaves for the pieces is said by
`frames_of_pieces` if frames come in, and by `no_piece_of_expects` if a
part of one does.
-/

namespace BoardFlash

namespace Bridge

/-- The bridge has not ended, and if it writes there is something to write. -/
def Phase.AtWork : Phase → Prop
  | .writing rest => rest ≠ []
  | .failing _ | .alarming _ | .stopping _ | .stopped _ => False
  | _ => True

/-! ## Lines -/

/-- The bridge on a link that works, however slowly. -/
structure Line extends Intake where
  /-- What has come in and has not been read yet. -/
  ready : List UInt8 := []

namespace Line

/-- What may happen next. -/
inductive Act where
  /-- A step of the bridge. A call on the link gets so many bytes through, at most
  and one more, or it is interrupted. -/
  | step (portion : Option Nat)
  /-- A read that waits for a byte gives up. -/
  | giveUp (cause : IoError)
  | arrive (bytes : List UInt8)
  | move (move : Trunk.Move)

namespace Act

/-- The bytes that come in. -/
def bytes : Act → List UInt8
  | .arrive bytes => bytes
  | _ => []

/-- The bridge is left at work, with somebody at the other end of its queues. -/
def keeps : Act → Bool
  | .move .cancel | .move .stopSubmitting | .move .stopCollecting => false
  | _ => true

end Act

/-- A read waits for a byte. -/
def starved (l : Line) : Bool :=
  match l.bridge.phase with
  | .reading .. => l.ready.isEmpty
  | _ => false

def serve (l : Line) (link : Link) : Line where
  toIntake := l.toIntake.apply (.step link)
  ready := l.ready.drop (link.received l.bridge.call?).length

def apply (l : Line) : Act → Line
  | .step portion => if l.starved then l else l.serve (.offering l.ready portion)
  | .giveUp cause => if l.starved && isQuiet cause then l.serve (.quiet cause) else l
  | .arrive bytes => { l with ready := l.ready ++ bytes }
  | .move move => { l with toIntake := l.toIntake.apply (.move move) }

/-- What has come in and has not been dealt with. -/
def pending (l : Line) : List UInt8 := l.bridge.phase.held ++ l.ready

/-- After the first `n` of the acts. -/
def after (l : Line) (acts : ℕ → Act) : ℕ → Line
  | 0 => l
  | n + 1 => (l.after acts n).apply (acts n)

/-- What has come in with the first `n` of the acts. -/
def arrived (acts : ℕ → Act) : ℕ → List UInt8
  | 0 => []
  | n + 1 => arrived acts n ++ (acts n).bytes

/-- What one act does to a line. -/
inductive Event (l : Line) : Act → Line → Prop where
  /-- A read still waits, or no read waits that could give up. -/
  | wait (act : Act) (nothing : act.bytes = []) : Event l act l
  | serve (portion : Option ℕ) (ready : l.starved = false) :
    Event l (.step portion) (l.serve (.offering l.ready portion))
  | giveUp (cause : IoError) (starved : l.starved = true) (quiet : isQuiet cause = true) :
    Event l (.giveUp cause) (l.serve (.quiet cause))
  | arrive (bytes : List UInt8) : Event l (.arrive bytes) { l with ready := l.ready ++ bytes }
  | move (move : Trunk.Move) :
    Event l (.move move) { l with toIntake := l.toIntake.apply (.move move) }

theorem apply_event (l : Line) (act : Act) : Event l act (l.apply act) := by
  cases act with
  | step portion =>
      cases hstarved : l.starved with
      | false => simpa [Line.apply, hstarved] using Event.serve portion hstarved
      | true => simpa [Line.apply, hstarved] using Event.wait (.step portion) rfl
  | giveUp cause =>
      by_cases hquiet : l.starved = true ∧ isQuiet cause = true
      · simpa [Line.apply, hquiet] using Event.giveUp cause hquiet.1 hquiet.2
      · simpa [Line.apply, hquiet] using Event.wait (l := l) (.giveUp cause) rfl
  | arrive bytes => exact .arrive bytes
  | move move => exact .move move

/-- The bridge is at work, and all that it has read is accounted for. -/
structure Sound (old : List (List UInt8)) (l : Line) : Prop where
  accounted : l.toIntake.Accounted old
  atWork : l.bridge.phase.AtWork
  going : l.trunk.cancelled = false
  submitting : l.trunk.queues.forth.senderOpen = true

section

variable {old : List (List UInt8)} {l l' : Line} {act : Act} {acts : ℕ → Act}
  {b b' : Bridge} {t t' : Trunk} {link : Link} {portion : Option ℕ}

/-! ## The bridge stays at work -/

theorem atWork_of_free {phase : Phase} (hfree : phase.free = true) : phase.AtWork := by
  cases phase with
  | writing | failing | alarming | stopping | stopped => cases hfree
  | _ => trivial

theorem atWork_toWrite (rest : List UInt8) : (Phase.toWrite rest).AtWork := by
  cases rest with
  | nil => trivial
  | cons b bs => exact List.cons_ne_nil b bs

theorem failed_of_atWork {phase : Phase} (hwork : phase.AtWork) : phase.failed = false := by
  cases phase with
  | failing | alarming | stopping | stopped => exact hwork.elim
  | _ => rfl

/-- Nothing but a failure of the link or an order to stop ends the bridge. -/
theorem atWork_of_passage (p : Passage b t link b' t') (hwork : b.phase.AtWork)
    (hgoing : t.cancelled = false) (hsubmitting : t.queues.forth.senderOpen = true)
    (hlink : ∀ c, b.call? = some c → fault? c (link c) = none) : b'.phase.AtWork := by
  cases p with
  | quiet _ after => exact atWork_of_free after
  | fetch _ _ _ _ after | write _ _ _ _ _ after =>
      rw [after]
      exact atWork_toWrite _
  | again _ _ _ _ _ after =>
      rw [after]
      exact hwork
  | fail c e call why =>
      rw [hlink c call] at why
      cases why
  | alarm _ before | raise _ before | release _ before | stopped _ before =>
      rw [before] at hwork
      exact hwork.elim
  | stop before =>
      rcases before with ⟨-, hcancelled⟩ | ⟨-, hclosed⟩
      · rw [hgoing] at hcancelled
        cases hcancelled
      · rw [(Queue.tryRecv_eq_disconnected_iff.mp hclosed).2] at hsubmitting
        cases hsubmitting
  | start _ _ _ _ after | read _ _ _ _ _ _ after | header _ _ _ _ _ _ _ _ _ after
  | garble _ _ _ _ _ _ _ _ after | whole _ _ _ _ _ _ _ after | cut _ _ _ _ _ _ after
  | store _ _ _ _ after | overflow _ _ _ _ after =>
      rw [after]
      trivial

theorem offering_no_fault {ready : List UInt8} {portion : Option Nat}
    (hmeasured : b.phase.Measured) (hwork : b.phase.AtWork)
    (hready : ∀ got missing, b.phase = .reading got missing → ready ≠ [])
    {c : Link.Call} (hcall : b.call? = some c) :
    fault? c (Link.offering ready portion c) = none := by
  cases hp : b.phase with
  | reading got missing =>
      rw [call?, hp] at hcall
      obtain rfl := Option.some.inj hcall
      cases portion with
      | none => rfl
      | some n =>
          rw [hp] at hmeasured
          refine if_neg fun hnil => ?_
          rcases List.take_eq_nil_iff.mp hnil with hzero | hnil
          · have hpos := hmeasured.1
            omega
          · exact hready got missing hp hnil
  | writing rest =>
      rw [call?, hp] at hcall
      obtain rfl := Option.some.inj hcall
      cases portion with
      | none => rfl
      | some n =>
          rw [hp] at hwork
          refine if_neg fun hzero => ?_
          have hpos := List.length_pos_iff.mpr hwork
          dsimp only at hzero
          omega
  | polling | flushing =>
      rw [call?, hp] at hcall
      obtain rfl := Option.some.inj hcall
      rfl
  | _ =>
      rw [call?, hp] at hcall
      cases hcall

theorem starved_iff : l.starved = true ↔
    ∃ got missing, l.bridge.phase = .reading got missing ∧ l.ready = [] := by
  unfold starved
  split
  · next got missing hp => simp [hp]
  · next hp => simpa using fun got missing hreading => absurd hreading (hp got missing)

/-- A read that gives up does not end the bridge. -/
theorem quiet_no_fault {cause : IoError} (hstarved : l.starved = true)
    (hquiet : isQuiet cause = true) {c : Link.Call} (hcall : l.bridge.call? = some c) :
    fault? c (Link.quiet cause c) = none := by
  obtain ⟨got, missing, hp, -⟩ := starved_iff.mp hstarved
  rw [call?, hp] at hcall
  obtain rfl := Option.some.inj hcall
  exact if_pos (.inr hquiet)

theorem Sound.serve (h : Sound old l)
    (hlink : ∀ c, l.bridge.call? = some c → fault? c (link c) = none) :
    Sound old (l.serve link) := by
  have hpassage := step_passage l.bridge l.trunk link
  obtain ⟨hsubmitting, -, hcancelled⟩ := hpassage.far_ends
  exact ⟨h.accounted.serve hpassage,
    atWork_of_passage hpassage h.atWork h.going h.submitting hlink,
    hcancelled.trans h.going, hsubmitting.trans h.submitting⟩

/-- Who stays at the other end of the queues does not stop the bridge. -/
theorem ends_of_keeps (t : Trunk) {move : Trunk.Move} (hkeeps : (Act.move move).keeps = true) :
    (t.apply move).cancelled = t.cancelled
      ∧ (t.apply move).queues.forth.senderOpen = t.queues.forth.senderOpen := by
  cases move with
  | submit raw =>
      simp only [Trunk.apply, Queue.offer]
      split
      · refine ⟨rfl, ?_⟩
        split
        · next hsent =>
          obtain ⟨-, -, rfl⟩ := Queue.trySend_eq_ok_iff.mp hsent
          rfl
        · rfl
      · exact ⟨rfl, rfl⟩
  | collect n =>
      simp only [Trunk.apply]
      split <;> exact ⟨rfl, rfl⟩
  | cancel | stopSubmitting | stopCollecting => cases hkeeps

theorem Event.sound (e : Event l act l') (h : Sound old l) (hkeeps : act.keeps = true) :
    Sound old l' := by
  cases e with
  | wait => exact h
  | serve portion hready =>
      refine h.serve fun c hcall => offering_no_fault h.accounted.measured h.atWork ?_ hcall
      intro got missing hp hnil
      rw [starved_iff.mpr ⟨got, missing, hp, hnil⟩] at hready
      cases hready
  | giveUp cause hstarved hquiet =>
      exact h.serve fun c hcall => quiet_no_fault hstarved hquiet hcall
  | arrive bytes => exact ⟨h.accounted, h.atWork, h.going, h.submitting⟩
  | move move =>
      have haccounted : Intake.Accounted old (l.toIntake.apply (.move move)) := by
        refine h.accounted.apply fun heq => ?_
        cases heq
        cases hkeeps
      obtain ⟨hcancelled, hsubmitting⟩ := ends_of_keeps l.trunk hkeeps
      exact ⟨haccounted, h.atWork, hcancelled.trans h.going, hsubmitting.trans h.submitting⟩

theorem Sound.after (h : Sound old l) (hkeeps : ∀ n, (acts n).keeps = true) (n : ℕ) :
    Sound old (l.after acts n) := by
  induction n with
  | zero => exact h
  | succ n ih => exact (apply_event _ _).sound ih (hkeeps n)

theorem Sound.of_rest {bridge : Bridge} {trunk : Trunk}
    (hrest : bridge.phase = .starting ∨ bridge.phase = .resting)
    (hopen : trunk.queues.forth.senderOpen = true ∧ trunk.queues.back.receiverOpen = true)
    (hgoing : trunk.cancelled = false) : Sound trunk.queues.back.items { bridge, trunk } := by
  refine ⟨⟨hopen.2, ?_, ?_, by simp, List.nil_prefix, fun _ => ?_, ?_⟩, ?_, hgoing, hopen.1⟩
  · rcases hrest with hp | hp <;> simp [hp, Phase.reserves]
  · rcases hrest with hp | hp <;> simp [hp, Phase.Measured]
  · rcases hrest with hp | hp <;> simp [hp, Phase.held]
  · simp [Intake.queued]
  · rcases hrest with hp | hp <;> simp [hp, Phase.AtWork]

/-! ## On the way to a read -/

theorem step_resting (hp : b.phase = .resting) (hgoing : t.cancelled = false) (link : Link) :
    (b.step t link).bridge.phase = .checking := by
  rw [step, hp]
  exact if_neg (by simp [hgoing])

theorem step_checking (hp : b.phase = .checking) (hroom : t.queues.back.isFull = false)
    (link : Link) : (b.step t link).bridge.phase = .polling := by
  rw [step, hp]
  exact if_neg (by simp [hroom])

theorem step_polling {ready : List UInt8} (hp : b.phase = .polling)
    (henough : Frame.headerLength ≤ ready.length) (portion : Option ℕ) :
    (b.step t (.offering ready portion)).bridge.phase = .reading [] Frame.headerLength := by
  rw [step, hp]
  exact if_pos henough

/-! ## What has come in -/

/-- What a read brings in comes from the front of what is ready. -/
theorem received_append_drop (ready : List UInt8) (portion : Option Nat) (c : Option Link.Call) :
    (Link.offering ready portion).received c
      ++ ready.drop ((Link.offering ready portion).received c).length = ready := by
  cases c with
  | none => rfl
  | some c =>
      cases c with
      | read most =>
          cases portion with
          | none => rfl
          | some n =>
              have hfront : ready.take (min (n + 1) most) <+: ready := List.take_prefix _ _
              exact List.prefix_iff_eq_append.mp hfront
      | _ => rfl

theorem Event.heard (e : Event l act l') : l'.heard ++ l'.ready = l.heard ++ l.ready ++ act.bytes := by
  cases e with
  | wait _ hnothing => rw [hnothing, List.append_nil]
  | serve portion =>
      show l.heard ++ _ ++ l.ready.drop _ = l.heard ++ l.ready ++ []
      rw [List.append_assoc, received_append_drop, List.append_nil]
  | giveUp cause =>
      have hnone : (Link.quiet cause).received l.bridge.call? = [] := by
        cases l.bridge.call? with
        | none => rfl
        | some c => cases c <;> rfl
      show l.heard ++ _ ++ l.ready.drop _ = l.heard ++ l.ready ++ []
      rw [hnone, List.append_nil, List.append_nil]
      rfl
  | arrive bytes => exact (List.append_assoc ..).symm
  | move move => exact (List.append_nil _).symm

/-- All that has come in is read or ready to be read. -/
theorem heard_after (l : Line) (acts : ℕ → Act) (n : ℕ) :
    (l.after acts n).heard ++ (l.after acts n).ready = l.heard ++ l.ready ++ arrived acts n := by
  induction n with
  | zero => exact (List.append_nil _).symm
  | succ n ih => rw [Line.after, (apply_event _ _).heard, ih, List.append_assoc, arrived]

theorem Sound.heard (h : Sound old l) : l.heard ++ l.ready
    = l.pieces.flatMap Piece.bytes ++ l.pending := by
  rw [h.accounted.held (failed_of_atWork h.atWork), List.append_assoc, pending]

/-- All that has come in is in the pieces or has not been dealt with. -/
theorem Sound.stream (h : Sound old l) (hkeeps : ∀ n, (acts n).keeps = true) (n : ℕ) :
    (l.after acts n).pieces.flatMap Piece.bytes ++ (l.after acts n).pending
      = l.heard ++ l.ready ++ arrived acts n := by
  rw [← (h.after hkeeps n).heard, heard_after]

theorem arrived_grow (acts : ℕ → Act) {m n : ℕ} (hle : m ≤ n) :
    arrived acts m <+: arrived acts n := by
  induction hle with
  | refl => exact List.prefix_rfl
  | step _ ih => exact ih.trans (List.prefix_append _ _)

/-- If nothing has come in between two times, then nothing had at a time between
them. -/
theorem arrived_between {m k n : ℕ} (hsame : arrived acts n = arrived acts m) (hm : m ≤ k)
    (hn : k ≤ n) : arrived acts k = arrived acts m := by
  have hback := arrived_grow acts hn
  rw [hsame] at hback
  exact hback.eq_of_length_le (arrived_grow acts hm).length_le

theorem no_bytes_of_arrived {m k n : ℕ} (hsame : arrived acts n = arrived acts m) (hm : m ≤ k)
    (hn : k < n) : (acts k).bytes = [] := by
  have hnext := arrived_between hsame (Nat.le_succ_of_le hm) hn
  rw [arrived, arrived_between hsame hm (Nat.le_of_lt hn)] at hnext
  exact List.append_right_eq_self.mp hnext

/-! ## What has been made of it -/

/-- With bytes at hand no read gives up. -/
theorem not_cut_of_offering (h : Sound old (l.serve (.offering l.ready portion)))
    (part : List UInt8) (cause : IoError) :
    .cut part cause ∉ l.made (.offering l.ready portion)
      (l.serve (.offering l.ready portion)).bridge (l.serve (.offering l.ready portion)).trunk := by
  intro hcut
  obtain ⟨-, hquiet⟩ := h.accounted.proper _ (List.mem_append_right l.pieces hcut)
  rcases List.mem_append.mp hcut with hcut | hcut
  · obtain ⟨raw, -, heq⟩ := List.mem_map.mp hcut
    cases heq
  · unfold dropped at hcut
    split at hcut
    · split at hcut
      · cases List.mem_singleton.mp hcut
      · next hreply =>
        cases List.mem_singleton.mp hcut
        cases portion with
        | none =>
            obtain rfl := Except.error.inj hreply
            cases hquiet
        | some n => cases hreply
    · cases hcut

/-- The bridge adds to its pieces, and it ends none early unless a read gives
up. -/
theorem Event.pieces (e : Event l act l') (h : Sound old l') (hpatient : ∀ cause, act ≠ .giveUp cause) :
    ∃ new, l'.pieces = l.pieces ++ new ∧ ∀ part cause, .cut part cause ∉ new := by
  cases e with
  | serve => exact ⟨_, rfl, not_cut_of_offering h⟩
  | giveUp cause => exact absurd rfl (hpatient cause)
  | wait | arrive | move => exact ⟨[], (List.append_nil _).symm, fun _ _ => List.not_mem_nil⟩

/-- From one time to a later one, while no read gives up, pieces are added and
none of them ends early. -/
theorem pieces_since (h : Sound old l) (hkeeps : ∀ n, (acts n).keeps = true)
    {m n : ℕ} (hle : m ≤ n) (hpatient : ∀ k, m ≤ k → k < n → ∀ cause, acts k ≠ .giveUp cause) :
    ∃ new, (l.after acts n).pieces = (l.after acts m).pieces ++ new
      ∧ ∀ part cause, .cut part cause ∉ new := by
  induction hle with
  | refl => exact ⟨[], (List.append_nil _).symm, fun _ _ => List.not_mem_nil⟩
  | @step n hle ih =>
      obtain ⟨new, hnew, hcut⟩ := ih fun k hk hkn => hpatient k hk (Nat.lt_succ_of_lt hkn)
      obtain ⟨more, hmore, hcut'⟩ := (apply_event (l.after acts n) (acts n)).pieces
        (h.after hkeeps (n + 1)) (hpatient n hle (Nat.lt_succ_self n))
      refine ⟨new ++ more, ?_, fun part cause hpart => ?_⟩
      · rw [Line.after, hmore, hnew, List.append_assoc]
      · rcases List.mem_append.mp hpart with hpart | hpart
        · exact hcut part cause hpart
        · exact hcut' part cause hpart

/-- Pieces of a stream of frames, none of which ended early, are frames from
its front. -/
theorem frames_of_pieces {pieces : List Piece} {rest : List UInt8} {fs : List Frame}
    (hproper : ∀ piece ∈ pieces, piece.Proper)
    (hcut : ∀ part cause, .cut part cause ∉ pieces)
    (hstream : pieces.flatMap Piece.bytes ++ rest = fs.flatMap Frame.encode) :
    ∃ done todo, fs = done ++ todo ∧ pieces = done.map (.queued ·.encode)
      ∧ rest = todo.flatMap Frame.encode := by
  induction pieces generalizing fs with
  | nil => exact ⟨[], fs, rfl, rfl, hstream⟩
  | cons piece pieces ih =>
      rw [List.flatMap_cons, List.append_assoc] at hstream
      have hwhole : Frame.Whole (piece.bytes ++ (pieces.flatMap Piece.bytes ++ rest)) :=
        ⟨fs, hstream⟩
      have hpiece := hproper piece List.mem_cons_self
      cases piece with
      | queued raw =>
          obtain ⟨f, rfl⟩ := hwhole.exists_encode_of_sized hpiece
          obtain ⟨more, rfl, hmore⟩ := Frame.exists_cons_of_append hstream
          obtain ⟨done, todo, rfl, rfl, hrest⟩ := ih
            (fun piece h => hproper piece (List.mem_cons_of_mem _ h))
            (fun part cause h => hcut part cause (List.mem_cons_of_mem _ h)) hmore
          exact ⟨f :: done, todo, rfl, rfl, hrest⟩
      | refused header =>
          obtain ⟨hheader, hnone⟩ := hpiece
          obtain ⟨f, -, -, hsome⟩ := hwhole.exists_prefix (Nat.le_of_eq hheader.symm)
          cases hnone.symm.trans hsome
      | cut part cause => exact absurd List.mem_cons_self (hcut part cause)

/-- No piece is as long as bytes that a reader still expects more of, unless it
ended early. -/
theorem no_piece_of_expects {pieces : List Piece} {bytes rest : List UInt8} {missing : ℕ}
    (hbytes : Frame.Expects bytes missing) (hproper : ∀ piece ∈ pieces, piece.Proper)
    (hcut : ∀ part cause, .cut part cause ∉ pieces)
    (hstream : pieces.flatMap Piece.bytes ++ rest = bytes) : pieces = [] := by
  cases pieces with
  | nil => rfl
  | cons piece pieces =>
      rw [List.flatMap_cons, List.append_assoc] at hstream
      obtain ⟨hpos, hmore⟩ := hbytes
      have hpiece := hproper piece List.mem_cons_self
      have hlen := congrArg List.length hstream
      rw [List.length_append] at hlen
      cases piece with
      | queued raw =>
          have hrem := Frame.sized_iff.mp hpiece
          obtain ⟨n, -, hraw⟩ := hpiece
          have hrem' := Frame.remaining?_append (Nat.le_of_add_right_le (Nat.le_of_eq hraw.symm))
            (pieces.flatMap Piece.bytes ++ rest)
          rw [show raw ++ _ = bytes from hstream, hrem] at hrem'
          rw [show (Piece.queued raw).bytes = raw from rfl] at hlen
          rcases hmore with hshort | ⟨-, hlong⟩
          · omega
          · have hsame := Option.some.inj (hrem'.symm.trans hlong)
            omega
      | refused header =>
          obtain ⟨hheader, hnone⟩ := hpiece
          have hrem := Frame.remaining?_append (Nat.le_of_eq hheader.symm)
            (pieces.flatMap Piece.bytes ++ rest)
          rw [show header ++ _ = bytes from hstream, hnone] at hrem
          rw [show (Piece.refused header).bytes = header from rfl] at hlen
          rcases hmore with hshort | ⟨-, hlong⟩
          · omega
          · cases hrem.symm.trans hlong
      | cut part cause => exact absurd List.mem_cons_self (hcut part cause)

theorem Event.pieces_grow (e : Event l act l') : l.pieces <+: l'.pieces := by
  cases e with
  | serve | giveUp => exact ⟨_, rfl⟩
  | wait | arrive | move => exact List.prefix_rfl

theorem pieces_grow (l : Line) (acts : ℕ → Act) {m n : ℕ} (hle : m ≤ n) :
    (l.after acts m).pieces <+: (l.after acts n).pieces := by
  induction hle with
  | refl => exact List.prefix_rfl
  | step _ ih => exact ih.trans (apply_event _ _).pieces_grow

end

end Line

end Bridge

end BoardFlash
