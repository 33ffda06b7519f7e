import BoardFlash.Proofs.Bridge.Passage
import BoardFlash.Proofs.Wire.Cut

/-!
# What the bridge holds

Between two steps the bridge may hold a part of a frame: bytes that it has
read and not stored (`Phase.held`), or bytes that it has fetched and not
written (`Phase.unwritten`). `Link.received` and `Link.sent` are what one
call on the link adds to these bytes and takes from them; `Link.offering`
and `Link.quiet` are links that work.

From the poll on the bridge counts on room in the queue from the link
(`Phase.reserves`). While nothing goes wrong on the link, what it holds is
a frame or the beginning of one (`Phase.Fit`).
-/

namespace BoardFlash

/-! ## Between two steps -/

namespace Bridge.Phase

/-- What is left of the frame that is being written. -/
def unwritten : Phase → List UInt8
  | .writing rest => rest
  | _ => []

/-- What has been read of a frame that is not stored yet. -/
def held : Phase → List UInt8
  | .reading got _ => got
  | .storing raw => raw
  | _ => []

/-- The bridge counts on room in the queue from the link. -/
def reserves : Phase → Bool
  | .polling | .reading .. | .storing _ => true
  | _ => false

/-- The bridge is at work, and what it holds is a frame or a part of one. -/
def Fit : Phase → Prop
  | .reading got missing => Frame.Expects got missing
  | .storing raw => ∃ f : Frame, f.encode = raw
  | .writing rest => rest ≠ []
  | .failing _ | .alarming _ | .stopping _ | .stopped _ => False
  | _ => True

theorem unwritten_of_free {phase : Phase} (h : phase.free = true) : phase.unwritten = [] := by
  cases phase with
  | writing => cases h
  | _ => rfl

theorem held_of_free {phase : Phase} (h : phase.free = true) : phase.held = [] := by
  cases phase with
  | reading | storing => cases h
  | _ => rfl

theorem fit_of_free {phase : Phase} (h : phase.free = true) : phase.Fit := by
  cases phase with
  | reading | storing | writing | failing | alarming | stopping | stopped => cases h
  | _ => trivial

theorem unwritten_toWrite (rest : List UInt8) : (toWrite rest).unwritten = rest := by
  cases rest <;> rfl

theorem held_toWrite (rest : List UInt8) : (toWrite rest).held = [] := by
  cases rest <;> rfl

theorem reserves_toWrite (rest : List UInt8) : (toWrite rest).reserves = false := by
  cases rest <;> rfl

theorem fit_toWrite (rest : List UInt8) : (toWrite rest).Fit := by
  cases rest with
  | nil => trivial
  | cons b bs => exact List.cons_ne_nil b bs

end Bridge.Phase

/-! ## What a call exchanges -/

namespace Link

/-- The bytes that a call brings in. -/
def received (link : Link) : Option Call → List UInt8
  | some (.read most) =>
    match link (.read most) with
    | .ok bytes => bytes.val
    | .error _ => []
  | _ => []

/-- The bytes that a call takes. -/
def sent (link : Link) : Option Call → List UInt8
  | some (.write bytes) =>
    match link (.write bytes) with
    | .ok n => bytes.take n.val
    | .error _ => []
  | _ => []

/-- A call that fails exchanges no bytes. -/
theorem silent_of_error {link : Link} {c : Call} {e : IoError} (hreply : link c = .error e) :
    received link (some c) = [] ∧ sent link (some c) = [] := by
  cases c with
  | read | write => simp [received, sent, hreply]
  | _ => exact ⟨rfl, rfl⟩

/-! ## Links that work -/

theorem length_take_le_most (ready : List UInt8) (n most : Nat) :
    (ready.take (min n most)).length ≤ most := by
  rw [List.length_take]
  omega

theorem min_lt_length_succ (n : Nat) (bytes : List UInt8) :
    min n bytes.length < bytes.length + 1 :=
  Nat.lt_succ_of_le (Nat.min_le_right _ _)

/-- A link with these bytes ready to be read. It gives and takes bytes in
portions of any size; without a portion a call is interrupted. -/
def offering (ready : List UInt8) (portion : Option Nat) : Link
  | .available => .ok ready.length
  | .read most =>
    match portion with
    | some n => .ok ⟨ready.take (min (n + 1) most), length_take_le_most ready (n + 1) most⟩
    | none => .error (.ofKind .interrupted)
  | .write bytes =>
    match portion with
    | some n => .ok ⟨min (n + 1) bytes.length, min_lt_length_succ (n + 1) bytes⟩
    | none => .error (.ofKind .interrupted)
  | .flush => .ok ()

/-- A link that nothing comes from. A read gives up after a while. -/
def quiet (cause : IoError) : Link
  | .read _ => .error cause
  | c => offering [] (some 0) c

end Link

/-- Without a frame in its hands the bridge exchanges no bytes. -/
theorem Bridge.silent_of_free {b : Bridge} (hfree : b.phase.free = true) (link : Link) :
    link.received b.call? = [] ∧ link.sent b.call? = [] := by
  unfold call?
  cases hp : b.phase with
  | reading | writing => rw [hp] at hfree; cases hfree
  | _ => exact ⟨rfl, rfl⟩

end BoardFlash
