import BoardFlash.Queue
import BoardFlash.Wire.Frame

/-!
# What a session shares with its surroundings

A session sees the rest of the program as a `Mailbox`: the queue of the
board's answers, the queue of frames to the board and its cancellation flag.
Everything that others can do to it is a `Mailbox.Move`, and may happen
between any two steps of the session.
-/

namespace BoardFlash

structure Mailbox where
  /-- Frames from the board. -/
  inbound : Queue Frame
  /-- Frames to the board. -/
  outbound : Queue Frame
  cancelled : Bool := false
  deriving DecidableEq

namespace Mailbox

/-- Empty queues of one capacity in both directions. -/
def ofCapacity (capacity : Nat) : Mailbox where
  inbound := { capacity }
  outbound := { capacity }

/-- The session lets go of its halves of both queues. -/
def release (m : Mailbox) : Mailbox :=
  { m with inbound := m.inbound.closeReceiver, outbound := m.outbound.closeSender }

/-- What others can do to a mailbox. -/
inductive Move where
  /-- A frame is put in the inbound queue, or lost if it does not go in. -/
  | deliver (frame : Frame)
  /-- Up to `n` frames are taken from the outbound queue. -/
  | collect (n : Nat)
  | cancel
  /-- The sending half of the inbound queue is closed. -/
  | stopDelivering
  /-- The receiving half of the outbound queue is closed. -/
  | stopCollecting
  deriving DecidableEq

/-- The frame in the inbound queue, unless that is full or closed. -/
def deliver? (m : Mailbox) (frame : Frame) : Option Mailbox :=
  if m.inbound.senderOpen then
    match m.inbound.trySend frame with
    | .ok q => some { m with inbound := q }
    | .error _ => none
  else none

def apply (m : Mailbox) : Move → Mailbox
  | .deliver frame => (m.deliver? frame).getD m
  | .collect n =>
    if m.outbound.receiverOpen then { m with outbound := (m.outbound.take n).2 } else m
  | .cancel => { m with cancelled := true }
  | .stopDelivering => { m with inbound := m.inbound.closeSender }
  | .stopCollecting => { m with outbound := m.outbound.closeReceiver }

/-- A frame that is delivered is the last one in the inbound queue, or lost. -/
theorem apply_deliver (m : Mailbox) (f : Frame) :
    m.apply (.deliver f) = m
    ∨ m.apply (.deliver f)
      = { m with inbound := { m.inbound with items := m.inbound.items ++ [f] } } := by
  unfold apply deliver?
  dsimp only
  split
  · split
    · next q hq =>
      obtain ⟨-, -, rfl⟩ := Queue.trySend_eq_ok_iff.mp hq
      exact .inr rfl
    · exact .inl rfl
  · exact .inl rfl

theorem apply_deliver_items (m : Mailbox) (f : Frame) :
    (m.apply (.deliver f)).outbound = m.outbound
    ∧ ((m.apply (.deliver f)).inbound.items = m.inbound.items
      ∨ (m.apply (.deliver f)).inbound.items = m.inbound.items ++ [f]) := by
  rcases m.apply_deliver f with hlost | hlast
  · rw [hlost]
    exact ⟨rfl, .inl rfl⟩
  · rw [hlast]
    exact ⟨rfl, .inr rfl⟩

end Mailbox

end BoardFlash
