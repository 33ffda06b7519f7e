import BoardFlash.IoError
import BoardFlash.Queue

/-!
# What the bridge shares with its surroundings

On one side of the bridge is the link, a stream of bytes that the bridge has
to itself: it makes a `Link.Call` and gets a reply of the type that fits the
call. On the other side is the `Trunk`: the queues of encoded frames, the
flag that stops the bridge, and the alarm that it raises when the link fails.
What others do to the trunk is a `Trunk.Move`, and may happen between any two
steps of the bridge.
-/

namespace BoardFlash

/-! ## The link -/

namespace Link

inductive Call where
  /-- How many bytes can be read at once? -/
  | available
  /-- Read some bytes, up to this many. -/
  | read (most : Nat)
  /-- Write some of these bytes, from the front. -/
  | write (bytes : List UInt8)
  | flush
  deriving DecidableEq

/-- What the link can reply when nothing fails. A read of no bytes is the end
of the stream; a write replies with the number of bytes that were taken. -/
def Call.Result : Call → Type
  | .available => Nat
  | .read most => { bytes : List UInt8 // bytes.length ≤ most }
  | .write bytes => Fin (bytes.length + 1)
  | .flush => Unit

abbrev Call.Reply (c : Call) : Type := Except IoError c.Result

end Link

/-- The behaviour of a link at one moment: its reply to any call. -/
abbrev Link : Type := (c : Link.Call) → c.Reply

/-! ## The trunk -/

structure Trunk where
  /-- `forth` leads to the link, `back` comes from it. -/
  queues : Duplex (List UInt8)
  /-- The bridge has been asked to stop. -/
  cancelled : Bool := false
  /-- The link has failed, and all that depends on it is cancelled. -/
  alarm : Bool := false
  deriving DecidableEq

namespace Trunk

/-- Empty queues of one capacity in both directions. -/
def ofCapacity (capacity : Nat) : Trunk where
  queues := .ofCapacity capacity

/-- The bridge lets go of its halves of both queues. -/
def release (t : Trunk) : Trunk := { t with queues := t.queues.flip.closeFirst.flip }

/-- What others can do to a trunk. -/
inductive Move where
  /-- An encoded frame is queued for the link, or lost if it does not go in. -/
  | submit (raw : List UInt8)
  /-- Up to `n` received frames are taken. -/
  | collect (n : Nat)
  | cancel
  | stopSubmitting
  | stopCollecting
  deriving DecidableEq

def apply (t : Trunk) : Move → Trunk
  | .submit raw =>
    if t.queues.forth.senderOpen then
      { t with queues := { t.queues with forth := t.queues.forth.offer raw } }
    else t
  | .collect n =>
    if t.queues.back.receiverOpen then
      { t with queues := { t.queues with back := (t.queues.back.take n).2 } }
    else t
  | .cancel => { t with cancelled := true }
  | .stopSubmitting => { t with queues := { t.queues with forth := t.queues.forth.closeSender } }
  | .stopCollecting => { t with queues := { t.queues with back := t.queues.back.closeReceiver } }

end Trunk

end BoardFlash
