import BoardFlash.Failure
import BoardFlash.Wire.UpdateRequest
import BoardFlash.Proofs.Cursor

/-!
# The protocol of an update, without its machinery

`Reference` is the stop-and-wait protocol as a transducer. What comes in is
what becomes of each exchange, an answer of the board or silence
(`Answer`), and what goes out are the frames of the update:

* the request, and once it is granted the chunks of the image in order,
* each of them as often as the board refuses it, but no more than the given
  number of times in all.

There are no queues, no clock and no phases in it. The number of times that a
chunk may still be sent counts down here.
-/

namespace BoardFlash

/-- What becomes of an exchange. -/
inductive Answer where
  | ack
  | nack
  | fatalError
  /-- None of these in time. -/
  | silence
  deriving DecidableEq

/-- What the frame answers, if it is an answer. -/
def Frame.answer? (f : Frame) : Option Answer :=
  match f.type with
  | .ack => some .ack
  | .nack => some .nack
  | .fatalError => some .fatalError
  | _ => none

/-- A frame apart from the bound on its payload. -/
structure Message where
  type : FrameType
  source : UInt8
  dest : UInt8
  payload : List UInt8
  deriving DecidableEq

def Frame.message (f : Frame) : Message := ⟨f.type, f.source, f.dest, f.payload⟩

namespace Reference

inductive State where
  /-- The request is with the board; these are the chunks to come. -/
  | asking (chunks : List (List UInt8))
  /-- The first of the chunks is with the board, and may be sent `tries` times
  more. -/
  | moving (chunks : List (List UInt8)) (tries : Nat)
  | over (failure : Option Failure)
  deriving DecidableEq

end Reference

/-- What has been sent, and where that leads. -/
structure Reference where
  sent : List Message
  state : Reference.State
  deriving DecidableEq

namespace Reference

variable (board : UInt8) (limit : UInt32)

def request (image : Firmware) : Message :=
  ⟨.programUpdateRequest, hostId, board,
    (UpdateRequest.announce image.chunkCount image.digest).encode⟩

/-- Sends the first of the chunks, if it may be sent `tries` times more. -/
def offer : List (List UInt8) → Nat → Reference
  | [], _ => ⟨[], .over none⟩
  | _ :: _, 0 => ⟨[], .over (some (.retriesExhausted limit))⟩
  | chunk :: chunks, tries + 1 =>
    ⟨[⟨.programData, hostId, board, chunk⟩], .moving (chunk :: chunks) tries⟩

/-- What follows an answer. -/
def react : State → Answer → Reference
  | .over failure, _ => ⟨[], .over failure⟩
  | .asking chunks, .ack => offer board limit chunks limit.toNat
  | .asking _, .nack => ⟨[], .over (some .rejected)⟩
  | .moving chunks _, .ack => offer board limit chunks.tail limit.toNat
  | .moving chunks tries, .nack => offer board limit chunks tries
  | _, .fatalError => ⟨[], .over (some .boardFault)⟩
  | _, .silence => ⟨[], .over (some .timeout)⟩

def start (image : Firmware) : Reference := ⟨[request board image], .asking image.chunks⟩

def hear (r : Reference) (a : Answer) : Reference :=
  let next := react board limit r.state a
  ⟨r.sent ++ next.sent, next.state⟩

/-- The update of the board with the image, after these answers. -/
def after (image : Firmware) (answers : List Answer) : Reference :=
  answers.foldl (hear board limit) (start board image)

variable {board limit}

theorem after_concat (image : Firmware) (answers : List Answer) (a : Answer) :
    after board limit image (answers ++ [a])
      = (after board limit image answers).hear board limit a := by
  rw [after, List.foldl_append]
  rfl

theorem length_sent_offer_le (chunks : List (List UInt8)) (tries : Nat) :
    (offer board limit chunks tries).sent.length ≤ 1 := by
  unfold offer
  split <;> simp

/-- Nothing is under way any more once the protocol is over. -/
theorem sent_offer_of_over {chunks : List (List UInt8)} {tries : Nat} {failure : Option Failure}
    (h : (offer board limit chunks tries).state = .over failure) :
    (offer board limit chunks tries).sent = [] := by
  unfold offer at h ⊢
  split <;> first | rfl | cases h

end Reference

end BoardFlash
