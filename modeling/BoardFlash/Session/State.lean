import BoardFlash.Failure
import BoardFlash.Log
import BoardFlash.Text.Terminal
import BoardFlash.Time
import BoardFlash.Wire.Frame

/-!
# The states of a session

```text
                 START
                   |
                   v
            .------------.   rejected, timeout
            | requesting |----------------------.
            '------------'                      |
                   | ack                        |
                   v                            |
            .------------.    no more data      |
    .------>| preparing  |------------------.   |
    |       '------------'                  |   |
    |              | chunk ready            |   |
    |              v                        v   v
    |  ack  .------------.   timeout,    .--------.
    '-------|  sending   |-------------->|  done  |
            '------------'   refused     '--------'
              |        ^     too often       |
              '--------'                     v
                 nack                       END
```

Whatever a state does ends in an `Event`, and `State.next?` is the diagram:
the state that the event leads to, if the state accepts the event.
-/

namespace BoardFlash

namespace Session

inductive State where
  | requesting
  | preparing
  /-- `packet` is the frame to send, until it is taken to be sent; `refusals`
  counts the refusals of this chunk so far. -/
  | sending (packet : Option Frame) (refusals : UInt32)
  /-- The session is over, with `failure` if it failed; `reported` once that
  has been told. -/
  | done (failure : Option Failure) (reported : Bool)
  deriving DecidableEq

inductive Event where
  /-- The board took what was sent: on to the next chunk. -/
  | prepare
  /-- The chunk at the cursor is in a frame. -/
  | ready (packet : Frame)
  /-- The board refused the frame for the `refusals`-th time. -/
  | again (packet : Frame) (refusals : UInt32)
  | over (failure : Option Failure)
  | exit (failure : Option Failure)
  deriving DecidableEq

namespace State

def isDone : State → Bool
  | .done .. => true
  | _ => false

/-- The state that follows, or nothing where no arrow leaves with the event. -/
def next? : State → Event → Option State
  | .requesting, .prepare => some .preparing
  | .requesting, .over failure => some (.done failure false)
  | .preparing, .ready packet => some (.sending (some packet) 0)
  | .preparing, .over failure => some (.done failure false)
  | .sending .., .prepare => some .preparing
  | .sending .., .again packet refusals => some (.sending (some packet) refusals)
  | .sending .., .over failure => some (.done failure false)
  | .done .., .exit failure => some (.done failure true)
  | _, _ => none

end State

/-- Why a session broke down without an outcome of its own. -/
inductive Fault where
  | illegalEvent
  | packetTaken
  | payloadTooLarge (length : Nat)
  | deadlineOverflow
  /-- A counter has no room for one more. -/
  | counterOverflow
  /-- Stopped from outside in the middle of its work. -/
  | killed
  deriving DecidableEq, Repr

/-- What a session lets others know of its work. -/
inductive Notice where
  | requesting
  | preparing (offset : Nat)
  | sending (refusals : UInt32)
  | done (failure : Option Failure)
  /-- A frame from before the exchange was thrown away. -/
  | stale (frame : Frame)
  /-- A frame is about to be put in the outbound queue. -/
  | announced (frame : Frame)
  /-- A frame that is no answer came while an answer was awaited. -/
  | ignored (frame : Frame)
  | rejected
  | refused
  | exhausted (offset : Nat) (refusals : UInt32)
  | reported (failure : Option Failure) (elapsed : Duration)
  deriving DecidableEq

namespace Notice

def resultName : Option Failure → String
  | none => "Ok(())"
  | some failure => "Err(" ++ failure.name ++ ")"

/-- The log record of the notice; the report is printed instead. -/
def record? (board : UInt8) (n : Notice) : Option Log.Record :=
  (levelAndText n).map fun (level, text) => ⟨level, s!"[{board}] " ++ text⟩
where
  levelAndText : Notice → Option (Log.Level × String)
    | .requesting => some (.info, "=> Requesting")
    | .preparing offset => some (.debug, s!"=> Preparing (offset {offset})")
    | .sending refusals => some (.debug, s!"=> Sending (retry {refusals})")
    | .done failure => some (.info, "=> Done (" ++ resultName failure ++ ")")
    | .stale frame =>
      if frame.type = .fatalError then
        some (.warn, "board reported a fatal error between exchanges")
      else some (.debug, "discarding stale " ++ frame.describe)
    | .announced frame => some (.trace, "sending " ++ frame.describe)
    | .ignored frame => some (.debug, "ignoring unexpected " ++ frame.describe)
    | .rejected => some (.warn, "board responded with NACK, update aborted")
    | .refused => some (.debug, "chunk refused, sending it again")
    | .exhausted offset refusals =>
      some (.warn, s!"chunk at offset {offset} refused {refusals} times")
    | .reported .. => none

/-- What the operator reads of a board's outcome, with the time in words. -/
def reportLine (colors : Bool) (board : UInt8) (failure : Option Failure) (took : String) :
    String :=
  match failure with
  | none => s!"[FC] ✅ Update finished for board {board} (took " ++ took ++ " ms)"
  | some failure =>
    Terminal.styled colors [.red]
      (s!"[FC] 💥 Update failed for board {board}: {failure.message} (took " ++ took ++ " ms)")

end Notice

end Session

end BoardFlash
