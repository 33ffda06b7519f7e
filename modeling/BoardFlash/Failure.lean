/-!
# How an update of one board can fail
-/

namespace BoardFlash

inductive Failure where
  | rejected
  | timeout
  | retriesExhausted (transmissions : UInt32)
  | boardFault
  | cancelled
  | disconnected
  | aborted
  deriving DecidableEq, Repr

namespace Failure

def message : Failure → String
  | .rejected => "board rejected the update request"
  | .timeout => "board did not respond in time"
  | .retriesExhausted n => s!"chunk not accepted after {n} transmissions"
  | .boardFault => "board reported a fatal error"
  | .cancelled => "update cancelled"
  | .disconnected => "connection to the router lost"
  | .aborted => "update session crashed"

/-- The failure in one word, as it stands in log records. -/
def name : Failure → String
  | .rejected => "Rejected"
  | .timeout => "Timeout"
  | .retriesExhausted n => s!"RetriesExhausted({n})"
  | .boardFault => "BoardFault"
  | .cancelled => "Cancelled"
  | .disconnected => "Disconnected"
  | .aborted => "Aborted"

end Failure

end BoardFlash
