import BoardFlash.Failure
import BoardFlash.Number.Single
import BoardFlash.Text.Terminal

/-!
# Outcomes and their summary

A session ends with an `Outcome`; the outcomes of all sessions of a run make
its `Summary`.
-/

namespace BoardFlash

structure Outcome where
  board : UInt8
  /-- Nothing when the board was updated. -/
  failure : Option Failure
  elapsed : Duration
  bytesSent : Nat
  chunksSent : UInt32
  retransmissions : UInt32
  deriving DecidableEq, Repr

namespace Outcome

def success (o : Outcome) : Bool := o.failure.isNone

/-- The outcome of a session that did not live to report one. -/
def aborted (board : UInt8) : Outcome :=
  ⟨board, some .aborted, .zero, 0, 0, 0⟩

def line (colors : Bool) (o : Outcome) : String :=
  "[FC]   board " ++ Terminal.padded 3 o.board.toNat ++ ": " ++
    match o.failure with
    | none =>
      Terminal.styled colors [.green] "updated" ++
        s!" ({o.bytesSent} bytes, {o.retransmissions} retransmissions, {o.elapsed.toMillis} ms)"
    | some failure =>
      Terminal.styled colors [.red] "failed" ++ s!" ({failure.message}, {o.elapsed.toMillis} ms)"

end Outcome

structure Summary where
  outcomes : List Outcome
  elapsed : Duration
  deriving DecidableEq

namespace Summary

def succeeded (s : Summary) : Nat := s.outcomes.countP Outcome.success

def failed (s : Summary) : Nat := s.outcomes.length - s.succeeded

/-- A run without boards has updated nothing and is no success. -/
def allSucceeded (s : Summary) : Bool := !s.outcomes.isEmpty && s.failed == 0

/-- A line for each board and one for the totals. -/
def lines (colors : Bool) (s : Summary) : List String :=
  let totals := s!"[FC] {s.succeeded} of {s.outcomes.length} board(s) updated in " ++
    s.elapsed.toSingle.oneDecimal ++ " s"
  s.outcomes.map (Outcome.line colors) ++
    [Terminal.styled colors [if s.allSucceeded then .green else .red, .bold] totals]

end Summary

end BoardFlash
