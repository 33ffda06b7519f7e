import BoardFlash.CommandLine.Help
import BoardFlash.CommandLine.Request
import BoardFlash.Log
import BoardFlash.Text.Terminal

/-!
# What a run prints

A run prints lines for the operator and, between them, those log records that
its verbosity lets through. It ends with an exit code, with a complaint about
the arguments, or at the point where it needs a serial port.
-/

namespace BoardFlash

namespace CommandLine

inductive Piece where
  | text (line : String)
  /-- A record and the unit that logged it. -/
  | record (unit : String) (record : Log.Record)
  deriving DecidableEq, Repr

inductive Ending where
  | exit (code : Nat)
  /-- The arguments make no sense. -/
  | refused (complaint : String)
  /-- All is ready but the serial port. -/
  | awaitingPort
  deriving DecidableEq, Repr

structure Report where
  pieces : List Piece
  ending : Ending
  deriving DecidableEq, Repr

/-- The exit code when nothing could be started. -/
def setupFailure : Nat := 2

/-- The exit code when the arguments make no sense, or a board was not
updated. -/
def failure : Nat := 1

/-- The first line that is printed. -/
def greeting : Piece := .text ("[FC] " ++ signature)

namespace Piece

/-- The lowest rank of a record that names its thread and unit. -/
def detailedRank : Nat := Log.Level.debug.rank

/-- The piece as it is printed; `stamp` is the time in front of a record. -/
def line (stamp : String) : Piece → String
  | .text line => line
  | .record unit r =>
    stamp ++ " [" ++ r.level.name ++ "] " ++
      (if detailedRank ≤ r.level.rank then "(1) " ++ unit ++ ": " else "") ++ r.text

/-- The verbosity lets the piece through: warnings always, and one further
level for every step. -/
def shown (verbosity : Nat) : Piece → Bool
  | .text _ => true
  | .record _ r => r.level.rank ≤ Log.Level.warn.rank + verbosity

end Piece

namespace Report

/-- The printed lines. -/
def lines (stamp : String) (r : Report) : List String :=
  r.pieces.flatMap fun p => (Text.split '\n' (p.line stamp).toList).map String.ofList

/-- The exit code, if the run has ended. -/
def exitCode? (r : Report) : Option Nat :=
  match r.ending with
  | .exit code => some code
  | .refused _ => some failure
  | .awaitingPort => none

/-- What is complained about. -/
def complaint (r : Report) : String :=
  match r.ending with
  | .refused complaint => "error: " ++ complaint
  | _ => ""

end Report

/-- The answer where nothing else is to be done. -/
def Stop.report : Stop → Report
  | .help full => ⟨greeting :: (Help.lines full).map .text, .exit 0⟩
  | .version => ⟨[greeting, .text signature], .exit 0⟩
  | .fault cause => ⟨[greeting], .refused cause.message⟩

end CommandLine

end BoardFlash
