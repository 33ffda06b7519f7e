import BoardFlash.Router.Hub
import BoardFlash.Text.Lines
import BoardFlash.Text.Utf8
import BoardFlash.IoError
import BoardFlash.Log

/-!
# What the console shares with its surroundings

The console reads what the operator types from a queue of lines, exchanges
frames with the router and may be shown the router's diagnostics: the `Desk`.
`Desk.typed` cuts what comes in from the keyboard into lines.
-/

namespace BoardFlash

structure Desk where
  lines : Queue (List Char)
  /-- `forth` leads to the router, `back` comes from it. -/
  queues : Duplex Frame
  /-- Nothing when nobody is to see the diagnostics. -/
  diagnostics : Option (Queue Diagnostic) := none
  /-- The console has been asked to stop, by others or by itself. -/
  cancelled : Bool := false
  deriving DecidableEq

namespace Desk

/-- The console lets go of its halves of all queues. -/
def release (d : Desk) : Desk :=
  { d with
    lines := d.lines.closeReceiver
    queues := d.queues.closeFirst
    diagnostics := d.diagnostics.map Queue.closeReceiver }

/-! ## The keyboard -/

/-- The lines as text, up to the first one that is none. -/
def readable : List (List UInt8) → List (List Char) × Option Log.Record
  | [] => ([], none)
  | line :: rest =>
    match Utf8.decode? line with
    | none => ([], some ⟨.warn, "failed to read from stdin: " ++ IoError.notText.text⟩)
    | some text =>
      let (texts, record) := readable rest
      (text :: texts, record)

/-- The lines that were typed, and what is logged if reading them fails. -/
def typed (input : List UInt8) : List (List Char) × Option Log.Record :=
  readable (Text.byteLines input)

end Desk

end BoardFlash
