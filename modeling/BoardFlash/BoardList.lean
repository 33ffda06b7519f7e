import BoardFlash.Error
import BoardFlash.Log
import BoardFlash.Number.Decimal
import BoardFlash.Text.Blank
import BoardFlash.Text.Lines
import BoardFlash.Wire.Frame

/-!
# The list of boards to update

A text with one board id on each line. Blank lines and lines that start with
`#` are skipped. Other lines that are no board id are reported and left out,
and so are ids that were listed before.
-/

namespace BoardFlash

namespace BoardList

/-- What stands on a line. -/
inductive Entry where
  | skipped
  | malformed (text : List Char) (fault : Decimal.Fault)
  | board (id : UInt8)
  deriving DecidableEq

def entry (line : List Char) : Entry :=
  let text := Text.trim line
  match text with
  | [] => .skipped
  | '#' :: _ => .skipped
  | _ =>
    match Decimal.read (Decimal.largest 8) text with
    | .error fault => .malformed text fault
    | .ok n => .board n.toUInt8

/-- The ids found so far, and what was logged, the latest record first. -/
structure Reading where
  ids : List UInt8 := []
  records : List Log.Record := []

def Reading.log (r : Reading) (level : Log.Level) (text : String) : Reading :=
  { r with records := ⟨level, text⟩ :: r.records }

/-- The line with this number, counted from one, is read. -/
def Reading.add (r : Reading) (number : Nat) (line : List Char) : Reading :=
  match entry line with
  | .skipped => r
  | .malformed text fault =>
    r.log .warn
      (s!"line {number}: `" ++ String.ofList text ++ "` is not a board id (" ++
        fault.message ++ ")")
  | .board id =>
    if id = hostId then r.log .warn s!"line {number}: board id {id} is reserved for the host"
    else if id ∈ r.ids then r.log .warn s!"line {number}: board {id} listed more than once"
    else { r with ids := r.ids ++ [id] }.log .info s!"added board {id}"

def Reading.addAll (r : Reading) (number : Nat) : List (List Char) → Reading
  | [] => r
  | line :: rest => (r.add number line).addAll (number + 1) rest

def read (text : List Char) : Reading := ({} : Reading).addAll 1 (Text.lines text)

/-- The ids in the text, in the order in which they first appear. -/
def parse (text : List Char) : List UInt8 := (read text).ids

/-- What is logged when the text is read. -/
def story (text : List Char) : List Log.Record := (read text).records.reverse

/-- The ids in the text of the file at `path`, if there are any. -/
def check (path : String) (text : List Char) : Except Error (List UInt8) :=
  let ids := parse text
  if ids.isEmpty then .error (.noBoards path) else .ok ids

end BoardList

end BoardFlash
