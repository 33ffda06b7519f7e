import BoardFlash.Console.Desk
import BoardFlash.Text.Blank
import BoardFlash.Text.Hex
import BoardFlash.Text.Terminal

/-!
# The console

Lines typed by the operator go to one board, as frames of type `cliData`.
What the boards print, and the traffic that the router could not deliver, is
shown on the terminal. Nothing here may slow down the updates, so a line for
which the router has no room is dropped.

The console works in passes: one line, one frame to show, one diagnostic. It
ends by itself when the operator types `end` or when the input is at its end.
-/

namespace BoardFlash

namespace Console

/-- The line that ends the console. -/
def endLine : List Char := ['e', 'n', 'd']

/-- What the console lets others know of its work. -/
inductive Notice where
  | started (target : Option UInt8)
  | inputEnded
  | endedByOperator
  | noTarget
  | truncated (length : Nat)
  | noRoom
  | routerGone
  /-- What a board prints. -/
  | shown (frame : Frame)
  | diagnosed (diagnostic : Diagnostic)
  | stopped
  deriving DecidableEq

/-- The target of the lines, as it stands in log records. -/
def targetName : Option UInt8 → String
  | none => "None"
  | some board => s!"Some({board})"

/-- The log record of the notice; some are printed instead. -/
def Notice.record? : Notice → Option Log.Record
  | .started target => some ⟨.info, "=> CLI (target " ++ targetName target ++ ")"⟩
  | .inputEnded => some ⟨.info, "end of CLI input"⟩
  | .endedByOperator => some ⟨.info, "CLI session ended by the operator"⟩
  | .noTarget => some ⟨.warn, "no CLI board configured, line discarded"⟩
  | .truncated length => some ⟨.warn, s!"CLI line of {length} bytes truncated"⟩
  | .noRoom => some ⟨.warn, "CLI queue full, line dropped"⟩
  | .routerGone => some ⟨.debug, "router gone, line dropped"⟩
  | .stopped => some ⟨.info, "<= CLI"⟩
  | .shown _ => none
  | .diagnosed _ => none

/-- A diagnostic in one line. -/
def describe : Diagnostic → String
  | .undecodable raw error =>
    "[FC] ⚠ undecodable frame (" ++ error.message ++ "): " ++ Hex.list raw
  | .unknownSource frame =>
    s!"[FC] ⚠ data from unsupported board {frame.source}: " ++ frame.describe
  | .notForHost frame =>
    s!"[FC] ⚠ frame for {frame.dest} seen on the link: " ++ frame.describe
  | .undelivered frame => "[FC] ⚠ frame not delivered: " ++ frame.describe

/-- What is printed for the notice. -/
def Notice.line? (colors : Bool) : Notice → Option String
  | .shown frame =>
    some (Terminal.styled colors [.cyan] s!"[FC] CLI ({frame.source} -> {frame.dest})" ++ " " ++
      String.ofList (Text.trimRight (Utf8.lossy frame.payload)))
  | .diagnosed diagnostic => some (Terminal.styled colors [.yellow] (describe diagnostic))
  | _ => none

/-- Where the console stands between two steps. -/
inductive Phase where
  | starting
  /-- Between two passes. -/
  | resting
  | reading
  | judging (line : List Char)
  | queueing (frame : Frame)
  /-- About to ask itself to stop. -/
  | leaving
  | showing
  | diagnosing
  | stopped
  deriving DecidableEq

/-! ## Lines as frames -/

/-- The line without what ended it. -/
def bare (line : List Char) : List Char :=
  Text.dropEndWhile (fun c => c == '\r' || c == '\n') line

def isEnd (line : List Char) : Bool := Text.trim (bare line) == endLine

/-- The bytes of the line, ended by a line feed. -/
def lineBytes (line : List Char) : List UInt8 := Utf8.encode (bare line) ++ [10]

/-- The frame that takes the line to a board, cut to what one frame holds. -/
def lineFrame (target : UInt8) (line : List Char) : Frame where
  type := .cliData
  source := hostId
  dest := target
  payload := (lineBytes line).take maxPayload
  payload_le := List.length_take_le _ _

end Console

structure Console where
  /-- The board that gets the lines. -/
  target : Option UInt8
  inputOpen : Bool := true
  inboundOpen : Bool := true
  diagnosticsOpen : Bool := true
  phase : Console.Phase := .starting
  deriving DecidableEq

namespace Console

/-- What a step leaves behind. -/
structure Reaction where
  console : Console
  desk : Desk
  notice : Option Notice := none

variable (c : Console) (d : Desk)

def goTo (phase : Phase) (notice : Option Notice := none) : Reaction :=
  ⟨{ c with phase }, d, notice⟩

def read : Reaction :=
  if !c.inputOpen then c.goTo d .showing
  else
    match d.lines.tryRecv with
    | .ok (line, lines) => c.goTo { d with lines } (.judging line)
    | .error .empty => c.goTo d .showing
    | .error .disconnected => { c with inputOpen := false }.goTo d .leaving (some .inputEnded)

def judge (line : List Char) : Reaction :=
  if isEnd line then c.goTo d .leaving (some .endedByOperator)
  else
    match c.target with
    | none => c.goTo d .showing (some .noTarget)
    | some target =>
      let length := (lineBytes line).length
      c.goTo d (.queueing (lineFrame target line))
        (if maxPayload < length then some (.truncated length) else none)

def queue (frame : Frame) : Reaction :=
  match d.queues.forth.trySend frame with
  | .ok forth => c.goTo { d with queues := { d.queues with forth } } .showing
  | .error .full => c.goTo d .showing (some .noRoom)
  | .error .disconnected => c.goTo d .showing (some .routerGone)

/-- One frame is shown, if there is one. -/
def display : Reaction :=
  if !c.inboundOpen then c.goTo d .diagnosing
  else
    match d.queues.back.tryRecv with
    | .ok (frame, back) =>
      c.goTo { d with queues := { d.queues with back } } .diagnosing (some (.shown frame))
    | .error .empty => c.goTo d .diagnosing
    | .error .disconnected => { c with inboundOpen := false }.goTo d .diagnosing

/-- One diagnostic is shown, if there is one. -/
def diagnose : Reaction :=
  match d.diagnostics with
  | none => c.goTo d .resting
  | some q =>
    if !c.diagnosticsOpen then c.goTo d .resting
    else
      match q.tryRecv with
      | .ok (diagnostic, q) =>
        c.goTo { d with diagnostics := some q } .resting (some (.diagnosed diagnostic))
      | .error .empty => c.goTo d .resting
      | .error .disconnected => { c with diagnosticsOpen := false }.goTo d .resting

/-- The smallest indivisible step: between two of them others may change the
desk, so a step touches one queue or the flag. -/
def step : Reaction :=
  match c.phase with
  | .starting => c.goTo d .resting (some (.started c.target))
  | .resting =>
    if d.cancelled then c.goTo d.release .stopped (some .stopped) else c.goTo d .reading
  | .reading => c.read d
  | .judging line => c.judge d line
  | .queueing frame => c.queue d frame
  | .leaving => c.goTo { d with cancelled := true } .showing
  | .showing => c.display d
  | .diagnosing => c.diagnose d
  | .stopped => c.goTo d .stopped

def isOver : Bool :=
  match c.phase with
  | .stopped => true
  | _ => false

end Console

end BoardFlash
