import BoardFlash.BoardList
import BoardFlash.CommandLine.Report
import BoardFlash.Firmware
import BoardFlash.Folder
import BoardFlash.Number.Decimal
import BoardFlash.Settings.Listing

/-!
# A run up to the serial port

What the user has said becomes `Settings`; the list of boards and the
firmware image are taken from their files. The first thing that is wrong ends
the run.
-/

namespace BoardFlash

namespace CommandLine

/-! ## Settings -/

/-- A value that is no number. -/
structure BadNumber where
  parameter : Parameter
  value : String
  deriving DecidableEq, Repr

def errorTitle (colors : Bool) : String := Terminal.styled colors [.red] "error"

def BadNumber.lines (colors : Bool) (b : BadNumber) : List String :=
  [errorTitle colors ++ ": `" ++
      Terminal.styled colors [.cyan] (b.parameter.entry.long.getD "") ++
      "` needs to be a numeric value",
    "   " ++ Terminal.styled colors [.cyan] "-->" ++ " `" ++
      Terminal.styled colors [.onRed] b.value ++ "` is not a valid value"]

namespace Request

/-- The value of a parameter as a number of so many bits. -/
def number (r : Request) (bits : Nat) (p : Parameter) : Except BadNumber Nat :=
  let value := (r.value? p).getD ""
  match Decimal.read (Decimal.largest bits) value.toList with
  | .ok n => .ok n
  | .error _ => .error ⟨p, value⟩

/-- The value of a parameter that is one of a few words. -/
def word {α : Type} (r : Request) (words : List (String × α)) (otherwise : α) (p : Parameter) : α :=
  ((r.value? p).bind fun v => words.lookup v).getD otherwise

def settings (r : Request) : Except BadNumber Settings := do
  let baudRate ← r.number 32 .baudRate
  let chunkSize ← r.number 64 .chunkSize
  let timeout ← r.number 64 .timeout
  let retries ← r.number 32 .retries
  let cliBoard ←
    if (r.valuesOf .cliBoard).isEmpty then pure none
    else some <$> r.number 8 .cliBoard
  return {
    path := r.value? .device
    baudRate := baudRate.toUInt32
    dataBits := r.word dataBitsWords .eight .dataBits
    flowControl := r.word flowControlWords .none .flowControl
    parity := r.word parityWords .none .parity
    stopBits := r.word stopBitsWords .one .stopBits
    chunkSize := chunkSize.toUInt64
    responseTimeout := .ofSeconds timeout.toUInt64
    maxTransmissions := retries.toUInt32
    parallel := r.switches.contains .parallel
    cliBoard := cliBoard.map Nat.toUInt8
    showProgress := !r.switches.contains .noProgress }

def boardsPath (r : Request) : String := r.operands.headD ""

def firmwarePath (r : Request) : String := (r.operands.drop 1).headD ""

end Request

/-! ## Files -/

/-- What the two files hold, or why they cannot be read. -/
structure Files where
  boards : Except IoError (List UInt8)
  firmware : Except IoError (List UInt8)

/-- What was printed so far, and what it led to. -/
abbrev Progress (α : Type) := List Piece × Except Error α

def Progress.andThen {α β : Type} (p : Progress α) (next : α → Progress β) : Progress β :=
  match p with
  | (pieces, .error e) => (pieces, .error e)
  | (pieces, .ok a) =>
    let (more, result) := next a
    (pieces ++ more, result)

def checkSettings (s : Settings) : Progress Unit :=
  match s.validate with
  | .error e => ([], .error e)
  | .ok () => ([.record "flashcom" ⟨.debug, s.listing⟩], .ok ())

def loadBoards (path : String) (bytes : Except IoError (List UInt8)) : Progress (List UInt8) :=
  match bytes with
  | .error e => ([], .error (.io e))
  | .ok bytes =>
    match Utf8.decode? bytes with
    | none => ([], .error (.io .notText))
    | some text =>
      ((BoardList.story text).map (.record "flashcom::boards"), BoardList.check path text)

def loadFirmware (path : String) (s : Settings) (bytes : Except IoError (List UInt8)) :
    Progress Firmware :=
  match bytes with
  | .error e => ([], .error (.io e))
  | .ok bytes =>
    let read := Piece.record "flashcom::firmware" (Firmware.readRecord path bytes.toArray)
    match Firmware.build path bytes.toArray s.chunkSize s.key with
    | .error e => ([read], .error e)
    | .ok f => ([read, .record "flashcom::firmware" (f.record path)], .ok f)

/-- What is to be sent, and where. -/
def announcement (colors : Bool) (path : String) (f : Firmware) (boards : List UInt8) : String :=
  "[FC] " ++ Terminal.styled colors [.cyan] path ++
    s!" ({f.bytes.size} bytes, {f.chunkCount} chunks) for board(s) [" ++
    ", ".intercalate (boards.map toString) ++ "]"

namespace Request

def prepare (r : Request) (colors : Bool) (files : Files) (s : Settings) : Progress Unit :=
  (checkSettings s).andThen fun () =>
  (loadBoards r.boardsPath files.boards).andThen fun boards =>
  (loadFirmware r.firmwarePath s files.firmware).andThen fun f =>
    ([.text (announcement colors r.firmwarePath f boards)], .ok ())

/-- The run that the user has asked for. -/
def report (r : Request) (colors : Bool) (files : Files) : Report :=
  match r.settings with
  | .error bad => ⟨greeting :: (bad.lines colors).map .text, .exit setupFailure⟩
  | .ok s =>
    let (pieces, result) := r.prepare colors files s
    let pieces := greeting :: pieces.filter (Piece.shown r.verbosity)
    match result with
    | .ok () => ⟨pieces, .awaitingPort⟩
    | .error e => ⟨pieces ++ [.text (errorTitle colors ++ ": " ++ e.message)], .exit setupFailure⟩

end Request

/-- The run with these arguments in this folder. -/
def run (colors : Bool) (folder : Folder) (arguments : List String) : Report :=
  match Request.read arguments with
  | .error stop => stop.report
  | .ok r => r.report colors ⟨folder.read r.boardsPath, folder.read r.firmwarePath⟩

end CommandLine

end BoardFlash
