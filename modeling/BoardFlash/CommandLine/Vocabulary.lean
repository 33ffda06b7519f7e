import BoardFlash.Settings

/-!
# The words of the command line

What can be said on the command line: parameters, which take a value behind
an equals sign, switches, which take none, and operands, which stand alone.
An `Entry` says how each of them is written, and what it does.
-/

namespace BoardFlash

namespace CommandLine

/-- The name of the program. -/
def programName : String := "flashcom"

def programVersion : String := "v0.1.0"

/-- The name and the version in one. -/
def signature : String := programName ++ " " ++ programVersion

/-- The parameters in the order of the names of their values. -/
inductive Parameter where
  | baudRate
  | chunkSize
  | cliBoard
  | dataBits
  | device
  | flowControl
  | parity
  | retries
  | stopBits
  | timeout
  deriving DecidableEq, Repr

inductive Switch where
  | cli
  | noProgress
  | parallel
  | help
  | verbose
  | version
  deriving DecidableEq, Repr

inductive Operand where
  | boardsFile
  | firmware
  deriving DecidableEq, Repr

def Parameter.all : List Parameter :=
  [.baudRate, .chunkSize, .cliBoard, .dataBits, .device, .flowControl, .parity, .retries,
    .stopBits, .timeout]

def Switch.all : List Switch := [.cli, .noProgress, .parallel, .help, .verbose, .version]

def Operand.all : List Operand := [.boardsFile, .firmware]

/-! ## Values out of a few words -/

def dataBitsWords : List (String × DataBits) :=
  [("5", .five), ("6", .six), ("7", .seven), ("8", .eight)]

def stopBitsWords : List (String × StopBits) := [("1", .one), ("2", .two)]

def parityWords : List (String × Parity) := [("none", .none), ("odd", .odd), ("even", .even)]

def flowControlWords : List (String × FlowControl) :=
  [("none", .none), ("soft", .software), ("hard", .hardware)]

/-! ## Entries -/

structure Entry where
  short : Option Char := none
  long : Option String := none
  /-- The name of the value. -/
  value : Option String := none
  about : String
  /-- What is said in place of `about` where there is room for more. -/
  story : Option String := none
  /-- The value where none is given. -/
  initial : Option String := none
  /-- The words that the value is one of, if it is not any text. -/
  words : List String := []

def Parameter.entry : Parameter → Entry
  | .baudRate => {
      short := some 'b', long := some "baud-rate", value := some "BAUD_RATE"
      about := "serial port baud rate"
      initial := some "115200" }
  | .chunkSize => {
      long := some "chunk-size", value := some "CHUNK_SIZE"
      about := "maximum number of firmware bytes per frame"
      initial := some "2048" }
  | .cliBoard => {
      long := some "cli-board", value := some "CLI_BOARD"
      about := "board receiving the lines typed in the interactive channel" }
  | .dataBits => {
      short := some 'd', long := some "data-bits", value := some "DATA_BITS"
      about := "number of bits per character"
      initial := some "8"
      words := dataBitsWords.map (·.1) }
  | .device => {
      short := some 't', long := some "tty", value := some "DEVICE_TTY"
      about := "the USB tty device to use"
      story := some ("the USB tty device to use; when not set, or when waiting for it is " ++
        "cancelled with ESC, the device is selected interactively.") }
  | .flowControl => {
      short := some 'f', long := some "flow-control", value := some "FLOW_CONTROL"
      about := "flow control mode"
      initial := some "none"
      words := flowControlWords.map (·.1) }
  | .parity => {
      short := some 'p', long := some "parity", value := some "PARITY"
      about := "parity checking protocol"
      initial := some "none"
      words := parityWords.map (·.1) }
  | .retries => {
      long := some "retries", value := some "RETRIES"
      about := "transmissions of a chunk before giving up on a board"
      initial := some "5" }
  | .stopBits => {
      short := some 's', long := some "stop-bits", value := some "STOP_BITS"
      about := "number of stop bits per byte"
      initial := some "1"
      words := stopBitsWords.map (·.1) }
  | .timeout => {
      long := some "timeout", value := some "TIMEOUT"
      about := "seconds to wait for a board to answer a frame"
      initial := some "5" }

def Switch.entry : Switch → Entry
  | .cli => { long := some "cli", about := "open an interactive channel to the boards" }
  | .noProgress => { long := some "no-progress", about := "do not draw progress bars" }
  | .parallel => { long := some "parallel", about := "update all the boards at the same time" }
  | .help => { short := some 'h', long := some "help", about := "Prints help information" }
  | .verbose => {
      short := some 'v'
      about := "Sets the logging level of verbosity, repeat several times for higher verbosity" }
  | .version => {
      short := some 'V', long := some "version", about := "Prints version information" }

def Operand.entry : Operand → Entry
  | .boardsFile => {
      value := some "BOARDS_FILE"
      about := "file listing the ids of the boards to update"
      story := some ("file listing the ids of the boards to update, one per line; blank lines " ++
        "and lines starting with `#` are ignored, id 0 is reserved for the host.") }
  | .firmware => { value := some "FIRMWARE", about := "path to the firmware image to be pushed" }

/-- The entry as it is named in messages. -/
def Entry.label (e : Entry) : String :=
  (match e.long, e.short with
    | some long, _ => "--" ++ long
    | none, some c => "-" ++ String.singleton c
    | none, none => "") ++
  match e.long, e.value with
    | some _, some value => "=<" ++ value ++ ">"
    | _, some value => "<" ++ value ++ ">"
    | _, none => ""

def Parameter.ofLong? (name : String) : Option Parameter :=
  all.find? (·.entry.long = some name)

def Parameter.ofShort? (c : Char) : Option Parameter := all.find? (·.entry.short = some c)

def Switch.ofLong? (name : String) : Option Switch := all.find? (·.entry.long = some name)

def Switch.ofShort? (c : Char) : Option Switch := all.find? (·.entry.short = some c)

end CommandLine

end BoardFlash
