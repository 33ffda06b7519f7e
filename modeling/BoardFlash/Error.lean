import BoardFlash.IoError

/-!
# Errors before and around the updates

Whatever keeps the program from starting an update. The failure of one
board is no such error: it is reported with the outcome of that board
(`BoardFlash.Failure`) and never touches the others.
-/

namespace BoardFlash

/-- What is wrong with the values that a user has chosen. -/
inductive ConfigFault where
  | zeroChunkSize
  | chunkSizeOverFrame (chunkSize limit : Nat)
  | chunkSizeRange (chunkSize limit : Nat)
  | noTransmissions
  | zeroTimeout
  | zeroQueueCapacity
  | reservedBoard (board : UInt8)
  | stated (text : String)
  deriving DecidableEq, Repr

def ConfigFault.message : ConfigFault → String
  | .zeroChunkSize => "chunk size cannot be zero"
  | .chunkSizeOverFrame n limit =>
    s!"chunk size {n} does not fit in a frame (at most {limit} bytes)"
  | .chunkSizeRange n limit => s!"chunk size must be between 1 and {limit} bytes, got {n}"
  | .noTransmissions => "at least one transmission per chunk is required"
  | .zeroTimeout => "response timeout cannot be zero"
  | .zeroQueueCapacity => "queue capacity cannot be zero"
  | .reservedBoard board => s!"board id {board} is reserved for the host"
  | .stated text => text

inductive Error where
  | io (cause : IoError)
  | serial (text : String)
  | config (fault : ConfigFault)
  | emptyFirmware (origin : String)
  | firmwareTooLarge (size limit : Nat)
  | noBoards (path : String)
  | portSelection
  deriving DecidableEq, Repr

namespace Error

def message : Error → String
  | .io cause => "I/O error: " ++ cause.text
  | .serial text => "serial port error: " ++ text
  | .config fault => "invalid configuration: " ++ fault.message
  | .emptyFirmware origin => "firmware image `" ++ origin ++ "` is empty"
  | .firmwareTooLarge size limit =>
    s!"firmware image of {size} bytes needs more than {limit} chunks"
  | .noBoards path => "no valid board id found in `" ++ path ++ "`"
  | .portSelection => "no serial port was selected"

/-- The kind of the error in one word. -/
def kind : Error → String
  | .io _ => "Io"
  | .serial _ => "Serial"
  | .config _ => "Config"
  | .emptyFirmware _ => "EmptyFirmware"
  | .firmwareTooLarge .. => "FirmwareTooLarge"
  | .noBoards _ => "NoBoards"
  | .portSelection => "PortSelection"

end Error

end BoardFlash
