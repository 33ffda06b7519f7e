/-!
# Failures of files and links

A failure has a kind, which decides how it is treated, and a text, which is
only shown.
-/

namespace BoardFlash

inductive IoError.Kind where
  | timedOut
  | wouldBlock
  | interrupted
  | brokenPipe
  | connectionReset
  | unexpectedEof
  | writeZero
  | invalidData
  | notFound
  | notADirectory
  | isADirectory
  | other
  deriving DecidableEq, Repr

structure IoError where
  kind : IoError.Kind
  text : String
  deriving DecidableEq, Repr

namespace IoError

def Kind.name : Kind → String
  | .timedOut => "TimedOut"
  | .wouldBlock => "WouldBlock"
  | .interrupted => "Interrupted"
  | .brokenPipe => "BrokenPipe"
  | .connectionReset => "ConnectionReset"
  | .unexpectedEof => "UnexpectedEof"
  | .writeZero => "WriteZero"
  | .invalidData => "InvalidData"
  | .notFound => "NotFound"
  | .notADirectory => "NotADirectory"
  | .isADirectory => "IsADirectory"
  | .other => "Other"

/-- What a failure says that has nothing to add to its kind. -/
def Kind.text : Kind → String
  | .timedOut => "timed out"
  | .wouldBlock => "operation would block"
  | .interrupted => "operation interrupted"
  | .brokenPipe => "broken pipe"
  | .connectionReset => "connection reset"
  | .unexpectedEof => "unexpected end of file"
  | .writeZero => "write zero"
  | .invalidData => "invalid data"
  | .notFound => "entity not found"
  | .notADirectory => "not a directory"
  | .isADirectory => "is a directory"
  | .other => "other error"

def ofKind (kind : Kind) : IoError := ⟨kind, kind.text⟩

/-! ## Failures of reads and writes that the link did not report itself -/

/-- The link ended before a read was complete. -/
def endOfInput : IoError := ⟨.unexpectedEof, "failed to fill whole buffer"⟩

/-- The link took nothing of what was to be written. -/
def nothingTaken : IoError := ⟨.writeZero, "failed to write whole buffer"⟩

/-! ## Failures of files -/

def noSuchFile : IoError := ⟨.notFound, "No such file or directory (os error 2)"⟩

def notDirectory : IoError := ⟨.notADirectory, "Not a directory (os error 20)"⟩

def isDirectory : IoError := ⟨.isADirectory, "Is a directory (os error 21)"⟩

def nameTooLong : IoError := ⟨.other, "File name too long (os error 36)"⟩

def nulInName : IoError := ⟨.other, "file name contained an unexpected NUL byte"⟩

def notText : IoError := ⟨.invalidData, "stream did not contain valid UTF-8"⟩

end IoError

end BoardFlash
