import BoardFlash.CommandLine.Run
import Std.Time.DateTime.Timestamp

/-!
# The program

Reads the arguments and the two files, prints the report, and leaves with its
exit code. No serial device can be reached from here, so a run that gets as
far as that ends without a port.
-/

namespace BoardFlash

namespace Program

/-- The failure of a file. Its number may come with a minus sign. -/
def fileFailure (e : IO.Error) : IoError :=
  match e with
  | .noFileOrDirectory .. => .noSuchFile
  | .inappropriateType _ code _ =>
    if code = 20 ∨ code = 0 - 20 then .notDirectory else .isDirectory
  | .invalidArgument _ code _ =>
    if code = 36 ∨ code = 0 - 36 then .nameTooLong else .nulInName
  | e => ⟨.other, toString e⟩

def readFile (path : String) : IO (Except IoError (List UInt8)) := do
  try
    let bytes ← IO.FS.readBinFile path
    return .ok bytes.toList
  catch e => return .error (fileFailure e)

/-- The time of day, in universal time. -/
def clock : IO String := do
  let now ← Std.Time.Timestamp.now
  return Log.timeOfDay now.toSecondsSinceUnixEpoch.val.toNat

/-- Prints the report; the exit code. -/
def print (r : CommandLine.Report) : IO UInt32 := do
  for line in r.lines (← clock) do
    IO.println line
  unless r.complaint.isEmpty do
    IO.eprintln r.complaint
  match r.exitCode? with
  | some code => return code.toUInt32
  | none =>
    IO.println ("error: " ++ Error.portSelection.message)
    return CommandLine.setupFailure.toUInt32

def run (arguments : List String) : IO UInt32 := do
  match CommandLine.Request.read arguments with
  | .error stop => print stop.report
  | .ok request =>
    let boards ← readFile request.boardsPath
    let firmware ← readFile request.firmwarePath
    let colors ← (← IO.getStdout).isTty
    print (request.report colors ⟨boards, firmware⟩)

end Program

end BoardFlash

def main (arguments : List String) : IO UInt32 := BoardFlash.Program.run arguments
