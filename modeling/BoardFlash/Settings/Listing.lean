import BoardFlash.Settings
import BoardFlash.Text.Quoted

/-!
# The settings as a listing

All settings with their names, one value on each line, as they are logged
when a run starts.
-/

namespace BoardFlash

namespace Settings

/-- The lines of a list of values, between an opening and a closing line. -/
def nested (opening closing : String) (values : List String) : String :=
  "\n".intercalate (opening :: values.map (fun v => "        " ++ v ++ ",") ++ ["    " ++ closing])

def optional (value : Option String) : String :=
  match value with
  | none => "None"
  | some v => nested "Some(" ")" [v]

/-- A timeout from the command line is a number of whole seconds. -/
def timeoutText (d : Duration) : String := s!"{d.seconds}s"

def listing (s : Settings) : String :=
  let field (name value : String) := "    " ++ name ++ ": " ++ value ++ ","
  "\n".intercalate [
    "Settings \x7b",
    field "path" (optional (s.path.map Text.quoted)),
    field "baud_rate" (toString s.baudRate),
    field "data_bits" s.dataBits.name,
    field "flow_control" s.flowControl.name,
    field "parity" s.parity.name,
    field "stop_bits" s.stopBits.name,
    field "chunk_size" (toString s.chunkSize),
    field "response_timeout" (timeoutText s.responseTimeout),
    field "max_retransfers" (toString s.maxTransmissions),
    field "parallel" (toString s.parallel),
    field "queue_capacity" (toString s.queueCapacity),
    field "hmac_key" (if s.key.isEmpty then "[]" else nested "[" "]" (s.key.map toString)),
    field "cli_board" (optional (s.cliBoard.map toString)),
    field "show_progress" (toString s.showProgress),
    field "_private_use_builder" "()",
    "\x7d"]

end Settings

end BoardFlash
