import BoardFlash.Error
import BoardFlash.Time
import BoardFlash.Wire.Frame

/-!
# Settings

All that a user can choose about the serial link and about the transfer.
`Settings.validate` finds the first choice that no transfer can work with.
-/

namespace BoardFlash

inductive DataBits where
  | five
  | six
  | seven
  | eight
  deriving DecidableEq, Repr

inductive FlowControl where
  | none
  | software
  | hardware
  deriving DecidableEq, Repr

inductive Parity where
  | none
  | odd
  | even
  deriving DecidableEq, Repr

inductive StopBits where
  | one
  | two
  deriving DecidableEq, Repr

def DataBits.name : DataBits → String
  | .five => "Five"
  | .six => "Six"
  | .seven => "Seven"
  | .eight => "Eight"

def FlowControl.name : FlowControl → String
  | .none => "None"
  | .software => "Software"
  | .hardware => "Hardware"

def Parity.name : Parity → String
  | .none => "None"
  | .odd => "Odd"
  | .even => "Even"

def StopBits.name : StopBits → String
  | .one => "One"
  | .two => "Two"

/-- The key of the firmware digest when the user gives none. -/
def defaultKey : List UInt8 := "secret_key".toUTF8.data.toList

structure Settings where
  /-- The serial port; without one the user selects it when asked. -/
  path : Option String := none
  baudRate : UInt32 := 115200
  dataBits : DataBits := .eight
  flowControl : FlowControl := .none
  parity : Parity := .none
  stopBits : StopBits := .one
  /-- The most firmware bytes in one data frame. -/
  chunkSize : UInt64 := 2048
  /-- How long a session waits for the answer to one frame. -/
  responseTimeout : Duration := .ofSeconds 5
  /-- How often a chunk is sent before its board is given up. -/
  maxTransmissions : UInt32 := 5
  /-- Update all boards at the same time, and not one after the other. -/
  parallel : Bool := false
  /-- The capacity of every queue between two units. -/
  queueCapacity : UInt64 := 100
  key : List UInt8 := defaultKey
  /-- The board that gets the lines typed by the operator. -/
  cliBoard : Option UInt8 := none
  showProgress : Bool := true
  deriving DecidableEq

namespace Settings

/-- The first thing that is wrong with the settings, if anything is. -/
def fault? (s : Settings) : Option ConfigFault :=
  if s.chunkSize = 0 ∨ maxPayload < s.chunkSize.toNat then
    some (.chunkSizeRange s.chunkSize.toNat maxPayload)
  else if s.maxTransmissions = 0 then some .noTransmissions
  else if s.responseTimeout = .zero then some .zeroTimeout
  else if s.queueCapacity = 0 then some .zeroQueueCapacity
  else if s.cliBoard = some hostId then some (.reservedBoard hostId)
  else none

def validate (s : Settings) : Except Error Unit :=
  match s.fault? with
  | none => .ok ()
  | some fault => .error (.config fault)

end Settings

end BoardFlash
