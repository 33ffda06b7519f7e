import BoardFlash.Error
import BoardFlash.Keyboard

/-!
# Finding the serial port

The devices that are connected are listed by name, a USB device with its
manufacturer and product behind the name. A port that the user has named is
waited for until it is in the list (`Port.wait`). Without such a port, or
when escape is hit, the user selects a device from the list (`Port.select`).

All that happens meanwhile is a list of `Look`s at the world, one for each
turn of the waiting loop.
-/

namespace BoardFlash

/-- What a USB device says about itself. -/
structure UsbIdentity where
  manufacturer : Option String := none
  product : Option String := none
  deriving DecidableEq, Repr

structure Device where
  name : String
  usb : Option UsbIdentity := none
  deriving DecidableEq, Repr

/-- The device as the user sees it in the list. -/
def Device.label (d : Device) : String :=
  match d.usb with
  | none => d.name
  | some usb => d.name ++ ": (" ++ usb.manufacturer.getD "" ++ " / " ++ usb.product.getD "" ++ ")"

namespace Port

/-- The requested port is ready when an entry of the list starts with its
path. -/
def isListed (devices : List Device) (path : String) : Bool :=
  devices.any fun d => path.toList.isPrefixOf d.label.toList

/-- One turn of a waiting loop. -/
structure Look where
  cancelled : Bool := false
  devices : List Device := []
  /-- The key hit before the next turn. -/
  key : Key := .other
  /-- The entry of the list that the user picks, if the user picks one. -/
  choice : Option Nat := none

/-! ## Waiting for a named port -/

inductive WaitOutcome where
  | ready
  /-- The user hit escape, to pick another port. -/
  | escaped
  /-- The user hit Ctrl+C, or the wait was cancelled. -/
  | interrupted
  deriving DecidableEq, Repr

def WaitOutcome.name : WaitOutcome → String
  | .ready => "Ready"
  | .escaped => "Escaped"
  | .interrupted => "Interrupted"

/-- How this turn ends the wait, if it does. -/
def Look.outcome? (path : String) (look : Look) : Option WaitOutcome :=
  if look.cancelled then some .interrupted
  else if isListed look.devices path then some .ready
  else
    match look.key with
    | .interrupt => some .interrupted
    | .escape => some .escaped
    | .other => none

/-- How the wait ends and what is seen afterwards; nothing if it goes on. -/
def wait (path : String) : List Look → Option (WaitOutcome × List Look)
  | [] => none
  | look :: rest =>
    match look.outcome? path with
    | some outcome => some (outcome, rest)
    | none => wait path rest

/-! ## Selecting a port -/

/-- The name of the device in an entry: all that stands before a colon. -/
def Device.nameIn (label : String) : String := String.ofList (label.toList.takeWhile (· ≠ ':'))

/-- The name of the device that the user has picked. -/
def Look.picked? (look : Look) : Option String :=
  look.choice.bind fun i => (look.devices.map Device.label)[i]?.map Device.nameIn

/-- The list is shown anew until the user picks an entry. Cancelling counts
before the list is shown for the first time and after an entry was not picked
(`fresh`), and as long as the list is empty. -/
def selectFrom (fresh : Bool) : List Look → Option (Except Error String)
  | [] => none
  | look :: rest =>
    if look.cancelled && (fresh || look.devices.isEmpty) then some (.error .portSelection)
    else if look.devices.isEmpty then selectFrom false rest
    else
      match look.picked? with
      | some name => some (.ok name)
      | none => selectFrom true rest

/-- The port that the user picks. -/
def select (looks : List Look) : Option (Except Error String) := selectFrom true looks

/-- The port that is used: the named one once it is there, and otherwise the
one that the user picks. Nothing if the user is still being waited for. -/
def resolve (path : Option String) (looks : List Look) : Option (Except Error String) :=
  match path with
  | none => select looks
  | some path =>
    match wait path looks with
    | none => none
    | some (.ready, _) => some (.ok path)
    | some (.interrupted, _) => some (.error .portSelection)
    | some (.escaped, rest) => select rest

end Port

end BoardFlash
