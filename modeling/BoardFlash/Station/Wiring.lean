import BoardFlash.Bridge.Machine
import BoardFlash.Campaign
import BoardFlash.Console.Machine
import BoardFlash.Router.Machine

/-!
# The units wired together

```text
                                .---------.   board queues   .----------.
 link <==> bridge <== raw ==>   |         |<================>| sessions |
                                | router  |                  '----------'
                                |         |<================> console
                                '---------'  console queues
```

A `Station` holds the units of one run, the queues between them and their
flags. The queues all belong to the router's hub; what any other unit shares
with its surroundings is a view of the station: `mailbox?` for a session,
`trunk` for the bridge and `desk?` for the console.

The flags of the sessions and of the console form a group that is cancelled
as one: by the operator's interrupt, and by the bridge when the link fails.
The router and the bridge stay out of it. They go on until the others have
come to an end, and are then stopped in order.
-/

namespace BoardFlash

namespace Station

/-- How far the run as a whole has come. -/
inductive Phase where
  /-- Until all sessions are over. -/
  | updating
  | announcing
  | shuttingDown
  | awaitingConsole
  | cancellingRouter
  | awaitingRouter
  | cancellingBridge
  | awaitingBridge
  | finished
  deriving DecidableEq, Repr

end Station

structure Station where
  hub : Hub
  campaign : Campaign
  /-- The flags of the sessions, in the order of the boards. -/
  flags : List Bool
  router : Router := {}
  bridge : Bridge := {}
  bridgeCancelled : Bool := false
  /-- The bridge has raised the alarm. -/
  alarm : Bool := false
  console : Option Console := none
  /-- The lines that the operator types. -/
  keyboard : Queue (List Char)
  consoleCancelled : Bool := false
  phase : Station.Phase := .updating
  deriving DecidableEq

namespace Station

/-- A station for these boards, nothing of it begun. Without a keyboard there
is no console, and nobody reads the diagnostics. -/
def new (settings : Settings) (image : Firmware) (boards : List UInt8)
    (keyboard : Option (Queue (List Char))) : Station :=
  let capacity := settings.queueCapacity.toNat
  let diagnostics : Queue Diagnostic := { capacity }
  { hub := {
      link := .ofCapacity capacity
      routes := boards.map fun board => ⟨board, .ofCapacity capacity⟩
      console := keyboard.map fun _ => .ofCapacity capacity
      diagnostics := if keyboard.isSome then diagnostics else diagnostics.closeReceiver }
    campaign := Campaign.new settings image boards
    flags := boards.map fun _ => false
    console := keyboard.map fun _ => { target := settings.cliBoard }
    keyboard := keyboard.getD { capacity := 0 } }

variable (s : Station)

/-! ## The group of flags -/

/-- The number of flags in the group. -/
def groupSize : Nat := s.flags.length + 1

/-- The group is cancelled. -/
def interrupt : Station :=
  { s with flags := s.flags.map fun _ => true, consoleCancelled := true }

/-! ## What each unit shares with its surroundings -/

def mailbox? (i : Nat) : Option Mailbox :=
  s.hub.routes[i]?.map fun r => ⟨r.queues.back, r.queues.forth, s.flags.getD i false⟩

def setMailbox (i : Nat) (m : Mailbox) : Station :=
  { s with hub := s.hub.setQueues (.board i) ⟨m.outbound, m.inbound⟩ }

def trunk : Trunk := ⟨s.hub.link, s.bridgeCancelled, s.alarm⟩

/-- With the alarm the group is cancelled. -/
def setTrunk (t : Trunk) : Station :=
  let s := if t.alarm && !s.alarm then s.interrupt else s
  { s with hub := { s.hub with link := t.queues }, alarm := t.alarm }

def desk? : Option Desk :=
  s.hub.console.map fun queues => ⟨s.keyboard, queues, some s.hub.diagnostics, s.consoleCancelled⟩

def setDesk (d : Desk) : Station :=
  { s with
    hub := {
      s.hub with
      console := s.hub.console.map fun _ => d.queues
      diagnostics := d.diagnostics.getD s.hub.diagnostics }
    keyboard := d.lines
    consoleCancelled := d.cancelled }

end Station

end BoardFlash
