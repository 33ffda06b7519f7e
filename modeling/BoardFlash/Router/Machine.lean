import BoardFlash.Log
import BoardFlash.Router.Hub

/-!
# The router

```text
                      .-------------.
  link ----- raw ---->|   decode    |--- error ------------> diagnostics
                      '-------------'
                             |
          .------------------+-------------------.
          |                  |                   |
      a CLI line        for the host       for others
          |                  |                   |
          v                  v                   v
       console       from a board here?     diagnostics
                        yes /     \ no
                           v       v
                       session   diagnostics
```

The router works in passes. A pass takes at most one frame from the link and
delivers it, then visits every board and the console for at most one frame
each, which goes to the link. The board that is visited first changes with
every pass that visits all of them. Nothing here waits for a single queue.

`Router.step` is its smallest indivisible step: between two of them others
may change the hub (`Hub.Move`), so a step touches one queue or the flag.
-/

namespace BoardFlash

namespace Router

/-- What the router lets others know of its work. -/
inductive Notice where
  | started (boards : Nat)
  | undecodable (error : Frame.DecodeError)
  /-- A frame came in and is about to be delivered. -/
  | routing (frame : Frame)
  /-- Nothing will come in from the link any more. -/
  | linkClosed
  | notForHost (frame : Frame)
  | unknownSource (board : UInt8)
  /-- The queue of a peer did not take a frame. -/
  | dropped (id : UInt8) (refusal : SendRefusal)
  /-- The queue to the link is full; the rest of the pass is skipped. -/
  | linkFull
  /-- A frame of a peer is about to be queued for the link. -/
  | forwarding (frame : Frame)
  | linkUnavailable
  /-- Nothing will come from the peer any more. -/
  | peerGone (id : UInt8)
  | stopped
  deriving DecidableEq

def Notice.record : Notice → Log.Record
  | .started boards => ⟨.info, s!"=> Router ({boards} boards)"⟩
  | .undecodable error => ⟨.warn, "discarding undecodable frame: " ++ error.message⟩
  | .routing frame => ⟨.trace, "routing " ++ frame.describe⟩
  | .linkClosed => ⟨.warn, "bridge inbound queue closed"⟩
  | .notForHost frame =>
    ⟨.warn, s!"frame from {frame.source} to {frame.dest} is not for the host"⟩
  | .unknownSource board => ⟨.warn, s!"got data from unsupported board {board}"⟩
  | .dropped id .full => ⟨.warn, s!"queue of {id} full, frame dropped"⟩
  | .dropped id .disconnected => ⟨.debug, s!"queue of {id} closed, frame dropped"⟩
  | .linkFull => ⟨.trace, "bridge outbound queue full"⟩
  | .forwarding frame => ⟨.trace, "forwarding " ++ frame.describe⟩
  | .linkUnavailable => ⟨.warn, "bridge outbound queue unavailable, frame dropped"⟩
  | .peerGone id => ⟨.debug, s!"outbound queue of {id} closed"⟩
  | .stopped => ⟨.info, "<= Router"⟩

/-- Where the router stands between two steps. The peers are visited in
turns: one turn for each board, then that of the console. -/
inductive Phase where
  | starting
  /-- Between two passes. -/
  | resting
  | listening
  | dispatching (frame : Frame)
  | reporting (diagnostic : Diagnostic)
  /-- Before a turn. -/
  | visiting (turn : Nat)
  | pulling (turn : Nat)
  | pushing (turn : Nat) (frame : Frame)
  | stopped
  deriving DecidableEq

end Router

structure Router where
  /-- Frames may still come in from the link. -/
  linkOpen : Bool := true
  /-- The peers whose queues have been found closed. -/
  gone : List Peer := []
  /-- The board that is visited first in the next round. -/
  next : Nat := 0
  phase : Router.Phase := .starting
  deriving DecidableEq

namespace Router

/-- What a step leaves behind. -/
structure Reaction where
  router : Router
  hub : Hub
  notice : Option Notice := none

variable (r : Router) (h : Hub)

def goTo (phase : Phase) (notice : Option Notice := none) : Reaction :=
  ⟨{ r with phase }, h, notice⟩

/-- Whose turn it is. -/
def peerAt (turn : Nat) : Peer :=
  if turn < h.routes.length then .board ((r.next + turn) % h.routes.length) else .console

/-- The turn is over. -/
def turnOver (turn : Nat) (notice : Option Notice := none) : Reaction :=
  r.goTo h (if turn < h.routes.length then .visiting (turn + 1) else .resting) notice

/-- One frame is taken from the link, if there is one, and decoded. -/
def listen : Reaction :=
  if !r.linkOpen then r.goTo h (.visiting 0)
  else
    match h.link.back.tryRecv with
    | .ok (raw, back) =>
      let h := { h with link := { h.link with back } }
      match Frame.decode raw with
      | .ok frame => r.goTo h (.dispatching frame) (some (.routing frame))
      | .error e => r.goTo h (.reporting (.undecodable raw e)) (some (.undecodable e))
    | .error .empty => r.goTo h (.visiting 0)
    | .error .disconnected => { r with linkOpen := false }.goTo h (.visiting 0) (some .linkClosed)

/-- The frame is put in the queue of the peer. -/
def deliver (peer : Peer) (frame : Frame) : Reaction :=
  match h.queues? peer with
  | none => r.goTo h (.reporting (.undelivered frame))
  | some d =>
    match d.back.trySend frame with
    | .ok back => r.goTo (h.setQueues peer { d with back }) (.visiting 0)
    | .error why =>
      r.goTo h (.reporting (.undelivered frame)) (some (.dropped (h.idOf peer) why))

def diagnosticNotice? : Diagnostic → Option Notice
  | .notForHost frame => some (.notForHost frame)
  | .unknownSource frame => some (.unknownSource frame.source)
  | _ => none

/-- The next peer gets its turn, unless the queue to the link is full. Once
all boards have had theirs, the next round begins with another board. -/
def visit (turn : Nat) : Reaction :=
  let full := h.link.forth.isFull
  if turn < h.routes.length then
    if full then r.goTo h .resting (some .linkFull) else r.goTo h (.pulling turn)
  else
    let r := if h.routes.isEmpty then r else { r with next := (r.next + 1) % h.routes.length }
    if full then r.goTo h .resting else r.goTo h (.pulling turn)

/-- One frame is taken from the peer whose turn it is, if it has one. -/
def pull (turn : Nat) : Reaction :=
  let peer := r.peerAt h turn
  if peer ∈ r.gone then r.turnOver h turn
  else
    match h.queues? peer with
    | none => r.turnOver h turn
    | some d =>
      match d.forth.tryRecv with
      | .ok (frame, forth) =>
        r.goTo (h.setQueues peer { d with forth }) (.pushing turn frame) (some (.forwarding frame))
      | .error .empty => r.turnOver h turn
      | .error .disconnected =>
        { r with gone := peer :: r.gone }.turnOver h turn (some (.peerGone (h.idOf peer)))

/-- The frame is queued for the link. -/
def push (turn : Nat) (frame : Frame) : Reaction :=
  match h.link.forth.trySend frame.encode with
  | .ok forth => r.turnOver { h with link := { h.link with forth } } turn
  | .error _ => r.turnOver h turn (some .linkUnavailable)

def step : Reaction :=
  match r.phase with
  | .starting => r.goTo h .resting (some (.started h.routes.length))
  | .resting =>
    if h.cancelled then r.goTo h.release .stopped (some .stopped) else r.goTo h .listening
  | .listening => r.listen h
  | .dispatching frame =>
    match h.destination frame with
    | .peer peer => r.deliver h peer frame
    | .report diagnostic => r.goTo h (.reporting diagnostic) (diagnosticNotice? diagnostic)
  | .reporting diagnostic =>
    r.goTo { h with diagnostics := h.diagnostics.offer diagnostic } (.visiting 0)
  | .visiting turn => r.visit h turn
  | .pulling turn => r.pull h turn
  | .pushing turn frame => r.push h turn frame
  | .stopped => r.goTo h .stopped

/-- The router is between two passes, or at its end. -/
def isResting : Bool :=
  match r.phase with
  | .resting | .stopped => true
  | _ => false

/-- The most steps from one rest to the next. -/
def passLength : Nat := 3 * h.routes.length + 8

end Router

end BoardFlash
