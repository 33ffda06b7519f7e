import BoardFlash.Queue
import BoardFlash.Wire.Frame

/-!
# What the router shares with its surroundings

The router stands between the link and its peers: the sessions of the boards
and, if there is one, the console. To each of them leads a pair of queues,
and what cannot be delivered to any of them goes into a queue of diagnostics.
All of these together are the `Hub`. Whatever the others do to it is a
`Hub.Move`, and may happen between any two steps of the router.

`Hub.destination` is the rule by which frames from the link are routed.
-/

namespace BoardFlash

/-- Traffic that found no receiver. -/
inductive Diagnostic where
  | undecodable (raw : List UInt8) (error : Frame.DecodeError)
  /-- A frame for the host from a board that is not being updated. -/
  | unknownSource (frame : Frame)
  /-- A frame for somebody else on the link. -/
  | notForHost (frame : Frame)
  /-- A frame whose receiver has no room for it or is gone. -/
  | undelivered (frame : Frame)
  deriving DecidableEq

/-- A unit that the router serves. -/
inductive Peer where
  /-- The session of the `i`-th board. -/
  | board (i : Nat)
  | console
  deriving DecidableEq, Repr

/-- The queues of one board: `forth` leads to the router, `back` to the
board's session. -/
structure Route where
  board : UInt8
  queues : Duplex Frame
  deriving DecidableEq

structure Hub where
  /-- Encoded frames: `forth` leads to the link, `back` comes from it. -/
  link : Duplex (List UInt8)
  routes : List Route
  console : Option (Duplex Frame)
  diagnostics : Queue Diagnostic
  /-- The router has been asked to stop. -/
  cancelled : Bool := false
  deriving DecidableEq

namespace Hub

/-! ## Peers and their queues -/

def queues? (h : Hub) : Peer → Option (Duplex Frame)
  | .board i => h.routes[i]?.map Route.queues
  | .console => h.console

/-- The queues of a peer are replaced; the peer has to exist. -/
def setQueues (h : Hub) (peer : Peer) (queues : Duplex Frame) : Hub :=
  match peer with
  | .board i => { h with routes := h.routes.modify i ({ · with queues }) }
  | .console => { h with console := h.console.map fun _ => queues }

/-- The id by which log records call a peer. -/
def idOf (h : Hub) : Peer → UInt8
  | .board i => (h.routes[i]?.map Route.board).getD hostId
  | .console => hostId

/-- The router lets go of its halves of all queues. -/
def release (h : Hub) : Hub :=
  { h with
    link := h.link.closeFirst
    routes := h.routes.map fun r => { r with queues := r.queues.flip.closeFirst.flip }
    console := h.console.map fun d => d.flip.closeFirst.flip
    diagnostics := h.diagnostics.closeSender }

/-! ## Where frames go -/

inductive Destination where
  | peer (peer : Peer)
  /-- Nobody can get it. -/
  | report (diagnostic : Diagnostic)
  deriving DecidableEq

/-- Lines of the boards' command interfaces are for the console. Of the
other frames those for the host are routed by the board that sent them: the
first route with its id gets them. -/
def destination (h : Hub) (frame : Frame) : Destination :=
  if frame.type = .cliData then
    if h.console.isSome then .peer .console else .report (.undelivered frame)
  else if frame.dest ≠ hostId then .report (.notForHost frame)
  else
    match h.routes.findIdx? (·.board = frame.source) with
    | some i => .peer (.board i)
    | none => .report (.unknownSource frame)

/-! ## What others do -/

/-- Which halves of its queues a peer lets go of. -/
inductive Halves where
  | sending
  | receiving
  | both
  deriving DecidableEq, Repr

inductive Move where
  /-- The peer queues a frame for the link. -/
  | submit (peer : Peer) (frame : Frame)
  /-- The peer takes up to `n` frames that were delivered to it. -/
  | collect (peer : Peer) (n : Nat)
  | hangUp (peer : Peer) (halves : Halves)
  /-- Bytes come in from the link. -/
  | arrive (raw : List UInt8)
  | stopArriving
  /-- Up to `n` encoded frames are taken for the link. -/
  | transmit (n : Nat)
  | stopTransmitting
  /-- Up to `n` diagnostics are read. -/
  | inspect (n : Nat)
  | stopInspecting
  | cancel
  deriving DecidableEq

/-- What the one who made the move got out of it. -/
inductive Reply where
  | done
  /-- A value was to be queued; was it? -/
  | queued (success : Bool)
  /-- The sender has let go of that queue before. -/
  | gone
  | frames (frames : List Frame)
  | raws (raws : List (List UInt8))
  | diagnostics (diagnostics : List Diagnostic)
  deriving DecidableEq

/-- Puts a value into the queue, for whoever holds its sending half. -/
def push {α : Type} (q : Queue α) (a : α) : Queue α × Reply :=
  if !q.senderOpen then (q, .gone)
  else match q.trySend a with
    | .ok q => (q, .queued true)
    | .error _ => (q, .queued false)

/-- Takes up to `n` values, for whoever holds the receiving half. -/
def pull {α : Type} (q : Queue α) (n : Nat) : List α × Queue α :=
  if q.receiverOpen then q.take n else ([], q)

def hangUpQueues (d : Duplex Frame) : Halves → Duplex Frame
  | .sending => { d with forth := d.forth.closeSender }
  | .receiving => { d with back := d.back.closeReceiver }
  | .both => d.closeFirst

def respond (h : Hub) : Move → Hub × Reply
  | .submit peer frame =>
    match h.queues? peer with
    | some d =>
      let (forth, reply) := push d.forth frame
      (h.setQueues peer { d with forth }, reply)
    | none => (h, .gone)
  | .collect peer n =>
    match h.queues? peer with
    | some d =>
      let (frames, back) := pull d.back n
      (h.setQueues peer { d with back }, .frames frames)
    | none => (h, .frames [])
  | .hangUp peer halves =>
    match h.queues? peer with
    | some d => (h.setQueues peer (hangUpQueues d halves), .done)
    | none => (h, .done)
  | .arrive raw =>
    let (back, reply) := push h.link.back raw
    ({ h with link := { h.link with back } }, reply)
  | .stopArriving => ({ h with link := { h.link with back := h.link.back.closeSender } }, .done)
  | .transmit n =>
    let (raws, forth) := pull h.link.forth n
    ({ h with link := { h.link with forth } }, .raws raws)
  | .stopTransmitting =>
    ({ h with link := { h.link with forth := h.link.forth.closeReceiver } }, .done)
  | .inspect n =>
    let (found, diagnostics) := pull h.diagnostics n
    ({ h with diagnostics }, .diagnostics found)
  | .stopInspecting => ({ h with diagnostics := h.diagnostics.closeReceiver }, .done)
  | .cancel => ({ h with cancelled := true }, .done)

def apply (h : Hub) (move : Move) : Hub := (h.respond move).1

end Hub

end BoardFlash
