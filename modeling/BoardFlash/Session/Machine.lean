import BoardFlash.Firmware
import BoardFlash.Number.Word
import BoardFlash.Session.Mailbox
import BoardFlash.Session.State
import BoardFlash.Settings
import BoardFlash.Summary
import BoardFlash.Wire.UpdateRequest

/-!
# The update of one board

A session pushes the image to one board and has at most one frame waiting
for an answer at any time. `Session.step` is its smallest indivisible step:
between two of them others may change the mailbox (`Mailbox.Move`) and time
may pass, so a step reads the clock or touches one thing of the mailbox.

An exchange sends one frame and waits for the board's answer:

* what came in before is thrown away (`clearing`) and the frame is announced,
* the flag and the clock are looked at (`beforeSend`), then the outbound queue
  is tried (`placing`), until the frame is in,
* the flag and the clock are looked at (`beforeAnswer`), then the inbound
  queue is tried (`receiving`), until there is an answer.

A frame of any type but `ack`, `nack` and `fatalError` is no answer.
-/

namespace BoardFlash

namespace Session

/-- What an exchange is for. -/
inductive Purpose where
  | request
  /-- A chunk that was refused `refusals` times before. -/
  | chunk (refusals : UInt32)
  deriving DecidableEq

structure Exchange where
  purpose : Purpose
  frame : Frame
  deadline : Instant
  deriving DecidableEq

/-- The state that the exchange belongs to; its packet is on its way. -/
def Exchange.state (x : Exchange) : State :=
  match x.purpose with
  | .request => .requesting
  | .chunk refusals => .sending none refusals

/-- The frame was refused before. -/
def Exchange.again (x : Exchange) : Bool :=
  match x.purpose with
  | .request => false
  | .chunk refusals => decide (0 < refusals)

/-- Where a session stands between two steps. -/
inductive Phase where
  /-- Not begun yet. -/
  | waiting
  /-- About to enter the state, unless cancelled. -/
  | boundary (state : State)
  /-- In the state, its work still to be done. -/
  | entered (state : State)
  | clearing (x : Exchange)
  | beforeSend (x : Exchange)
  | placing (x : Exchange)
  | beforeAnswer (x : Exchange)
  | receiving (x : Exchange)
  /-- A queue of the exchange turned out to be closed. -/
  | lost (x : Exchange)
  | finished (failure : Option Failure) (elapsed : Duration)
  | crashed (fault : Fault)
  deriving DecidableEq

end Session

structure Session where
  board : UInt8
  image : Firmware
  responseTimeout : Duration
  maxTransmissions : UInt32
  cursor : Cursor
  started : Instant := .origin
  bytesSent : Nat := 0
  chunksSent : UInt32 := 0
  retransmissions : UInt32 := 0
  phase : Session.Phase := .waiting
  deriving DecidableEq

namespace Session

/-- A session that has not begun. -/
def new (board : UInt8) (image : Firmware) (settings : Settings) : Session where
  board
  image
  responseTimeout := settings.responseTimeout
  maxTransmissions := settings.maxTransmissions
  cursor := image.cursor

/-- What a step leaves behind. -/
structure Reaction where
  session : Session
  mailbox : Mailbox
  notice : Option Notice := none

variable (now : Instant) (s : Session) (m : Mailbox)

def goTo (phase : Phase) (notice : Option Notice := none) : Reaction :=
  ⟨{ s with phase }, m, notice⟩

/-- Without an outcome; the queues are let go. -/
def crash (fault : Fault) : Reaction :=
  ⟨{ s with phase := .crashed fault }, m.release, none⟩

/-- On to where the event leads from the state. The session ends, and lets go
of its queues, once its outcome has been reported. -/
def fire (state : State) (event : Event) (notice : Option Notice := none) : Reaction :=
  match state.next? event with
  | none => s.crash m .illegalEvent
  | some (.done failure true) =>
    ⟨{ s with phase := .finished failure (now.since s.started) }, m.release, notice⟩
  | some next => s.goTo m (.boundary next) notice

/-- Begins an exchange; the board has to answer within the response timeout
from now on. -/
def exchange (purpose : Purpose) (frame : Frame) : Reaction :=
  match now.after? s.responseTimeout with
  | none => s.crash m .deadlineOverflow
  | some deadline => s.goTo m (.clearing ⟨purpose, frame, deadline⟩)

def entryNotice (state : State) : Notice :=
  match state with
  | .requesting => .requesting
  | .preparing => .preparing s.cursor.offset
  | .sending _ refusals => .sending refusals
  | .done failure _ => .done failure

/-- The work of a state up to its exchange, if it has one. -/
def work (state : State) : Reaction :=
  match state with
  | .requesting =>
    let request := UpdateRequest.announce s.image.chunkCount s.image.digest
    match Frame.build .programUpdateRequest hostId s.board request.encode with
    | .error e => s.crash m (.payloadTooLarge e.length)
    | .ok frame => s.exchange now m .request frame
  | .preparing =>
    match s.cursor.current? with
    | none => s.fire now m state (.over none)
    | some chunk =>
      match Frame.build .programData hostId s.board chunk with
      | .error e => s.crash m (.payloadTooLarge e.length)
      | .ok packet => s.fire now m state (.ready packet)
  | .sending packet refusals =>
    if s.maxTransmissions ≤ refusals then
      s.fire now m state (.over (some (.retriesExhausted refusals)))
        (some (.exhausted s.cursor.offset refusals))
    else
      match packet with
      | none => s.crash m .packetTaken
      | some frame => s.exchange now m (.chunk refusals) frame
  | .done failure _ =>
    s.fire now m state (.exit failure) (some (.reported failure (now.since s.started)))

/-- The board took the frame. -/
def accepted (x : Exchange) : Reaction :=
  match x.purpose with
  | .request => s.fire now m x.state .prepare
  | .chunk _ =>
    match Word.next? s.chunksSent with
    | none => s.crash m .counterOverflow
    | some chunksSent =>
      let s := { s with
        cursor := s.cursor.advance
        bytesSent := s.bytesSent + x.frame.payload.length
        chunksSent }
      s.fire now m x.state .prepare

/-- The board refused the frame. -/
def refused (x : Exchange) : Reaction :=
  match x.purpose with
  | .request => s.fire now m x.state (.over (some .rejected)) (some .rejected)
  | .chunk refusals =>
    match Word.next? refusals with
    | none => s.crash m .counterOverflow
    | some refusals => s.fire now m x.state (.again x.frame refusals) (some .refused)

/-- The frame is in the outbound queue. Only now it counts as sent again. -/
def placed (x : Exchange) : Reaction :=
  if x.again then
    match Word.next? s.retransmissions with
    | none => s.crash m .counterOverflow
    | some retransmissions => { s with retransmissions }.goTo m (.beforeAnswer x)
  else s.goTo m (.beforeAnswer x)

/-- The flag first, then the clock; `next` if neither stops the wait. -/
def unlessOver (x : Exchange) (next : Phase) : Reaction :=
  if m.cancelled then s.fire now m x.state (.over (some .cancelled))
  else if x.deadline.nanos ≤ now.nanos then s.fire now m x.state (.over (some .timeout))
  else s.goTo m next

def step : Reaction :=
  match s.phase with
  | .waiting => { s with started := now }.goTo m (.boundary .requesting)
  | .boundary state =>
    if m.cancelled && !state.isDone then
      s.goTo m (.boundary (.done (some .cancelled) false))
    else s.goTo m (.entered state) (some (s.entryNotice state))
  | .entered state => s.work now m state
  | .clearing x =>
    match m.inbound.tryRecv with
    | .ok (frame, inbound) => s.goTo { m with inbound } (.clearing x) (some (.stale frame))
    | .error _ => s.goTo m (.beforeSend x) (some (.announced x.frame))
  | .beforeSend x => s.unlessOver now m x (.placing x)
  | .placing x =>
    match m.outbound.trySend x.frame with
    | .ok outbound => s.placed { m with outbound } x
    | .error .full => s.goTo m (.beforeSend x)
    | .error .disconnected => s.goTo m (.lost x)
  | .beforeAnswer x => s.unlessOver now m x (.receiving x)
  | .receiving x =>
    match m.inbound.tryRecv with
    | .ok (frame, inbound) =>
      let m := { m with inbound }
      match frame.type with
      | .ack => s.accepted now m x
      | .nack => s.refused now m x
      | .fatalError => s.fire now m x.state (.over (some .boardFault))
      | _ => s.goTo m (.beforeAnswer x) (some (.ignored frame))
    | .error .empty => s.goTo m (.beforeAnswer x)
    | .error .disconnected => s.goTo m (.lost x)
  | .lost x =>
    s.fire now m x.state (.over (some (if m.cancelled then .cancelled else .disconnected)))
  | .finished .. => s.goTo m s.phase
  | .crashed _ => s.goTo m s.phase

/-! ## Outcomes -/

/-- Nothing is left to be done. -/
def isOver : Bool :=
  match s.phase with
  | .finished .. | .crashed _ => true
  | _ => false

/-- The outcome of a session that is over. -/
def outcome? : Option Outcome :=
  match s.phase with
  | .finished failure elapsed =>
    some ⟨s.board, failure, elapsed, s.bytesSent, s.chunksSent, s.retransmissions⟩
  | .crashed _ => some (.aborted s.board)
  | _ => none

/-- The instant until which nothing will happen here unless somebody else
changes the mailbox. -/
def waitsUntil? : Option Instant :=
  match s.phase with
  | .placing x =>
    if m.outbound.receiverOpen && m.outbound.isFull then some x.deadline else none
  | .receiving x =>
    if m.inbound.isEmpty && m.inbound.senderOpen then some x.deadline else none
  | _ => none

end Session

end BoardFlash
