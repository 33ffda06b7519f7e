import BoardFlash.Station.Machine

/-!
# Scripted boards on one link

A station can be run over a link to which all the boards are connected. What
a board does is fixed for each frame that is written for it. The units take
turns; when a whole round of turns has led to nothing, the clock moves on to
the next deadline of a session.
-/

namespace BoardFlash

namespace Simulation

/-- What happens while a frame is being written. -/
inductive BusAction where
  /-- These bytes are sent back. -/
  | answer (bytes : List UInt8)
  /-- The operator interrupts the run. -/
  | interrupt
  /-- From now on the link fails when it is polled. -/
  | unplug
  | failWrite
  deriving DecidableEq

/-- The bytes that are sent back, and one. -/
def BusAction.weight : BusAction → Nat
  | .answer bytes => bytes.length + 1
  | _ => 1

structure BusBoard where
  board : UInt8
  /-- The actions for each frame, in order; lines of the console do not count. -/
  onFrame : List (List BusAction) := []
  /-- The actions for all later frames. -/
  otherwise : List BusAction := []
  absent : Bool := false

/-- The link and the boards behind it. -/
structure Bus where
  boards : List BusBoard
  /-- No answer can be read before this many lines of the console have been
  written. -/
  awaited : Nat := 0
  unplugged : Bool := false
  /-- What was sent back and not read yet. -/
  answers : List UInt8 := []
  /-- All frames that were written, the latest first. -/
  seen : List Frame := []

namespace Bus

def isLine (f : Frame) : Bool := f.type = .cliData

/-- The lines of the console that were written, in order. -/
def lines (b : Bus) : List Frame := b.seen.reverse.filter isLine

/-- The frames of the sessions that were written, in order. -/
def updates (b : Bus) : List Frame := b.seen.reverse.filter (!isLine ·)

def updatesFor (b : Bus) (board : UInt8) : List Frame := b.updates.filter (·.dest = board)

def readable (b : Bus) : List UInt8 :=
  if b.awaited ≤ b.seen.countP isLine then b.answers else []

/-- What happens when the bytes are written. -/
def actions (b : Bus) (bytes : List UInt8) : List BusAction :=
  match Frame.decode bytes with
  | .error _ => []
  | .ok frame =>
    match b.boards.find? (·.board = frame.dest) with
    | none => []
    | some board =>
      if isLine frame || board.absent then []
      else
        let k := b.seen.countP fun f => !isLine f && f.dest = frame.dest
        (board.onFrame[k]?).getD board.otherwise

def failure : IoError := .ofKind .brokenPipe

/-- How the link behaves at this moment. -/
def behaviour (b : Bus) : Link
  | .available => if b.unplugged then .error failure else .ok b.readable.length
  | .read most =>
    if b.readable.isEmpty then .error (.ofKind .timedOut)
    else .ok ⟨b.readable.take most, List.length_take_le most b.readable⟩
  | .write bytes =>
    if BusAction.failWrite ∈ b.actions bytes then .error failure else .ok (Fin.last bytes.length)
  | .flush => .ok ()

/-- The link once the call is answered. -/
def after (b : Bus) : Link.Call → Bus
  | .read most => { b with answers := b.answers.drop (b.readable.take most).length }
  | .write bytes =>
    let actions := b.actions bytes
    let answered := actions.flatMap fun
      | .answer bytes => bytes
      | _ => []
    { b with
      answers := b.answers ++ answered
      unplugged := b.unplugged || decide (BusAction.unplug ∈ actions)
      seen := (Frame.decode bytes).toOption.toList ++ b.seen }
  | _ => b

/-- The weight of all actions in the scripts. -/
def weight (b : Bus) : Nat :=
  let actions := b.boards.flatMap fun x => (x.onFrame ++ [x.otherwise]).flatten
  actions.foldl (· + ·.weight) 0

end Bus

/-! ## Running the station -/

structure Operation where
  station : Station
  bus : Bus
  clock : Instant := .origin

namespace Operation

open Station (Actor)

/-- A step of one unit, and what the boards make of it. -/
def step (o : Operation) (actor : Actor) : Operation × Option Station.Notice :=
  let call? := if actor = .bridge then o.station.bridge.call? else none
  let interrupted := match call? with
    | some (.write bytes) => decide (BusAction.interrupt ∈ o.bus.actions bytes)
    | _ => false
  let station := if interrupted then o.station.interrupt else o.station
  let r := station.step o.clock o.bus.behaviour actor
  ({ o with station := r.station, bus := (call?.map o.bus.after).getD o.bus }, r.notice)

/-- The session of the board may take a step and is not just waiting. -/
def sessionReady (o : Operation) (i : Nat) : Bool :=
  match o.station.campaign.sessions[i]?, o.station.mailbox? i with
  | some session, some m =>
    !session.isOver && o.station.campaign.mayStep i &&
      (m.cancelled ||
        match session.waitsUntil? m with
        | some deadline => decide (deadline.nanos ≤ o.clock.nanos)
        | none => true)
  | _, _ => false

/-- The unit can stop here until its next turn. -/
def atRest (o : Operation) : Actor → Bool
  | .session i => !o.sessionReady i
  | .router => o.station.router.isResting
  | .bridge => o.station.bridge.phase = .resting || o.station.bridge.isOver
  | .console => o.station.console.all fun c => c.phase = .resting || c.isOver
  | .keeper => true

/-- The notice tells of something that was achieved. -/
def achieves : Station.Notice → Bool
  | .router .linkFull => false
  | _ => true

/-- Steps of one unit until it rests, and whether they achieved anything. -/
def turn (actor : Actor) (achieved : Bool) : Nat → Operation → Operation × Bool
  | 0, o => (o, achieved)
  | fuel + 1, o =>
    let (next, notice) := o.step actor
    let achieved := achieved || notice.any achieves || next.station.phase != o.station.phase ||
      next.station.keyboard.length != o.station.keyboard.length
    if next.atRest actor then (next, achieved) else turn actor achieved fuel next

/-- The most steps of a unit in one turn. -/
def turnLength (o : Operation) : Nat := Router.passLength o.station.hub + 32

/-- The turn of one unit in a round. -/
def take (acc : Operation × Bool) (actor : Actor) : Operation × Bool :=
  match actor with
  | .session i =>
    if acc.1.sessionReady i then turn actor true acc.1.turnLength acc.1 else acc
  | _ => turn actor acc.2 acc.1.turnLength acc.1

def round (o : Operation) : Operation × Bool := o.station.actors.foldl take (o, false)

/-- The deadlines of the sessions that are waiting. -/
def deadlines (o : Operation) : List Instant :=
  (List.range o.station.campaign.sessions.length).filterMap fun i =>
    match o.station.campaign.sessions[i]?, o.station.mailbox? i with
    | some session, some m =>
      if !session.isOver && o.station.campaign.mayStep i then session.waitsUntil? m else none
    | _, _ => none

def earliest? : List Instant → Option Instant
  | [] => none
  | t :: rest => some (rest.foldl (fun a b => if b.nanos < a.nanos then b else a) t)

/-- Rounds until the station has finished, or until there is nothing left
that anybody waits for. -/
def run : Nat → Operation → Operation
  | 0, o => o
  | fuel + 1, o =>
    if o.station.isFinished then o
    else
      let (next, achieved) := o.round
      if achieved then run fuel next
      else
        match earliest? next.deadlines with
        | some deadline => run fuel { next with clock := deadline }
        | none => next

/-- More rounds than a run can take: a frame of a session and a line take a
few rounds each, and no more frames can be cut from an answer than it has
bytes. -/
def enough (settings : Settings) (o : Operation) : Nat :=
  let frames := o.station.campaign.sessions.foldl (fun n s =>
    n + s.image.chunkCount.toNat * settings.maxTransmissions.toNat + 2) 0
  (frames + o.station.keyboard.length + 4) * (o.bus.weight + 16)

/-- A whole run of a station over the bus; the lines of the console are typed
beforehand. -/
def complete (settings : Settings) (image : Firmware) (bus : Bus) (interrupted : Bool)
    (lines : Option (List (List Char))) : Operation :=
  let keyboard := lines.map fun lines =>
    ({ capacity := lines.length, items := lines } : Queue (List Char)).closeSender
  let station := Station.new settings image (bus.boards.map BusBoard.board) keyboard
  let station := if interrupted then station.interrupt else station
  let o : Operation := { station, bus }
  run (enough settings o) o

end Operation

end Simulation

end BoardFlash
