import BoardFlash.Campaign

/-!
# Scripted boards

A campaign can be run against boards that follow a script: what a board does
is fixed for each frame that is announced to it, for each state that its
session enters and for each frame that its session ignores. Nothing else
happens meanwhile, so when a session waits and its board has nothing more to
do, the clock moves on to the end of the wait.
-/

namespace BoardFlash

namespace Simulation

/-- What a scripted board does to its session. -/
inductive Action where
  | deliver (frame : Frame)
  | cancel
  /-- Closes the queue of its answers. -/
  | stopSending
  /-- Takes all frames that wait for it, then closes their queue. -/
  | stopReceiving
  /-- Takes all frames that wait for it. -/
  | collect
  /-- Breaks the session down. -/
  | crash
  deriving DecidableEq

inductive StateName where
  | requesting
  | preparing
  | sending
  | done
  deriving DecidableEq

/-- What happens when a session enters a state for the `nth` time. -/
structure EntryRule where
  state : StateName
  nth : Nat
  actions : List Action

structure BoardScript where
  board : UInt8
  /-- The session is cancelled before it begins. -/
  cancelled : Bool := false
  before : List Action := []
  /-- The actions for each frame that is announced, in order. -/
  onSend : List (List Action) := []
  /-- The actions for all later frames. -/
  otherwise : List Action := []
  onEntry : List EntryRule := []
  /-- The actions for each frame that the session ignores, in order. -/
  onIgnored : List (List Action) := []
  /-- The board leaves the frames in its queue until it is told to take them. -/
  hold : Bool := false

/-- The number of actions in the script. -/
def BoardScript.size (b : BoardScript) : Nat :=
  b.before.length + b.onSend.flatten.length + b.otherwise.length +
    (b.onEntry.flatMap (·.actions)).length + b.onIgnored.flatten.length

/-- The board's side of a mailbox, and what it has seen so far. -/
structure Bench where
  mailbox : Mailbox
  announced : Nat := 0
  ignored : Nat := 0
  entered : List StateName := []
  received : List Frame := []
  undelivered : Nat := 0
  notices : List Session.Notice := []
  crashed : Bool := false

namespace Bench

def collect (b : Bench) : Bench :=
  if b.mailbox.outbound.receiverOpen then
    { b with
      received := b.received ++ b.mailbox.outbound.items
      mailbox := b.mailbox.apply (.collect b.mailbox.outbound.length) }
  else b

def act (b : Bench) (a : Action) : Bench :=
  if b.crashed then b
  else match a with
    | .deliver frame =>
      match b.mailbox.deliver? frame with
      | some mailbox => { b with mailbox }
      | none => { b with undelivered := b.undelivered + 1 }
    | .cancel => { b with mailbox := b.mailbox.apply .cancel }
    | .stopSending => { b with mailbox := b.mailbox.apply .stopDelivering }
    | .stopReceiving =>
      let b := b.collect
      { b with mailbox := b.mailbox.apply .stopCollecting }
    | .collect => b.collect
    | .crash => { b with crashed := true }

def actAll (b : Bench) (actions : List Action) : Bench := actions.foldl act b

/-- The bench before the session begins. -/
def start (script : BoardScript) (capacity : Nat) : Bench :=
  let mailbox := Mailbox.ofCapacity capacity
  let mailbox := if script.cancelled then mailbox.apply .cancel else mailbox
  actAll { mailbox } script.before

def enter (b : Bench) (script : BoardScript) (state : StateName) : Bench :=
  let b := { b with entered := b.entered ++ [state] }
  let nth := b.entered.count state
  let rules := script.onEntry.filter fun r => r.state = state && r.nth == nth
  b.actAll (rules.flatMap (·.actions))

def react (b : Bench) (script : BoardScript) (n : Session.Notice) : Bench :=
  let b := { b with notices := n :: b.notices }
  match n with
  | .requesting => b.enter script .requesting
  | .preparing _ => b.enter script .preparing
  | .sending _ => b.enter script .sending
  | .done _ => b.enter script .done
  | .announced _ =>
    let actions := (script.onSend[b.announced]?).getD script.otherwise
    let b := if script.hold then b else b.collect
    { b with announced := b.announced + 1 }.actAll actions
  | .ignored _ =>
    let actions := (script.onIgnored[b.ignored]?).getD []
    { b with ignored := b.ignored + 1 }.actAll actions
  | _ => b

/-- All that the session told, in order. -/
def story (b : Bench) : List Session.Notice := b.notices.reverse

/-- The frames that the board took and those that still wait for it. -/
def allReceived (b : Bench) : List Frame := b.collect.received

end Bench

/-! ## Running a campaign -/

structure Trial where
  campaign : Campaign
  benches : List Bench
  clock : Instant := .origin
  /-- The boards to which frames were announced, the last one first. -/
  order : List UInt8 := []

namespace Trial

def start (settings : Settings) (image : Firmware) (scripts : List BoardScript) : Trial where
  campaign := Campaign.new settings image (scripts.map BoardScript.board)
  benches := scripts.map fun s => Bench.start s settings.queueCapacity.toNat

/-- One step of the `i`-th session and what its board makes of it. -/
def step (t : Trial) (i : Nat) (session : Session) (script : BoardScript) (bench : Bench) : Trial :=
  let clock := ((session.waitsUntil? bench.mailbox).getD t.clock)
  let clock := if clock.nanos ≤ t.clock.nanos then t.clock else clock
  let (campaign, mailbox, notice) := t.campaign.step i clock bench.mailbox
  let bench := { bench with mailbox }
  let bench := match notice with
    | some n => bench.react script n
    | none => bench
  let (campaign, bench) :=
    if bench.crashed then
      let (campaign, mailbox) := campaign.kill i bench.mailbox
      (campaign, { bench with mailbox })
    else (campaign, bench)
  let order := match notice with
    | some (.announced _) => session.board :: t.order
    | _ => t.order
  { campaign, benches := t.benches.set i bench, clock, order }

/-- Up to `fuel` steps, each one of the first session that is not over. -/
def run (scripts : List BoardScript) : Nat → Trial → Trial
  | 0, t => t
  | fuel + 1, t =>
    match t.campaign.next? with
    | none => t
    | some i =>
      match t.campaign.sessions[i]?, scripts[i]?, t.benches[i]? with
      | some session, some script, some bench => run scripts fuel (t.step i session script bench)
      | _, _, _ => t

/-- More steps than a session can take against the script: it sends no chunk
more often than allowed, and a frame of the board costs it at most two. -/
def enough (settings : Settings) (image : Firmware) (script : BoardScript) : Nat :=
  (image.chunkCount.toNat * settings.maxTransmissions.toNat + 4) * (2 * script.size + 16)

/-- A whole campaign against scripted boards. -/
def complete (settings : Settings) (image : Firmware) (scripts : List BoardScript) : Trial :=
  let fuel := scripts.foldl (fun n script => n + enough settings image script) 0
  run scripts fuel (start settings image scripts)

end Trial

end Simulation

end BoardFlash
