import BoardFlash.Bridge.Trunk
import BoardFlash.Log
import BoardFlash.Text.Hex
import BoardFlash.Wire.Frame

/-!
# The bridge

The bridge is the only unit that uses the link. It cuts the bytes that come
in into encoded frames, by the lengths that their headers announce, and
writes the encoded frames that are queued for the link. It never looks at
what a frame means.

Reliability is not its job. A frame that stops in the middle is dropped, and
so is a header that no frame starts with; the sessions recover by their own
means. Any other failure of the link ends the bridge and raises the alarm.

`Bridge.step` is its smallest indivisible step: between two of them others
may change the trunk (`Trunk.Move`), so a step makes one call on the link or
touches one thing of the trunk.
-/

namespace BoardFlash

namespace Bridge

/-- What the bridge lets others know of its work. -/
inductive Notice where
  | started
  /-- The link went quiet in the middle of a frame. -/
  | cutShort (cause : IoError)
  | badHeader (header : List UInt8)
  | received (length : Nat)
  | noRoom
  | routerGone
  /-- A frame is about to be written. -/
  | sending (length : Nat)
  /-- Nothing will be queued for the link any more. -/
  | queueClosed
  | failed (cause : IoError)
  | stopped
  deriving DecidableEq

def Notice.record : Notice → Log.Record
  | .started => ⟨.info, "=> Bridge"⟩
  | .cutShort cause => ⟨.warn, "partial frame dropped: " ++ cause.text⟩
  | .badHeader header => ⟨.warn, "discarding invalid frame header " ++ Hex.list header⟩
  | .received length => ⟨.trace, s!"<- {length} bytes"⟩
  | .noRoom => ⟨.warn, "inbound queue full, frame dropped"⟩
  | .routerGone => ⟨.debug, "router gone, frame dropped"⟩
  | .sending length => ⟨.trace, s!"-> {length} bytes"⟩
  | .queueClosed => ⟨.debug, "outbound queue closed, stopping the bridge"⟩
  | .failed cause => ⟨.error, "serial link failure: " ++ cause.text⟩
  | .stopped => ⟨.info, "<= Bridge"⟩

/-- Where the bridge stands between two steps. -/
inductive Phase where
  | starting
  /-- Between two rounds. -/
  | resting
  /-- About to look whether a received frame would find room. -/
  | checking
  | polling
  /-- `got` was read of a frame; `missing` bytes more, and its header or all
  of it is complete. -/
  | reading (got : List UInt8) (missing : Nat)
  | storing (raw : List UInt8)
  | fetching
  | writing (rest : List UInt8)
  | flushing
  | failing (cause : IoError)
  | alarming (cause : IoError)
  | stopping (failure : Option IoError)
  | stopped (failure : Option IoError)
  deriving DecidableEq

end Bridge

structure Bridge where
  phase : Bridge.Phase := .starting
  deriving DecidableEq

namespace Bridge

/-- What a step leaves behind. -/
structure Reaction where
  bridge : Bridge
  trunk : Trunk
  notice : Option Notice := none

variable (b : Bridge) (t : Trunk)

/-- The call that the next step makes on the link, if it makes one. -/
def call? : Option Link.Call :=
  match b.phase with
  | .polling => some .available
  | .reading _ missing => some (.read missing)
  | .writing rest => some (.write rest)
  | .flushing => some .flush
  | _ => none

def goTo (phase : Phase) (notice : Option Notice := none) : Reaction := ⟨⟨phase⟩, t, notice⟩

/-- The link went quiet, which is no failure. -/
def isQuiet (e : IoError) : Bool :=
  match e.kind with
  | .timedOut | .wouldBlock => true
  | _ => false

/-- Enough bytes for a header are worth a read. -/
def polled : Except IoError Nat → Reaction
  | .ok n => goTo t (if Frame.headerLength ≤ n then .reading [] Frame.headerLength else .fetching)
  | .error e => goTo t (.failing e)

/-- A header or a whole frame is complete. Behind a header at least the
checksum is still to come. -/
def complete (got : List UInt8) : Reaction :=
  if got.length = Frame.headerLength then
    match Frame.remaining? got with
    | some n => goTo t (.reading got n)
    | none => goTo t .fetching (some (.badHeader got))
  else goTo t (.storing got) (some (.received got.length))

/-- A read that was interrupted is made again. -/
def afterRead (got : List UInt8) (missing : Nat) : Except IoError (List UInt8) → Reaction
  | .ok [] => goTo t (.failing .endOfInput)
  | .ok bytes =>
    let got := got ++ bytes
    if missing ≤ bytes.length then complete t got
    else goTo t (.reading got (missing - bytes.length))
  | .error e =>
    if e.kind = .interrupted then goTo t (.reading got missing)
    else if isQuiet e then goTo t .fetching (some (.cutShort e))
    else goTo t (.failing e)

def writeRest (rest : List UInt8) (notice : Option Notice := none) : Reaction :=
  goTo t (if rest.isEmpty then .flushing else .writing rest) notice

/-- A write that was interrupted is made again. -/
def afterWrite (rest : List UInt8) : Except IoError Nat → Reaction
  | .ok 0 => goTo t (.failing .nothingTaken)
  | .ok n => writeRest t (rest.drop n)
  | .error e => goTo t (if e.kind = .interrupted then .writing rest else .failing e)

def store (raw : List UInt8) : Reaction :=
  match t.queues.back.trySend raw with
  | .ok back => goTo { t with queues := { t.queues with back } } .fetching
  | .error .full => goTo t .fetching (some .noRoom)
  | .error .disconnected => goTo t .fetching (some .routerGone)

def fetch : Reaction :=
  match t.queues.forth.tryRecv with
  | .ok (raw, forth) =>
    writeRest { t with queues := { t.queues with forth } } raw (some (.sending raw.length))
  | .error .empty => goTo t .resting
  | .error .disconnected => goTo t (.stopping none) (some .queueClosed)

/-- A step, where `link` is how the link behaves at this moment. -/
def step (link : Link) : Reaction :=
  match b.phase with
  | .starting => goTo t .resting (some .started)
  | .resting => goTo t (if t.cancelled then .stopping none else .checking)
  | .checking => goTo t (if t.queues.back.isFull then .fetching else .polling)
  | .polling => polled t (link .available)
  | .reading got missing => afterRead t got missing ((link (.read missing)).map (·.val))
  | .storing raw => store t raw
  | .fetching => fetch t
  | .writing rest => afterWrite t rest ((link (.write rest)).map (·.val))
  | .flushing =>
    match link .flush with
    | .ok _ => goTo t .resting
    | .error e => goTo t (.failing e)
  | .failing e => goTo t (.alarming e) (some (.failed e))
  | .alarming e => goTo { t with alarm := true } (.stopping (some e))
  | .stopping failure => goTo t.release (.stopped failure) (some .stopped)
  | .stopped failure => goTo t (.stopped failure)

def isOver : Bool :=
  match b.phase with
  | .stopped _ => true
  | _ => false

/-- The failure of the link that ended the bridge, if one did. -/
def failure? : Option IoError :=
  match b.phase with
  | .stopped failure => failure
  | _ => none

end Bridge

end BoardFlash
