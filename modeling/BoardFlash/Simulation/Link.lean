import BoardFlash.Bridge.Machine

/-!
# A scripted link

The bridge alone is run over a link whose behaviour is fixed call by call.
What the router does to the trunk happens during these calls. Once there is
no behaviour left for a poll, the next poll closes the queue to the link,
which ends the bridge.
-/

namespace BoardFlash

namespace Simulation

/-- A piece of the stream that the link reads from. -/
inductive Piece where
  | bytes (bytes : List UInt8)
  | failure (cause : IoError)
  | endOfStream
  /-- A read that has got something stops here. -/
  | pause
  deriving DecidableEq

namespace Piece

def length : Piece → Nat
  | .bytes bs => bs.length
  | _ => 0

/-- The first `n` bytes, or those in front of anything that is not bytes. -/
def take : Nat → List Piece → List UInt8 × List Piece
  | 0, pieces => ([], pieces)
  | _, [] => ([], [])
  | n, .bytes bs :: rest =>
    if bs.length ≤ n then
      let (more, left) := take (n - bs.length) rest
      (bs ++ more, left)
    else (bs.take n, .bytes (bs.drop n) :: rest)
  | _, .pause :: rest => ([], rest)
  | _, pieces => ([], pieces)

/-- The pieces from the first one on that a read does not pass over. -/
def settle : List Piece → List Piece
  | .pause :: rest => settle rest
  | .bytes [] :: rest => settle rest
  | pieces => pieces

/-- A read of at most `n` bytes and what it leaves. -/
def read (n : Nat) (pieces : List Piece) : Except IoError (List UInt8) × List Piece :=
  match settle pieces with
  | [] => (.error (.ofKind .timedOut), [])
  | .failure cause :: rest => (.error cause, rest)
  | .endOfStream :: rest => (.ok [], rest)
  | pieces =>
    let (got, left) := take n pieces
    (.ok got, left)

end Piece

/-- What happens when the link is polled. -/
structure Poll where
  moves : List Trunk.Move := []
  /-- What arrives just before. -/
  feed : List Piece := []
  /-- A reply other than the number of bytes in the stream. -/
  reply : Option (Except IoError Nat) := none

/-- What happens when the link is written to. -/
structure Writing where
  moves : List Trunk.Move := []
  /-- The most bytes that are taken. -/
  most : Option Nat := none
  failure : Option IoError := none

/-- What the link was made to send. -/
inductive Sent where
  | bytes (bytes : List UInt8)
  | flush
  deriving DecidableEq

structure LinkScript where
  polls : List Poll := []
  writes : List Writing := []
  flushes : List (Option IoError) := []
  stream : List Piece := []

namespace LinkScript

def available (s : LinkScript) : Nat := s.stream.foldl (· + ·.length) 0

/-- What the router does when the call is made. -/
def moves (s : LinkScript) : Link.Call → List Trunk.Move
  | .available =>
    match s.polls with
    | p :: _ => p.moves
    | [] => [.stopSubmitting]
  | .write _ =>
    match s.writes with
    | w :: _ => w.moves
    | [] => []
  | _ => []

/-- What arrives when the call is made. -/
def fed (s : LinkScript) : Link.Call → LinkScript
  | .available =>
    match s.polls with
    | p :: _ => { s with stream := s.stream ++ p.feed }
    | [] => s
  | _ => s

/-- How the link behaves at the moment of a call. -/
def behaviour (s : LinkScript) : Link
  | .available =>
    match s.polls with
    | p :: _ => p.reply.getD (.ok s.available)
    | [] => .ok (0 : Nat)
  | .read most => (Piece.read most s.stream).1.map fun bytes =>
    ⟨bytes.take most, List.length_take_le most bytes⟩
  | .write bytes =>
    let w := s.writes.headD {}
    match w.failure with
    | some e => .error e
    | none => .ok (Fin.ofNat _ (min (w.most.getD bytes.length) bytes.length))
  | .flush =>
    match s.flushes with
    | some e :: _ => .error e
    | _ => .ok ()

/-- The script once the call is answered. -/
def after (s : LinkScript) : Link.Call → LinkScript
  | .available => { s with polls := s.polls.tail }
  | .read most => { s with stream := (Piece.read most s.stream).2 }
  | .write _ => { s with writes := s.writes.tail }
  | .flush => { s with flushes := s.flushes.tail }

/-- What a call sends. -/
def sent? (s : LinkScript) : Link.Call → Option Sent
  | .write bytes =>
    match s.behaviour (.write bytes) with
    | .ok n => some (.bytes (bytes.take n.val))
    | .error _ => none
  | .flush =>
    match s.behaviour .flush with
    | .ok _ => some .flush
    | .error _ => none
  | _ => none

end LinkScript

/-! ## Running the bridge -/

structure Crossing where
  bridge : Bridge := {}
  trunk : Trunk
  script : LinkScript
  /-- What the router took, what was sent and what the bridge told, each with
  the latest first. -/
  taken : List (List UInt8) := []
  sent : List Sent := []
  notices : List Bridge.Notice := []

namespace Crossing

/-- A move of the router; before it lets go of its receiving half it takes
all that was received. -/
def move (c : Crossing) (m : Trunk.Move) : Crossing :=
  let received := if c.trunk.queues.back.receiverOpen then c.trunk.queues.back.items else []
  match m with
  | .collect n => { c with trunk := c.trunk.apply m, taken := (received.take n).reverse ++ c.taken }
  | .stopCollecting =>
    let trunk := (c.trunk.apply (.collect received.length)).apply m
    { c with trunk, taken := received.reverse ++ c.taken }
  | _ => { c with trunk := c.trunk.apply m }

def moveAll (c : Crossing) (ms : List Trunk.Move) : Crossing := ms.foldl move c

def step (c : Crossing) : Crossing :=
  let c := match c.bridge.call? with
    | some call => { c.moveAll (c.script.moves call) with script := c.script.fed call }
    | none => c
  let reaction := c.bridge.step c.trunk c.script.behaviour
  let c := match c.bridge.call? with
    | some call =>
      { c with
        script := c.script.after call
        sent := (c.script.sent? call).toList ++ c.sent }
    | none => c
  { c with
    bridge := reaction.bridge
    trunk := reaction.trunk
    notices := reaction.notice.toList ++ c.notices }

def run : Nat → Crossing → Crossing
  | 0, c => c
  | fuel + 1, c => if c.bridge.isOver then c else run fuel c.step

/-- All that was received, in order. -/
def received (c : Crossing) : List (List UInt8) :=
  c.taken.reverse ++ if c.trunk.queues.back.receiverOpen then c.trunk.queues.back.items else []

def story (c : Crossing) : List Log.Record := c.notices.reverse.map Bridge.Notice.record

/-- The bytes that moves of the router queue for the link, and their frames. -/
def load : List Trunk.Move → Nat
  | [] => 0
  | .submit raw :: rest => raw.length + 1 + load rest
  | _ :: rest => load rest

/-- More steps than the bridge takes unless it idles for ever: a round makes
at most nine steps and one for each call after the first, and every call
spends something of the script or of what is queued. -/
def enough (setup : List Trunk.Move) (s : LinkScript) : Nat :=
  let weight (pieces : List Piece) := pieces.foldl (· + ·.length + 1) 0
  let polls := s.polls.foldl (fun n p => n + weight p.feed + load p.moves + 1) 0
  let writes := s.writes.foldl (fun n w => n + load w.moves + 1) 0
  10 * (load setup + weight s.stream + polls + writes + s.flushes.length + 3)

/-- The bridge over the whole script. -/
def complete (capacity : Nat) (setup : List Trunk.Move) (script : LinkScript) : Crossing :=
  run (enough setup script) (moveAll { trunk := .ofCapacity capacity, script } setup)

end Crossing

end Simulation

end BoardFlash
