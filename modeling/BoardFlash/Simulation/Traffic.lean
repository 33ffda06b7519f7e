import BoardFlash.Router.Machine

/-!
# Scripted traffic through the router

The router alone is run pass by pass: each pass is given one frame from the
link, or the news that nothing will come from it any more. What others do to
the hub in a pass happens as soon as the router has seen what came in.
-/

namespace BoardFlash

namespace Simulation

/-- What one pass of the router is given. -/
structure Pass where
  /-- The bytes from the link; nothing if the link is closed. -/
  inbound : Option (List UInt8)
  moves : List Hub.Move

structure Traffic where
  router : Router := {}
  hub : Hub
  /-- All that the router told, the latest first. -/
  notices : List Router.Notice := []
  /-- The replies to the moves of this pass, the latest first. -/
  replies : List Hub.Reply := []

namespace Traffic

def move (t : Traffic) (m : Hub.Move) : Traffic :=
  let (hub, reply) := t.hub.respond m
  { t with hub, replies := reply :: t.replies }

def moveAll (t : Traffic) (ms : List Hub.Move) : Traffic := ms.foldl move t

/-- The notice says that the router has seen what came in. -/
def seen : Router.Notice → Bool
  | .routing _ | .undecodable _ | .linkClosed => true
  | _ => false

/-- One step of the router, with these moves in case it sees what came in. -/
def step (t : Traffic) (moves : List Hub.Move) : Traffic :=
  let reaction := t.router.step t.hub
  let t := { t with router := reaction.router, hub := reaction.hub }
  match reaction.notice with
  | some n =>
    let t := { t with notices := n :: t.notices }
    if seen n then t.moveAll moves else t
  | none => t

/-- Steps until the router rests, but no more than `fuel` of them. -/
def settle (moves : List Hub.Move) : Nat → Traffic → Traffic
  | 0, t => t
  | fuel + 1, t => if t.router.isResting then t else settle moves fuel (t.step moves)

/-- On to the next rest. -/
def advance (t : Traffic) (moves : List Hub.Move) : Traffic :=
  settle moves (Router.passLength t.hub) (t.step moves)

def give (t : Traffic) (inbound : Option (List UInt8)) : Traffic :=
  match inbound with
  | some raw => { t with hub := t.hub.apply (.arrive raw) }
  | none => { t with hub := t.hub.apply .stopArriving }

def pass (t : Traffic) (p : Pass) : Traffic := (t.give p.inbound).advance p.moves

/-- All the passes up to the one in which the router is cancelled, each with
the state that it leaves behind. -/
def passes (t : Traffic) : List Pass → List Traffic × Traffic
  | [] => ([], t)
  | p :: rest =>
    if t.hub.cancelled then ([], t)
    else
      let done := { t with replies := [] }.pass p
      let (more, last) := passes done rest
      (done :: more, last)

/-- The router is asked to stop and does so. -/
def finish (t : Traffic) : Traffic := { t with hub := t.hub.apply .cancel }.advance []

def story (t : Traffic) : List Log.Record := (t.notices.reverse).map Router.Notice.record

def answers (t : Traffic) : List Hub.Reply := t.replies.reverse

end Traffic

/-- A whole run of the router: what is left by the moves before it, by each
pass and by all of it. -/
structure Traffic.Course where
  setup : Traffic
  passes : List Traffic
  last : Traffic

def Traffic.complete (hub : Hub) (setup : List Hub.Move) (passes : List Pass) : Traffic.Course :=
  let ready := moveAll { hub } setup
  let started := ready.advance []
  let (between, last) := started.passes passes
  ⟨ready, between, last.finish⟩

end Simulation

end BoardFlash
