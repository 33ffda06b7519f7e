import BoardFlash.Station.Wiring

/-!
# A run of the station

The units of a station take their steps in any order: `Station.step` is a
step of one of them. The keeper is the unit that waits for the others and
stops them. When all sessions are over it waits for the console to end, then
stops the router, then the bridge, each only once the one before has ended.
-/

namespace BoardFlash

namespace Station

/-- Who takes a step. -/
inductive Actor where
  /-- The session of the `i`-th board. -/
  | session (i : Nat)
  | router
  | bridge
  | console
  | keeper
  deriving DecidableEq, Repr

inductive Notice where
  | session (i : Nat) (notice : Session.Notice)
  | router (notice : Router.Notice)
  | bridge (notice : Bridge.Notice)
  | console (notice : Console.Notice)
  /-- The console is all that is left. -/
  | updatesOver
  | shuttingDown
  deriving DecidableEq

/-- What is printed when the console is all that is left. -/
def updatesOverLine : String :=
  "[FC] updates are over, type `" ++ String.ofList Console.endLine ++ "` to leave the CLI"

/-- What a step leaves behind. -/
structure Reaction where
  station : Station
  notice : Option Notice := none

variable (s : Station)

def consoleOver : Bool := s.console.all Console.isOver

def routerOver : Bool := s.router.phase = .stopped

def goTo (phase : Phase) (notice : Option Notice := none) : Reaction :=
  ⟨{ s with phase }, notice⟩

/-- A step of the keeper; while it waits there is nothing to do. -/
def keep : Reaction :=
  match s.phase with
  | .updating => if s.campaign.isOver then s.goTo .announcing else ⟨s, none⟩
  | .announcing =>
    s.goTo .shuttingDown
      (if s.console.isSome && !s.consoleCancelled then some .updatesOver else none)
  | .shuttingDown => s.goTo .awaitingConsole (some .shuttingDown)
  | .awaitingConsole =>
    if s.consoleOver then { s with consoleCancelled := true }.goTo .cancellingRouter
    else ⟨s, none⟩
  | .cancellingRouter => { s with hub := s.hub.apply .cancel }.goTo .awaitingRouter
  | .awaitingRouter => if s.routerOver then s.goTo .cancellingBridge else ⟨s, none⟩
  | .cancellingBridge => { s with bridgeCancelled := true }.goTo .awaitingBridge
  | .awaitingBridge => if s.bridge.isOver then s.goTo .finished else ⟨s, none⟩
  | .finished => ⟨s, none⟩

/-- A step of one unit at the time `now`, where `link` is how the link
behaves at this moment. -/
def step (now : Instant) (link : Link) : Actor → Reaction
  | .session i =>
    match s.mailbox? i with
    | some m =>
      let (campaign, m, notice) := s.campaign.step i now m
      ⟨{ s with campaign }.setMailbox i m, notice.map (.session i)⟩
    | none => ⟨s, none⟩
  | .router =>
    let r := s.router.step s.hub
    ⟨{ s with router := r.router, hub := r.hub }, r.notice.map .router⟩
  | .bridge =>
    let r := s.bridge.step s.trunk link
    ⟨{ s with bridge := r.bridge }.setTrunk r.trunk, r.notice.map .bridge⟩
  | .console =>
    match s.console, s.desk? with
    | some c, some d =>
      let r := c.step d
      ⟨{ s with console := some r.console }.setDesk r.desk, r.notice.map .console⟩
    | _, _ => ⟨s, none⟩
  | .keeper => s.keep

def isFinished : Bool := s.phase = .finished

/-- All units of the station. -/
def actors : List Actor :=
  (List.range s.hub.routes.length).map .session ++ [.router, .bridge, .console, .keeper]

end Station

end BoardFlash
