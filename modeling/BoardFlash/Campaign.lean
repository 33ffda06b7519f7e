import BoardFlash.Session.Machine

/-!
# Updating many boards

A `Campaign` holds one session for each board. In parallel mode all of them
may take steps at any time; otherwise a session begins only once those
before it are over. When all are over their outcomes are listed in the order
of the boards, whatever the order in which they ended.
-/

namespace BoardFlash

structure Campaign where
  parallel : Bool
  sessions : List Session
  deriving DecidableEq

namespace Campaign

/-- A campaign against the boards in this order, nothing of it begun. -/
def new (settings : Settings) (image : Firmware) (boards : List UInt8) : Campaign where
  parallel := settings.parallel
  sessions := boards.map fun board => Session.new board image settings

/-- The `i`-th session may take a step. -/
def mayStep (c : Campaign) (i : Nat) : Bool :=
  c.parallel || (c.sessions.take i).all Session.isOver

/-- A step of the `i`-th session with its mailbox. Without such a session,
or when it may not take one, nothing happens. -/
def step (c : Campaign) (i : Nat) (now : Instant) (m : Mailbox) :
    Campaign × Mailbox × Option Session.Notice :=
  match c.sessions[i]? with
  | some s =>
    if c.mayStep i then
      let r := s.step now m
      ({ c with sessions := c.sessions.set i r.session }, r.mailbox, r.notice)
    else (c, m, none)
  | none => (c, m, none)

/-- The `i`-th session breaks down. -/
def kill (c : Campaign) (i : Nat) (m : Mailbox) : Campaign × Mailbox :=
  match c.sessions[i]? with
  | some s =>
    let r := s.crash m .killed
    ({ c with sessions := c.sessions.set i r.session }, r.mailbox)
  | none => (c, m)

/-- The first session that is not over. -/
def next? (c : Campaign) : Option Nat := c.sessions.findIdx? (!·.isOver)

def isOver (c : Campaign) : Bool := c.sessions.all Session.isOver

/-- The outcomes once all sessions are over. -/
def outcomes? (c : Campaign) : Option (List Outcome) := c.sessions.mapM Session.outcome?

def startRecord (c : Campaign) : Log.Record :=
  ⟨.info, s!"updating {c.sessions.length} board(s) " ++
    if c.parallel then "in parallel" else "one at a time"⟩

/-- What is logged of the sessions that broke down. -/
def crashRecords (c : Campaign) : List Log.Record :=
  c.sessions.filterMap fun s =>
    match s.phase with
    | .crashed _ => some ⟨.error, s!"[{s.board}] update session panicked"⟩
    | _ => none

end Campaign

end BoardFlash
