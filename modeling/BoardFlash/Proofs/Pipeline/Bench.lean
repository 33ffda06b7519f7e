import BoardFlash.Proofs.Pipeline.Handover
import BoardFlash.Proofs.Session.Allowance
import BoardFlash.Proofs.Session.Soundness
import BoardFlash.Station.Machine

/-!
# A station and its boards

A `Bench` is a station without a console, a link that works, and boards
that answer each frame addressed to them at most once, for the host and
under their own id. In a run the units of the station, the boards and the
operator, who may interrupt, take their turns in any order (`Event`).

For each board there are two lists of frames. The `requests` are the
frames for the board that it has not answered, from the queue of its
session through the pipe to the board itself, and the `answers` are those
of the board that the session has not taken. `inFlight` counts the ones
that are between the session and the board.
-/

namespace BoardFlash

structure Bench where
  station : Station
  /-- Bytes that no board has read yet. -/
  toBoards : List UInt8 := []
  /-- Bytes that the bridge has not read yet. -/
  fromBoards : List UInt8 := []
  /-- Frames that boards have read and not answered. -/
  owed : List Frame := []

/-- The frame is an answer to the one that the board has heard. -/
def Frame.Answers (frame heard : Frame) : Prop :=
  frame.type ≠ .cliData ∧ frame.dest = hostId ∧ frame.source = heard.dest

instance (frame heard : Frame) : Decidable (frame.Answers heard) :=
  inferInstanceAs (Decidable (_ ∧ _ ∧ _))

namespace Bench

inductive Event where
  /-- A unit of the station takes a step. The clock shows `now`, and a call on
  the link is done with this portion of the bytes. -/
  | unit (actor : Station.Actor) (now : Instant) (portion : Option Nat)
  /-- A board reads a frame. -/
  | hear
  /-- The board that has heard the `k`-th of the frames that are not answered
  answers it. -/
  | answer (k : Nat) (frame : Frame)
  | interrupt

variable (w : Bench)

/-- What lies between the station's sessions and the boards. -/
def pipe : Pipe where
  router := w.station.router.phase
  link := w.station.hub.link
  bridge := w.station.bridge.phase
  toBoards := w.toBoards
  fromBoards := w.fromBoards

/-- A step of the bridge, which may exchange bytes with the boards. -/
def serve (now : Instant) (portion : Option Nat) : Bench :=
  if w.pipe.starved then w
  else
    let link := w.pipe.reply portion
    { w with
      station := (w.station.step now link .bridge).station
      toBoards := w.toBoards ++ Link.sent link w.pipe.call?
      fromBoards := w.fromBoards.drop (Link.received link w.pipe.call?).length }

/-- A board has answered the `k`-th of the frames that were heard. -/
def answered (k : Nat) (frame : Frame) : Bench :=
  { w with owed := w.owed.eraseIdx k, fromBoards := w.fromBoards ++ frame.encode }

def apply : Event → Bench
  | .unit .bridge now portion => w.serve now portion
  | .unit actor now portion =>
    { w with station := (w.station.step now (w.pipe.reply portion) actor).station }
  | .hear =>
    match Frame.split? w.toBoards with
    | some (f, rest) => { w with toBoards := rest, owed := w.owed ++ [f] }
    | none => w
  | .answer k frame =>
    match w.owed[k]? with
    | some heard => if frame.Answers heard then w.answered k frame else w
    | none => w
  | .interrupt => { w with station := w.station.interrupt }

theorem apply_answer {k : Nat} {heard frame : Frame} (hk : w.owed[k]? = some heard)
    (hanswers : frame.Answers heard) : w.apply (.answer k frame) = w.answered k frame := by
  simp [apply, hk, hanswers]

theorem apply_answer_of_not {k : Nat} {frame : Frame}
    (hnot : ∀ heard, w.owed[k]? = some heard → ¬ frame.Answers heard) :
    w.apply (.answer k frame) = w := by
  simp only [apply]
  split
  · next heard hk => exact if_neg (hnot heard hk)
  · rfl

/-- A new station and its boards, after all that has happened. -/
def run (settings : Settings) (image : Firmware) (boards : List UInt8) (events : List Event) :
    Bench :=
  events.foldl apply { station := Station.new settings image boards none }

end Bench

/-! ## The frames of one board -/

namespace Route

variable (r : Route) (p : Pipe)

/-- The frames for the board that it has not answered. -/
def requests (owed : List Frame) : List Frame :=
  r.queues.forth.items
    ++ (p.descending.filter (·.dest = r.board) ++ owed.filter (·.dest = r.board))

/-- The frames of the board that its session has not taken. -/
def answers : List Frame := p.ascending.filter (·.source = r.board) ++ r.queues.back.items

/-- The number of frames between the session and the board: in the queues of
the session and anywhere in the pipe. -/
def inFlight : Nat :=
  r.queues.forth.length + p.descending.countP (·.dest = r.board)
    + p.ascending.countP (·.source = r.board) + r.queues.back.length

/-- What is in flight is a request or an answer. -/
theorem inFlight_le (owed : List Frame) :
    r.inFlight p ≤ (r.requests p owed).length + (r.answers p).length := by
  simp only [inFlight, requests, answers, List.length_append, List.countP_eq_length_filter,
    Queue.length]
  omega

end Route

namespace Bench

variable (w : Bench) (i : Nat)

/-- The requests to the board of the `i`-th route. -/
def requests : List Frame :=
  (w.station.hub.routes[i]?).elim [] fun r => r.requests w.pipe w.owed

/-- The answers of the board of the `i`-th route. -/
def answers : List Frame := (w.station.hub.routes[i]?).elim [] fun r => r.answers w.pipe

/-- The frames between the `i`-th session and its board. -/
def inFlight : Nat := (w.station.hub.routes[i]?).elim 0 fun r => r.inFlight w.pipe

theorem requests_eq {w : Bench} {i : Nat} {r : Route}
    (hr : w.station.hub.routes[i]? = some r) : w.requests i = r.requests w.pipe w.owed := by
  rw [requests, hr, Option.elim_some]

theorem answers_eq {w : Bench} {i : Nat} {r : Route}
    (hr : w.station.hub.routes[i]? = some r) : w.answers i = r.answers w.pipe := by
  rw [answers, hr, Option.elim_some]

theorem inFlight_le : w.inFlight i ≤ (w.requests i).length + (w.answers i).length := by
  unfold inFlight requests answers
  cases w.station.hub.routes[i]? with
  | none => exact Nat.zero_le _
  | some r => exact r.inFlight_le w.pipe w.owed

/-- The frames of the `i`-th board are the same in both, but for where they
are on their way. -/
def Keeps (w w' : Bench) (i : Nat) : Prop :=
  (w'.requests i).Perm (w.requests i) ∧ (w'.answers i).Perm (w.answers i)

theorem Keeps.refl (w : Bench) (i : Nat) : Keeps w w i := ⟨.refl _, .refl _⟩

theorem keeps_of_eq {w w' : Bench} {i : Nat}
    (hroutes : w'.station.hub.routes[i]? = w.station.hub.routes[i]?) (hpipe : w'.pipe = w.pipe)
    (howed : w'.owed = w.owed) : Keeps w w' i := by
  unfold Keeps requests answers
  rw [hroutes, hpipe, howed]
  exact ⟨.refl _, .refl _⟩

end Bench

end BoardFlash
