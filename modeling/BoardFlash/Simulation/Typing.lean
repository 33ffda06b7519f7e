import BoardFlash.Console.Machine

/-!
# A scripted operator

The console alone is run with everything in its queues beforehand: the lines
that the operator types, the frames to show and the diagnostics. The input
ends behind the last line.
-/

namespace BoardFlash

namespace Simulation

/-- What the router has let go of before the console begins. -/
inductive Closure where
  /-- The queue of frames to show. -/
  | sending
  /-- The queue of the operator's lines. -/
  | receiving
  | diagnostics
  deriving DecidableEq

structure OperatorScript where
  target : Option UInt8
  lines : List (List Char)
  inbound : List Frame := []
  diagnostics : Option (List Diagnostic) := none
  closures : List Closure := []
  /-- The capacity of the queues of frames. -/
  capacity : Nat
  cancelled : Bool := false

/-- A queue that holds just these values. -/
def filled {α : Type} (items : List α) : Queue α := { capacity := items.length, items }

namespace OperatorScript

def closing (d : Desk) : Closure → Desk
  | .sending => { d with queues := { d.queues with back := d.queues.back.closeSender } }
  | .receiving => { d with queues := { d.queues with forth := d.queues.forth.closeReceiver } }
  | .diagnostics => { d with diagnostics := d.diagnostics.map Queue.closeSender }

/-- The desk before the console begins. -/
def desk (s : OperatorScript) : Desk :=
  let empty : Queue Frame := { capacity := s.capacity }
  let desk : Desk := {
    lines := (filled s.lines).closeSender
    queues := ⟨empty, s.inbound.foldl Queue.offer empty⟩
    diagnostics := s.diagnostics.map filled
    cancelled := s.cancelled }
  s.closures.foldl closing desk

end OperatorScript

structure Typing where
  console : Console
  desk : Desk
  /-- All that the console told, the latest first. -/
  notices : List Console.Notice := []

namespace Typing

def step (t : Typing) : Typing :=
  let reaction := t.console.step t.desk
  { console := reaction.console
    desk := reaction.desk
    notices := reaction.notice.toList ++ t.notices }

def run : Nat → Typing → Typing
  | 0, t => t
  | fuel + 1, t => if t.console.isOver then t else run fuel t.step

/-- The console up to its end: a pass for each line and one for the end of
the input, of at most eight steps each. -/
def complete (s : OperatorScript) : Typing :=
  run (8 * (s.lines.length + 2)) { console := { target := s.target }, desk := s.desk }

def story (t : Typing) : List Log.Record :=
  t.notices.reverse.filterMap Console.Notice.record?

def printed (colors : Bool) (t : Typing) : List String :=
  t.notices.reverse.filterMap (Console.Notice.line? colors)

end Typing

end Simulation

end BoardFlash
