/-!
# Cancellation flags and groups

Every unit owns a flag that asks it to stop. A flag can be shared: its
copies are set together. A group holds the flags of many units, so that one
request stops them all; a copy of a group has the same members and is
extended on its own from then on.

The flags are kept in a table of cells (`CancelTable`): a flag names a cell,
a copy of it names the same one.
-/

namespace BoardFlash

structure CancelTable where
  /-- One cell for each flag made anew: has it been set? -/
  cells : List Bool := []
  /-- The cell of each flag, in order of creation. -/
  flags : List Nat := []
  /-- The cells of the members of each group. -/
  groups : List (List Nat) := []
  deriving DecidableEq, Repr

/-- What can be done to flags and groups, each named by its position. -/
inductive CancelOp where
  | newFlag
  | copyFlag (flag : Nat)
  | cancel (flag : Nat)
  | newGroup
  | copyGroup (group : Nat)
  | add (group flag : Nat)
  | cancelAll (group : Nat)
  deriving DecidableEq, Repr

namespace CancelTable

/-- Sets the cell. Nothing ever clears one. -/
def set (cells : List Bool) (cell : Nat) : List Bool := cells.set cell true

def step (t : CancelTable) : CancelOp → CancelTable
  | .newFlag => { t with cells := t.cells ++ [false], flags := t.flags ++ [t.cells.length] }
  | .copyFlag i =>
    match t.flags[i]? with
    | some cell => { t with flags := t.flags ++ [cell] }
    | none => t
  | .cancel i =>
    match t.flags[i]? with
    | some cell => { t with cells := set t.cells cell }
    | none => t
  | .newGroup => { t with groups := t.groups ++ [[]] }
  | .copyGroup g =>
    match t.groups[g]? with
    | some members => { t with groups := t.groups ++ [members] }
    | none => t
  | .add g i =>
    match t.flags[i]? with
    | some cell => { t with groups := t.groups.modify g (· ++ [cell]) }
    | none => t
  | .cancelAll g =>
    match t.groups[g]? with
    | some members => { t with cells := members.foldl set t.cells }
    | none => t

def run (t : CancelTable) (ops : List CancelOp) : CancelTable := ops.foldl step t

def isSet (t : CancelTable) (cell : Nat) : Bool := t.cells.getD cell false

/-- For each flag, whether it is set. -/
def readings (t : CancelTable) : List Bool := t.flags.map t.isSet

/-- For each group, the number of its members. -/
def sizes (t : CancelTable) : List Nat := t.groups.map List.length

end CancelTable

end BoardFlash
