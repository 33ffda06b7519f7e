import BoardFlash.Number.Word

/-!
# Bounded queues

The units share nothing but queues. A queue holds at most `capacity` values,
oldest first, and either of its halves, the sending and the receiving one,
may be closed while the other lives on. A value is never waited for here:
`trySend` and `tryRecv` answer at once, and a unit that wants to wait tries
again.

A `Duplex` is a pair of queues between two units, one in each direction.

Not every queue that one may ask for can be had. Where that matters queues come
from a `Queue.Supply`, of which only `Queue.Supply.Lawful` is known.
-/

namespace BoardFlash

structure Queue (α : Type) where
  capacity : Nat
  items : List α := []
  senderOpen : Bool := true
  receiverOpen : Bool := true
  deriving DecidableEq

/-- Why a value was not taken; the sender still has it. -/
inductive SendRefusal where
  | full
  | disconnected
  deriving DecidableEq, Repr

/-- Why there was nothing to receive. -/
inductive RecvRefusal where
  | empty
  | disconnected
  deriving DecidableEq, Repr

namespace Queue

variable {α : Type}

def length (q : Queue α) : Nat := q.items.length

/-- A queue without capacity is full at all times: a value could only be
handed over to a receiver that waits for it, and none does. -/
def isFull (q : Queue α) : Bool := decide (q.capacity ≤ q.items.length)

def isEmpty (q : Queue α) : Bool := q.items.isEmpty

/-- Appends the value, unless nobody can receive it any more or there is no
room. -/
def trySend (q : Queue α) (a : α) : Except SendRefusal (Queue α) :=
  if !q.receiverOpen then .error .disconnected
  else if q.isFull then .error .full
  else .ok { q with items := q.items ++ [a] }

/-- Takes the oldest value. What was sent before the sending half was closed
is still received. -/
def tryRecv (q : Queue α) : Except RecvRefusal (α × Queue α) :=
  match q.items with
  | a :: rest => .ok (a, { q with items := rest })
  | [] => .error (if q.senderOpen then .empty else .disconnected)

def closeSender (q : Queue α) : Queue α := { q with senderOpen := false }

/-- Values that nobody has received stay where they are. -/
def closeReceiver (q : Queue α) : Queue α := { q with receiverOpen := false }

/-- Appends the value if it can be taken and drops it otherwise. -/
def offer (q : Queue α) (a : α) : Queue α :=
  match q.trySend a with
  | .ok q => q
  | .error _ => q

/-- Takes up to `n` values. -/
def take (q : Queue α) (n : Nat) : List α × Queue α :=
  (q.items.take n, { q with items := q.items.drop n })

/-- Takes all the values. -/
def takeAll (q : Queue α) : List α × Queue α := (q.items, { q with items := [] })

/-! ## What the operations do to the values -/

theorem isFull_eq_false_iff {q : Queue α} :
    q.isFull = false ↔ q.items.length < q.capacity := by
  simp [isFull]

theorem trySend_eq_ok_iff {q q' : Queue α} {a : α} :
    q.trySend a = .ok q' ↔
      q.receiverOpen = true ∧ q.items.length < q.capacity ∧
        q' = { q with items := q.items ++ [a] } := by
  unfold trySend isFull
  cases q.receiverOpen <;> simp
  by_cases h : q.capacity ≤ q.items.length
  · simp [h, Nat.not_lt.mpr h]
  · simp [h, Nat.lt_of_not_le h, eq_comm]

theorem tryRecv_eq_ok_iff {q q' : Queue α} {a : α} :
    q.tryRecv = .ok (a, q') ↔ q.items = a :: q'.items ∧ q' = { q with items := q'.items } := by
  unfold tryRecv
  cases hq : q.items with
  | nil => simp
  | cons b rest =>
    simp only [Except.ok.injEq, Prod.mk.injEq, List.cons.injEq]
    constructor
    · rintro ⟨rfl, rfl⟩
      exact ⟨⟨rfl, rfl⟩, rfl⟩
    · rintro ⟨⟨rfl, rfl⟩, h⟩
      exact ⟨rfl, h.symm⟩

theorem trySend_eq_disconnected_iff {q : Queue α} {a : α} :
    q.trySend a = .error .disconnected ↔ q.receiverOpen = false := by
  unfold trySend
  cases q.receiverOpen <;> cases q.isFull <;> simp

theorem tryRecv_eq_disconnected_iff {q : Queue α} :
    q.tryRecv = .error .disconnected ↔ q.items = [] ∧ q.senderOpen = false := by
  unfold tryRecv
  cases q.items <;> cases q.senderOpen <;> simp

theorem tryRecv_eq_empty_iff {q : Queue α} :
    q.tryRecv = .error .empty ↔ q.items = [] ∧ q.senderOpen = true := by
  unfold tryRecv
  cases q.items <;> cases q.senderOpen <;> simp

theorem items_eq_nil_of_refused {q : Queue α} {why : RecvRefusal} (h : q.tryRecv = .error why) :
    q.items = [] := by
  cases why with
  | empty => exact (tryRecv_eq_empty_iff.mp h).1
  | disconnected => exact (tryRecv_eq_disconnected_iff.mp h).1

/-- What is offered goes in if somebody can receive it and there is room. -/
theorem offer_eq (q : Queue α) (a : α) :
    q.offer a = { q with items := q.items ++ if q.receiverOpen && !q.isFull then [a] else [] } := by
  obtain ⟨capacity, items, senderOpen, receiverOpen⟩ := q
  unfold offer trySend
  cases receiverOpen with
  | false => simp
  | true => cases Queue.isFull ⟨capacity, items, senderOpen, true⟩ <;> simp

/-! ## Where queues come from -/

/-- Where new queues come from: for a capacity there is a queue, or nothing if
there is no room for it. -/
abbrev Supply (α : Type) := Nat → Option (Queue α)

/-- What is known of a supply of queues whose values take so many bytes at
least. How large a queue may be depends on the machine, so no capacity is
promised. -/
structure Supply.Lawful (supply : Supply α) (valueBytes : Nat) : Prop where
  /-- What there is has the capacity that was asked for, holds nothing, and is
  open at both ends. -/
  new : ∀ {capacity q}, supply capacity = some q → q = { capacity }
  /-- A queue is made with a place for each of its values, and nothing takes up
  half of the addresses or more. -/
  addressable : ∀ {capacity q}, supply capacity = some q →
    capacity * valueBytes < Word.bound / 2

end Queue

/-! ## Both directions -/

/-- Two queues between two units: `forth` leads from the first unit to the
second, `back` from the second to the first. -/
structure Duplex (α : Type) where
  forth : Queue α
  back : Queue α
  deriving DecidableEq

namespace Duplex

variable {α : Type}

def ofCapacity (capacity : Nat) : Duplex α := ⟨{ capacity }, { capacity }⟩

/-- Two queues from the supply, if there are any of this capacity. -/
def make? (supply : Queue.Supply α) (capacity : Nat) : Option (Duplex α) := do
  let forth ← supply capacity
  let back ← supply capacity
  return ⟨forth, back⟩

theorem make?_eq_some_iff {supply : Queue.Supply α} {valueBytes capacity : Nat} {d : Duplex α}
    (h : supply.Lawful valueBytes) :
    make? supply capacity = some d ↔ (supply capacity).isSome = true ∧ d = ofCapacity capacity := by
  unfold make? ofCapacity
  cases hq : supply capacity with
  | none => simp
  | some q =>
      obtain rfl := h.new hq
      simp [eq_comm]

/-- The same pair, seen from the other unit. -/
def flip (d : Duplex α) : Duplex α := ⟨d.back, d.forth⟩

/-- Closes what the first unit holds: the sending half of one queue and the
receiving half of the other. -/
def closeFirst (d : Duplex α) : Duplex α := ⟨d.forth.closeSender, d.back.closeReceiver⟩

end Duplex

end BoardFlash
