/-!
# Durations and instants

A duration counts whole seconds in a 64-bit word and nanoseconds below one
second. An instant is a reading of a monotonic clock; the clock has a signed
64-bit count of seconds, so an instant far enough ahead does not exist
(`Instant.after?`).
-/

namespace BoardFlash

structure Duration where
  seconds : UInt64
  nanos : Fin 1000000000
  deriving DecidableEq, Repr

namespace Duration

def zero : Duration := ⟨0, 0⟩

def ofSeconds (n : UInt64) : Duration := ⟨n, 0⟩

def ofMillis (n : UInt64) : Duration :=
  ⟨n / 1000, ⟨n.toNat % 1000 * 1000000, by omega⟩⟩

def ofMicros (n : UInt64) : Duration :=
  ⟨n / 1000000, ⟨n.toNat % 1000000 * 1000, by omega⟩⟩

def ofNanos (n : UInt64) : Duration :=
  ⟨n / 1000000000, ⟨n.toNat % 1000000000, by omega⟩⟩

def toNanos (d : Duration) : Nat := d.seconds.toNat * 1000000000 + d.nanos

/-- The whole milliseconds. -/
def toMillis (d : Duration) : Nat := d.seconds.toNat * 1000 + d.nanos / 1000000

end Duration

/-- A reading of the clock, in nanoseconds. -/
structure Instant where
  nanos : Int
  deriving DecidableEq, Repr

namespace Instant

/-- The clock can show `t`: its seconds fit a signed 64-bit word. -/
def Readable (t : Instant) : Prop :=
  -0x8000000000000000 * 1000000000 ≤ t.nanos ∧ t.nanos < 0x8000000000000000 * 1000000000

instance (t : Instant) : Decidable t.Readable :=
  inferInstanceAs (Decidable (_ ∧ _))

def origin : Instant := ⟨0⟩

/-- The instant `d` after `t`, if the clock can show it. -/
def after? (t : Instant) (d : Duration) : Option Instant :=
  let later : Instant := ⟨t.nanos + d.toNanos⟩
  if later.Readable then some later else none

/-- The time from `earlier` to `t`. -/
def since (t earlier : Instant) : Duration :=
  let n := (t.nanos - earlier.nanos).toNat
  ⟨(n / 1000000000).toUInt64, ⟨n % 1000000000, by omega⟩⟩

end Instant

end BoardFlash
