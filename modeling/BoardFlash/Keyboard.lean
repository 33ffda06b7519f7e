/-!
# Keys read from a terminal

Bytes typed at a terminal in raw mode, cut into keys. Escape and Ctrl+C are
told apart from all other keys; what the other keys are does not matter, but
where each of them ends does: the last byte of an arrow key is no key of its
own. An escape byte is the escape key only if nothing comes right behind it
or a second one does.
-/

namespace BoardFlash

inductive Key where
  | escape
  | interrupt
  | other
  deriving DecidableEq, Repr

namespace Keyboard

def escapeByte : UInt8 := 0x1b

/-- Ctrl+C. -/
def interruptByte : UInt8 := 0x03

/-- What is still owed of a key of which some bytes were read. -/
inductive Pending where
  | nothing
  /-- An escape byte, with more bytes behind it. -/
  | escape
  /-- A control sequence, of which nothing but its two first bytes is known. -/
  | sequence
  /-- A sequence that begins with a digit and ends with its final byte. -/
  | numbered
  /-- A mouse report that ends with `m` or `M`. -/
  | report
  /-- This many bytes, whatever they are. -/
  | bytes (count : Nat)
  /-- This many further bytes of one character. -/
  | character (count : Nat)
  deriving DecidableEq, Repr

/-- How many further bytes the first byte of a character announces; a byte
that can begin no character is skipped. -/
def further? (b : UInt8) : Option Nat :=
  if b < 0x80 then some 0
  else if b < 0xc0 then none
  else if b < 0xe0 then some 1
  else if b < 0xf0 then some 2
  else if b < 0xf8 then some 3
  else none

/-- The first byte of a key that is neither escape nor Ctrl+C. -/
def plain (b : UInt8) : Pending × Option Key :=
  match further? b with
  | none => (.nothing, none)
  | some 0 => (.nothing, some .other)
  | some n => (.character n, none)

/-- One more byte; `last` says that nothing stands behind it. -/
def feed (last : Bool) (b : UInt8) : Pending → Pending × Option Key
  | .nothing =>
    if b = escapeByte then if last then (.nothing, some .escape) else (.escape, none)
    else if b = interruptByte then (.nothing, some .interrupt)
    else plain b
  | .escape =>
    if b = escapeByte then (.nothing, some .escape)
    else if b = 0x5b then (.sequence, none)
    else if b = 0x4f then (.bytes 1, none)
    else plain b
  | .sequence =>
    if b = 0x5b then (.bytes 1, none)
    else if b = 0x4d then (.bytes 3, none)
    else if b = 0x3c then (.report, none)
    else if 0x30 ≤ b ∧ b ≤ 0x39 then (.numbered, none)
    else (.nothing, some .other)
  | .numbered => if 64 ≤ b ∧ b ≤ 126 then (.nothing, some .other) else (.numbered, none)
  | .report => if b = 0x6d ∨ b = 0x4d then (.nothing, some .other) else (.report, none)
  | .bytes n => if n ≤ 1 then (.nothing, some .other) else (.bytes (n - 1), none)
  | .character n =>
    if b &&& 0xc0 ≠ 0x80 then (.nothing, none)
    else if n ≤ 1 then (.nothing, some .other)
    else (.character (n - 1), none)

def readFrom (pending : Pending) : List UInt8 → List Key
  | [] => []
  | b :: rest =>
    let (pending, key) := feed rest.isEmpty b pending
    key.toList ++ readFrom pending rest

/-- The keys in bytes that were typed in one go. -/
def read (bytes : List UInt8) : List Key := readFrom .nothing bytes

end Keyboard

end BoardFlash
