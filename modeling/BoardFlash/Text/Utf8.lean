/-!
# UTF-8

Bytes are read one at a time. Between two bytes of a character the reader
keeps how many bytes are still owed and the range in which the next one has
to be (`Utf8.Pending`); a byte out of range ends the character as a bad one
and is then read as the first byte of another.

`Utf8.decode?` refuses bytes with anything bad in them, `Utf8.lossy` puts a
replacement character for each bad piece.
-/

namespace BoardFlash

namespace Utf8

/-- A character of which some bytes have been read. -/
structure Pending where
  owed : Nat
  /-- The range of the next byte. -/
  low : UInt8
  high : UInt8
  /-- The bits so far. -/
  value : Nat
  deriving DecidableEq, Repr

/-- What a byte leads to. -/
inductive Progress where
  | char (c : Char)
  | bad
  | more (p : Pending)
  deriving DecidableEq, Repr

/-- The first byte of a character. Two bytes are needed from `0x80` on, three
from `0x800` and four from `0x10000`; the ranges keep out longer forms,
surrogates and values over `0x10FFFF`. -/
def first (b : UInt8) : Progress :=
  if b < 0x80 then .char (Char.ofNat b.toNat)
  else if b < 0xC2 then .bad
  else if b < 0xE0 then .more ⟨1, 0x80, 0xBF, b.toNat - 0xC0⟩
  else if b = 0xE0 then .more ⟨2, 0xA0, 0xBF, 0⟩
  else if b = 0xED then .more ⟨2, 0x80, 0x9F, 0xD⟩
  else if b < 0xF0 then .more ⟨2, 0x80, 0xBF, b.toNat - 0xE0⟩
  else if b = 0xF0 then .more ⟨3, 0x90, 0xBF, 0⟩
  else if b < 0xF4 then .more ⟨3, 0x80, 0xBF, b.toNat - 0xF0⟩
  else if b = 0xF4 then .more ⟨3, 0x80, 0x8F, 4⟩
  else .bad

/-- The next byte of a character. -/
def Pending.push (p : Pending) (b : UInt8) : Progress :=
  let value := p.value * 64 + b.toNat % 64
  if p.owed ≤ 1 then .char (Char.ofNat value) else .more ⟨p.owed - 1, 0x80, 0xBF, value⟩

/-- What is known for certain, `none` standing for a bad piece, and what is
pending. -/
def Progress.settle : Progress → List (Option Char) × Option Pending
  | .char c => ([some c], none)
  | .bad => ([none], none)
  | .more p => ([], some p)

def next (pending : Option Pending) (b : UInt8) : List (Option Char) × Option Pending :=
  match pending with
  | none => (first b).settle
  | some p =>
    if p.low ≤ b ∧ b ≤ p.high then (p.push b).settle
    else
      let (pieces, pending) := (first b).settle
      (none :: pieces, pending)

def piecesFrom (pending : Option Pending) : List UInt8 → List (Option Char)
  | [] => if pending.isSome then [none] else []
  | b :: rest =>
    let (pieces, pending) := next pending b
    pieces ++ piecesFrom pending rest

/-- The characters in the bytes and, as `none`, the bad pieces between them. -/
def pieces (bytes : List UInt8) : List (Option Char) := piecesFrom none bytes

def decode? (bytes : List UInt8) : Option (List Char) := (pieces bytes).mapM id

/-- The character that stands for a bad piece. -/
def replacement : Char := Char.ofNat 0xFFFD

def lossy (bytes : List UInt8) : List Char := (pieces bytes).map (·.getD replacement)

def encode (text : List Char) : List UInt8 := text.flatMap String.utf8EncodeChar

end Utf8

end BoardFlash
