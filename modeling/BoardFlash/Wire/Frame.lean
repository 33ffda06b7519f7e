import BoardFlash.Text.Hex
import BoardFlash.Wire.Checksum

/-!
# Frames

Everything on the link travels in frames of one layout:

```text
.-----------.---------.------.-----------------.-----------.-------.
| source id | dest id | type | payload length  |  payload  | crc-8 |
|  1 byte   | 1 byte  | 1 b. | 2 bytes, high 1st|  N bytes  | 1 b.  |
'-----------'---------'------'-----------------'-----------'-------'
```

The host has id `0`, boards have ids `1` to `255`. The first five bytes are
the header, and `Frame.remaining?` tells from them alone how many bytes are
still to come. `Frame.encode` writes a frame and `Frame.decode` reads one
back or says why the bytes are none (`DecodeError`).
-/

namespace BoardFlash

/-! ## Types of frames -/

inductive FrameType where
  | nack
  | ack
  | fatalError
  | idRequest
  | idResponse
  | cliData
  | programUpdateRequest
  | programData
  | programUpdateFinished
  | eepromDataRead
  | eepromDataWrite
  deriving DecidableEq, Repr, Inhabited

namespace FrameType

/-- The value that stands for the type on the wire. -/
def code : FrameType → UInt8
  | .nack => 0
  | .ack => 1
  | .fatalError => 2
  | .idRequest => 3
  | .idResponse => 4
  | .cliData => 5
  | .programUpdateRequest => 6
  | .programData => 7
  | .programUpdateFinished => 8
  | .eepromDataRead => 9
  | .eepromDataWrite => 10

def all : List FrameType :=
  [.nack, .ack, .fatalError, .idRequest, .idResponse, .cliData, .programUpdateRequest,
    .programData, .programUpdateFinished, .eepromDataRead, .eepromDataWrite]

def ofCode? (c : UInt8) : Option FrameType := all.find? (·.code = c)

def name : FrameType → String
  | .nack => "Nack"
  | .ack => "Ack"
  | .fatalError => "FatalError"
  | .idRequest => "IdRequest"
  | .idResponse => "IdResponse"
  | .cliData => "CliData"
  | .programUpdateRequest => "ProgramUpdateRequest"
  | .programData => "ProgramData"
  | .programUpdateFinished => "ProgramUpdateFinished"
  | .eepromDataRead => "EepromDataRead"
  | .eepromDataWrite => "EepromDataWrite"

/-- What is said of a value that stands for no type. -/
def unknownMessage (c : UInt8) : String :=
  s!"No discriminant in enum `FrameType` matches the value `{c}`"

@[simp] theorem ofCode?_code (t : FrameType) : ofCode? t.code = some t := by
  cases t <;> rfl

theorem code_of_ofCode? {c : UInt8} {t : FrameType} (h : ofCode? c = some t) : t.code = c := by
  have := List.find?_some h
  simpa using this

end FrameType

/-! ## Frames -/

/-- The id of this program on the link; never that of a board. -/
def hostId : UInt8 := 0

/-- The most payload bytes that a board takes in one frame. -/
def maxPayload : Nat := 16384

structure Frame where
  type : FrameType
  source : UInt8
  dest : UInt8
  payload : List UInt8
  payload_le : payload.length ≤ maxPayload
  deriving DecidableEq

/-- A payload of `length` bytes was to go into one frame. -/
structure PayloadTooLarge where
  length : Nat
  deriving DecidableEq, Repr

def PayloadTooLarge.message (e : PayloadTooLarge) : String :=
  s!"frame payload of {e.length} bytes is too large"

namespace Frame

/-- The number of bytes in the header. -/
def headerLength : Nat := 5

/-- A frame with this payload, unless the payload is too long. -/
def build (type : FrameType) (source dest : UInt8) (payload : List UInt8) :
    Except PayloadTooLarge Frame :=
  if h : payload.length ≤ maxPayload then .ok ⟨type, source, dest, payload, h⟩
  else .error ⟨payload.length⟩

/-- A frame without payload, such as an `ack`. -/
def empty (type : FrameType) (source dest : UInt8) : Frame :=
  ⟨type, source, dest, [], Nat.zero_le _⟩

/-- The number of bytes that the frame takes on the wire. -/
def encodedLength (f : Frame) : Nat := headerLength + f.payload.length + 1

/-- The frame in one line, its payload by length only. -/
def describe (f : Frame) : String :=
  s!"Frame \x7b type: {f.type.name}, source: {f.source}, dest: {f.dest}, " ++
    s!"payload_len: {f.payload.length} \x7d"

theorem build_eq_ok_iff {type : FrameType} {source dest : UInt8} {payload : List UInt8}
    {f : Frame} :
    build type source dest payload = .ok f ↔
      f.type = type ∧ f.source = source ∧ f.dest = dest ∧ f.payload = payload := by
  unfold build
  split
  · obtain ⟨t, s, d, p, hp⟩ := f
    simp [eq_comm]
  · next h =>
    simp only [reduceCtorEq, false_iff]
    rintro ⟨-, -, -, rfl⟩
    exact h f.payload_le

/-! ## Writing -/

/-- The two bytes of a length, the high one first. -/
def lengthBytes (n : Nat) : List UInt8 := [(n / 256).toUInt8, n.toUInt8]

/-- The length that two bytes announce. -/
def announced (high low : UInt8) : Nat := high.toNat * 256 + low.toNat

/-- All of the frame but its checksum. -/
def body (f : Frame) : List UInt8 :=
  f.source :: f.dest :: f.type.code :: (lengthBytes f.payload.length ++ f.payload)

def encode (f : Frame) : List UInt8 := f.body ++ [Checksum.crc8 f.body]

@[simp] theorem length_encode (f : Frame) : f.encode.length = f.encodedLength := by
  simp [encode, body, lengthBytes, encodedLength, headerLength]
  omega

/-! ## Reading -/

/-- Why bytes are not a frame. -/
inductive DecodeError where
  | truncated (length : Nat)
  | unknownType (code : UInt8)
  | oversized (length : Nat)
  | lengthMismatch (expected actual : Nat)
  | checksum (expected actual : UInt8)
  deriving DecidableEq, Repr

def DecodeError.message : DecodeError → String
  | .truncated n => s!"frame truncated to {n} bytes"
  | .unknownType c => s!"unknown frame type {c}"
  | .oversized n => s!"payload of {n} bytes exceeds the maximum frame size"
  | .lengthMismatch e a => s!"frame is {a} bytes long but its header announces {e}"
  | .checksum e a =>
    "checksum mismatch (expected 0x" ++ Hex.byte e ++ ", got 0x" ++ Hex.byte a ++ ")"

/-- The number of bytes after the header of a frame, or nothing when no
frame starts with these bytes. Only the first five bytes are looked at. -/
def remaining? : List UInt8 → Option Nat
  | _ :: _ :: code :: high :: low :: _ =>
    if (FrameType.ofCode? code).isNone then none
    else if maxPayload < announced high low then none
    else some (announced high low + 1)
  | _ => none

/-- Reads one whole frame. Of several faults the first one in the order of
the bytes is reported, and the checksum last. -/
def decode : List UInt8 → Except DecodeError Frame
  | source :: dest :: code :: high :: low :: b :: bs =>
    match FrameType.ofCode? code with
    | none => .error (.unknownType code)
    | some type =>
      let length := announced high low
      if hmax : maxPayload < length then .error (.oversized length)
      else if h : (b :: bs).length = length + 1 then
        let payload := (b :: bs).take length
        let computed := Checksum.crc8 (source :: dest :: code :: high :: low :: payload)
        let sent := (b :: bs)[length]
        if computed = sent then
          .ok ⟨type, source, dest, payload, by
            simp only [payload, List.length_take]
            omega⟩
        else .error (.checksum computed sent)
      else .error (.lengthMismatch (headerLength + length + 1) (headerLength + (b :: bs).length))
  | raw => .error (.truncated raw.length)

theorem announced_lengthBytes {n : Nat} (h : n < 65536) :
    announced (n / 256).toUInt8 n.toUInt8 = n := by
  simp only [announced, Nat.toUInt8_eq, UInt8.toNat_ofNat']
  omega

end Frame

end BoardFlash
