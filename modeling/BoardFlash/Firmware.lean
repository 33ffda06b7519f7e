import BoardFlash.Digest.Hmac
import BoardFlash.Error
import BoardFlash.Log
import BoardFlash.Number.Word
import BoardFlash.Wire.Frame

/-!
# The firmware image

An image is cut into chunks of one size, the last of which may be shorter,
and carries a keyed digest of the whole. Each session reads the chunks
through a `Cursor` of its own.
-/

namespace BoardFlash

/-- Why chunks cannot be counted. -/
inductive ChunkFault where
  | zeroChunkSize
  /-- Both sizes together do not fit in a word. -/
  | sumOverflow
  deriving DecidableEq, Repr

def ChunkFault.message : ChunkFault → String
  | .zeroChunkSize => ConfigFault.zeroChunkSize.message
  | .sumOverflow => "attempt to add with overflow"

/-- The number of chunks of at most `chunkSize` bytes that hold `size` bytes.
Both sizes are added up on the way, so their sum has to fit in a word. -/
def countChunks (size chunkSize : Nat) : Except ChunkFault Nat :=
  if chunkSize = 0 then .error .zeroChunkSize
  else
    match Word.sum? size chunkSize with
    | none => .error .sumOverflow
    | some total => .ok ((total - 1) / chunkSize)

/-- The most chunks that an update request can announce. -/
def maxChunks : Nat := 4294967295

structure Firmware where
  bytes : Array UInt8
  digest : Digest
  chunkSize : Nat
  chunkCount : UInt32
  deriving DecidableEq

namespace Firmware

/-- The name of an image that was not read from a file. -/
def inMemory : String := "<memory>"

/-- Prepares the image for chunks of at most `chunkSize` bytes. `origin`
names it in errors. The bytes are in memory, so there is room in a word for
both sizes together, and the number of chunks is what `countChunks` tells. -/
def build (origin : String) (bytes : Array UInt8) (chunkSize : UInt64) (key : List UInt8) :
    Except Error Firmware :=
  if chunkSize = 0 then .error (.config .zeroChunkSize)
  else if maxPayload < chunkSize.toNat then
    .error (.config (.chunkSizeOverFrame chunkSize.toNat maxPayload))
  else if bytes.isEmpty then .error (.emptyFirmware origin)
  else
    let count := (bytes.size + chunkSize.toNat - 1) / chunkSize.toNat
    if maxChunks < count then .error (.firmwareTooLarge bytes.size maxChunks)
    else
      .ok {
        bytes
        digest := Hmac.mac bytes.toList key
        chunkSize := chunkSize.toNat
        chunkCount := count.toUInt32 }

/-- What is logged of an image once it is built. -/
def record (origin : String) (f : Firmware) : Log.Record :=
  ⟨.info, "Firmware `" ++ origin ++ "`: " ++
    s!"{f.bytes.size} bytes in {f.chunkCount} chunks of {f.chunkSize} bytes"⟩

/-- What is logged of a file once it is read. -/
def readRecord (path : String) (bytes : Array UInt8) : Log.Record :=
  ⟨.debug, s!"{bytes.size} bytes read from `" ++ path ++ "`"⟩

end Firmware

/-! ## Reading chunk by chunk -/

/-- A place in an image. The chunk there can be read any number of times;
only `advance` moves on. -/
structure Cursor where
  bytes : Array UInt8
  chunkSize : Nat
  offset : Nat
  deriving DecidableEq

namespace Cursor

/-- The chunk at the cursor, or nothing once all of the image is behind it. -/
def current? (c : Cursor) : Option (List UInt8) :=
  if c.offset < c.bytes.size then
    some (c.bytes.extract c.offset (c.offset + c.chunkSize)).toList
  else none

def advance (c : Cursor) : Cursor :=
  { c with offset := min (c.offset + c.chunkSize) c.bytes.size }

end Cursor

/-- A cursor at the start of the image. -/
def Firmware.cursor (f : Firmware) : Cursor := ⟨f.bytes, f.chunkSize, 0⟩

end BoardFlash
