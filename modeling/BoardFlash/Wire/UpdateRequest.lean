import BoardFlash.Digest.Sha256

/-!
# The update request

The payload of the frame that opens a transfer: the version of the protocol,
the number of data frames that will follow and the keyed digest of the whole
image, forty bytes in all.
-/

namespace BoardFlash

/-- The version announced in every request. -/
def protocolVersion : UInt32 := 1

structure UpdateRequest where
  version : UInt32
  chunkCount : UInt32
  digest : Digest
  deriving DecidableEq

namespace UpdateRequest

/-- The number of bytes of an encoded request. -/
def encodedLength : Nat := 40

/-- The request for a transfer in the current version. -/
def announce (chunkCount : UInt32) (digest : Digest) : UpdateRequest :=
  ⟨protocolVersion, chunkCount, digest⟩

def encode (r : UpdateRequest) : List UInt8 :=
  BigEndian.bytes r.version ++ (BigEndian.bytes r.chunkCount ++ r.digest.toList)

/-- Reads a request; only a list of exactly forty bytes is one. -/
def decode? : List UInt8 → Option UpdateRequest
  | a :: b :: c :: d :: e :: f :: g :: h :: digest =>
    if hlen : digest.length = 32 then
      some ⟨BigEndian.word a b c d, BigEndian.word e f g h, ⟨digest.toArray, by simpa using hlen⟩⟩
    else none
  | _ => none

@[simp] theorem length_encode (r : UpdateRequest) : r.encode.length = encodedLength := by
  simp [encode, encodedLength]

end UpdateRequest

end BoardFlash
