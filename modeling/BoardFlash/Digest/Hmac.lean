import BoardFlash.Digest.Sha256

/-!
# Keyed digests

The HMAC construction over SHA-256: the message is hashed behind one mask of
the key, and that digest behind another.
-/

namespace BoardFlash

namespace Hmac

/-- The key as one block: a longer key is replaced by its digest, a shorter
one is filled up with zeros. -/
def blockKey (key : List UInt8) : List UInt8 :=
  let k := if Sha256.blockLength < key.length then (Sha256.hash key).toList else key
  k ++ List.replicate (Sha256.blockLength - k.length) 0

def mac (message key : List UInt8) : Digest :=
  let k := blockKey key
  let inner := Sha256.hash (k.map (· ^^^ 0x36) ++ message)
  Sha256.hash (k.map (· ^^^ 0x5c) ++ inner.toList)

end Hmac

end BoardFlash
