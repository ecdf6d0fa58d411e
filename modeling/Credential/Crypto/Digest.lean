import Credential.Crypto.Sha1
import Credential.Crypto.Sha256
import Credential.Crypto.Sha512

/-!
# Digests and message authentication

The hash functions by name, and the keyed hash HMAC over each of them.
-/

namespace Credential.Crypto

/-- A hash function. -/
inductive Digest where
  | sha1 | sha256 | sha384 | sha512
  deriving DecidableEq, Repr

namespace Digest

/-- The hash of a message. -/
def hash : Digest → Bytes → Bytes
  | .sha1 => Sha1.sha1
  | .sha256 => Sha256.sha256
  | .sha384 => Sha512.sha384
  | .sha512 => Sha512.sha512

/-- The length of a hash in octets. -/
def size : Digest → Nat
  | .sha1 => 20
  | .sha256 => 32
  | .sha384 => 48
  | .sha512 => 64

theorem length_hash (d : Digest) (m : Bytes) : (d.hash m).length = d.size := by
  cases d
  · exact Sha1.length_sha1 m
  · exact Sha256.length_sha256 m
  · exact Sha512.length_sha384 m
  · exact Sha512.length_sha512 m

/-- The length of a block in octets. -/
def blockSize : Digest → Nat
  | .sha1 | .sha256 => 64
  | .sha384 | .sha512 => 128

/-- The key as a block: a long key is hashed, and the block is filled with zeros. -/
def keyBlock (d : Digest) (key : Bytes) : Bytes :=
  let k := if d.blockSize < key.length then d.hash key else key
  k ++ List.replicate (d.blockSize - k.length) 0

/-- The keyed hash of a message. -/
def hmac (d : Digest) (key message : Bytes) : Bytes :=
  let k := d.keyBlock key
  d.hash (k.map (· ^^^ 0x5c) ++ d.hash (k.map (· ^^^ 0x36) ++ message))

theorem length_hmac (d : Digest) (key message : Bytes) : (d.hmac key message).length = d.size :=
  d.length_hash _

end Digest

end Credential.Crypto
