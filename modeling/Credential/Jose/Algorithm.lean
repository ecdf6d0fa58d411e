import Credential.Crypto.Digest
import Credential.Error

/-!
# Algorithms of tokens

The registered names of RFC 7518: what signs a token, what manages the key of an encrypted token,
and what encrypts its content. Each list is closed; a name outside it is an unsupported algorithm.

Main statements: a name is read back as the algorithm it names (`Jws.Algorithm.parse_name` and its
two companions), so no two algorithms share a name.
-/

namespace Credential

open Crypto (Digest)

/-! ## Signatures -/

namespace Jws

/-- How a token is signed, or that it is not. -/
inductive Algorithm where
  | hs256 | hs384 | hs512
  | rs256 | rs384 | rs512
  | ps256 | ps384 | ps512
  | es256 | es384 | es512
  | edDsa
  | unsecured
  deriving DecidableEq, Repr

/-- The kinds of keys that algorithms use. -/
inductive Family where
  | hmac | rsa | ec | ed | unsecured
  deriving DecidableEq, Repr

namespace Algorithm

def all : List Algorithm :=
  [.hs256, .hs384, .hs512, .rs256, .rs384, .rs512, .ps256, .ps384, .ps512, .es256, .es384, .es512,
    .edDsa, .unsecured]

def name : Algorithm → String
  | .hs256 => "HS256"
  | .hs384 => "HS384"
  | .hs512 => "HS512"
  | .rs256 => "RS256"
  | .rs384 => "RS384"
  | .rs512 => "RS512"
  | .ps256 => "PS256"
  | .ps384 => "PS384"
  | .ps512 => "PS512"
  | .es256 => "ES256"
  | .es384 => "ES384"
  | .es512 => "ES512"
  | .edDsa => "EdDSA"
  | .unsecured => "none"

def family : Algorithm → Family
  | .hs256 | .hs384 | .hs512 => .hmac
  | .rs256 | .rs384 | .rs512 | .ps256 | .ps384 | .ps512 => .rsa
  | .es256 | .es384 | .es512 => .ec
  | .edDsa => .ed
  | .unsecured => .unsecured

/-- The hash function that goes with an algorithm. -/
def digest? : Algorithm → Option Digest
  | .hs256 | .rs256 | .ps256 | .es256 => some .sha256
  | .hs384 | .rs384 | .ps384 | .es384 => some .sha384
  | .hs512 | .rs512 | .ps512 | .es512 | .edDsa => some .sha512
  | .unsecured => none

/-- Is there a verifier for the algorithm? There is none for P-521. -/
def isVerifiable : Algorithm → Bool
  | .es512 | .unsecured => false
  | _ => true

def ofName? (s : String) : Option Algorithm := all.find? (·.name == s)

/-- The algorithm of a name. -/
def parse (s : String) : Result Algorithm := orFail (ofName? s) (.unsupportedAlgorithm s)

theorem ofName?_name (a : Algorithm) : ofName? a.name = some a := by cases a <;> decide

theorem ofName?_eq_some_iff {s : String} {a : Algorithm} : ofName? s = some a ↔ a.name = s := by
  constructor
  · intro h
    have := List.find?_some h
    simpa using this
  · rintro rfl; exact ofName?_name a

theorem parse_name (a : Algorithm) : parse a.name = .ok a := by simp [parse, ofName?_name]

theorem parse_eq_ok_iff {s : String} {a : Algorithm} : parse s = .ok a ↔ a.name = s := by
  simp [parse, ofName?_eq_some_iff]

end Algorithm

end Jws

/-! ## Encryption -/

namespace Jwe

/-- How the key of an encrypted token reaches the reader. -/
inductive KeyManagement where
  /-- Encrypted for an RSA key with optimal padding under SHA-1. -/
  | rsaOaep
  /-- Encrypted for an RSA key with optimal padding under SHA-256. -/
  | rsaOaep256
  /-- Not at all: the parties share it. -/
  | direct
  deriving DecidableEq, Repr

namespace KeyManagement

def all : List KeyManagement := [.rsaOaep, .rsaOaep256, .direct]

def name : KeyManagement → String
  | .rsaOaep => "RSA-OAEP"
  | .rsaOaep256 => "RSA-OAEP-256"
  | .direct => "dir"

def ofName? (s : String) : Option KeyManagement := all.find? (·.name == s)

/-- The key management of a name. -/
def parse (s : String) : Result KeyManagement := orFail (ofName? s) (.unsupportedAlgorithm s)

theorem parse_name (a : KeyManagement) : parse a.name = .ok a := by cases a <;> rfl

end KeyManagement

/-- How the content of a token is encrypted. -/
inductive Encryption where
  | a128Gcm | a256Gcm | a128CbcHs256 | a256CbcHs512
  deriving DecidableEq, Repr

namespace Encryption

def all : List Encryption := [.a128Gcm, .a256Gcm, .a128CbcHs256, .a256CbcHs512]

def name : Encryption → String
  | .a128Gcm => "A128GCM"
  | .a256Gcm => "A256GCM"
  | .a128CbcHs256 => "A128CBC-HS256"
  | .a256CbcHs512 => "A256CBC-HS512"

/-- The length of the content key in octets. -/
def keyLength : Encryption → Nat
  | .a128Gcm => 16
  | .a256Gcm => 32
  | .a128CbcHs256 => 32
  | .a256CbcHs512 => 64

def ofName? (s : String) : Option Encryption := all.find? (·.name == s)

/-- The encryption of a name. -/
def parse (s : String) : Result Encryption := orFail (ofName? s) (.unsupportedAlgorithm s)

theorem parse_name (a : Encryption) : parse a.name = .ok a := by cases a <;> rfl

end Encryption

end Jwe

end Credential
