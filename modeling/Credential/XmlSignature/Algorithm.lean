import Credential.Crypto.Digest

/-!
# Algorithms of XML signatures

Signatures in documents name their algorithms by URIs. These are the ones that are accepted.
-/

namespace Credential.XmlSignature

/-- How the signed part of a document is digested. -/
inductive DigestMethod where
  | sha1 | sha256
  deriving DecidableEq, Repr

namespace DigestMethod

def all : List DigestMethod := [.sha1, .sha256]

def uri : DigestMethod → String
  | .sha1 => "http://www.w3.org/2000/09/xmldsig#sha1"
  | .sha256 => "http://www.w3.org/2001/04/xmlenc#sha256"

def ofUri? (uri : String) : Option DigestMethod := all.find? (·.uri == uri)

def digest : DigestMethod → Crypto.Digest
  | .sha1 => .sha1
  | .sha256 => .sha256

theorem ofUri?_uri (m : DigestMethod) : ofUri? m.uri = some m := by cases m <;> decide

end DigestMethod

/-- How a signature is made. -/
inductive Method where
  | rsaSha1 | rsaSha256 | ecdsaSha256
  deriving DecidableEq, Repr

namespace Method

def all : List Method := [.rsaSha1, .rsaSha256, .ecdsaSha256]

def uri : Method → String
  | .rsaSha1 => "http://www.w3.org/2000/09/xmldsig#rsa-sha1"
  | .rsaSha256 => "http://www.w3.org/2001/04/xmldsig-more#rsa-sha256"
  | .ecdsaSha256 => "http://www.w3.org/2001/04/xmldsig-more#ecdsa-sha256"

def ofUri? (uri : String) : Option Method := all.find? (·.uri == uri)

def digest : Method → Crypto.Digest
  | .rsaSha1 => .sha1
  | .rsaSha256 | .ecdsaSha256 => .sha256

theorem ofUri?_uri (m : Method) : ofUri? m.uri = some m := by cases m <;> decide

end Method

end Credential.XmlSignature
