import Credential.Jose.Algorithm
import Credential.Text.Base64
import Credential.Text.Utf8

/-!
# Hash bindings

A token binds an access token or a code by the left half of its hash, written in base 64. The hash
function is the one of the algorithm that signs the token, so an unsecured token binds nothing.
-/

namespace Credential.HashBinding

/-- The binding of a value under a signature algorithm. -/
def compute? (value : Bytes) (a : Jws.Algorithm) : Option String :=
  a.digest?.map fun d => Base64.encodeUrl ((d.hash value).take (d.size / 2))

/-- Check a claimed binding; it must be the very text. -/
def check (value : Bytes) (a : Jws.Algorithm) (claimed : String) : Result Unit :=
  if compute? value a = some claimed then .ok () else .error .invalidHash

end Credential.HashBinding
