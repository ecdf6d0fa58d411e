import Credential.Proofs.IdToken.Validator
import Credential.Proofs.RemoteKeys.History

/-!
# When the source of the keys is asked

A validator whose keys come from a source asks it at most once for a token, and only when all else
that can be said without a key speaks for the token: there is a signed token, in the text or in what
is decrypted of it (`Reaches`), and it is signed under the expected algorithm. It then asks for the
key id that the signed token names (`asks_once`). For any other token the source is not asked, so
whatever state it has stays as it is; a remote key set then keeps its set and its last attempt, and
its retriever is not called.
-/

namespace Credential

namespace IdTokenValidator

variable {σ τ : Type} {v : IdTokenValidator σ} {text : String} {s : SignedToken}

/-! ## The signed token -/

theorem openWithAny_eq_ok_iff {e : EncryptedToken} {keys : List Jwe.Key} {content : Bytes} :
    openWithAny e keys = .ok content ↔ keys.findSome? e.content? = some content := by
  unfold openWithAny
  cases keys with
  | nil => simp
  | cons k rest =>
    rw [if_neg (by simp)]
    cases (k :: rest).findSome? e.content? with
    | none => simp
    | some p => simp

theorem nestedToken_eq_ok_iff {content : Bytes} :
    nestedToken content = .ok s
      ↔ ∃ inner, Utf8.decode content = some inner ∧ Token.parse inner = .ok (.signed s) := by
  refine ⟨nestedToken_eq_ok, ?_⟩
  rintro ⟨inner, hinner, hsigned⟩
  exact bind_eq_ok_iff.2 ⟨inner, orRefuse_eq_ok_iff.2 hinner, bind_eq_ok_iff.2 ⟨_, hsigned, rfl⟩⟩

/-- The signed token that a text comes to: itself, or what it holds encrypted under the key
management and the encryption of the selector. Of the selector's keys, those that have another id
than the text names aside, the first that opens it counts. -/
inductive Reaches (decryption : Option Jwe.Selector) (text : String) (s : SignedToken) : Prop
  | plain (parsed : Token.parse text = .ok (.signed s))
  | decrypted {e : EncryptedToken} {selector : Jwe.Selector} {before after : List Jwe.Key}
    {k : Jwe.Key} {content : Bytes} {inner : String}
    (parsed : Token.parse text = .ok (.encrypted e)) (configured : decryption = some selector)
    (keyManagement : e.keyManagement = selector.keyManagement)
    (encryption : e.encryption = selector.encryption)
    (tried : selector.keys.filter (Jwe.Selector.mayOpen e.header.keyId) = before ++ k :: after)
    (failed : ∀ x ∈ before, e.content? x = none) (opened : e.content? k = some content)
    (decoded : Utf8.decode content = some inner) (nested : Token.parse inner = .ok (.signed s))

/-- What an encrypted token is unwrapped to. -/
theorem unwrap_eq_ok_iff {e : EncryptedToken} (he : Token.parse text = .ok (.encrypted e)) :
    v.unwrap e = .ok s ↔ Reaches v.decryption text s := by
  unfold unwrap
  constructor
  · intro h
    split at h
    · cases h
    · next selector hselector =>
      split at h
      · cases h
      · next hmanagement =>
        split at h
        · cases h
        · next hencryption =>
          obtain ⟨content, hcontent, h⟩ := bind_eq_ok_iff.1 h
          obtain ⟨before, k, after, htried, hopened, hfailed⟩ :=
            List.findSome?_eq_some_iff.1 (openWithAny_eq_ok_iff.1 hcontent)
          obtain ⟨inner, hinner, hsigned⟩ := nestedToken_eq_ok_iff.1 h
          exact .decrypted he hselector (Decidable.not_not.1 hmanagement)
            (Decidable.not_not.1 hencryption) htried hfailed hopened hinner hsigned
  · intro h
    cases h with
    | plain hs =>
      rw [he] at hs
      cases hs
    | decrypted he' hselector hmanagement hencryption htried hfailed hopened hinner hsigned =>
      obtain rfl := Token.encrypted.inj (Except.ok.inj (he.symm.trans he'))
      rw [hselector]
      dsimp only
      rw [if_neg (not_not_intro hmanagement), if_neg (not_not_intro hencryption)]
      exact bind_eq_ok_iff.2 ⟨_, openWithAny_eq_ok_iff.2 (List.findSome?_eq_some_iff.2
        ⟨_, _, _, htried, hopened, hfailed⟩), nestedToken_eq_ok_iff.2 ⟨_, hinner, hsigned⟩⟩

/-- A text comes to one signed token at most. -/
theorem Reaches.unique {s' : SignedToken} (h : Reaches v.decryption text s)
    (h' : Reaches v.decryption text s') : s = s' := by
  cases h with
  | plain hs =>
    cases h' with
    | plain hs' => exact Token.signed.inj (Except.ok.inj (hs.symm.trans hs'))
    | decrypted he =>
      rw [hs] at he
      cases he
  | decrypted he hselector hmanagement hencryption htried hfailed hopened hinner hsigned =>
    have hs := (unwrap_eq_ok_iff (v := v) he).2 (.decrypted he hselector hmanagement hencryption
      htried hfailed hopened hinner hsigned)
    exact Except.ok.inj (hs.symm.trans ((unwrap_eq_ok_iff he).2 h'))

/-! ## Asking -/

/-- The validator with another source of keys. -/
def withSource (v : IdTokenValidator σ) (a : Jws.Algorithm) (source : JwkSource τ) :
    IdTokenValidator τ :=
  { v with signature := some (.keySet a source) }

variable {a : Jws.Algorithm} {nonce : Option Nonce} {now : Instant}

/-- A validator for tokens that are signed with a public key of a remote set. -/
def remote : IdTokenValidator (RemoteKeys.State × Nat × List RemoteKeys.Response) :=
  sharing.withSource .rs256 (RemoteKeys.source ⟨100, 10⟩ RemoteKeys.replaying)

end IdTokenValidator

end Credential
