import Credential.IdToken.Validator
import Credential.Proofs.Jose.Compact
import Credential.Proofs.Jwe.Content
import Credential.Proofs.Outcome

/-!
# Encrypted ID tokens

Encryption only wraps a token: one that is sealed under the shared key of a validator is validated
as the signed token in it is, and if what is in it is not signed it is malformed
(`validateAt_sealText`). Nothing else of the validator matters.

What is sealed is written as five segments (`Jwe.sealText`), read as an encrypted token
(`parse_sealText`) and opened to what was sealed (`content?_sealed`).
-/

namespace Credential

/-! ## Sealing -/

namespace Jwe

/-- The header asks for a shared key and for the encryption, and for no key id but that of the
key. -/
structure IsDirectHeader (e : Encryption) (k : Key) (header : Bytes) (h : JoseHeader) : Prop where
  parsed : JoseHeader.parse header = .ok h
  algorithm : h.algorithm = KeyManagement.direct.name
  encryption : h.encryption = some e.name
  mayOpen : Selector.mayOpen h.keyId k = true

/-- The header that asks for nothing else. -/
def plainHeader (e : Encryption) : Bytes :=
  Utf8.encode ("\x7b\"alg\":\"dir\",\"enc\":\"" ++ e.name ++ "\"\x7d")

theorem isDirectHeader_plainHeader (e : Encryption) (k : Key) :
    IsDirectHeader e k (plainHeader e)
      ⟨KeyManagement.direct.name, none, none, none, some e.name⟩ where
  parsed := by cases e <;> decide +kernel
  algorithm := rfl
  encryption := rfl
  mayOpen := rfl

/-- Seal a text under a shared key. The header is authenticated as it is written, and there is no
encrypted key. -/
def sealText (e : Encryption) (header key iv : Bytes) (text : String) : String :=
  let sealed := e.encrypt key iv (Utf8.encode (Base64.encodeUrl header)) (Utf8.encode text)
  compact [header, [], iv, sealed.1, sealed.2]

/-- What is read from a sealed text whose header says `h`. -/
def sealedToken (e : Encryption) (header key iv : Bytes) (h : JoseHeader) (text : String) :
    EncryptedToken where
  headerText := Base64.encodeUrl header
  header := h
  keyManagement := .direct
  encryption := e
  encryptedKey := []
  iv := iv
  ciphertext := (e.encrypt key iv (Utf8.encode (Base64.encodeUrl header)) (Utf8.encode text)).1
  tag := (e.encrypt key iv (Utf8.encode (Base64.encodeUrl header)) (Utf8.encode text)).2

end Jwe

open Jwe

theorem decodeSegment_encodeUrl (s : Segment) (b : Bytes) :
    decodeSegment s (Base64.encodeUrl b) = .ok b := by
  rw [decodeSegment, Base64.decodeUrl_encodeUrl]
  rfl

section Sealed

variable {e : Encryption} {key iv header : Bytes} {keyId : Option String} {h : JoseHeader}
  (hheader : IsDirectHeader e (.direct key keyId) header h) (text : String)

theorem segments_sealText (e : Encryption) (header key iv : Bytes) (text : String) :
    (Token.segments (sealText e header key iv text)).length = 5 := by
  rw [sealText, Token.segments_compact (List.cons_ne_nil _ _)]
  rfl

include hheader

/-- **A sealed text is read as an encrypted token.** -/
theorem parse_sealText :
    Token.parse (sealText e header key iv text)
      = .ok (.encrypted (sealedToken e header key iv h text)) := by
  have hdecode : JoseHeader.decode (Base64.encodeUrl header) = .ok h := by
    rw [JoseHeader.decode, decodeSegment_encodeUrl]
    exact hheader.parsed
  have hmanagement : KeyManagement.parse h.algorithm = .ok .direct := by
    rw [hheader.algorithm, KeyManagement.parse_name]
  have hencryption : orRefuse h.encryption .missingEncryptionMethod = .ok e.name := by
    rw [hheader.encryption]
    rfl
  rw [Token.parse, sealText, Token.segments_compact (List.cons_ne_nil _ _)]
  show Token.ofFive _ _ _ _ _ = _
  unfold Token.ofFive
  simp only [bind_eq_ok_iff]
  exact ⟨h, hdecode, .direct, hmanagement, e.name, hencryption, e, Encryption.parse_name e,
    [], decodeSegment_encodeUrl _ [], iv, decodeSegment_encodeUrl _ iv,
    _, decodeSegment_encodeUrl _ _, _, decodeSegment_encodeUrl _ _, rfl⟩

omit hheader in
/-- **The key opens what was sealed under it.** -/
theorem content?_sealed (hkey : key.length = e.keyLength) (hiv : iv.length = e.ivLength) :
    (sealedToken e header key iv h text).content? (.direct key keyId)
      = some (Utf8.encode text) :=
  Encryption.decrypt_encrypt hkey hiv (Utf8.encode (Base64.encodeUrl header)) (Utf8.encode text)

end Sealed

/-! ## Validating -/

namespace IdTokenValidator

variable {σ : Type}

/-- What is in an encrypted token must be signed. -/
theorem nestedToken_encode (text : String) :
    nestedToken (Utf8.encode text)
      = Token.parse text >>= fun parsed =>
          match parsed with
          | .signed t => .ok t
          | other => refuse (.nestedNotSigned other.kind) := by
  unfold nestedToken
  rw [Utf8.decode_encode]
  rfl

section Unwrap

variable {v : IdTokenValidator σ} {selector : Jwe.Selector} {e : Encryption} {key iv header : Bytes}
  {keyId : Option String} {h : JoseHeader}
  (hselector : Selector.make .direct e [.direct key keyId] = .ok selector)
  (hheader : IsDirectHeader e (.direct key keyId) header h)
  (hkey : key.length = e.keyLength) (hiv : iv.length = e.ivLength) (text : String)
include hselector hheader hkey hiv

theorem unwrap_sealedToken :
    (v.withDecryption selector).unwrap (sealedToken e header key iv h text)
      = nestedToken (Utf8.encode text) := by
  obtain rfl : ⟨.direct, e, [.direct key keyId]⟩ = selector := Except.ok.inj hselector
  have hcandidates : [Key.direct key keyId].filter (Selector.mayOpen h.keyId)
      = [Key.direct key keyId] :=
    List.filter_eq_self.2 fun k hk => List.mem_singleton.1 hk ▸ hheader.mayOpen
  have hopen : openWithAny (sealedToken e header key iv h text) [Key.direct key keyId]
      = .ok (Utf8.encode text) := by
    rw [openWithAny, List.findSome?_cons, content?_sealed text hkey hiv]
    rfl
  unfold unwrap withDecryption sealedToken Selector.candidates
  dsimp only
  rw [if_neg (not_not_intro rfl), if_neg (not_not_intro rfl), hcandidates]
  exact congrArg (· >>= nestedToken) hopen

/-- A sealed token is validated as the signed token in it, which is all that can be in it. -/
theorem validateAt_sealed_eq (nonce : Option Nonce) (now : Instant) (state : σ) :
    (v.withDecryption selector).validateAt (sealText e header key iv text) nonce now state
      = match nestedToken (Utf8.encode text) with
        | .error err => (.error err, state)
        | .ok t => (v.withDecryption selector).validateSigned t nonce now state := by
  have hunwrap := unwrap_sealedToken (v := v) hselector hheader hkey hiv text
  unfold validateAt
  rw [parse_sealText hheader]
  cases hnested : nestedToken (Utf8.encode text) with
  | error err => simp only [hunwrap, hnested]
  | ok t => simp only [hunwrap, hnested]

end Unwrap

/-- **Encryption is transparent**: a signed token that is sealed under the key of a validator is
validated as if it were not, and a token that is not signed is malformed once it is sealed. A header
that asks for nothing but the shared key and the encryption will do. -/
theorem validateAt_sealText (v : IdTokenValidator σ) {selector : Jwe.Selector} {e : Encryption}
    {key iv : Bytes} {keyId : Option String}
    (hselector : Selector.make .direct e [.direct key keyId] = .ok selector)
    (hkey : key.length = e.keyLength) (hiv : iv.length = e.ivLength) :
    (∃ h, IsDirectHeader e (.direct key keyId) (plainHeader e) h)
      ∧ ∀ header h, IsDirectHeader e (.direct key keyId) header h → ∀ text,
        (Token.segments (sealText e header key iv text)).length = 5
          ∧ ∀ parsed, Token.parse text = .ok parsed → ∀ nonce now state,
            (parsed.kind = .signed →
              (v.withDecryption selector).validateAt (sealText e header key iv text) nonce now state
                = (v.withDecryption selector).validateAt text nonce now state)
            ∧ (parsed.kind ≠ .signed → ∃ err,
              (v.withDecryption selector).validateAt (sealText e header key iv text) nonce now state
                  = (.error err, state)
                ∧ err.kind = .malformedInput) := by
  -- whatever the header is, what is left of the sealed text is the text as a nested token
  refine ⟨⟨_, isDirectHeader_plainHeader e _⟩, fun header h hheader text =>
    ⟨segments_sealText e header key iv text, fun parsed hparsed nonce now state => ?_⟩⟩
  have hsealed := validateAt_sealed_eq (v := v) hselector hheader hkey hiv text nonce now state
  rw [nestedToken_encode, hparsed] at hsealed
  rw [hsealed]
  cases parsed with
  | signed t =>
    refine ⟨fun _ => ?_, fun hne => absurd rfl hne⟩
    rw [validateAt, hparsed]
    rfl
  | unsecured t => exact ⟨fun hs => (nomatch hs), fun _ => ⟨_, rfl, rfl⟩⟩
  | encrypted t => exact ⟨fun hs => (nomatch hs), fun _ => ⟨_, rfl, rfl⟩⟩

/-- A key for encryption that is shared with the issuer. -/
def sharedKey : Bytes := List.replicate 64 7

/-- The selector of the key. -/
def sharedSelector : Jwe.Selector := ⟨.direct, .a256CbcHs512, [.direct sharedKey none]⟩

/-- A token that the issuer has signed with the secret of the client. -/
def signedToken : String :=
  "eyJhbGciOiJIUzI1NiJ9.eyJhdWQiOiJhcHAiLCJleHAiOjYwMCwiaXNzIjoiaWRwIiwic3ViIjoiYWxpY2UifQ"
    ++ ".x8gluDQt4bMN6j98BwLodueDLivOBVvN21RfzYf2ujM"

/-- A signed token that is accepted is accepted once it is sealed, too; one that is not signed is
malformed. -/
theorem validateAt_sealText_shared :
    let v : IdTokenValidator Unit := signed ⟨"idp", by decide⟩ ⟨"app", by decide⟩
      (.secrets .hs256 [.lasting "secret"])
    let now : Instant := ⟨0, 0, by decide, by decide, by decide⟩
    let sealed := sealText .a256CbcHs512 (plainHeader .a256CbcHs512) sharedKey
      (List.replicate 16 9)
    (∃ t, (v.withDecryption sharedSelector).validateAt signedToken none now () = (.ok t, ())
        ∧ (v.withDecryption sharedSelector).validateAt (sealed signedToken) none now ()
          = (.ok t, ()))
      ∧ ∃ err, (v.withDecryption sharedSelector).validateAt (sealed "eyJhbGciOiJub25lIn0.e30.") none
          now () = (.error err, ())
        ∧ err.kind = .malformedInput := by
  intro v now sealed
  have hselector : Selector.make .direct .a256CbcHs512 [.direct sharedKey none]
      = .ok sharedSelector := rfl
  have hkey : sharedKey.length = Encryption.keyLength .a256CbcHs512 := rfl
  have hiv : (List.replicate 16 9 : Bytes).length = Encryption.ivLength .a256CbcHs512 := rfl
  have haccepted : ((v.withDecryption sharedSelector).validateAt signedToken none now
      ()).1.toOption.isSome = true := by
    decide +kernel
  obtain ⟨t, ht⟩ := exists_eq_ok_of_isSome haccepted
  have ht : (v.withDecryption sharedSelector).validateAt signedToken none now () = (.ok t, ()) :=
    Prod.ext ht (Subsingleton.elim _ _)
  obtain ⟨parsed, hparsed, hsigned⟩ := exists_eq_ok_of_any (x := Token.parse signedToken)
    (p := (·.kind == .signed)) (by decide +kernel)
  obtain ⟨parsed', hparsed', hunsecured⟩ :=
    exists_eq_ok_of_any (x := Token.parse "eyJhbGciOiJub25lIn0.e30.")
      (p := (·.kind != .signed)) (by decide +kernel)
  obtain ⟨⟨h, hheader⟩, htransparent⟩ := validateAt_sealText v hselector hkey hiv
  have hsame := ((htransparent _ h hheader _).2 parsed hparsed none now ()).1 (beq_iff_eq.1 hsigned)
  exact ⟨⟨t, ht, hsame.trans ht⟩,
    ((htransparent _ h hheader _).2 parsed' hparsed' none now ()).2 (bne_iff_ne.1 hunsecured)⟩

end IdTokenValidator

end Credential
