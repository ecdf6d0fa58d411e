import Credential.Jwe.Key
import Credential.Proofs.Jose.Compact
import Credential.Proofs.Jose.Token

/-!
# One spelling for a token

A token that is read is the written form of the octets of its segments, but for white space around
it. So there is one text for given octets (`Token.compact_of_parse`): a text that is not a token
that was seen before differs from it in some octet. What is kept of a token as a text, to be
verified or authenticated, is that same text or its first segment.
-/

namespace Credential

/-- A header is read from a segment exactly if the segment is the written form of its octets. -/
theorem JoseHeader.decode_eq_ok_iff {segment : String} {h : JoseHeader} :
    decode segment = .ok h ↔ ∃ b, segment = Base64.encodeUrl b ∧ parse b = .ok h := by
  rw [decode, bind_eq_ok_iff]
  simp only [decodeSegment_eq_ok_iff, Base64.decodeUrl_eq_some_iff]

namespace Token

/-! ## Octets -/

/-- The octets that the segments of a text write, if each segment writes some. -/
def octets? (text : String) : Option (List Bytes) := (segments text).mapM Base64.decodeUrl

variable {text : String} {parts : List Bytes}

/-- Octets are read from a text exactly if its segments are their written forms. -/
theorem octets?_eq_some_iff :
    octets? text = some parts ↔ segments text = parts.map Base64.encodeUrl := by
  rw [octets?]
  induction segments text generalizing parts with
  | nil =>
    rw [List.mapM_nil, eq_comm (a := ([] : List String)), List.map_eq_nil_iff]
    exact Option.some_inj.trans eq_comm
  | cons s rest ih =>
    rw [List.mapM_cons]
    constructor
    · intro h
      obtain ⟨b, hb, h⟩ := Option.bind_eq_some_iff.1 h
      obtain ⟨bs, hbs, h⟩ := Option.bind_eq_some_iff.1 h
      obtain rfl := Option.some.inj h
      rw [List.map_cons, ← Base64.decodeUrl_eq_some_iff.1 hb, ← ih.1 hbs]
    · intro h
      obtain ⟨b, bs, rfl, hb, hbs⟩ := List.map_eq_cons_iff.1 h.symm
      exact Option.bind_eq_some_iff.2 ⟨b, Base64.decodeUrl_eq_some_iff.2 hb.symm,
        Option.bind_eq_some_iff.2 ⟨bs, ih.2 hbs.symm, rfl⟩⟩

/-- **Octets with dots between them are the text that they are read from.** -/
theorem compact_of_octets? (h : octets? text = some parts) : compact parts = Text.trim text := by
  have hpieces : Text.pieces '.' (Text.trimChars text.toList)
      = parts.map (Base64.encodeChars .urlSafe) := by
    have hsegments := congrArg (List.map String.toList) (octets?_eq_some_iff.1 h)
    rw [segments, List.map_map, List.map_map] at hsegments
    have hread : String.toList ∘ String.ofList = id := funext fun cs => String.toList_ofList
    have hwritten : String.toList ∘ Base64.encodeUrl = Base64.encodeChars .urlSafe :=
      funext fun b => String.toList_ofList
    rw [hread, List.map_id, hwritten] at hsegments
    exact hsegments
  rw [compact, ← hpieces, Text.join_pieces, Text.trim]

/-! ## Tokens -/

/-- What a token has of the octets of its segments: the header and the claims that they hold, or the
octets themselves, and of a segment that is kept as a text its written form. -/
inductive IsOf : List Bytes → Token → Prop
  | unsecured {header payload : Bytes} {t : UnsecuredToken}
    (parsed : JoseHeader.parse header = .ok t.header) (claims : Claims.parse payload = .ok t.claims) :
    IsOf [header, payload, []] (.unsecured t)
  | signed {header payload signature : Bytes} {t : SignedToken}
    (parsed : JoseHeader.parse header = .ok t.header) (claims : Claims.parse payload = .ok t.claims)
    (headerText : t.headerText = Base64.encodeUrl header)
    (payloadText : t.payloadText = Base64.encodeUrl payload)
    (signatureText : t.signatureText = Base64.encodeUrl signature) :
    IsOf [header, payload, signature] (.signed t)
  | encrypted {header : Bytes} {t : EncryptedToken} (parsed : JoseHeader.parse header = .ok t.header)
    (headerText : t.headerText = Base64.encodeUrl header) :
    IsOf [header, t.encryptedKey, t.iv, t.ciphertext, t.tag] (.encrypted t)

theorem isOf_of_ofThree {header payload signature : String} {t : Token}
    (h : ofThree header payload signature = .ok t) :
    ∃ parts, [header, payload, signature] = parts.map Base64.encodeUrl ∧ IsOf parts t := by
  unfold ofThree at h
  simp only [bind_eq_ok_iff, decodeSegment_eq_ok_iff, JoseHeader.decode_eq_ok_iff,
    Base64.decodeUrl_eq_some_iff] at h
  obtain ⟨parameters, ⟨hb, rfl, hparsed⟩, algorithm, -, pb, rfl, claims, hclaims, h⟩ := h
  split at h
  · split at h
    · next hempty =>
      obtain rfl := Except.ok.inj h
      exact ⟨[hb, pb, []], by rw [hempty]; rfl, .unsecured hparsed hclaims⟩
    · exact absurd h refuse_ne_ok
  · split at h
    · exact absurd h refuse_ne_ok
    · obtain ⟨sb, hsb, h⟩ := bind_eq_ok_iff.1 h
      rw [decodeSegment_eq_ok_iff, Base64.decodeUrl_eq_some_iff] at hsb
      obtain rfl := hsb
      obtain rfl := Except.ok.inj h
      exact ⟨[hb, pb, sb], rfl, .signed hparsed hclaims rfl rfl rfl⟩

theorem isOf_of_ofFive {header encryptedKey iv ciphertext tag : String} {t : Token}
    (h : ofFive header encryptedKey iv ciphertext tag = .ok t) :
    ∃ parts, [header, encryptedKey, iv, ciphertext, tag] = parts.map Base64.encodeUrl
      ∧ IsOf parts t := by
  unfold ofFive at h
  simp only [bind_eq_ok_iff, decodeSegment_eq_ok_iff, JoseHeader.decode_eq_ok_iff,
    Base64.decodeUrl_eq_some_iff] at h
  obtain ⟨parameters, ⟨hb, rfl, hparsed⟩, management, -, method, -, encryption, -, kb, rfl, ib, rfl,
    cb, rfl, tb, rfl, h⟩ := h
  obtain rfl := Except.ok.inj h
  exact ⟨[hb, kb, ib, cb, tb], rfl, .encrypted
    (t := ⟨Base64.encodeUrl hb, parameters, management, encryption, kb, ib, cb, tb⟩) hparsed rfl⟩

/-- A token that is read is one of the octets of its segments. -/
theorem exists_isOf_of_parse {t : Token} (h : Token.parse text = .ok t) :
    ∃ parts, octets? text = some parts ∧ IsOf parts t := by
  simp only [octets?_eq_some_iff]
  unfold Token.parse ofSegments at h
  split at h
  · next hs => exact hs ▸ isOf_of_ofThree h
  · next hs => exact hs ▸ isOf_of_ofFive h
  · exact absurd h refuse_ne_ok

/-- **There is one text for the octets of a token**, white space around it aside. The text of a
signed token is that one, and what is authenticated with an encrypted token is its first segment. -/
theorem compact_of_parse {t : Token} (h : Token.parse text = .ok t) :
    ∃ parts, octets? text = some parts ∧ IsOf parts t ∧ compact parts = Text.trim text
      ∧ (∀ other, octets? other = some parts → Text.trim other = Text.trim text)
      ∧ (∀ s, t = .signed s → s.text = Text.trim text)
      ∧ ∀ e, t = .encrypted e → (segments text).head?.map Utf8.encode = some e.aad := by
  obtain ⟨parts, hparts, hof⟩ := exists_isOf_of_parse h
  have htext := compact_of_octets? hparts
  refine ⟨parts, hparts, hof, htext, ?_, ?_, ?_⟩
  · intro other hother
    rw [← compact_of_octets? hother, htext]
  · rintro s rfl
    exact (isIn_of_parse_signed h).text
  · rintro e rfl
    cases hof with
    | encrypted hparsed hheader =>
      rw [octets?_eq_some_iff.1 hparts, EncryptedToken.aad, hheader]
      rfl

/-- A token with white space of several kinds around it and an empty segment in it. -/
theorem compact_of_parse_spaced :
    let bare := "eyJhbGciOiJkaXIiLCJlbmMiOiJBMTI4R0NNIn0..AA.AQ.Ag"
    let spaced := "\u2003" ++ bare ++ " \n"
    (∃ t, Token.parse spaced = .ok t ∧ ∃ parts, octets? spaced = some parts ∧ IsOf parts t
        ∧ compact parts = Text.trim spaced)
      ∧ Text.trim bare = Text.trim spaced := by
  intro bare spaced
  have hsame : octets? bare = octets? spaced := by decide +kernel
  obtain ⟨t, ht⟩ := exists_eq_ok_of_isSome (x := Token.parse spaced) (by decide +kernel)
  obtain ⟨parts, hparts, hof, htext, hunique, -⟩ := compact_of_parse ht
  exact ⟨⟨t, ht, parts, hparts, hof, htext⟩, hunique bare (hsame.trans hparts)⟩

end Token

end Credential
