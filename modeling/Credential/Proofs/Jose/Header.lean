import Credential.Proofs.Jose.Spelling
import Credential.Proofs.Json.Record
import Credential.Proofs.Jws.Signature

/-!
# What a header is read from

A header is read from a segment exactly if the segment writes a JSON text that is an object with the
parameters under their names, or an array with the parameters in their places
(`JoseHeader.decode_eq_ok_iff_isWritten`). So a token may be classified by a header that is no object
(`JoseHeader.not_object_of_decode`). If it is a signed one, no key verifies it.
-/

namespace Credential

open Json (Raw Record)

namespace Json

/-- What is given for a field that may be left out, and what is read of it. -/
inductive IsOptionalText : List Raw → Option String → Prop
  | absent : IsOptionalText [] none
  | null : IsOptionalText [.null] none
  | text {v : Raw} {s : String} (h : v.text? = some s) : IsOptionalText [v] (some s)

theorem IsOptionalText.length_le {vs : List Raw} {o : Option String} (h : IsOptionalText vs o) :
    vs.length ≤ 1 := by
  cases h with
  | absent => exact Nat.zero_le 1
  | null => exact Nat.le_refl 1
  | text => exact Nat.le_refl 1

variable {r : Record} {name : String}

theorem Record.required_text_eq_some_iff {s : String} :
    r.required name Raw.text? = some s
      ↔ ∃ v, (r.get? name).toList = [v] ∧ v.text? = some s := by
  rw [required]
  cases r.get? name with
  | none => simp
  | some v => simp

theorem Record.optional_text_eq_some_iff {o : Option String} :
    r.optional name Raw.text? = some o ↔ IsOptionalText (r.get? name).toList o := by
  unfold optional
  split
  · next hnone =>
    rw [hnone]
    constructor
    · intro h
      obtain rfl := Option.some.inj h
      exact .absent
    · rintro ⟨⟩
      rfl
  · next hnull =>
    rw [hnull]
    constructor
    · intro h
      obtain rfl := Option.some.inj h
      exact .null
    · intro h
      cases h with
      | null => rfl
      | text h => cases h
  · next v hne hv =>
    rw [hv, Option.map_eq_some_iff]
    constructor
    · rintro ⟨s, hs, rfl⟩
      exact .text hs
    · intro h
      cases h with
      | null => exact absurd rfl hne
      | text h => exact ⟨_, h, rfl⟩

end Json

namespace JoseHeader

/-! ## Parameters -/

/-- The header is what is given for its parameters: a text for the algorithm, and for each of the
others nothing, `null` or a text. -/
structure IsGiven (given : String → List Raw) (h : JoseHeader) : Prop where
  algorithm : ∃ v, given "alg" = [v] ∧ v.text? = some h.algorithm
  keyId : Json.IsOptionalText (given "kid") h.keyId
  type : Json.IsOptionalText (given "typ") h.type
  contentType : Json.IsOptionalText (given "cty") h.contentType
  encryption : Json.IsOptionalText (given "enc") h.encryption

variable {given given' : String → List Raw} {h : JoseHeader}

theorem IsGiven.congr (hgiven : ∀ name ∈ parameterNames, given name = given' name) :
    h.IsGiven given ↔ h.IsGiven given' := by
  have hsame : ∀ {f g : String → List Raw}, (∀ name ∈ parameterNames, f name = g name) →
      h.IsGiven f → h.IsGiven g := by
    intro f g hfg hf
    exact {
      algorithm := hfg "alg" (by decide) ▸ hf.algorithm
      keyId := hfg "kid" (by decide) ▸ hf.keyId
      type := hfg "typ" (by decide) ▸ hf.type
      contentType := hfg "cty" (by decide) ▸ hf.contentType
      encryption := hfg "enc" (by decide) ▸ hf.encryption }
  exact ⟨hsame hgiven, hsame fun name hname => (hgiven name hname).symm⟩

/-- No parameter is given twice. -/
theorem IsGiven.length_le (hgiven : h.IsGiven given) :
    ∀ name ∈ parameterNames, (given name).length ≤ 1 := by
  obtain ⟨v, hv, -⟩ := hgiven.algorithm
  simp only [parameterNames, List.forall_mem_cons]
  exact ⟨by rw [hv]; exact Nat.le_refl 1, hgiven.keyId.length_le, hgiven.type.length_le,
    hgiven.contentType.length_le, hgiven.encryption.length_le, fun _ hname => nomatch hname⟩

/-- A header is read from the fields of a record. -/
theorem ofRaw?_eq_some_iff {raw : Raw} :
    ofRaw? raw = some h ↔ ∃ r, Record.ofRaw? parameterNames raw = some r
      ∧ h.IsGiven fun name => (r.get? name).toList := by
  unfold ofRaw?
  simp only [Option.bind_eq_bind, Option.bind_eq_some_iff, Option.pure_def,
    Record.required_text_eq_some_iff, Record.optional_text_eq_some_iff]
  constructor
  · rintro ⟨r, hr, a, ha, k, hk, t, ht, c, hc, e, he, hh⟩
    obtain rfl := Option.some.inj hh
    exact ⟨r, hr, ha, hk, ht, hc, he⟩
  · rintro ⟨r, hr, hgiven⟩
    exact ⟨r, hr, _, hgiven.algorithm, _, hgiven.keyId, _, hgiven.type, _, hgiven.contentType, _,
      hgiven.encryption, rfl⟩

/-! ## Headers -/

/-- The header is what a JSON text writes: an object with the parameters under their names, of which
other names are ignored, or an array with the parameters in their places. -/
inductive IsWritten (h : JoseHeader) : Raw → Prop
  | object {ms : List (Bytes × Raw)} {ps : List (String × Raw)} (named : Json.named? ms = some ps)
    (given : h.IsGiven fun name => Json.under name ps) : IsWritten h (.object ms)
  | array {items : List Raw} (length : items.length ≤ parameterNames.length)
    (given : h.IsGiven fun name => items[parameterNames.idxOf name]?.toList) :
    IsWritten h (.array items)

theorem ofRaw?_eq_some_iff_isWritten {raw : Raw} : ofRaw? raw = some h ↔ h.IsWritten raw := by
  rw [ofRaw?_eq_some_iff]
  constructor
  · rintro ⟨r, hr, hgiven⟩
    cases raw with
    | object ms =>
      obtain ⟨ps, hps, honce, hfields⟩ := Record.ofRaw?_object_eq_some_iff.1 hr
      exact .object hps <| (IsGiven.congr fun name hname =>
        Record.get?_of_object hfields honce hname).1 hgiven
    | array items =>
      rw [Record.ofRaw?] at hr
      split at hr
      · next hlength =>
        obtain rfl := Option.some.inj hr
        exact .array hlength <| (IsGiven.congr fun name hname =>
          congrArg Option.toList (Record.get?_of_array hname)).1 hgiven
      · cases hr
    | null => cases hr
    | bool b => cases hr
    | number n => cases hr
    | string s => cases hr
  · intro hwritten
    cases hwritten with
    | @object ms ps hnamed hgiven =>
      have honce : Record.Once parameterNames ps := hgiven.length_le
      exact ⟨⟨Record.fieldsOf parameterNames ps⟩,
        Record.ofRaw?_object_eq_some_iff.2 ⟨ps, hnamed, honce, rfl⟩,
        (IsGiven.congr fun name hname => Record.get?_of_object rfl honce hname).2 hgiven⟩
    | @array items hlength hgiven =>
      exact ⟨_, if_pos hlength, (IsGiven.congr fun name hname =>
        congrArg Option.toList (Record.get?_of_array hname)).2 hgiven⟩

theorem parse_eq_ok_iff {b : Bytes} :
    parse b = .ok h ↔ ∃ raw, Raw.parse b = some raw ∧ h.IsWritten raw := by
  rw [parse, orRefuse_eq_ok_iff]
  simp only [Option.bind_eq_bind, Option.bind_eq_some_iff, ofRaw?_eq_some_iff_isWritten]

/-- A segment that no header is read from is malformed. -/
theorem kind_of_decode_eq_error {segment : String} {e : Error} (he : decode segment = .error e) :
    e.kind = .malformedInput := by
  have hrefuse : ∀ {α : Type} {o : Option α} {c : Malformed}, orRefuse o c = .error e →
      e.kind = .malformedInput := by
    intro α o c ho
    cases o with
    | none =>
      obtain rfl := Except.error.inj ho
      rfl
    | some a => cases ho
  rw [decode] at he
  cases hb : decodeSegment .header segment with
  | error e' =>
    rw [hb] at he
    obtain rfl : e' = e := Except.error.inj he
    exact hrefuse hb
  | ok b =>
    rw [hb] at he
    exact hrefuse he

end JoseHeader

/-! ## Tokens -/

/-- The header of a token. -/
def Token.header : Token → JoseHeader
  | .unsecured t => t.header
  | .signed t => t.header
  | .encrypted t => t.header

/-- The first segment of a token that is read writes its header. -/
theorem Token.exists_decode_of_parse {text : String} {t : Token} (h : Token.parse text = .ok t) :
    ∃ segment, (segments text).head? = some segment
      ∧ JoseHeader.decode segment = .ok t.header := by
  obtain ⟨parts, hparts, hof⟩ := exists_isOf_of_parse h
  rw [octets?_eq_some_iff.1 hparts]
  cases hof with
  | unsecured hparsed => exact ⟨_, rfl, JoseHeader.decode_eq_ok_iff.2 ⟨_, rfl, hparsed⟩⟩
  | signed hparsed => exact ⟨_, rfl, JoseHeader.decode_eq_ok_iff.2 ⟨_, rfl, hparsed⟩⟩
  | encrypted hparsed => exact ⟨_, rfl, JoseHeader.decode_eq_ok_iff.2 ⟨_, rfl, hparsed⟩⟩

/-- The header of a token that a key verifies is an object. -/
theorem SignedToken.exists_object_of_verify {s : SignedToken} {k : Jws.Key}
    (h : s.verify k = .ok true) :
    ∃ b ms, Base64.decodeUrl s.headerText = some b ∧ Raw.parse b = some (.object ms) := by
  obtain ⟨hstrict, -⟩ := isSignedWith_iff.1 (verify_eq_ok_true_iff.1 h).2
  unfold isStrict at hstrict
  split at hstrict
  · next b _ hb _ =>
    rw [Bool.and_eq_true] at hstrict
    have hheader := hstrict.1
    unfold Jws.Strict.isHeader at hheader
    split at hheader
    · next ms hms => exact ⟨b, ms, hb, hms⟩
    · cases hheader
  · cases hstrict

/-! ## What is classified -/

/-- **A header is read from objects and from arrays, and from nothing else**, which is malformed. A
token has the header that its first segment writes, in one of the two ways; only where it is an
object can a key verify the token. -/
theorem JoseHeader.decode_eq_ok_iff_isWritten (segment : String) :
    (∀ h, decode segment = .ok h
        ↔ ∃ b raw, segment = Base64.encodeUrl b ∧ Raw.parse b = some raw ∧ h.IsWritten raw)
      ∧ (∀ e, decode segment = .error e → e.kind = .malformedInput)
      ∧ (∀ text t, Token.parse text = .ok t → (Token.segments text).head? = some segment →
        decode segment = .ok t.header)
      ∧ ∀ (s : SignedToken) k, s.headerText = segment → s.verify k = .ok true →
        ∃ b ms, segment = Base64.encodeUrl b ∧ Raw.parse b = some (.object ms) := by
  refine ⟨fun h => ?_, fun _ => kind_of_decode_eq_error, fun text t ht hfirst => ?_,
    fun s k hs hk => ?_⟩
  · simp only [decode_eq_ok_iff, parse_eq_ok_iff, exists_and_left]
  · obtain ⟨first, hhead, hdecode⟩ := Token.exists_decode_of_parse ht
    obtain rfl := Option.some.inj (hhead.symm.trans hfirst)
    exact hdecode
  · obtain ⟨b, ms, hb, hms⟩ := SignedToken.exists_object_of_verify hk
    exact ⟨b, ms, hs ▸ Base64.decodeUrl_eq_some_iff.1 hb, hms⟩

/-- Is the text an object? -/
def Json.Raw.isObject : Raw → Bool
  | .object _ => true
  | _ => false

/-- A header that is the array `["none"]`. -/
def arrayHeader : String := "WyJub25lIl0"

theorem not_object_of_arrayHeader {b : Bytes} {ms : List (Bytes × Raw)}
    (h : arrayHeader = Base64.encodeUrl b) : Raw.parse b ≠ some (.object ms) := by
  intro hms
  have hnone : ((Base64.decodeUrl arrayHeader).bind Raw.parse).any Raw.isObject = false := by
    decide +kernel
  rw [Base64.decodeUrl_eq_some_iff.2 h, Option.bind_some, hms] at hnone
  cases hnone

/-- **Not only objects are headers**: an array is one too, and with it a token is classified as
unsecured. -/
theorem JoseHeader.not_object_of_decode :
    (¬ ∀ segment, (∃ h, decode segment = .ok h) ↔ ∃ b ms ps, ∃ h : JoseHeader,
        segment = Base64.encodeUrl b ∧ Raw.parse b = some (.object ms) ∧ Json.named? ms = some ps
          ∧ h.IsGiven fun name => Json.under name ps)
      ∧ ¬ ∀ text t, Token.parse text = .ok t → ∃ b ms rest,
        Token.segments text = Base64.encodeUrl b :: rest ∧ Raw.parse b = some (.object ms) := by
  constructor
  · intro h
    have hread := exists_eq_ok_of_isSome (x := decode arrayHeader) (by decide +kernel)
    obtain ⟨b, ms, -, -, hb, hms, -⟩ := (h arrayHeader).1 hread
    exact not_object_of_arrayHeader hb hms
  · intro h
    obtain ⟨t, ht⟩ :=
      exists_eq_ok_of_isSome (x := Token.parse "WyJub25lIl0.e30.") (by decide +kernel)
    obtain ⟨b, ms, rest, hsegments, hms⟩ := h _ t ht
    have hfirst : Token.segments "WyJub25lIl0.e30." = [arrayHeader, "e30", ""] := by decide +kernel
    rw [hfirst] at hsegments
    exact not_object_of_arrayHeader (List.cons.inj hsegments).1 hms

end Credential
