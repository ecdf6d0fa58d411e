import Credential.Proofs.Outcome
import Credential.Proofs.Saml.ReadCongr
import Credential.Proofs.Text.Ascii
import Credential.Proofs.Xml.Roundtrip
import Credential.Proofs.XmlSignature.Comments
import Credential.Proofs.XmlSignature.Enveloped
import Credential.Saml.Verifier
import Mathlib.Data.String.Basic

/-!
# Assertions and comments

A verifier gives the same for a document and for the same document with comments put in, where the
canonical forms of its signature leave out comments (`verifyAt_commented`). That is so wherever the
comments are put, but for the two elements that hold the octets of the signature: there they change
what is read (`not_verifyAt_commented_anywhere`).
-/

namespace Credential.Saml

open Xml (Canonicalizer Document Located)
open XmlSignature (Enveloped bare holdsOctets)
open Crypto (Digest pad)

namespace Verifier

theorem agree_rootOf {d d' : Document} (h : bare (.root d.root) = bare (.root d'.root)) :
    Agree (fun l l' => l = .root d.root ∧ l' = .root d'.root) (Assertion.rootOf d)
      (Assertion.rootOf d') := by
  have hnamed : (bare (.root d.root)).isNamed uri "Assertion"
      = (bare (.root d'.root)).isNamed uri "Assertion" := congrArg (·.isNamed uri "Assertion") h
  have hname : (bare (.root d.root)).localName = (bare (.root d'.root)).localName :=
    congrArg Located.localName h
  have hnamed : (Located.root d.root).isNamed uri "Assertion"
      = (Located.root d'.root).isNamed uri "Assertion" := hnamed
  have hname : (Located.root d.root).localName = (Located.root d'.root).localName := hname
  unfold Assertion.rootOf
  simp only [hnamed, hname]
  split
  · exact .ok ⟨rfl, rfl⟩
  · exact .error _

/-- **Comments are outside of what is signed**: a document with comments put in is the same
assertion, or is refused for the same reason. The comments may stand anywhere but in the elements
that hold octets. -/
theorem verifyAt_commented (v : Verifier) {xml xml' : String} {d d' : Document}
    (hd : Assertion.readDocument xml = .ok d) (hd' : Assertion.readDocument xml' = .ok d')
    (h : d.root.Commented holdsOctets d'.root)
    (hc : ∀ s, Enveloped.read (.root d.root) = .ok s → s.LeavesOutComments) (now : Instant) :
    v.verifyAt xml' now = v.verifyAt xml now := by
  have hbare : bare (.root d.root) = bare (.root d'.root) := h.uncommented_eq.symm
  have hview : (Located.root d.root).view = (Located.root d'.root).view :=
    calc (Located.root d.root).view
        = (bare (.root d.root)).view := (Located.view_uncommented holdsOctets _).symm
      _ = (bare (.root d'.root)).view := congrArg Located.view hbare
      _ = (Located.root d'.root).view := Located.view_uncommented holdsOctets _
  have hread := ofElement_congr (alike_of_view_eq hview)
  have hverify := XmlSignature.verify_congr v.keys hbare hbare hc
  unfold verifyAt
  rw [hd, hd']
  refine ((agree_rootOf hbare).bind_eq ?_).symm
  rintro _ _ ⟨rfl, rfl⟩
  rw [hverify, hread]

/-! ## A document and its comments -/

/-- A written element is read as a document, if it is not too large. -/
theorem readDocument_written {e : Xml.Element} (h : e.WellFormed [])
    (hx : "xml" ∉ e.inner.targets) (hm : e.inner.merged = e.inner)
    (hsize : String.utf8Len (e.tag.writeOpening (e.inner.write (e.tag.writeClosing [])))
      ≤ Assertion.maxOctets)
    (hnodes : (Document.mk .nil e .nil).nodeCount ≤ Assertion.maxNodes) :
    Assertion.readDocument e.written = .ok ⟨.nil, e, .nil⟩ := by
  have hread := Document.read?_written_of_merged h hx hm
  have hsize : e.written.utf8ByteSize ≤ Assertion.maxOctets := by
    rw [Xml.Element.written, String.utf8ByteSize_ofList]
    exact hsize
  rw [Assertion.readDocument, if_neg (Nat.not_lt.2 hsize), hread, Option.filter,
    if_pos (decide_eq_true hnodes)]
  rfl

/-- The start of an element with names that have no prefix. -/
def startTag (name : String) (declarations : Xml.Scope) (attributes : List (String × String)) :
    Xml.Tag where
  name := ⟨"", name, false⟩
  declarations := declarations
  attributes := attributes.map fun a => ⟨⟨"", a.1, false⟩, a.2⟩

/-- The digest of the assertion. -/
def digestText : String := "vVChZYn8+4DofBIA218KYF0avj5IxdvpiLiKX8+xjGA="

/-- What is signed: the digest of the assertion that the signature stands in. -/
def signedInfo : Xml.Element where
  tag := startTag "SignedInfo" [] []
  inner :=
    .element (startTag "CanonicalizationMethod" [] [("Algorithm", Xml.exclusiveCanonical)]) .nil <|
    .element (startTag "SignatureMethod" [] [("Algorithm", XmlSignature.Method.rsaSha256.uri)])
      .nil <|
    .element (startTag "Reference" [] [("URI", "#_1")])
      (.element (startTag "Transforms" [] [])
        (.element (startTag "Transform" [] [("Algorithm", XmlSignature.envelopedTransform)]) .nil <|
        .element (startTag "Transform" [] [("Algorithm", Xml.exclusiveCanonical)]) .nil .nil) <|
      .element (startTag "DigestMethod" [] [("Algorithm", XmlSignature.DigestMethod.sha256.uri)])
        .nil <|
      .element (startTag "DigestValue" [] []) (.text digestText .nil) .nil) .nil

/-- A signed assertion, of which the texts of the issuer and of the signature value are given. -/
def signedAssertion (issuer octets : Xml.Content) : Xml.Element where
  tag := startTag "Assertion" [⟨"", uri⟩]
    [("ID", "_1"), ("IssueInstant", "2023-11-14T22:13:20Z")]
  inner :=
    .element (startTag "Issuer" [] []) issuer <|
    .element (startTag "Signature" [⟨"", XmlSignature.uri⟩] [])
      (.element signedInfo.tag signedInfo.inner <|
      .element (startTag "SignatureValue" [] []) octets .nil) <|
    .element (startTag "Subject" [] [])
      (.element (startTag "NameID" [] []) (.text "alice" .nil) <|
      .element (startTag "SubjectConfirmation" [] [("Method", bearerMethod)]) .nil .nil) <|
    .element (startTag "Conditions" [] [("NotOnOrAfter", "2023-11-14T22:18:20Z")])
      (.element (startTag "AudienceRestriction" [] [])
        (.element (startTag "Audience" [] []) (.text "sp" .nil) .nil) .nil) .nil

/-- The signature value without its first two characters. -/
def octetsRest : String :=
  "MdxNFMi37Q+BA7QyCYYJYszq/JS1ciLb8pOEnPDJJZga1l1Sud4wiZsRVpQ/Iqi7lhsZeryHjRKBmWOkE="

/-- The assertion without comments. -/
def plain : Xml.Element :=
  signedAssertion (.text ("ab" ++ "cd") .nil) (.text ("ff" ++ octetsRest) .nil)

/-- The key that signed the assertion. -/
def signingKey : XmlSignature.Key :=
  .rsa ⟨0xd54b053d3e9da9c33168292195a1242d21142c9947c6a5d179a12cc7dd0d95
    * 0xc93e5251a809c58fe7d8f865f9ac70f4a03b15bd19014c812dfa8b7031306b, 3⟩

/-- A verifier that expects the assertion and trusts its key. -/
def trusting : Verifier where
  issuer := ⟨"abcd", by decide⟩
  audience := .singleton ⟨"sp", by decide⟩
  keys := [signingKey]
  skew := Duration.ofSeconds 30
  skew_nonneg := by decide

theorem readDocument_plain : Assertion.readDocument plain.written = .ok ⟨.nil, plain, .nil⟩ :=
  readDocument_written (by decide +kernel) (by decide +kernel) (by decide +kernel)
    (by decide +kernel) (by decide +kernel)

/-- The octets of a written element, character by character and without the text in between. -/
def octets (e : Xml.Element) : Bytes :=
  (e.tag.writeOpening (e.inner.write (e.tag.writeClosing []))).flatMap String.utf8EncodeChar

theorem encode_written (e : Xml.Element) : Utf8.encode e.written = octets e :=
  Utf8.encode_ofList _

/-- The digest is that of the assertion without its signature. -/
theorem decodePadded_digestText :
    Base64.decodePadded digestText.toList = some (Digest.sha256.hash (Utf8.encode
      ((Canonicalizer.mk [] false).canonicalize ((Located.root plain).erase [1])))) := by
  rw [Canonicalizer.canonicalize_of_inOrder (by decide +kernel), encode_written]
  decide +kernel

/-- The octets that the signature value signs. -/
def signedOctets : Bytes :=
  octets ((Canonicalizer.mk [] false).element ⟨[⟨"", XmlSignature.uri⟩], signedInfo⟩)

/-- The hash of what is signed. It takes eleven blocks, which are too many for one evaluation. -/
theorem run_signedOctets :
    Crypto.Sha256.run Crypto.Sha256.initial signedOctets
      = ⟨0x4456c0a3, 0x64991d81, 0x44f7d0cc, 0x9a07b920,
        0xa05c6a55, 0x93713e39, 0x397a484b, 0x817bf9b1⟩ := by
  have hhalf : ((Bytes.chunks 64 (pad 64 8 signedOctets)).take 5).foldl Crypto.Sha256.compress
      Crypto.Sha256.initial = ⟨0x5f49c27a, 0x0756f649, 0x3f39e63a, 0x1f8c4d7e,
        0xc75851e4, 0x80601458, 0x5a021c2f, 0x7e2c5710⟩ := by decide +kernel
  rw [Crypto.Sha256.run_of_take hhalf]
  decide +kernel

/-- The signature of the assertion, which the key verifies. -/
def signature : { s : Enveloped // s.IsVerified plain (.root plain) trusting.keys } where
  val :=
    { position := 1
      info := ⟨[⟨"", XmlSignature.uri⟩], signedInfo⟩
      value := (Base64.decodePadded ("ff" ++ octetsRest).toList).getD []
      canonicalizer := ⟨[], false⟩
      method := .rsaSha256
      reference :=
        ⟨"#_1", true, ⟨[], false⟩, .sha256, (Base64.decodePadded digestText.toList).getD []⟩ }
  property :=
    { identifiers := by decide +kernel
      signature := Enveloped.read_eq_ok_iff.1 (by decide +kernel)
      target := ⟨"_1", by decide +kernel, by decide, rfl⟩
      digest := congrArg (Option.getD · []) decodePadded_digestText
      key := by
        refine ⟨signingKey, List.mem_singleton_self _, rfl, ?_⟩
        rw [Canonicalizer.canonicalize, encode_written]
        show (true && Crypto.Rsa.verifyPkcs1 _ .sha256 signedOctets _) = true
        simp only [Crypto.Rsa.verifyPkcs1, Crypto.Rsa.encodePkcs1?, Digest.hash,
          Crypto.Sha256.sha256, run_signedOctets]
        decide +kernel }

theorem read_plain : Enveloped.read (.root plain) = .ok signature.val :=
  Enveloped.read_eq_ok_iff.2 signature.property.signature

theorem leavesOutComments_signature : signature.val.LeavesOutComments := ⟨rfl, rfl⟩

/-- At the instant that it is issued the assertion is accepted. -/
theorem exists_verifyAt_plain : ∃ now a, trusting.verifyAt plain.written now = .ok a := by
  let issued : Instant := ⟨1700000000, 0, by decide, by decide, by decide⟩
  have hroot : Assertion.rootOf ⟨.nil, plain, .nil⟩ = .ok (.root plain) := rfl
  have hverify : XmlSignature.verify plain (.root plain) trusting.keys = .ok .rsaSha256 :=
    XmlSignature.verify_eq_ok_iff.2 ⟨signature.val, signature.property, rfl⟩
  obtain ⟨a, ha, hc⟩ := exists_eq_ok_of_any (x := Assertion.ofElement (.root plain))
    (p := fun a => trusting.checkConditions a issued = .ok ()) (by decide +kernel)
  refine ⟨issued, a, ?_⟩
  simp only [verifyAt, bind_eq_ok_iff]
  exact ⟨_, readDocument_plain, _, hroot, _, hverify, a, ha, (), of_decide_eq_true hc, rfl⟩

/-- A comment in the middle of the issuer: the assertion is accepted with it, too. -/
theorem verifyAt_commented_issuer :
    let commented := signedAssertion (.text "ab" (.comment " x " (.text "cd" .nil)))
      (.text ("ff" ++ octetsRest) .nil)
    plain.Commented holdsOctets commented
      ∧ (∃ s, Enveloped.read (.root plain) = .ok s ∧ s.LeavesOutComments)
      ∧ (∀ v now, verifyAt v commented.written now = verifyAt v plain.written now)
      ∧ ∃ now a, trusting.verifyAt commented.written now = .ok a := by
  intro commented
  have hread : Assertion.readDocument commented.written = .ok ⟨.nil, commented, .nil⟩ :=
    readDocument_written (by decide +kernel) (by decide +kernel) (by decide +kernel)
      (by decide +kernel) (by decide +kernel)
  have hcommented : plain.Commented holdsOctets commented :=
    .element (.element (.split "ab" "cd" " x " (.refl _)) (fun h => absurd h (by decide +kernel))
      (.refl _)) (fun h => absurd h (by decide +kernel)) (.refl _)
  have hleaves : ∀ s, Enveloped.read (.root plain) = .ok s → s.LeavesOutComments := by
    intro s hs
    obtain rfl := Except.ok.inj (read_plain.symm.trans hs)
    exact leavesOutComments_signature
  have hsame : ∀ v now, verifyAt v commented.written now = verifyAt v plain.written now :=
    fun v now => verifyAt_commented v readDocument_plain hread hcommented hleaves now
  obtain ⟨now, a, ha⟩ := exists_verifyAt_plain
  exact ⟨hcommented, ⟨signature.val, read_plain, leavesOutComments_signature⟩, hsame, now, a,
    (hsame _ _).trans ha⟩

/-- **A comment in the octets of a signature does make a difference**: with it they cannot be read,
while without it the assertion is accepted. -/
theorem not_verifyAt_commented_anywhere :
    ¬ ∀ (v : Verifier) (xml xml' : String) (d d' : Document) (s : Enveloped) (now : Instant),
      Assertion.readDocument xml = .ok d → Assertion.readDocument xml' = .ok d' →
      d.root.Commented (fun _ _ => false) d'.root →
      Enveloped.read (.root d.root) = .ok s → s.LeavesOutComments →
      v.verifyAt xml' now = v.verifyAt xml now := by
  intro h
  -- of the octets only those before the comment are taken, which is no whole number of them
  let commented := signedAssertion (.text ("ab" ++ "cd") .nil)
    (.text "ff" (.comment " x " (.text octetsRest .nil)))
  have hread : Assertion.readDocument commented.written = .ok ⟨.nil, commented, .nil⟩ :=
    readDocument_written (by decide +kernel) (by decide +kernel) (by decide +kernel)
      (by decide +kernel) (by decide +kernel)
  have hcommented : plain.Commented (fun _ _ => false) commented :=
    .element (.element (.refl _) (fun _ => rfl) <| .element (.element (.refl _) (fun _ => rfl) <|
      .element (.split "ff" octetsRest " x " (.refl _)) (fun h => absurd h (by decide)) (.refl _))
      (fun h => absurd h (by decide)) (.refl _)) (fun h => absurd h (by decide)) (.refl _)
  obtain ⟨now, a, ha⟩ := exists_verifyAt_plain
  have hsame := h trusting _ _ _ _ signature.val now readDocument_plain hread hcommented read_plain
    leavesOutComments_signature
  have hok := hsame.trans ha
  simp only [verifyAt, bind_eq_ok_iff] at hok
  obtain ⟨d, hd, root, hroot, m, hm, -⟩ := hok
  obtain rfl := Except.ok.inj (hread.symm.trans hd)
  obtain rfl : Located.root commented = root := Except.ok.inj hroot
  have hfails : (XmlSignature.verify commented (.root commented)
      trusting.keys).toOption = none := by
    decide +kernel
  rw [hm] at hfails
  cases hfails

end Verifier

end Credential.Saml
