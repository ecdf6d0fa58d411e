import Credential.Proofs.Outcome
import Credential.Proofs.Saml.ReadCongr
import Credential.Proofs.Xml.CanonicalView
import Credential.Proofs.Xml.Roundtrip
import Credential.XmlSignature.Enveloped

/-!
# What is signed is what is seen

The text that a signature digests fixes the assertion that is read, or why none is
(`ofElement_eq_of_canonicalize_eq`). So nothing that the text leaves out can change the assertion:
not what stands in the signature, not a comment in the middle of a name, not a declaration that no
name uses, and not the prefixes that names have.
-/

namespace Credential.Saml

open Xml (Canonicalizer Document Located)

/-- What a signature is about: the assertion, or what is left of it without a signature that stands
in it. -/
inductive IsSigned (l : Located) : Located → Prop
  | whole : IsSigned l l
  | withoutSignature {n : Nat} {s : Located} (at_n : l.children[n]? = some s)
      (named : s.isNamed XmlSignature.uri "Signature" = true) :
      IsSigned l (l.erase [n])

theorem IsSigned.sound {l p : Located} (h : IsSigned l p) (hl : l.Sound) : p.Sound := by
  cases h with
  | whole => exact hl
  | withoutSignature => exact hl.erase _

/-- A signature is no part of an assertion. -/
theorem IsSigned.alike {l p : Located} (h : IsSigned l p) : Alike l p := by
  cases h with
  | whole => exact alike_of_view_eq rfl
  | @withoutSignature n s at_n named =>
    refine ⟨rfl, fun name => ?_⟩
    have hne : s.isNamed uri name = false := by
      rw [Located.isNamed, Bool.and_eq_true, beq_iff_eq] at named
      rw [Located.isNamed, named.1]
      rfl
    rw [children, children, Located.childrenNamed, Located.childrenNamed, l.children_erase,
      Xml.filter_eraseIdx at_n hne]

/-- **Documents whose signed texts are the same are the same assertion**, or are refused for the
same reason, whichever way each text was written. -/
theorem ofElement_eq_of_canonicalize_eq {xml₁ xml₂ : String} {d₁ d₂ : Document}
    (hd₁ : Document.read? xml₁ = some d₁) (hd₂ : Document.read? xml₂ = some d₂)
    (hr₁ : d₁.root.ReservesXmlns) (hr₂ : d₂.root.ReservesXmlns) {p₁ p₂ : Located}
    (hp₁ : IsSigned (.root d₁.root) p₁) (hp₂ : IsSigned (.root d₂.root) p₂)
    {c₁ c₂ : Canonicalizer} (h : c₁.canonicalize p₁ = c₂.canonicalize p₂) :
    Assertion.ofElement (.root d₁.root) = Assertion.ofElement (.root d₂.root) := by
  have hview : p₁.view = p₂.view := Located.view_eq_of_canonicalize_eq
    (hp₁.sound (Located.sound_root hd₁ hr₁)) (hp₂.sound (Located.sound_root hd₂ hr₂)) h
  calc Assertion.ofElement (.root d₁.root)
      = Assertion.ofElement p₁ := ofElement_congr hp₁.alike
    _ = Assertion.ofElement p₂ := ofElement_congr (alike_of_view_eq hview)
    _ = Assertion.ofElement (.root d₂.root) := (ofElement_congr hp₂.alike).symm

/-- An element of an assertion, in front of others. -/
def part (name : String) (attributes : List (String × String)) (inner rest : Xml.Content) :
    Xml.Content :=
  .element ⟨⟨"a", name, true⟩, [], attributes.map fun a => ⟨⟨"", a.1, false⟩, a.2⟩⟩ inner rest

/-- Who an assertion is about and until when. -/
def about : Xml.Content :=
  part "Subject" []
    (part "NameID" [] (.text "alice" .nil) <|
      part "SubjectConfirmation" [("Method", bearerMethod)] .nil .nil) <|
  part "Conditions" [("NotOnOrAfter", "2023-11-14T22:18:20Z")] .nil .nil

/-- The issuer in two texts, around a comment. -/
def commented : Xml.Content :=
  part "Issuer" [] (.text "ab" (.comment "x" (.text "cd" .nil))) about

/-- The issuer in one text, and before it a signature. -/
def signed : Xml.Content :=
  .element ⟨⟨"s", "Signature", true⟩, [⟨"s", XmlSignature.uri⟩], []⟩ (.text "x" .nil)
    (part "Issuer" [] (.text "abcd" .nil) about)

/-- An assertion with some content. -/
def assertionWith (declarations : Xml.Scope) (inner : Xml.Content) : Document where
  before := .nil
  root :=
    { tag := ⟨⟨"a", "Assertion", true⟩, ⟨"a", uri⟩ :: declarations,
        [⟨⟨"", "ID", false⟩, "_1"⟩, ⟨⟨"", "IssueInstant", false⟩, "2023-11-14T22:13:20Z"⟩]⟩
      inner }
  after := .nil

/-- Both say the same: the assertion of the issuer whose name the comment divides. -/
theorem ofElement_commented_eq_signed :
    ∃ a, Assertion.ofElement (.root (assertionWith [⟨"b", "urn:b"⟩] commented).root) = .ok a
      ∧ Assertion.ofElement (.root (assertionWith [] signed).root) = .ok a
      ∧ a.issuer.value = "abcd" := by
  have h₁ : Document.read? (assertionWith [⟨"b", "urn:b"⟩] commented).root.written
      = some (assertionWith [⟨"b", "urn:b"⟩] commented) :=
    Document.read?_written_of_merged (by decide +kernel) (by decide +kernel) (by decide +kernel)
  have h₂ : Document.read? (assertionWith [] signed).root.written
      = some (assertionWith [] signed) :=
    Document.read?_written_of_merged (by decide +kernel) (by decide +kernel) (by decide +kernel)
  have htext : (Canonicalizer.mk [] false).canonicalize
        (.root (assertionWith [⟨"b", "urn:b"⟩] commented).root)
      = (Canonicalizer.mk [] false).canonicalize
        (Located.erase (.root (assertionWith [] signed).root) [0]) := by
    rw [Canonicalizer.canonicalize_of_inOrder (by decide +kernel),
      Canonicalizer.canonicalize_of_inOrder (by decide +kernel)]
    exact congrArg String.ofList (by decide +kernel)
  have hsame := ofElement_eq_of_canonicalize_eq h₁ h₂ (by decide +kernel) (by decide +kernel)
    .whole (.withoutSignature rfl (by decide +kernel)) htext
  have hread : ((Assertion.ofElement (.root (assertionWith [] signed).root)).toOption.map
      (·.issuer.value)) = some "abcd" := by decide +kernel
  obtain ⟨a, ha, hissuer⟩ := Option.map_eq_some_iff.1 hread
  have ha := toOption_eq_some_iff.1 ha
  exact ⟨a, hsame.trans ha, ha, hissuer⟩

end Credential.Saml
