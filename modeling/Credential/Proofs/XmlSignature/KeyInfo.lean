import Credential.Proofs.Xml.Erase
import Credential.Proofs.XmlSignature.Enveloped

/-!
# What a document says about keys

A signature can carry a `KeyInfo`, which names or even holds a key. It plays no part: without it the
signature says the same, and it is accepted with the same keys if it was accepted with it
(`IsVerified.withoutKeyInfo`).
-/

namespace Credential.XmlSignature

open Xml (Element Located)

/-- The second of two names is not the name of an element that has the first. -/
theorem isNamed_eq_false_of_ne {l : Located} {u name other : String}
    (h : l.isNamed u name = true) (hne : name ≠ other) : l.isNamed u other = false := by
  rw [Located.isNamed, Bool.and_eq_true, beq_iff_eq, beq_iff_eq] at h
  rw [Located.isNamed, h.2, beq_false_of_ne hne, Bool.and_false]

variable {l k : Located} {n : Nat}

theorem childNamed?_erase (hk : l.children[n]? = some k) {name : String}
    (hne : k.isNamed uri name = false) :
    (l.erase [n]).childNamed? uri name = l.childNamed? uri name := by
  rw [Located.childNamed?, Located.childrenNamed, l.children_erase, Xml.filter_eraseIdx hk hne]
  rfl

/-- The identifiers of an element without a part of it are among its own. -/
theorem identifiers_erasePath (e : Element) (path : List Nat) :
    (identifiers (e.erasePath path)).Sublist (identifiers e) :=
  ((Xml.Content.tags_erasePath path e.inner).cons_cons e.tag).flatMap _

theorem UniqueIdentifiers.erasePath {e : Element} (h : UniqueIdentifiers e) (path : List Nat) :
    UniqueIdentifiers (e.erasePath path) :=
  nodup_identifiers_iff.1 ((nodup_identifiers_iff.2 h).sublist (identifiers_erasePath e path))

namespace Enveloped

variable {s : Enveloped}

theorem IsSignature.withoutKeyInfo (h : IsSignature l s) (hk : l.children[n]? = some k)
    (hinfo : k.isNamed uri "KeyInfo" = true) : IsSignature (l.erase [n]) s where
  info := by
    rw [childNamed?_erase hk (isNamed_eq_false_of_ne hinfo (by decide))]
    exact h.info
  value := by
    rw [childNamed?_erase hk (isNamed_eq_false_of_ne hinfo (by decide))]
    exact h.value
  canonicalizer := h.canonicalizer
  method := h.method
  reference := h.reference

/-- What is digested does not change with a part of the signature that is left out of it. -/
theorem signedText_erase (he : s.reference.enveloped = true) (signed : Located) (n : Nat) :
    s.signedText (signed.erase [s.position, n]) = s.signedText signed := by
  have hinner : (signed.element.erasePath [s.position, n]).erasePath [s.position]
      = signed.element.erasePath [s.position] := by
    refine congrArg (Element.mk signed.element.tag) ?_
    show (signed.element.inner.erasePath [s.position, n]).erasePath [s.position]
      = signed.element.inner.erasePath [s.position]
    rw [Xml.Content.erasePath_singleton, Xml.Content.erasePath_singleton,
      Xml.Content.eraseElement_erasePath]
  rw [signedText, signedText, if_pos he, if_pos he]
  exact congrArg (fun e => s.reference.canonicalizer.canonicalize ⟨signed.outer, e⟩) hinner

/-- **A signature that is accepted is accepted without its `KeyInfo`**, if it is itself left out of
what is digested. -/
theorem IsVerified.withoutKeyInfo {document : Element} {keys : List Key}
    (h : s.IsVerified document (.root document) keys) (he : s.reference.enveloped = true)
    (hl : (Located.root document).children[s.position]? = some l)
    (hk : l.children[n]? = some k) (hinfo : k.isNamed uri "KeyInfo" = true) :
    s.IsVerified (document.erasePath [s.position, n])
      (.root (document.erasePath [s.position, n])) keys := by
  obtain ⟨signature, honly, hat, hs⟩ := h.signature
  obtain rfl : l = signature := Option.some.inj (hl.symm.trans hat)
  have hnamed : (l.erase [n]).isNamed uri "Signature" = true := by
    have hmem : l ∈ (Located.root document).childrenNamed uri "Signature" := by
      rw [honly]
      exact List.mem_singleton_self l
    exact (List.mem_filter.1 hmem).2
  have hchildren := Located.children_erase_inside hl n []
  refine ⟨h.identifiers.erasePath _, ⟨l.erase [n], ?_, ?_,
    hs.withoutKeyInfo hk hinfo⟩, h.target, ?_, h.key⟩
  · show ((Located.root document).erase [s.position, n]).children.filter _ = _
    rw [hchildren]
    exact Xml.filter_set_of_only honly hl hnamed
  · show ((Located.root document).erase [s.position, n]).children[s.position]? = _
    rw [hchildren, List.getElem?_set_self]
    exact (List.getElem?_eq_some_iff.1 hl).1
  · show _ = s.reference.digestMethod.digest.hash
      (Utf8.encode (s.signedText ((Located.root document).erase [s.position, n])))
    rw [signedText_erase he]
    exact h.digest

end Enveloped

end Credential.XmlSignature
