import Credential.Proofs.Outcome
import Credential.Proofs.Xml.Erase
import Credential.XmlSignature.Enveloped

/-!
# What an accepted signature is

The parts of a signature are spelled out one by one (`IsReference`, `IsSignature`), and verifying
accepts a signature exactly if its parts are there and agree with the document and the keys
(`verify_eq_ok_iff`). The element that is digested, the `SignedInfo` that is signed and the
identifier that is named are those of one and the same element (`IsVerified`).
-/

namespace Credential.XmlSignature

open Xml (Located Canonicalizer)

/-! ## Algorithms -/

theorem DigestMethod.ofUri?_eq_some_iff {u : String} {m : DigestMethod} :
    ofUri? u = some m ↔ u = m.uri := by
  constructor
  · intro h
    have hm := List.find?_some h
    exact (beq_iff_eq.1 hm).symm
  · rintro rfl
    exact ofUri?_uri m

theorem Method.ofUri?_eq_some_iff {u : String} {m : Method} :
    ofUri? u = some m ↔ u = m.uri := by
  constructor
  · intro h
    have hm := List.find?_some h
    exact (beq_iff_eq.1 hm).symm
  · rintro rfl
    exact ofUri?_uri m

theorem orUnsupported_eq_ok_iff {α : Type} {v : Option α} {name : String} {a : α} :
    orUnsupported v name = .ok a ↔ v = some a := orFail_eq_ok_iff

theorem algorithmOf_eq_ok_iff {l : Located} {u : String} :
    algorithmOf l = .ok u ↔ l.attribute? "Algorithm" = some u := orRefuse_eq_ok_iff

theorem child_eq_ok_iff {l c : Located} {name : String} :
    child l name = .ok c ↔ l.childNamed? uri name = some c := orRefuse_eq_ok_iff

/-- The canonicalizer that an element names by its algorithm. -/
def namedCanonicalizer? (l : Located) : Option Canonicalizer :=
  (l.attribute? "Algorithm").bind (canonicalizerOf? · l)

/-! ## Identifiers -/

/-- The attribute gives its element an identifier: `xml:id` does, and so do four names without a
namespace. -/
def Identifies (a : Xml.Attribute) : Prop :=
  a.name.nsPrefix = "" ∧ a.name.localName ∈ ["ID", "Id", "id", "AssertionID"]
    ∨ a.name.nsPrefix = "xml" ∧ a.name.localName = "id"

instance (a : Xml.Attribute) : Decidable (Identifies a) := inferInstanceAs (Decidable (_ ∨ _))

theorem isIdentifier_iff {a : Xml.Attribute} : isIdentifier a = true ↔ Identifies a := by
  simp only [isIdentifier, Identifies, Bool.or_eq_true, Bool.and_eq_true, beq_iff_eq,
    List.contains_iff_mem]

/-- No two attributes in the element give the same identifier, neither on one tag nor on two. -/
structure UniqueIdentifiers (e : Xml.Element) : Prop where
  within : ∀ t ∈ e.tags, t.attributes.Pairwise fun a b =>
    Identifies a → Identifies b → a.value ≠ b.value
  between : e.tags.Pairwise fun t t' => ∀ a ∈ t.attributes, Identifies a →
    ∀ b ∈ t'.attributes, Identifies b → a.value ≠ b.value

/-- **Every tag and every attribute is looked at.** -/
theorem nodup_identifiers_iff {e : Xml.Element} :
    (identifiers e).Nodup ↔ UniqueIdentifiers e := by
  simp only [identifiers, List.Nodup, List.pairwise_flatMap, List.pairwise_map,
    List.pairwise_filter, List.forall_mem_map, List.mem_filter, and_imp, isIdentifier_iff]
  exact ⟨fun h => ⟨h.1, h.2⟩, fun h => ⟨h.within, h.between⟩⟩

instance (e : Xml.Element) : Decidable (UniqueIdentifiers e) :=
  decidable_of_iff _ nodup_identifiers_iff

/-- An `xml:id` inside repeats the `ID` of the outermost element; the name that it also has is no
identifier. -/
example :
    let outer (s : String) : Xml.Tag := ⟨⟨"", "a", false⟩, [], [⟨⟨"", "ID", false⟩, s⟩]⟩
    let inner : Xml.Tag :=
      ⟨⟨"", "b", false⟩, [], [⟨⟨"xml", "id", true⟩, "x"⟩, ⟨⟨"", "name", false⟩, "y"⟩]⟩
    ¬ UniqueIdentifiers ⟨outer "x", .element inner .nil .nil⟩
      ∧ UniqueIdentifiers ⟨outer "y", .element inner .nil .nil⟩ := by
  decide

/-! ## Transforms -/

/-- Is it the transform that leaves the signature out? -/
def LeavesOut (l : Located) : Prop := l.attribute? "Algorithm" = some envelopedTransform

instance (l : Located) : Decidable (LeavesOut l) :=
  inferInstanceAs (Decidable (_ = some envelopedTransform))

/-- The transforms that a reference lists. -/
def listedTransforms (reference : Located) : List Located :=
  match reference.childNamed? uri "Transforms" with
  | some l => l.childrenNamed uri "Transform"
  | none => []

/-- No canonicalizer leaves the signature out. -/
theorem namedCanonicalizer?_of_leavesOut {l : Located} (h : LeavesOut l) :
    namedCanonicalizer? l = none := by
  rw [namedCanonicalizer?, h]
  rfl

theorem Transforms.add_eq_ok_iff {t u : Transforms} {l : Located} :
    t.add l = .ok u ↔ (LeavesOut l ∧ u = { t with enveloped := true })
      ∨ ∃ c, namedCanonicalizer? l = some c ∧ u = { t with canonicalizer := some c } := by
  unfold Transforms.add
  rw [bind_eq_ok_iff]
  simp only [algorithmOf_eq_ok_iff]
  constructor
  · rintro ⟨algorithm, ha, h⟩
    split at h
    · next he =>
      rw [he] at ha
      exact Or.inl ⟨ha, (Except.ok.inj h).symm⟩
    · obtain ⟨c, hc, h⟩ := bind_eq_ok_iff.1 h
      rw [orUnsupported_eq_ok_iff] at hc
      exact Or.inr ⟨c, by rw [namedCanonicalizer?, ha]; exact hc, (Except.ok.inj h).symm⟩
  · rintro (⟨hl, rfl⟩ | ⟨c, hc, rfl⟩)
    · exact ⟨_, hl, if_pos rfl⟩
    · obtain ⟨algorithm, ha, hc'⟩ := Option.bind_eq_some_iff.1 hc
      have hne : algorithm ≠ envelopedTransform := by
        rintro rfl
        rw [namedCanonicalizer?_of_leavesOut ha] at hc
        exact absurd hc (by simp)
      refine ⟨algorithm, ha, ?_⟩
      rw [if_neg hne]
      exact bind_eq_ok_iff.2 ⟨c, orUnsupported_eq_ok_iff.2 hc', rfl⟩

namespace Transforms

/-- A transform that is accepted. -/
def IsKnown (l : Located) : Prop := LeavesOut l ∨ (namedCanonicalizer? l).isSome = true

/-- What more transforms make of the element: any may leave the signature out, and of the
canonicalizers the last counts. -/
def after (t : Transforms) (ls : List Located) : Transforms where
  enveloped := t.enveloped || ls.any fun l => decide (LeavesOut l)
  canonicalizer := (ls.filterMap namedCanonicalizer?).getLast?.or t.canonicalizer

theorem after_add {t u : Transforms} {l : Located} (h : t.add l = .ok u) (ls : List Located) :
    u.after ls = t.after (l :: ls) := by
  rcases add_eq_ok_iff.1 h with ⟨hl, rfl⟩ | ⟨c, hc, rfl⟩
  · have hnone := namedCanonicalizer?_of_leavesOut hl
    simp only [after, List.any_cons, List.filterMap_cons, hnone, decide_eq_true hl, Bool.true_or,
      Bool.or_true]
  · have hl : ¬ LeavesOut l := by
      intro hl
      rw [namedCanonicalizer?_of_leavesOut hl] at hc
      exact absurd hc (by simp)
    have hlast : (ls.filterMap namedCanonicalizer?).getLast?.or (some c)
        = ((c :: ls.filterMap namedCanonicalizer?).getLast?).or t.canonicalizer := by
      rw [List.getLast?_cons]
      cases (ls.filterMap namedCanonicalizer?).getLast? with
      | none => rfl
      | some d => rfl
    simp only [after, List.any_cons, List.filterMap_cons, hc, decide_eq_false hl, Bool.false_or,
      hlast]

theorem foldlM_add_eq_ok_iff {ls : List Located} {t u : Transforms} :
    ls.foldlM add t = .ok u ↔ (∀ l ∈ ls, IsKnown l) ∧ u = t.after ls := by
  induction ls generalizing t with
  | nil =>
    have hnil : t.after [] = t := by
      simp only [after, List.any_nil, Bool.or_false, List.filterMap_nil, List.getLast?_nil,
        Option.none_or]
    rw [List.foldlM_nil, hnil]
    constructor
    · intro h
      exact ⟨fun l hl => absurd hl (by simp), (Except.ok.inj h).symm⟩
    · rintro ⟨-, rfl⟩
      rfl
  | cons l ls ih =>
    rw [List.foldlM_cons, bind_eq_ok_iff, List.forall_mem_cons]
    constructor
    · rintro ⟨t', hadd, hrest⟩
      obtain ⟨hknown, rfl⟩ := ih.1 hrest
      refine ⟨⟨?_, hknown⟩, after_add hadd ls⟩
      rcases add_eq_ok_iff.1 hadd with ⟨hl, -⟩ | ⟨c, hc, -⟩
      · exact Or.inl hl
      · exact Or.inr (by rw [hc]; rfl)
    · rintro ⟨⟨hl, hknown⟩, rfl⟩
      obtain ⟨t', ht'⟩ : ∃ t', t.add l = .ok t' := by
        rcases hl with hl | hc
        · exact ⟨_, add_eq_ok_iff.2 (Or.inl ⟨hl, rfl⟩)⟩
        · obtain ⟨c, hc⟩ := Option.isSome_iff_exists.1 hc
          exact ⟨_, add_eq_ok_iff.2 (Or.inr ⟨c, hc, rfl⟩)⟩
      exact ⟨t', ht', ih.2 ⟨hknown, (after_add ht' ls).symm⟩⟩

end Transforms

/-! ## References -/

/-- What a reference says. -/
structure IsReference (l : Located) (r : Reference) : Prop where
  target : l.attribute? "URI" = some r.target
  known : ∀ t ∈ listedTransforms l, Transforms.IsKnown t
  enveloped : r.enveloped = true ↔ ∃ t ∈ listedTransforms l, LeavesOut t
  canonicalizer :
    ((listedTransforms l).filterMap namedCanonicalizer?).getLast? = some r.canonicalizer
  digestMethod : ∃ e, l.childNamed? uri "DigestMethod" = some e
    ∧ e.attribute? "Algorithm" = some r.digestMethod.uri
  digest : ∃ e, l.childNamed? uri "DigestValue" = some e ∧ octetsOf e = .ok r.digest

theorem transformsOf_eq_ok_iff {l : Located} {t : Transforms} :
    transformsOf l = .ok t ↔ (∀ e ∈ listedTransforms l, Transforms.IsKnown e)
      ∧ t = Transforms.after ⟨false, none⟩ (listedTransforms l) :=
  Transforms.foldlM_add_eq_ok_iff

/-- **A reference is read exactly if it says all of this.** -/
theorem Reference.read_eq_ok_iff {l : Located} {r : Reference} :
    Reference.read l = .ok r ↔ IsReference l r := by
  unfold Reference.read
  simp only [bind_eq_ok_iff, orRefuse_eq_ok_iff, orUnsupported_eq_ok_iff, algorithmOf_eq_ok_iff,
    child_eq_ok_iff, transformsOf_eq_ok_iff, DigestMethod.ofUri?_eq_some_iff]
  constructor
  · rintro ⟨target, ht, t, ⟨hknown, rfl⟩, c, hc, m, hm, algorithm, ha, digestMethod, rfl, e, he,
      digest, hd, h⟩
    obtain rfl := Except.ok.inj h
    refine ⟨ht, hknown, ?_, ?_, ⟨m, hm, ha⟩, ⟨e, he, hd⟩⟩
    · simp [Transforms.after]
    · rw [← hc, Transforms.after, Option.or_none]
  · intro h
    obtain ⟨m, hm, ha⟩ := h.digestMethod
    obtain ⟨e, he, hd⟩ := h.digest
    refine ⟨r.target, h.target, _, ⟨h.known, rfl⟩, r.canonicalizer, ?_, m, hm, _, ha,
      r.digestMethod, rfl, e, he, r.digest, hd, ?_⟩
    · rw [← h.canonicalizer, Transforms.after, Option.or_none]
    · have henv :
          (Transforms.after ⟨false, none⟩ (listedTransforms l)).enveloped = r.enveloped := by
        rw [Bool.eq_iff_iff, h.enveloped]
        simp [Transforms.after]
      rw [henv]
      rfl

theorem onlyReference_eq_ok_iff {ls : List Located} {l : Located} :
    onlyReference ls = .ok l ↔ ls = [l] := by
  unfold onlyReference
  split
  · exact ⟨fun h => absurd h refuse_ne_ok, fun h => absurd h (by simp)⟩
  · next r => rw [Except.ok.injEq, List.cons.injEq, and_iff_left rfl]
  · next hne => exact ⟨fun h => absurd h refuse_ne_ok, fun h => absurd h (hne l)⟩

/-! ## Signatures -/

namespace Enveloped

/-- What a signature says: its first `SignedInfo`, the value that signs it, and what the
`SignedInfo` says by its only reference. Nothing else in the signature counts. -/
structure IsSignature (l : Located) (s : Enveloped) : Prop where
  info : l.childNamed? uri "SignedInfo" = some s.info
  value : ∃ e, l.childNamed? uri "SignatureValue" = some e ∧ octetsOf e = .ok s.value
  canonicalizer : ∃ e, s.info.childNamed? uri "CanonicalizationMethod" = some e
    ∧ namedCanonicalizer? e = some s.canonicalizer
  method : ∃ e, s.info.childNamed? uri "SignatureMethod" = some e
    ∧ e.attribute? "Algorithm" = some s.method.uri
  reference : ∃ e, s.info.childrenNamed uri "Reference" = [e] ∧ IsReference e s.reference

/-- Where only one member passes a test, it is the first to pass. -/
theorem getElem?_eq_some_iff_eq_findIdx {α : Type} {p : α → Bool} {as : List α} {a : α}
    (h : as.filter p = [a]) (n : Nat) : as[n]? = some a ↔ n = as.findIdx p := by
  induction as generalizing n with
  | nil => exact absurd h (by simp)
  | cons b as ih =>
    have hpa : p a = true := by
      have hmem : a ∈ (b :: as).filter p := by rw [h]; exact List.mem_singleton_self a
      exact (List.mem_filter.1 hmem).2
    rw [List.findIdx_cons]
    by_cases hb : p b = true
    · rw [List.filter_cons_of_pos hb, List.cons.injEq] at h
      obtain ⟨rfl, hrest⟩ := h
      rw [hb, cond_true]
      cases n with
      | zero => simp
      | succ n =>
        have hnot : b ∉ as := fun hm => by
          have hmem : b ∈ as.filter p := List.mem_filter.2 ⟨hm, hpa⟩
          rw [hrest] at hmem
          exact absurd hmem (by simp)
        constructor
        · intro hn
          rw [List.getElem?_cons_succ] at hn
          exact absurd (List.mem_of_getElem? hn) hnot
        · intro hn
          exact absurd hn (by simp)
    · rw [List.filter_cons_of_neg hb] at h
      rw [Bool.not_eq_true] at hb
      rw [hb, cond_false]
      cases n with
      | zero =>
        rw [List.getElem?_cons_zero, Option.some.injEq]
        constructor
        · rintro rfl
          rw [hb] at hpa
          exact absurd hpa (by simp)
        · intro hn
          exact absurd hn (by simp)
      | succ n => rw [List.getElem?_cons_succ, ih h, Nat.add_right_cancel_iff]

theorem find_eq_ok_iff {signed signature : Located} {n : Nat} :
    find signed = .ok (n, signature)
      ↔ signed.childrenNamed uri "Signature" = [signature]
        ∧ signed.children[n]? = some signature := by
  unfold find
  split
  · next hnil =>
    rw [hnil]
    exact ⟨fun h => (nomatch h), fun h => absurd h.1 (by simp)⟩
  · next s hs =>
    have hindex : signed.children[n]? = some s
        ↔ n = signed.children.findIdx (·.isNamed uri "Signature") :=
      getElem?_eq_some_iff_eq_findIdx hs n
    rw [hs, Except.ok.injEq, Prod.mk.injEq, List.cons.injEq, and_iff_left rfl]
    constructor
    · rintro ⟨hn, rfl⟩
      exact ⟨rfl, hindex.2 hn.symm⟩
    · rintro ⟨rfl, hn⟩
      exact ⟨(hindex.1 hn).symm, rfl⟩
  · next hne => exact ⟨fun h => absurd h refuse_ne_ok, fun h => absurd h.1 (hne signature)⟩

/-- **A signature is read exactly if there is one in the element and it says all of this.** -/
theorem read_eq_ok_iff {signed : Located} {s : Enveloped} :
    read signed = .ok s ↔ ∃ signature, signed.childrenNamed uri "Signature" = [signature]
      ∧ signed.children[s.position]? = some signature ∧ IsSignature signature s := by
  unfold read
  simp only [bind_eq_ok_iff, orUnsupported_eq_ok_iff, algorithmOf_eq_ok_iff, child_eq_ok_iff,
    Method.ofUri?_eq_some_iff, onlyReference_eq_ok_iff, Reference.read_eq_ok_iff]
  constructor
  · rintro ⟨⟨n, signature⟩, hfind, info, hinfo, v, hv, value, hvalue, form, hform, a, ha, c, hc, m,
      hm, algorithm, halgorithm, method, rfl, r, hr, reference, href, h⟩
    obtain ⟨honly, hn⟩ := find_eq_ok_iff.1 hfind
    obtain rfl := Except.ok.inj h
    exact ⟨signature, honly, hn, hinfo, ⟨v, hv, hvalue⟩,
      ⟨form, hform, by rw [namedCanonicalizer?, ha]; exact hc⟩, ⟨m, hm, halgorithm⟩, ⟨r, hr, href⟩⟩
  · rintro ⟨signature, honly, hn, h⟩
    obtain ⟨v, hv, hvalue⟩ := h.value
    obtain ⟨form, hform, hc⟩ := h.canonicalizer
    obtain ⟨a, ha, hc⟩ := Option.bind_eq_some_iff.1 hc
    obtain ⟨m, hm, halgorithm⟩ := h.method
    obtain ⟨r, hr, href⟩ := h.reference
    exact ⟨(s.position, signature), find_eq_ok_iff.2 ⟨honly, hn⟩, s.info, h.info, v, hv, s.value,
      hvalue, form, hform, a, ha, s.canonicalizer, hc, m, hm, _, halgorithm, s.method, rfl, r, hr,
      s.reference, href, rfl⟩

/-! ## Verifying -/

/-- What holds of a document, an element in it and its signature where the signature is accepted
with some keys. -/
structure IsVerified (document : Xml.Element) (signed : Located) (keys : List Key)
    (s : Enveloped) : Prop where
  /-- No two elements of the document have the same identifier. -/
  identifiers : UniqueIdentifiers document
  /-- There is one signature in the element, and this is what it says. -/
  signature : ∃ l, signed.childrenNamed uri "Signature" = [l]
    ∧ signed.children[s.position]? = some l ∧ IsSignature l s
  /-- The reference names the element. -/
  target : ∃ identifier, signed.attribute? "ID" = some identifier ∧ identifier ≠ ""
    ∧ s.reference.target = "#" ++ identifier
  /-- The digest is that of the canonical form of the element, without the signature if the
  reference says so. -/
  digest : s.reference.digest = s.reference.digestMethod.digest.hash (Utf8.encode
    (s.reference.canonicalizer.canonicalize
      (if s.reference.enveloped then signed.erase [s.position] else signed)))
  /-- One of the keys verifies the canonical form of the `SignedInfo`. -/
  key : ∃ k ∈ keys, k.supports s.method = true
    ∧ k.verify s.method (Utf8.encode (s.canonicalizer.canonicalize s.info)) s.value = true

end Enveloped

theorem demand_eq_ok_iff {b : Bool} {f : CryptoFailure} {u : Unit} :
    demand b f = .ok u ↔ b = true := by
  unfold demand
  cases b with
  | true => simp
  | false => simp

theorem identifierOf_eq_ok_iff {l : Located} {i : String} :
    identifierOf l = .ok i ↔ l.attribute? "ID" = some i ∧ i ≠ "" := by
  rw [identifierOf, orFail_eq_ok_iff, Option.filter_eq_some_iff, bne_iff_ne]

theorem Enveloped.covers_iff {s : Enveloped} {i : String} {signed : Located} :
    s.covers i signed = true ↔ s.reference.target = "#" ++ i
      ∧ s.reference.digest
        = s.reference.digestMethod.digest.hash (Utf8.encode (s.signedText signed)) := by
  unfold covers
  rw [Bool.and_eq_true, beq_iff_eq, beq_iff_eq]
  exact and_congr_right fun _ => eq_comm

/-- Among the keys that support the method there is one, and one of them verifies the value. -/
theorem Enveloped.any_verifiedBy_iff {s : Enveloped} {keys : List Key} :
    ((keys.filter (·.supports s.method)).any s.verifiedBy) = true
      ↔ ∃ k ∈ keys, k.supports s.method = true
        ∧ k.verify s.method (Utf8.encode s.signedInfo) s.value = true := by
  rw [List.any_eq_true]
  constructor
  · rintro ⟨k, hk, hv⟩
    obtain ⟨hmem, hs⟩ := List.mem_filter.1 hk
    exact ⟨k, hmem, hs, hv⟩
  · rintro ⟨k, hmem, hs, hv⟩
    exact ⟨k, List.mem_filter.2 ⟨hmem, hs⟩, hv⟩

/-- **A signature is accepted exactly if all of this holds of it.** -/
theorem verify_eq_ok_iff {document : Xml.Element} {signed : Located} {keys : List Key}
    {m : Method} :
    verify document signed keys = .ok m
      ↔ ∃ s : Enveloped, s.IsVerified document signed keys ∧ s.method = m := by
  unfold verify
  constructor
  · intro h
    split at h
    · exact absurd h refuse_ne_ok
    · next hd =>
      rw [Bool.not_eq_true, Bool.not_eq_false'] at hd
      simp only [bind_eq_ok_iff, identifierOf_eq_ok_iff, Enveloped.read_eq_ok_iff,
        demand_eq_ok_iff, Enveloped.covers_iff, Enveloped.any_verifiedBy_iff] at h
      obtain ⟨i, ⟨hi, hne⟩, s, hs, -, ⟨ht, hdigest⟩, -, -, -, hk, h⟩ := h
      have hunique := nodup_identifiers_iff.1 ((distinct_iff_nodup _).1 hd)
      exact ⟨s, ⟨hunique, hs, ⟨i, hi, hne, ht⟩, hdigest, hk⟩, Except.ok.inj h⟩
  · rintro ⟨s, h, rfl⟩
    obtain ⟨i, hi, hne, ht⟩ := h.target
    have hd := (distinct_iff_nodup _).2 (nodup_identifiers_iff.2 h.identifiers)
    have hcandidates : (!(keys.filter (·.supports s.method)).isEmpty) = true := by
      obtain ⟨k, hk, hs, -⟩ := h.key
      have hmem : k ∈ keys.filter (·.supports s.method) := List.mem_filter.2 ⟨hk, hs⟩
      rw [Bool.not_eq_true', List.isEmpty_eq_false_iff]
      exact List.ne_nil_of_mem hmem
    rw [hd, Bool.not_true, if_neg (by simp)]
    simp only [bind_eq_ok_iff, identifierOf_eq_ok_iff, Enveloped.read_eq_ok_iff,
      demand_eq_ok_iff, Enveloped.covers_iff, Enveloped.any_verifiedBy_iff]
    exact ⟨i, ⟨hi, hne⟩, s, h.signature, (), ⟨ht, h.digest⟩, (), hcandidates, (), h.key, rfl⟩

end Credential.XmlSignature
