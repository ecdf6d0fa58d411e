import Credential.Proofs.Agreement
import Credential.Proofs.Xml.Comments
import Credential.XmlSignature.Enveloped

/-!
# Signatures and comments

Putting comments into a document does not change what a signature in it says, nor what it covers,
where canonical forms leave comments out (`verify_congr`). But the octets of a signature are those
in the first text of an element, and a comment divides texts. So comments must stay out of the
elements that hold octets (`holdsOctets`), while they may stand anywhere else, between the parts of
a signature too.
-/

namespace Credential.XmlSignature

open Xml (Located Canonicalizer)

/-- The names of elements that hold octets. -/
def octetNames : List String := ["SignatureValue", "DigestValue"]

/-- Does an element hold octets, by the declarations and the tag that it has? -/
def holdsOctets (scope : Xml.Scope) (t : Xml.Tag) : Bool :=
  scope.uri? t.name.nsPrefix == some uri && octetNames.contains t.name.localName

/-- The element without comments, but for those in elements that hold octets. -/
def bare (l : Located) : Located := l.uncommented holdsOctets

variable {l₁ l₂ : Located}

/-! ## Parts of a signature -/

/-- Elements that hold octets are the same if they are the same without comments. -/
theorem eq_of_bare_eq (h : bare l₁ = bare l₂) {name : String} (hn : name ∈ octetNames)
    (hnamed : l₁.isNamed uri name = true) : l₁ = l₂ := by
  have hclosed : holdsOctets l₁.scope l₁.element.tag = true := by
    rw [Located.isNamed, Bool.and_eq_true, beq_iff_eq, beq_iff_eq] at hnamed
    have huri : l₁.scope.uri? l₁.element.tag.name.nsPrefix = some uri := hnamed.1
    have hname : l₁.element.tag.name.localName = name := hnamed.2
    rw [holdsOctets, huri, hname, beq_self_eq_true, Bool.true_and, List.contains_iff_mem]
    exact hn
  refine (Located.eq_or_open h).resolve_right ?_
  rintro ⟨hopen, -⟩
  simp [hclosed] at hopen

theorem attribute?_congr (h : bare l₁ = bare l₂) : l₁.attribute? = l₂.attribute? := by
  have hbare : (bare l₁).attribute? = (bare l₂).attribute? := congrArg Located.attribute? h
  exact hbare

theorem childNamed?_congr (h : bare l₁ = bare l₂) (u name : String) :
    (l₁.childNamed? u name).map bare = (l₂.childNamed? u name).map bare := by
  rw [Located.childNamed?, Located.childNamed?, ← List.head?_map, ← List.head?_map]
  exact congrArg List.head? (Located.map_childrenNamed_congr h u name)

theorem agree_child (h : bare l₁ = bare l₂) (name : String) :
    Agree (fun a b => bare a = bare b) (child l₁ name) (child l₂ name) :=
  agree_orFail (childNamed?_congr h uri name) _

/-- The child that holds octets is the same. -/
theorem child_congr (h : bare l₁ = bare l₂) (name : String) (hn : name ∈ octetNames) :
    child l₁ name = child l₂ name := by
  rw [child, child]
  rcases cases_of_map_eq (childNamed?_congr h uri name) with ⟨h₁, h₂⟩ | ⟨a, b, h₁, h₂, hab⟩
  · rw [h₁, h₂]
  · have hmem : a ∈ l₁.childrenNamed uri name := List.mem_of_mem_head? h₁
    rw [h₁, h₂, eq_of_bare_eq hab hn (List.mem_filter.1 hmem).2]

theorem algorithmOf_congr : algorithmOf.FactorsThrough bare := by
  intro a b h
  have hname : (bare a).localName = (bare b).localName := congrArg Located.localName h
  have hname : a.localName = b.localName := hname
  rw [algorithmOf, algorithmOf, attribute?_congr h, hname]

theorem prefixesOf?_congr : prefixesOf?.FactorsThrough bare := by
  intro a b h
  unfold prefixesOf?
  rcases cases_of_map_eq (childNamed?_congr h Xml.exclusiveCanonical "InclusiveNamespaces") with
    ⟨h₁, h₂⟩ | ⟨c, d, h₁, h₂, hcd⟩
  · rw [h₁, h₂]
  · rw [h₁, h₂]
    exact congrArg (· "PrefixList") (attribute?_congr hcd)

theorem canonicalizerOf?_congr (algorithm : String) :
    (canonicalizerOf? algorithm).FactorsThrough bare := by
  intro a b h
  rw [canonicalizerOf?, canonicalizerOf?, prefixesOf?_congr h]

theorem add_congr (t : Transforms) : t.add.FactorsThrough bare := by
  intro a b h
  unfold Transforms.add
  rw [algorithmOf_congr h]
  refine bind_congr fun algorithm => ?_
  rw [canonicalizerOf?_congr algorithm h]

theorem transformsOf_congr : transformsOf.FactorsThrough bare := by
  intro a b h
  unfold transformsOf
  rcases cases_of_map_eq (childNamed?_congr h uri "Transforms") with
    ⟨h₁, h₂⟩ | ⟨c, d, h₁, h₂, hcd⟩
  · rw [h₁, h₂]
  · rw [h₁, h₂]
    exact foldlM_congr add_congr (Located.map_childrenNamed_congr hcd uri "Transform") _

theorem read_congr : Reference.read.FactorsThrough bare := by
  intro a b h
  unfold Reference.read
  rw [attribute?_congr h, transformsOf_congr h, child_congr h "DigestValue" (by decide)]
  refine bind_congr fun target => bind_congr fun transforms => bind_congr fun c =>
    (agree_child h "DigestMethod").bind_eq fun m n hmn => ?_
  rw [algorithmOf_congr hmn]

theorem agree_onlyReference {ls₁ ls₂ : List Located} (h : ls₁.map bare = ls₂.map bare) :
    Agree (fun a b => bare a = bare b) (onlyReference ls₁) (onlyReference ls₂) := by
  have hlength := congrArg List.length h
  rw [List.length_map, List.length_map] at hlength
  match ls₁, ls₂, h, hlength with
  | [], [], _, _ => exact .error _
  | [a], [b], h, _ => exact .ok (List.cons.inj h).1
  | _ :: _ :: _, _ :: _ :: _, _, _ => exact .error _

namespace Enveloped

/-- Both canonical forms leave out comments: that of what is signed and that of what is digested. -/
def LeavesOutComments (s : Enveloped) : Prop :=
  s.canonicalizer.comments = false ∧ s.reference.canonicalizer.comments = false

/-- The same signature, but for comments in what it signs. -/
structure Same (s t : Enveloped) : Prop where
  info : bare s.info = bare t.info
  rest : t = { s with info := t.info }

/-- The signature is found in the same place. -/
theorem agree_find (h : bare l₁ = bare l₂) :
    Agree (fun a b => a.1 = b.1 ∧ bare a.2 = bare b.2) (find l₁) (find l₂) := by
  have hchildren : l₁.children.map bare = l₂.children.map bare := Located.map_children_congr h
  have hindex : l₁.children.findIdx (·.isNamed uri "Signature")
      = l₂.children.findIdx (·.isNamed uri "Signature") := by
    have hfind := congrArg (List.findIdx (·.isNamed uri "Signature")) hchildren
    rw [List.findIdx_map, List.findIdx_map] at hfind
    exact hfind
  have hnamed := Located.map_childrenNamed_congr h uri "Signature"
  have hlength := congrArg List.length hnamed
  rw [List.length_map, List.length_map] at hlength
  unfold find
  match l₁.childrenNamed uri "Signature", l₂.childrenNamed uri "Signature", hnamed, hlength with
  | [], [], _, _ => exact .error _
  | [a], [b], hab, _ => exact .ok ⟨hindex, (List.cons.inj hab).1⟩
  | _ :: _ :: _, _ :: _ :: _, _, _ => exact .error _

/-- The signature is read the same way, part by part, or fails to be read for the same reason. -/
theorem agree_read (h : bare l₁ = bare l₂) : Agree Same (read l₁) (read l₂) := by
  refine (agree_find h).bind fun ⟨p, a⟩ ⟨q, b⟩ ⟨hpq, hab⟩ => ?_
  refine (agree_child hab "SignedInfo").bind fun i j hij => ?_
  -- the octets are in a child that is the very same, and all else is in the `SignedInfo`
  rw [child_congr hab "SignatureValue" (by decide)]
  refine Agree.bind_left fun v => Agree.bind_left fun value => ?_
  refine (agree_child hij "CanonicalizationMethod").bind fun m n hmn => ?_
  rw [algorithmOf_congr hmn]
  refine Agree.bind_left fun algorithm => ?_
  rw [canonicalizerOf?_congr algorithm hmn]
  refine Agree.bind_left fun c => (agree_child hij "SignatureMethod").bind fun m n hmn => ?_
  rw [algorithmOf_congr hmn]
  refine Agree.bind_left fun algorithm => Agree.bind_left fun method => ?_
  refine (agree_onlyReference (Located.map_childrenNamed_congr hij uri "Reference")).bind
    fun r s hrs => ?_
  rw [read_congr hrs]
  refine Agree.bind_left fun r => .ok ⟨hij, ?_⟩
  obtain rfl : p = q := hpq
  rfl

/-! ## What is signed -/

section

variable {s t : Enveloped}

theorem signedText_congr (hc : s.reference.canonicalizer.comments = false)
    (h : bare l₁ = bare l₂) : s.signedText l₁ = s.signedText l₂ := by
  unfold signedText
  split
  · exact Canonicalizer.canonicalize_congr hc (Located.uncommented_erase_congr h s.position)
  · exact Canonicalizer.canonicalize_congr hc h

theorem covers_congr (hst : s.Same t) (hc : s.reference.canonicalizer.comments = false)
    (h : bare l₁ = bare l₂) (identifier : String) :
    s.covers identifier l₁ = t.covers identifier l₂ := by
  rw [hst.rest, covers, signedText_congr hc h]
  rfl

theorem verifiedBy_congr (hst : s.Same t) (hc : s.canonicalizer.comments = false) :
    s.verifiedBy = t.verifiedBy := by
  have hinfo : s.signedInfo = t.signedInfo := by
    rw [hst.rest]
    exact Canonicalizer.canonicalize_congr hc hst.info
  funext k
  rw [verifiedBy, verifiedBy, hinfo, hst.rest]

end

end Enveloped

/-! ## Verifying -/

theorem identifiers_congr {e₁ e₂ : Xml.Element} (h : bare (.root e₁) = bare (.root e₂)) :
    identifiers e₁ = identifiers e₂ := by
  have htags : (bare (.root e₁)).element.tags = (bare (.root e₂)).element.tags :=
    congrArg (·.element.tags) h
  rw [bare, bare, Located.tags_uncommented, Located.tags_uncommented] at htags
  rw [identifiers, identifiers]
  exact congrArg _ htags

/-- **Comments make no difference to verifying a signature**, if its canonical forms leave them out
and they stand in no element that holds octets. -/
theorem verify_congr {document₁ document₂ : Xml.Element} (keys : List Key)
    (hd : bare (.root document₁) = bare (.root document₂)) (h : bare l₁ = bare l₂)
    (hc : ∀ s, Enveloped.read l₁ = .ok s → s.LeavesOutComments) :
    verify document₁ l₁ keys = verify document₂ l₂ keys := by
  unfold verify
  rw [identifiers_congr hd]
  split
  · rfl
  · rw [identifierOf, identifierOf, attribute?_congr h]
    refine bind_congr fun identifier => (Enveloped.agree_read h).with_ok.bind_eq ?_
    rintro s t ⟨hs, hst⟩
    obtain ⟨hinfo, hreference⟩ := hc s hs
    have hmethod : s.method = t.method := by rw [hst.rest]
    rw [Enveloped.covers_congr hst hreference h, Enveloped.verifiedBy_congr hst hinfo, hmethod]

end Credential.XmlSignature
