import Credential.Jwk.Selection
import Mathlib.Data.List.Basic

/-!
# What the keys of a set serve

The type of a key decides which family of algorithms it serves, and on a curve even the algorithm
(`ServesBoth`). So no key serves algorithms of two families, whatever the headers ask for: a secret
is never offered as a public key, and no public key as a secret.

A set is asked key by key. Asking for an id leaves out the keys that have another one and nothing
else (`select_some`), and what is asked of two sets one after the other may be asked of both at once
(`select_append`).
-/

namespace Credential

open Jws (Algorithm Family)

namespace Jwk

/-! ## Types of keys -/

/-- The family of algorithms that keys of the type are for. -/
def Material.family : Material → Family
  | .ec _ _ _ => .ec
  | .rsa _ _ => .rsa
  | .octets _ => .hmac
  | .octetPair _ _ => .ed

/-- The key is a secret, to be known to the parties only. -/
inductive Material.IsSecret : Material → Prop
  | octets (key : String) : IsSecret (.octets key)

/-- The key is a point on a curve. -/
inductive Material.IsPoint : Material → Prop
  | ec (curve : CurveName) (x y : String) : IsPoint (.ec curve x y)
  | octetPair (curve : CurveName) (x : String) : IsPoint (.octetPair curve x)

/-- The algorithm of a type on a curve, if there is one. -/
def Material.curveAlgorithm? : Material → Option Algorithm
  | .ec .p256 _ _ => some .es256
  | .ec .p384 _ _ => some .es384
  | .ec .p521 _ _ => some .es512
  | .octetPair .ed25519 _ => some .edDsa
  | _ => none

variable {m : Material} {k : Jwk} {a b : Algorithm} {wanted wanted' : Option String}

theorem Material.isSecret_iff : m.IsSecret ↔ m.family = .hmac := by
  cases m with
  | octets key => exact iff_of_true (.octets key) rfl
  | ec curve x y => exact iff_of_false (fun h => nomatch h) (fun h => nomatch h)
  | rsa modulus exponent => exact iff_of_false (fun h => nomatch h) (fun h => nomatch h)
  | octetPair curve x => exact iff_of_false (fun h => nomatch h) (fun h => nomatch h)

/-- A key fits the algorithms of its own family only. -/
theorem family_of_fits (h : fits m a = true) : a.family = m.family := by
  unfold fits at h
  split at h
  · exact of_decide_eq_true h
  · exact of_decide_eq_true h
  · rfl
  · rfl
  · rfl
  · rfl
  · cases h

/-- A point fits the algorithm of its curve only. -/
theorem curveAlgorithm?_of_fits (hm : m.IsPoint) (h : fits m a = true) :
    m.curveAlgorithm? = some a := by
  unfold fits at h
  split at h
  · nomatch hm
  · nomatch hm
  · rw [of_decide_eq_true h, Material.curveAlgorithm?]
  · rw [of_decide_eq_true h, Material.curveAlgorithm?]
  · rw [of_decide_eq_true h, Material.curveAlgorithm?]
  · rw [of_decide_eq_true h, Material.curveAlgorithm?]
  · cases h

/-! ## Serving -/

/-- A key that names an algorithm allows no other. -/
theorem ofName?_of_allows {name : String} (hname : k.algorithm = some name)
    (h : k.allows a = true) : Algorithm.ofName? name = some a := by
  rw [allows, hname] at h
  exact Algorithm.ofName?_eq_some_iff.2 (of_decide_eq_true (Bool.and_eq_true_iff.1 h).1).symm

theorem serves_iff :
    k.serves a wanted = true
      ↔ fits k.material a = true ∧ (k.use = none ∨ k.use = some "sig") ∧ k.allows a = true
        ∧ ∀ id, wanted = some id → k.keyId = some id := by
  have hid : (wanted.isNone = true ∨ k.keyId = wanted)
      ↔ ∀ id, wanted = some id → k.keyId = some id := by
    cases wanted with
    | none => exact iff_of_true (Or.inl rfl) fun id h => nomatch h
    | some id => simp
  simp only [serves, Bool.and_eq_true, Bool.or_eq_true, decide_eq_true_eq, hid, and_assoc]

/-- Asking for an id asks nothing else of a key. -/
theorem serves_some (k : Jwk) (a : Algorithm) (id : String) :
    k.serves a (some id) = (k.serves a none && decide (k.keyId = some id)) := by
  simp [serves]

/-- What holds of a key that serves an algorithm and perhaps another, each under the id that a token
may ask for. -/
structure ServesBoth (k : Jwk) (a b : Algorithm) (wanted wanted' : Option String) : Prop where
  family : a.family = b.family
  /-- Secrets are for keyed hashes, and nothing else is. -/
  secret : k.material.IsSecret ↔ a.family = .hmac
  algorithm : k.material.IsPoint ∨ k.algorithm ≠ none → a = b
  use : k.use = none ∨ k.use = some "sig"
  keyId : ∀ id, wanted = some id ∨ wanted' = some id → k.keyId = some id

theorem servesBoth (h : k.serves a wanted = true) (h' : k.serves b wanted' = true) :
    k.ServesBoth a b wanted wanted' := by
  obtain ⟨hfits, huse, hallows, hid⟩ := serves_iff.1 h
  obtain ⟨hfits', -, hallows', hid'⟩ := serves_iff.1 h'
  refine ⟨?_, ?_, ?_, huse, fun id hwanted => hwanted.elim (hid id) (hid' id)⟩
  · rw [family_of_fits hfits, family_of_fits hfits']
  · rw [Material.isSecret_iff, family_of_fits hfits]
  · rintro (hpoint | hnamed)
    · have hb := curveAlgorithm?_of_fits hpoint hfits'
      rw [curveAlgorithm?_of_fits hpoint hfits] at hb
      exact Option.some.inj hb
    · obtain ⟨name, hname⟩ := Option.ne_none_iff_exists'.1 hnamed
      have hb := ofName?_of_allows hname hallows'
      rw [ofName?_of_allows hname hallows] at hb
      exact Option.some.inj hb

end Jwk

/-! ## Selecting -/

theorem Jws.Key.keyId_of_ofJwk? {jwk : Jwk} {key : Jws.Key} (h : Jws.Key.ofJwk? jwk = some key) :
    key.keyId = jwk.keyId := by
  obtain ⟨material, -, h⟩ := Option.bind_eq_some_iff.1 h
  obtain rfl := Option.some.inj h
  rfl

namespace JwkSet

variable {s : JwkSet} {a : Algorithm} {wanted : Option String}

/-- The keys of one set and then those of another. -/
instance : Append JwkSet := ⟨fun s t => ⟨s.keys ++ t.keys⟩⟩

theorem mem_select_iff {key : Jws.Key} :
    key ∈ s.select a wanted
      ↔ ∃ k ∈ s.keys, k.serves a wanted = true ∧ Jws.Key.ofJwk? k = some key := by
  simp only [select, List.mem_filterMap, List.mem_filter, and_assoc]

theorem select_append (s t : JwkSet) (a : Algorithm) (wanted : Option String) :
    (s ++ t).select a wanted = s.select a wanted ++ t.select a wanted := by
  show ((s.keys ++ t.keys).filter _).filterMap _ = _
  rw [List.filter_append, List.filterMap_append]
  rfl

/-- **Asking for an id leaves out the keys that have another one.** -/
theorem select_some (s : JwkSet) (a : Algorithm) (id : String) :
    s.select a (some id) = (s.select a none).filter fun key => key.keyId = some id := by
  simp only [select, List.filterMap_filter, List.filter_filterMap]
  refine List.filterMap_congr fun k _ => ?_
  rw [Jwk.serves_some]
  cases k.serves a none with
  | false => rfl
  | true =>
    cases hkey : Jws.Key.ofJwk? k with
    | none => simp
    | some key => simp [Option.filter, ← Jws.Key.keyId_of_ofJwk? hkey]

/-- **No key serves algorithms of two families, and a set is asked key by key.** -/
theorem serves_one_family (s t : JwkSet) (a b : Algorithm) (wanted wanted' : Option String) :
    (∀ k ∈ s.keys, k.serves a wanted = true → k.serves b wanted' = true →
        k.ServesBoth a b wanted wanted')
      ∧ (∀ key, key ∈ s.select a wanted
        ↔ ∃ k ∈ s.keys, k.serves a wanted = true ∧ Jws.Key.ofJwk? k = some key)
      ∧ (∀ id, s.select a (some id) = (s.select a none).filter fun key => key.keyId = some id)
      ∧ (s ++ t).select a wanted = s.select a wanted ++ t.select a wanted :=
  ⟨fun _ _ h h' => Jwk.servesBoth h h', fun _ => mem_select_iff, select_some s a,
    select_append s t a wanted⟩

/-- Keys of all types under one id, and one under another: some for signing, one that is not, one
that cannot be decoded. -/
def mixed : JwkSet :=
  ⟨[⟨.octets "c2VjcmV0", none, none, some "k"⟩, ⟨.rsa "AQAB" "AQAB", some "sig", none, some "k"⟩,
    ⟨.ec .p256 "AQ" "Ag", none, some "ES256", some "k"⟩, ⟨.octets "!", none, none, some "k"⟩,
    ⟨.octetPair .ed25519 "AQ", some "enc", none, some "k"⟩,
    ⟨.octets "Y29uZmlkZW50aWFs", none, some "HS256", some "other"⟩]⟩

/-- The RSA key serves two algorithms of its family, and for keyed hashes the secrets are asked. -/
theorem serves_one_family_mixed :
    let k : Jwk := ⟨.rsa "AQAB" "AQAB", some "sig", none, some "k"⟩
    k ∈ mixed.keys ∧ k.serves .rs256 (some "k") = true ∧ k.serves .ps512 none = true
      ∧ k.ServesBoth .rs256 .ps512 (some "k") none
      ∧ mixed.select .hs256 none
        = [⟨.secret (Utf8.encode "secret"), some "k"⟩,
          ⟨.secret (Utf8.encode "confidential"), some "other"⟩]
      ∧ mixed.select .hs256 (some "k") = [⟨.secret (Utf8.encode "secret"), some "k"⟩] := by
  intro k
  have hmem : k ∈ mixed.keys := by decide
  have hrs : k.serves .rs256 (some "k") = true := by decide
  have hps : k.serves .ps512 none = true := by decide
  have hall : mixed.select .hs256 none
      = [⟨.secret (Utf8.encode "secret"), some "k"⟩,
        ⟨.secret (Utf8.encode "confidential"), some "other"⟩] := by decide +kernel
  refine ⟨hmem, hrs, hps,
    (serves_one_family mixed mixed .rs256 .ps512 (some "k") none).1 k hmem hrs hps, hall, ?_⟩
  rw [(serves_one_family mixed mixed .hs256 .hs256 none none).2.2.1 "k", hall]
  decide +kernel

end JwkSet

end Credential
