import Credential.Jose.Token
import Credential.Proofs.Outcome

/-!
# What a token is read from

A token that is read is made of its own text: its segments in order are the text without the white
space around it, its header and claims are those of its own segments, and whether it is a signed
token is decided by its own header (`isIn_of_parse_signed`, `isIn_of_parse_unsecured`).
-/

namespace Credential

open Token

/-! ## Segments -/

/-- The segments with dots between them are the text. -/
theorem Token.text_of_segments {text a b c : String} (h : segments text = [a, b, c]) :
    a ++ "." ++ b ++ "." ++ c = Text.trim text := by
  unfold segments at h
  have hjoin := Text.join_pieces '.' (Text.trimChars text.toList)
  have hpieces : Text.pieces '.' (Text.trimChars text.toList) = [a.toList, b.toList, c.toList] := by
    have hmap := congrArg (List.map String.toList) h
    rw [List.map_map] at hmap
    have hid : String.toList ∘ String.ofList = id := funext fun cs => String.toList_ofList
    rw [hid, List.map_id] at hmap
    exact hmap
  rw [hpieces] at hjoin
  rw [Text.trim, ← hjoin, ← String.toList_inj, String.toList_ofList]
  simp only [String.toList_append, Text.join, List.append_assoc]
  rfl

theorem decodeSegment_eq_ok_iff {s : Segment} {text : String} {b : Bytes} :
    decodeSegment s text = .ok b ↔ Base64.decodeUrl text = some b := orRefuse_eq_ok_iff

/-- The claims are those that a segment holds. -/
def HoldsClaims (segment : String) (c : Claims) : Prop :=
  ∃ payload, Base64.decodeUrl segment = some payload ∧ Claims.parse payload = .ok c

/-! ## Tokens -/

/-- What holds of a signed token that was read from a text. -/
structure SignedToken.IsIn (text : String) (t : SignedToken) : Prop where
  text : t.text = Text.trim text
  header : JoseHeader.decode t.headerText = .ok t.header
  algorithm : t.header.algorithm = t.algorithm.name
  signed : t.algorithm ≠ .unsecured
  claims : HoldsClaims t.payloadText t.claims

/-- What holds of an unsecured token that was read from a text: the third segment is empty. -/
structure UnsecuredToken.IsIn (text : String) (t : UnsecuredToken) : Prop where
  segments : ∃ header payload, header ++ "." ++ payload ++ "." = Text.trim text
    ∧ JoseHeader.decode header = .ok t.header ∧ HoldsClaims payload t.claims
  algorithm : t.header.algorithm = Jws.Algorithm.unsecured.name

/-- Three segments are read as a token of which all of this holds. -/
theorem Token.ofThree_eq_ok {header payload signature : String} {t : Token}
    (h : ofThree header payload signature = .ok t) :
    ∃ parameters algorithm claims, JoseHeader.decode header = .ok parameters
      ∧ parameters.algorithm = algorithm.name ∧ HoldsClaims payload claims
      ∧ (algorithm = Jws.Algorithm.unsecured ∧ signature = "" ∧ t = .unsecured ⟨parameters, claims⟩
        ∨ algorithm ≠ .unsecured
          ∧ t = .signed ⟨header, payload, signature, parameters, algorithm, claims⟩) := by
  unfold ofThree at h
  simp only [bind_eq_ok_iff, decodeSegment_eq_ok_iff, Jws.Algorithm.parse_eq_ok_iff] at h
  obtain ⟨parameters, hp, algorithm, ha, b, hb, claims, hc, h⟩ := h
  refine ⟨parameters, algorithm, claims, hp, ha.symm, ⟨b, hb, hc⟩, ?_⟩
  split at h
  · next hu =>
    split at h
    · next hs => exact Or.inl ⟨hu, hs, (Except.ok.inj h).symm⟩
    · exact absurd h refuse_ne_ok
  · next hu =>
    split at h
    · exact absurd h refuse_ne_ok
    · obtain ⟨-, -, h⟩ := bind_eq_ok_iff.1 h
      exact Or.inr ⟨hu, (Except.ok.inj h).symm⟩

/-- What is made of five segments is an encrypted token. -/
theorem Token.exists_encrypted_of_ofFive {header encryptedKey iv ciphertext tag : String}
    {t : Token} (h : ofFive header encryptedKey iv ciphertext tag = .ok t) :
    ∃ e, t = .encrypted e := by
  unfold ofFive at h
  simp only [bind_eq_ok_iff] at h
  obtain ⟨_, -, _, -, _, -, _, -, _, -, _, -, _, -, _, -, h⟩ := h
  exact ⟨_, (Except.ok.inj h).symm⟩

/-- A token that is not encrypted has three segments. -/
theorem Token.exists_segments_of_parse {text : String} {t : Token} (h : Token.parse text = .ok t)
    (ht : ∀ e, t ≠ .encrypted e) :
    ∃ header payload signature, segments text = [header, payload, signature]
      ∧ ofThree header payload signature = .ok t := by
  unfold Token.parse ofSegments at h
  split at h
  · next header payload signature hs => exact ⟨header, payload, signature, hs, h⟩
  · obtain ⟨e, he⟩ := exists_encrypted_of_ofFive h
    exact absurd he (ht e)
  · exact absurd h refuse_ne_ok

/-- **A signed token is the text it was read from.** -/
theorem isIn_of_parse_signed {text : String} {t : SignedToken}
    (h : Token.parse text = .ok (.signed t)) : t.IsIn text := by
  obtain ⟨header, payload, signature, hs, h⟩ := exists_segments_of_parse h (fun e => by simp)
  obtain ⟨parameters, algorithm, claims, hp, ha, hc, ⟨-, -, ht⟩ | ⟨hne, ht⟩⟩ := ofThree_eq_ok h
  · exact absurd ht (by simp)
  · obtain rfl := Token.signed.inj ht
    exact ⟨text_of_segments hs, hp, ha, hne, hc⟩

/-- **An unsecured token is the text it was read from.** -/
theorem isIn_of_parse_unsecured {text : String} {t : UnsecuredToken}
    (h : Token.parse text = .ok (.unsecured t)) : t.IsIn text := by
  obtain ⟨header, payload, signature, hs, h⟩ := exists_segments_of_parse h (fun e => by simp)
  obtain ⟨parameters, algorithm, claims, hp, ha, hc, ⟨rfl, rfl, ht⟩ | ⟨-, ht⟩⟩ := ofThree_eq_ok h
  · obtain rfl := Token.unsecured.inj ht
    refine ⟨⟨header, payload, ?_, hp, hc⟩, ha⟩
    rw [← text_of_segments hs, String.append_empty]
  · exact absurd ht (by simp)

end Credential
