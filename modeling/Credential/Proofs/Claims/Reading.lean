import Credential.Claims.Basic
import Credential.Proofs.Outcome

/-!
# What claims are read from

Each registered claim is read from the value under its own name, and the other claims are the
members under other names (`ofMembers_eq_ok_iff`). An object that is refused is malformed input,
whatever the reason (`onlyMalformed_ofMembers`).
-/

namespace Credential

/-! ## Reasons -/

/-- If there is no result, the input is malformed. -/
def OnlyMalformed {α : Type} (x : Result α) : Prop :=
  ∀ e, x = .error e → ∃ cause, e = .malformed cause

namespace OnlyMalformed

variable {α β : Type}

theorem ok (a : α) : OnlyMalformed (.ok a) := fun _ h => nomatch h

theorem refuse (cause : Malformed) : OnlyMalformed (refuse cause : Result α) :=
  fun _ h => ⟨cause, (Except.error.inj h).symm⟩

theorem orRefuse (v : Option α) (cause : Malformed) : OnlyMalformed (orRefuse v cause) := by
  cases v with
  | none => exact refuse cause
  | some a => exact ok a

theorem bind {x : Result α} {f : α → Result β} (hx : OnlyMalformed x)
    (hf : ∀ a, OnlyMalformed (f a)) : OnlyMalformed (x >>= f) := by
  cases x with
  | error e =>
    obtain ⟨cause, rfl⟩ := hx e rfl
    exact refuse cause
  | ok a => exact hf a

theorem mapM {f : β → Result α} (hf : ∀ b, OnlyMalformed (f b)) (l : List β) :
    OnlyMalformed (l.mapM f) := by
  induction l with
  | nil => exact ok []
  | cons b l ih =>
    rw [List.mapM_cons]
    exact (hf b).bind fun a => ih.bind fun as => ok (a :: as)

end OnlyMalformed

theorem Identifier.onlyMalformed_ofString (kind : IdentifierKind) (s : String) :
    OnlyMalformed (Identifier.ofString kind s) := by
  unfold ofString
  split
  · exact .refuse _
  · exact .ok _

namespace Claims

variable {ms : Json.Members} {c : Claims}

/-! ## Dates by name -/

/-- The registered claims that are dates. -/
inductive DateClaim where
  | expiration | notBefore | issuedAt
  deriving DecidableEq

namespace DateClaim

def name : DateClaim → String
  | .expiration => "exp"
  | .notBefore => "nbf"
  | .issuedAt => "iat"

/-- The date of the claims. -/
def get? : DateClaim → Claims → Option Instant
  | .expiration, c => c.expiration
  | .notBefore, c => c.notBefore
  | .issuedAt, c => c.issuedAt

/-- The claims with the date. -/
def set (t : Option Instant) : DateClaim → Claims → Claims
  | .expiration, c => { c with expiration := t }
  | .notBefore, c => { c with notBefore := t }
  | .issuedAt, c => { c with issuedAt := t }

variable (d : DateClaim) (t : Option Instant) (c : Claims)

theorem get?_set : d.get? (d.set t c) = t := by cases d <;> rfl

theorem get?_set_of_ne {d d' : DateClaim} (h : d' ≠ d) : d'.get? (d.set t c) = d'.get? c := by
  cases d <;> cases d' <;> simp_all [get?, set]

theorem set_issuer : (d.set t c).issuer = c.issuer := by cases d <;> rfl

theorem set_subject : (d.set t c).subject = c.subject := by cases d <;> rfl

theorem set_audience : (d.set t c).audience = c.audience := by cases d <;> rfl

theorem set_jwtId : (d.set t c).jwtId = c.jwtId := by cases d <;> rfl

theorem set_other : (d.set t c).other = c.other := by cases d <;> rfl

theorem set_set (t' : Option Instant) : d.set t (d.set t' c) = d.set t c := by cases d <;> rfl

theorem set_get? : d.set (d.get? c) c = c := by cases d <;> rfl

end DateClaim

/-! ## The fields of an object -/

/-- What is read from an object: every claim from its own member. -/
structure ReadFrom (ms : Json.Members) (c : Claims) : Prop where
  issuer : readIdentifier .issuer ms "iss" = .ok c.issuer
  subject : readIdentifier .subject ms "sub" = .ok c.subject
  audience : readAudience ms = .ok c.audience
  date : ∀ d : DateClaim, readOptionalDate ms d.name = .ok (d.get? c)
  jwtId : readIdentifier .jwtId ms "jti" = .ok c.jwtId
  other : c.other = unregistered ms

/-- **Each claim is read from its own member.** -/
theorem ofMembers_eq_ok_iff : ofMembers ms = .ok c ↔ ReadFrom ms c := by
  simp only [ofMembers, bind_eq_ok_iff]
  constructor
  · rintro ⟨issuer, hissuer, subject, hsubject, audience, haudience, expiration, hexpiration,
      notBefore, hnotBefore, issuedAt, hissuedAt, jwtId, hjwtId, h⟩
    obtain rfl := Except.ok.inj h
    refine ⟨hissuer, hsubject, haudience, fun d => ?_, hjwtId, rfl⟩
    cases d with
    | expiration => exact hexpiration
    | notBefore => exact hnotBefore
    | issuedAt => exact hissuedAt
  · intro h
    refine ⟨_, h.issuer, _, h.subject, _, h.audience, _, h.date .expiration, _, h.date .notBefore,
      _, h.date .issuedAt, _, h.jwtId, ?_⟩
    rw [← h.other]
    rfl

/-! ## Members under other names -/

section

variable {ms' : Json.Members} {name : String} (h : ms'.get? name = ms.get? name)

include h

theorem readIdentifier_congr (kind : IdentifierKind) :
    readIdentifier kind ms' name = readIdentifier kind ms name := by
  rw [readIdentifier, readIdentifier, readText, readText, h]

theorem readOptionalDate_congr : readOptionalDate ms' name = readOptionalDate ms name := by
  rw [readOptionalDate, readOptionalDate, h]

end

theorem readAudience_congr {ms' : Json.Members} (h : ms'.get? "aud" = ms.get? "aud") :
    readAudience ms' = readAudience ms := by
  rw [readAudience, readAudience, h]

theorem unregistered_erase {name : String} (h : name ∈ registered) :
    unregistered (ms.erase name) = unregistered ms := by
  rw [unregistered, unregistered, Json.Members.erase, List.filter_filter]
  refine List.filter_congr fun m _ => ?_
  by_cases hm : m.1 = name
  · rw [hm, List.contains_iff_mem.2 h]
    rfl
  · rw [bne_iff_ne.2 hm, Bool.and_true]

theorem get?_erase_of_ne {name other : String} (h : other ≠ name) :
    (ms.erase name).get? other = ms.get? other := by
  rw [Json.Members.get?_erase, if_neg h.symm]

theorem readOptionalDate_erase {name : String} :
    readOptionalDate (ms.erase name) name = .ok none := by
  rw [readOptionalDate, Json.Members.get?_erase, if_pos rfl]

namespace DateClaim

theorem name_mem_registered (d : DateClaim) : d.name ∈ registered := by
  cases d <;> decide

theorem name_injective {d d' : DateClaim} (h : d.name = d'.name) : d = d' := by
  cases d <;> cases d' <;> simp_all [name]

end DateClaim

/-- **A date is read apart from the other claims.** -/
theorem readFrom_iff_erase (d : DateClaim) :
    ReadFrom ms c ↔ readOptionalDate ms d.name = .ok (d.get? c)
      ∧ ReadFrom (ms.erase d.name) (d.set none c) := by
  have hget (other : String) (h : other ≠ d.name) : (ms.erase d.name).get? other = ms.get? other :=
    get?_erase_of_ne h
  have hissuer := readIdentifier_congr (hget "iss" (by cases d <;> decide)) .issuer
  have hsubject := readIdentifier_congr (hget "sub" (by cases d <;> decide)) .subject
  have haudience := readAudience_congr (hget "aud" (by cases d <;> decide))
  have hjwtId := readIdentifier_congr (hget "jti" (by cases d <;> decide)) .jwtId
  have hdate {d' : DateClaim} (h : d' ≠ d) :=
    readOptionalDate_congr (hget d'.name fun hname => h (DateClaim.name_injective hname))
  have hother : unregistered (ms.erase d.name) = unregistered ms :=
    unregistered_erase d.name_mem_registered
  constructor
  · intro h
    refine ⟨h.date d, ⟨?_, ?_, ?_, fun d' => ?_, ?_, ?_⟩⟩
    · rw [hissuer, d.set_issuer, h.issuer]
    · rw [hsubject, d.set_subject, h.subject]
    · rw [haudience, d.set_audience, h.audience]
    · by_cases hd : d' = d
      · rw [hd, d.get?_set, readOptionalDate_erase]
      · rw [hdate hd, DateClaim.get?_set_of_ne _ _ hd, h.date d']
    · rw [hjwtId, d.set_jwtId, h.jwtId]
    · rw [hother, d.set_other, h.other]
  · rintro ⟨hd, h⟩
    refine ⟨?_, ?_, ?_, fun d' => ?_, ?_, ?_⟩
    · rw [← hissuer, h.issuer, d.set_issuer]
    · rw [← hsubject, h.subject, d.set_subject]
    · rw [← haudience, h.audience, d.set_audience]
    · by_cases hd' : d' = d
      · rw [hd', hd]
      · rw [← hdate hd', h.date d', DateClaim.get?_set_of_ne _ _ hd']
    · rw [← hjwtId, h.jwtId, d.set_jwtId]
    · rw [← hother, ← h.other, d.set_other]

/-- Without its member a date is missing. -/
theorem ReadFrom.get?_of_erased {d : DateClaim} (h : ReadFrom (ms.erase d.name) c) :
    d.get? c = none :=
  (Except.ok.inj (readOptionalDate_erase.symm.trans (h.date d))).symm

/-! ## Refused objects -/

theorem onlyMalformed_readText (ms : Json.Members) (name : String) :
    OnlyMalformed (readText ms name) := by
  unfold readText
  split
  · exact .ok _
  · exact .ok _
  · exact .ok _
  · exact .refuse _

theorem onlyMalformed_readIdentifier (kind : IdentifierKind) (ms : Json.Members) (name : String) :
    OnlyMalformed (readIdentifier kind ms name) := by
  refine (onlyMalformed_readText ms name).bind fun s => ?_
  cases s with
  | none => exact .ok none
  | some s => exact (Identifier.onlyMalformed_ofString kind s).bind fun i => .ok (some i)

theorem onlyMalformed_readAudience (ms : Json.Members) : OnlyMalformed (readAudience ms) := by
  unfold readAudience
  split
  · exact .ok _
  · exact .ok _
  · exact (Identifier.onlyMalformed_ofString .audience _).bind fun a => .ok [a]
  · refine .mapM (fun v => ?_) _
    unfold readAudienceEntry
    split
    · exact Identifier.onlyMalformed_ofString .audience _
    · exact .refuse _
  · exact .refuse _

theorem onlyMalformed_readDate (name : String) (v : Json) : OnlyMalformed (readDate name v) := by
  unfold readDate
  split
  · exact .orRefuse _ _
  · exact .refuse _

theorem onlyMalformed_readOptionalDate (ms : Json.Members) (name : String) :
    OnlyMalformed (readOptionalDate ms name) := by
  unfold readOptionalDate
  split
  · exact .ok _
  · exact .ok _
  · exact (onlyMalformed_readDate name _).bind fun t => .ok (some t)

/-- **An object is refused as malformed input only.** -/
theorem onlyMalformed_ofMembers (ms : Json.Members) : OnlyMalformed (ofMembers ms) :=
  (onlyMalformed_readIdentifier _ ms _).bind fun _ =>
    (onlyMalformed_readIdentifier _ ms _).bind fun _ =>
      (onlyMalformed_readAudience ms).bind fun _ =>
        (onlyMalformed_readOptionalDate ms _).bind fun _ =>
          (onlyMalformed_readOptionalDate ms _).bind fun _ =>
            (onlyMalformed_readOptionalDate ms _).bind fun _ =>
              (onlyMalformed_readIdentifier _ ms _).bind fun _ => .ok _

end Claims

end Credential
