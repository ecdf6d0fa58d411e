import Credential.Proofs.Checks

/-!
# Assertions are checked as claims are

An assertion and the claims that say the same (`Assertion.IsStatedBy`) are accepted or refused
alike, and for the same reason (`checkConditions_eq_verifyAt`): a claims verifier that asks for
neither an authorized party nor a nonce makes the checks of an assertion verifier, in the same
order, and others that cannot fail (`addsIdle_checks`). Those do not show.
-/

namespace Credential

/-- The second list has the checks of the first in their order, and others that do not fail. -/
inductive AddsIdle : List Check → List Check → Prop
  | nil : AddsIdle [] []
  | same (c : Check) {cs ds : List Check} (h : AddsIdle cs ds) : AddsIdle (c :: cs) (c :: ds)
  | idle {c : Check} (passes : c.fails = false) {cs ds : List Check} (h : AddsIdle cs ds) :
    AddsIdle cs (c :: ds)

namespace AddsIdle

variable {cs ds : List Check}

/-- The same checks come first. -/
theorem after (bs : List Check) (h : AddsIdle cs ds) : AddsIdle (bs ++ cs) (bs ++ ds) := by
  induction bs with
  | nil => exact h
  | cons b bs ih => exact ih.same b

/-- **A check that does not fail does not show.** -/
theorem runChecks_eq (h : AddsIdle cs ds) : runChecks cs = runChecks ds := by
  induction h with
  | nil => rfl
  | same c _ ih => rw [runChecks, runChecks, ih]
  | idle passes _ ih => rw [runChecks_cons_of_passes passes, ih]

end AddsIdle

namespace Saml

/-- The claims say what the assertion says, whatever else they say. -/
structure Assertion.IsStatedBy (a : Assertion) (c : Claims) : Prop where
  issuer : c.issuer = some a.issuer
  subject : c.subject.map (·.value) = some a.subject.value
  audience : c.audience = a.audiences
  expiration : c.expiration = a.expiration
  notBefore : c.notBefore = a.notBefore
  issuedAt : c.issuedAt = some a.issueInstant

/-- An assertion that was read has a subject with a name. -/
theorem Assertion.subject_ne_empty {l : Xml.Located} {a : Assertion} (h : ofElement l = .ok a) :
    a.subject.value ≠ "" := by
  unfold ofElement at h
  simp only [bind_eq_ok_iff] at h
  obtain ⟨_, -, _, -, _, -, _, -, about, -, subject, hsubject, _, -, _, -, _, -, _, -, _, -, _, -,
    _, -, h⟩ := h
  obtain rfl := Except.ok.inj h
  have hname : nameIdOf? about = some subject := orFail_eq_ok_iff.1 hsubject
  unfold nameIdOf? at hname
  split at hname
  · cases hname
  · split at hname
    · cases hname
    · next hne =>
      obtain rfl := Option.some.inj hname
      exact hne

/-- What an assertion that was read says can be stated by claims. -/
theorem Assertion.exists_isStatedBy {l : Xml.Located} {a : Assertion} (h : ofElement l = .ok a) :
    ∃ c, a.IsStatedBy c :=
  ⟨⟨some a.issuer, some ⟨a.subject.value, subject_ne_empty h⟩, a.audiences, a.expiration,
    a.notBefore, some a.issueInstant, none, []⟩, rfl, rfl, rfl, rfl, rfl, rfl⟩

namespace Verifier

variable {a : Assertion} {c : Claims}

/-- The checks of the claims are those of the assertion. That the subject is missing, or the party
or the nonce is another one, cannot be found. -/
theorem addsIdle_checks (h : a.IsStatedBy c) (v : Verifier) (skew : Duration) (now : Instant) :
    AddsIdle ((v.withSkew skew).checks a now)
      ((ClaimsVerifier.make v.issuer v.audience skew).checks c none now) := by
  obtain ⟨subject, hsubject, -⟩ := Option.map_eq_some_iff.1 h.subject
  have hissuer : (some a.issuer != some v.issuer) = (a.issuer != v.issuer) := by
    rw [bne, bne, Option.some_beq_some]
  unfold checks ClaimsVerifier.checks
  rw [h.issuer, hsubject, h.expiration, h.notBefore, h.issuedAt]
  show AddsIdle _ (⟨_, some a.issuer != some v.issuer⟩ :: _)
  rw [hissuer]
  refine .same _ <| .idle rfl ?_
  unfold ClaimsVerifier.audienceChecks
  rw [h.audience]
  refine .same _ <| .idle rfl <| .same _ ?_
  have hnonce : AddsIdle [] (ClaimsVerifier.nonceChecks c none) := .idle rfl <| .idle rfl .nil
  have htimes := hnonce.after
    (timeChecks a.expiration a.notBefore (some a.issueInstant) now (Window.clampSkew skew))
  rw [List.append_nil] at htimes
  exact htimes

/-- **An assertion is accepted or refused as claims that say the same are**, and for the same
reason. There are such claims for every assertion that was read. -/
theorem checkConditions_eq_verifyAt {l : Xml.Located} (h : Assertion.ofElement l = .ok a)
    (v : Verifier) (skew : Duration) (now : Instant) :
    (∃ c, a.IsStatedBy c)
      ∧ ∀ c, a.IsStatedBy c → (v.withSkew skew).checkConditions a now
        = (ClaimsVerifier.make v.issuer v.audience skew).verifyAt c none now := by
  refine ⟨Assertion.exists_isStatedBy h, fun c hc => ?_⟩
  rw [checkConditions_eq_runChecks, ClaimsVerifier.verifyAt_eq_runChecks]
  exact (addsIdle_checks hc v skew now).runChecks_eq

/-- The start of an element of an assertion. -/
def tag (name : String) (attributes : List (String × String)) : Xml.Tag where
  name := ⟨"", name, false⟩
  declarations := []
  attributes := attributes.map fun a => ⟨⟨"", a.1, false⟩, a.2⟩

/-- An assertion that is no longer valid, and that will only be issued. -/
def lapsed : Xml.Located where
  element := ⟨tag "Assertion" [("ID", "_1"), ("IssueInstant", "2030-01-01T00:00:00Z")],
    .element (tag "Issuer" []) (.text "https://login.example" .nil) <|
    .element (tag "Subject" []) (.element (tag "NameID" []) (.text "alice" .nil) <|
      .element (tag "SubjectConfirmation" [("Method", bearerMethod)]) .nil .nil) <|
    .element (tag "Conditions" [("NotOnOrAfter", "2020-01-01T00:00:00Z")])
      (.element (tag "AudienceRestriction" [])
        (.element (tag "Audience" []) (.text "https://sp.example" .nil) .nil) .nil) .nil⟩
  outer := [⟨"", uri⟩]

/-- A verifier of such assertions. -/
def expecting : Verifier where
  issuer := ⟨"https://login.example", by decide⟩
  audience := .singleton ⟨"https://sp.example", by decide⟩
  keys := [.rsa ⟨15, 3⟩]
  skew := Duration.ofSeconds 60
  skew_nonneg := by decide

/-- The assertion and the claims are both refused as expired, which is checked before the issue. -/
theorem checkConditions_lapsed :
    let now : Instant := ⟨1700000000, 0, by decide, by decide, by decide⟩
    ∃ a c, Assertion.ofElement lapsed = .ok a ∧ a.IsStatedBy c
      ∧ (expecting.withSkew (-1)).checkConditions a now = .error (.claim .expired)
      ∧ (ClaimsVerifier.make expecting.issuer expecting.audience (-1)).verifyAt c none now
        = .error (.claim .expired) := by
  intro now
  have hread : (match Assertion.ofElement lapsed with
      | .ok a => match (expecting.withSkew (-1)).checkConditions a now with
        | .error e => decide (e = .claim .expired)
        | .ok () => false
      | .error _ => false) = true := by
    decide +kernel
  split at hread
  · next a ha =>
    split at hread
    · next e he =>
      obtain rfl := of_decide_eq_true hread
      obtain ⟨⟨c, hc⟩, hagree⟩ := checkConditions_eq_verifyAt ha expecting (-1) now
      exact ⟨a, c, ha, hc, he, (hagree c hc).symm.trans he⟩
    · cases hread
  · cases hread

end Verifier

end Saml

end Credential
