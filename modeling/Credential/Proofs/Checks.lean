import Credential.Client.Verifier
import Credential.IdToken.Validator
import Credential.Proofs.Claims.Verifier
import Credential.Saml.Verifier

/-!
# Verifiers as lists of checks

What a verifier says about claims, or about the conditions of an assertion, is what the first of its
checks that fails reports (`runChecks`). For each verifier this module gives the list and proves
that running it is the same; the order of the list, by what its checks report, is the verifier's
order.
-/

namespace Credential

/-- A check: the error that it reports, and whether it fails. -/
structure Check where
  reports : Error
  fails : Bool

/-- The first check that fails is reported. -/
def runChecks : List Check → Result Unit
  | [] => .ok ()
  | c :: cs => if c.fails then .error c.reports else runChecks cs

section

variable {c : Check} {cs : List Check}

theorem runChecks_cons_of_fails (h : c.fails = true) : runChecks (c :: cs) = .error c.reports :=
  if_pos h

theorem runChecks_cons_of_passes (h : c.fails = false) : runChecks (c :: cs) = runChecks cs :=
  if_neg (Bool.not_eq_true _ ▸ h)

end

/-- What is reported is what a check that fails reports. -/
theorem exists_fails_of_runChecks_eq_error {cs : List Check} {e : Error}
    (h : runChecks cs = .error e) : ∃ c ∈ cs, c.reports = e ∧ c.fails = true := by
  induction cs with
  | nil => cases h
  | cons c cs ih =>
    cases hc : c.fails with
    | true =>
      rw [runChecks_cons_of_fails hc] at h
      exact ⟨c, List.mem_cons_self, Except.error.inj h, hc⟩
    | false =>
      rw [runChecks_cons_of_passes hc] at h
      obtain ⟨d, hd, hfails⟩ := ih h
      exact ⟨d, List.mem_cons_of_mem c hd, hfails⟩

theorem runChecks_append (cs ds : List Check) :
    runChecks (cs ++ ds) = runChecks cs >>= fun _ => runChecks ds := by
  induction cs with
  | nil => rfl
  | cons c cs ih =>
    rw [List.cons_append, runChecks, runChecks, ih]
    cases c.fails with
    | true => rfl
    | false => rfl

/-! ## Violations -/

/-- A violation as a result. -/
def asResult (x : Except ClaimViolation Unit) : Result Unit :=
  match x with
  | .ok () => .ok ()
  | .error violation => .error (.claim violation)

theorem asResult_violatedIf (b : Bool) (v : ClaimViolation) :
    asResult (violatedIf b v) = runChecks [⟨.claim v, b⟩] := by
  cases b with
  | true => rfl
  | false => rfl

/-- Steps one after the other are lists of checks one after the other. -/
theorem asResult_bind_eq {x : Except ClaimViolation Unit} {f : Unit → Except ClaimViolation Unit}
    {cs ds : List Check} (hx : asResult x = runChecks cs) (hf : asResult (f ()) = runChecks ds) :
    asResult (x >>= f) = runChecks (cs ++ ds) := by
  rw [runChecks_append, ← hx, ← hf]
  cases x with
  | error v => rfl
  | ok u => rfl

theorem asResult_violatedIf_bind {b : Bool} {v : ClaimViolation}
    {f : Unit → Except ClaimViolation Unit} {cs : List Check}
    (hf : asResult (f ()) = runChecks cs) :
    asResult (violatedIf b v >>= f) = runChecks (⟨.claim v, b⟩ :: cs) :=
  asResult_bind_eq (asResult_violatedIf b v) hf

/-! ## The validity window -/

/-- The checks of the validity window. -/
def timeChecks (expiration notBefore issuedAt : Option Instant) (now : Instant) (skew : Duration) :
    List Check :=
  [⟨.claim .missingExpiration, expiration.isNone⟩,
    ⟨.claim .expired, expiration.any fun e => Window.isExpired e now skew⟩,
    ⟨.claim .notYetValid, notBefore.any fun n => Window.isNotYetValid n now skew⟩,
    ⟨.claim .issuedInFuture, issuedAt.any fun i => Window.isIssuedInFuture i now skew⟩]

/-! ## Claims -/

namespace ClaimsVerifier

variable (v : ClaimsVerifier) (c : Claims) (nonce : Option Nonce) (now : Instant)

def audienceChecks : List Check :=
  [⟨.claim .missingAudience, c.audience.isEmpty⟩,
    ⟨.claim .authorizedPartyMismatch, v.authorizedParty.any fun client =>
      1 < c.audience.length && c.text? "azp" != some client.value⟩,
    ⟨.claim .audienceMismatch, !v.audience.intersects c.audience⟩]

def nonceChecks : List Check :=
  [⟨.claim .missingNonce, nonce.isSome && (c.text? "nonce").isNone⟩,
    ⟨.claim .nonceMismatch, nonce.any fun n => c.text? "nonce" != some n.value⟩]

/-- The checks of the claims, in order. -/
def checks : List Check :=
  ⟨.claim .missingOrWrongIssuer, c.issuer != some v.issuer⟩
    :: ⟨.claim .missingSubject, c.subject.isNone⟩
    :: (v.audienceChecks c
      ++ (timeChecks c.expiration c.notBefore c.issuedAt now v.skew ++ nonceChecks c nonce))

/-- The order of the checks, by what they report. -/
def order : List Error :=
  [.claim .missingOrWrongIssuer, .claim .missingSubject, .claim .missingAudience,
    .claim .authorizedPartyMismatch, .claim .audienceMismatch, .claim .missingExpiration,
    .claim .expired, .claim .notYetValid, .claim .issuedInFuture, .claim .missingNonce,
    .claim .nonceMismatch]

theorem map_reports_checks : (v.checks c nonce now).map Check.reports = order := rfl

theorem asResult_checkAudience : asResult (v.checkAudience c) = runChecks (v.audienceChecks c) := by
  unfold checkAudience audienceChecks
  refine asResult_violatedIf_bind ?_
  cases v.authorizedParty with
  | none => exact asResult_violatedIf _ _
  | some client => exact asResult_violatedIf_bind (asResult_violatedIf _ _)

theorem asResult_checkTimes :
    asResult (v.checkTimes c now)
      = runChecks (timeChecks c.expiration c.notBefore c.issuedAt now v.skew) := by
  unfold checkTimes timeChecks
  cases c.expiration with
  | none => rfl
  | some e =>
    refine asResult_violatedIf_bind ?_
    cases c.notBefore with
    | none =>
      cases c.issuedAt with
      | none => rfl
      | some i => exact asResult_violatedIf _ _
    | some n =>
      refine asResult_violatedIf_bind ?_
      cases c.issuedAt with
      | none => rfl
      | some i => exact asResult_violatedIf _ _

theorem asResult_checkNonce : asResult (checkNonce c nonce) = runChecks (nonceChecks c nonce) := by
  unfold checkNonce nonceChecks
  cases nonce with
  | none => rfl
  | some n =>
    cases c.text? "nonce" with
    | none => rfl
    | some s => exact asResult_violatedIf _ _

/-- **A claims verifier reports the first of its checks that fails.** -/
theorem verifyAt_eq_runChecks : v.verifyAt c nonce now = runChecks (v.checks c nonce now) := by
  have hverify : v.verifyAt c nonce now = asResult (v.check c nonce now) := rfl
  rw [hverify]
  exact asResult_violatedIf_bind (asResult_violatedIf_bind (asResult_bind_eq
    (v.asResult_checkAudience c) (asResult_bind_eq (v.asResult_checkTimes c now)
      (asResult_checkNonce c nonce))))

end ClaimsVerifier

/-! ## Assertions -/

namespace Saml.Verifier

variable (v : Verifier) (a : Assertion) (now : Instant)

/-- The checks of the conditions, in order. -/
def checks : List Check :=
  ⟨.claim .missingOrWrongIssuer, a.issuer != v.issuer⟩
    :: ([⟨.claim .missingAudience, a.audiences.isEmpty⟩,
        ⟨.claim .audienceMismatch, !v.audience.intersects a.audiences⟩]
      ++ timeChecks a.expiration a.notBefore (some a.issueInstant) now v.skew)

/-- The order of the checks, by what they report. -/
def order : List Error :=
  [.claim .missingOrWrongIssuer, .claim .missingAudience, .claim .audienceMismatch,
    .claim .missingExpiration, .claim .expired, .claim .notYetValid, .claim .issuedInFuture]

theorem map_reports_checks : (v.checks a now).map Check.reports = order := rfl

theorem asResult_checkTimes :
    asResult (v.checkTimes a now)
      = runChecks (timeChecks a.expiration a.notBefore (some a.issueInstant) now v.skew) := by
  unfold checkTimes timeChecks
  cases a.expiration with
  | none => rfl
  | some e =>
    refine asResult_violatedIf_bind ?_
    cases a.notBefore with
    | none => exact asResult_violatedIf _ _
    | some n => exact asResult_violatedIf_bind (asResult_violatedIf _ _)

/-- **The conditions of an assertion are refused for the first check that fails.** -/
theorem checkConditions_eq_runChecks : v.checkConditions a now = runChecks (v.checks a now) := by
  have hcheck : v.checkConditions a now = asResult (v.check a now) := rfl
  have haudience : asResult (v.checkAudience a)
      = runChecks [⟨.claim .missingAudience, a.audiences.isEmpty⟩,
        ⟨.claim .audienceMismatch, !v.audience.intersects a.audiences⟩] :=
    asResult_violatedIf_bind (asResult_violatedIf _ _)
  rw [hcheck]
  exact asResult_violatedIf_bind (asResult_bind_eq haudience (v.asResult_checkTimes a now))

end Saml.Verifier

/-! ## Clients -/

namespace Client.Verifier

variable (v : Verifier) (id : ClientId) (c : Claims) (now : Instant)

/-- The checks of the claims that a client makes, in order. -/
def checks : List Check :=
  (v.claimsVerifier id).checks c none now
    ++ [⟨.claim .subjectMismatch, c.subject.map (·.value) != some id.value⟩]

/-- The order of the checks, by what they report. -/
def order : List Error := ClaimsVerifier.order ++ [.claim .subjectMismatch]

theorem map_reports_checks : (v.checks id c now).map Check.reports = order := rfl

/-- What the claims say once they are verified. -/
def verifiedOf : Result VerifiedAssertion :=
  orFail (c.expiration.map fun e => ⟨id, e, c⟩) (.claim .missingExpiration)

/-- **The claims of a client are refused for the first check that fails.** -/
theorem checkClaims_eq_runChecks :
    v.checkClaims id c now = runChecks (v.checks id c now) >>= fun _ => verifiedOf id c := by
  rw [checkClaims, checks, runChecks_append, ClaimsVerifier.verifyAt_eq_runChecks]
  cases runChecks ((v.claimsVerifier id).checks c none now) with
  | error e => rfl
  | ok u =>
    show (if c.subject.map (·.value) ≠ some id.value then _ else _)
      = runChecks [⟨.claim .subjectMismatch, c.subject.map (·.value) != some id.value⟩] >>= fun _ =>
        verifiedOf id c
    by_cases hsub : c.subject.map (·.value) = some id.value
    · rw [if_neg (not_not_intro hsub), runChecks_cons_of_passes (bne_eq_false_iff_eq.2 hsub)]
      unfold verifiedOf
      cases c.expiration with
      | none => rfl
      | some e => rfl
    · rw [if_pos hsub, runChecks_cons_of_fails (bne_iff_ne.2 hsub)]
      rfl

/-- Where no check fails there is a value. -/
theorem exists_verifiedOf {u : Unit} (h : runChecks (v.checks id c now) = .ok u) :
    ∃ a, verifiedOf id c = .ok a := by
  rw [checks, runChecks_append, bind_eq_ok_iff] at h
  obtain ⟨_, hclaims, -⟩ := h
  rw [← ClaimsVerifier.verifyAt_eq_runChecks, ClaimsVerifier.verifyAt_eq_ok_iff] at hclaims
  obtain ⟨e, he, -⟩ := hclaims.expiration
  exact ⟨⟨id, e, c⟩, by rw [verifiedOf, he]; rfl⟩

end Client.Verifier

/-! ## ID tokens -/

/-- A claim that is no date is refused as none or as one that is out of the calendar. -/
theorem Claims.date?_eq_error {c : Claims} {name : String} {e : Error}
    (h : c.date? name = .error e) :
    e = .malformed (.claimNotDate name) ∨ e = .malformed (.dateOutOfRange name) := by
  unfold Claims.date? at h
  split at h
  · cases h
  · next x hx =>
    cases x with
    | number n =>
      cases hd : Claims.dateOfNumber? n with
      | none =>
        rw [Claims.readDate, hd] at h
        exact Or.inr (Except.error.inj h).symm
      | some t =>
        rw [Claims.readDate, hd] at h
        cases h
    | _ => exact Or.inl (Except.error.inj h).symm

namespace IdTokenValidator

variable {σ : Type} (v : IdTokenValidator σ) (c : Claims) (nonce : Option Nonce) (now : Instant)

/-- Does reading the time of authentication fail for this reason? -/
def authTimeRefusedFor (e : Error) : Bool :=
  match c.date? "auth_time" with
  | .ok _ => false
  | .error e' => e' = e

/-- The time of authentication, where it can be read. -/
def authTime? : Option Instant := (c.date? "auth_time").toOption.join

/-- The checks of the time of authentication. -/
def authChecks : List Check :=
  [⟨.malformed (.claimNotDate "auth_time"),
      authTimeRefusedFor c (.malformed (.claimNotDate "auth_time"))⟩,
    ⟨.malformed (.dateOutOfRange "auth_time"),
      authTimeRefusedFor c (.malformed (.dateOutOfRange "auth_time"))⟩,
    ⟨.claim .missingAuthTime, v.maxAuthAge.isSome && (authTime? c).isNone⟩,
    ⟨.claim .authTimeTooOld, v.maxAuthAge.any fun age =>
      (authTime? c).any fun t => authTooOld t age v.skew now⟩]

/-- The checks of the claims of a token, in order. -/
def checks : List Check := v.claimsVerifier.checks c nonce now ++ v.authChecks c now

/-- The order of the checks, by what they report. -/
def order : List Error :=
  ClaimsVerifier.order ++ [.malformed (.claimNotDate "auth_time"),
    .malformed (.dateOutOfRange "auth_time"), .claim .missingAuthTime, .claim .authTimeTooOld]

theorem map_reports_checks : (v.checks c nonce now).map Check.reports = order := rfl

/-- What the claims say once they are verified. -/
def verifiedOf (algorithm : Jws.Algorithm) (keyId : Option String) : Result VerifiedIdToken := do
  let claims ← VerifiedClaims.ofClaims c
  return { claims, algorithm, keyId }

theorem runChecks_authChecks_of_error {e : Error} (h : c.date? "auth_time" = .error e) :
    runChecks (v.authChecks c now) = .error e := by
  unfold authChecks authTimeRefusedFor
  rw [h]
  rcases Claims.date?_eq_error h with rfl | rfl
  · exact runChecks_cons_of_fails rfl
  · rw [runChecks_cons_of_passes rfl]
    exact runChecks_cons_of_fails rfl

theorem checkAuthAge_eq_runChecks {d : VerifiedClaims} (h : c.date? "auth_time" = .ok d.authTime) :
    v.checkAuthAge d now = runChecks (v.authChecks c now) := by
  unfold checkAuthAge authChecks authTimeRefusedFor authTime?
  rw [h]
  cases v.maxAuthAge with
  | none => rfl
  | some age =>
    cases d.authTime with
    | none => rfl
    | some t =>
      show (if authTooOld t age v.skew now then _ else _)
        = runChecks [⟨.claim .authTimeTooOld, authTooOld t age v.skew now⟩]
      cases authTooOld t age v.skew now with
      | true => rfl
      | false => rfl

/-- Nothing is missing in claims that a verifier admits; they are verified if the time of
authentication is a date. -/
theorem ofClaims_of_admits {w : ClaimsVerifier} (h : w.Admits c nonce now) :
    ∃ issuer subject expiration, VerifiedClaims.ofClaims c = (do
      let authTime ← c.date? "auth_time"
      return { issuer, subject, expiration, authTime, claims := c }) := by
  obtain ⟨subject, hsubject⟩ := Option.isSome_iff_exists.1 h.subject
  obtain ⟨e, he, -⟩ := h.expiration
  refine ⟨w.issuer, subject, e, ?_⟩
  rw [VerifiedClaims.ofClaims, h.issuer, hsubject, he]

/-- **The claims of a token are refused for the first check that fails.** -/
theorem verifyClaims_eq_runChecks (algorithm : Jws.Algorithm) (keyId : Option String) :
    v.verifyClaims c algorithm keyId nonce now
      = runChecks (v.checks c nonce now) >>= fun _ => verifiedOf c algorithm keyId := by
  rw [verifyClaims, checks, runChecks_append, ← ClaimsVerifier.verifyAt_eq_runChecks]
  cases hclaims : v.claimsVerifier.verifyAt c nonce now with
  | error e => rfl
  | ok u =>
    obtain ⟨issuer, subject, expiration, hof⟩ :=
      ofClaims_of_admits c nonce now (ClaimsVerifier.verifyAt_eq_ok_iff.1 hclaims)
    unfold verifiedOf
    rw [hof]
    -- of what is needed only the time of authentication may not be there
    cases hdate : c.date? "auth_time" with
    | error e =>
      show .error e = runChecks (v.authChecks c now) >>= _
      rw [v.runChecks_authChecks_of_error c now hdate]
      rfl
    | ok t =>
      show v.checkAuthAge ⟨issuer, subject, expiration, t, c⟩ now >>= _
        = runChecks (v.authChecks c now) >>= _
      rw [v.checkAuthAge_eq_runChecks c now (d := ⟨issuer, subject, expiration, t, c⟩) hdate]
      rfl

/-- Where no check fails there is a value. -/
theorem exists_verifiedOf {u : Unit} (h : runChecks (v.checks c nonce now) = .ok u)
    (algorithm : Jws.Algorithm) (keyId : Option String) :
    ∃ t, verifiedOf c algorithm keyId = .ok t := by
  rw [checks, runChecks_append, bind_eq_ok_iff] at h
  obtain ⟨_, hclaims, hauth⟩ := h
  rw [← ClaimsVerifier.verifyAt_eq_runChecks, ClaimsVerifier.verifyAt_eq_ok_iff] at hclaims
  obtain ⟨issuer, subject, expiration, hof⟩ := ofClaims_of_admits c nonce now hclaims
  cases hdate : c.date? "auth_time" with
  | error e =>
    rw [v.runChecks_authChecks_of_error c now hdate] at hauth
    cases hauth
  | ok t =>
    rw [hdate] at hof
    exact ⟨⟨⟨issuer, subject, expiration, t, c⟩, algorithm, keyId⟩, by rw [verifiedOf, hof]; rfl⟩

end IdTokenValidator

end Credential
