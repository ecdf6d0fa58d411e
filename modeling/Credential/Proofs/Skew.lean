import Mathlib.Data.List.Forall2
import Credential.Proofs.Checks
import Credential.Proofs.IdToken.Validator
import Credential.Proofs.Time.Window

/-!
# More skew

A clock skew is there to forgive clocks that disagree. More of it makes a verifier more tolerant of
time and of nothing else (`relaxedTo_of_skew_le`): what is accepted is accepted with the same value,
and where two skews give different results, the lesser one refuses for a reason of time, and the
greater one goes on to a later check or accepts.

The reason is that only time checks use the skew, and that one that passes with less skew passes
with more (`Check.Relaxes`). From there the law is one about lists of checks.
-/

namespace Credential

/-- What a verifier reports where only time is to blame. -/
def timeErrors : List Error :=
  [.claim .expired, .claim .notYetValid, .claim .issuedInFuture, .claim .authTimeTooOld]

/-- In an order of checks, the second error is reported by a later check than the first. -/
def IsLater (order : List Error) (d e : Error) : Prop := [d, e].Sublist order

/-- The second result is what a verifier says that is like the one that gives the first, but more
tolerant of time. -/
structure RelaxedTo {α : Type} (order : List Error) (strict lax : Result α) : Prop where
  of_ok : ∀ a, strict = .ok a → lax = .ok a
  of_ne : strict ≠ lax → ∃ e ∈ timeErrors, strict = .error e
    ∧ ((∃ a, lax = .ok a) ∨ ∃ e', lax = .error e' ∧ IsLater order e e')

namespace RelaxedTo

variable {α β : Type} {order : List Error} {x y : Result α}

theorem refl (x : Result α) : RelaxedTo order x x := ⟨fun _ h => h, fun h => absurd rfl h⟩

/-- A first check that passes changes nothing. -/
theorem cons (e : Error) (h : RelaxedTo order x y) : RelaxedTo (e :: order) x y where
  of_ok := h.of_ok
  of_ne := by
    intro hne
    obtain ⟨d, hd, hx, hy | ⟨e', hy, hlater⟩⟩ := h.of_ne hne
    · exact ⟨d, hd, hx, Or.inl hy⟩
    · exact ⟨d, hd, hx, Or.inr ⟨e', hy, hlater.cons e⟩⟩

/-- The same steps before change nothing. -/
theorem after (z : Result β) {f g : β → Result α} (h : ∀ b, RelaxedTo order (f b) (g b)) :
    RelaxedTo order (z >>= f) (z >>= g) := by
  cases z with
  | error e => exact refl _
  | ok b => exact h b

/-- The same step afterwards changes nothing, if it cannot fail. -/
theorem bind (h : RelaxedTo order x y) {f : α → Result β} (hf : ∀ a, y = .ok a → ∃ b, f a = .ok b) :
    RelaxedTo order (x >>= f) (y >>= f) where
  of_ok := by
    intro b hb
    obtain ⟨a, ha, hb⟩ := bind_eq_ok_iff.1 hb
    rw [h.of_ok a ha]
    exact hb
  of_ne := by
    intro hne
    obtain ⟨d, hd, rfl, ⟨a, rfl⟩ | ⟨e', rfl, hlater⟩⟩ := h.of_ne fun he => hne (by rw [he])
    · exact ⟨d, hd, rfl, Or.inl (hf a rfl)⟩
    · exact ⟨d, hd, rfl, Or.inr ⟨e', rfl, hlater⟩⟩

end RelaxedTo

/-! ## Checks -/

/-- The second check is the first, or it is a time check that fails only if the first does. -/
inductive Check.Relaxes : Check → Check → Prop
  | same (c : Check) : Relaxes c c
  | time {e : Error} {strict lax : Bool} (he : e ∈ timeErrors) (h : lax = true → strict = true) :
    Relaxes ⟨e, strict⟩ ⟨e, lax⟩

/-- Checks, one by one. -/
abbrev Relax : List Check → List Check → Prop := List.Forall₂ Check.Relaxes

theorem Relax.same (cs : List Check) : Relax cs cs := List.forall₂_same.2 fun c _ => .same c

theorem Relax.append {cs₁ cs₂ ds₁ ds₂ : List Check} (hc : Relax cs₁ cs₂) (hd : Relax ds₁ ds₂) :
    Relax (cs₁ ++ ds₁) (cs₂ ++ ds₂) := List.rel_append hc hd

/-- What is reported is what some check reports. -/
theorem mem_of_runChecks_eq_error {cs : List Check} {e : Error} (h : runChecks cs = .error e) :
    e ∈ cs.map Check.reports := by
  obtain ⟨c, hc, hreports, -⟩ := exists_fails_of_runChecks_eq_error h
  exact List.mem_map.2 ⟨c, hc, hreports⟩

/-- **Time checks that fail less often relax the whole list.** A check that no longer fails exposes
only what comes after it. -/
theorem Relax.relaxedTo {strict lax : List Check} (h : Relax strict lax) :
    RelaxedTo (lax.map Check.reports) (runChecks strict) (runChecks lax) := by
  induction h with
  | nil => exact .refl _
  | @cons c d cs ds hcd _ ih =>
    cases hd : d.fails with
    | true =>
      have hc : c.fails = true ∧ c.reports = d.reports := by
        cases hcd with
        | same => exact ⟨hd, rfl⟩
        | time he h => exact ⟨h hd, rfl⟩
      rw [runChecks_cons_of_fails hd, runChecks_cons_of_fails hc.1, hc.2]
      exact .refl _
    | false =>
      rw [runChecks_cons_of_passes hd]
      cases hc : c.fails with
      | false =>
        rw [runChecks_cons_of_passes hc]
        exact ih.cons _
      | true =>
        -- only a time check can have stopped to fail
        have he : c.reports ∈ timeErrors ∧ c.reports = d.reports := by
          cases hcd with
          | same => exact absurd (hc.symm.trans hd) (by decide)
          | time he h => exact ⟨he, rfl⟩
        rw [runChecks_cons_of_fails hc]
        refine ⟨fun _ h => (nomatch h), fun _ => ⟨c.reports, he.1, rfl, ?_⟩⟩
        cases hlax : runChecks ds with
        | ok u => exact Or.inl ⟨u, rfl⟩
        | error e =>
          refine Or.inr ⟨e, rfl, ?_⟩
          rw [he.2]
          exact (List.singleton_sublist.2 (mem_of_runChecks_eq_error hlax)).cons_cons d.reports

/-! ## Time checks -/

theorem any_of_imp {α : Type} {o : Option α} {p q : α → Bool}
    (hpq : ∀ a, p a = true → q a = true) (h : o.any p = true) : o.any q = true := by
  cases o with
  | none => exact h
  | some a => exact hpq a h

section

variable {s₁ s₂ : Int}

theorem relax_timeChecks (h₁ : 0 ≤ s₁) (h : s₁ ≤ s₂)
    (expiration notBefore issuedAt : Option Instant) (now : Instant) :
    Relax (timeChecks expiration notBefore issuedAt now s₁)
      (timeChecks expiration notBefore issuedAt now s₂) :=
  .cons (.same _) <|
    .cons (.time (by decide) (any_of_imp fun _ => Window.isExpired_of_le h₁ h)) <|
    .cons (.time (by decide) (any_of_imp fun _ => Window.isNotYetValid_of_le h₁ h)) <|
    .cons (.time (by decide) (any_of_imp fun _ => Window.isIssuedInFuture_of_le h₁ h)) .nil

/-- Only the checks of the validity window look at the skew. -/
theorem ClaimsVerifier.relax_checks (h₁ : 0 ≤ s₁) (h : s₁ ≤ s₂) (v : ClaimsVerifier) (c : Claims)
    (nonce : Option Nonce) (now : Instant) :
    Relax (({ v with skew := s₁, skew_nonneg := h₁ } : ClaimsVerifier).checks c nonce now)
      (({ v with skew := s₂, skew_nonneg := Int.le_trans h₁ h } : ClaimsVerifier).checks c nonce
        now) :=
  .cons (.same _) <| .cons (.same _) <| (Relax.same (v.audienceChecks c)).append <|
    (relax_timeChecks h₁ h c.expiration c.notBefore c.issuedAt now).append
      (Relax.same (nonceChecks c nonce))

theorem IdTokenValidator.authTooOld_eq_true_iff {t now : Instant} {age skew : Duration} :
    authTooOld t age skew now = true
      ↔ ∃ deadline, t.add? age = some deadline
        ∧ ∃ limit, deadline.add? skew = some limit ∧ limit < now := by
  unfold authTooOld
  cases t.add? age with
  | none => simp
  | some deadline =>
    rw [Option.bind_some]
    cases hlimit : deadline.add? skew with
    | none => simp [hlimit]
    | some limit => simp [hlimit]

/-- What was authenticated too long ago with more skew was so with less. -/
theorem IdTokenValidator.authTooOld_of_le (h₁ : 0 ≤ s₁) (h : s₁ ≤ s₂) {t now : Instant}
    {age : Duration} (ht : authTooOld t age s₂ now = true) : authTooOld t age s₁ now = true := by
  rw [authTooOld_eq_true_iff] at ht ⊢
  obtain ⟨deadline, hdeadline, hlimit⟩ := ht
  exact ⟨deadline, hdeadline,
    Instant.add?_before_of_le (fun _ _ hxy hy => Instant.lt_of_le_of_lt hxy hy) h₁ h hlimit⟩

end

/-! ## Verifiers -/

section

variable {s₁ s₂ : Int} (h : s₁ ≤ s₂) (now : Instant)
include h

theorem ClaimsVerifier.relaxedTo_verifyAt (v : ClaimsVerifier) (c : Claims) (nonce : Option Nonce) :
    RelaxedTo order ((v.withSkew s₁).verifyAt c nonce now)
      ((v.withSkew s₂).verifyAt c nonce now) := by
  rw [verifyAt_eq_runChecks, verifyAt_eq_runChecks]
  have hrelaxed := (relax_checks (Window.clampSkew_nonneg s₁) (Window.clampSkew_le h) v c nonce
    now).relaxedTo
  rw [map_reports_checks] at hrelaxed
  exact hrelaxed

theorem Saml.Verifier.relaxedTo_verifyAt (v : Verifier) (xml : String) :
    RelaxedTo order ((v.withSkew s₁).verifyAt xml now) ((v.withSkew s₂).verifyAt xml now) := by
  -- reading and the signature come first, and no skew is asked for there
  refine .after _ fun document => .after _ fun root => .after _ fun _ => .after _ fun a => ?_
  refine RelaxedTo.bind ?_ fun _ _ => ⟨a, rfl⟩
  rw [checkConditions_eq_runChecks, checkConditions_eq_runChecks]
  have hchecks : Relax ((v.withSkew s₁).checks a now) ((v.withSkew s₂).checks a now) :=
    .cons (.same _) <| Relax.append (.same _) <|
      relax_timeChecks (Window.clampSkew_nonneg s₁) (Window.clampSkew_le h) _ _ _ now
  have hrelaxed := hchecks.relaxedTo
  rw [map_reports_checks] at hrelaxed
  exact hrelaxed

end

/-! ### Clients -/

namespace Client.Verifier

variable {s₁ s₂ : Int} (h : s₁ ≤ s₂) (now : Instant) (v : Verifier)
include h

theorem relaxedTo_checkClaims (id : ClientId) (c : Claims) :
    RelaxedTo order ((v.withSkew s₁).checkClaims id c now)
      ((v.withSkew s₂).checkClaims id c now) := by
  rw [checkClaims_eq_runChecks, checkClaims_eq_runChecks]
  have hskew := Window.clampSkew_le (Window.clampSkew_le h)
  have hchecks : Relax ((v.withSkew s₁).checks id c now) ((v.withSkew s₂).checks id c now) :=
    (ClaimsVerifier.relax_checks (Window.clampSkew_nonneg _) hskew (v.claimsVerifier id) c none
      now).append (.same _)
  have hrelaxed := hchecks.relaxedTo
  rw [map_reports_checks] at hrelaxed
  exact hrelaxed.bind fun _ hu => exists_verifiedOf _ _ _ _ hu

theorem relaxedTo_checkAssertion (a : Assertion) (keys : List Jws.Key) :
    RelaxedTo order ((v.withSkew s₁).checkAssertion a keys now)
      ((v.withSkew s₂).checkAssertion a keys now) := by
  unfold checkAssertion
  split
  · exact .refl _
  · refine .after _ fun found => ?_
    cases found with
    | none => exact .refl _
    | some k => exact relaxedTo_checkClaims h now v a.clientId a.token.claims

/-- What is presented without an assertion has no time. -/
theorem relaxedTo_verifyAt (p : Presented) :
    RelaxedTo order ((v.withSkew s₁).verifyAt p now) ((v.withSkew s₂).verifyAt p now) := by
  refine .after (v.checkMethod p) fun _ => ?_
  cases p with
  | secretBasic id secret => exact .refl _
  | secretPost id secret => exact .refl _
  | secretJwt a => exact (relaxedTo_checkAssertion h now v a _).bind fun _ _ => ⟨_, rfl⟩
  | privateKeyJwt a => exact (relaxedTo_checkAssertion h now v a _).bind fun _ _ => ⟨_, rfl⟩
  | none id => exact .refl _

end Client.Verifier

/-! ### ID tokens -/

namespace IdTokenValidator

section

variable {σ : Type} (v : IdTokenValidator σ) (skew : Duration)

theorem signature_withSkew : (v.withSkew skew).signature = v.signature := rfl

theorem unwrap_withSkew (t : EncryptedToken) : (v.withSkew skew).unwrap t = v.unwrap t := rfl

end

variable {σ : Type} {s₁ s₂ : Int} (h : s₁ ≤ s₂) (v : IdTokenValidator σ) (nonce : Option Nonce)
  (now : Instant)
include h

theorem relaxedTo_verifyClaims (c : Claims) (algorithm : Jws.Algorithm) (keyId : Option String) :
    RelaxedTo order ((v.withSkew s₁).verifyClaims c algorithm keyId nonce now)
      ((v.withSkew s₂).verifyClaims c algorithm keyId nonce now) := by
  rw [verifyClaims_eq_runChecks, verifyClaims_eq_runChecks]
  -- the skew is clamped here, and once more by the claims verifier
  have hskew := Window.clampSkew_le h
  have hage : Check.Relaxes
      ⟨.claim .authTimeTooOld, v.maxAuthAge.any fun age =>
        (authTime? c).any fun t => authTooOld t age (Window.clampSkew s₁) now⟩
      ⟨.claim .authTimeTooOld, v.maxAuthAge.any fun age =>
        (authTime? c).any fun t => authTooOld t age (Window.clampSkew s₂) now⟩ :=
    .time (by decide) <| any_of_imp fun _ => any_of_imp fun _ =>
      authTooOld_of_le (Window.clampSkew_nonneg s₁) hskew
  have hchecks : Relax ((v.withSkew s₁).checks c nonce now) ((v.withSkew s₂).checks c nonce now) :=
    (ClaimsVerifier.relax_checks (Window.clampSkew_nonneg _) (Window.clampSkew_le hskew)
      v.renew.claimsVerifier c nonce now).append
      (.cons (.same _) <| .cons (.same _) <| .cons (.same _) <| .cons hage .nil)
  have hrelaxed := hchecks.relaxedTo
  rw [map_reports_checks] at hrelaxed
  exact hrelaxed.bind fun _ hu => exists_verifiedOf _ _ _ _ hu _ _

theorem relaxedTo_acceptSigned (t : SignedToken) (keys : List Jws.Key) :
    RelaxedTo order ((v.withSkew s₁).acceptSigned t keys nonce now)
      ((v.withSkew s₂).acceptSigned t keys nonce now) := by
  unfold acceptSigned
  split
  · exact .refl _
  · refine .after _ fun found => ?_
    cases found with
    | none => exact .refl _
    | some k => exact relaxedTo_verifyClaims h v nonce now t.claims t.algorithm _

theorem relaxedTo_validateUnsecured (t : UnsecuredToken) :
    RelaxedTo order ((v.withSkew s₁).validateUnsecured t nonce now)
      ((v.withSkew s₂).validateUnsecured t nonce now) := by
  unfold validateUnsecured
  rw [signature_withSkew, signature_withSkew]
  split
  · exact .refl _
  · exact relaxedTo_verifyClaims h v nonce now t.claims .unsecured none

/-- The source of the keys is asked the same. -/
theorem relaxedTo_validateSigned (t : SignedToken) (state : σ) :
    RelaxedTo order ((v.withSkew s₁).validateSigned t nonce now state).1
        ((v.withSkew s₂).validateSigned t nonce now state).1
      ∧ ((v.withSkew s₁).validateSigned t nonce now state).2
        = ((v.withSkew s₂).validateSigned t nonce now state).2 := by
  unfold validateSigned
  rw [signature_withSkew, signature_withSkew]
  cases v.signature with
  | none => exact ⟨.refl _, rfl⟩
  | some selector =>
    dsimp only
    split
    · exact ⟨.refl _, rfl⟩
    -- both ask for the same keys, so they go on in the same state
    · exact ⟨.after (selector.candidates t.header now state).1 fun keys =>
        relaxedTo_acceptSigned h v nonce now t keys, rfl⟩

theorem relaxedTo_validateAt (token : String) (state : σ) :
    RelaxedTo order ((v.withSkew s₁).validateAt token nonce now state).1
        ((v.withSkew s₂).validateAt token nonce now state).1
      ∧ ((v.withSkew s₁).validateAt token nonce now state).2
        = ((v.withSkew s₂).validateAt token nonce now state).2 := by
  unfold validateAt
  cases Token.parse token with
  | error e => exact ⟨.refl _, rfl⟩
  | ok parsed =>
    cases parsed with
    | unsecured t => exact ⟨relaxedTo_validateUnsecured h v nonce now t, rfl⟩
    | signed t => exact relaxedTo_validateSigned h v nonce now t state
    | encrypted t =>
      dsimp only
      rw [unwrap_withSkew, unwrap_withSkew]
      cases v.unwrap t with
      | error e => exact ⟨.refl _, rfl⟩
      | ok inner => exact relaxedTo_validateSigned h v nonce now inner state

end IdTokenValidator

/-! ## More skew -/

/-- **More skew makes every verifier more tolerant of time, and of nothing else.** -/
theorem relaxedTo_of_skew_le {s₁ s₂ : Duration} (h : s₁ ≤ s₂) (now : Instant) :
    (∀ (v : ClaimsVerifier) c nonce, RelaxedTo ClaimsVerifier.order
        ((v.withSkew s₁).verifyAt c nonce now) ((v.withSkew s₂).verifyAt c nonce now))
      ∧ (∀ (σ : Type) (v : IdTokenValidator σ) token nonce state,
        RelaxedTo IdTokenValidator.order ((v.withSkew s₁).validateAt token nonce now state).1
            ((v.withSkew s₂).validateAt token nonce now state).1
          ∧ ((v.withSkew s₁).validateAt token nonce now state).2
            = ((v.withSkew s₂).validateAt token nonce now state).2)
      ∧ (∀ (v : Client.Verifier) p, RelaxedTo Client.Verifier.order
        ((v.withSkew s₁).verifyAt p now) ((v.withSkew s₂).verifyAt p now))
      ∧ ∀ (v : Saml.Verifier) xml, RelaxedTo Saml.Verifier.order
        ((v.withSkew s₁).verifyAt xml now) ((v.withSkew s₂).verifyAt xml now) :=
  ⟨fun v c nonce => v.relaxedTo_verifyAt h now c nonce,
    fun _ v token nonce state => v.relaxedTo_validateAt h nonce now token state,
    fun v p => v.relaxedTo_verifyAt h now p, fun v xml => v.relaxedTo_verifyAt h now xml⟩

/-- At the end of the calendar claims are expired without a skew. Any skew leads out of the
calendar, and with one they lack the nonce. -/
theorem relaxedTo_expired :
    let v := IdTokenValidator.sharing.claimsVerifier
    let c : Claims := ⟨some v.issuer, some ⟨"alice", by decide⟩, v.audience.members, some .latest,
      none, none, none, []⟩
    let nonce : Option Nonce := some ⟨"n", by decide⟩
    (v.withSkew 0).verifyAt c nonce .latest = .error (.claim .expired)
      ∧ (v.withSkew 1).verifyAt c nonce .latest = .error (.claim .missingNonce)
      ∧ IsLater ClaimsVerifier.order (.claim .expired) (.claim .missingNonce) := by
  intro v c nonce
  have hstrict : (v.withSkew 0).verifyAt c nonce .latest = .error (.claim .expired) := rfl
  have hlax : (v.withSkew 1).verifyAt c nonce .latest = .error (.claim .missingNonce) := rfl
  have hle : (0 : Duration) ≤ 1 := by decide
  have hrelaxed := (relaxedTo_of_skew_le hle .latest).1 v c nonce
  rw [hstrict, hlax] at hrelaxed
  obtain ⟨e, -, he, ⟨a, ha⟩ | ⟨e', he', hlater⟩⟩ := hrelaxed.of_ne (by simp)
  · cases ha
  · obtain rfl := Except.error.inj he
    obtain rfl := Except.error.inj he'
    exact ⟨hstrict, hlax, hlater⟩

end Credential
