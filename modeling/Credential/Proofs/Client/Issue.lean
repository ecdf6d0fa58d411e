import Credential.Client.Issue
import Credential.Proofs.Claims.Exact
import Credential.Proofs.Claims.Roundtrip
import Credential.Proofs.Client.Verifier

/-!
# Assertions that a client issues

A client issues an assertion about itself and may then say for how long it lasts and from when on it
is valid, several times and in any order; the last word on either counts
(`AssertionClaims.Lasts.exists_setAll?`). What it writes is read as it was meant
(`Terms.toClaims_assertion`), with its dates at the starts of their seconds, and these dates and the
audience alone decide, in exact time, whether its claims are accepted (`Terms.hold_of_issue`).

Every date loses its fraction of a second on the way, before the epoch as after it towards the past.
So an assertion may expire up to a second early, but it never looks as if it came from the future.
-/

namespace Credential

/-! ## The written object -/

namespace Client

namespace AssertionClaims

variable {c : AssertionClaims} {ms : Json.Members}

/-- The date of the assertion. -/
def date? (c : AssertionClaims) : Claims.DateClaim → Option Instant
  | .expiration => some c.expiration
  | .notBefore => c.notBefore
  | .issuedAt => some c.issuedAt

/-- The written object has each claim under its name and nothing else. A single audience is written
as a list too. -/
structure HoldsClaims (c : AssertionClaims) (ms : Json.Members) : Prop where
  issuer : ms.get? "iss" = some (.string c.clientId.value)
  subject : ms.get? "sub" = some (.string c.clientId.value)
  audience : ms.get? "aud" = some (.array (c.audience.map fun a => .string a.value))
  date : ∀ d : Claims.DateClaim, ms.get? d.name = (c.date? d).map Claims.dateJson
  jwtId : ms.get? "jti" = some (.string c.jwtId)
  other : Claims.unregistered ms = []

theorem holdsClaims_toMembers (c : AssertionClaims) : c.HoldsClaims c.toMembers := by
  constructor
  · simp [toMembers, Claims.get?_put]
  · simp [toMembers, Claims.get?_put]
  · simp [toMembers, Claims.get?_put]
  · intro d
    cases d <;> simp [toMembers, Claims.get?_put, Claims.DateClaim.name, date?, Json.Members.get?]
  · simp [toMembers, Claims.get?_put]
  · rw [toMembers]
    repeat rw [Claims.unregistered_put (by decide)]
    rfl

theorem HoldsClaims.readAudience (h : c.HoldsClaims ms) :
    Claims.readAudience ms = .ok c.audience := by
  rw [Claims.readAudience, h.audience]
  exact Claims.mapM_readAudienceEntry c.audience

/-! ## Settings -/

/-- What a client may say of an assertion after it is issued. -/
inductive Setting where
  | lifetime (lifetime : Duration)
  | notBefore (t : Instant)

namespace Setting

def lifetime? : Setting → Option Duration
  | .lifetime d => some d
  | .notBefore _ => none

def notBefore? : Setting → Option Instant
  | .lifetime _ => none
  | .notBefore t => some t

/-- The lifetimes that are said. -/
def lifetimes (l : List Setting) : List Duration := l.filterMap lifetime?

/-- The lifetime in the end, that of the issue unless another one is said. -/
def lastLifetime (first : Duration) (l : List Setting) : Duration :=
  (lifetimes l).getLast?.getD first

/-- The start in the end; without one the assertion is valid at once. -/
def lastNotBefore (l : List Setting) : Option Instant := (l.filterMap notBefore?).getLast?

variable (s : Setting) (l : List Setting)

theorem lastLifetime_cons (first : Duration) :
    lastLifetime first (s :: l) = lastLifetime (s.lifetime?.getD first) l := by
  simp only [lastLifetime, lifetimes, List.getLast?_filterMap, List.reverse_cons,
    List.findSome?_append, List.findSome?_singleton, Option.getD_or]

theorem lastNotBefore_cons : lastNotBefore (s :: l) = (lastNotBefore l).or s.notBefore? := by
  simp only [lastNotBefore, List.getLast?_filterMap, List.reverse_cons, List.findSome?_append,
    List.findSome?_singleton]

end Setting

/-- The assertion with a setting. -/
def set? (c : AssertionClaims) : Setting → Option AssertionClaims
  | .lifetime d => c.withLifetime d
  | .notBefore t => some (c.withNotBefore t)

/-- The assertion with several settings, one after the other. -/
def setAll? (c : AssertionClaims) (l : List Setting) : Option AssertionClaims := l.foldlM set? c

/-- The assertion expires a lifetime after its issue. -/
def Lasts (c : AssertionClaims) (lifetime : Duration) : Prop :=
  c.issuedAt.add? lifetime = some c.expiration

/-- Nothing that is said leads out of the calendar. -/
def CanSay (c : AssertionClaims) (l : List Setting) : Prop :=
  ∀ d ∈ Setting.lifetimes l, (c.issuedAt.add? d).isSome = true

/-- **A setting changes the end or the start**, and nothing else. -/
theorem Lasts.exists_set? {lifetime : Duration} {s : Setting} (h : c.Lasts lifetime)
    (hs : c.CanSay [s]) :
    ∃ e, c.set? s = some { c with expiration := e, notBefore := s.notBefore?.or c.notBefore }
      ∧ c.issuedAt.add? (s.lifetime?.getD lifetime) = some e := by
  cases s with
  | lifetime d =>
    obtain ⟨e, he⟩ := Option.isSome_iff_exists.1 (hs d (List.mem_singleton_self d))
    refine ⟨e, ?_, he⟩
    show (c.issuedAt.add? d).bind _ = _
    rw [he]
    rfl
  | notBefore t => exact ⟨c.expiration, rfl, h⟩

/-- **The last word counts.** Of several settings the last lifetime and the last start hold. -/
theorem Lasts.exists_setAll? {lifetime : Duration} {l : List Setting} (h : c.Lasts lifetime)
    (hl : c.CanSay l) :
    ∃ e, c.setAll? l
        = some { c with expiration := e, notBefore := (Setting.lastNotBefore l).or c.notBefore }
      ∧ c.issuedAt.add? (Setting.lastLifetime lifetime l) = some e := by
  induction l generalizing c lifetime with
  | nil => exact ⟨c.expiration, rfl, h⟩
  | cons s l ih =>
    have hsaid : Setting.lifetimes (s :: l) = Setting.lifetimes [s] ++ Setting.lifetimes l :=
      List.filterMap_append (l := [s])
    have hs : c.CanSay [s] := by
      intro d hd
      exact hl d (hsaid ▸ List.mem_append_left _ hd)
    have hrest : c.CanSay l := by
      intro d hd
      exact hl d (hsaid ▸ List.mem_append_right _ hd)
    obtain ⟨e, hset, hlasts⟩ := h.exists_set? hs
    obtain ⟨e', hall, hlasts'⟩ :=
      ih (c := { c with expiration := e, notBefore := s.notBefore?.or c.notBefore }) hlasts hrest
    refine ⟨e', ?_, ?_⟩
    · rw [Setting.lastNotBefore_cons, Option.or_assoc, setAll?, List.foldlM_cons, hset]
      exact hall
    · rw [Setting.lastLifetime_cons]
      exact hlasts'

end AssertionClaims

/-! ## Terms -/

/-- The terms on which a client speaks for itself. -/
structure Terms where
  clientId : ClientId
  audience : Audience
  issuedAt : Instant
  expiration : Instant
  notBefore : Option Instant
  jwtId : JwtId

namespace Terms

/-- The assertion that has these terms. -/
def assertion (t : Terms) : AssertionClaims where
  clientId := t.clientId
  audience := [t.audience]
  expiration := t.expiration
  issuedAt := t.issuedAt
  notBefore := t.notBefore
  jwtId := t.jwtId.value

/-- What a verifier is to read of it: dates are at the starts of their seconds. -/
def claims (t : Terms) : Claims where
  issuer := some ⟨t.clientId.value, t.clientId.value_ne_empty⟩
  subject := some ⟨t.clientId.value, t.clientId.value_ne_empty⟩
  audience := [t.audience]
  expiration := some t.expiration.floorSecond
  notBefore := t.notBefore.map Instant.floorSecond
  issuedAt := some t.issuedAt.floorSecond
  jwtId := some t.jwtId
  other := []

/-- **What is written is read as it was meant.** -/
theorem toClaims_assertion (t : Terms) : t.assertion.toClaims = .ok t.claims :=
  have hholds := t.assertion.holdsClaims_toMembers
  Claims.ofMembers_eq_ok_iff.2
    { issuer := Claims.readIdentifier_of_get? hholds.issuer
      subject := Claims.readIdentifier_of_get? hholds.subject
      audience := hholds.readAudience
      date := fun d => (Claims.readOptionalDate_of_get? (hholds.date d)).trans (by cases d <;> rfl)
      jwtId := Claims.readIdentifier_of_get? hholds.jwtId
      other := hholds.other.symm }

theorem outsideLeap_claims (t : Terms) : t.claims.OutsideLeap where
  expiration := fun _ he => Option.some.inj he ▸ t.expiration.isLeap_floorSecond
  notBefore := by
    intro n hn
    obtain ⟨n', -, rfl⟩ := Option.map_eq_some_iff.1 hn
    exact n'.isLeap_floorSecond
  issuedAt := fun _ hi => Option.some.inj hi ▸ t.issuedAt.isLeap_floorSecond

end Terms

/-! ## Deciding -/

namespace Verifier

variable {v : Verifier} {t : Terms} {now : Instant}

/-- The verifier expects the audience, and the instant lies between the dates, all of them at the
starts of their seconds, give or take the skew; time is exact. -/
structure AllowsFor (v : Verifier) (now : Instant) (t : Terms) : Prop where
  audience : t.audience ∈ v.audience.members
  issuedAt : t.issuedAt.floorSecond.total ≤ now.total + v.skew
  notBefore : ∀ n, t.notBefore = some n → n.floorSecond.total ≤ now.total + v.skew
  expiration : now.total < t.expiration.floorSecond.total + v.skew

/-- **The claims of an assertion pass exactly if its dates and its audience allow it.** -/
theorem exists_checkClaims_iff (hnow : now.isLeap = false) :
    (∃ a, v.checkClaims t.clientId t.claims now = .ok a) ↔ v.AllowsFor now t := by
  have hsame : (v.claimsVerifier t.clientId).skew = v.skew :=
    Int.max_eq_left v.skew_nonneg
  simp only [checkClaims_eq_ok_iff_admits,
    ClaimsVerifier.admits_iff_admitsExactly hnow t.outsideLeap_claims, hsame]
  constructor
  · rintro ⟨a, h, -⟩
    obtain ⟨x, hx, hmem⟩ := h.audience
    obtain rfl := List.mem_singleton.1 hx
    obtain ⟨e, he, hunexpired⟩ := h.expiration
    obtain rfl := Option.some.inj he
    refine ⟨hmem, h.issuedAt _ rfl, ?_, hunexpired⟩
    intro n hn
    exact h.notBefore _ (congrArg (Option.map Instant.floorSecond) hn)
  · intro h
    -- issuer and subject are the client, and neither a party nor a nonce is expected
    have hadmits : (v.claimsVerifier t.clientId).AdmitsExactly v.skew t.claims none now :=
      { issuer := rfl
        subject := rfl
        audience := ⟨t.audience, List.mem_singleton_self _, h.audience⟩
        authorizedParty := fun _ hclient => nomatch hclient
        expiration := ⟨_, rfl, h.expiration⟩
        notBefore := by
          intro n hn
          obtain ⟨n', hn', rfl⟩ := Option.map_eq_some_iff.1 hn
          exact h.notBefore n' hn'
        issuedAt := fun _ hi => Option.some.inj hi ▸ h.issuedAt
        nonce := fun _ hn => nomatch hn }
    exact ⟨_, hadmits, rfl, _, rfl, rfl⟩

/-- The one check that reports an issue in the future passes from the second of the issue on. -/
theorem passes_of_reports_issuedInFuture (h : t.issuedAt.second ≤ now.second) :
    ∀ k ∈ v.checks t.clientId t.claims now, k.reports = .claim .issuedInFuture →
      k.fails = false := by
  have hissued := Window.isIssuedInFuture_floorSecond
    (v.claimsVerifier t.clientId).skew_nonneg h
  simp [checks, ClaimsVerifier.checks, ClaimsVerifier.audienceChecks, timeChecks,
    ClaimsVerifier.nonceChecks, Terms.claims, hissued]

/-- **From the second of its issue on an assertion does not come from the future.** -/
theorem checkClaims_ne_issuedInFuture (h : t.issuedAt.second ≤ now.second) :
    v.checkClaims t.clientId t.claims now ≠ .error (.claim .issuedInFuture) := by
  rw [checkClaims_eq_runChecks]
  intro herror
  cases hruns : runChecks (v.checks t.clientId t.claims now) with
  | ok u =>
    rw [hruns] at herror
    cases herror
  | error e =>
    rw [hruns] at herror
    obtain rfl := Except.error.inj herror
    obtain ⟨k, hk, hreports, hfails⟩ := exists_fails_of_runChecks_eq_error hruns
    rw [passes_of_reports_issuedInFuture h k hk hreports] at hfails
    cases hfails

/-- The client may use its method, and one of its credentials verifies the assertion: only its
claims are left to check. -/
inductive Vouches (v : Verifier) (now : Instant) : Presented → Assertion → Prop
  | secretJwt {a : Assertion} {s : Secret} (method : v.checkMethod (.secretJwt a) = .ok ())
    (usable : s ∈ v.usableSecrets a.clientId .secretJwt now)
    (verified : a.token.verify (.ofSecret s) = .ok true) : Vouches v now (.secretJwt a) a
  | privateKeyJwt {a : Assertion} {k : Jws.Key}
    (method : v.checkMethod (.privateKeyJwt a) = .ok ()) (usable : k ∈ v.publicKeys a)
    (verified : a.token.verify k = .ok true) : Vouches v now (.privateKeyJwt a) a

/-- **An assertion that is vouched for is decided by its claims.** -/
theorem verifyAt_of_vouches {p : Presented} {a : Assertion} (h : v.Vouches now p a) :
    v.verifyAt p now = (do
      return ⟨a.clientId, p.method, some (← v.checkClaims a.clientId a.token.claims now)⟩) := by
  cases h with
  | @secretJwt _ s method usable verified =>
    have hkey : ∃ k ∈ (v.usableSecrets a.clientId .secretJwt now).map Jws.Key.ofSecret,
        a.token.verify k = .ok true :=
      ⟨.ofSecret s, List.mem_map_of_mem usable, verified⟩
    rw [verifyAt, method, ← checkAssertion_of_verified hkey]
    rfl
  | @privateKeyJwt _ k method usable verified =>
    have hkey : ∃ k ∈ v.publicKeys a, a.token.verify k = .ok true := ⟨k, usable, verified⟩
    rw [verifyAt, method, ← checkAssertion_of_verified hkey]
    rfl

theorem exists_verifyAt_iff {p : Presented} {a : Assertion} (h : v.Vouches now p a) :
    (∃ c, v.verifyAt p now = .ok c)
      ↔ ∃ b, v.checkClaims a.clientId a.token.claims now = .ok b := by
  rw [verifyAt_of_vouches h]
  constructor
  · rintro ⟨c, hc⟩
    obtain ⟨b, hb, -⟩ := bind_eq_ok_iff.1 hc
    exact ⟨b, hb⟩
  · rintro ⟨b, hb⟩
    exact ⟨_, bind_eq_ok_iff.2 ⟨b, hb, rfl⟩⟩

end Verifier

/-! ## Issued assertions -/

namespace Terms

open AssertionClaims (Setting)

/-- An assertion is read and decided by the terms that it was issued on. -/
structure Hold (t : Terms) : Prop where
  /-- What is written is read with the dates at the starts of their seconds. -/
  read : t.assertion.toClaims = .ok t.claims
  /-- These dates and the audience decide whether its claims pass. -/
  checked : ∀ (v : Verifier) now, now.isLeap = false →
    ((∃ a, v.checkClaims t.clientId t.claims now = .ok a) ↔ v.AllowsFor now t)
  /-- If a credential of the client vouches for it, they decide whether the client is
  authenticated. -/
  verified : ∀ (v : Verifier) now p a, now.isLeap = false → v.Vouches now p a →
    a.clientId = t.clientId → a.token.claims = t.claims →
      ((∃ c, v.verifyAt p now = .ok c) ↔ v.AllowsFor now t)
  /-- From the second of its issue on it does not come from the future, whatever the fractions. -/
  notFromFuture : ∀ (v : Verifier) now, t.issuedAt.second ≤ now.second →
    v.checkClaims t.clientId t.claims now ≠ .error (.claim .issuedInFuture)

theorem hold (t : Terms) : t.Hold where
  read := t.toClaims_assertion
  checked := fun _ _ hnow => Verifier.exists_checkClaims_iff hnow
  verified := by
    intro v now p a hnow hvouches hid hclaims
    rw [Verifier.exists_verifyAt_iff hvouches, hid, hclaims]
    exact Verifier.exists_checkClaims_iff hnow
  notFromFuture := fun _ _ h => Verifier.checkClaims_ne_issuedInFuture h

/-- **What a client issues is accepted on its terms.** It may be issued at any instant for a first
lifetime, five minutes unless said otherwise, and be told any settings after that, as long as no
lifetime leads out of the calendar; the last lifetime and the last start count. -/
theorem hold_of_issue (id : ClientId) (audience : Audience) (jwtId : JwtId) {issuedAt : Instant}
    {first : Duration} {l : List Setting}
    (hcalendar : ∀ d ∈ first :: Setting.lifetimes l, (issuedAt.add? d).isSome = true) :
    ∃ e, issuedAt.add? (Setting.lastLifetime first l) = some e ∧
      let t : Terms := ⟨id, audience, issuedAt, e, Setting.lastNotBefore l, jwtId⟩
      ((AssertionClaims.issue id [audience] issuedAt first jwtId.value).bind fun c =>
          c.setAll? l) = some t.assertion
        ∧ t.Hold := by
  obtain ⟨hfirst, hsaid⟩ := List.forall_mem_cons.1 hcalendar
  obtain ⟨e₀, he₀⟩ := Option.isSome_iff_exists.1 hfirst
  let t₀ : Terms := ⟨id, audience, issuedAt, e₀, none, jwtId⟩
  have hissue : AssertionClaims.issue id [audience] issuedAt first jwtId.value
      = some t₀.assertion := by
    rw [AssertionClaims.issue, he₀]
    rfl
  obtain ⟨e, hall, he⟩ := AssertionClaims.Lasts.exists_setAll? (c := t₀.assertion) he₀ hsaid
  refine ⟨e, he, ?_, hold _⟩
  rw [hissue, Option.bind_some, hall]
  exact congrArg (fun start => some (assertion ⟨id, audience, issuedAt, e, start, jwtId⟩))
    Option.or_none

/-- Half a second into the last second but one before the epoch, and a verifier without a skew: the
assertion is accepted as soon as it is issued, and no longer at the start of the second in which its
minute ends. -/
theorem hold_of_issue_beforeEpoch :
    let op : Audience := ⟨"https://op.example", by decide⟩
    let issuedAt : Instant := ⟨-2, 500000000, by decide, by decide, by decide⟩
    let first := AssertionClaims.defaultLifetime
    let l : List Setting :=
      [.lifetime (Duration.ofSeconds (-60)), .notBefore issuedAt, .lifetime (Duration.ofSeconds 60)]
    (∀ d ∈ first :: Setting.lifetimes l, (issuedAt.add? d).isSome = true)
      ∧ ∃ c claims, (AssertionClaims.issue Verifier.web [op] issuedAt first "1").bind
          (fun c => c.setAll? l) = some c
        ∧ c.toClaims = .ok claims
        ∧ (∃ a, Verifier.replacing.checkClaims Verifier.web claims issuedAt = .ok a)
        ∧ ¬ ∃ a, Verifier.replacing.checkClaims Verifier.web claims
            ⟨58, 0, by decide, by decide, by decide⟩ = .ok a := by
  intro op issuedAt first l
  have hcalendar : ∀ d ∈ first :: Setting.lifetimes l, (issuedAt.add? d).isSome = true := by
    decide
  obtain ⟨e, he, hissue, hhold⟩ := hold_of_issue Verifier.web op ⟨"1", by decide⟩ hcalendar
  have hend : issuedAt.add? (Setting.lastLifetime first l)
      = some ⟨58, 500000000, by decide, by decide, by decide⟩ := by decide
  obtain rfl := Option.some.inj (he.symm.trans hend)
  refine ⟨hcalendar, _, _, hissue, hhold.read, ?_, ?_⟩
  · refine (hhold.checked Verifier.replacing issuedAt rfl).2 ?_
    exact ⟨List.mem_singleton_self op, by decide, fun n hn => Option.some.inj hn ▸ by decide,
      by decide⟩
  · intro h
    have hallows := (hhold.checked Verifier.replacing _ rfl).1 h
    exact absurd hallows.expiration (by decide)

end Terms

end Client

end Credential
