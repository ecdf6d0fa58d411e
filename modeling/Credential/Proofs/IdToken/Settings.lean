import Credential.IdToken.Validator
import Mathlib.Data.List.Sort

/-!
# The settings of an ID token validator

A validator is made for an issuer and a client and is then told settings, one after the other
(`Setting`). Some of what it is told it holds twice: as settings of its own, and in the verifier for
claims that it made from them. The two stay in step (`InStep`), since what the verifier depends on
is set only together with a new verifier.

So only what the settings come to counts, not their order: of the skews, decryptions and ages the
last one, of the audiences all (`setAll_reflects`).
-/

namespace Credential

/-! ## Sets of audiences -/

/-- Sets with the same members are equal. -/
theorem AudienceSet.ext_mem {s t : AudienceSet} (h : ∀ a, a ∈ s.members ↔ a ∈ t.members) :
    s = t := by
  have hirrefl : Std.Irrefl fun a b : Audience => a < b := ⟨fun a => String.lt_irrefl a.value⟩
  have hantisymm : Std.Antisymm fun a b : Audience => a < b :=
    ⟨fun a b hab hba => absurd (String.lt_trans hab hba) (String.lt_irrefl a.value)⟩
  have hmembers : s.members = t.members := s.increasing.eq_of_mem_iff t.increasing h
  cases s
  cases t
  simpa using hmembers

namespace IdTokenValidator

/-! ## Settings -/

/-- What a validator may be told after it is made. -/
inductive Setting where
  | skew (skew : Duration)
  | audiences (audiences : List Audience)
  | decryption (selector : Jwe.Selector)
  | maxAuthAge (age : Duration)

namespace Setting

def skew? : Setting → Option Duration
  | .skew d => some d
  | _ => none

def decryption? : Setting → Option Jwe.Selector
  | .decryption s => some s
  | _ => none

def maxAuthAge? : Setting → Option Duration
  | .maxAuthAge d => some d
  | _ => none

/-- The audiences that the setting adds. -/
def added : Setting → List Audience
  | .audiences as => as
  | _ => []

/-- What is said last among the settings. -/
def last? {α : Type} (f : Setting → Option α) (l : List Setting) : Option α :=
  (l.filterMap f).getLast?

/-- The skew that settings come to: the last one, a negative one as none, and a minute if no skew
is set. -/
def skewAfter (l : List Setting) : Duration :=
  ((last? skew? l).map fun d => max d 0).getD (Duration.ofSeconds 60)

/-- The settings come to the same: the same skew, decryption and age, and the same audiences taken
together. -/
structure Agree (l₁ l₂ : List Setting) : Prop where
  skew : skewAfter l₁ = skewAfter l₂
  decryption : last? decryption? l₁ = last? decryption? l₂
  maxAuthAge : last? maxAuthAge? l₁ = last? maxAuthAge? l₂
  audiences : ∀ a, a ∈ l₁.flatMap added ↔ a ∈ l₂.flatMap added

end Setting

variable {σ : Type}

/-- Tell the validator a setting. -/
def set (v : IdTokenValidator σ) : Setting → IdTokenValidator σ
  | .skew d => v.withSkew d
  | .audiences as => v.withAudiences as
  | .decryption s => v.withDecryption s
  | .maxAuthAge d => v.withMaxAuthAge d

/-- Tell the validator several settings. -/
def setAll (v : IdTokenValidator σ) (l : List Setting) : IdTokenValidator σ := l.foldl set v

/-! ## In step -/

/-- The verifier for claims is the one that the validator's settings ask for. -/
def InStep (v : IdTokenValidator σ) : Prop :=
  v.claimsVerifier = verifierOf v.issuer v.clientId v.audiences v.skew

theorem inStep_make (issuer : Issuer) (client : ClientId) (signature : Option (Jws.Selector σ)) :
    (make issuer client signature).InStep := rfl

theorem InStep.set {v : IdTokenValidator σ} (h : v.InStep) (s : Setting) : (v.set s).InStep := by
  cases s with
  | skew d => rfl
  | audiences as => rfl
  -- no new verifier is made, and none is needed
  | decryption s => exact h
  | maxAuthAge d => exact h

theorem InStep.setAll {v : IdTokenValidator σ} (h : v.InStep) (l : List Setting) :
    (v.setAll l).InStep := by
  induction l generalizing v with
  | nil => exact h
  | cons s l ih => exact ih (h.set s)

/-! ## What the settings come to -/

/-- A part of the validator that each setting replaces or leaves as it is holds what was said
last. -/
theorem part_setAll {α β : Type} (part : IdTokenValidator σ → α) (said : Setting → Option β)
    (g : β → α) (hset : ∀ v s, part (set v s) = ((said s).map g).getD (part v))
    (v : IdTokenValidator σ) (l : List Setting) :
    part (v.setAll l) = ((Setting.last? said l).map g).getD (part v) := by
  induction l generalizing v with
  | nil => rfl
  | cons s l ih =>
    have htail : part (v.setAll (s :: l))
        = ((Setting.last? said l).map g).getD (part (v.set s)) := ih _
    rw [htail, hset, Setting.last?, Setting.last?]
    cases hs : said s with
    | none => rw [List.filterMap_cons_none hs]; rfl
    | some b =>
      rw [List.filterMap_cons_some hs, List.getLast?_cons]
      cases (l.filterMap said).getLast? <;> rfl

/-- A part of the validator that no setting replaces stays as it is. -/
theorem part_setAll_of_kept {α : Type} (part : IdTokenValidator σ → α)
    (hset : ∀ v s, part (set v s) = part v) (v : IdTokenValidator σ) (l : List Setting) :
    part (v.setAll l) = part v := by
  induction l generalizing v with
  | nil => rfl
  | cons s l ih => exact (ih (v.set s)).trans (hset v s)

theorem mem_audiences_setAll {v : IdTokenValidator σ} {l : List Setting} {a : Audience} :
    a ∈ (v.setAll l).audiences.members ↔ a ∈ v.audiences.members ∨ a ∈ l.flatMap Setting.added := by
  induction l generalizing v with
  | nil => simp [setAll]
  | cons s l ih =>
    have hset : a ∈ (v.set s).audiences.members ↔ a ∈ v.audiences.members ∨ a ∈ s.added := by
      cases s with
      | audiences as => exact AudienceSet.mem_insertAll.trans or_comm
      | skew d => simp [set, withSkew, renew, Setting.added]
      | decryption s => simp [set, withDecryption, Setting.added]
      | maxAuthAge d => simp [set, withMaxAuthAge, Setting.added]
    have htail : a ∈ (v.setAll (s :: l)).audiences.members
        ↔ a ∈ (v.set s).audiences.members ∨ a ∈ l.flatMap Setting.added := ih
    rw [htail, hset, List.flatMap_cons, List.mem_append, or_assoc]

section Made

variable (issuer : Issuer) (client : ClientId) (signature : Option (Jws.Selector σ))

/-- The validator, and its verifier for claims, are what the issuer, the client and the settings
ask for. -/
structure Reflects (l : List Setting) (v : IdTokenValidator σ) : Prop where
  issuer_eq : v.issuer = issuer
  clientId_eq : v.clientId = client
  signature_eq : v.signature = signature
  decryption_eq : v.decryption = Setting.last? Setting.decryption? l
  maxAuthAge_eq : v.maxAuthAge = Setting.last? Setting.maxAuthAge? l
  skew_eq : v.skew = Setting.skewAfter l
  mem_audiences : ∀ a, a ∈ v.audiences.members
    ↔ a = client.toAudience ∨ a ∈ l.flatMap Setting.added
  expected_issuer : v.claimsVerifier.issuer = issuer
  expected_party : v.claimsVerifier.authorizedParty = some client
  mem_expected_audience : ∀ a, a ∈ v.claimsVerifier.audience.members
    ↔ a = client.toAudience ∨ a ∈ l.flatMap Setting.added
  allowed_skew : v.claimsVerifier.skew = Setting.skewAfter l

theorem reflects_setAll (l : List Setting) :
    Reflects issuer client signature l ((make issuer client signature).setAll l) := by
  have hissuer : ((make issuer client signature).setAll l).issuer = issuer :=
    part_setAll_of_kept IdTokenValidator.issuer (fun _ s => by cases s <;> rfl) _ l
  have hclient : ((make issuer client signature).setAll l).clientId = client :=
    part_setAll_of_kept clientId (fun _ s => by cases s <;> rfl) _ l
  have hskew : ((make issuer client signature).setAll l).skew = Setting.skewAfter l :=
    part_setAll skew Setting.skew? Window.clampSkew (fun _ s => by cases s <;> rfl) _ l
  have haudiences : ∀ a, a ∈ ((make issuer client signature).setAll l).audiences.members
      ↔ a = client.toAudience ∨ a ∈ l.flatMap Setting.added := by
    intro a
    rw [mem_audiences_setAll]
    exact or_congr_left List.mem_singleton
  have hstep : ((make issuer client signature).setAll l).InStep :=
    (inStep_make issuer client signature).setAll l
  exact {
    issuer_eq := hissuer
    clientId_eq := hclient
    signature_eq :=
      part_setAll_of_kept IdTokenValidator.signature (fun _ s => by cases s <;> rfl) _ l
    decryption_eq := by
      rw [part_setAll decryption Setting.decryption? some (fun _ s => by cases s <;> rfl)]
      cases Setting.last? Setting.decryption? l <;> rfl
    maxAuthAge_eq := by
      rw [part_setAll maxAuthAge Setting.maxAuthAge? some (fun _ s => by cases s <;> rfl)]
      cases Setting.last? Setting.maxAuthAge? l <;> rfl
    skew_eq := hskew
    mem_audiences := haudiences
    expected_issuer := by rw [hstep]; exact hissuer
    expected_party := by rw [hstep]; exact congrArg some hclient
    mem_expected_audience := by rw [hstep]; exact haudiences
    allowed_skew := by
      rw [hstep]
      exact (Int.max_eq_left (skew_nonneg _)).trans hskew }

/-- Settings that come to the same make the same validator. -/
theorem setAll_eq_of_agree {l₁ l₂ : List Setting} (h : Setting.Agree l₁ l₂) :
    (make issuer client signature).setAll l₁ = (make issuer client signature).setAll l₂ := by
  have h₁ := reflects_setAll issuer client signature l₁
  have h₂ := reflects_setAll issuer client signature l₂
  have haudiences : ((make issuer client signature).setAll l₁).audiences
      = ((make issuer client signature).setAll l₂).audiences := by
    refine AudienceSet.ext_mem fun a => ?_
    rw [h₁.mem_audiences, h₂.mem_audiences, h.audiences]
  have hskew := h₁.skew_eq.trans (h.skew.trans h₂.skew_eq.symm)
  have hissuer := h₁.issuer_eq.trans h₂.issuer_eq.symm
  have hclient := h₁.clientId_eq.trans h₂.clientId_eq.symm
  -- the verifiers agree because both are the ones that the settings ask for
  have hverifier : ((make issuer client signature).setAll l₁).claimsVerifier
      = ((make issuer client signature).setAll l₂).claimsVerifier := by
    rw [(inStep_make issuer client signature).setAll l₁,
      (inStep_make issuer client signature).setAll l₂, hissuer, hclient, haudiences, hskew]
  have hsignature := h₁.signature_eq.trans h₂.signature_eq.symm
  have hdecryption := h₁.decryption_eq.trans (h.decryption.trans h₂.decryption_eq.symm)
  have hage := h₁.maxAuthAge_eq.trans (h.maxAuthAge.trans h₂.maxAuthAge_eq.symm)
  exact IdTokenValidator.ext hissuer hclient haudiences hskew hverifier hsignature hdecryption hage

/-- **A validator and its verifier for claims are what the settings ask for, in whatever order they
were told.** So settings that come to the same make validators that say the same of every token.
Without a selector the validator is one for unsecured tokens, and with one for signed tokens. -/
theorem setAll_reflects :
    (∀ l, Reflects issuer client signature l ((make issuer client signature).setAll l))
      ∧ ∀ l₁ l₂, Setting.Agree l₁ l₂ → ∀ token nonce now state,
        ((make issuer client signature).setAll l₁).validateAt token nonce now state
          = ((make issuer client signature).setAll l₂).validateAt token nonce now state :=
  ⟨reflects_setAll issuer client signature,
    fun _ _ h _ _ _ _ => by rw [setAll_eq_of_agree issuer client signature h]⟩

end Made

/-- Two audiences in another order, and a skew that is taken back in two ways: both validators accept
the token, which names one of the audiences and another one. -/
theorem setAll_reflects_reordered :
    let api : Audience := ⟨"api", by decide⟩
    let web : Audience := ⟨"web", by decide⟩
    let l₁ : List Setting :=
      [.skew (Duration.ofSeconds 300), .audiences [api, web], .skew (Duration.ofSeconds (-5))]
    let l₂ : List Setting := [.audiences [web], .skew 0, .audiences [api]]
    let v : IdTokenValidator Unit :=
      unsecured ⟨"https://idp.example", by decide⟩ ⟨"app", by decide⟩
    let text := "eyJhbGciOiJub25lIn0.eyJhdWQiOlsiYXBpIiwib3RoZXIiXSwiYXpwIjoiYXBwIiwiZXhwIjoxNzAwMDA"
      ++ "wNjAwLCJpc3MiOiJodHRwczovL2lkcC5leGFtcGxlIiwic3ViIjoiYWxpY2UifQ."
    let now : Instant := ⟨1700000599, 0, by decide, by decide, by decide⟩
    Setting.Agree l₁ l₂
      ∧ (v.setAll l₁).validateAt text none now () = (v.setAll l₂).validateAt text none now ()
      ∧ ((v.setAll l₂).validateAt text none now ()).1.toOption.isSome = true := by
  intro api web l₁ l₂ v text now
  have hagree : Setting.Agree l₁ l₂ := {
    skew := by decide
    decryption := rfl
    maxAuthAge := rfl
    audiences := fun a => by simp [l₁, l₂, Setting.added, or_comm] }
  have hsame := (setAll_reflects (σ := Unit) v.issuer v.clientId none).2 l₁ l₂ hagree text none now ()
  exact ⟨hagree, hsame, by decide +kernel⟩

end IdTokenValidator

end Credential
