import Credential.Proofs.Client.Request
import Credential.Proofs.Text.Body
import Credential.Proofs.Text.Form

/-!
# The precedence of what a request presents

Four rules read overlapping parts of a request, and the first that applies decides. What it does not
read makes no difference then: requests that agree in what it reads present the same, whatever else
they hold (`RespectsPrecedence`). Where no Basic credentials are presented, this needs the names of
the form to be distinct. They have their values in any order then, and a form that repeats one is
refused, whatever rule would apply to it.
-/

namespace Credential.Client

open Form (Distinct)

namespace Request

variable (r : Request)

/-! ## What a request holds -/

/-- The parameters of the form, repeated ones too; none without a form. -/
def form : List Form.Parameter := if r.isFormPost then Form.parameters r.body else []

/-- The form has a parameter of the name with the value. -/
def Holds (name value : String) : Prop := ⟨name, value⟩ ∈ r.form

/-- The first `Authorization` header starts with the scheme of Basic credentials. -/
def IsBasic : Prop := ∃ value, r.header? "Authorization" = some value ∧ basicScheme <+: value

/-- The form has a client id and a secret. -/
structure HoldsSecret (id secret : String) : Prop where
  clientId : r.Holds "client_id" id
  secret : r.Holds "client_secret" secret

/-- The form has an assertion and names the one type of assertions that are tokens. -/
structure HoldsAssertion (assertion : String) : Prop where
  assertion : r.Holds "client_assertion" assertion
  type : r.Holds "client_assertion_type" assertionType

/-- The form is read: there are no Basic credentials, and no name occurs twice. -/
structure ReadsForm : Prop where
  not_basic : ¬ r.IsBasic
  distinct : Distinct r.form

/-- The form is read further, since there is no secret beside a client id. -/
structure LacksSecret : Prop extends r.ReadsForm where
  no_secret : ∀ id secret, ¬ r.HoldsSecret id secret

/-- The form is read for an assertion. -/
structure ReadsAssertion (assertion : String) : Prop extends r.LacksSecret where
  holds : r.HoldsAssertion assertion

/-- The form is read for a client id alone. -/
structure ReadsPublic : Prop extends r.LacksSecret where
  no_assertion : ∀ assertion, ¬ r.HoldsAssertion assertion

/-! ## Basic credentials -/

variable {r}

theorem basicCredentials?_of_basic {value : Bytes} (hvalue : r.header? "Authorization" = some value)
    (hscheme : basicScheme <+: value) :
    r.basicCredentials? = some (value.drop basicScheme.length) := by
  rw [basicCredentials?, hvalue]
  exact if_pos (List.isPrefixOf_iff_prefix.2 hscheme)

theorem basicCredentials?_of_not_basic (h : ¬ r.IsBasic) : r.basicCredentials? = none := by
  unfold basicCredentials?
  cases hvalue : r.header? "Authorization" with
  | none => rfl
  | some value =>
    exact if_neg fun hscheme => h ⟨value, hvalue, List.isPrefixOf_iff_prefix.1 hscheme⟩

theorem presented_of_basic {value : Bytes} (hvalue : r.header? "Authorization" = some value)
    (hscheme : basicScheme <+: value) :
    r.presented = readBasic (value.drop basicScheme.length) := by
  rw [presented, basicCredentials?_of_basic hvalue hscheme]

/-! ## Forms -/

theorem formParameters_eq :
    r.formParameters = (Form.firstRepeated? [] (r.form.map (·.name))).elim (.ok r.form) fun name =>
      refuse (.repeatedFormParameter name) := by
  unfold formParameters form
  split
  · dsimp only
    cases Form.firstRepeated? [] ((Form.parameters r.body).map (·.name)) with
    | none => rfl
    | some name => rfl
  · rfl

/-- A form that repeats a name is refused for such a name. -/
theorem presented_of_repeated (hbasic : ¬ r.IsBasic) (h : ¬ Distinct r.form) :
    ∃ name, List.Duplicate name (r.form.map (·.name))
      ∧ r.presented = .error (.malformed (.repeatedFormParameter name)) := by
  cases hname : Form.firstRepeated? [] (r.form.map (·.name)) with
  | none => exact absurd (Form.firstRepeated?_eq_none_iff.1 hname) h
  | some name =>
    refine ⟨name, Form.duplicate_of_firstRepeated? hname, ?_⟩
    rw [presented, basicCredentials?_of_not_basic hbasic, formParameters_eq, hname]
    rfl

namespace ReadsForm

variable (h : r.ReadsForm)

include h

theorem value?_eq_some_iff {name value : String} :
    Form.value? name r.form = some value ↔ r.Holds name value :=
  Form.value?_eq_some_iff h.distinct

theorem presented_eq : r.presented = readForm r.form := by
  rw [presented, basicCredentials?_of_not_basic h.not_basic, formParameters_eq,
    Form.firstRepeated?_eq_none_iff.2 h.distinct]
  rfl

theorem presented_of_secret {id secret : String} (hs : r.HoldsSecret id secret) :
    r.presented = (do
      return .secretPost (← Identifier.ofString .clientId id) (.lasting secret)) := by
  rw [h.presented_eq, readForm, h.value?_eq_some_iff.2 hs.clientId,
    h.value?_eq_some_iff.2 hs.secret]

end ReadsForm

theorem LacksSecret.not_both (h : r.LacksSecret) {id secret : String}
    (hid : Form.value? "client_id" r.form = some id)
    (hsecret : Form.value? "client_secret" r.form = some secret) : False :=
  h.no_secret id secret ⟨h.value?_eq_some_iff.1 hid, h.value?_eq_some_iff.1 hsecret⟩

/-- Without a secret beside the client id the form is read for an assertion. -/
theorem ReadsAssertion.presented_eq {assertion : String} (h : r.ReadsAssertion assertion) :
    r.presented = readAssertion assertion (Form.value? "client_id" r.form) := by
  rw [h.toReadsForm.presented_eq, readForm]
  split
  · next id secret hid hsecret => exact (h.not_both hid hsecret).elim
  · rw [h.value?_eq_some_iff.2 h.holds.assertion]
    exact if_pos (h.value?_eq_some_iff.2 h.holds.type)

/-- And without an assertion for a client id alone. -/
theorem ReadsPublic.presented_eq (h : r.ReadsPublic) :
    r.presented = .ok (.none ((Form.value? "client_id" r.form).bind fun s =>
      (Identifier.ofString .clientId s).toOption)) := by
  rw [h.toReadsForm.presented_eq, readForm]
  split
  · next id secret hid hsecret => exact (h.not_both hid hsecret).elim
  · split
    · next a ha =>
      exact if_neg fun htype =>
        h.no_assertion a ⟨h.value?_eq_some_iff.1 ha, h.value?_eq_some_iff.1 htype⟩
    · rfl

/-! ## Precedence -/

/-- **The first rule that applies decides.** What it reads determines what is presented, and the
rules after it play no part. -/
structure RespectsPrecedence (present : Request → Result Presented) : Prop where
  /-- Basic credentials: of the whole request only the first `Authorization` header is read. -/
  basic : ∀ r r' value, r.header? "Authorization" = some value →
    r'.header? "Authorization" = some value → basicScheme <+: value → present r' = present r
  basic_ok : ∀ r value p, r.header? "Authorization" = some value → basicScheme <+: value →
    present r = .ok p → ∃ id secret, p = .secretBasic id secret
  /-- Without them a form that repeats a name is refused for it. -/
  repeated : ∀ r, ¬ r.IsBasic → ¬ Distinct r.form →
    ∃ name, List.Duplicate name (r.form.map (·.name))
      ∧ present r = .error (.malformed (.repeatedFormParameter name))
  /-- A secret beside a client id: of the form only these two are read. -/
  secret : ∀ r r' id secret, r.ReadsForm → r'.ReadsForm → r.HoldsSecret id secret →
    r'.HoldsSecret id secret → present r' = present r
  secret_ok : ∀ r id secret p, r.ReadsForm → r.HoldsSecret id secret →
    (present r = .ok p ↔ ∃ client : ClientId, client.value = id
      ∧ p = .secretPost client (.lasting secret))
  /-- An assertion: of the form only this and the client id are read. -/
  assertion : ∀ r r' a, r.ReadsAssertion a → r'.ReadsAssertion a →
    (∀ id, r.Holds "client_id" id ↔ r'.Holds "client_id" id) → present r' = present r
  assertion_malformed : ∀ r a e, r.ReadsAssertion a → SignedToken.parse a = .error e →
    present r = .error e
  /-- It is presented under the method of its algorithm, for the client that it names, which must be
  the one that the form names, if it names one. -/
  assertion_ok : ∀ r a t p, r.ReadsAssertion a → SignedToken.parse a = .ok t →
    (present r = .ok p ↔ ∃ c : Assertion, p.IsAssertion c t.algorithm.family ∧ c.token = t
      ∧ c.NamesClient ∧ ∀ id, r.Holds "client_id" id → id = c.clientId.value)
  assertion_unsupported : ∀ r a t, r.ReadsAssertion a → SignedToken.parse a = .ok t →
    t.algorithm.family ≠ .hmac → t.algorithm.family ≠ .rsa → t.algorithm.family ≠ .ec →
    present r = .error (.unsupportedAlgorithm t.algorithm.name)
  /-- Nothing of that: a client id that is not empty, or nothing at all. -/
  nothing : ∀ r, r.ReadsPublic → ∃ client : Option ClientId, present r = .ok (.none client)
    ∧ ∀ c : ClientId, client = some c ↔ r.Holds "client_id" c.value
  /-- The order of the parameters plays no part in what is presented. -/
  permuted : ∀ r r' p, r'.method = r.method → r'.headers = r.headers →
    (Form.parameters r'.body).Perm (Form.parameters r.body) → present r = .ok p →
    present r' = .ok p

theorem readForm_congr {ps qs : List Form.Parameter}
    (h : ∀ name, Form.value? name ps = Form.value? name qs) : readForm ps = readForm qs := by
  simp only [readForm, h]

/-- Requests that differ in the order of the parameters only present the same. -/
theorem presented_of_perm {r r' : Request} {p : Presented} (hmethod : r'.method = r.method)
    (hheaders : r'.headers = r.headers)
    (hbody : (Form.parameters r'.body).Perm (Form.parameters r.body)) (h : r.presented = .ok p) :
    r'.presented = .ok p := by
  have hheader : ∀ name, r'.header? name = r.header? name := fun name => by
    rw [header?, header?, hheaders]
  by_cases hbasic : r.IsBasic
  · obtain ⟨value, hvalue, hscheme⟩ := hbasic
    rw [presented_of_basic ((hheader _).trans hvalue) hscheme, ← presented_of_basic hvalue hscheme]
    exact h
  · have hform : r'.form.Perm r.form := by
      have hpost : r'.isFormPost = r.isFormPost := by
        rw [isFormPost, isFormPost, hmethod, hheader]
      unfold form
      rw [hpost]
      split
      · exact hbody
      · exact .refl []
    have hbasic' : ¬ r'.IsBasic := by
      rintro ⟨value, hvalue, hscheme⟩
      exact hbasic ⟨value, (hheader _).symm.trans hvalue, hscheme⟩
    have hdistinct : Distinct r.form := Decidable.byContradiction fun hrepeated => by
      obtain ⟨name, -, herror⟩ := presented_of_repeated hbasic hrepeated
      rw [h] at herror
      cases herror
    have hdistinct' := Form.distinct_of_perm hform hdistinct
    rw [ReadsForm.presented_eq ⟨hbasic', hdistinct'⟩, readForm_congr fun name =>
      Form.value?_congr hdistinct' hdistinct fun value => hform.mem_iff,
      ← ReadsForm.presented_eq ⟨hbasic, hdistinct⟩]
    exact h

/-- **What a request presents respects the precedence of the rules.** -/
theorem respectsPrecedence : RespectsPrecedence presented where
  basic := fun r r' value hvalue hvalue' hscheme => by
    rw [presented_of_basic hvalue' hscheme, presented_of_basic hvalue hscheme]
  basic_ok := fun r value p hvalue hscheme h =>
    exists_of_readBasic ((presented_of_basic hvalue hscheme).symm.trans h)
  repeated := fun r => presented_of_repeated
  secret := fun r r' id secret h h' hs hs' => by
    rw [h'.presented_of_secret hs', h.presented_of_secret hs]
  secret_ok := fun r id secret p h hs => by
    rw [h.presented_of_secret hs, bind_eq_ok_iff]
    refine exists_congr fun client => and_congr Identifier.ofString_eq_ok_iff ?_
    exact ⟨fun hp => (Except.ok.inj hp).symm, fun hp => congrArg _ hp.symm⟩
  assertion := fun r r' a h h' hsame => by
    rw [h'.presented_eq, h.presented_eq,
      Form.value?_congr h'.distinct h.distinct fun id => (hsame id).symm]
  assertion_malformed := fun r a e h he => by
    rw [h.presented_eq, readAssertion, he]
    rfl
  assertion_ok := fun r a t p h ht => by
    rw [h.presented_eq, readAssertion_eq_ok_iff ht]
    simp only [h.value?_eq_some_iff]
  assertion_unsupported := fun r a t h ht hhmac hrsa hec => by
    rw [h.presented_eq, readAssertion_of_unsupported ht hhmac hrsa hec]
  nothing := fun r h => by
    refine ⟨_, h.presented_eq, fun c => ?_⟩
    simp only [Option.bind_eq_some_iff, h.value?_eq_some_iff, toOption_eq_some_iff,
      Identifier.ofString_eq_ok_iff, exists_eq_right']
  permuted := fun r r' p hmethod hheaders hbody h => presented_of_perm hmethod hheaders hbody h

/-- A request that posts a form, with headers before the type of it. -/
def posting (headers : List (String × Bytes)) (ps : List Form.Parameter) : Request where
  method := "POST"
  headers := headers ++ [("Content-Type", formType)]
  body := Form.body ps

section Posting

variable {ps : List Form.Parameter}

theorem form_posting : (posting [] ps).form = ps := by
  have hpost : (posting [] ps).isFormPost = (posting [] []).isFormPost := rfl
  have hform : (posting [] []).isFormPost = true := by decide +kernel
  rw [form, hpost, hform, if_pos rfl]
  exact Form.parameters_of_writesBody (Form.writesBody_body ps)

theorem holds_posting_iff {name value : String} :
    (posting [] ps).Holds name value ↔ ⟨name, value⟩ ∈ ps := by
  rw [Holds, form_posting]

theorem not_isBasic_posting : ¬ (posting [] ps).IsBasic := by
  rintro ⟨value, hvalue, -⟩
  have hheader : (posting [] ps).header? "Authorization"
      = (posting [] []).header? "Authorization" := rfl
  have hnone : (posting [] []).header? "Authorization" = none := by decide +kernel
  rw [hheader, hnone] at hvalue
  cases hvalue

theorem readsForm_posting (h : Distinct ps) : (posting [] ps).ReadsForm :=
  ⟨not_isBasic_posting, form_posting.symm ▸ h⟩

end Posting

/-- A client posts an assertion. A secret goes before it, in whatever order they stand, and
credentials in a header go before both; a form that repeats the client id is refused. -/
theorem respectsPrecedence_posting :
    let app : ClientId := ⟨"app", by decide⟩
    let id : Form.Parameter := ⟨"client_id", "app"⟩
    let secret : Form.Parameter := ⟨"client_secret", "s"⟩
    let type : Form.Parameter := ⟨"client_assertion_type", assertionType⟩
    let token : Form.Parameter :=
      ⟨"client_assertion", "eyJhbGciOiJIUzI1NiJ9.eyJzdWIiOiJhcHAifQ.AA"⟩
    let basic := [("Authorization", Utf8.encode "Basic d2ViOm5ldw==")]
    (∃ a : Assertion, a.clientId = app
        ∧ (posting [] [id, type, token]).presented = .ok (.secretJwt a))
      ∧ (posting [] [id, type, token, secret]).presented = .ok (.secretPost app (.lasting "s"))
      ∧ (posting [] [secret, token, type, id]).presented = .ok (.secretPost app (.lasting "s"))
      ∧ (∃ web : ClientId, web.value = "web"
        ∧ (posting basic [id, type, token, secret]).presented
          = .ok (.secretBasic web (.lasting "new")))
      ∧ (posting [] [id, secret, id]).presented
        = .error (.malformed (.repeatedFormParameter "client_id")) := by
  intro app id secret type token basic
  have hsecret : (posting [] [id, type, token, secret]).presented
      = .ok (.secretPost app (.lasting "s")) :=
    (respectsPrecedence.secret_ok _ "app" "s" _ (readsForm_posting (by decide))
      ⟨holds_posting_iff.2 (by simp [id]), holds_posting_iff.2 (by simp [secret])⟩).2
      ⟨app, rfl, rfl⟩
  refine ⟨?_, hsecret, ?_, ?_, ?_⟩
  · obtain ⟨t, ht, hread⟩ := exists_eq_ok_of_any (x := SignedToken.parse token.value)
      (p := fun t => (Assertion.ofToken t).toOption.any fun a =>
        decide (a.clientId = app ∧ t.algorithm.family = .hmac)) (by decide +kernel)
    obtain ⟨a, ha, hread⟩ := exists_eq_ok_of_any hread
    obtain ⟨hclient, hfamily⟩ := of_decide_eq_true hread
    have hreads : (posting [] [id, type, token]).ReadsAssertion token.value := {
      readsForm_posting (by decide) with
      no_secret := fun _ _ h => absurd (holds_posting_iff.1 h.secret) (by simp [id, type, token])
      holds := ⟨holds_posting_iff.2 (by simp [token]), holds_posting_iff.2 (by simp [type])⟩ }
    obtain ⟨htoken, hnames⟩ := Assertion.ofToken_eq_ok_iff.1 ha
    refine ⟨a, hclient, (respectsPrecedence.assertion_ok _ _ t _ hreads ht).2
      ⟨a, hfamily ▸ .hmac, htoken, hnames, fun value hvalue => ?_⟩⟩
    rw [hclient]
    simpa [id, type, token] using holds_posting_iff.1 hvalue
  · refine respectsPrecedence.permuted (posting [] [id, type, token, secret]) _ _ rfl rfl ?_ hsecret
    show (Form.parameters (Form.body _)).Perm (Form.parameters (Form.body _))
    rw [Form.parameters_of_writesBody (Form.writesBody_body _),
      Form.parameters_of_writesBody (Form.writesBody_body _)]
    decide
  · have hheader : ∀ ps, (posting basic ps).header? "Authorization"
        = some (Utf8.encode "Basic d2ViOm5ldw==") := by
      intro ps
      have hfirst : (posting basic ps).headers.find?
          (fun h => h.1.toLower == "Authorization".toLower) = basic.head? :=
        List.find?_cons_of_pos (beq_self_eq_true _)
      rw [header?, hfirst]
      rfl
    have hscheme : basicScheme <+: Utf8.encode "Basic d2ViOm5ldw==" := by decide +kernel
    have hread : (match readBasic ((Utf8.encode "Basic d2ViOm5ldw==").drop basicScheme.length) with
        | .ok (.secretBasic web s) => decide (web.value = "web" ∧ s = .lasting "new")
        | _ => false) = true := by
      decide +kernel
    split at hread
    · next web s hp =>
      obtain ⟨hweb, rfl⟩ := of_decide_eq_true hread
      refine ⟨web, hweb, ?_⟩
      rw [respectsPrecedence.basic (posting basic []) _ _ (hheader _) (hheader _) hscheme,
        presented_of_basic (hheader _) hscheme]
      exact hp
    · cases hread
  · have hrepeats : ¬ Distinct (posting [] [id, secret, id]).form := by
      rw [form_posting]
      decide
    obtain ⟨name, hname, hrefused⟩ := respectsPrecedence.repeated _ not_isBasic_posting hrepeats
    rw [form_posting] at hname
    have htwice := List.duplicate_iff_two_le_count.1 hname
    have hmem : name = "client_id" ∨ name = "client_secret" := by
      simpa [id, secret, or_comm] using hname.mem
    rcases hmem with rfl | rfl
    · exact hrefused
    · exact absurd htwice (by decide)

end Request

end Credential.Client
