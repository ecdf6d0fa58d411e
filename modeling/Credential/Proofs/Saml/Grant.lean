import Credential.Proofs.Outcome
import Credential.Proofs.Text.Base64
import Credential.Proofs.Text.Blank
import Credential.Proofs.Text.Body
import Credential.Proofs.Text.Form
import Credential.Saml.Grant

/-!
# What an accepted grant is

A form makes up a grant exactly if each of the four names that count occurs as the grant says, with
any padding behind the assertion (`ofParameters_eq_ok_iff`). The order of the parameters and other
names make no difference, and neither does the way in which the body is written: a grant is read
back from all of its bodies (`parse_of_writesBody`).

Whether the assertion is missing is asked before its padding is taken off. An assertion that is
nothing but padding is therefore accepted, and its text is empty (`parse_eq_ok_iff_isMadeOf`).
-/

namespace Credential

/-! ## Names that count -/

theorem GrantParameter.ofName?_eq_some_iff {s : String} {q : GrantParameter} :
    ofName? s = some q ↔ q.name = s := by
  constructor
  · intro h
    have := List.find?_some (p := fun q : GrantParameter => q.name == s) h
    simpa using this
  · rintro rfl
    cases q <;> rfl

namespace Saml.Grant

open GrantParameter (ofName?)

variable {ps qs others : List Form.Parameter} {g : Grant} {written : String} {body : Bytes}

/-- A name is found as often as the form has values for it. -/
theorem count_ofName? (q : GrantParameter) (ps : List Form.Parameter) :
    (ps.filterMap fun p => ofName? p.name).count q = (Form.values q.name ps).length := by
  have hname (p : Form.Parameter) : (ofName? p.name == some q) = (p.name == q.name) := by
    rw [Bool.eq_iff_iff, beq_iff_eq, beq_iff_eq, GrantParameter.ofName?_eq_some_iff, eq_comm]
  simp only [List.count_filterMap, hname, Form.values, List.length_map,
    List.countP_eq_length_filter]

/-- No name that counts is repeated. -/
theorem firstRepeated?_ofName?_eq_none_iff :
    Form.firstRepeated? [] (ps.filterMap fun p => ofName? p.name) = none
      ↔ ∀ q : GrantParameter, (Form.values q.name ps).length ≤ 1 := by
  rw [Form.firstRepeated?_eq_none_iff, List.nodup_iff_count_le_one]
  simp only [count_ofName?]

/-- **A name that counts may not be repeated.** -/
theorem exists_repeated_of_two_le {q : GrantParameter} (h : 2 ≤ (Form.values q.name ps).length) :
    ∃ r : GrantParameter, 2 ≤ (Form.values r.name ps).length
      ∧ ofParameters ps = .error (.malformed (.repeatedGrantParameter r)) := by
  cases hfirst : Form.firstRepeated? [] (ps.filterMap fun p => ofName? p.name) with
  | none =>
    have := firstRepeated?_ofName?_eq_none_iff.1 hfirst q
    omega
  | some r =>
    have hdup := List.duplicate_iff_two_le_count.1 (Form.duplicate_of_firstRepeated? hfirst)
    rw [count_ofName?] at hdup
    refine ⟨r, hdup, ?_⟩
    rw [ofParameters, hfirst]
    rfl

/-! ## Assertions -/

/-- A text is read from its octets in base 64 with any padding behind them, and from nothing
else. -/
theorem decodeAssertion_eq_ok_iff {text : String} :
    decodeAssertion written = .ok text
      ↔ Text.trimEndOf '=' written = Base64.encodeUrl (Utf8.encode text) := by
  simp only [decodeAssertion, bind_eq_ok_iff, orRefuse_eq_ok_iff, Base64.decodeUrl_eq_some_iff,
    Utf8.decode_eq_some_iff]
  constructor
  · rintro ⟨b, hwritten, rfl⟩
    exact hwritten
  · intro hwritten
    exact ⟨_, hwritten, rfl⟩

theorem not_isUrlSymbol_padding : ¬Base64.IsUrlSymbol '=' := by decide

theorem trimEndOf_eq_encodeUrl_iff {b : Bytes} :
    Text.trimEndOf '=' written = Base64.encodeUrl b
      ↔ ∃ pads, written.toList = (Base64.encodeUrl b).toList ++ List.replicate pads '=' :=
  Text.trimEndOf_eq_iff fun hmem =>
    not_isUrlSymbol_padding (Base64.isUrlSymbol_of_mem_encodeUrl b '=' hmem)

/-! ## Grants -/

/-- Each name that counts occurs as the grant says, the assertion with a value that is not empty and
is its text in base 64, padded or not. -/
structure IsMadeOf (g : Grant) (ps : List Form.Parameter) (written : String) : Prop where
  grantType : Form.values "grant_type" ps = [samlBearerGrantType]
  assertion : Form.values "assertion" ps = [written]
  not_empty : written ≠ ""
  text : Text.trimEndOf '=' written = Base64.encodeUrl (Utf8.encode g.assertion)
  scope : Form.values "scope" ps = g.scope.toList
  clientId : Form.values "client_id" ps = g.clientId.toList

namespace IsMadeOf

theorem length_values_le_one (h : g.IsMadeOf ps written) (q : GrantParameter) :
    (Form.values q.name ps).length ≤ 1 := by
  have hoption (o : Option String) : o.toList.length ≤ 1 := by cases o <;> simp
  cases q with
  | grantType => exact h.grantType ▸ hoption (some _)
  | assertion => exact h.assertion ▸ hoption (some _)
  | scope => exact h.scope ▸ hoption g.scope
  | clientId => exact h.clientId ▸ hoption g.clientId

theorem of_perm (h : g.IsMadeOf ps written) (hperm : qs.Perm ps) : g.IsMadeOf qs written where
  grantType := Form.values_eq_of_perm (o := some _) hperm h.grantType
  assertion := Form.values_eq_of_perm (o := some _) hperm h.assertion
  not_empty := h.not_empty
  text := h.text
  scope := Form.values_eq_of_perm hperm h.scope
  clientId := Form.values_eq_of_perm hperm h.clientId

theorem append (h : g.IsMadeOf ps written)
    (hothers : ∀ p ∈ others, ∀ q : GrantParameter, p.name ≠ q.name) :
    g.IsMadeOf (ps ++ others) written := by
  have hvalues (q : GrantParameter) : Form.values q.name (ps ++ others) = Form.values q.name ps :=
    Form.values_append_of_unnamed fun p hp => hothers p hp q
  exact ⟨(hvalues .grantType).trans h.grantType, (hvalues .assertion).trans h.assertion,
    h.not_empty, h.text, (hvalues .scope).trans h.scope, (hvalues .clientId).trans h.clientId⟩

/-- The text is empty just if nothing but padding is written. -/
theorem assertion_eq_empty_iff (h : g.IsMadeOf ps written) :
    g.assertion = "" ↔ ∀ c ∈ written.toList, c = '=' := by
  obtain ⟨pads, hwritten⟩ := trimEndOf_eq_encodeUrl_iff.1 h.text
  constructor
  · intro hempty
    have hnone : (Base64.encodeUrl (Utf8.encode "")).toList = [] := rfl
    rw [hwritten, hempty, hnone, List.nil_append]
    exact fun c hc => List.eq_of_mem_replicate hc
  · intro hall
    -- padding is no symbol of base 64, so nothing stands in front of it
    have hnone : (Base64.encodeUrl (Utf8.encode g.assertion)).toList = [] := by
      refine List.eq_nil_iff_forall_not_mem.2 fun c hc => not_isUrlSymbol_padding ?_
      rw [← hall c (hwritten ▸ List.mem_append_left _ hc)]
      exact Base64.isUrlSymbol_of_mem_encodeUrl _ c hc
    exact Utf8.encode_injective (Base64.encodeUrl_eq_empty_iff.1 (String.toList_eq_nil_iff.1 hnone))

end IsMadeOf

/-- **What makes up a grant.** -/
theorem ofParameters_eq_ok_iff : ofParameters ps = .ok g ↔ ∃ written, g.IsMadeOf ps written := by
  -- repetitions are looked for first; without them the values of a name are its value or none
  by_cases honce : ∀ q : GrantParameter, (Form.values q.name ps).length ≤ 1
  · have hvalue (q : GrantParameter) (o : Option String) :
        value? q ps = o ↔ Form.values q.name ps = o.toList :=
      (Form.values_eq_toList_iff (honce q)).symm
    simp only [ofParameters, firstRepeated?_ofName?_eq_none_iff.2 honce]
    split
    · next htype =>
      exact iff_of_false refuse_ne_ok fun ⟨_, h⟩ => htype ((hvalue .grantType _).2 h.grantType)
    · next htype =>
      simp only [bind_eq_ok_iff, orRefuse_eq_ok_iff, Option.filter_eq_some_iff,
        decodeAssertion_eq_ok_iff]
      constructor
      · rintro ⟨written, ⟨hwritten, hne⟩, text, htext, hg⟩
        obtain rfl := Except.ok.inj hg
        exact ⟨written, (hvalue .grantType _).1 (not_not.1 htype),
          (hvalue .assertion _).1 hwritten, by simpa using hne, htext, (hvalue .scope _).1 rfl,
          (hvalue .clientId _).1 rfl⟩
      · rintro ⟨written, h⟩
        refine ⟨written, ⟨(hvalue .assertion _).2 h.assertion, by simpa using h.not_empty⟩,
          g.assertion, h.text, ?_⟩
        rw [(hvalue .scope _).2 h.scope, (hvalue .clientId _).2 h.clientId]
        rfl
  · obtain ⟨q, hq⟩ := not_forall.1 honce
    obtain ⟨_, -, herror⟩ := exists_repeated_of_two_le (not_le.1 hq)
    rw [herror]
    exact iff_of_false (fun h => nomatch h) fun ⟨_, h⟩ => honce h.length_values_le_one

/-! ## Bodies -/

/-- The assertion in base 64 with so much padding behind it. -/
def padded (g : Grant) (pads : Nat) : String :=
  Base64.encodeUrl (Utf8.encode g.assertion) ++ String.ofList (List.replicate pads '=')

/-- The parameters that present a grant. -/
def parameters (g : Grant) (pads : Nat) : List Form.Parameter :=
  [⟨"grant_type", samlBearerGrantType⟩, ⟨"assertion", g.padded pads⟩]
    ++ (g.scope.map (Form.Parameter.mk "scope")).toList
    ++ (g.clientId.map (Form.Parameter.mk "client_id")).toList

theorem isMadeOf_parameters (h : g.assertion ≠ "") (pads : Nat) :
    g.IsMadeOf (g.parameters pads) (g.padded pads) := by
  have htext : Text.trimEndOf '=' (g.padded pads) = Base64.encodeUrl (Utf8.encode g.assertion) :=
    trimEndOf_eq_encodeUrl_iff.2 ⟨pads, by rw [padded, String.toList_append, String.toList_ofList]⟩
  have hempty : g.padded pads ≠ "" := by
    intro hnone
    rw [hnone] at htext
    exact h (Utf8.encode_injective (Base64.encodeUrl_eq_empty_iff.1 htext.symm))
  obtain ⟨assertion, scope, clientId⟩ := g
  cases scope with
  | none => cases clientId <;> exact ⟨rfl, rfl, hempty, htext, rfl, rfl⟩
  | some s => cases clientId <;> exact ⟨rfl, rfl, hempty, htext, rfl, rfl⟩

/-- **A grant is read from each body that presents it**, in whatever order, with whatever padding
behind the assertion, among whatever other parameters and however it is written. **No name that
counts may be repeated**: the body is refused then, for one of the names that are. -/
theorem parse_of_writesBody (hbody : Form.WritesBody ps body) :
    (∀ (g : Grant) (pads : Nat) (others : List Form.Parameter), g.assertion ≠ "" →
        (∀ p ∈ others, ∀ q : GrantParameter, p.name ≠ q.name) →
        ps.Perm (g.parameters pads ++ others) → parse body = .ok g)
      ∧ ∀ q : GrantParameter, 2 ≤ (Form.values q.name ps).length →
        ∃ r : GrantParameter, 2 ≤ (Form.values r.name ps).length
          ∧ parse body = .error (.malformed (.repeatedGrantParameter r)) := by
  rw [parse, Form.parameters_of_writesBody hbody]
  refine ⟨?_, fun q => exists_repeated_of_two_le⟩
  intro g pads others hne hothers hperm
  have hmade := ((isMadeOf_parameters hne pads).append hothers).of_perm hperm
  exact ofParameters_eq_ok_iff.2 ⟨_, hmade⟩

/-- A body in another order, with padding and empty pieces, where some marks are escaped and others
not and another parameter is repeated, once without a value; and a body with two scopes. -/
theorem parse_of_writesBody_mixed :
    let g : Grant := ⟨"<a/>", some "a b&c", some "app"⟩
    let others : List Form.Parameter := [⟨"x", "1"⟩, ⟨"x", ""⟩]
    let ps : List Form.Parameter :=
      [⟨"scope", "a b&c"⟩, ⟨"x", "1"⟩, ⟨"assertion", "PGEvPg=="⟩, ⟨"x", ""⟩, ⟨"client_id", "app"⟩,
        ⟨"grant_type", samlBearerGrantType⟩]
    let body := Utf8.encode ("scope=a+b%26c&x=1&&assertion=PGEvPg==&x&client_id=app&"
      ++ "grant_type=urn:ietf:params:oauth:grant-type:saml2-bearer&")
    let twice : List Form.Parameter := [⟨"scope", "read"⟩, ⟨"x", ""⟩, ⟨"scope", "write"⟩]
    Form.WritesBody ps body ∧ g.assertion ≠ ""
      ∧ (∀ p ∈ others, ∀ q : GrantParameter, p.name ≠ q.name)
      ∧ ps.Perm (g.parameters 2 ++ others) ∧ parse body = .ok g
      ∧ Form.WritesBody twice (Form.body twice)
      ∧ 2 ≤ (Form.values GrantParameter.scope.name twice).length
      ∧ ∃ r : GrantParameter,
        parse (Form.body twice) = .error (.malformed (.repeatedGrantParameter r)) := by
  intro g others ps body twice
  have raw {p : Form.Parameter} (hname : (Utf8.encode p.name).all (Form.MayStandInName ·) = true)
      (hvalue : (Utf8.encode p.value).all (Form.MayStandInValue ·) = true) :
      Form.WritesParameter p (Utf8.encode p.name ++ 0x3D :: Utf8.encode p.value) :=
    .pair (Form.writes_self hname) (Form.writes_self hvalue)
  have bare : Form.WritesParameter ⟨"x", ""⟩ (Utf8.encode "x") :=
    .nameOnly (Form.writes_self (by decide)) (by decide) rfl
  have hbody : Form.WritesBody ps body :=
    ⟨_, .cons (Form.writesParameter_escape _)
      <| .cons (raw (by decide) (by decide))
      <| .skip
      <| .cons (raw (by decide) (by decide))
      <| .cons bare
      <| .cons (raw (by decide) (by decide))
      <| .cons (raw (by decide) (by decide))
      <| .skip .nil, by decide⟩
  have hothers : ∀ p ∈ others, ∀ q : GrantParameter, p.name ≠ q.name := by
    have hx (q : GrantParameter) : "x" ≠ q.name := by cases q <;> decide
    intro p hp q
    rcases List.mem_pair.1 hp with rfl | rfl
    · exact hx q
    · exact hx q
  have hperm : ps.Perm (g.parameters 2 ++ others) := by decide
  have hparse := (parse_of_writesBody hbody).1 g 2 others (by decide) hothers hperm
  have htwice := Form.writesBody_body twice
  have htwo : 2 ≤ (Form.values GrantParameter.scope.name twice).length := by decide
  obtain ⟨r, -, herror⟩ := (parse_of_writesBody htwice).2 .scope htwo
  exact ⟨hbody, by decide, hothers, hperm, hparse, htwice, htwo, r, herror⟩

/-- **What an accepted body is**: it holds the grant type of assertions and an assertion, each once,
the assertion not empty and with padding or not, the text of the grant in base 64; and scope and
client as in the grant. The text of the grant is empty just if the assertion is padding only. -/
theorem parse_eq_ok_iff_isMadeOf (body : Bytes) (g : Grant) :
    parse body = .ok g
      ↔ ∃ written, g.IsMadeOf (Form.parameters body) written
        ∧ (g.assertion = "" ↔ ∀ c ∈ written.toList, c = '=') := by
  rw [parse, ofParameters_eq_ok_iff]
  constructor
  · rintro ⟨written, h⟩
    exact ⟨written, h, h.assertion_eq_empty_iff⟩
  · rintro ⟨written, h, -⟩
    exact ⟨written, h⟩

/-- An accepted body need not hold a text, since padding alone is not empty. -/
theorem not_filled_of_parse :
    ¬∀ (body : Bytes) (g : Grant), parse body = .ok g →
      Form.values "grant_type" (Form.parameters body) = [samlBearerGrantType]
        ∧ g.assertion ≠ ""
        ∧ ∃ written, Form.values "assertion" (Form.parameters body) = [written]
          ∧ Text.trimEndOf '=' written = Base64.encodeUrl (Utf8.encode g.assertion) := by
  intro h
  let body := Utf8.encode "grant_type=urn:ietf:params:oauth:grant-type:saml2-bearer&assertion=="
  have hparse : parse body = .ok ⟨"", none, none⟩ := by decide +kernel
  exact (h body _ hparse).2.1 rfl

end Saml.Grant

end Credential
