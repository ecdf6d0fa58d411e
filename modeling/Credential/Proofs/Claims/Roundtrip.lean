import Credential.Proofs.Claims.Date
import Credential.Proofs.Json.Members

/-!
# Claims written and read again

Claims that hold no registered name besides their fields are read again from the object that holds
them, up to the fractions of seconds of their dates (`ofMembers_toMembers`). Claims that were read
have neither, and so they come back as they are. What is written of them is what they were read
from, each registered claim in one of its forms (`Kept`) and every other member as it was.
-/

namespace Credential.Claims

variable {ms : Json.Members} {c : Claims} {name : String}

/-! ## Members of the written object -/

/-- The members besides the fields have names that are not registered. -/
def IsSeparate (c : Claims) : Prop := ∀ m ∈ c.other, m.1 ∉ registered

theorem get?_put (name other : String) (v : Option Json) (ms : Json.Members) :
    (put name v ms).get? other = if name = other then v.or (ms.get? other) else ms.get? other := by
  cases v with
  | none => simp [put]
  | some v => rw [put, Json.Members.get?_insert, Option.some_or]

theorem unregistered_put (h : name ∈ registered) (v : Option Json) (ms : Json.Members) :
    unregistered (put name v ms) = unregistered ms := by
  cases v with
  | none => rfl
  | some v => exact Json.Members.filter_insert v fun v => by simpa using h

theorem sorted_put (v : Option Json) (h : ms.Sorted) : (put name v ms).Sorted := by
  cases v with
  | none => exact h
  | some v => exact Json.Members.sorted_insert name v ms h

theorem unregistered_toMembers (h : c.IsSeparate) : unregistered c.toMembers = c.other := by
  rw [toMembers]
  repeat rw [unregistered_put (by decide)]
  exact List.filter_eq_self.2 fun m hm => by simpa using h m hm

theorem sorted_toMembers (h : c.other.Sorted) : c.toMembers.Sorted := by
  unfold toMembers
  repeat apply sorted_put
  exact h

theorem get?_toMembers_of_not_registered (hname : name ∉ registered) :
    c.toMembers.get? name = c.other.get? name := by
  simp only [registered, List.mem_cons, not_or] at hname
  simp [toMembers, get?_put, hname, eq_comm]

/-- The written object has each field under its name. -/
structure HoldsFields (c : Claims) (ms : Json.Members) : Prop where
  issuer : ms.get? "iss" = c.issuer.map fun i => .string i.value
  subject : ms.get? "sub" = c.subject.map fun i => .string i.value
  audience : ms.get? "aud" = audienceJson c.audience
  date : ∀ d : DateClaim, ms.get? d.name = (d.get? c).map dateJson
  jwtId : ms.get? "jti" = c.jwtId.map fun i => .string i.value

theorem holdsFields_toMembers (h : c.IsSeparate) : c.HoldsFields c.toMembers := by
  have hother (name : String) (hname : name ∈ registered) : c.other.get? name = none :=
    Json.Members.get?_eq_none_of_forall fun m hm he => h m hm (he ▸ hname)
  constructor
  · simp [toMembers, get?_put, hother "iss" (by decide)]
  · simp [toMembers, get?_put, hother "sub" (by decide)]
  · simp [toMembers, get?_put, hother "aud" (by decide)]
  · intro d
    have hd := hother d.name d.name_mem_registered
    cases d <;> simp [toMembers, get?_put, DateClaim.name, DateClaim.get?] at hd ⊢ <;> simp [hd]
  · simp [toMembers, get?_put, hother "jti" (by decide)]

/-! ## Reading the written object -/

theorem readIdentifier_of_get? {kind : IdentifierKind} {o : Option (Identifier kind)}
    (h : ms.get? name = o.map fun i => .string i.value) : readIdentifier kind ms name = .ok o := by
  rw [readIdentifier, readText, h]
  cases o with
  | none => rfl
  | some i =>
    show (do return some (← Identifier.ofString kind i.value)) = _
    rw [Identifier.ofString_value]
    rfl

theorem mapM_readAudienceEntry (as : List Audience) :
    (as.map fun a => Json.string a.value).mapM readAudienceEntry = .ok as := by
  induction as with
  | nil => rfl
  | cons a as ih =>
    rw [List.map_cons, List.mapM_cons, ih, readAudienceEntry, Identifier.ofString_value]
    rfl

theorem readAudience_of_get? {as : List Audience} (h : ms.get? "aud" = audienceJson as) :
    readAudience ms = .ok as := by
  rw [readAudience, h]
  -- the cases of `audienceJson`
  rcases as with _ | ⟨a, _ | ⟨b, as⟩⟩
  · rfl
  · show (do return [← Identifier.ofString .audience a.value]) = _
    rw [Identifier.ofString_value]
    rfl
  · exact mapM_readAudienceEntry (a :: b :: as)

theorem readOptionalDate_of_get? {o : Option Instant} (h : ms.get? name = o.map dateJson) :
    readOptionalDate ms name = .ok (o.map Instant.floorSecond) := by
  cases o with
  | none =>
    rw [readOptionalDate, h]
    rfl
  | some t =>
    refine (readOptionalDate_eq_ok_iff h).2 ⟨t.floorSecond, ⟨?_, rfl⟩, rfl⟩
    exact (Int.floor_intCast (R := ℚ) t.second).symm

/-- The claims with their dates at the starts of their seconds. -/
def inWholeSeconds (c : Claims) : Claims :=
  { c with
    expiration := c.expiration.map Instant.floorSecond
    notBefore := c.notBefore.map Instant.floorSecond
    issuedAt := c.issuedAt.map Instant.floorSecond }

theorem get?_inWholeSeconds (d : DateClaim) :
    d.get? c.inWholeSeconds = (d.get? c).map Instant.floorSecond := by cases d <;> rfl

/-- **What is written is read again**, up to fractions of seconds. -/
theorem ofMembers_toMembers (h : c.IsSeparate) : ofMembers c.toMembers = .ok c.inWholeSeconds :=
  have hfields := holdsFields_toMembers h
  ofMembers_eq_ok_iff.2
    { issuer := readIdentifier_of_get? hfields.issuer
      subject := readIdentifier_of_get? hfields.subject
      audience := readAudience_of_get? hfields.audience
      date := fun d => (readOptionalDate_of_get? (hfields.date d)).trans
        (congrArg _ (get?_inWholeSeconds d).symm)
      jwtId := readIdentifier_of_get? hfields.jwtId
      other := (unregistered_toMembers h).symm }

theorem toMembers_inWholeSeconds (c : Claims) : c.inWholeSeconds.toMembers = c.toMembers := by
  have hdate (o : Option Instant) : (o.map Instant.floorSecond).map dateJson = o.map dateJson := by
    rw [Option.map_map]
    rfl
  simp only [toMembers, inWholeSeconds, hdate]

/-! ## Claims that were read -/

theorem ReadFrom.isSeparate (h : ReadFrom ms c) : c.IsSeparate := fun m hm => by
  rw [h.other] at hm
  simpa using (List.mem_filter.1 hm).2

/-- A date is missing, or the start of the second of a number. -/
theorem cases_of_readOptionalDate {o : Option Instant} (h : readOptionalDate ms name = .ok o) :
    (o = none ∧ (ms.get? name = none ∨ ms.get? name = some .null))
      ∨ ∃ n t, ms.get? name = some (.number n) ∧ t.Starts ⌊n.value⌋ ∧ o = some t := by
  cases hv : ms.get? name with
  | none =>
    rw [readOptionalDate, hv] at h
    exact Or.inl ⟨(Except.ok.inj h).symm, Or.inl rfl⟩
  | some v =>
    cases v with
    | null =>
      rw [readOptionalDate, hv] at h
      exact Or.inl ⟨(Except.ok.inj h).symm, Or.inr rfl⟩
    | number n =>
      obtain ⟨t, ht, ho⟩ := (readOptionalDate_eq_ok_iff hv).1 h
      exact Or.inr ⟨n, t, rfl, ht, ho⟩
    | _ =>
      rw [readOptionalDate, hv] at h
      cases h

theorem ReadFrom.inWholeSeconds_eq (h : ReadFrom ms c) : c.inWholeSeconds = c := by
  have hdate (d : DateClaim) : (d.get? c).map Instant.floorSecond = d.get? c := by
    rcases cases_of_readOptionalDate (h.date d) with ⟨hnone, -⟩ | ⟨n, t, -, ht, hsome⟩
    · rw [hnone]
      rfl
    · rw [hsome]
      exact congrArg some (Instant.ext rfl ht.2.symm)
  have hexpiration := hdate .expiration
  have hnotBefore := hdate .notBefore
  have hissuedAt := hdate .issuedAt
  simp only [DateClaim.get?] at hexpiration hnotBefore hissuedAt
  rw [inWholeSeconds, hexpiration, hnotBefore, hissuedAt]

/-- **Claims that were read are read again as they are.** -/
theorem ReadFrom.ofMembers_toMembers (h : ReadFrom ms c) : ofMembers c.toMembers = .ok c := by
  rw [Claims.ofMembers_toMembers h.isSeparate, h.inWholeSeconds_eq]

/-! ## What is kept of an object -/

/-- What becomes of the value of a member: a claim that is not registered is kept, and a registered
one takes the one form it is written in. -/
inductive Kept : (name : String) → (before after : Option Json) → Prop
  | other {name : String} {v : Option Json} (h : name ∉ registered) : Kept name v v
  | missing {name : String} (h : name ∈ registered) : Kept name none none
  | null {name : String} (h : name ∈ registered) : Kept name (some .null) none
  | text {name s : String} (h : name ∈ ["iss", "sub", "jti"]) :
    Kept name (some (.string s)) (some (.string s))
  | oneAudience {s : String} : Kept "aud" (some (.string s)) (some (.string s))
  | noAudience : Kept "aud" (some (.array [])) none
  | listOfOne {s : String} : Kept "aud" (some (.array [.string s])) (some (.string s))
  | audiences {ss : List String} (h : 2 ≤ ss.length) :
    Kept "aud" (some (.array (ss.map .string))) (some (.array (ss.map .string)))
  | date {d : DateClaim} {n : Json.Number} (h : Json.Number.Fits ⌊n.value⌋) :
    Kept d.name (some (.number n)) (some (.number (.int ⌊n.value⌋ h)))

theorem kept_text {kind : IdentifierKind} {o : Option (Identifier kind)}
    (hname : name ∈ ["iss", "sub", "jti"]) (h : readIdentifier kind ms name = .ok o) :
    Kept name (ms.get? name) (o.map fun i => .string i.value) := by
  have hregistered : name ∈ registered :=
    (by decide : ∀ name ∈ ["iss", "sub", "jti"], name ∈ registered) name hname
  rw [readIdentifier, readText] at h
  cases hv : ms.get? name with
  | none =>
    rw [hv] at h
    obtain rfl := Except.ok.inj h
    exact .missing hregistered
  | some v =>
    rw [hv] at h
    cases v with
    | null =>
      obtain rfl := Except.ok.inj h
      exact .null hregistered
    | string s =>
      change (do return some (← Identifier.ofString kind s)) = _ at h
      obtain ⟨i, hi, h⟩ := bind_eq_ok_iff.1 h
      obtain rfl := Except.ok.inj h
      rw [Option.map_some, Identifier.ofString_eq_ok_iff.1 hi]
      exact .text hname
    | _ => cases h

theorem eq_map_of_mapM {vs : List Json} {as : List Audience}
    (h : vs.mapM readAudienceEntry = .ok as) : vs = as.map fun a => .string a.value := by
  induction vs generalizing as with
  | nil =>
    obtain rfl := Except.ok.inj h
    rfl
  | cons v vs ih =>
    rw [List.mapM_cons] at h
    obtain ⟨a, ha, h⟩ := bind_eq_ok_iff.1 h
    obtain ⟨rest, hrest, h⟩ := bind_eq_ok_iff.1 h
    obtain rfl := Except.ok.inj h
    rw [List.map_cons, ← ih hrest]
    cases v with
    | string s => rw [Identifier.ofString_eq_ok_iff.1 ha]
    | _ => cases ha

theorem kept_audience {as : List Audience} (h : readAudience ms = .ok as) :
    Kept "aud" (ms.get? "aud") (audienceJson as) := by
  rw [readAudience] at h
  cases hv : ms.get? "aud" with
  | none =>
    rw [hv] at h
    obtain rfl := Except.ok.inj h
    exact .missing (by decide)
  | some v =>
    rw [hv] at h
    cases v with
    | null =>
      obtain rfl := Except.ok.inj h
      exact .null (by decide)
    | string s =>
      obtain ⟨a, ha, h⟩ := bind_eq_ok_iff.1 h
      obtain rfl := Except.ok.inj h
      rw [audienceJson, Identifier.ofString_eq_ok_iff.1 ha]
      exact .oneAudience
    | array vs =>
      obtain rfl := eq_map_of_mapM h
      rcases as with _ | ⟨a, _ | ⟨b, as⟩⟩
      · exact .noAudience
      · exact .listOfOne
      · have hlist : 2 ≤ ((a :: b :: as).map (·.value)).length := by simp
        have hkept := Kept.audiences hlist
        rwa [List.map_map] at hkept
    | _ => cases h

theorem kept_date {d : DateClaim} {o : Option Instant} (h : readOptionalDate ms d.name = .ok o) :
    Kept d.name (ms.get? d.name) (o.map dateJson) := by
  rcases cases_of_readOptionalDate h with ⟨rfl, hv | hv⟩ | ⟨n, t, hv, ht, rfl⟩
  · rw [hv]
    exact .missing d.name_mem_registered
  · rw [hv]
    exact .null d.name_mem_registered
  · have hfits := fits_second t
    rw [ht.1] at hfits
    have hwritten : dateJson t = .number (.int ⌊n.value⌋ hfits) := by
      simp only [dateJson, ht.1]
    rw [hv, Option.map_some, hwritten]
    exact .date hfits

/-- **What is written is what was read**, each member in its own form. -/
theorem ReadFrom.kept (h : ReadFrom ms c) (name : String) :
    Kept name (ms.get? name) (c.toMembers.get? name) := by
  by_cases hname : name ∈ registered
  · have hfields := holdsFields_toMembers h.isSeparate
    simp only [registered, List.mem_cons, List.not_mem_nil, or_false] at hname
    rcases hname with rfl | rfl | rfl | rfl | rfl | rfl | rfl
    · exact hfields.issuer ▸ kept_text (by decide) h.issuer
    · exact hfields.subject ▸ kept_text (by decide) h.subject
    · exact hfields.audience ▸ kept_audience h.audience
    · exact hfields.date .expiration ▸ kept_date (h.date .expiration)
    · exact hfields.date .notBefore ▸ kept_date (h.date .notBefore)
    · exact hfields.date .issuedAt ▸ kept_date (h.date .issuedAt)
    · exact hfields.jwtId ▸ kept_text (by decide) h.jwtId
  · rw [get?_toMembers_of_not_registered hname, h.other, unregistered,
      Json.Members.get?_filter fun v => by simpa using hname]
    exact .other hname

/-! ## Round trips -/

/-- **Claims survive being written and read again.** -/
structure RoundTrips (parse : Bytes → Result Claims) (read : Json.Members → Result Claims)
    (write : Claims → Json.Members) : Prop where
  /-- The claims of a text come back from the object that is written of them. -/
  parsed : ∀ payload c, parse payload = .ok c → read (write c) = .ok c
  /-- It is an object: its names are in order, and none occurs twice. -/
  sorted : ∀ payload c, parse payload = .ok c → (write c).Sorted
  /-- It has the members of the text in the one form that each is written in. -/
  kept : ∀ payload c, parse payload = .ok c → ∃ written, Json.writtenMembers? payload = some written
    ∧ ∀ name, Kept name (Json.last? name written) ((write c).get? name)
  /-- Writing undoes reading on all that is read. -/
  write_read : ∀ ms c, read ms = .ok c → read (write c) = .ok c
  /-- Reading undoes writing on all that is written of claims that hold no registered name besides
  their fields. -/
  read_write : ∀ c, c.IsSeparate → ∃ c', read (write c) = .ok c' ∧ write c' = write c

theorem readFrom_of_parse {payload : Bytes} (h : parse payload = .ok c) :
    ∃ written, Json.writtenMembers? payload = some written
      ∧ ReadFrom (Json.Members.ofList written) c := by
  obtain ⟨v, hv, h⟩ := bind_eq_ok_iff.1 h
  cases v with
  | object ms =>
    obtain ⟨written, hwritten, rfl⟩ := Json.Members.parse_eq_object_iff.1 (orRefuse_eq_ok_iff.1 hv)
    exact ⟨written, hwritten, ofMembers_eq_ok_iff.1 h⟩
  | _ => exact absurd h refuse_ne_ok

/-- **Claims make round trips.** -/
theorem roundTrips : RoundTrips parse ofMembers toMembers where
  parsed := fun payload c h => by
    obtain ⟨written, -, hread⟩ := readFrom_of_parse h
    exact hread.ofMembers_toMembers
  sorted := fun payload c h => by
    obtain ⟨written, -, hread⟩ := readFrom_of_parse h
    refine sorted_toMembers ?_
    rw [hread.other]
    exact (Json.Members.sorted_ofList written).filter _
  kept := fun payload c h => by
    obtain ⟨written, hwritten, hread⟩ := readFrom_of_parse h
    refine ⟨written, hwritten, fun name => ?_⟩
    rw [← Json.Members.get?_ofList]
    exact hread.kept name
  write_read := fun ms c h => (ofMembers_eq_ok_iff.1 h).ofMembers_toMembers
  read_write := fun c h => ⟨_, ofMembers_toMembers h, toMembers_inWholeSeconds c⟩

/-- A repeated name, a list of one audience, a time before the epoch and a member with a list. -/
def repeatedIssuer : Bytes :=
  Utf8.encode ("\x7b\"iss\":\"a\",\"aud\":[\"x\"],\"exp\":-0.5,\"nbf\":null,\"s\":[1,\"y\"],"
    ++ "\"iss\":\"b\"\x7d")

theorem roundTrips_repeatedIssuer :
    ∃ c, parse repeatedIssuer = .ok c ∧ ofMembers c.toMembers = .ok c := by
  obtain ⟨c, hc⟩ := exists_eq_ok_of_isSome (x := parse repeatedIssuer) (by decide +kernel)
  exact ⟨c, hc, roundTrips.parsed repeatedIssuer c hc⟩

end Credential.Claims
