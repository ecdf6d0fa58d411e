import Credential.Proofs.Client.Precedence
import Credential.Proofs.Text.Ascii
import Credential.Proofs.Text.Blank

/-!
# Where forms are read

Without Basic credentials a request presents something only as a form that is posted, and its
content type must start like that of forms (`readsForms_iff`). What follows that start is not looked
at. Parameters may stand there after a semicolon, and the media type is that of forms just if there
is nothing but white space before it; but a longer name may stand there as well, and then the body
is read as a form though its media type is another one (`not_isFormType_of_presented`).
-/

namespace Credential.Client

/-! ## Content types -/

/-- The media type that a content type names: what stands before the first semicolon, without white
space around it. -/
def mediaType (value : Bytes) : List Char :=
  Text.trimChars (Utf8.asciiChars (value.takeWhile (· != 0x3B)))

/-- The media type is that of forms, in any case. -/
def IsFormType (value : Bytes) : Prop :=
  (mediaType value).map Char.toLower = "application/x-www-form-urlencoded".toList

instance (value : Bytes) : Decidable (IsFormType value) := inferInstanceAs (Decidable (_ = _))

/-- The content type is a text that starts like that of forms, in any case. -/
structure StartsLikeForm (value type rest : Bytes) : Prop where
  split : value = type ++ rest
  type : type.map Request.lowerOctet = Request.formType
  text : ∀ x ∈ value, Request.isHeaderText x = true

variable {value type rest : Bytes}

theorem forall_octet {P : UInt8 → Prop} (h : ∀ n < 256, P (UInt8.ofNat n)) (x : UInt8) : P x := by
  have hx := h x.toNat x.toNat_lt
  rwa [UInt8.ofNat_toNat] at hx

/-- Octets and their characters have the same lower case. -/
theorem toLower_octet :
    ∀ x : UInt8, (Char.ofNat x.toNat).toLower = Char.ofNat (Request.lowerOctet x).toNat :=
  forall_octet (by decide +kernel)

/-- In the type of forms there is neither a semicolon nor white space. -/
theorem of_lowerOctet_mem_formType :
    ∀ x : UInt8, Request.lowerOctet x ∈ Request.formType →
      x ≠ 0x3B ∧ Text.isBlank (Char.ofNat x.toNat) = false :=
  forall_octet (by decide +kernel)

theorem toLower_asciiChars (b : Bytes) :
    (Utf8.asciiChars b).map Char.toLower = Utf8.asciiChars (b.map Request.lowerOctet) := by
  rw [Utf8.asciiChars, Utf8.asciiChars, List.map_map, List.map_map]
  exact List.map_congr_left fun x _ => toLower_octet x

theorem asciiChars_formType :
    Utf8.asciiChars Request.formType = "application/x-www-form-urlencoded".toList := by
  decide +kernel

namespace StartsLikeForm

variable (h : StartsLikeForm value type rest)

include h

theorem toLower_type :
    (Utf8.asciiChars type).map Char.toLower = "application/x-www-form-urlencoded".toList := by
  rw [toLower_asciiChars, h.type, asciiChars_formType]

theorem lowerOctet_mem (x : UInt8) (hx : x ∈ type) : Request.lowerOctet x ∈ Request.formType :=
  h.type ▸ List.mem_map_of_mem hx

/-- **A content type that starts like that of forms names it just if nothing but white space follows
before a semicolon.** -/
theorem isFormType_iff :
    IsFormType value
      ↔ ∀ c ∈ Utf8.asciiChars (rest.takeWhile (· != 0x3B)), Text.isBlank c = true := by
  have hsemicolon : ∀ x ∈ type, (x != 0x3B) = true := fun x hx =>
    bne_iff_ne.2 (of_lowerOctet_mem_formType x (h.lowerOctet_mem x hx)).1
  have hblank : ∀ c ∈ Utf8.asciiChars type, Text.isBlank c = false := fun c hc => by
    obtain ⟨x, hx, rfl⟩ := List.mem_map.1 hc
    exact (of_lowerOctet_mem_formType x (h.lowerOctet_mem x hx)).2
  have hne : Utf8.asciiChars type ≠ [] := fun hnil => by
    have htype := h.toLower_type
    rw [hnil] at htype
    exact absurd htype (by decide)
  obtain ⟨es, htrim, hes⟩ := Text.exists_trimChars_append hne hblank
    (Utf8.asciiChars (rest.takeWhile (· != 0x3B)))
  rw [IsFormType, mediaType, h.split, List.takeWhile_append_of_pos hsemicolon, Utf8.asciiChars,
    List.map_append, ← Utf8.asciiChars, ← Utf8.asciiChars, htrim, List.map_append, h.toLower_type,
    List.append_right_eq_self, List.map_eq_nil_iff, hes]

end StartsLikeForm

namespace Request

variable {r : Request}

theorem isFormPost_iff :
    r.isFormPost = true ↔ r.method = "POST"
      ∧ ∃ value type rest, r.header? "Content-Type" = some value
        ∧ StartsLikeForm value type rest := by
  unfold isFormPost
  rw [Bool.and_eq_true, beq_iff_eq]
  refine and_congr_right fun _ => ?_
  cases r.header? "Content-Type" with
  | none => exact iff_of_false Bool.false_ne_true fun ⟨_, _, _, h, _⟩ => nomatch h
  | some value =>
    simp only [Bool.and_eq_true, List.all_eq_true, beq_iff_eq, Option.some.injEq]
    constructor
    · rintro ⟨htext, htype⟩
      exact ⟨value, _, _, rfl, (List.take_append_drop _ _).symm, htype, htext⟩
    · rintro ⟨_, type, rest, rfl, h⟩
      refine ⟨h.text, ?_⟩
      have hlength : type.length = formType.length := by
        rw [← h.type, List.length_map]
      rw [h.split, ← hlength, List.take_left, h.type]

/-! ## What is presented -/

theorem presented_of_not_form (hbasic : ¬ r.IsBasic) (hform : r.isFormPost = false) :
    r.presented = .ok (.none none) := by
  rw [presented, basicCredentials?_of_not_basic hbasic, formParameters, hform]
  rfl

/-- A form with nothing but a client id. -/
theorem presented_of_form (hbasic : ¬ r.IsBasic) (hform : r.isFormPost = true)
    (hbody : r.body = Utf8.encode "client_id=app") :
    r.presented = .ok (.none (some ⟨"app", by decide⟩)) := by
  have hps : r.form = [⟨"client_id", "app"⟩] := by
    rw [form, hform, hbody]
    decide +kernel
  have hreads : r.ReadsForm := ⟨hbasic, by rw [hps]; decide⟩
  rw [hreads.presented_eq, hps]
  rfl

/-- **Forms are read where they are posted with a content type that starts like theirs.** Of those
content types just the ones name forms in which nothing but white space follows before a
semicolon. -/
theorem readsForms_iff (hbasic : ¬ r.IsBasic) :
    ((∃ body, ({ r with body := body } : Request).presented ≠ .ok (.none none))
      ↔ r.method = "POST"
        ∧ ∃ value type rest, r.header? "Content-Type" = some value ∧ StartsLikeForm value type rest)
    ∧ ∀ value type rest, r.header? "Content-Type" = some value → StartsLikeForm value type rest →
      (IsFormType value
        ↔ ∀ c ∈ Utf8.asciiChars (rest.takeWhile (· != 0x3B)), Text.isBlank c = true) := by
  refine ⟨?_, fun value type rest _ h => h.isFormType_iff⟩
  rw [← isFormPost_iff]
  constructor
  · rintro ⟨body, h⟩
    by_contra hform
    have hform' : r.isFormPost = false := Bool.eq_false_iff.2 hform
    exact h (presented_of_not_form (r := { r with body := body }) hbasic hform')
  · intro hform
    refine ⟨Utf8.encode "client_id=app", ?_⟩
    rw [presented_of_form (r := { r with body := Utf8.encode "client_id=app" }) hbasic hform rfl]
    intro h
    cases h

/-! ## A longer name -/

/-- A content type with a longer name than that of forms. -/
def longerType : Bytes := Utf8.encode "application/x-www-form-urlencodedX"

/-- A body that is posted under it. -/
def postedUnderLongerType : Request :=
  ⟨"POST", [("Content-Type", longerType)], Utf8.encode "client_id=post&client_secret=p"⟩

theorem header?_postedUnderLongerType :
    postedUnderLongerType.header? "Content-Type" = some longerType := by
  decide +kernel

theorem not_isBasic_postedUnderLongerType : ¬ postedUnderLongerType.IsBasic := by
  have hnone : postedUnderLongerType.header? "Authorization" = none := by decide +kernel
  rintro ⟨value, hvalue, -⟩
  rw [hnone] at hvalue
  cases hvalue

theorem startsLikeForm_longerType :
    StartsLikeForm longerType (Utf8.encode "application/x-www-form-urlencoded") [0x58] where
  split := by decide +kernel
  type := by decide +kernel
  text := by decide +kernel

theorem readsForms_iff_longerType :
    ¬ postedUnderLongerType.IsBasic
      ∧ (∃ body, ({ postedUnderLongerType with body := body } : Request).presented
        ≠ .ok (.none none))
      ∧ ¬ IsFormType longerType :=
  have hreads := readsForms_iff not_isBasic_postedUnderLongerType
  have hheader := header?_postedUnderLongerType
  ⟨not_isBasic_postedUnderLongerType,
    hreads.1.2 ⟨rfl, longerType, _, _, hheader, startsLikeForm_longerType⟩,
    fun htype => absurd ((hreads.2 _ _ _ hheader startsLikeForm_longerType).1 htype 'X' (by decide))
      (by decide)⟩

/-- **A body under another media type is read as a form**, if the name of that type only starts like
that of forms. -/
theorem not_isFormType_of_presented :
    ¬ ∀ r : Request, ¬ r.IsBasic → r.presented ≠ .ok (.none none) →
      r.method = "POST" ∧ ∃ value, r.header? "Content-Type" = some value ∧ IsFormType value := by
  intro h
  have hpost : postedUnderLongerType.isFormPost = true :=
    isFormPost_iff.2 ⟨rfl, _, _, _, header?_postedUnderLongerType, startsLikeForm_longerType⟩
  have hform : postedUnderLongerType.form
      = [⟨"client_id", "post"⟩, ⟨"client_secret", "p"⟩] := by
    rw [form, if_pos hpost]
    decide +kernel
  have hreads : postedUnderLongerType.ReadsForm :=
    ⟨not_isBasic_postedUnderLongerType, by rw [hform]; decide⟩
  have hsecret : postedUnderLongerType.HoldsSecret "post" "p" :=
    ⟨by rw [Holds, hform]; decide, by rw [Holds, hform]; decide⟩
  have hpresented : postedUnderLongerType.presented ≠ .ok (.none none) := by
    rw [hreads.presented_of_secret hsecret]
    intro hnone
    cases hnone
  obtain ⟨-, value, hvalue, htype⟩ := h _ not_isBasic_postedUnderLongerType hpresented
  obtain rfl := Option.some.inj (header?_postedUnderLongerType.symm.trans hvalue)
  exact absurd htype (by decide +kernel)

end Request

end Credential.Client
