import Credential.Proofs.Client.Precedence
import Credential.Proofs.Text.Ascii
import Credential.Proofs.Text.Base64
import Credential.Proofs.Text.Blank
import Credential.Proofs.Text.Escape

/-!
# Basic credentials

A client id and a secret are written as the names and values of forms are, with a colon between
them, and the octets of that in base 64. Reading takes these layers off one after the other. A colon
within the id or the secret is always escaped, so the first colon is the one between them; and all
that is written is ASCII, so it is cut as text where it was put together as octets.
-/

namespace Credential.Client

/-- The octets that may stand for themselves in Basic credentials: ASCII without the space, the
colon, the percent and the plus sign. -/
def MayStandInBasic (x : UInt8) : Prop :=
  x < 0x80 ∧ x ≠ 0x20 ∧ x ≠ 0x3A ∧ x ≠ 0x25 ∧ x ≠ 0x2B

theorem mayStandInBasic_of_isPlain (x : UInt8) (h : Form.isPlain x = true) :
    MayStandInBasic x := by
  simp only [Form.isPlain, UInt8.le_iff_toNat_le, UInt8.reduceToNat, Bool.or_eq_true,
    Bool.and_eq_true, decide_eq_true_eq, beq_iff_eq, ← UInt8.toNat_inj] at h
  simp only [MayStandInBasic, UInt8.lt_iff_toNat_lt, UInt8.reduceToNat, ne_eq, ← UInt8.toNat_inj]
  omega

/-- The value of a header with Basic credentials for a written client id and a written secret. -/
def basicHeader (id secret : Bytes) : String :=
  "Basic " ++ Base64.encodePadded (id ++ 0x3A :: secret)

namespace Request

variable {r : Request} {b w v : Bytes}

/-! ## Written names -/

theorem ascii_of_writes (h : Form.Writes MayStandInBasic b w) : ∀ x ∈ w, x < 0x80 :=
  Form.forall_mem_of_writes (fun _ hx => hx.1) (by decide) (by decide)
    (fun _ _ => Form.lt_of_octetValue) h

theorem colon_not_mem_of_writes (h : Form.Writes MayStandInBasic b w) : 0x3A ∉ w :=
  Form.not_mem_of_writes (fun _ hx => hx.2.2.1) (by decide) (by decide) (by decide) h

/-- **A written name is read back.** -/
theorem readEscaped_of_writes {s : String} (h : Form.Writes MayStandInBasic (Utf8.encode s) w) :
    readEscaped (Utf8.asciiChars w) = .ok s := by
  rw [readEscaped, Utf8.encode_asciiChars (ascii_of_writes h),
    Form.unescape_of_writes (fun _ hx => hx.2.2.2) h, Utf8.decode_encode]
  rfl

/-! ## The header -/

/-- Padded text has no white space around it. -/
theorem trimChars_encodePadded (b : Bytes) :
    Text.trimChars (Base64.encodePadded b).toList = (Base64.encodePadded b).toList := by
  refine Text.trimChars_eq_self ?_
  rw [Base64.encodePadded, String.toList_ofList, List.forall_mem_append]
  refine ⟨Base64.forall_mem_encodeChars (by decide) b, fun c hc => ?_⟩
  rw [List.eq_of_mem_replicate hc]
  decide

/-- The first colon is the one between the written id and the written secret. -/
theorem cutFirst?_asciiChars (hw : 0x3A ∉ w) (v : Bytes) :
    Text.cutFirst? ':' (Utf8.asciiChars (w ++ 0x3A :: v))
      = some (Utf8.asciiChars w, Utf8.asciiChars v) := by
  rw [Utf8.asciiChars, List.map_append, List.map_cons]
  exact Text.cutFirst?_append ':' _ _ (mt (Utf8.mem_asciiChars_iff (x := 0x3A)).1 hw)

theorem readBasic_of_writes {id : ClientId} {secret : String}
    (hid : Form.Writes MayStandInBasic (Utf8.encode id.value) w)
    (hsecret : Form.Writes MayStandInBasic (Utf8.encode secret) v) :
    readBasic (Utf8.encode (" " ++ Base64.encodePadded (w ++ 0x3A :: v)))
      = .ok (.secretBasic id (.lasting secret)) := by
  have hascii : ∀ x ∈ w ++ 0x3A :: v, x < 0x80 := by
    rw [List.forall_mem_append, List.forall_mem_cons]
    exact ⟨ascii_of_writes hid, by decide, ascii_of_writes hsecret⟩
  have hspace : " ".toList = [' '] := by decide
  have hoctets : Base64.decodePadded
      (Text.trimChars (" " ++ Base64.encodePadded (w ++ 0x3A :: v)).toList)
      = some (w ++ 0x3A :: v) := by
    rw [String.toList_append, hspace, List.singleton_append, Text.trimChars_cons (by decide),
      trimChars_encodePadded, Base64.decodePadded_encodePadded]
  have hcut : Text.cutFirst? ':' (String.ofList (Utf8.asciiChars (w ++ 0x3A :: v))).toList
      = some (Utf8.asciiChars w, Utf8.asciiChars v) := by
    rw [String.toList_ofList, cutFirst?_asciiChars (colon_not_mem_of_writes hid)]
  simp only [readBasic, bind_eq_ok_iff, orRefuse_eq_ok_iff]
  exact ⟨_, Utf8.decode_encode _, _, hoctets, _, Utf8.decode_of_ascii hascii, _, hcut,
    _, readEscaped_of_writes hid, _, Identifier.ofString_value id,
    _, readEscaped_of_writes hsecret, rfl⟩

/-- **Basic credentials are read back.** -/
theorem presented_basicHeader {id : ClientId} {secret : String}
    (hid : Form.Writes MayStandInBasic (Utf8.encode id.value) w)
    (hsecret : Form.Writes MayStandInBasic (Utf8.encode secret) v)
    (hheader : r.header? "Authorization" = some (Utf8.encode (basicHeader w v))) :
    r.presented = .ok (.secretBasic id (.lasting secret)) := by
  have hvalue : Utf8.encode (basicHeader w v)
      = basicScheme ++ Utf8.encode (" " ++ Base64.encodePadded (w ++ 0x3A :: v)) := by
    rw [basicScheme, ← Utf8.encode_append, ← String.append_assoc]
    rfl
  rw [hvalue] at hheader
  rw [presented_of_basic hheader (List.prefix_append _ _), List.drop_left]
  exact readBasic_of_writes hid hsecret

/-- A header whose id and secret hold the marks themselves, in a request that has a form too. -/
theorem presented_basicHeader_marks :
    let id : ClientId := ⟨"my:client+%41", by decide⟩
    let secret := "p@ss w\u00F6rd:\n"
    let header :=
      basicHeader (Form.escape (Utf8.encode id.value)) (Form.escape (Utf8.encode secret))
    let r : Request := ⟨"POST", [("Authorization", Utf8.encode header)], Utf8.encode "client_id=x"⟩
    Form.Writes MayStandInBasic (Utf8.encode id.value) (Form.escape (Utf8.encode id.value))
      ∧ Form.Writes MayStandInBasic (Utf8.encode secret) (Form.escape (Utf8.encode secret))
      ∧ r.header? "Authorization" = some (Utf8.encode header)
      ∧ r.presented = .ok (.secretBasic id (.lasting secret)) := by
  intro id secret header r
  have hwrites := Form.writes_escape mayStandInBasic_of_isPlain
  have hheader : r.header? "Authorization" = some (Utf8.encode header) := by simp [header?, r]
  exact ⟨hwrites _, hwrites _, hheader, presented_basicHeader (hwrites _) (hwrites _) hheader⟩

end Request

end Credential.Client
