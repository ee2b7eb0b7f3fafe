import InfraFi.Flipper.NfcFormat
import InfraFi.Flipper.NfcTag

/-! # What the parser makes of a well-formed tag

Containers are transparent: the parser goes through the attributes as if they
stood next to each other, and the last value of each kind stays.
-/
namespace InfraFi.Flipper.Nfc
open Base Protocol

/-! ## Numbers -/

section Numbers
variable {tag rest : Bytes} {i n : ℕ}

theorem toNat_ofNat_of_lt (h : n < 256) : (UInt8.ofNat n).toNat = n := UInt8.toNat_ofNat_of_lt' h

theorem be16_word (h : n < 2 ^ 16) : be16 (UInt8.ofNat (n / 2 ^ 8)) (UInt8.ofNat n) = n := by
  simp only [be16, UInt8.toNat_ofNat']
  omega

theorem wordAt_word (h : LiesAt tag i (word n ++ rest)) (hn : n < 2 ^ 16) : wordAt tag i = n := by
  have hhi : byteAt tag i = UInt8.ofNat (n / 2 ^ 8) := h.getD
  have hlo : byteAt tag (i + 1) = UInt8.ofNat n := h.tail.getD
  rw [wordAt, hhi, hlo, be16_word hn]

theorem be32_dword (h : LiesAt tag i (dword n ++ rest)) (hn : n < 2 ^ 32) :
    be32 (byteAt tag i) (byteAt tag (i + 1)) (byteAt tag (i + 2)) (byteAt tag (i + 3)) = n := by
  have hhigh : wordAt tag i = n / 2 ^ 16 := wordAt_word h.left (by omega)
  have h₂ : byteAt tag (i + 2) = UInt8.ofNat (n / 2 ^ 8) := h.tail.tail.getD
  have h₃ : byteAt tag (i + 3) = UInt8.ofNat n := h.tail.tail.tail.getD
  have hlow : be16 (byteAt tag (i + 2)) (byteAt tag (i + 3)) = n % 2 ^ 16 := by
    rw [h₂, h₃]
    simp only [be16, UInt8.toNat_ofNat']
    omega
  rw [be32, hlow]
  rw [wordAt] at hhigh
  rw [hhigh]
  omega

end Numbers

/-! ## Attributes -/

def secOfAuth (auth : ℕ) : UInt8 :=
  if auth = wscAuthOpen then wfrSecOpen else if auth = wscAuthShared then wfrSecWep else wfrSecWpa

namespace Attribute

/-- The SSID that an attribute sets. -/
def ssid? (a : Attribute) : Option (CString wfrSsidMaxLen) :=
  if a.id = wscAttrSsid ∧ 0 < a.value.length ∧ a.value.length ≤ wfrSsidMaxLen then
    some (.ofBytes _ a.value)
  else none

def security? (a : Attribute) : Option UInt8 :=
  if a.id = wscAttrAuthType ∧ a.value.length = 2 then
    some (secOfAuth (be16 (a.value.getD 0 0) (a.value.getD 1 0)))
  else none

def password? (a : Attribute) : Option (CString wfrPassMaxLen) :=
  if a.id = wscAttrNetKey ∧ 0 < a.value.length ∧ a.value.length ≤ wfrPassMaxLen then
    some (.ofBytes _ a.value)
  else none

/-- What the parser remembers after an attribute. -/
def read (out : WscOut) (a : Attribute) : WscOut :=
  ⟨{ out.creds with
      ssid := a.ssid?.getD out.creds.ssid
      security := a.security?.getD out.creds.security
      password := a.password?.getD out.creds.password }, out.foundSsid || a.ssid?.isSome⟩

section
variable {a : Attribute} (out : WscOut)

theorem ssid?_of_ne (h : a.id ≠ wscAttrSsid) : a.ssid? = none := if_neg fun hc => h hc.1

theorem security?_of_ne (h : a.id ≠ wscAttrAuthType) : a.security? = none := if_neg fun hc => h hc.1

theorem password?_of_ne (h : a.id ≠ wscAttrNetKey) : a.password? = none := if_neg fun hc => h hc.1

theorem read_ssid (h : a.id = wscAttrSsid) :
    a.read out = ⟨{ out.creds with ssid := a.ssid?.getD out.creds.ssid },
      out.foundSsid || a.ssid?.isSome⟩ := by
  have hauth : a.id ≠ wscAttrAuthType := h ▸ by decide
  have hkey : a.id ≠ wscAttrNetKey := h ▸ by decide
  simp only [read, security?_of_ne hauth, password?_of_ne hkey, Option.getD_none]

theorem read_security (h : a.id = wscAttrAuthType) :
    a.read out = ⟨{ out.creds with security := a.security?.getD out.creds.security },
      out.foundSsid⟩ := by
  have hssid : a.id ≠ wscAttrSsid := h ▸ by decide
  have hkey : a.id ≠ wscAttrNetKey := h ▸ by decide
  simp only [read, ssid?_of_ne hssid, password?_of_ne hkey, Option.getD_none, Option.isSome_none,
    Bool.or_false]

theorem read_password (h : a.id = wscAttrNetKey) :
    a.read out = ⟨{ out.creds with password := a.password?.getD out.creds.password },
      out.foundSsid⟩ := by
  have hssid : a.id ≠ wscAttrSsid := h ▸ by decide
  have hauth : a.id ≠ wscAttrAuthType := h ▸ by decide
  simp only [read, ssid?_of_ne hssid, security?_of_ne hauth, Option.getD_none, Option.isSome_none,
    Bool.or_false]

theorem read_other (hssid : a.id ≠ wscAttrSsid) (hauth : a.id ≠ wscAttrAuthType)
    (hkey : a.id ≠ wscAttrNetKey) : a.read out = out := by
  simp only [read, ssid?_of_ne hssid, security?_of_ne hauth, password?_of_ne hkey, Option.getD_none,
    Option.isSome_none, Bool.or_false]

end
end Attribute

section Attributes
variable {tag : Bytes} {recurse : ℕ → ℕ → WscOut → Exec WscOut}

theorem wscAttribute_plain {a : Attribute} (hid : a.id ≠ wscAttrCredential) {v : ℕ}
    (h : LiesAt tag v a.value) (out : WscOut) :
    wscAttribute tag recurse a.id a.value.length v out = .ok (a.read out) := by
  have hbytes : loadBytes tag v a.value.length = .ok a.value := by
    rw [loadBytes_eq h.end_le, h.take]
  rw [wscAttribute, if_neg hid]
  by_cases hssid : a.id = wscAttrSsid
  · rw [if_pos hssid, a.read_ssid out hssid, Attribute.ssid?]
    by_cases hlen : 0 < a.value.length ∧ a.value.length ≤ wfrSsidMaxLen
    · simp [hbytes, hssid, hlen]
    · simp [hlen]
  rw [if_neg hssid]
  by_cases hauth : a.id = wscAttrAuthType
  · rw [if_pos hauth, a.read_security out hauth, Attribute.security?]
    by_cases hlen : a.value.length = 2
    · rcases List.length_eq_two.mp hlen with ⟨hi, lo, hv⟩
      rw [hv] at h
      have hword : load16 tag v = .ok (be16 hi lo) := by
        have hend := h.end_le
        simp only [List.length_cons, List.length_nil] at hend
        rw [load16_eq (by omega), wordAt]
        exact congrArg₂ (fun x y => Except.ok (be16 x y)) h.getD h.tail.getD
      simp [hword, hauth, hv, secOfAuth]
    · simp [hlen]
  rw [if_neg hauth]
  by_cases hkey : a.id = wscAttrNetKey
  · rw [if_pos hkey, a.read_password out hkey, Attribute.password?]
    by_cases hlen : 0 < a.value.length ∧ a.value.length ≤ wfrPassMaxLen
    · simp [hbytes, hkey, hlen]
    · simp [hlen]
  · rw [if_neg hkey, a.read_other out hssid hauth hkey]
    rfl

theorem Attribute.length_encode (a : Attribute) : a.encode.length = 4 + a.value.length := by
  simp only [encode, word, List.length_append, List.length_cons, List.length_nil]
  omega

theorem encodeAttributes_cons (a : Attribute) (as : List Attribute) :
    encodeAttributes (a :: as) = a.encode ++ encodeAttributes as := rfl

theorem length_le_encodeAttributes (as : List Attribute) :
    as.length ≤ (encodeAttributes as).length := by
  induction as with
  | nil => exact Nat.zero_le _
  | cons a as ih =>
    rw [encodeAttributes_cons, List.length_append, a.length_encode, List.length_cons]
    omega

section Loop
variable {data len : ℕ} (hL : tag.length < 2 ^ 18)
include hL

/-- One pass over an encoded attribute. -/
theorem wscPass_encode {a : Attribute} {pos : ℕ} {out o : WscOut} (h : LiesAt tag (data + pos) a.encode)
    (hfit : pos + a.encode.length ≤ len)
    (hattr : wscAttribute tag recurse a.id a.value.length (data + pos + 4) out = .ok o) :
    wscPass tag recurse data len (pos, out) = .ok (.next (pos + a.encode.length, o)) := by
  have hend := h.end_le
  rw [a.length_encode] at hend hfit ⊢
  have hid : attrId tag (data + pos) = a.id := wordAt_word h a.id_lt
  have hlen : attrLen tag (data + pos) = a.value.length := wordAt_word h.right a.fits
  rw [wscPass_in hL (by omega) (by omega), hid, hlen, if_neg (by omega), hattr]
  rw [Nat.add_assoc pos]
  rfl

/-- The passes over a list of attributes, each of which is known to be read by `f`. -/
theorem wscPass_passes {ι : Type} (attr : ι → Attribute) (f : WscOut → ι → WscOut) (xs : List ι)
    (hf : ∀ x ∈ xs, ∀ v out, LiesAt tag v (attr x).value →
      wscAttribute tag recurse (attr x).id (attr x).value.length v out = .ok (f out x))
    (pos : ℕ) (out : WscOut) (h : LiesAt tag (data + pos) (encodeAttributes (xs.map attr)))
    (hfit : pos + (encodeAttributes (xs.map attr)).length ≤ len) :
    Passes (wscPass tag recurse data len) xs.length (pos, out)
      (pos + (encodeAttributes (xs.map attr)).length, xs.foldl f out) := by
  induction xs generalizing pos out with
  | nil => exact .refl _
  | cons x xs ih =>
    rw [List.forall_mem_cons] at hf
    rw [List.map_cons, encodeAttributes_cons] at h hfit ⊢
    rw [List.length_append] at hfit ⊢
    have hvalue : LiesAt tag (data + pos + 4) (attr x).value := h.left.right.right
    have hfirst : pos + (attr x).encode.length ≤ len := by omega
    have hpass := wscPass_encode hL h.left hfirst (hf.1 _ out hvalue)
    have hrest := ih hf.2 _ (f out x) (by rw [← Nat.add_assoc]; exact h.right) (by omega)
    rw [Nat.add_assoc] at hrest
    exact .step hpass hrest

variable (recurse) in
/-- The loop over exactly these attributes. -/
theorem loop_wscPass {ι : Type} (attr : ι → Attribute) (f : WscOut → ι → WscOut) (xs : List ι)
    (hf : ∀ x ∈ xs, ∀ v out, LiesAt tag v (attr x).value →
      wscAttribute tag recurse (attr x).id (attr x).value.length v out = .ok (f out x))
    (out : WscOut) (h : LiesAt tag data (encodeAttributes (xs.map attr))) {n : ℕ}
    (hn : xs.length < n) :
    loop (wscPass tag recurse data (encodeAttributes (xs.map attr)).length) n (0, out) =
      .ok (xs.foldl f out) := by
  have hend := h.end_le
  have hpasses := wscPass_passes hL attr f xs hf 0 out h (Nat.zero_add _).le
  have hsplit : n = (n - xs.length - 1 + 1) + xs.length := by omega
  rw [hsplit, hpasses.loop_eq, Nat.zero_add]
  apply loop_of_done
  apply wscPass_of_gt
  rw [sizeT_of_lt (by omega)]
  omega

theorem parseWscAttributes_plain (as : List Attribute) (hflat : ∀ a ∈ as, a.id ≠ wscAttrCredential)
    (out : WscOut) (h : LiesAt tag data (encodeAttributes as)) {fuel : ℕ} (hfuel : as.length < fuel) :
    parseWscAttributes tag fuel data (encodeAttributes as).length out =
      .ok (as.foldl Attribute.read out) := by
  obtain ⟨fuel, rfl⟩ := Nat.exists_eq_add_one_of_ne_zero (Nat.ne_zero_of_lt hfuel)
  have hloop := loop_wscPass (parseWscAttributes tag fuel) hL id Attribute.read as
    (fun a ha v out hv => wscAttribute_plain (hflat a ha) hv out) out
    (by rwa [List.map_id]) hfuel
  rwa [List.map_id] at hloop

/-- The whole payload, in which containers are transparent. -/
theorem parseWscAttributes_items (items : List WscItem) (out : WscOut)
    (h : LiesAt tag data (encodeItems items)) {fuel : ℕ} (hfuel : tag.length + 1 < fuel) :
    parseWscAttributes tag fuel data (encodeItems items).length out =
      .ok ((items.flatMap WscItem.leaves).foldl Attribute.read out) := by
  have hcount := length_le_encodeAttributes (items.map WscItem.attribute)
  have hend : data + (encodeAttributes (items.map WscItem.attribute)).length ≤ tag.length := h.end_le
  rw [List.length_map] at hcount
  obtain ⟨fuel, rfl⟩ := Nat.exists_eq_add_one_of_ne_zero (Nat.ne_zero_of_lt hfuel)
  rw [List.foldl_flatMap]
  apply loop_wscPass (parseWscAttributes tag fuel) hL WscItem.attribute
    (fun out item => item.leaves.foldl Attribute.read out)
  · intro item hitem v out hv
    cases item with
    | plain a hid => exact wscAttribute_plain hid hv out
    | credential c =>
      have hinner := length_le_encodeAttributes c.attributes
      have hvalue : v + (encodeAttributes c.attributes).length ≤ tag.length := hv.end_le
      exact parseWscAttributes_plain hL c.attributes c.flat out hv (by omega)
  · exact h
  · omega

end Loop
end Attributes

/-! ## Records -/

namespace NdefRecord
variable {r : NdefRecord} {tag : Bytes} {p : ℕ} (h : LiesAt tag p r.encode)
include h

theorem flags_at : byteAt tag p = r.flags := h.getD

theorem typeLenAt_eq : typeLenAt tag p = r.type.length := by
  have hbyte : byteAt tag (p + 1) = UInt8.ofNat r.type.length := h.tail.getD
  rw [typeLenAt, hbyte, toNat_ofNat_of_lt r.type_fits]

theorem payloadLenAt_eq : payloadLenAt tag p = r.payload.length := by
  have hfits := r.payload_fits
  have hlies : LiesAt tag (p + 2) r.payloadLength := h.tail.tail.left
  rw [payloadLenAt, flags_at h]
  rw [payloadLength] at hlies
  split at hfits
  · next hsr =>
    rw [if_pos hsr] at hlies
    have hbyte : byteAt tag (p + 2) = UInt8.ofNat r.payload.length := hlies.getD
    rw [if_pos hsr, hbyte, toNat_ofNat_of_lt hfits]
  · next hsr =>
    rw [if_neg hsr] at hlies
    rw [if_neg hsr]
    rw [← List.append_nil (dword _)] at hlies
    exact be32_dword hlies hfits

theorem idOffset_eq : idOffset tag p = 2 + r.payloadLength.length := by
  rw [idOffset, flags_at h, payloadLength]
  split <;> rfl

theorem idLenAt_eq : idLenAt tag p = r.id.length := by
  have hlies : LiesAt tag (p + 2 + r.payloadLength.length) r.idLength := h.tail.tail.right.left
  rw [idLenAt, idOffset_eq h, flags_at h]
  rw [idLength] at hlies
  by_cases hil : ilFlag r.flags
  · rw [if_pos hil] at hlies
    have hbyte : byteAt tag (p + 2 + r.payloadLength.length) = UInt8.ofNat r.id.length := hlies.getD
    rw [if_pos hil, ← Nat.add_assoc, hbyte, toNat_ofNat_of_lt r.id_fits]
  · rw [if_neg hil, r.no_id hil]
    rfl

theorem hdrSizeAt_eq : hdrSizeAt tag p = 2 + r.payloadLength.length + r.idLength.length := by
  rw [hdrSizeAt, idOffset_eq h, flags_at h, idLength]
  split <;> rfl

theorem body_at : LiesAt tag (p + hdrSizeAt tag p) (r.type ++ (r.id ++ r.payload)) := by
  have hlies := h.tail.tail.right.right
  have hpos : p + hdrSizeAt tag p = p + 1 + 1 + r.payloadLength.length + r.idLength.length := by
    rw [hdrSizeAt_eq h]
    omega
  rwa [hpos]

theorem totalAt_eq : totalAt tag p = r.encode.length := by
  rw [totalAt, hdrSizeAt_eq h, typeLenAt_eq h, idLenAt_eq h, payloadLenAt_eq h, encode]
  simp only [List.length_append, List.length_cons]
  omega

theorem typeMatches_iff (htype : r.type.length = wifiNdefTypeLen) :
    TypeMatches tag p ↔ r.type = wifiNdefType := by
  rw [TypeMatches, ← htype, (body_at h).left.take]

theorem payload_at (htype : r.type.length = wifiNdefTypeLen) :
    LiesAt tag (payloadAt tag p) r.payload := by
  have hlies := (body_at h).right.right
  have hpos : payloadAt tag p = p + hdrSizeAt tag p + r.type.length + r.id.length := by
    rw [payloadAt, idLenAt_eq h, htype]
    omega
  rwa [hpos]

end NdefRecord

section Records
variable {tag : Bytes} {data len pos : ℕ} {r : NdefRecord} (fuel : ℕ) (creds : WfrWifiCreds)

section One
variable (h : LiesAt tag (data + pos) r.encode)
include h

/-- The record parser does not take a record of another type. -/
theorem parseNdefRecord_other (hother : ¬ r.IsWsc) :
    parseNdefRecord fuel tag (data + pos) (sizeT (totalAt tag (data + pos))) creds =
      .ok (false, creds) := by
  have hend := h.end_le
  have hbody := (NdefRecord.body_at h).end_le
  rw [parseNdefRecord_total fuel creds (by omega)]
  by_cases hmedia : MediaAt tag (data + pos) (sizeT (totalAt tag (data + pos)))
  swap
  · rw [if_neg hmedia]
  rw [if_pos hmedia]
  have htype : r.type.length = wifiNdefTypeLen := by
    rw [← NdefRecord.typeLenAt_eq h]
    exact hmedia.2.1
  have htnf : tnf r.flags = ndefTnfMediaType := by
    rw [← NdefRecord.flags_at h]
    exact hmedia.1
  have hmatch : ¬ TypeMatches tag (data + pos) := by
    rw [NdefRecord.typeMatches_iff h htype]
    exact fun ht => hother ⟨htnf, ht⟩
  rw [loadBytes_eq (htype ▸ (NdefRecord.body_at h).left.end_le), Exec.ok_bind,
    if_pos (c := _ ≠ _) hmatch]
  rfl

/-- The record parser on the WSC record. -/
theorem parseNdefRecord_wsc (hL : tag.length < 2 ^ 18) (hwsc : r.IsWsc) {items : List WscItem}
    (hpayload : r.payload = encodeItems items) (hfuel : tag.length + 1 < fuel) :
    parseNdefRecord fuel tag (data + pos) (sizeT (totalAt tag (data + pos))) creds =
      .ok (((items.flatMap WscItem.leaves).foldl Attribute.read ⟨clearedCreds, false⟩).foundSsid,
        ((items.flatMap WscItem.leaves).foldl Attribute.read ⟨clearedCreds, false⟩).creds) := by
  have hend := h.end_le
  have hbody := (NdefRecord.body_at h).end_le
  have htype : r.type.length = wifiNdefTypeLen := by
    rw [hwsc.2]
    rfl
  have htotal : sizeT (totalAt tag (data + pos)) = r.encode.length := by
    rw [NdefRecord.totalAt_eq h, sizeT_of_lt (by omega)]
  have hmedia : MediaAt tag (data + pos) (sizeT (totalAt tag (data + pos))) := by
    refine ⟨by rw [NdefRecord.flags_at h, hwsc.1], by rw [NdefRecord.typeLenAt_eq h, htype], ?_⟩
    rw [htotal, ← NdefRecord.totalAt_eq h, totalAt, NdefRecord.typeLenAt_eq h, htype]
    omega
  rw [parseNdefRecord_total fuel creds (by omega), if_pos hmedia,
    loadBytes_eq (htype ▸ (NdefRecord.body_at h).left.end_le), Exec.ok_bind,
    if_neg (c := _ ≠ _) (not_not.mpr ((NdefRecord.typeMatches_iff h htype).mpr hwsc.2)),
    NdefRecord.payloadLenAt_eq h, hpayload,
    parseWscAttributes_items hL items _ (hpayload ▸ NdefRecord.payload_at h htype) hfuel]
  rfl

variable (hin : data + len ≤ tag.length) (hL : tag.length < 2 ^ 18)
  (hfit : pos + r.encode.length ≤ len)
include hin hL hfit

/-- A pass over an encoded record gives it to the record parser. -/
theorem ndefPass_encode :
    ndefPass fuel tag data len (pos, creds) = do
      let (found, creds) ←
        parseNdefRecord fuel tag (data + pos) (sizeT (totalAt tag (data + pos))) creds
      if found then return .done (true, creds)
      if meFlag r.flags then return .done (false, creds)
      return .next (pos + r.encode.length, creds) := by
  have htotal : sizeT (totalAt tag (data + pos)) = r.encode.length := by
    rw [NdefRecord.totalAt_eq h, sizeT_of_lt (by omega)]
  have hend : sizeT (pos + sizeT (totalAt tag (data + pos))) = pos + r.encode.length := by
    rw [htotal, sizeT_of_lt (by omega)]
  have hhdr : hdrSizeAt tag (data + pos) ≤ r.encode.length := by
    rw [← NdefRecord.totalAt_eq h, totalAt]
    omega
  rcases ndefPass_eq fuel creds hin hL (show pos ≤ len by omega) with ⟨hnone, -⟩ | ⟨-, heq⟩
  · exact absurd ⟨by omega, by omega⟩ hnone
  · rw [heq, hend, NdefRecord.flags_at h]

theorem ndefPass_other (hother : ¬ r.IsWsc) (hme : ¬ meFlag r.flags) :
    ndefPass fuel tag data len (pos, creds) = .ok (.next (pos + r.encode.length, creds)) := by
  rw [ndefPass_encode fuel creds h hin hL hfit, parseNdefRecord_other fuel creds h hother,
    Exec.ok_bind]
  dsimp only
  rw [if_neg Bool.false_ne_true, if_neg hme]
  rfl

end One

/-- The passes over records that are passed over. -/
theorem ndefPass_passes (hin : data + len ≤ tag.length) (hL : tag.length < 2 ^ 18)
    (rs : List NdefRecord) (hother : ∀ r ∈ rs, ¬ r.IsWsc ∧ ¬ meFlag r.flags) (pos : ℕ)
    (h : LiesAt tag (data + pos) (rs.flatMap NdefRecord.encode))
    (hfit : pos + (rs.flatMap NdefRecord.encode).length ≤ len) :
    Passes (ndefPass fuel tag data len) rs.length (pos, creds)
      (pos + (rs.flatMap NdefRecord.encode).length, creds) := by
  induction rs generalizing pos with
  | nil => exact .refl _
  | cons r rs ih =>
    rw [List.forall_mem_cons] at hother
    rw [List.flatMap_cons] at h hfit ⊢
    rw [List.length_append] at hfit ⊢
    have hpass := ndefPass_other fuel creds h.left hin hL (by omega) hother.1.1 hother.1.2
    have hrest := ih hother.2 _ (by rw [← Nat.add_assoc]; exact h.right) (by omega)
    rw [Nat.add_assoc] at hrest
    exact .step hpass hrest

theorem length_le_encodeRecords (rs : List NdefRecord) :
    rs.length ≤ (rs.flatMap NdefRecord.encode).length := by
  induction rs with
  | nil => exact Nat.zero_le _
  | cons r rs ih =>
    rw [List.flatMap_cons, List.length_append, List.length_cons, NdefRecord.encode, List.length_cons]
    omega

/-- A message of other records and the WSC record. -/
theorem parseNdefMessage_wsc (hL : tag.length < 2 ^ 18) (rs : List NdefRecord)
    (hother : ∀ r ∈ rs, ¬ r.IsWsc ∧ ¬ meFlag r.flags) {wsc : NdefRecord} (hwsc : wsc.IsWsc)
    {items : List WscItem} (hpayload : wsc.payload = encodeItems items)
    (h : LiesAt tag data (rs.flatMap NdefRecord.encode ++ wsc.encode))
    (hfuel : tag.length + 1 < fuel) :
    parseNdefMessage fuel tag data (rs.flatMap NdefRecord.encode ++ wsc.encode).length creds =
      .ok (((items.flatMap WscItem.leaves).foldl Attribute.read ⟨clearedCreds, false⟩).foundSsid,
        ((items.flatMap WscItem.leaves).foldl Attribute.read ⟨clearedCreds, false⟩).creds) := by
  have hend := h.end_le
  have hcount := length_le_encodeRecords rs
  have hwscAt := h.right
  have hwscLen : 2 ≤ wsc.encode.length := by
    simp only [NdefRecord.encode, List.length_cons]
    omega
  rw [List.length_append] at hend ⊢
  generalize hstart : (rs.flatMap NdefRecord.encode).length = start at *
  have hpasses := ndefPass_passes fuel creds hend hL rs hother 0 h.left (by omega)
  rw [Nat.zero_add, hstart] at hpasses
  have hpass := ndefPass_encode fuel creds hwscAt hend hL le_rfl
  rw [parseNdefRecord_wsc fuel creds hwscAt hL hwsc hpayload hfuel, Exec.ok_bind] at hpass
  obtain ⟨n, hn⟩ : ∃ n, fuel = n + 1 + 1 + rs.length := ⟨fuel - rs.length - 2, by omega⟩
  have hloop := hpasses.loop_eq (n + 1 + 1)
  rw [← hn] at hloop
  rw [parseNdefMessage, hloop]
  generalize (items.flatMap WscItem.leaves).foldl Attribute.read ⟨clearedCreds, false⟩ = out at *
  cases hfound : out.foundSsid with
  | true =>
    rw [hfound] at hpass
    exact loop_of_done hpass _
  | false =>
    rw [hfound] at hpass
    dsimp only at hpass
    rw [if_neg Bool.false_ne_true] at hpass
    split at hpass
    · exact loop_of_done hpass _
    · rw [loop_of_next hpass]
      apply loop_of_done
      rw [ndefPass, if_pos (Nat.lt_irrefl _)]
      rfl

end Records

/-! ## TLV blocks -/

section Tlvs
variable {tag : TagImage} {pos : ℕ} {b : TlvBlock}

section Block
variable (h : LiesAt tag.bytes (ndefArea + pos) b.encode)
include h

theorem tlvTypeAt_encode : tlvTypeAt tag pos = b.type := h.getD

theorem longTlv_encode : LongTlv tag pos ↔ b.long = true := by
  have hfits := b.fits
  have hlies := h.tail.left
  rw [LongTlv, ← Nat.add_assoc]
  cases hlong : b.long with
  | true =>
    rw [hlong, if_pos rfl] at hlies
    exact iff_of_true hlies.getD rfl
  | false =>
    rw [hlong, if_neg Bool.false_ne_true] at hlies
    rw [hlong, if_neg Bool.false_ne_true] at hfits
    have hbyte : byteAt tag.bytes (ndefArea + pos + 1) = UInt8.ofNat b.value.length := hlies.getD
    refine iff_of_false (fun hff => ?_) Bool.false_ne_true
    have hnat := congrArg UInt8.toNat (hbyte.symm.trans hff)
    rw [toNat_ofNat_of_lt (by omega)] at hnat
    change b.value.length = 255 at hnat
    omega

/-- The header of a block, read back. -/
theorem tlv_encode :
    tlvStart tag pos + b.value.length = pos + b.encode.length ∧ tlvLenAt tag pos = b.value.length ∧
      LiesAt tag.bytes (ndefArea + tlvStart tag pos) b.value := by
  have hfits := b.fits
  have hlies := h.tail
  have hlong := longTlv_encode h
  rw [tlvStart, tlvLenAt, TlvBlock.encode]
  cases hl : b.long with
  | true =>
    rw [hl, if_pos rfl] at hfits hlies
    rw [if_pos (hlong.mpr hl), if_pos (hlong.mpr hl)]
    refine ⟨by simp [word]; omega, ?_, ?_⟩
    · exact wordAt_word hlies.tail hfits
    · exact hlies.right
  | false =>
    rw [hl, if_neg Bool.false_ne_true] at hfits hlies
    have hnot : ¬ LongTlv tag pos := fun hx => Bool.false_ne_true (hl.symm.trans (hlong.mp hx))
    rw [if_neg hnot, if_neg hnot]
    refine ⟨by simp; omega, ?_, hlies.right⟩
    have hbyte : byteAt tag.bytes (ndefArea + (pos + 1)) = UInt8.ofNat b.value.length := hlies.left.getD
    rw [hbyte, toNat_ofNat_of_lt (by omega)]

theorem hasTlv_encode (hfit : pos + b.encode.length ≤ ndefAreaLen tag) : HasTlv tag pos := by
  rcases tlv_encode h with ⟨hend, hlen, -⟩
  rw [HasTlv, tlvTypeAt_encode h, hlen, hend]
  exact ⟨b.type_ne.1, b.type_ne.2, hfit⟩

end Block

section Passes
variable (fuel : ℕ) (creds : WfrWifiCreds)

theorem tlvPass_encode {x : Tlv} (h : LiesAt tag.bytes (ndefArea + pos) x.encode)
    (hfit : pos + x.encode.length ≤ ndefAreaLen tag) :
    tlvPass fuel tag (pos, creds) = .ok (.next (pos + x.encode.length, creds)) := by
  cases x with
  | null => exact tlvPass_null fuel creds ⟨hfit, h.getD⟩
  | block b hb =>
    have htlv := hasTlv_encode h hfit
    have hnot : ¬ MessageTlv tag pos := fun hm => hb (by rw [← tlvTypeAt_encode h, hm.2])
    rcases tlv_encode h with ⟨hend, hlen, -⟩
    rw [tlvPass_value fuel creds htlv hnot, hlen, hend]
    rfl

theorem tlvPass_passes (xs : List Tlv) {pos : ℕ}
    (h : LiesAt tag.bytes (ndefArea + pos) (xs.flatMap Tlv.encode))
    (hfit : pos + (xs.flatMap Tlv.encode).length ≤ ndefAreaLen tag) :
    Passes (tlvPass fuel tag) xs.length (pos, creds)
      (pos + (xs.flatMap Tlv.encode).length, creds) := by
  induction xs generalizing pos with
  | nil => exact .refl _
  | cons x xs ih =>
    rw [List.flatMap_cons] at h hfit ⊢
    rw [List.length_append] at hfit ⊢
    have hfirst : pos + x.encode.length ≤ ndefAreaLen tag := by omega
    have hrest := ih (by rw [← Nat.add_assoc]; exact h.right) (by omega)
    rw [Nat.add_assoc] at hrest
    exact .step (tlvPass_encode fuel creds h.left hfirst) hrest

theorem length_le_encodeTlvs (xs : List Tlv) : xs.length ≤ (xs.flatMap Tlv.encode).length := by
  induction xs with
  | nil => exact Nat.zero_le _
  | cons x xs ih =>
    have hx : 1 ≤ x.encode.length := by
      cases x <;> simp [Tlv.encode, TlvBlock.encode]
    rw [List.flatMap_cons, List.length_append, List.length_cons]
    omega

theorem encode_nulls (k : ℕ) :
    (List.replicate k Tlv.null).flatMap Tlv.encode = List.replicate k ndefTlvNull := by
  induction k with
  | zero => rfl
  | succ k ih =>
    rw [List.replicate_succ, List.flatMap_cons, ih]
    rfl

/-- Padding ends the TLV loop. -/
theorem loop_tlvPass_padding {rest : Bytes} (hpad : Padding rest)
    (h : LiesAt tag.bytes (ndefArea + pos) rest) (hend : pos + rest.length = ndefAreaLen tag) {n : ℕ}
    (hn : rest.length < n) : loop (tlvPass fuel tag) n (pos, creds) = .ok (false, creds) := by
  rcases hpad with ⟨k, post, rfl, hpost⟩
  have hnulls := encode_nulls k
  rw [List.length_append, List.length_replicate] at hend hn
  have hpasses := tlvPass_passes fuel creds (List.replicate k Tlv.null) (hnulls ▸ h.left)
    (by rw [hnulls, List.length_replicate]; omega)
  rw [hnulls, List.length_replicate, List.length_replicate] at hpasses
  have hsplit : n = (n - k - 1 + 1) + k := by omega
  rw [hsplit, hpasses.loop_eq]
  apply loop_of_done
  have hpostAt := h.right
  rw [List.length_replicate, Nat.add_assoc] at hpostAt
  have hnone : ¬ NullTlv tag (pos + k) ∧ ¬ HasTlv tag (pos + k) := by
    rcases hpost with rfl | ⟨more, rfl⟩
    · rw [List.length_nil] at hend
      refine ⟨fun hnull => absurd hnull.1 (by omega), fun htlv => ?_⟩
      have hbounds := htlv.bounds
      omega
    · have htype : tlvTypeAt tag (pos + k) = ndefTlvTerminator := hpostAt.getD
      refine ⟨fun hnull => ?_, fun htlv => htlv.2.1 htype⟩
      exact absurd (htype.symm.trans hnull.2) (by decide)
  rcases tlvPass_eq fuel creds hnone.1 with ⟨htlv, -⟩ | ⟨-, heq⟩
  · exact absurd htlv hnone.2
  · exact heq

end Passes
end Tlvs

/-! ## Tags -/

/-- What the attribute parser leaves after the WSC record. -/
def WscTag.out (t : WscTag) : WscOut := t.attributes.foldl Attribute.read ⟨clearedCreds, false⟩

section Tags
variable {t : WscTag} {tag : TagImage} (hbytes : tag.bytes = t.encode)
include hbytes

theorem WscTag.hasNdef : HasNdef tag := by
  have hlen := tag.length_eq
  have hlead := t.lead_length
  have hcc := t.cc_length
  have hmagic : LiesAt tag.bytes (3 * 4) (ndefCcMagic :: t.cc ++ (t.tlvs.flatMap Tlv.encode ++
      (t.message.encode ++ t.rest))) := ⟨t.lead, [], by rw [hbytes, encode, List.append_nil], hlead⟩
  refine ⟨?_, hmagic.getD⟩
  rw [hbytes, encode] at hlen
  simp only [TlvBlock.encode, List.length_append, List.length_cons, hlead, hcc] at hlen
  change ¬ tag.pagesRead.toNat < 5
  omega

/-- The TLVs, the message and the rest lie in the NDEF area one after the other, up to its end. -/
theorem WscTag.area_at :
    LiesAt tag.bytes (ndefArea + 0) (t.tlvs.flatMap Tlv.encode ++ (t.message.encode ++ t.rest)) ∧
      (t.tlvs.flatMap Tlv.encode ++ (t.message.encode ++ t.rest)).length = ndefAreaLen tag := by
  have hlen := tag.length_eq
  have hpages : ¬ tag.pagesRead.toNat < 5 := (WscTag.hasNdef hbytes).1
  have hlead := t.lead_length
  have hcc := t.cc_length
  constructor
  · refine ⟨t.lead ++ (ndefCcMagic :: t.cc), [], ?_, ?_⟩
    · rw [hbytes, encode, List.append_nil, List.append_assoc]
    · rw [List.length_append, List.length_cons, hlead, hcc]
      rfl
  · rw [hbytes, encode, List.length_append, List.length_append, List.length_cons, hlead, hcc] at hlen
    unfold ndefAreaLen
    omega

/-- The pass over the message. -/
theorem WscTag.tlvPass_message {fuel : ℕ} (hfuel : tag.bytes.length + 1 < fuel) (creds : WfrWifiCreds) :
    tlvPass fuel tag ((t.tlvs.flatMap Tlv.encode).length, creds) =
      if t.out.foundSsid then .ok (.done (true, t.out.creds))
      else .ok (.next ((t.tlvs.flatMap Tlv.encode).length + t.message.encode.length, t.out.creds)) := by
  rcases WscTag.area_at hbytes with ⟨harea, hlen⟩
  rw [List.length_append, List.length_append] at hlen
  have hat : LiesAt tag.bytes (ndefArea + (t.tlvs.flatMap Tlv.encode).length) t.message.encode :=
    harea.right.left
  rcases tlv_encode hat with ⟨hend, hvalue, hmsg⟩
  have hmessage : MessageTlv tag (t.tlvs.flatMap Tlv.encode).length :=
    ⟨hasTlv_encode hat (by omega), tlvTypeAt_encode hat⟩
  have hparse := parseNdefMessage_wsc fuel creds tag.length_lt t.records t.records_other t.isWsc
    t.payload_eq hmsg hfuel
  rw [Nfc.tlvPass_message fuel creds hmessage, hvalue, hend]
  have hmsgValue : t.message.value = t.records.flatMap NdefRecord.encode ++ t.wsc.encode := rfl
  rw [hmsgValue, hparse, Exec.ok_bind]
  change (if t.out.foundSsid = true then _ else _) = _
  split <;> rfl

theorem wfrNfcParseWifiTag_wsc {fuel : ℕ} (hfuel : tag.bytes.length + 1 < fuel) (outCreds : WfrWifiCreds)
    (hfound : t.out.foundSsid = true) :
    wfrNfcParseWifiTag fuel tag outCreds = .ok (true, t.out.creds) := by
  rcases WscTag.area_at hbytes with ⟨harea, hlen⟩
  have hend := harea.end_le
  have hcount := length_le_encodeTlvs t.tlvs
  rw [List.length_append] at hlen hend
  have hpasses := tlvPass_passes fuel outCreds t.tlvs harea.left (by omega)
  rw [Nat.zero_add] at hpasses
  have hsplit : fuel = (fuel - t.tlvs.length - 1 + 1) + t.tlvs.length := by omega
  rw [wfrNfcParseWifiTag_eq fuel (WscTag.hasNdef hbytes)]
  have hloop := hpasses.loop_eq (fuel - t.tlvs.length - 1 + 1)
  rw [← hsplit] at hloop
  rw [hloop]
  apply loop_of_done
  rw [WscTag.tlvPass_message hbytes hfuel, if_pos hfound]

theorem wfrNfcParseWifiTag_no_ssid {fuel : ℕ} (hfuel : tag.bytes.length + 1 < fuel)
    (outCreds : WfrWifiCreds) (hfound : t.out.foundSsid = false) (hpad : Padding t.rest) :
    wfrNfcParseWifiTag fuel tag outCreds = .ok (false, t.out.creds) := by
  rcases WscTag.area_at hbytes with ⟨harea, hlen⟩
  have hend := harea.end_le
  have hcount := length_le_encodeTlvs t.tlvs
  have hrest := harea.right.right
  rw [Nat.add_zero, Nat.add_assoc] at hrest
  rw [List.length_append, List.length_append] at hlen hend
  have hpasses := tlvPass_passes fuel outCreds t.tlvs harea.left (by omega)
  rw [Nat.zero_add] at hpasses
  have hpass := WscTag.tlvPass_message hbytes hfuel outCreds
  rw [hfound, if_neg Bool.false_ne_true] at hpass
  have hsplit : fuel = (fuel - t.tlvs.length - 1 + 1) + t.tlvs.length := by omega
  have hloop := hpasses.loop_eq (fuel - t.tlvs.length - 1 + 1)
  rw [← hsplit] at hloop
  rw [wfrNfcParseWifiTag_eq fuel (WscTag.hasNdef hbytes), hloop, loop_of_next hpass]
  exact loop_tlvPass_padding fuel t.out.creds hpad hrest (by omega) (by omega)

end Tags
end InfraFi.Flipper.Nfc
