import InfraFi.Flipper.NfcAttributes

/-! # The way through an NDEF message

The header of a record gives its total size, which the parser takes modulo
2^32. A message is described by the positions that the record loop gets to, and
by what the record at each of them says.
-/
namespace InfraFi.Flipper.Nfc
open Base Protocol Filter

/-! ## Record headers -/

section Header
variable (tag : Bytes) (p : ℕ)

def typeLenAt : ℕ := (byteAt tag (p + 1)).toNat

def payloadLenAt : ℕ :=
  if srFlag (byteAt tag p) then (byteAt tag (p + 2)).toNat
  else be32 (byteAt tag (p + 2)) (byteAt tag (p + 3)) (byteAt tag (p + 4)) (byteAt tag (p + 5))

/-- The size of the header before the ID length. -/
def idOffset : ℕ := if srFlag (byteAt tag p) then 3 else 6

def idLenAt : ℕ := if ilFlag (byteAt tag p) then (byteAt tag (p + idOffset tag p)).toNat else 0

def hdrSizeAt : ℕ := if ilFlag (byteAt tag p) then idOffset tag p + 1 else idOffset tag p

/-- The size of the record at `p`, which can be more than a `size_t` holds. -/
def totalAt : ℕ := hdrSizeAt tag p + typeLenAt tag p + idLenAt tag p + payloadLenAt tag p

/-- A media-type record with a type of the right length, which lies in the first `len` bytes. -/
def MediaAt (len : ℕ) : Prop :=
  tnf (byteAt tag p) = ndefTnfMediaType ∧ typeLenAt tag p = wifiNdefTypeLen ∧
    hdrSizeAt tag p + wifiNdefTypeLen ≤ len

def TypeMatches : Prop :=
  (tag.drop (p + hdrSizeAt tag p)).take wifiNdefTypeLen = wifiNdefType

/-- Where the payload of a record with the right type starts. -/
def payloadAt : ℕ := p + (hdrSizeAt tag p + wifiNdefTypeLen + idLenAt tag p)

end Header

instance MediaAt.decidable (tag : Bytes) (p len : ℕ) : Decidable (MediaAt tag p len) :=
  inferInstanceAs (Decidable (_ ∧ _ ∧ _))

instance TypeMatches.decidable (tag : Bytes) (p : ℕ) : Decidable (TypeMatches tag p) :=
  inferInstanceAs (Decidable (_ = _))

section Sizes
variable (tag : Bytes) (p : ℕ)

theorem typeLenAt_lt : typeLenAt tag p < 256 := (byteAt tag (p + 1)).toNat_lt

theorem payloadLenAt_lt : payloadLenAt tag p < 2 ^ 32 := by
  unfold payloadLenAt
  split
  · exact (byteAt tag (p + 2)).toNat_lt.trans (by decide)
  · exact be32_lt _ _ _ _

theorem idLenAt_lt : idLenAt tag p < 256 := by
  unfold idLenAt
  split
  · exact (byteAt tag _).toNat_lt
  · decide

theorem hdrSizeAt_bounds : 3 ≤ hdrSizeAt tag p ∧ hdrSizeAt tag p ≤ 7 := by
  unfold hdrSizeAt idOffset
  split <;> split <;> omega

end Sizes

/-! ## One record -/

section Record
variable {tag : Bytes} {p len : ℕ} (fuel : ℕ) (creds : WfrWifiCreds)

theorem recordId_eq (typeLen payloadLen : ℕ) (hin : p + hdrSizeAt tag p ≤ tag.length)
    (hoff : idOffset tag p ≤ len) :
    recordId fuel tag p len creds (byteAt tag p) typeLen payloadLen (idOffset tag p) =
      if hdrSizeAt tag p ≤ len then
        recordType fuel tag p len creds typeLen payloadLen (idLenAt tag p) (hdrSizeAt tag p)
      else .ok (false, creds) := by
  have hbounds := hdrSizeAt_bounds tag p
  unfold hdrSizeAt at hin hbounds
  rw [recordId, hdrSizeAt, idLenAt]
  by_cases hil : ilFlag (byteAt tag p)
  · simp only [if_pos hil] at hin hbounds
    have hid : load tag (p + idOffset tag p) = .ok (byteAt tag (p + idOffset tag p)) :=
      load_eq (by omega)
    rw [if_pos hil, if_pos hil, if_pos hil, hid, Exec.ok_bind, sizeT_of_lt (by omega)]
    by_cases hlen : idOffset tag p ≥ len
    · rw [if_pos hlen, if_neg (by omega)]
      rfl
    · rw [if_neg hlen, if_pos (by omega)]
  · simp only [if_neg hil, if_pos hoff]

/-- The record parser on a header inside the tag. -/
theorem parseNdefRecord_eq (hin : p + hdrSizeAt tag p ≤ tag.length) :
    parseNdefRecord fuel tag p len creds =
      if tnf (byteAt tag p) = ndefTnfMediaType ∧ hdrSizeAt tag p ≤ len then
        recordType fuel tag p len creds (typeLenAt tag p) (payloadLenAt tag p) (idLenAt tag p)
          (hdrSizeAt tag p)
      else .ok (false, creds) := by
  have hbounds := hdrSizeAt_bounds tag p
  have hoff : idOffset tag p ≤ hdrSizeAt tag p := by
    unfold hdrSizeAt
    split <;> omega
  have hflags : load tag p = .ok (byteAt tag p) := load_eq (by omega)
  have htype : load tag (p + 1) = .ok (byteAt tag (p + 1)) := load_eq (by omega)
  rw [parseNdefRecord]
  by_cases hshort : len < 3
  · rw [if_pos hshort, if_neg (by omega)]
    rfl
  rw [if_neg hshort, hflags, Exec.ok_bind]
  by_cases htnf : tnf (byteAt tag p) = ndefTnfMediaType
  swap
  · simp [htnf]
  simp only [htnf, ne_eq, not_true_eq_false, if_false, htype, Exec.ok_bind, true_and]
  by_cases hsr : srFlag (byteAt tag p)
  · have hthree : idOffset tag p = 3 := if_pos hsr
    have hpay : load tag (p + 2) = .ok (byteAt tag (p + 2)) := load_eq (by omega)
    have hid := recordId_eq fuel creds (typeLenAt tag p) (payloadLenAt tag p) hin
      (show idOffset tag p ≤ len by omega)
    rw [if_pos hsr, if_neg (by omega), hpay, Exec.ok_bind, ← hid, hthree, payloadLenAt, if_pos hsr]
    rfl
  · have hsix : idOffset tag p = 6 := if_neg hsr
    have hpay : load32 tag (p + 2) = .ok (payloadLenAt tag p) := by
      rw [load32_eq (by omega), payloadLenAt, if_neg hsr]
    rw [if_neg hsr, sizeT_of_lt (by decide)]
    by_cases hlen : 2 + 4 > len
    · rw [if_pos hlen, if_neg (by omega)]
      rfl
    · rw [if_neg hlen, hpay, Exec.ok_bind,
        ← recordId_eq fuel creds _ _ hin (show idOffset tag p ≤ len by omega), hsix]
      rfl

/-- The record parser on the bytes that the message parser gives it. Its last length check
computes the size of the record again, with the same loss. -/
theorem parseNdefRecord_total (hin : p + hdrSizeAt tag p ≤ tag.length) :
    parseNdefRecord fuel tag p (sizeT (totalAt tag p)) creds =
      if MediaAt tag p (sizeT (totalAt tag p)) then do
        let type ← loadBytes tag (p + hdrSizeAt tag p) wifiNdefTypeLen
        if type ≠ wifiNdefType then return (false, creds)
        let out ← parseWscAttributes tag fuel (payloadAt tag p) (payloadLenAt tag p) ⟨clearedCreds, false⟩
        return (out.foundSsid, out.creds)
      else .ok (false, creds) := by
  have hbounds := hdrSizeAt_bounds tag p
  have htype := typeLenAt_lt tag p
  have hid := idLenAt_lt tag p
  rw [parseNdefRecord_eq fuel creds hin, recordType, sizeT_of_lt (show _ + typeLenAt tag p < _ by omega)]
  by_cases hmedia : MediaAt tag p (sizeT (totalAt tag p))
  · rcases hmedia with ⟨htnf, hlen, hfit⟩
    have htotal : sizeT (hdrSizeAt tag p + wifiNdefTypeLen + idLenAt tag p + payloadLenAt tag p) =
        sizeT (totalAt tag p) := by rw [totalAt, hlen]
    have hpos : sizeT (hdrSizeAt tag p + wifiNdefTypeLen + idLenAt tag p) =
        hdrSizeAt tag p + wifiNdefTypeLen + idLenAt tag p := sizeT_of_lt (by omega)
    have hmore : tnf (byteAt tag p) = ndefTnfMediaType ∧ hdrSizeAt tag p ≤ sizeT (totalAt tag p) :=
      ⟨htnf, by omega⟩
    have hmedia : MediaAt tag p (sizeT (totalAt tag p)) := ⟨htnf, hlen, hfit⟩
    have hfit' : ¬ hdrSizeAt tag p + wifiNdefTypeLen > sizeT (totalAt tag p) := Nat.not_lt.mpr hfit
    rw [if_pos hmore, if_pos hmedia, hlen, if_neg hfit', if_neg (fun hne => hne rfl)]
    simp only [hpos, htotal, gt_iff_lt, Nat.lt_irrefl, if_false]
    rfl
  · rw [if_neg hmedia]
    split
    · next hmore =>
      rcases hmore with ⟨htnf, -⟩
      by_cases hfit : hdrSizeAt tag p + typeLenAt tag p > sizeT (totalAt tag p)
      · rw [if_pos hfit]
        rfl
      · have hlen : typeLenAt tag p ≠ wifiNdefTypeLen := fun hlen =>
          hmedia ⟨htnf, hlen, hlen ▸ Nat.not_lt.mp hfit⟩
        rw [if_neg hfit, if_pos hlen]
        rfl
    · rfl

end Record

/-! ## Records in a message -/

section Message
variable (tag : Bytes) (data len pos : ℕ)

/-- The header of the record at `pos` lies in the message, and the parser takes its end to. -/
def HasRecord : Prop :=
  pos + hdrSizeAt tag (data + pos) ≤ len ∧ sizeT (pos + sizeT (totalAt tag (data + pos))) ≤ len

/-- A record that is taken for the WiFi one, or whose type field runs out of the tag, although
its size takes it past 2^32. -/
def BadRecord : Prop :=
  HasRecord tag data len pos ∧ MediaAt tag (data + pos) (sizeT (totalAt tag (data + pos))) ∧
    2 ^ 32 ≤ pos + totalAt tag (data + pos) ∧
      (TypeMatches tag (data + pos) ∨
        tag.length < data + pos + hdrSizeAt tag (data + pos) + wifiNdefTypeLen)

/-- A record of the WiFi type whose payload holds an SSID. -/
def WifiRecord : Prop :=
  HasRecord tag data len pos ∧ MediaAt tag (data + pos) (sizeT (totalAt tag (data + pos))) ∧
    TypeMatches tag (data + pos) ∧
      SsidIn tag (payloadAt tag (data + pos)) (payloadLenAt tag (data + pos))

/-- There is no record at `pos`, or it is the last one and not the WiFi one. -/
def EndsAt : Prop :=
  ¬ HasRecord tag data len pos ∨ ¬ BadRecord tag data len pos ∧ ¬ WifiRecord tag data len pos ∧
    meFlag (byteAt tag (data + pos))

/-- A record before the last one whose size is 0 to the parser, or takes it back. -/
def StalledRecord : Prop :=
  HasRecord tag data len pos ∧ ¬ meFlag (byteAt tag (data + pos)) ∧
    (totalAt tag (data + pos) = 2 ^ 32 ∨
      totalAt tag (data + pos) < 2 ^ 32 ∧ 2 ^ 32 ≤ pos + totalAt tag (data + pos))

end Message

/-- From a record that is not the WiFi one and not the last one to where the next one starts. -/
def NextRecord (tag : Bytes) (data len pos q : ℕ) : Prop :=
  HasRecord tag data len pos ∧ ¬ BadRecord tag data len pos ∧ ¬ WifiRecord tag data len pos ∧
    ¬ meFlag (byteAt tag (data + pos)) ∧ q = sizeT (pos + sizeT (totalAt tag (data + pos)))

section Pass
variable {tag : Bytes} {data len pos : ℕ} (fuel : ℕ) (creds : WfrWifiCreds)

theorem ndefIdAt_eq (hin : data + len ≤ tag.length) (hL : tag.length < 2 ^ 18)
    (typeLen payloadLen : ℕ) (hoff : pos + idOffset tag (data + pos) ≤ len) :
    ndefIdAt fuel tag data len (byteAt tag (data + pos)) (idOffset tag (data + pos)) typeLen payloadLen
        (pos, creds) =
      if pos + hdrSizeAt tag (data + pos) ≤ len then
        ndefRecordAt fuel tag data len (byteAt tag (data + pos)) (hdrSizeAt tag (data + pos)) typeLen
          (idLenAt tag (data + pos)) payloadLen (pos, creds)
      else .ok (.done (false, creds)) := by
  rw [ndefIdAt, hdrSizeAt, idLenAt]
  by_cases hil : ilFlag (byteAt tag (data + pos))
  · rw [if_pos hil, if_pos hil, if_pos hil, sizeT_of_lt (by omega)]
    by_cases hlen : pos + idOffset tag (data + pos) ≥ len
    · rw [if_pos hlen, if_neg (by omega)]
      rfl
    · rw [if_neg hlen, if_pos (by omega), ← Nat.add_assoc, load_eq (by omega), Exec.ok_bind,
        sizeT_of_lt (by omega)]
  · rw [if_neg hil, if_neg hil, if_neg hil, if_pos hoff]

theorem ndefPass_header (hin : data + len ≤ tag.length) (hL : tag.length < 2 ^ 18) (hpos : pos ≤ len) :
    ndefPass fuel tag data len (pos, creds) =
      if pos + hdrSizeAt tag (data + pos) ≤ len then
        ndefRecordAt fuel tag data len (byteAt tag (data + pos)) (hdrSizeAt tag (data + pos))
          (typeLenAt tag (data + pos)) (idLenAt tag (data + pos)) (payloadLenAt tag (data + pos))
          (pos, creds)
      else .ok (.done (false, creds)) := by
  have hbounds := hdrSizeAt_bounds tag (data + pos)
  have hoff : idOffset tag (data + pos) ≤ hdrSizeAt tag (data + pos) := by
    unfold hdrSizeAt
    split <;> omega
  rw [ndefPass, sizeT_of_lt (show pos + 3 < 2 ^ 32 by omega), sizeT_of_lt (show pos + 6 < 2 ^ 32 by omega)]
  by_cases hlt : pos < len
  swap
  · rw [if_pos hlt, if_neg (by omega)]
    rfl
  rw [if_neg (not_not.mpr hlt)]
  by_cases hthree : pos + 3 > len
  · rw [if_pos hthree, if_neg (by omega)]
    rfl
  rw [if_neg hthree, load_eq (show data + pos < _ by omega), Exec.ok_bind,
    load_eq (show data + (pos + 1) < _ by omega), Exec.ok_bind]
  by_cases hsr : srFlag (byteAt tag (data + pos))
  · have h3 : idOffset tag (data + pos) = 3 := if_pos hsr
    have hid := ndefIdAt_eq fuel creds hin hL (typeLenAt tag (data + pos))
      (payloadLenAt tag (data + pos)) (show pos + idOffset tag (data + pos) ≤ len by omega)
    rw [if_pos hsr, if_neg hthree, load_eq (show data + (pos + 2) < _ by omega), Exec.ok_bind, ← hid,
      h3, payloadLenAt, if_pos hsr]
    rfl
  · have h6 : idOffset tag (data + pos) = 6 := if_neg hsr
    rw [if_neg hsr]
    by_cases hsix : pos + 6 > len
    · rw [if_pos hsix, if_neg (by omega)]
      rfl
    · have hid := ndefIdAt_eq fuel creds hin hL (typeLenAt tag (data + pos))
        (payloadLenAt tag (data + pos)) (show pos + idOffset tag (data + pos) ≤ len by omega)
      rw [if_neg hsix, load32_eq (show data + (pos + 2) + 3 < _ by omega), Exec.ok_bind, ← hid, h6,
        payloadLenAt, if_neg hsr]
      rfl

/-- One pass over the record at `pos`. -/
theorem ndefPass_eq (hin : data + len ≤ tag.length) (hL : tag.length < 2 ^ 18) (hpos : pos ≤ len) :
    (¬ HasRecord tag data len pos ∧
      ndefPass fuel tag data len (pos, creds) = .ok (.done (false, creds))) ∨
    (HasRecord tag data len pos ∧ ndefPass fuel tag data len (pos, creds) = do
      let (found, creds) ←
        parseNdefRecord fuel tag (data + pos) (sizeT (totalAt tag (data + pos))) creds
      if found then return .done (true, creds)
      if meFlag (byteAt tag (data + pos)) then return .done (false, creds)
      return .next (sizeT (pos + sizeT (totalAt tag (data + pos))), creds)) := by
  rw [ndefPass_header fuel creds hin hL hpos]
  by_cases hhdr : pos + hdrSizeAt tag (data + pos) ≤ len
  swap
  · exact .inl ⟨fun h => hhdr h.1, if_neg hhdr⟩
  rw [if_pos hhdr, ndefRecordAt]
  by_cases hend : sizeT (pos + sizeT (totalAt tag (data + pos))) > len
  · exact .inl ⟨fun h => Nat.not_lt.mpr h.2 hend, if_pos hend⟩
  · exact .inr ⟨⟨hhdr, Nat.not_lt.mp hend⟩, if_neg hend⟩

theorem HasRecord.end_le (hrec : HasRecord tag data len pos)
    (hsmall : pos + totalAt tag (data + pos) < 2 ^ 32) : pos + totalAt tag (data + pos) ≤ len := by
  have hend := hrec.2
  rwa [sizeT_of_lt (Nat.lt_of_le_of_lt (Nat.le_add_left _ pos) hsmall), sizeT_of_lt hsmall] at hend

theorem payload_end (hmedia : MediaAt tag (data + pos) (sizeT (totalAt tag (data + pos)))) :
    payloadAt tag (data + pos) + payloadLenAt tag (data + pos) =
      data + (pos + totalAt tag (data + pos)) := by
  rw [payloadAt, totalAt, hmedia.2.1]
  omega

/-- A record that is not a bad one is either the WiFi one or not, and is parsed without a fault. -/
theorem parseNdefRecord_good (hin : data + len ≤ tag.length) (hL : tag.length < 2 ^ 18)
    (hrec : HasRecord tag data len pos) (hgood : ¬ BadRecord tag data len pos) :
    (fuel ≤ tag.length ∧ parseNdefRecord fuel tag (data + pos) (sizeT (totalAt tag (data + pos)))
      creds = .error .fuel) ∨
    ∃ found c, parseNdefRecord fuel tag (data + pos) (sizeT (totalAt tag (data + pos))) creds =
      .ok (found, c) ∧ (found = true ↔ WifiRecord tag data len pos) := by
  have hhdr := hrec.1
  rw [parseNdefRecord_total fuel creds (by omega)]
  by_cases hmedia : MediaAt tag (data + pos) (sizeT (totalAt tag (data + pos)))
  swap
  · rw [if_neg hmedia]
    exact .inr ⟨false, creds, rfl, by simp [WifiRecord, hmedia]⟩
  rw [if_pos hmedia]
  have hfits := hmedia.2.2
  have htype : data + pos + hdrSizeAt tag (data + pos) + wifiNdefTypeLen ≤ tag.length := by
    by_contra hout
    apply hgood
    refine ⟨hrec, hmedia, ?_, .inr (Nat.not_le.mp hout)⟩
    by_contra hsmall
    have hend := hrec.end_le (Nat.not_le.mp hsmall)
    rw [sizeT_of_lt (by omega)] at hfits
    omega
  rw [loadBytes_eq htype, Exec.ok_bind]
  by_cases hmatch : TypeMatches tag (data + pos)
  swap
  · rw [if_pos (c := _ ≠ _) hmatch]
    exact .inr ⟨false, creds, rfl, by simp [WifiRecord, hmatch]⟩
  rw [if_neg (c := _ ≠ _) (not_not.mpr hmatch)]
  -- a record of the right type that is not bad does not reach past 2^32
  have hsmall : pos + totalAt tag (data + pos) < 2 ^ 32 := by
    by_contra hlarge
    exact hgood ⟨hrec, hmedia, Nat.not_lt.mp hlarge, .inl hmatch⟩
  have hend := hrec.end_le hsmall
  have hpayload := payload_end hmedia
  rcases parseWscAttributes_inBounds hL fuel (payloadAt tag (data + pos))
    (payloadLenAt tag (data + pos)) ⟨clearedCreds, false⟩ (by omega) with hfuel | ⟨o, ho, hfound⟩
  · rw [hfuel]
    refine .inl ⟨?_, rfl⟩
    by_contra hlt
    exact parseWscAttributes_ne_fuel hL _ _ _ _ (by omega) hfuel
  · rw [ho]
    refine .inr ⟨o.foundSsid, o.creds, rfl, ?_⟩
    simp only [hfound, Bool.false_eq_true, false_or, WifiRecord, hrec, hmedia, hmatch, true_and]

/-- A bad record makes the parser read past the end of the tag. -/
theorem parseNdefRecord_bad (hin : data + len ≤ tag.length) (hL : tag.length < 2 ^ 18)
    (hbad : BadRecord tag data len pos) (hfuel : tag.length < fuel) :
    parseNdefRecord fuel tag (data + pos) (sizeT (totalAt tag (data + pos))) creds =
      .error .fault := by
  rcases hbad with ⟨⟨hhdr, -⟩, hmedia, hlarge, hover⟩
  have hbounds := hdrSizeAt_bounds tag (data + pos)
  have hid := idLenAt_lt tag (data + pos)
  rw [parseNdefRecord_total fuel creds (by omega), if_pos hmedia]
  by_cases htype : data + pos + hdrSizeAt tag (data + pos) + wifiNdefTypeLen ≤ tag.length
  swap
  · rw [loadBytes_out (Nat.not_le.mp htype), Exec.error_bind]
  have hmatch : TypeMatches tag (data + pos) := hover.resolve_right (Nat.not_lt.mpr htype)
  have hgiant : 2 ^ 31 ≤ payloadLenAt tag (data + pos) := by
    rw [totalAt, hmedia.2.1] at hlarge
    omega
  rw [loadBytes_eq htype, Exec.ok_bind, if_neg (c := _ ≠ _) (not_not.mpr hmatch),
    parseWscAttributes_giant hL hgiant (by omega), Exec.error_bind]

end Pass

/-! ## The record loop -/

section Loop
variable {tag : Bytes} {data len : ℕ}

/-- What a pass does at a record that is not a bad one. -/
theorem ndefPass_good (fuel : ℕ) {pos : ℕ} (creds : WfrWifiCreds) (hin : data + len ≤ tag.length)
    (hL : tag.length < 2 ^ 18) (hpos : pos ≤ len) (hgood : ¬ BadRecord tag data len pos) :
    (fuel ≤ tag.length ∧ ndefPass fuel tag data len (pos, creds) = .error .fuel) ∨
    ∃ c, (EndsAt tag data len pos ∧ ndefPass fuel tag data len (pos, creds) = .ok (.done (false, c))) ∨
      (WifiRecord tag data len pos ∧
        ndefPass fuel tag data len (pos, creds) = .ok (.done (true, c))) ∨
      ∃ q, NextRecord tag data len pos q ∧
        ndefPass fuel tag data len (pos, creds) = .ok (.next (q, c)) := by
  rcases ndefPass_eq fuel creds hin hL hpos with ⟨hnone, heq⟩ | ⟨hrec, heq⟩
  · exact .inr ⟨creds, .inl ⟨.inl hnone, heq⟩⟩
  rw [heq]
  rcases parseNdefRecord_good fuel creds hin hL hrec hgood with ⟨hle, hfuel⟩ | ⟨found, c, hok, hfound⟩
  · exact .inl ⟨hle, by rw [hfuel, Exec.error_bind]⟩
  rw [hok, Exec.ok_bind]
  refine .inr ⟨c, ?_⟩
  cases found with
  | true => exact .inr (.inl ⟨hfound.mp rfl, rfl⟩)
  | false =>
    have hwifi : ¬ WifiRecord tag data len pos := fun hw => Bool.false_ne_true (hfound.mpr hw)
    by_cases hme : meFlag (byteAt tag (data + pos))
    · exact .inl ⟨.inr ⟨hgood, hwifi, hme⟩, if_pos hme⟩
    · exact .inr (.inr ⟨_, ⟨hrec, hgood, hwifi, hme, rfl⟩, if_neg hme⟩)

/-- The positions that the record loop gets to. -/
def RecordReached (tag : Bytes) (data len pos : ℕ) : Prop :=
  Relation.ReflTransGen (NextRecord tag data len) 0 pos

/-- The record loop gets to the end of the message without finding the WiFi record. -/
def MessageEnds (tag : Bytes) (data len : ℕ) : Prop :=
  ∃ pos, RecordReached tag data len pos ∧ EndsAt tag data len pos

theorem RecordReached.le {pos : ℕ} (h : RecordReached tag data len pos) : pos ≤ len := by
  cases h with
  | refl => exact Nat.zero_le _
  | tail _ hnext => exact hnext.2.2.2.2 ▸ hnext.1.2

theorem EndsAt.not_bad {pos : ℕ} (h : EndsAt tag data len pos) : ¬ BadRecord tag data len pos := by
  rcases h with hnone | ⟨hgood, -⟩
  · exact fun hbad => hnone hbad.1
  · exact hgood

/-- A record that is passed over leads to one next position, however much fuel there is. -/
theorem NextRecord.unique {pos q q' : ℕ} (h : NextRecord tag data len pos q)
    (h' : NextRecord tag data len pos q') : q = q' := h.2.2.2.2.trans h'.2.2.2.2.symm

theorem NextRecord.not_ends {pos q : ℕ} (h : NextRecord tag data len pos q) :
    ¬ EndsAt tag data len pos := by
  rintro (hnone | ⟨-, -, hme⟩)
  · exact hnone h.1
  · exact h.2.2.2.1 hme

section Enough
variable (hin : data + len ≤ tag.length) (hL : tag.length < 2 ^ 18)
include hin hL

theorem ndefPass_nextRecord {pos q : ℕ} (h : NextRecord tag data len pos q) :
    ∀ᶠ fuel in atTop, ∀ s : ℕ × WfrWifiCreds, s.1 = pos →
      ∃ t, ndefPass fuel tag data len s = .ok (.next t) ∧ t.1 = q := by
  filter_upwards [eventually_gt_atTop tag.length] with fuel hfuel
  rintro ⟨p, creds⟩ rfl
  have hpos : p ≤ len := Nat.le_of_add_right_le h.1.1
  rcases ndefPass_good fuel creds hin hL hpos h.2.1 with ⟨hle, -⟩ | ⟨c, hcase⟩
  · omega
  rcases hcase with ⟨hends, -⟩ | ⟨hwifi, -⟩ | ⟨q', hq', heq⟩
  · exact absurd hends h.not_ends
  · exact absurd hwifi h.2.2.1
  · exact ⟨_, heq, hq'.unique h⟩

/-- A message with a bad record is read past the end of the tag. -/
theorem parseNdefMessage_bad {pos : ℕ} (hreach : RecordReached tag data len pos)
    (hbad : BadRecord tag data len pos) :
    ∀ᶠ fuel in atTop, ∀ creds, parseNdefMessage fuel tag data len creds = .error .fault := by
  have hlast : ∀ᶠ fuel in atTop, ∀ s : ℕ × WfrWifiCreds, s.1 = pos →
      ∀ j, loop (ndefPass fuel tag data len) (j + 1) s = .error .fault := by
    filter_upwards [eventually_gt_atTop tag.length] with fuel hfuel
    rintro ⟨p, creds⟩ rfl j
    apply loop_of_error
    rcases ndefPass_eq fuel creds hin hL hreach.le with ⟨hnone, -⟩ | ⟨-, heq⟩
    · exact absurd hbad.1 hnone
    · rw [heq, parseNdefRecord_bad fuel creds hin hL hbad hfuel, Exec.error_bind]
  filter_upwards [eventually_loop (fun r => r = .error .fault)
    (fun _ _ => ndefPass_nextRecord hin hL) hreach hlast] with fuel h creds
  exact h (0, creds) rfl

/-- A message that ends is parsed to its end. -/
theorem parseNdefMessage_ends (hends : MessageEnds tag data len) :
    ∀ᶠ fuel in atTop, ∀ creds, ∃ c, parseNdefMessage fuel tag data len creds = .ok (false, c) := by
  rcases hends with ⟨pos, hreach, hends⟩
  have hlast : ∀ᶠ fuel in atTop, ∀ s : ℕ × WfrWifiCreds, s.1 = pos →
      ∀ j, ∃ c, loop (ndefPass fuel tag data len) (j + 1) s = .ok (false, c) := by
    filter_upwards [eventually_gt_atTop tag.length] with fuel hfuel
    rintro ⟨p, creds⟩ rfl j
    rcases ndefPass_good fuel creds hin hL hreach.le hends.not_bad with ⟨hle, -⟩ | ⟨c, hcase⟩
    · omega
    rcases hcase with ⟨-, heq⟩ | ⟨hwifi, -⟩ | ⟨q, hq, -⟩
    · exact ⟨c, loop_of_done heq j⟩
    · rcases hends with hnone | ⟨-, hwifi', -⟩
      · exact absurd hwifi.1 hnone
      · exact absurd hwifi hwifi'
    · exact absurd hends hq.not_ends
  filter_upwards [eventually_loop (fun r => ∃ c, r = .ok (false, c))
    (fun _ _ => ndefPass_nextRecord hin hL) hreach hlast] with fuel h creds
  exact h (0, creds) rfl

section Good
variable {fuel pos : ℕ} {creds : WfrWifiCreds} (hpos : pos ≤ len)
  (hgood : ¬ BadRecord tag data len pos)
include hpos hgood

theorem ndefPass_error {e : Stop} (h : ndefPass fuel tag data len (pos, creds) = .error e) :
    fuel ≤ tag.length ∧ e = .fuel := by
  rcases ndefPass_good fuel creds hin hL hpos hgood with ⟨hle, heq⟩ | ⟨c, hcase⟩
  · rw [heq] at h
    cases h
    exact ⟨hle, rfl⟩
  · rcases hcase with ⟨-, heq⟩ | ⟨-, heq⟩ | ⟨q, -, heq⟩ <;> cases h.symm.trans heq

theorem ndefPass_done {c : WfrWifiCreds}
    (h : ndefPass fuel tag data len (pos, creds) = .ok (.done (false, c))) :
    EndsAt tag data len pos := by
  rcases ndefPass_good fuel creds hin hL hpos hgood with ⟨-, heq⟩ | ⟨c', hcase⟩
  · cases h.symm.trans heq
  · rcases hcase with ⟨hends, -⟩ | ⟨-, heq⟩ | ⟨q, -, heq⟩
    · exact hends
    · cases h.symm.trans heq
    · cases h.symm.trans heq

theorem ndefPass_next {q : ℕ} {c : WfrWifiCreds}
    (h : ndefPass fuel tag data len (pos, creds) = .ok (.next (q, c))) :
    NextRecord tag data len pos q := by
  rcases ndefPass_good fuel creds hin hL hpos hgood with ⟨-, heq⟩ | ⟨c', hcase⟩
  · cases h.symm.trans heq
  · rcases hcase with ⟨-, heq⟩ | ⟨-, heq⟩ | ⟨q', hq', heq⟩
    · cases h.symm.trans heq
    · cases h.symm.trans heq
    · cases h.symm.trans heq
      exact hq'

end Good

section Safe
variable (hgood : ∀ pos, RecordReached tag data len pos → ¬ BadRecord tag data len pos)
include hgood

theorem ndefPass_reached {fuel : ℕ} {s t : ℕ × WfrWifiCreds} (hreach : RecordReached tag data len s.1)
    (h : ndefPass fuel tag data len s = .ok (.next t)) : RecordReached tag data len t.1 :=
  hreach.tail (ndefPass_next hin hL hreach.le (hgood _ hreach) h)

/-- Without a bad record a message is parsed without a fault, and a message in which nothing
was found was parsed to its end. -/
theorem parseNdefMessage_good (fuel : ℕ) (creds : WfrWifiCreds) :
    parseNdefMessage fuel tag data len creds = .error .fuel ∨
      ∃ found c, parseNdefMessage fuel tag data len creds = .ok (found, c) ∧
        (found = false → MessageEnds tag data len) := by
  apply loop_rule (fun s => RecordReached tag data len s.1)
    (fun r => r = .error .fuel ∨ ∃ found c, r = .ok (found, c) ∧
      (found = false → MessageEnds tag data len)) (.inl rfl)
  · rintro ⟨pos, c⟩ e hreach herror
    exact .inl (by rw [(ndefPass_error hin hL hreach.le (hgood _ hreach) herror).2])
  · rintro ⟨pos, c⟩ ⟨found, c'⟩ hreach hdone
    refine .inr ⟨found, c', rfl, ?_⟩
    rintro rfl
    exact ⟨pos, hreach, ndefPass_done hin hL hreach.le (hgood _ hreach) hdone⟩
  · exact fun s t hreach hnext => ndefPass_reached hin hL hgood hreach hnext
  · exact .refl

end Safe
end Enough

/-! ## Progress of the record loop -/

/-- The next record starts further on, unless this one stalls the loop. -/
theorem NextRecord.lt_iff {pos q : ℕ} (h : NextRecord tag data len pos q) (hlen : len < 2 ^ 18) :
    pos < q ↔ ¬ StalledRecord tag data len pos := by
  rcases h with ⟨hrec, -, -, hme, rfl⟩
  have hbounds := hdrSizeAt_bounds tag (data + pos)
  have htype := typeLenAt_lt tag (data + pos)
  have hid := idLenAt_lt tag (data + pos)
  have hpayload := payloadLenAt_lt tag (data + pos)
  have hhdr := hrec.1
  have htotal : 3 ≤ totalAt tag (data + pos) ∧ totalAt tag (data + pos) < 2 ^ 32 + 2 ^ 10 := by
    unfold totalAt
    omega
  simp only [StalledRecord, hrec, hme, not_false_eq_true, true_and, sizeT]
  omega

/-- Without bad and stalled records the message parser ends. -/
theorem parseNdefMessage_ne_fuel (hin : data + len ≤ tag.length) (hL : tag.length < 2 ^ 18)
    (hgood : ∀ pos, RecordReached tag data len pos →
      ¬ BadRecord tag data len pos ∧ ¬ StalledRecord tag data len pos)
    {fuel : ℕ} (hfuel : tag.length < fuel) (creds : WfrWifiCreds) :
    parseNdefMessage fuel tag data len creds ≠ .error .fuel := by
  have hbad (pos : ℕ) (h : RecordReached tag data len pos) := (hgood pos h).1
  apply loop_total (fun s => RecordReached tag data len s.1) (fun s => len - s.1)
    (fun r => r ≠ .error .fuel)
  · rintro ⟨pos, c⟩ e hreach herror -
    exact absurd (ndefPass_error hin hL hreach.le (hbad _ hreach) herror).1 (Nat.not_le.mpr hfuel)
  · exact fun _ _ _ _ => by simp
  · rintro ⟨pos, c⟩ ⟨q, c'⟩ hreach hnext
    have hstep := ndefPass_next hin hL hreach.le (hbad _ hreach) hnext
    have hq := ndefPass_reached hin hL hbad hreach hnext
    have hlt : pos < q := (hstep.lt_iff (by omega)).mpr (hgood _ hreach).2
    have hle : q ≤ len := RecordReached.le hq
    refine ⟨hq, ?_⟩
    change len - q < len - pos
    omega
  · exact .refl
  · change len - 0 < fuel
    omega

end Loop
end InfraFi.Flipper.Nfc
