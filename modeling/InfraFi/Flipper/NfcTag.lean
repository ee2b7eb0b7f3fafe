import InfraFi.Flipper.NfcRecords

/-! # Bounds and termination of the tag parser

The TLV loop always goes on. The record loop does not when the size of a record,
taken modulo 2^32, is 0 or leads back, and such a size can also make the parser
read past the end of the tag.
-/
namespace InfraFi.Flipper.Nfc
open Base Protocol Filter

/-! ## TLV blocks -/

section Tlv
variable (tag : TagImage) (pos : ℕ)

def tlvTypeAt : UInt8 := byteAt tag.bytes (ndefArea + pos)

/-- The length field has three bytes. -/
def LongTlv : Prop := byteAt tag.bytes (ndefArea + (pos + 1)) = 0xFF

instance LongTlv.decidable : Decidable (LongTlv tag pos) := inferInstanceAs (Decidable (_ = _))

def tlvLenAt : ℕ :=
  if LongTlv tag pos then wordAt tag.bytes (ndefArea + (pos + 2))
  else (byteAt tag.bytes (ndefArea + (pos + 1))).toNat

/-- Where the value starts. -/
def tlvStart : ℕ := if LongTlv tag pos then pos + 4 else pos + 2

/-- A TLV with a value, which lies in the NDEF area. -/
def HasTlv : Prop :=
  tlvTypeAt tag pos ≠ ndefTlvNull ∧ tlvTypeAt tag pos ≠ ndefTlvTerminator ∧
    tlvStart tag pos + tlvLenAt tag pos ≤ ndefAreaLen tag

def NullTlv : Prop := pos < ndefAreaLen tag ∧ tlvTypeAt tag pos = ndefTlvNull

/-- A TLV whose value is an NDEF message. -/
def MessageTlv : Prop := HasTlv tag pos ∧ tlvTypeAt tag pos = ndefTlvNdefMsg

end Tlv

/-- From a TLV in which no credentials are found to the next one. -/
def NextTlv (tag : TagImage) (pos q : ℕ) : Prop :=
  NullTlv tag pos ∧ q = pos + 1 ∨
    HasTlv tag pos ∧ q = tlvStart tag pos + tlvLenAt tag pos ∧
      (MessageTlv tag pos →
        MessageEnds tag.bytes (ndefArea + tlvStart tag pos) (tlvLenAt tag pos))

section TlvPass
variable {tag : TagImage} {pos : ℕ} (fuel : ℕ) (creds : WfrWifiCreds)

theorem TagImage.length_lt (tag : TagImage) : tag.bytes.length < 2 ^ 18 := by
  have hpages := tag.pagesRead.toNat_lt
  rw [tag.length_eq]
  omega

theorem ndefArea_end (h : 0 < ndefAreaLen tag) : ndefArea + ndefAreaLen tag = tag.bytes.length := by
  rw [tag.length_eq]
  unfold ndefAreaLen at h ⊢
  unfold ndefArea
  omega

theorem ndefAreaLen_lt (tag : TagImage) : ndefAreaLen tag < 2 ^ 18 := by
  have hpages := tag.pagesRead.toNat_lt
  unfold ndefAreaLen
  omega

theorem HasTlv.bounds (h : HasTlv tag pos) :
    pos + 2 ≤ tlvStart tag pos ∧ tlvStart tag pos + tlvLenAt tag pos ≤ ndefAreaLen tag ∧
      ndefArea + ndefAreaLen tag = tag.bytes.length := by
  have hstart : pos + 2 ≤ tlvStart tag pos := by
    unfold tlvStart
    split <;> omega
  have hend := h.2.2
  exact ⟨hstart, hend, ndefArea_end (by omega)⟩

theorem tlvPass_null (h : NullTlv tag pos) :
    tlvPass fuel tag (pos, creds) = .ok (.next (pos + 1, creds)) := by
  rcases h with ⟨hlt, hnull⟩
  have harea := ndefAreaLen_lt tag
  have hend := ndefArea_end (Nat.zero_lt_of_lt hlt)
  have hload : load tag.bytes (ndefArea + pos) = .ok (tlvTypeAt tag pos) := load_eq (by omega)
  rw [tlvPass, if_neg (not_not.mpr hlt), hload, Exec.ok_bind]
  simp only [if_pos hnull, sizeT_of_lt (show pos + 1 < 2 ^ 32 by omega), Exec.pure_eq]

/-- The value of a TLV is looked at once its length is known. -/
theorem tlvPass_header (h : ¬ NullTlv tag pos) :
    tlvPass fuel tag (pos, creds) =
        tlvValue fuel tag (tlvTypeAt tag pos) (tlvLenAt tag pos) (tlvStart tag pos, creds) ∧
      pos < ndefAreaLen tag ∧ tlvTypeAt tag pos ≠ ndefTlvNull ∧ tlvTypeAt tag pos ≠ ndefTlvTerminator ∨
    ¬ HasTlv tag pos ∧ tlvPass fuel tag (pos, creds) = .ok (.done (false, creds)) := by
  have harea := ndefAreaLen_lt tag
  rw [tlvPass]
  by_cases hlt : pos < ndefAreaLen tag
  swap
  · refine .inr ⟨fun hv => ?_, if_pos hlt⟩
    have hbounds := hv.bounds
    omega
  have hend := ndefArea_end (Nat.zero_lt_of_lt hlt)
  have hload : load tag.bytes (ndefArea + pos) = .ok (tlvTypeAt tag pos) := load_eq (by omega)
  have hnull : tlvTypeAt tag pos ≠ ndefTlvNull := fun hn => h ⟨hlt, hn⟩
  rw [if_neg (not_not.mpr hlt), hload, Exec.ok_bind]
  simp only [if_neg hnull, sizeT_of_lt (show pos + 1 < 2 ^ 32 by omega)]
  by_cases hterm : tlvTypeAt tag pos = ndefTlvTerminator
  · exact .inr ⟨fun hv => hv.2.1 hterm, if_pos hterm⟩
  rw [if_neg hterm]
  by_cases hone : pos + 1 ≥ ndefAreaLen tag
  · refine .inr ⟨fun hv => ?_, if_pos hone⟩
    have hbounds := hv.bounds
    omega
  rw [if_neg hone, load_eq (show ndefArea + (pos + 1) < _ by omega), Exec.ok_bind]
  by_cases hlong : LongTlv tag pos
  · rw [if_pos (c := _ = _) hlong, sizeT_of_lt (show pos + 1 + 3 < 2 ^ 32 by omega), tlvStart, if_pos hlong]
    by_cases hthree : pos + 1 + 3 > ndefAreaLen tag
    · refine .inr ⟨fun hv => ?_, if_pos hthree⟩
      have hstart : tlvStart tag pos = pos + 4 := if_pos hlong
      have hbounds := hv.bounds
      omega
    · rw [if_neg hthree, load16_eq (show ndefArea + (pos + 1 + 1) + 1 < _ by omega), Exec.ok_bind,
        tlvLenAt, if_pos hlong]
      exact .inl ⟨rfl, hlt, hnull, hterm⟩
  · rw [if_neg (c := _ = _) hlong, sizeT_of_lt (show pos + 1 + 1 < 2 ^ 32 by omega), tlvStart, if_neg hlong,
      tlvLenAt, if_neg hlong]
    exact .inl ⟨rfl, hlt, hnull, hterm⟩

/-- A TLV that is not null has a value in the area or ends the loop. -/
theorem tlvPass_eq (h : ¬ NullTlv tag pos) :
    HasTlv tag pos ∧ tlvPass fuel tag (pos, creds) = (
      if tlvTypeAt tag pos = ndefTlvNdefMsg then do
        let (found, creds) ← parseNdefMessage fuel tag.bytes (ndefArea + tlvStart tag pos)
          (tlvLenAt tag pos) creds
        if found then return .done (true, creds)
        return .next (tlvStart tag pos + tlvLenAt tag pos, creds)
      else return .next (tlvStart tag pos + tlvLenAt tag pos, creds)) ∨
    ¬ HasTlv tag pos ∧ tlvPass fuel tag (pos, creds) = .ok (.done (false, creds)) := by
  have harea := ndefAreaLen_lt tag
  rcases tlvPass_header fuel creds h with ⟨heq, hlt, hnull, hterm⟩ | hnone
  swap
  · exact .inr hnone
  have hsmall : tlvStart tag pos + tlvLenAt tag pos < 2 ^ 32 := by
    have hlen : tlvLenAt tag pos < 2 ^ 16 := by
      unfold tlvLenAt
      split
      · exact be16_lt _ _
      · exact (byteAt tag.bytes _).toNat_lt.trans (by decide)
    have hstart : tlvStart tag pos ≤ pos + 4 := by
      unfold tlvStart
      split <;> omega
    omega
  rw [heq, tlvValue, sizeT_of_lt hsmall]
  by_cases hfit : tlvStart tag pos + tlvLenAt tag pos > ndefAreaLen tag
  · exact .inr ⟨fun hv => Nat.not_lt.mpr hv.2.2 hfit, if_pos hfit⟩
  · exact .inl ⟨⟨hnull, hterm, Nat.not_lt.mp hfit⟩, if_neg hfit⟩

theorem HasTlv.not_null (h : HasTlv tag pos) : ¬ NullTlv tag pos := fun hn => h.1 hn.2

theorem tlvPass_message (h : MessageTlv tag pos) :
    tlvPass fuel tag (pos, creds) = do
      let (found, creds) ← parseNdefMessage fuel tag.bytes (ndefArea + tlvStart tag pos)
        (tlvLenAt tag pos) creds
      if found then return .done (true, creds)
      return .next (tlvStart tag pos + tlvLenAt tag pos, creds) := by
  rcases tlvPass_eq fuel creds h.1.not_null with ⟨-, heq⟩ | ⟨hnone, -⟩
  · rw [heq, if_pos h.2]
  · exact absurd h.1 hnone

theorem tlvPass_value (h : HasTlv tag pos) (hm : ¬ MessageTlv tag pos) :
    tlvPass fuel tag (pos, creds) = .ok (.next (tlvStart tag pos + tlvLenAt tag pos, creds)) := by
  rcases tlvPass_eq fuel creds h.not_null with ⟨-, heq⟩ | ⟨hnone, -⟩
  · rw [heq, if_neg (fun ht => hm ⟨h, ht⟩)]
    rfl
  · exact absurd h hnone

/-- A pass that goes on is over a null TLV or over a TLV with a value. -/
theorem tlvPass_next_cases {q : ℕ} {c : WfrWifiCreds}
    (h : tlvPass fuel tag (pos, creds) = .ok (.next (q, c))) :
    NullTlv tag pos ∧ q = pos + 1 ∨ HasTlv tag pos ∧ q = tlvStart tag pos + tlvLenAt tag pos ∧
      (MessageTlv tag pos → ∃ c', parseNdefMessage fuel tag.bytes (ndefArea + tlvStart tag pos)
        (tlvLenAt tag pos) creds = .ok (false, c')) := by
  by_cases hnull : NullTlv tag pos
  · rw [tlvPass_null fuel creds hnull] at h
    cases h
    exact .inl ⟨hnull, rfl⟩
  by_cases hm : MessageTlv tag pos
  · rw [tlvPass_message fuel creds hm] at h
    rcases hmsg : parseNdefMessage fuel tag.bytes (ndefArea + tlvStart tag pos) (tlvLenAt tag pos)
      creds with e | ⟨found, c'⟩
    · rw [hmsg] at h
      cases h
    · rw [hmsg] at h
      cases found <;> cases h
      exact .inr ⟨hm.1, rfl, fun _ => ⟨_, rfl⟩⟩
  rcases tlvPass_eq fuel creds hnull with ⟨hv, -⟩ | ⟨-, heq⟩
  · rw [tlvPass_value fuel creds hv hm] at h
    cases h
    exact .inr ⟨hv, rfl, fun hm' => absurd hm' hm⟩
  · rw [heq] at h
    cases h

/-- A pass stops only in the message of a TLV. -/
theorem tlvPass_error {e : Stop} (h : tlvPass fuel tag (pos, creds) = .error e) :
    MessageTlv tag pos ∧ parseNdefMessage fuel tag.bytes (ndefArea + tlvStart tag pos)
      (tlvLenAt tag pos) creds = .error e := by
  by_cases hnull : NullTlv tag pos
  · rw [tlvPass_null fuel creds hnull] at h
    cases h
  by_cases hm : MessageTlv tag pos
  · rw [tlvPass_message fuel creds hm] at h
    rcases hmsg : parseNdefMessage fuel tag.bytes (ndefArea + tlvStart tag pos) (tlvLenAt tag pos)
      creds with e' | ⟨found, c'⟩
    · rw [hmsg] at h
      cases h
      exact ⟨hm, rfl⟩
    · rw [hmsg] at h
      cases found <;> cases h
  rcases tlvPass_eq fuel creds hnull with ⟨hv, -⟩ | ⟨-, heq⟩
  · rw [tlvPass_value fuel creds hv hm] at h
    cases h
  · rw [heq] at h
    cases h

/-- The TLV loop makes progress wherever it is. -/
theorem tlvPass_advances (s : ℕ × WfrWifiCreds) : Advances (tlvPass fuel tag) Prod.fst s := by
  rintro k ⟨p, c⟩ ⟨q, c'⟩ - hnext
  rcases tlvPass_next_cases fuel c hnext with ⟨-, rfl⟩ | ⟨hv, rfl, -⟩
  · exact Nat.lt_succ_self _
  · have hbounds := hv.bounds
    change p < tlvStart tag p + tlvLenAt tag p
    omega

end TlvPass

/-! ## The way through the tag -/

/-- The tag has pages behind the capability container, which says that they hold NDEF data. -/
def HasNdef (tag : TagImage) : Prop :=
  ¬ tag.pagesRead < 5 ∧ byteAt tag.bytes (3 * 4) = ndefCcMagic

def TlvReached (tag : TagImage) (pos : ℕ) : Prop := Relation.ReflTransGen (NextTlv tag) 0 pos

/-- The message of `len` bytes from `data` on is looked at. -/
def MessageReached (tag : TagImage) (data len : ℕ) : Prop :=
  HasNdef tag ∧ ∃ pos, TlvReached tag pos ∧ MessageTlv tag pos ∧
    data = ndefArea + tlvStart tag pos ∧ len = tlvLenAt tag pos

/-- The record loop gets to position `pos` of the message of `len` bytes from `data` on. -/
def ReachedRecord (tag : TagImage) (data len pos : ℕ) : Prop :=
  MessageReached tag data len ∧ RecordReached tag.bytes data len pos

section Way
variable {tag : TagImage} {data len : ℕ}

theorem MessageTlv.end_le {pos : ℕ} (h : MessageTlv tag pos) :
    ndefArea + tlvStart tag pos + tlvLenAt tag pos ≤ tag.bytes.length := by
  have hbounds := h.1.bounds
  omega

theorem MessageReached.end_le (h : MessageReached tag data len) : data + len ≤ tag.bytes.length := by
  rcases h with ⟨-, pos, -, hm, rfl, rfl⟩
  exact hm.end_le

/-- With enough fuel the TLV loop takes the way of its relation. -/
theorem tlvPass_nextTlv {pos q : ℕ} (h : NextTlv tag pos q) :
    ∀ᶠ fuel in atTop, ∀ s : ℕ × WfrWifiCreds, s.1 = pos →
      ∃ t, tlvPass fuel tag s = .ok (.next t) ∧ t.1 = q := by
  rcases h with ⟨hnull, rfl⟩ | ⟨hv, rfl, hends⟩
  · refine Eventually.of_forall ?_
    rintro fuel ⟨p, creds⟩ rfl
    exact ⟨_, tlvPass_null fuel creds hnull, rfl⟩
  by_cases hm : MessageTlv tag pos
  · filter_upwards [parseNdefMessage_ends hm.end_le tag.length_lt (hends hm)] with fuel hmsg
    rintro ⟨p, creds⟩ rfl
    rcases hmsg creds with ⟨c, hc⟩
    exact ⟨_, by rw [tlvPass_message fuel creds hm, hc, Exec.ok_bind]; rfl, rfl⟩
  · refine Eventually.of_forall ?_
    rintro fuel ⟨p, creds⟩ rfl
    exact ⟨_, tlvPass_value fuel creds hv hm, rfl⟩

theorem wfrNfcParseWifiTag_eq (fuel : ℕ) (h : HasNdef tag) (outCreds : WfrWifiCreds) :
    wfrNfcParseWifiTag fuel tag outCreds = loop (tlvPass fuel tag) fuel (0, outCreds) := by
  have hlen : 3 * 4 < tag.bytes.length := by
    have hpages : ¬ tag.pagesRead.toNat < 5 := h.1
    rw [tag.length_eq]
    omega
  rw [wfrNfcParseWifiTag, if_neg h.1, load_eq hlen, Exec.ok_bind, if_neg (not_not.mpr h.2)]

theorem wfrNfcParseWifiTag_no_ndef (fuel : ℕ) (h : ¬ HasNdef tag) (outCreds : WfrWifiCreds) :
    wfrNfcParseWifiTag fuel tag outCreds = .ok (false, outCreds) := by
  rw [wfrNfcParseWifiTag]
  by_cases hpages : tag.pagesRead < 5
  · rw [if_pos hpages]
    rfl
  have hlen : 3 * 4 < tag.bytes.length := by
    have hpages' : ¬ tag.pagesRead.toNat < 5 := hpages
    rw [tag.length_eq]
    omega
  rw [if_neg hpages, load_eq hlen, Exec.ok_bind, if_pos (fun hcc => h ⟨hpages, hcc⟩)]
  rfl

/-- A bad record on the way makes the tag parser read past the end of the tag. -/
theorem wfrNfcParseWifiTag_bad {pos : ℕ} (h : ReachedRecord tag data len pos)
    (hbad : BadRecord tag.bytes data len pos) (outCreds : WfrWifiCreds) :
    ∀ᶠ fuel in atTop, wfrNfcParseWifiTag fuel tag outCreds = .error .fault := by
  rcases h with ⟨⟨hndef, tlv, hreach, hm, rfl, rfl⟩, hpos⟩
  have hlast : ∀ᶠ fuel in atTop, ∀ s : ℕ × WfrWifiCreds, s.1 = tlv →
      ∀ j, loop (tlvPass fuel tag) (j + 1) s = .error .fault := by
    filter_upwards [parseNdefMessage_bad hm.end_le tag.length_lt hpos hbad] with fuel hmsg
    rintro ⟨p, creds⟩ rfl j
    apply loop_of_error
    rw [tlvPass_message fuel creds hm, hmsg creds, Exec.error_bind]
  filter_upwards [eventually_loop (fun r => r = .error .fault) (fun _ _ => tlvPass_nextTlv) hreach
    hlast] with fuel hloop
  rw [wfrNfcParseWifiTag_eq fuel hndef]
  exact hloop (0, outCreds) rfl

section Safe
variable (hgood : ∀ data len pos, ReachedRecord tag data len pos → ¬ BadRecord tag.bytes data len pos)
  (hndef : HasNdef tag)
include hgood hndef

/-- Without a bad record on the way the TLV loop stays on it. -/
theorem tlvPass_reached {fuel : ℕ} {s t : ℕ × WfrWifiCreds} (hreach : TlvReached tag s.1)
    (h : tlvPass fuel tag s = .ok (.next t)) : TlvReached tag t.1 := by
  refine hreach.tail ?_
  rcases tlvPass_next_cases fuel s.2 h with hnull | ⟨hv, hq, hmsg⟩
  · exact .inl hnull
  · refine .inr ⟨hv, hq, fun hm => ?_⟩
    rcases hmsg hm with ⟨c, hc⟩
    rcases parseNdefMessage_good hm.end_le tag.length_lt
      (fun pos hpos => hgood _ _ pos ⟨⟨hndef, _, hreach, hm, rfl, rfl⟩, hpos⟩) fuel s.2 with
      hfuel | ⟨found, c', hok, hends⟩
    · cases hc.symm.trans hfuel
    · cases hc.symm.trans hok
      exact hends rfl

end Safe

/-- The parser reads only inside the tag if and only if no bad record is on its way. -/
theorem wfrNfcParseWifiTag_inBounds_iff (tag : TagImage) (outCreds : WfrWifiCreds) :
    (∀ fuel, wfrNfcParseWifiTag fuel tag outCreds ≠ .error .fault) ↔
      ∀ data len pos, ReachedRecord tag data len pos → ¬ BadRecord tag.bytes data len pos := by
  constructor
  · intro h data len pos hreach hbad
    rcases (wfrNfcParseWifiTag_bad hreach hbad outCreds).exists with ⟨fuel, hfault⟩
    exact h fuel hfault
  · intro hgood fuel
    by_cases hndef : HasNdef tag
    swap
    · rw [wfrNfcParseWifiTag_no_ndef fuel hndef]
      simp
    rw [wfrNfcParseWifiTag_eq fuel hndef]
    apply loop_rule (fun s => TlvReached tag s.1) (fun r => r ≠ .error .fault) (by simp)
    · rintro ⟨pos, c⟩ e hreach herror he
      cases he
      rcases tlvPass_error fuel c herror with ⟨hm, hmsg⟩
      rcases parseNdefMessage_good hm.end_le tag.length_lt
        (fun pos hpos => hgood _ _ pos ⟨⟨hndef, _, hreach, hm, rfl, rfl⟩, hpos⟩) fuel c with
        hfuel | ⟨found, c', hok, -⟩
      · cases hmsg.symm.trans hfuel
      · cases hmsg.symm.trans hok
    · exact fun _ _ _ _ => by simp
    · exact fun s t hreach hnext => tlvPass_reached hgood hndef hreach hnext
    · exact .refl

end Way

/-! ## A record whose size is more than 32 bits hold -/

/-- One record in twelve pages: media type, the WSC type, an ID of one byte, and a payload of
2^32 - 1 bytes, so that the sizes add up to 30 bytes modulo 2^32. -/
private def overrunTag : TagImage where
  pagesRead := 12
  bytes := List.replicate 12 0 ++ [0xE1, 0x10, 0x06, 0x00, 0x03, 0x1E] ++
    [0xCA, 0x17, 0xFF, 0xFF, 0xFF, 0xFF, 0x01] ++ wifiNdefType
  length_eq := by decide

/-- The payload starts behind the end of the tag. -/
theorem wfrNfcParseWifiTag_overrun :
    wfrNfcParseWifiTag 2 overrunTag clearedCreds = .error .fault := rfl

/-! ## Termination -/

/-- The parser returns, and every pass of its loops that goes on does so further on. Records are
those of the messages that the TLV loop gets to. -/
structure EndsWithProgress (tag : TagImage) (outCreds : WfrWifiCreds) : Prop where
  returns : ∀ᶠ fuel in atTop, ∃ r, wfrNfcParseWifiTag fuel tag outCreds = .ok r
  tlvs : ∀ fuel, Advances (tlvPass fuel tag) Prod.fst (0, outCreds)
  records : HasNdef tag → ∀ fuel k pos creds,
    Passes (tlvPass fuel tag) k (0, outCreds) (pos, creds) → MessageTlv tag pos →
      Advances (ndefPass fuel tag.bytes (ndefArea + tlvStart tag pos) (tlvLenAt tag pos)) Prod.fst
        (0, creds)
  attributes : ∀ fuel data len s,
    Advances (wscPass tag.bytes (parseWscAttributes tag.bytes fuel) data len) Prod.fst s
  containers : ∀ fuel data len out, tag.bytes.length < fuel →
    parseWscAttributes tag.bytes fuel data len out ≠ .error .fuel

section Progress
variable {tag : TagImage} {data len pos : ℕ} {outCreds : WfrWifiCreds}

theorem EndsWithProgress.not_stalled (h : EndsWithProgress tag outCreds)
    (hreach : ReachedRecord tag data len pos) (hgood : ¬ BadRecord tag.bytes data len pos) :
    ¬ StalledRecord tag.bytes data len pos := by
  rcases hreach with ⟨⟨hndef, tlv, htlv, hm, rfl, rfl⟩, hpos⟩
  intro hstalled
  have hlen : tlvLenAt tag tlv < 2 ^ 18 :=
    Nat.lt_of_le_of_lt ((Nat.le_add_left _ _).trans hm.end_le) tag.length_lt
  have hwifi : ¬ WifiRecord tag.bytes (ndefArea + tlvStart tag tlv) (tlvLenAt tag tlv) pos := by
    rintro ⟨hrec, hmedia, hmatch, -⟩
    refine hgood ⟨hrec, hmedia, ?_, .inl hmatch⟩
    rcases hstalled.2.2 with heq | ⟨-, hge⟩ <;> omega
  have hnext : NextRecord tag.bytes (ndefArea + tlvStart tag tlv) (tlvLenAt tag tlv) pos _ :=
    ⟨hstalled.1, hgood, hwifi, hstalled.2.1, rfl⟩
  rcases eventually_passes (fun _ _ => tlvPass_nextTlv) htlv with ⟨k, hk⟩
  rcases eventually_passes (fun _ _ => ndefPass_nextRecord hm.end_le tag.length_lt) hpos with ⟨j, hj⟩
  rcases ((hk.and hj).and (ndefPass_nextRecord hm.end_le tag.length_lt hnext)).exists with
    ⟨fuel, ⟨htlvs, hrecords⟩, hlast⟩
  rcases htlvs (0, outCreds) rfl with ⟨⟨tlv', creds⟩, rfl, hpasses⟩
  rcases hrecords (0, creds) rfl with ⟨⟨pos', c⟩, rfl, hrecs⟩
  rcases hlast (pos', c) rfl with ⟨⟨q, c'⟩, hstep, rfl⟩
  have hlt : pos' < _ := h.records hndef fuel k tlv' creds hpasses hm j _ _ hrecs hstep
  exact (hnext.lt_iff hlen).mp hlt hstalled

/-- Without bad and stalled records the parser returns. -/
theorem wfrNfcParseWifiTag_returns (hgood : ∀ data len pos, ReachedRecord tag data len pos →
      ¬ BadRecord tag.bytes data len pos ∧ ¬ StalledRecord tag.bytes data len pos)
    {fuel : ℕ} (hfuel : tag.bytes.length < fuel) :
    ∃ r, wfrNfcParseWifiTag fuel tag outCreds = .ok r := by
  by_cases hndef : HasNdef tag
  swap
  · exact ⟨_, wfrNfcParseWifiTag_no_ndef fuel hndef outCreds⟩
  have hbad (data len pos : ℕ) (h : ReachedRecord tag data len pos) := (hgood data len pos h).1
  rw [wfrNfcParseWifiTag_eq fuel hndef]
  apply loop_total (fun s => TlvReached tag s.1) (fun s => ndefAreaLen tag - s.1)
    (fun r => ∃ r', r = .ok r')
  · rintro ⟨pos, c⟩ e hreach herror
    rcases tlvPass_error fuel c herror with ⟨hm, hmsg⟩
    have hway {pos : ℕ} (hpos : RecordReached tag.bytes _ _ pos) : ReachedRecord tag _ _ pos :=
      ⟨⟨hndef, _, hreach, hm, rfl, rfl⟩, hpos⟩
    rcases parseNdefMessage_good hm.end_le tag.length_lt (fun pos hpos => hbad _ _ pos (hway hpos))
      fuel c with hf | ⟨found, c', hok, -⟩
    · exact absurd hf (parseNdefMessage_ne_fuel hm.end_le tag.length_lt
        (fun pos hpos => hgood _ _ pos (hway hpos)) hfuel c)
    · cases hmsg.symm.trans hok
  · exact fun _ r _ _ => ⟨r, rfl⟩
  · rintro ⟨pos, c⟩ ⟨q, c'⟩ hreach hnext
    refine ⟨tlvPass_reached hbad hndef hreach hnext, ?_⟩
    have hlt : pos < q := tlvPass_advances fuel (pos, c) 0 _ _ (.refl _) hnext
    have hpos : pos < ndefAreaLen tag := by
      rcases tlvPass_next_cases fuel c hnext with ⟨hnull, -⟩ | ⟨hv, -⟩
      · exact hnull.1
      · have hbounds := hv.bounds
        omega
    change ndefAreaLen tag - q < ndefAreaLen tag - pos
    omega
  · exact .refl
  · have hend : ndefAreaLen tag ≤ tag.bytes.length := by
      rw [tag.length_eq, ndefAreaLen]
      omega
    change ndefAreaLen tag - 0 < fuel
    omega

end Progress

/-- The parser ends with progress if and only if no record on its way is bad or stalls it. -/
theorem wfrNfcParseWifiTag_progress_iff (tag : TagImage) (outCreds : WfrWifiCreds) :
    EndsWithProgress tag outCreds ↔ ∀ data len pos, ReachedRecord tag data len pos →
      ¬ BadRecord tag.bytes data len pos ∧ ¬ StalledRecord tag.bytes data len pos := by
  constructor
  · intro h data len pos hreach
    have hgood : ¬ BadRecord tag.bytes data len pos := by
      intro hbad
      rcases (h.returns.and (wfrNfcParseWifiTag_bad hreach hbad outCreds)).exists with
        ⟨fuel, ⟨r, hr⟩, hfault⟩
      cases hr.symm.trans hfault
    exact ⟨hgood, h.not_stalled hreach hgood⟩
  · intro hgood
    have hbad (data len pos : ℕ) (h : ReachedRecord tag data len pos) := (hgood data len pos h).1
    constructor
    · filter_upwards [eventually_gt_atTop tag.bytes.length] with fuel hfuel
      exact wfrNfcParseWifiTag_returns hgood hfuel
    · exact fun fuel => tlvPass_advances fuel _
    · intro hndef fuel k pos creds hpasses hm
      have hreach : TlvReached tag pos :=
        hpasses.invariant (fun s : ℕ × WfrWifiCreds => TlvReached tag s.1)
          (fun _ _ hs hnext => tlvPass_reached hbad hndef hs hnext) .refl
      have hway {p : ℕ} (hp : RecordReached tag.bytes _ _ p) : ReachedRecord tag _ _ p :=
        ⟨⟨hndef, _, hreach, hm, rfl, rfl⟩, hp⟩
      have hlen : tlvLenAt tag pos < 2 ^ 18 :=
        Nat.lt_of_le_of_lt ((Nat.le_add_left _ _).trans hm.end_le) tag.length_lt
      rintro j ⟨p, c⟩ ⟨q, c'⟩ hrecs hnext
      have hp : RecordReached tag.bytes (ndefArea + tlvStart tag pos) (tlvLenAt tag pos) p :=
        hrecs.invariant (fun s : ℕ × WfrWifiCreds =>
            RecordReached tag.bytes (ndefArea + tlvStart tag pos) (tlvLenAt tag pos) s.1)
          (fun _ _ hs hn => ndefPass_reached hm.end_le tag.length_lt
            (fun _ hr => hbad _ _ _ (hway hr)) hs hn) .refl
      have hstep := ndefPass_next hm.end_le tag.length_lt hp.le (hbad _ _ _ (hway hp)) hnext
      exact (hstep.lt_iff hlen).mpr (hgood _ _ _ (hway hp)).2
    · exact fun fuel data len s => wscPass_advances tag.length_lt s
    · exact fun fuel data len out hfuel =>
        parseWscAttributes_ne_fuel tag.length_lt fuel data len out (by omega)

/-- One record in six pages, with no type, no ID, a payload of 2^32 - 6 bytes and no Message-End
flag: with its header it has the size 0 modulo 2^32. -/
private def stalledTag : TagImage where
  pagesRead := 6
  bytes := List.replicate 12 0 ++ [0xE1, 0x10, 0x06, 0x00, 0x03, 0x06] ++
    [0x82, 0x00, 0xFF, 0xFF, 0xFF, 0xFA]
  length_eq := by decide

private theorem ndefPass_stalledTag (fuel : ℕ) (creds : WfrWifiCreds) :
    ndefPass fuel stalledTag.bytes 18 6 (0, creds) = .ok (.next (0, creds)) := by
  have htotal : sizeT (totalAt stalledTag.bytes 18) = 0 := by decide +kernel
  have hend : sizeT (0 + sizeT (totalAt stalledTag.bytes (18 + 0))) ≤ 6 := by decide +kernel
  have hlen : stalledTag.bytes.length < 2 ^ 18 := stalledTag.length_lt
  rcases ndefPass_eq fuel creds (show 18 + 6 ≤ stalledTag.bytes.length by decide) hlen
    (Nat.zero_le 6) with ⟨hnone, -⟩ | ⟨-, heq⟩
  · exact absurd ⟨by decide, hend⟩ hnone
  · rw [heq, Nat.add_zero, htotal]
    rfl

private theorem wfrNfcParseWifiTag_stalledTag (fuel : ℕ) :
    wfrNfcParseWifiTag fuel stalledTag clearedCreds = .error .fuel := by
  have hmessage : MessageTlv stalledTag 0 := ⟨⟨by decide, by decide, by decide⟩, rfl⟩
  have hcycle (fuel : ℕ) : parseNdefMessage fuel stalledTag.bytes (ndefArea + tlvStart stalledTag 0)
      (tlvLenAt stalledTag 0) clearedCreds = .error .fuel :=
    loop_of_cycle (ndefPass_stalledTag fuel clearedCreds) fuel
  rw [wfrNfcParseWifiTag_eq fuel ⟨by decide, rfl⟩]
  cases fuel with
  | zero => rfl
  | succ fuel =>
    apply loop_of_error
    rw [tlvPass_message _ _ hmessage, hcycle, Exec.error_bind]

/-- The record loop stays at its first record. -/
theorem wfrNfcParseWifiTag_never_returns :
    ¬ ∃ fuel r, wfrNfcParseWifiTag fuel stalledTag clearedCreds = .ok r := by
  rintro ⟨fuel, r, hr⟩
  cases (wfrNfcParseWifiTag_stalledTag fuel).symm.trans hr

end InfraFi.Flipper.Nfc
