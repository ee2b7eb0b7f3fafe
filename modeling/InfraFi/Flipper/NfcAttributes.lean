import InfraFi.Flipper.Nfc

/-! # What the attribute parser reads

Inside the tag the parser ends and finds the SSID if the bytes hold one. A
length that reaches past any tag makes it read past the end.
-/
namespace InfraFi.Flipper.Nfc
open Base Protocol

/-! ## Bytes of the tag -/

def byteAt (tag : Bytes) (i : ℕ) : UInt8 := tag.getD i 0

def wordAt (tag : Bytes) (i : ℕ) : ℕ := be16 (byteAt tag i) (byteAt tag (i + 1))

theorem be16_lt (hi lo : UInt8) : be16 hi lo < 2 ^ 16 := by
  have hhi := hi.toNat_lt
  have hlo := lo.toNat_lt
  unfold be16
  omega

theorem be32_lt (b₃ b₂ b₁ b₀ : UInt8) : be32 b₃ b₂ b₁ b₀ < 2 ^ 32 := by
  have hhi := be16_lt b₃ b₂
  have hlo := be16_lt b₁ b₀
  unfold be32
  omega

theorem sizeT_of_lt {n : ℕ} (h : n < 2 ^ 32) : sizeT n = n := Nat.mod_eq_of_lt h

section Loads
variable {tag : Bytes} {i : ℕ}

theorem load_eq (h : i < tag.length) : load tag i = .ok (byteAt tag i) := by
  simp [load, byteAt, h]

theorem load16_eq (h : i + 1 < tag.length) : load16 tag i = .ok (wordAt tag i) := by
  simp only [load16, load_eq (Nat.lt_of_succ_lt h), load_eq h, Exec.ok_bind]
  rfl

theorem load16_out (h : tag.length ≤ i + 1) : load16 tag i = .error .fault := by
  rcases Nat.lt_or_ge i tag.length with hi | hi
  · simp [load16, load_eq hi, load_of_le h]
  · simp [load16, load_of_le hi]

theorem load32_eq (h : i + 3 < tag.length) :
    load32 tag i = .ok (be32 (byteAt tag i) (byteAt tag (i + 1)) (byteAt tag (i + 2))
      (byteAt tag (i + 3))) := by
  simp only [load32, load_eq (show i < tag.length by omega), load_eq (show i + 1 < tag.length by omega),
    load_eq (show i + 2 < tag.length by omega), load_eq h, Exec.ok_bind]
  rfl

theorem loadBytes_eq {n : ℕ} (h : i + n ≤ tag.length) :
    loadBytes tag i n = .ok ((tag.drop i).take n) := if_pos h

theorem loadBytes_out {n : ℕ} (h : tag.length < i + n) : loadBytes tag i n = .error .fault :=
  if_neg (Nat.not_le.mpr h)

end Loads

/-! ## The SSID among the attributes -/

/-- The ID of the attribute at `d`. -/
def attrId (tag : Bytes) (d : ℕ) : ℕ := wordAt tag d

def attrLen (tag : Bytes) (d : ℕ) : ℕ := wordAt tag (d + 2)

/-- The `n` bytes from `d` on hold an SSID attribute of an allowed length, by itself or in a
Credential. -/
inductive SsidIn (tag : Bytes) : ℕ → ℕ → Prop
  | ssid {d n : ℕ} (hfit : 4 + attrLen tag d ≤ n) (hid : attrId tag d = wscAttrSsid)
      (hlen : 0 < attrLen tag d ∧ attrLen tag d ≤ wfrSsidMaxLen) : SsidIn tag d n
  | credential {d n : ℕ} (hfit : 4 + attrLen tag d ≤ n) (hid : attrId tag d = wscAttrCredential)
      (h : SsidIn tag (d + 4) (attrLen tag d)) : SsidIn tag d n
  | later {d n : ℕ} (hfit : 4 + attrLen tag d ≤ n)
      (h : SsidIn tag (d + 4 + attrLen tag d) (n - (4 + attrLen tag d))) : SsidIn tag d n

section Ssid
variable {tag : Bytes} {d n : ℕ}

theorem SsidIn.fits (h : SsidIn tag d n) : 4 + attrLen tag d ≤ n := by
  cases h with
  | ssid hfit => exact hfit
  | credential hfit => exact hfit
  | later hfit => exact hfit

theorem ssidIn_iff (hfit : 4 + attrLen tag d ≤ n) :
    SsidIn tag d n ↔
      (attrId tag d = wscAttrSsid ∧ 0 < attrLen tag d ∧ attrLen tag d ≤ wfrSsidMaxLen ∨
        attrId tag d = wscAttrCredential ∧ SsidIn tag (d + 4) (attrLen tag d)) ∨
      SsidIn tag (d + 4 + attrLen tag d) (n - (4 + attrLen tag d)) := by
  constructor
  · intro h
    cases h with
    | ssid _ hid hlen => exact .inl (.inl ⟨hid, hlen⟩)
    | credential _ hid h => exact .inl (.inr ⟨hid, h⟩)
    | later _ h => exact .inr h
  · rintro ((⟨hid, hlen⟩ | ⟨hid, h⟩) | h)
    · exact .ssid hfit hid hlen
    · exact .credential hfit hid h
    · exact .later hfit h

end Ssid

/-! ## One attribute -/

section Attribute
variable {tag : Bytes} {recurse : ℕ → ℕ → WscOut → Exec WscOut} {id n value : ℕ} {out : WscOut}

/-- The value of an attribute that is not a Credential is read at once. -/
theorem wscAttribute_ne_fuel (h : recurse value n out ≠ .error .fuel) :
    wscAttribute tag recurse id n value out ≠ .error .fuel := by
  have hbytes : loadBytes tag value n ≠ .error .fuel := by
    unfold loadBytes
    split <;> simp
  have hword : load16 tag value ≠ .error .fuel := by
    rcases Nat.lt_or_ge (value + 1) tag.length with hv | hv
    · simp [load16_eq hv]
    · simp [load16_out hv]
  unfold wscAttribute
  split
  · exact h
  split
  · split
    · exact Exec.map_ne_error hbytes
    · simp
  split
  · split
    · exact Exec.map_ne_error hword
    · simp
  split
  · split
    · exact Exec.map_ne_error hbytes
    · simp
  · simp

/-- A value inside the tag is read without a fault, and the SSID is found where there is one. -/
theorem wscAttribute_inBounds (hin : value + n ≤ tag.length) {Ssid : Prop}
    (hrec : id = wscAttrCredential → recurse value n out = .error .fuel ∨
      ∃ o, recurse value n out = .ok o ∧ (o.foundSsid = true ↔ out.foundSsid = true ∨ Ssid)) :
    wscAttribute tag recurse id n value out = .error .fuel ∨
      ∃ o, wscAttribute tag recurse id n value out = .ok o ∧ (o.foundSsid = true ↔
        out.foundSsid = true ∨ id = wscAttrSsid ∧ 0 < n ∧ n ≤ wfrSsidMaxLen ∨
          id = wscAttrCredential ∧ Ssid) := by
  by_cases hcred : id = wscAttrCredential
  · rw [wscAttribute, if_pos hcred]
    have hssid : ¬ id = wscAttrSsid := by
      rw [hcred]
      decide
    simpa [hcred, show ¬ wscAttrCredential = wscAttrSsid by decide] using hrec hcred
  refine .inr ?_
  simp only [wscAttribute, hcred, false_and, or_false]
  by_cases hssid : id = wscAttrSsid
  · by_cases hlen : 0 < n ∧ n ≤ wfrSsidMaxLen
    · simp [hssid, hlen, loadBytes_eq hin]
    · simp [hssid, hlen]
  simp only [hssid, false_and, or_false]
  by_cases hauth : id = wscAttrAuthType
  · by_cases htwo : n = 2
    · have hlast : value + 1 < tag.length := by omega
      simp [hauth, htwo, load16_eq hlast]
    · simp [hauth, htwo]
  by_cases hkey : id = wscAttrNetKey
  · by_cases hlen : 0 < n ∧ n ≤ wfrPassMaxLen
    · simp [hkey, hlen, loadBytes_eq hin, wscAttrNetKey, wscAttrAuthType]
    · simp [hkey, hlen, wscAttrNetKey, wscAttrAuthType]
  · simp [hauth, hkey]

end Attribute

/-! ## One pass -/

section WscPass
variable {tag : Bytes} {recurse : ℕ → ℕ → WscOut → Exec WscOut} {data len pos : ℕ} {out : WscOut}

theorem wscPass_of_gt (h : len < sizeT (pos + 4)) :
    wscPass tag recurse data len (pos, out) = .ok (.done out) := if_neg (Nat.not_le.mpr h)

theorem wscPass_out (hpos : sizeT (pos + 4) ≤ len) (h : tag.length < data + (pos + 4)) :
    wscPass tag recurse data len (pos, out) = .error .fault := by
  rw [wscPass, if_pos hpos]
  rcases Nat.lt_or_ge (data + pos + 1) tag.length with hid | hid
  · rw [load16_eq hid, Exec.ok_bind, load16_out (by omega), Exec.error_bind]
  · rw [load16_out hid, Exec.error_bind]

theorem wscPass_in (hL : tag.length < 2 ^ 18) (hpos : pos + 4 ≤ len)
    (h : data + (pos + 4) ≤ tag.length) :
    wscPass tag recurse data len (pos, out) =
      if len < pos + 4 + attrLen tag (data + pos) then .ok (.done out)
      else do
        let out ← wscAttribute tag recurse (attrId tag (data + pos)) (attrLen tag (data + pos))
          (data + pos + 4) out
        return .next (pos + 4 + attrLen tag (data + pos), out) := by
  have hlen : attrLen tag (data + pos) < 2 ^ 16 := be16_lt _ _
  have h4 : sizeT (pos + 4) = pos + 4 := sizeT_of_lt (by omega)
  have hend : sizeT (pos + 4 + attrLen tag (data + pos)) = pos + 4 + attrLen tag (data + pos) :=
    sizeT_of_lt (by omega)
  have hid : load16 tag (data + pos) = .ok (attrId tag (data + pos)) := load16_eq (by omega)
  have hlen : load16 tag (data + (pos + 2)) = .ok (attrLen tag (data + pos)) := load16_eq (by omega)
  simp only [wscPass, hid, hlen, h4, hend, if_pos hpos, Exec.ok_bind, gt_iff_lt, Exec.pure_eq]
  rw [Nat.add_assoc data]

/-- A pass that goes on has read an attribute inside the tag, and the attribute ends at its end. -/
theorem wscPass_next (hL : tag.length < 2 ^ 18) {p : ℕ} {o : WscOut}
    (h : wscPass tag recurse data len (pos, out) = .ok (.next (p, o))) :
    data + (pos + 4) ≤ tag.length ∧ pos + 4 + attrLen tag (data + pos) ≤ len ∧
      p = pos + 4 + attrLen tag (data + pos) ∧
      wscAttribute tag recurse (attrId tag (data + pos)) (attrLen tag (data + pos))
        (data + pos + 4) out = .ok o := by
  rcases Nat.lt_or_ge len (sizeT (pos + 4)) with hgt | hpos
  · rw [wscPass_of_gt hgt] at h
    cases h
  rcases Nat.lt_or_ge tag.length (data + (pos + 4)) with hout | hin
  · rw [wscPass_out hpos hout] at h
    cases h
  rw [sizeT_of_lt (by omega)] at hpos
  rw [wscPass_in hL hpos hin] at h
  split at h
  · cases h
  · next hfit =>
    cases hattr : wscAttribute tag recurse (attrId tag (data + pos)) (attrLen tag (data + pos))
        (data + pos + 4) out with
    | error e =>
      rw [hattr] at h
      cases h
    | ok o' =>
      rw [hattr] at h
      cases h
      exact ⟨hin, Nat.not_lt.mp hfit, rfl, rfl⟩

/-- A pass stops outside the tag, or at the value of an attribute. -/
theorem wscPass_error (hL : tag.length < 2 ^ 18) {e : Stop}
    (h : wscPass tag recurse data len (pos, out) = .error e) :
    e = .fault ∧ tag.length < data + (pos + 4) ∧ sizeT (pos + 4) ≤ len ∨
      data + (pos + 4) ≤ tag.length ∧ pos + 4 + attrLen tag (data + pos) ≤ len ∧
        wscAttribute tag recurse (attrId tag (data + pos)) (attrLen tag (data + pos))
          (data + pos + 4) out = .error e := by
  rcases Nat.lt_or_ge len (sizeT (pos + 4)) with hgt | hpos
  · rw [wscPass_of_gt hgt] at h
    cases h
  rcases Nat.lt_or_ge tag.length (data + (pos + 4)) with hout | hin
  · rw [wscPass_out hpos hout] at h
    cases h
    exact .inl ⟨rfl, hout, hpos⟩
  rw [sizeT_of_lt (by omega)] at hpos
  rw [wscPass_in hL hpos hin] at h
  split at h
  · cases h
  · next hfit =>
    cases hattr : wscAttribute tag recurse (attrId tag (data + pos)) (attrLen tag (data + pos))
        (data + pos + 4) out with
    | error e' =>
      rw [hattr] at h
      cases h
      exact .inr ⟨hin, Nat.not_lt.mp hfit, rfl⟩
    | ok o' =>
      rw [hattr] at h
      cases h

/-- A pass that ends the loop found no attribute that fits. -/
theorem wscPass_done (hL : tag.length < 2 ^ 18) {o : WscOut}
    (h : wscPass tag recurse data len (pos, out) = .ok (.done o)) :
    o = out ∧ (len < sizeT (pos + 4) ∨
      data + (pos + 4) ≤ tag.length ∧ len < pos + 4 + attrLen tag (data + pos)) := by
  rcases Nat.lt_or_ge len (sizeT (pos + 4)) with hgt | hpos
  · rw [wscPass_of_gt hgt] at h
    cases h
    exact ⟨rfl, .inl hgt⟩
  rcases Nat.lt_or_ge tag.length (data + (pos + 4)) with hout | hin
  · rw [wscPass_out hpos hout] at h
    cases h
  rw [sizeT_of_lt (by omega)] at hpos
  rw [wscPass_in hL hpos hin] at h
  split at h
  · next hfit =>
    cases h
    exact ⟨rfl, .inr ⟨hin, hfit⟩⟩
  · cases hattr : wscAttribute tag recurse (attrId tag (data + pos)) (attrLen tag (data + pos))
        (data + pos + 4) out <;> rw [hattr] at h <;> cases h

/-- The attribute loop makes progress wherever it is. -/
theorem wscPass_advances (hL : tag.length < 2 ^ 18) (s : ℕ × WscOut) :
    Advances (wscPass tag recurse data len) Prod.fst s := by
  rintro k ⟨p, o⟩ ⟨q, o'⟩ - hnext
  rcases wscPass_next hL hnext with ⟨-, -, rfl, -⟩
  omega

end WscPass

/-! ## The whole parser -/

section Parser
variable {tag : Bytes}

/-- The attribute parser ends, however the lengths are chosen. -/
theorem parseWscAttributes_ne_fuel (hL : tag.length < 2 ^ 18) (fuel data len : ℕ) (out : WscOut)
    (hfuel : tag.length - data < fuel) :
    parseWscAttributes tag fuel data len out ≠ .error .fuel := by
  induction fuel generalizing data len out with
  | zero => omega
  | succ fuel ih =>
    rw [parseWscAttributes]
    refine loop_total (fun _ => True) (fun s => tag.length - (data + s.1)) (fun r => r ≠ .error .fuel)
      ?_ (fun _ _ _ _ => by simp) ?_ _ trivial (by simpa using hfuel)
    · rintro ⟨pos, o⟩ e - herror he
      cases he
      rcases wscPass_error hL herror with ⟨hf, -⟩ | ⟨hin, -, hattr⟩
      · cases hf
      · exact wscAttribute_ne_fuel (ih _ _ _ (by omega)) hattr
    · rintro ⟨pos, o⟩ ⟨p, o'⟩ - hnext
      rcases wscPass_next hL hnext with ⟨hin, -, rfl, -⟩
      refine ⟨trivial, ?_⟩
      change tag.length - (data + _) < tag.length - (data + pos)
      omega

/-- A parse of attributes that did not fault, and found the SSID just where there is one. -/
def FindsSsid (tag : Bytes) (data len : ℕ) (out : WscOut) (r : Exec WscOut) : Prop :=
  r = .error .fuel ∨
    ∃ o, r = .ok o ∧ (o.foundSsid = true ↔ out.foundSsid = true ∨ SsidIn tag data len)

/-- Attributes inside the tag are parsed without a fault. -/
theorem parseWscAttributes_inBounds (hL : tag.length < 2 ^ 18) (fuel data len : ℕ) (out : WscOut)
    (hin : data + len ≤ tag.length) :
    FindsSsid tag data len out (parseWscAttributes tag fuel data len out) := by
  induction fuel generalizing data len out with
  | zero => exact .inl rfl
  | succ fuel ih =>
    rw [parseWscAttributes]
    -- what is found so far and what is still ahead make up what there is
    refine loop_rule (fun s => s.1 ≤ len ∧
        (s.2.foundSsid = true ∨ SsidIn tag (data + s.1) (len - s.1) ↔
          out.foundSsid = true ∨ SsidIn tag data len)) _ (.inl rfl) ?_ ?_ ?_ _ ⟨Nat.zero_le _, by simp⟩
    · rintro ⟨pos, o⟩ e ⟨hpos, -⟩ herror
      change pos ≤ len at hpos
      rcases wscPass_error hL herror with ⟨-, hout, h4⟩ | ⟨-, hfit, hattr⟩
      · rw [sizeT_of_lt (by omega)] at h4
        omega
      · have hvalue : data + pos + 4 + attrLen tag (data + pos) ≤ tag.length := by omega
        rcases wscAttribute_inBounds hvalue (fun _ => ih _ _ o hvalue) with hfuel | ⟨o', ho', -⟩
        · exact .inl (by rw [← hattr, hfuel])
        · rw [hattr] at ho'
          cases ho'
    · rintro ⟨pos, o⟩ r ⟨hpos, hfound⟩ hdone
      change pos ≤ len at hpos
      rcases wscPass_done hL hdone with ⟨rfl, hend⟩
      have hnone : ¬ SsidIn tag (data + pos) (len - pos) := by
        intro hs
        have hfits := hs.fits
        rcases hend with hgt | ⟨-, hgt⟩
        · rw [sizeT_of_lt (by omega)] at hgt
          omega
        · omega
      refine .inr ⟨_, rfl, ?_⟩
      rw [← hfound]
      simp [hnone]
    · rintro ⟨pos, o⟩ ⟨p, o'⟩ ⟨hpos, hfound⟩ hnext
      change pos ≤ len at hpos
      rcases wscPass_next hL hnext with ⟨-, hfit, rfl, hattr⟩
      have hvalue : data + pos + 4 + attrLen tag (data + pos) ≤ tag.length := by omega
      refine ⟨hfit, ?_⟩
      rcases wscAttribute_inBounds hvalue (fun _ => ih _ _ o hvalue) with hfuel | ⟨o'', ho', hcase⟩
      · rw [hattr] at hfuel
        cases hfuel
      rw [hattr] at ho'
      cases ho'
      have hahead : SsidIn tag (data + pos) (len - pos) ↔ _ :=
        ssidIn_iff (show 4 + attrLen tag (data + pos) ≤ len - pos by omega)
      rw [← hfound, hahead, hcase, or_assoc]
      have hpos' : data + (pos + 4 + attrLen tag (data + pos)) =
          data + pos + 4 + attrLen tag (data + pos) := by omega
      have hlen' : len - (pos + 4 + attrLen tag (data + pos)) =
          len - pos - (4 + attrLen tag (data + pos)) := by omega
      rw [hpos', hlen']

/-- A length that no tag can hold makes the parser read past the end. -/
theorem parseWscAttributes_giant (hL : tag.length < 2 ^ 18) {fuel data len : ℕ} {out : WscOut}
    (hlen : 2 ^ 31 ≤ len) (hfuel : tag.length - data < fuel) :
    parseWscAttributes tag fuel data len out = .error .fault := by
  have hnever (o : WscOut) : parseWscAttributes tag fuel data len out ≠ .ok o := by
    cases fuel with
    | zero => exact fun h => by cases h
    | succ fuel =>
      rw [parseWscAttributes]
      refine loop_rule (fun s => s.1 < 2 ^ 30) (fun r => r ≠ .ok o) (by simp) (fun _ _ _ _ => by simp)
        ?_ ?_ _ (Nat.two_pow_pos 30)
      · rintro ⟨pos, o'⟩ r hpos hdone
        have hsmall : attrLen tag (data + pos) < 2 ^ 16 := be16_lt _ _
        change pos < 2 ^ 30 at hpos
        rcases wscPass_done hL hdone with ⟨-, hgt | ⟨hin, hgt⟩⟩
        · rw [sizeT_of_lt (by omega)] at hgt
          omega
        · omega
      · rintro ⟨pos, o'⟩ ⟨p, o''⟩ - hnext
        have hsmall : attrLen tag (data + pos) < 2 ^ 16 := be16_lt _ _
        rcases wscPass_next hL hnext with ⟨hin, -, rfl, -⟩
        change pos + 4 + attrLen tag (data + pos) < 2 ^ 30
        omega
  rcases h : parseWscAttributes tag fuel data len out with e | o
  · cases e with
    | fault => rfl
    | fuel => exact absurd h (parseWscAttributes_ne_fuel hL _ _ _ _ hfuel)
  · exact absurd h (hnever o)

end Parser
end InfraFi.Flipper.Nfc
