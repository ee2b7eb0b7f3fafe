import InfraFi.Protocol.RoundTrip

/-! # WiFi strings with any fields in any order

The parser finds the first field of each of its four keys, wherever it stands
and whatever the other fields are.
-/
namespace InfraFi.Protocol
open Base

def IsAlnum (c : UInt8) : Prop := 48 ≤ c ∧ c ≤ 57 ∨ 65 ≤ c ∧ c ≤ 90 ∨ 97 ≤ c ∧ c ≤ 122

instance (c : UInt8) : Decidable (IsAlnum c) := inferInstanceAs (Decidable (_ ∨ _ ∨ _))

/-- Only the bytes that occur are looked at. -/
theorem forall_of_all {s : Bytes} {p : UInt8 → Prop} [DecidablePred p]
    (h : s.all (fun c => p c) = true) : ∀ c ∈ s, p c :=
  fun c hc => of_decide_eq_true (List.all_eq_true.mp h c hc)

/-- The keys the parser looks for. -/
def parsedKeys : Bytes := ascii "TSPH"

/-- One field, `key:value;`. No key but the parser's own ends in one of its letters. -/
structure Field where
  key : Bytes
  value : List Spelled
  alnum : ∀ c ∈ key, IsAlnum c
  foreign : ∀ k ∈ parsedKeys, key.getLast? = some k → key = [k]
  nulFree : 0 ∉ value.map Spelled.char

def Field.text (f : Field) : Bytes := f.key ++ colon :: f.value.flatMap Spelled.text ++ [semicolon]

/-- The value without its backslashes. -/
def Field.decoded (f : Field) : Bytes := f.value.map Spelled.char

def wifiText (fields : List Field) : Bytes := ascii "WIFI:" ++ fields.flatMap Field.text

/-- The decoded value of the first field with the key `k`. -/
def firstValue (k : UInt8) (fields : List Field) : Option Bytes :=
  (fields.find? (fun f => f.key = [k])).map Field.decoded

section Keys
variable {k : UInt8}

theorem ne_separators (hk : k ∈ parsedKeys) : k ≠ backslash ∧ k ≠ semicolon ∧ k ≠ colon :=
  forall_of_all (p := fun k => k ≠ backslash ∧ k ≠ semicolon ∧ k ≠ colon) (by decide) k hk

theorem Field.colon_notMem_key (f : Field) : colon ∉ f.key := by
  intro h
  exact absurd (f.alnum colon h) (by decide)

theorem keyFree_of_notMem {s : Bytes} (h : colon ∉ s) : KeyFree k s := by
  induction s with
  | nil => exact List.isChain_nil
  | cons c cs ih =>
    rw [List.mem_cons, not_or] at h
    refine List.isChain_cons.mpr ⟨?_, ih h.2⟩
    rintro d hd ⟨-, rfl⟩
    exact h.2 (List.mem_of_mem_head? hd)

/-- What follows may start with a colon if what precedes does not end in `k`. -/
theorem KeyFree.append_of_last {s t : Bytes} (hs : KeyFree k s) (ht : KeyFree k t)
    (hlast : s.getLast? ≠ some k) : KeyFree k (s ++ t) := by
  refine List.isChain_append.mpr ⟨hs, ht, ?_⟩
  rintro x hx y - ⟨rfl, -⟩
  exact hlast hx

theorem Field.keyFree (f : Field) (hk : k ∈ parsedKeys) (hne : f.key ≠ [k]) : KeyFree k f.text := by
  have hsep := ne_separators hk
  have hkey : KeyFree k (f.key ++ [colon]) := by
    apply (keyFree_of_notMem f.colon_notMem_key).append_of_last (List.isChain_singleton _)
    exact fun hlast => hne (f.foreign k hk hlast)
  have hvalue := hkey.append (keyFree_text hsep.1 f.value) (head?_text_ne_colon f.value)
  have hall := hvalue.append (List.isChain_singleton semicolon) (by decide)
  rwa [List.append_assoc f.key] at hall

theorem Field.getLast?_text (f : Field) : f.text.getLast? = some semicolon := List.getLast?_concat

/-- Fields with other keys hide no `k:`, not even across their borders. -/
theorem KeyFree.append_fields (hk : k ∈ parsedKeys) {pre : Bytes} {fields : List Field}
    (hpre : KeyFree k pre) (hlast : pre.getLast? ≠ some k) (hne : ∀ f ∈ fields, f.key ≠ [k]) :
    KeyFree k (pre ++ fields.flatMap Field.text) := by
  induction fields generalizing pre with
  | nil => simpa using hpre
  | cons f fields ih =>
    rw [List.forall_mem_cons] at hne
    rw [List.flatMap_cons, ← List.append_assoc]
    apply ih (hpre.append_of_last (f.keyFree hk hne.1) hlast) _ hne.2
    rw [List.getLast?_append, f.getLast?_text, Option.some_or]
    exact fun h => (ne_separators hk).2.1 (Option.some.inj h).symm

theorem keyFree_wifi (hk : k ∈ parsedKeys) {fields : List Field} (hne : ∀ f ∈ fields, f.key ≠ [k]) :
    KeyFree k (wifiText fields) := by
  have hhead : ∀ k ∈ parsedKeys, KeyFree k (ascii "WIFI:") ∧ (ascii "WIFI:").getLast? ≠ some k :=
    forall_of_all (by decide)
  exact (hhead k hk).1.append_fields hk (hhead k hk).2 hne

theorem wfrExtractField_of_keyFree_none (outSize : ℕ) {s : Bytes} (hs : KeyFree k s) :
    wfrExtractField [k, colon] outSize s = none := by
  induction s with
  | nil => rfl
  | cons c cs ih =>
    have hnot : List.isPrefixOf [k, colon] (c :: cs) = false := by
      cases cs with
      | nil => simp [List.isPrefixOf]
      | cons d ds =>
        have hcd : NotKey k c d := (List.isChain_cons_cons.mp hs).1
        rw [Bool.eq_false_iff]
        intro hstart
        simp only [List.isPrefixOf, Bool.and_eq_true, beq_iff_eq, and_true] at hstart
        exact hcd ⟨hstart.1.symm, hstart.2.symm⟩
    rw [wfrExtractField, hnot]
    exact ih hs.tail

/-- The parser reads the first field of each of its keys, as far as there is room. -/
theorem wfrExtractField_wifi (hk : k ∈ parsedKeys) (outSize : ℕ) (fields : List Field) :
    wfrExtractField [k, colon] outSize (wifiText fields) =
      (firstValue k fields).map (List.take (outSize - 1)) := by
  unfold firstValue
  cases hfind : fields.find? (fun f => f.key = [k]) with
  | none =>
    have hne : ∀ f ∈ fields, f.key ≠ [k] := by simpa using hfind
    exact wfrExtractField_of_keyFree_none outSize (keyFree_wifi hk hne)
  | some f =>
    obtain ⟨hf, before, after, rfl, hbefore⟩ := List.find?_eq_some_iff_append.mp hfind
    have hkey : f.key = [k] := by simpa using hf
    have hne : ∀ g ∈ before, g.key ≠ [k] := by simpa using hbefore
    have hview : wifiText (before ++ f :: after) = wifiText before ++ k :: colon ::
        (f.value.flatMap Spelled.text ++ semicolon :: after.flatMap Field.text) := by
      simp [wifiText, Field.text, hkey]
    rw [hview, wfrExtractField_of_keyFree (ne_separators hk).2.2 _ _ _ (keyFree_wifi hk hne),
      wfrReadValue_text]
    rfl

end Keys

theorem firstValue_nulFree {k : UInt8} {fields : List Field} {v : Bytes}
    (h : firstValue k fields = some v) : 0 ∉ v := by
  obtain ⟨f, -, rfl⟩ := Option.map_eq_some_iff.mp h
  exact f.nulFree

/-- A value cut to the array is the text that is shorter only if the whole value is. -/
theorem take_eq_iff {n : ℕ} {text v : Bytes} (h : text.length < n) : v.take n = text ↔ v = text := by
  constructor
  · intro heq
    have hlen := congrArg List.length heq
    rw [List.length_take] at hlen
    rwa [List.take_of_length_le (by omega)] at heq
  · rintro rfl
    exact List.take_of_length_le h.le

theorem secOfType_take (v : Bytes) : secOfType (v.take 15) = secOfType v := by
  have hwpa : v.take 15 = ascii "WPA" ↔ v = ascii "WPA" := take_eq_iff (by decide)
  have hwep : v.take 15 = ascii "WEP" ↔ v = ascii "WEP" := take_eq_iff (by decide)
  have hsae : v.take 15 = ascii "SAE" ↔ v = ascii "SAE" := take_eq_iff (by decide)
  simp only [secOfType, hwpa, hwep, hsae]

theorem ofBytes_take {n : ℕ} {v : Bytes} (h : 0 ∉ v) : (CString.ofBytes n (v.take n)).bytes = v.take n :=
  CString.ofBytes_bytes (fun hmem => h (List.mem_of_mem_take hmem)) (List.length_take_le _ _)

/-- Field order and foreign fields do not matter. -/
theorem wfrParseWifiString_fields {fields : List Field} {type ssid : Bytes}
    (htype : firstValue 0x54 fields = some type) (hssid : firstValue 0x53 fields = some ssid)
    (hne : ssid ≠ []) :
    ∃ creds, wfrParseWifiString (wifiText fields) = some creds ∧
      creds.ssid.bytes = ssid.take 32 ∧
      creds.password.bytes = ((firstValue 0x50 fields).getD []).take 63 ∧
      creds.security = secOfType type ∧
      (creds.hidden = true ↔ firstValue 0x48 fields = some (ascii "true")) := by
  have hwifi : (ascii "WIFI:").isPrefixOf (wifiText fields) = true := by
    rw [List.isPrefixOf_iff_prefix]
    exact List.prefix_append _ _
  have hT : wfrExtractField (ascii "T:") 16 (wifiText fields) = some (type.take 15) := by
    have hextract := wfrExtractField_wifi (k := 0x54) (by decide) 16 fields
    rwa [htype] at hextract
  have hS : wfrExtractField (ascii "S:") (wfrSsidMaxLen + 1) (wifiText fields) =
      some (ssid.take 32) := by
    have hextract := wfrExtractField_wifi (k := 0x53) (by decide) (wfrSsidMaxLen + 1) fields
    rwa [hssid] at hextract
  have hP : wfrExtractField (ascii "P:") (wfrPassMaxLen + 1) (wifiText fields) =
      (firstValue 0x50 fields).map (List.take 63) :=
    wfrExtractField_wifi (k := 0x50) (by decide) (wfrPassMaxLen + 1) fields
  have hH : wfrExtractField (ascii "H:") 8 (wifiText fields) =
      (firstValue 0x48 fields).map (List.take 7) :=
    wfrExtractField_wifi (k := 0x48) (by decide) 8 fields
  have hbytes : (CString.ofBytes wfrSsidMaxLen (ssid.take 32)).bytes = ssid.take 32 :=
    ofBytes_take (firstValue_nulFree hssid)
  have hfound : ¬ (CString.ofBytes wfrSsidMaxLen (ssid.take 32)).bytes = [] := by
    rw [hbytes, List.take_eq_nil_iff]
    exact fun h => h.elim (fun h32 => absurd h32 (by decide)) hne
  have hpassFree : 0 ∉ (firstValue 0x50 fields).getD [] := by
    cases hfirst : firstValue 0x50 fields with
    | none => exact List.not_mem_nil
    | some v => exact firstValue_nulFree hfirst
  refine ⟨⟨CString.ofBytes wfrSsidMaxLen (ssid.take 32),
    CString.ofBytes wfrPassMaxLen (((firstValue 0x50 fields).getD []).take 63), secOfType type,
    decide (firstValue 0x48 fields = some (ascii "true"))⟩, ?_, hbytes, ofBytes_take hpassFree, rfl,
    decide_eq_true_iff⟩
  simp only [wfrParseWifiString, hwifi, not_true_eq_false, if_false, hT, hS, hP, hH, Option.pure_def,
    Option.bind_eq_bind, Option.bind_some, hfound, secOfType_take, Option.some.injEq,
    WfrWifiCreds.mk.injEq, true_and]
  constructor
  · cases firstValue 0x50 fields <;> rfl
  · cases firstValue 0x48 fields with
    | none => rfl
    | some v =>
      have hcut : v.take 7 = ascii "true" ↔ v = ascii "true" := take_eq_iff (by decide)
      simp [hcut]

/-- Fields out of order, two of them foreign, and a password of the keys the parser looks for. -/
private def foreignFields : List Field :=
  [⟨ascii "H", (ascii "true").map spell, forall_of_all (by decide), forall_of_all (by decide), by decide⟩,
    ⟨ascii "I", (ascii "S:x;").map spell, forall_of_all (by decide), forall_of_all (by decide), by decide⟩,
    ⟨ascii "P", (ascii "T:;\\").map spell, forall_of_all (by decide), forall_of_all (by decide), by decide⟩,
    ⟨ascii "S", (ascii "lab").map spell, forall_of_all (by decide), forall_of_all (by decide), by decide⟩,
    ⟨ascii "R2", [], forall_of_all (by decide), forall_of_all (by decide), by decide⟩,
    ⟨ascii "T", (ascii "SAE").map spell, forall_of_all (by decide), forall_of_all (by decide), by decide⟩,
    ⟨ascii "S", (ascii "other").map spell, forall_of_all (by decide), forall_of_all (by decide), by decide⟩]

theorem wfrParseWifiString_fields_foreign :
    ∃ creds, wfrParseWifiString (wifiText foreignFields) = some creds ∧
      creds.ssid.bytes = (ascii "lab").take 32 ∧
      creds.password.bytes = ((firstValue 0x50 foreignFields).getD []).take 63 ∧
      creds.security = secOfType (ascii "SAE") ∧
      (creds.hidden = true ↔ firstValue 0x48 foreignFields = some (ascii "true")) :=
  wfrParseWifiString_fields (by decide) (by decide) (by decide)

end InfraFi.Protocol
