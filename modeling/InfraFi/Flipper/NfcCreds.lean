import InfraFi.Flipper.NfcRead
import InfraFi.Protocol.RoundTrip

/-! # The credentials of a tag

What is returned is made of the last SSID, the last key that is not empty and
the last authentication type of the record, wherever they stand.
-/
namespace InfraFi.Flipper.Nfc
open Base Protocol Filter

/-! ## The last value of each kind -/

section Latest
variable {β : Type}

/-- The value after a list of attributes, each of which may set it. -/
def latest (f : Attribute → Option β) (as : List Attribute) (b : β) : β :=
  as.foldl (fun b a => (f a).getD b) b

theorem latest_eq (f : Attribute → Option β) (as : List Attribute) (b : β) :
    latest f as b = (as.filterMap f).getLast?.getD b := by
  induction as using List.reverseRecOn with
  | nil => rfl
  | append_singleton as a ih =>
    rw [latest, List.foldl_append, List.filterMap_append, List.foldl_cons, List.foldl_nil]
    cases ha : f a with
    | none =>
      rw [Option.getD_none, List.filterMap_cons_none ha, List.filterMap_nil, List.append_nil]
      exact ih
    | some x =>
      rw [Option.getD_some, List.filterMap_cons_some ha, List.filterMap_nil, List.getLast?_concat]
      rfl

theorem foldl_read (as : List Attribute) (out : WscOut) :
    as.foldl Attribute.read out =
      ⟨⟨latest Attribute.ssid? as out.creds.ssid, latest Attribute.password? as out.creds.password,
        latest Attribute.security? as out.creds.security, out.creds.hidden⟩,
        out.foundSsid || as.any (fun a => a.ssid?.isSome)⟩ := by
  induction as generalizing out with
  | nil => simp [latest]
  | cons a as ih =>
    rw [List.foldl_cons, ih]
    simp [latest, Attribute.read, Bool.or_assoc]

/-- The values of an ID that pass a test. -/
theorem filterMap_values (id : ℕ) (p : Bytes → Prop) [DecidablePred p] (g : Bytes → β)
    (as : List Attribute) :
    as.filterMap (fun a => if a.id = id ∧ p a.value then some (g a.value) else none) =
      ((valuesOf id as).filter (fun v => p v)).map g := by
  induction as with
  | nil => rfl
  | cons a as ih =>
    rw [List.filterMap_cons, ih]
    by_cases hid : a.id = id <;> by_cases hp : p a.value <;> simp [valuesOf, hid, hp]

end Latest

/-- The SSID values of an allowed length. -/
def ssidsOf (as : List Attribute) : List Bytes :=
  (valuesOf wscAttrSsid as).filter (fun v => 0 < v.length ∧ v.length ≤ wfrSsidMaxLen)

def keysOf (as : List Attribute) : List Bytes :=
  (valuesOf wscAttrNetKey as).filter (fun v => 0 < v.length ∧ v.length ≤ wfrPassMaxLen)

def authsOf (as : List Attribute) : List Bytes :=
  (valuesOf wscAttrAuthType as).filter (fun v => v.length = 2)

def secOfValue (v : Bytes) : UInt8 := secOfAuth (be16 (v.getD 0 0) (v.getD 1 0))

/-- The security of the last authentication type; OPEN if there is none. -/
def lastSecurity (as : List Attribute) : UInt8 := ((authsOf as).map secOfValue).getLast?.getD wfrSecOpen

section Out
variable (as : List Attribute)

theorem filterMap_ssid? : as.filterMap Attribute.ssid? = (ssidsOf as).map (.ofBytes wfrSsidMaxLen) :=
  filterMap_values wscAttrSsid (fun v => 0 < v.length ∧ v.length ≤ wfrSsidMaxLen) _ as

theorem filterMap_password? :
    as.filterMap Attribute.password? = (keysOf as).map (.ofBytes wfrPassMaxLen) :=
  filterMap_values wscAttrNetKey (fun v => 0 < v.length ∧ v.length ≤ wfrPassMaxLen) _ as

theorem filterMap_security? : as.filterMap Attribute.security? = (authsOf as).map secOfValue :=
  filterMap_values wscAttrAuthType (fun v => v.length = 2) secOfValue as

theorem getLast?_map_getD {α β : Type} (g : α → β) (xs : List α) (a : α) :
    (xs.map g).getLast?.getD (g a) = g (xs.getLast?.getD a) := by
  rw [List.getLast?_map]
  cases xs.getLast? <;> rfl

/-- The credentials that the attributes of a record leave. -/
def credsOf : WfrWifiCreds where
  ssid := .ofBytes _ ((ssidsOf as).getLast?.getD [])
  password := .ofBytes _ ((keysOf as).getLast?.getD [])
  security := lastSecurity as
  hidden := false

theorem foldl_read_zero :
    as.foldl Attribute.read ⟨clearedCreds, false⟩ = ⟨credsOf as, decide (ssidsOf as ≠ [])⟩ := by
  have hany : as.any (fun a => a.ssid?.isSome) = decide (ssidsOf as ≠ []) := by
    have hnone : ssidsOf as = [] ↔ ∀ a ∈ as, a.ssid? = none := by
      rw [← List.filterMap_eq_nil_iff, filterMap_ssid?, List.map_eq_nil_iff]
    rw [Bool.eq_iff_iff, decide_eq_true_iff, ne_eq, hnone]
    simp [Option.isSome_iff_ne_none]
  have hssid := getLast?_map_getD (CString.ofBytes wfrSsidMaxLen) (ssidsOf as) []
  have hkey := getLast?_map_getD (CString.ofBytes wfrPassMaxLen) (keysOf as) []
  rw [foldl_read, hany, latest_eq, latest_eq, latest_eq, filterMap_ssid?, filterMap_password?,
    filterMap_security?, Bool.false_or, credsOf, ← hssid, ← hkey]
  rfl

end Out

/-! ## What the parser returns -/

/-- With enough fuel the parser ends with `r`. -/
def Returns (tag : TagImage) (outCreds : WfrWifiCreds) (r : Bool × WfrWifiCreds) : Prop :=
  ∀ᶠ fuel in atTop, wfrNfcParseWifiTag fuel tag outCreds = .ok r

section Returned
variable {t : WscTag} {tag : TagImage} {outCreds : WfrWifiCreds}

theorem Returns.unique {r r' : Bool × WfrWifiCreds} (h : Returns tag outCreds r)
    (h' : Returns tag outCreds r') : r = r' := by
  rcases (h.and h').exists with ⟨fuel, hr, hr'⟩
  exact Except.ok.inj (hr.symm.trans hr')

theorem WscTag.out_eq (t : WscTag) :
    t.out = ⟨credsOf t.attributes, decide (ssidsOf t.attributes ≠ [])⟩ := foldl_read_zero _

variable (hbytes : tag.bytes = t.encode)
include hbytes

theorem WscTag.returns_true (h : ssidsOf t.attributes ≠ []) :
    Returns tag outCreds (true, credsOf t.attributes) := by
  have hfound : t.out.foundSsid = true := by simp [t.out_eq, h]
  filter_upwards [eventually_gt_atTop (tag.bytes.length + 1)] with fuel hfuel
  rw [wfrNfcParseWifiTag_wsc hbytes hfuel outCreds hfound, t.out_eq]

theorem WscTag.returns_false (h : ssidsOf t.attributes = []) (hpad : Padding t.rest) :
    Returns tag outCreds (false, credsOf t.attributes) := by
  have hfound : t.out.foundSsid = false := by simp [t.out_eq, h]
  filter_upwards [eventually_gt_atTop (tag.bytes.length + 1)] with fuel hfuel
  rw [wfrNfcParseWifiTag_no_ssid hbytes hfuel outCreds hfound hpad, t.out_eq]

end Returned

/-! ## One set of credentials -/

/-- The attributes hold one SSID, one authentication type and one key. -/
structure SetsOnce (as : List Attribute) (ssid : Bytes) (auth : ℕ) (key : Bytes) : Prop where
  ssid_eq : valuesOf wscAttrSsid as = [ssid]
  auth_eq : valuesOf wscAttrAuthType as = [word auth]
  key_eq : valuesOf wscAttrNetKey as = [key]

namespace SetsOnce
variable {as : List Attribute} {ssid key : Bytes} {auth : ℕ} (h : SetsOnce as ssid auth key)
include h

theorem ssidsOf_eq (hpos : 0 < ssid.length) (hle : ssid.length ≤ wfrSsidMaxLen) :
    ssidsOf as = [ssid] := by
  simp [ssidsOf, h.ssid_eq, hpos, hle]

theorem credsOf_ssid (hpos : 0 < ssid.length) (hle : ssid.length ≤ wfrSsidMaxLen) :
    (credsOf as).ssid.bytes = cstr ssid := by
  rw [credsOf, h.ssidsOf_eq hpos hle]
  exact congrArg cstr (List.take_of_length_le hle)

/-- A key that is too long is left out. -/
theorem credsOf_password :
    (credsOf as).password.bytes = if key.length ≤ wfrPassMaxLen then cstr key else [] := by
  rw [credsOf, keysOf, h.key_eq]
  split
  · next hle =>
    by_cases hpos : 0 < key.length
    · rw [List.filter_cons_of_pos (by simpa using ⟨hpos, hle⟩)]
      exact congrArg cstr (List.take_of_length_le hle)
    · rw [List.length_pos_iff, not_not] at hpos
      rw [hpos]
      rfl
  · next hgt =>
    rw [List.filter_cons_of_neg (by simp [hgt])]
    rfl

theorem credsOf_security (hauth : auth < 2 ^ 16) : (credsOf as).security = secOfAuth auth := by
  rw [credsOf, lastSecurity, authsOf, h.auth_eq]
  exact congrArg secOfAuth (be16_word hauth)

end SetsOnce

theorem isWfrSec_secOfAuth (auth : ℕ) : IsWfrSec (secOfAuth auth) := by
  unfold secOfAuth
  split_ifs <;> decide

/-- Every well-formed tag is read. -/
theorem wfrNfcParseWifiTag_reads (t : WscTag) (tag : TagImage) (hbytes : tag.bytes = t.encode)
    (ssid key : Bytes) (auth : ℕ) (h : SetsOnce t.attributes ssid auth key) (hauth : auth < 2 ^ 16)
    (hssid : 0 < ssid.length ∧ ssid.length ≤ 32 ∧ 0 ∉ ssid) (hkey : key.length ≤ 63 ∧ 0 ∉ key)
    (outCreds : WfrWifiCreds) :
    ∃ creds, Returns tag outCreds (true, creds) ∧ creds.ssid.bytes = ssid ∧
      creds.password.bytes = key ∧ creds.hidden = false ∧
      creds.security = if auth = 1 then wfrSecOpen else if auth = 4 then wfrSecWep else wfrSecWpa := by
  have hfound : ssidsOf t.attributes ≠ [] := by simp [h.ssidsOf_eq hssid.1 hssid.2.1]
  refine ⟨credsOf t.attributes, WscTag.returns_true hbytes hfound, ?_, ?_, rfl, h.credsOf_security hauth⟩
  · rw [h.credsOf_ssid hssid.1 hssid.2.1, cstr_of_notMem hssid.2.2]
  · rw [h.credsOf_password, if_pos hkey.1, cstr_of_notMem hkey.2]

private def otherRecord : NdefRecord where
  flags := 0x11
  type := ascii "T"
  id := []
  payload := ascii "x"
  type_fits := by decide
  id_fits := by decide
  no_id _ := rfl
  payload_fits := by decide

/-- The WSC record with a length field of four bytes and an ID. -/
private def wscRecord (items : List WscItem) (h : (encodeItems items).length < 200) : NdefRecord where
  flags := 0x4A
  type := wifiNdefType
  id := ascii "0"
  payload := encodeItems items
  type_fits := by decide
  id_fits := by decide
  no_id hil := absurd (by decide) hil
  payload_fits := by
    rw [if_neg (by decide)]
    omega

/-- A null TLV, a TLV of another type, another record, and the WSC record. -/
private def sampleTag (items : List WscItem) (rest : Bytes) (h : (encodeItems items).length < 200)
    (hfits : ([otherRecord].flatMap NdefRecord.encode ++ (wscRecord items h).encode).length < 255) :
    WscTag where
  lead := List.replicate 12 0
  cc := [0x10, 0x3E, 0x00]
  tlvs := [.null, .block ⟨0x01, true, [0, 0, 0], by decide, by decide⟩ (by decide)]
  long := false
  records := [otherRecord]
  wsc := wscRecord items h
  items := items
  rest := rest
  lead_length := by decide
  cc_length := by decide
  records_other r hr := by
    rw [List.mem_singleton] at hr
    rw [hr]
    exact ⟨fun hwsc => absurd hwsc.1 (by decide), by decide⟩
  isWsc := ⟨(by decide : tnf 0x4A = ndefTnfMediaType), rfl⟩
  payload_eq := rfl
  message_fits := hfits

/-- The key comes first, another attribute stands between. -/
private def homeCredential : Credential where
  attributes := [⟨wscAttrNetKey, ascii "password", by decide, by decide⟩,
    ⟨0x1026, [1], by decide, by decide⟩, ⟨wscAttrSsid, ascii "Home", by decide, by decide⟩,
    ⟨wscAttrAuthType, word 0x20, by decide, by decide⟩]
  flat := by decide
  fits := by decide

private def homeTag : WscTag :=
  sampleTag [.plain ⟨0x104A, [0x10], by decide, by decide⟩ (by decide), .credential homeCredential]
    [0xFE, 0] (by decide) (by decide)

private def homeImage : TagImage where
  pagesRead := UInt16.ofNat (homeTag.encode.length / 4)
  bytes := homeTag.encode
  length_eq := by decide

theorem wfrNfcParseWifiTag_reads_home :
    ∃ creds, Returns homeImage clearedCreds (true, creds) ∧ creds.ssid.bytes = ascii "Home" ∧
      creds.password.bytes = ascii "password" ∧ creds.hidden = false ∧
      creds.security = if 0x20 = 1 then wfrSecOpen else if 0x20 = 4 then wfrSecWep else wfrSecWpa :=
  wfrNfcParseWifiTag_reads homeTag homeImage rfl _ _ 0x20 ⟨by decide, by decide, by decide⟩ (by decide)
    (by decide) (by decide) clearedCreds

/-! ## From the tag to the server -/

/-- The string built from the credentials is parsed back to this SSID and this password. -/
def Delivered (creds : WfrWifiCreds) (ssid key : Bytes) : Prop :=
  ∀ out : Bytes, out.length = wfrMaxTotalPayload + 1 → ∃ n out' final,
    wfrBuildWifiString creds out = .ok (n, out') ∧ 0 < n ∧
      wfrParseWifiString (cstr out') = some final ∧ final.ssid.bytes = ssid ∧ final.password.bytes = key

theorem delivered_iff {creds : WfrWifiCreds} (hsec : IsWfrSec creds.security) {ssid key : Bytes}
    (hssid : ssid ≠ []) :
    Delivered creds ssid key ↔ creds.ssid.bytes = ssid ∧ creds.password.bytes = key := by
  constructor
  · intro h
    have hout : (List.replicate (wfrMaxTotalPayload + 1) (0 : UInt8)).length = wfrMaxTotalPayload + 1 :=
      List.length_replicate ..
    rcases h _ hout with ⟨n, out', final, hbuild, -, hparse, rfl, rfl⟩
    rcases wfrBuildWifiString_string creds hout with ⟨n', out'', hbuild', -, -, -, hcstr⟩
    cases hbuild.symm.trans hbuild'
    rw [hcstr] at hparse
    by_cases hempty : creds.ssid.bytes = []
    · rw [wfrParseWifiString_no_ssid creds hempty] at hparse
      cases hparse
    · rw [wfrParseWifiString_fullWifiString creds hempty hsec] at hparse
      cases hparse
      exact ⟨rfl, rfl⟩
  · rintro ⟨rfl, rfl⟩ out hout
    rcases wfrBuildWifiString_string creds hout with ⟨n, out', hbuild, hpos, -, -, hcstr⟩
    refine ⟨n, out', creds, hbuild, hpos, ?_, rfl, rfl⟩
    rw [hcstr, wfrParseWifiString_fullWifiString creds hssid hsec]

/-- The server gets what the tag says if and only if no value has a NUL and the key fits. -/
theorem tag_delivered_iff (t : WscTag) (tag : TagImage) (hbytes : tag.bytes = t.encode)
    (ssid key : Bytes) (auth : ℕ) (h : SetsOnce t.attributes ssid auth key) (hauth : auth < 2 ^ 16)
    (hssid : 0 < ssid.length ∧ ssid.length ≤ 32) (outCreds : WfrWifiCreds) :
    (∀ creds, Returns tag outCreds (true, creds) → Delivered creds ssid key) ↔
      0 ∉ ssid ∧ 0 ∉ key ∧ key.length ≤ 63 := by
  have hfound : ssidsOf t.attributes ≠ [] := by simp [h.ssidsOf_eq hssid.1 hssid.2]
  have hreturns : Returns tag outCreds (true, credsOf t.attributes) := WscTag.returns_true hbytes hfound
  have hsec : IsWfrSec (credsOf t.attributes).security := by
    rw [h.credsOf_security hauth]
    exact isWfrSec_secOfAuth auth
  have hone : (∀ creds, Returns tag outCreds (true, creds) → Delivered creds ssid key) ↔
      Delivered (credsOf t.attributes) ssid key := by
    constructor
    · exact fun hall => hall _ hreturns
    · intro hdel creds hcreds
      cases hcreds.unique hreturns
      exact hdel
  rw [hone, delivered_iff hsec (List.length_pos_iff.mp hssid.1), h.credsOf_ssid hssid.1 hssid.2,
    h.credsOf_password, cstr_eq_self_iff]
  apply and_congr_right
  intro _
  change _ ↔ 0 ∉ key ∧ key.length ≤ wfrPassMaxLen
  split
  · next hle => rw [cstr_eq_self_iff, and_iff_left hle]
  · next hgt =>
    refine iff_of_false (fun hnil => ?_) (fun hle => hgt hle.2)
    rw [← hnil] at hgt
    exact hgt (Nat.zero_le _)

/-- A raw WPA key of 64 hexadecimal digits. -/
private def rawKey : Bytes := ascii (String.ofList (List.replicate 64 'a'))

private def rawKeyCredential : Credential where
  attributes := [⟨wscAttrSsid, ascii "Home", by decide, by decide⟩,
    ⟨wscAttrAuthType, word 0x20, by decide, by decide⟩, ⟨wscAttrNetKey, rawKey, by decide, by decide⟩]
  flat := by decide
  fits := by decide

private def rawKeyTag : WscTag :=
  sampleTag [.credential rawKeyCredential] [0xFE, 0, 0, 0] (by decide) (by decide)

private def rawKeyImage : TagImage where
  pagesRead := UInt16.ofNat (rawKeyTag.encode.length / 4)
  bytes := rawKeyTag.encode
  length_eq := by decide +kernel

private theorem rawKeyTag_setsOnce : SetsOnce rawKeyTag.attributes (ascii "Home") 0x20 rawKey :=
  ⟨by decide +kernel, by decide +kernel, by decide +kernel⟩

theorem tag_delivered_iff_rawKey :
    (∀ creds, Returns rawKeyImage clearedCreds (true, creds) → Delivered creds (ascii "Home") rawKey) ↔
      0 ∉ ascii "Home" ∧ 0 ∉ rawKey ∧ rawKey.length ≤ 63 :=
  tag_delivered_iff rawKeyTag rawKeyImage rfl _ _ 0x20 rawKeyTag_setsOnce (by decide) (by decide)
    clearedCreds

/-- The tag is taken, without its key. -/
theorem tag_key_dropped :
    SetsOnce rawKeyTag.attributes (ascii "Home") 0x20 rawKey ∧ rawKey.length = 64 ∧
      ∃ creds, Returns rawKeyImage clearedCreds (true, creds) ∧ creds.password.bytes = [] ∧
        ¬ Delivered creds (ascii "Home") rawKey := by
  have hfound : ssidsOf rawKeyTag.attributes ≠ [] := by decide
  have hempty : (credsOf rawKeyTag.attributes).password.bytes = [] := by decide
  refine ⟨rawKeyTag_setsOnce, by decide, _, WscTag.returns_true rfl hfound, hempty, fun hdel => ?_⟩
  have hkey := ((delivered_iff (by decide) (by decide)).mp hdel).2
  rw [hempty] at hkey
  exact absurd hkey (by decide)

/-! ## Several Credentials -/

namespace Credential

def ssid (c : Credential) : Bytes := (valuesOf wscAttrSsid c.attributes).headD []

/-- The empty key if there is none. -/
def key (c : Credential) : Bytes := (valuesOf wscAttrNetKey c.attributes).headD []

/-- OPEN if there is no authentication type. -/
def security (c : Credential) : UInt8 :=
  ((valuesOf wscAttrAuthType c.attributes).map secOfValue).headD wfrSecOpen

/-- An SSID, and at most one authentication type and one key. -/
structure WellFormed (c : Credential) : Prop where
  ssid_eq : ∃ ssid, valuesOf wscAttrSsid c.attributes = [ssid] ∧ 0 < ssid.length ∧ ssid.length ≤ 32
  auth_eq : valuesOf wscAttrAuthType c.attributes = [] ∨
    ∃ auth < 2 ^ 16, valuesOf wscAttrAuthType c.attributes = [word auth]
  key_eq : valuesOf wscAttrNetKey c.attributes = [] ∨
    ∃ key, valuesOf wscAttrNetKey c.attributes = [key] ∧ key.length ≤ 63

/-- The credentials are those of this container. -/
def Gives (c : Credential) (creds : WfrWifiCreds) : Prop :=
  creds.ssid.bytes = c.ssid ∧ creds.password.bytes = c.key ∧ creds.security = c.security

end Credential

/-- Well-formed containers, and other attributes between them. -/
def WscItem.WellFormed : WscItem → Prop
  | .plain a _ => a.id ≠ wscAttrSsid ∧ a.id ≠ wscAttrAuthType ∧ a.id ≠ wscAttrNetKey
  | .credential c => c.WellFormed

/-- Some container has the last SSID of the record, up to its first NUL, the last key that is
not empty, and the last security. -/
def Unmixed (t : WscTag) : Prop :=
  ∃ c ∈ t.credentials, cstr ((ssidsOf t.attributes).getLast?.getD []) = c.ssid ∧
    cstr ((keysOf t.attributes).getLast?.getD []) = c.key ∧ lastSecurity t.attributes = c.security

section Several
variable {t : WscTag} (hitems : ∀ item ∈ t.items, item.WellFormed)

theorem ofBytes_getLast? {n : ℕ} {vs : List Bytes} (h : ∀ v ∈ vs, v.length ≤ n) :
    (CString.ofBytes n (vs.getLast?.getD [])).bytes = cstr (vs.getLast?.getD []) := by
  apply congrArg cstr
  apply List.take_of_length_le
  cases hlast : vs.getLast? with
  | none => exact Nat.zero_le _
  | some v => exact h v (List.mem_of_getLast? hlast)

theorem credsOf_gives (as : List Attribute) (c : Credential) :
    c.Gives (credsOf as) ↔ cstr ((ssidsOf as).getLast?.getD []) = c.ssid ∧
      cstr ((keysOf as).getLast?.getD []) = c.key ∧ lastSecurity as = c.security := by
  have hssid : ∀ v ∈ ssidsOf as, v.length ≤ wfrSsidMaxLen := by
    intro v hv
    exact (of_decide_eq_true (List.mem_filter.mp hv).2).2
  have hkey : ∀ v ∈ keysOf as, v.length ≤ wfrPassMaxLen := by
    intro v hv
    exact (of_decide_eq_true (List.mem_filter.mp hv).2).2
  rw [Credential.Gives, credsOf, ofBytes_getLast? hssid, ofBytes_getLast? hkey]

theorem mem_credentials {c : Credential} : c ∈ t.credentials ↔ .credential c ∈ t.items := by
  rw [WscTag.credentials, List.mem_filterMap]
  constructor
  · rintro ⟨item, hitem, hc⟩
    cases item with
    | plain a h => cases hc
    | credential c' =>
      cases hc
      exact hitem
  · exact fun h => ⟨_, h, rfl⟩

include hitems

theorem ssidsOf_eq_nil_iff : ssidsOf t.attributes = [] ↔ t.credentials = [] := by
  constructor
  · intro hnil
    rw [List.eq_nil_iff_forall_not_mem]
    intro c hc
    rw [mem_credentials] at hc
    have hwell : c.WellFormed := hitems _ hc
    rcases hwell.ssid_eq with ⟨ssid, heq, hlen⟩
    have hmem : ssid ∈ valuesOf wscAttrSsid c.attributes := by simp [heq]
    rcases List.mem_map.mp hmem with ⟨a, ha, rfl⟩
    rcases List.mem_filter.mp ha with ⟨ha, hid⟩
    have hall : a ∈ t.attributes := List.mem_flatMap.mpr ⟨_, hc, ha⟩
    have hin : a.value ∈ ssidsOf t.attributes :=
      List.mem_filter.mpr ⟨List.mem_map.mpr ⟨a, List.mem_filter.mpr ⟨hall, hid⟩, rfl⟩,
        decide_eq_true hlen⟩
    rw [hnil] at hin
    exact absurd hin List.not_mem_nil
  · intro hnone
    have hid : ∀ a ∈ t.attributes, a.id ≠ wscAttrSsid := by
      intro a ha
      rcases List.mem_flatMap.mp ha with ⟨item, hitem, hleaf⟩
      cases item with
      | plain b hb =>
        rw [List.mem_singleton.mp hleaf]
        exact (hitems _ hitem).1
      | credential c =>
        have hc : c ∈ t.credentials := mem_credentials.mpr hitem
        rw [hnone] at hc
        exact absurd hc List.not_mem_nil
    have hvalues : valuesOf wscAttrSsid t.attributes = [] := by
      rw [valuesOf, List.map_eq_nil_iff, List.filter_eq_nil_iff]
      simpa using hid
    rw [ssidsOf, hvalues]
    rfl

end Several

/-- The credentials come from one container if and only if the last values of the record
do. -/
theorem unmixed_iff (t : WscTag) (tag : TagImage) (hbytes : tag.bytes = t.encode)
    (hitems : ∀ item ∈ t.items, item.WellFormed) (hrest : t.credentials = [] → Padding t.rest)
    (outCreds : WfrWifiCreds) :
    (∀ creds, Returns tag outCreds (true, creds) → ∃ c ∈ t.credentials, c.Gives creds) ↔
      t.credentials = [] ∨ Unmixed t := by
  by_cases hnone : t.credentials = []
  · refine iff_of_true (fun creds hcreds => ?_) (.inl hnone)
    have hfalse : Returns tag outCreds (false, _) :=
      WscTag.returns_false hbytes ((ssidsOf_eq_nil_iff hitems).mpr hnone) (hrest hnone)
    cases hcreds.unique hfalse
  · have hreturns : Returns tag outCreds (true, credsOf t.attributes) :=
      WscTag.returns_true hbytes fun hnil => hnone ((ssidsOf_eq_nil_iff hitems).mp hnil)
    rw [or_iff_right hnone]
    constructor
    · intro h
      rcases h _ hreturns with ⟨c, hc, hgives⟩
      exact ⟨c, hc, (credsOf_gives _ c).mp hgives⟩
    · rintro ⟨c, hc, hlast⟩ creds hcreds
      cases hcreds.unique hreturns
      exact ⟨c, hc, (credsOf_gives _ c).mpr hlast⟩

private def guestCredential : Credential where
  attributes := [⟨wscAttrSsid, ascii "Guest", by decide, by decide⟩]
  flat := by decide
  fits := by decide

private def mixedTag : WscTag :=
  sampleTag [.credential homeCredential, .credential guestCredential] [0xFE, 0]
    (by decide) (by decide)

private def mixedImage : TagImage where
  pagesRead := UInt16.ofNat (mixedTag.encode.length / 4)
  bytes := mixedTag.encode
  length_eq := by decide +kernel

private theorem mixedTag_wellFormed : ∀ item ∈ mixedTag.items, item.WellFormed := by
  change ∀ item ∈ [WscItem.credential homeCredential, .credential guestCredential], item.WellFormed
  rw [List.forall_mem_cons, List.forall_mem_singleton]
  constructor
  · exact ⟨⟨_, rfl, by decide, by decide⟩, .inr ⟨0x20, by decide, by decide⟩,
      .inr ⟨_, rfl, by decide⟩⟩
  · exact ⟨⟨_, rfl, by decide, by decide⟩, .inl (by decide), .inl (by decide)⟩

theorem unmixed_iff_mixed :
    (∀ creds, Returns mixedImage clearedCreds (true, creds) →
      ∃ c ∈ mixedTag.credentials, c.Gives creds) ↔ mixedTag.credentials = [] ∨ Unmixed mixedTag :=
  unmixed_iff mixedTag mixedImage rfl mixedTag_wellFormed (fun _ => ⟨0, _, rfl, .inr ⟨_, rfl⟩⟩)
    clearedCreds

/-- The guest network gets the password of the home network. -/
theorem guest_with_home_key :
    (∀ item ∈ mixedTag.items, item.WellFormed) ∧ ∃ creds, Returns mixedImage clearedCreds (true, creds) ∧
      creds.ssid.bytes = ascii "Guest" ∧ creds.password.bytes = ascii "password" ∧
        ¬ ∃ c ∈ mixedTag.credentials, c.Gives creds := by
  have hfound : ssidsOf mixedTag.attributes ≠ [] := by decide +kernel
  have hcreds : mixedTag.credentials = [homeCredential, guestCredential] := rfl
  refine ⟨mixedTag_wellFormed, _, WscTag.returns_true rfl hfound, by decide +kernel, by decide +kernel, ?_⟩
  rw [hcreds]
  simp only [List.mem_cons, List.not_mem_nil, or_false, exists_eq_or_imp, exists_eq_left, not_or]
  constructor
  · exact fun h => absurd h.1 (by decide +kernel)
  · exact fun h => absurd h.2.1 (by decide +kernel)

end InfraFi.Flipper.Nfc
