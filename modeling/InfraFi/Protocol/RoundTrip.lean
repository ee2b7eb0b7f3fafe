import Mathlib.Data.List.Chain
import InfraFi.Protocol.WifiString

/-! # Building a WiFi string and parsing it back

The parser looks for `key:` at every offset. In an escaped value every colon
has a backslash before it, so no content of an SSID or password fakes a key.
-/
namespace InfraFi.Protocol
open Base

/-- The two bytes `c`, `d` are not `k` followed by a colon. -/
def NotKey (k c d : UInt8) : Prop := ¬ (c = k ∧ d = colon)

instance (k : UInt8) : DecidableRel (NotKey k) := fun _ _ => inferInstanceAs (Decidable (¬ _))

/-- A string in which `k:` occurs nowhere. -/
abbrev KeyFree (k : UInt8) (s : Bytes) : Prop := s.IsChain (NotKey k)

theorem KeyFree.append {k : UInt8} {s t : Bytes} (hs : KeyFree k s) (ht : KeyFree k t)
    (hhead : t.head? ≠ some colon) : KeyFree k (s ++ t) := by
  refine List.isChain_append.mpr ⟨hs, ht, ?_⟩
  rintro x - y hy ⟨-, rfl⟩
  exact hhead hy

/-- A character of a value as the string spells it: as it is, or behind a backslash. -/
structure Spelled where
  escaped : Bool
  char : UInt8
  plain : escaped = false → char ≠ backslash ∧ char ≠ semicolon ∧ char ≠ colon

def Spelled.text (c : Spelled) : Bytes := if c.escaped then [backslash, c.char] else [c.char]

theorem head?_text_ne_colon (cs : List Spelled) : (cs.flatMap Spelled.text).head? ≠ some colon := by
  cases cs with
  | nil => simp
  | cons c cs =>
    rw [List.flatMap_cons, Spelled.text]
    split
    · simp [backslash, colon]
    · rename_i hc
      simpa using (c.plain (Bool.eq_false_iff.mpr hc)).2.2

/-- Every colon of a value is behind a backslash. -/
theorem keyFree_text {k : UInt8} (hk : k ≠ backslash) (cs : List Spelled) :
    KeyFree k (cs.flatMap Spelled.text) := by
  induction cs with
  | nil => exact List.isChain_nil
  | cons c cs ih =>
    rw [List.flatMap_cons]
    refine KeyFree.append ?_ ih (head?_text_ne_colon cs)
    unfold Spelled.text
    split
    · exact List.isChain_pair.mpr fun h => hk h.1.symm
    · exact List.isChain_singleton _

/-- Reading a value: the decoded bytes, as many as there is room for. -/
theorem wfrReadValue_text (cs : List Spelled) (rest : Bytes) (room : ℕ) :
    wfrReadValue room (cs.flatMap Spelled.text ++ semicolon :: rest) =
      (cs.map Spelled.char).take room := by
  induction cs generalizing room with
  | nil =>
    cases room with
    | zero => simp [wfrReadValue]
    | succ room => cases rest <;> simp [wfrReadValue, backslash, semicolon]
  | cons c cs ih =>
    cases room with
    | zero => simp [wfrReadValue]
    | succ room =>
      rw [List.flatMap_cons, List.map_cons, List.take_succ_cons, Spelled.text]
      by_cases hc : c.escaped = true
      · simp [hc, wfrReadValue, ih]
      · have hplain := c.plain (Bool.eq_false_iff.mpr hc)
        obtain ⟨d, ds, hd⟩ : ∃ d ds, cs.flatMap Spelled.text ++ semicolon :: rest = d :: ds := by
          cases h : cs.flatMap Spelled.text ++ semicolon :: rest with
          | nil => simp at h
          | cons d ds => exact ⟨d, ds, rfl⟩
        have ih' := ih room
        rw [hd] at ih'
        simp only [hc, Bool.false_eq_true, if_false, List.cons_append, List.nil_append, hd]
        rw [wfrReadValue, if_neg hplain.1, if_neg hplain.2.1, ih']

/-- How the builder spells a character. -/
def spell (c : UInt8) : Spelled where
  escaped := wfrNeedsEscape c
  char := c
  plain h := by
    simp only [wfrNeedsEscape, Bool.or_eq_false_iff, beq_eq_false_iff_ne] at h
    exact ⟨h.1.1.1.1, h.1.1.1.2, h.1.1.2⟩

theorem text_spell (s : Bytes) : (s.map spell).flatMap Spelled.text = escape s := List.flatMap_map ..

theorem escape_head?_ne_colon (s : Bytes) : (escape s).head? ≠ some colon :=
  text_spell s ▸ head?_text_ne_colon (s.map spell)

theorem keyFree_escape {k : UInt8} (hk : k ≠ backslash) (s : Bytes) : KeyFree k (escape s) :=
  text_spell s ▸ keyFree_text hk (s.map spell)

theorem wfrReadValue_escape (s rest : Bytes) (room : ℕ) :
    wfrReadValue room (escape s ++ semicolon :: rest) = s.take room := by
  have hchars : (s.map spell).map Spelled.char = s := by
    rw [List.map_map]
    exact List.map_id s
  rw [← text_spell, wfrReadValue_text, hchars]

/-- The first `k:` is where the value starts. -/
theorem wfrExtractField_of_keyFree {k : UInt8} (hk : k ≠ colon) (outSize : ℕ) (pre rest : Bytes)
    (hpre : KeyFree k pre) :
    wfrExtractField [k, colon] outSize (pre ++ k :: colon :: rest) =
      some (wfrReadValue (outSize - 1) rest) := by
  induction pre with
  | nil => simp [wfrExtractField]
  | cons c cs ih =>
    have hnot : List.isPrefixOf [k, colon] (c :: (cs ++ k :: colon :: rest)) = false := by
      cases cs with
      | nil => simp [List.isPrefixOf, hk.symm]
      | cons d ds =>
        have hcd : NotKey k c d := (List.isChain_cons_cons.mp hpre).1
        simp only [List.cons_append, List.isPrefixOf, Bool.and_eq_false_iff]
        by_cases hc : k = c
        · right
          left
          simpa using fun hd : colon = d => hcd ⟨hc.symm, hd.symm⟩
        · left
          simpa using hc
    rw [List.cons_append, wfrExtractField, hnot]
    exact ih hpre.tail

theorem escape_secStr (security : UInt8) : escape (secStr security) = secStr security := by
  unfold secStr
  split_ifs <;> decide

theorem secOfType_secStr {security : UInt8} (h : IsWfrSec security) :
    secOfType (secStr security) = security := by
  rcases h with rfl | rfl | rfl | rfl <;> decide

theorem fullWifiString_length_le (creds : WfrWifiCreds) : (fullWifiString creds).length ≤ 219 := by
  have hs := escape_length_le creds.ssid.bytes
  have hp := escape_length_le creds.password.bytes
  have h1 := creds.ssid.length_le
  have h2 := creds.password.length_le
  have h3 := (secStr_length creds.security).2
  have h4 := (hiddenStr_length creds.hidden).2
  have hhead : (ascii "WIFI:T:").length = 7 := by decide
  have hssid : (ascii ";S:").length = 3 := by decide
  have hpassword : (ascii ";P:").length = 3 := by decide
  simp only [fullWifiString, List.length_append, hhead, hssid, hpassword, wfrSsidMaxLen,
    wfrPassMaxLen] at *
  omega

theorem fullWifiString_length_pos (creds : WfrWifiCreds) : 0 < (fullWifiString creds).length := by
  have hhead : (ascii "WIFI:T:").length = 7 := by decide
  simp only [fullWifiString, List.length_append, hhead]
  omega

theorem zero_notMem_escape {s : Bytes} (h : 0 ∉ s) : 0 ∉ escape s := by
  intro hmem
  obtain ⟨c, hc, hin⟩ := List.mem_flatMap.mp hmem
  have hc0 : (0 : UInt8) ≠ c := fun he => h (he ▸ hc)
  split at hin
  · simp [backslash, hc0] at hin
  · simp [hc0] at hin

theorem zero_notMem_fullWifiString (creds : WfrWifiCreds) : 0 ∉ fullWifiString creds := by
  have hsec : 0 ∉ secStr creds.security := by
    unfold secStr
    split_ifs <;> decide
  have hhid : 0 ∉ hiddenStr creds.hidden := by
    cases creds.hidden <;> decide
  have hs := zero_notMem_escape creds.ssid.nulFree
  have hp := zero_notMem_escape creds.password.nulFree
  simp only [fullWifiString, List.mem_append, not_or]
  exact ⟨⟨⟨⟨⟨⟨by decide, hsec⟩, by decide⟩, hs⟩, by decide⟩, hp⟩, hhid⟩

/-! ## The four fields of a built string

The literals of the string are cut at the separators.
-/

private theorem typeHead_eq : ascii "WIFI:T:" = ascii "WIFI:" ++ ascii "T:" := rfl

private theorem ssidHead_eq : ascii ";S:" = semicolon :: ascii "S:" := rfl

private theorem passwordHead_eq : ascii ";P:" = semicolon :: ascii "P:" := rfl

private theorem typeKey_eq : ascii "T:" = [0x54, colon] := rfl

private theorem ssidKey_eq : ascii "S:" = [0x53, colon] := rfl

private theorem passwordKey_eq : ascii "P:" = [0x50, colon] := rfl

private theorem hiddenKey_eq : ascii "H:" = [0x48, colon] := rfl

section Fields
variable (creds : WfrWifiCreds)

private theorem extract_type (outSize : ℕ) :
    wfrExtractField (ascii "T:") outSize (fullWifiString creds) =
      some ((secStr creds.security).take (outSize - 1)) := by
  have hview : fullWifiString creds = ascii "WIFI:" ++ 0x54 :: colon :: (escape (secStr creds.security) ++
      semicolon :: (ascii "S:" ++ escape creds.ssid.bytes ++ ascii ";P:" ++
        escape creds.password.bytes ++ hiddenStr creds.hidden)) := by
    rw [escape_secStr, fullWifiString, typeHead_eq, typeKey_eq, ssidHead_eq]
    simp
  rw [hview, typeKey_eq, wfrExtractField_of_keyFree (by decide) _ _ _ (by decide), wfrReadValue_escape]

private theorem keyFree_type {k : UInt8} (hk : k = 0x53 ∨ k = 0x50 ∨ k = 0x48) :
    KeyFree k (ascii "WIFI:T:" ++ secStr creds.security ++ [semicolon]) := by
  unfold secStr
  rcases hk with rfl | rfl | rfl <;> split_ifs <;> decide

private theorem extract_ssid (outSize : ℕ) :
    wfrExtractField (ascii "S:") outSize (fullWifiString creds) =
      some (creds.ssid.bytes.take (outSize - 1)) := by
  have hview : fullWifiString creds = (ascii "WIFI:T:" ++ secStr creds.security ++ [semicolon]) ++
      0x53 :: colon :: (escape creds.ssid.bytes ++ semicolon :: (ascii "P:" ++
        escape creds.password.bytes ++ hiddenStr creds.hidden)) := by
    rw [fullWifiString, ssidHead_eq, ssidKey_eq, passwordHead_eq]
    simp
  rw [hview, ssidKey_eq,
    wfrExtractField_of_keyFree (by decide) _ _ _ (keyFree_type creds (by simp)),
    wfrReadValue_escape]

private theorem keyFree_ssid {k : UInt8} (hk : k = 0x50 ∨ k = 0x48) :
    KeyFree k (ascii "WIFI:T:" ++ secStr creds.security ++ [semicolon] ++ ascii "S:" ++
      escape creds.ssid.bytes ++ [semicolon]) := by
  have hb : k ≠ backslash := by
    rcases hk with rfl | rfl <;> decide
  have hS : KeyFree k (ascii "S:") := by
    rcases hk with rfl | rfl <;> decide
  exact (((keyFree_type creds (.inr hk)).append hS (by decide)).append (keyFree_escape hb _)
    (escape_head?_ne_colon _)).append (List.isChain_singleton _) (by decide)

private theorem extract_password (outSize : ℕ) :
    wfrExtractField (ascii "P:") outSize (fullWifiString creds) =
      some (creds.password.bytes.take (outSize - 1)) := by
  have hhid : ∃ tail, hiddenStr creds.hidden = semicolon :: tail := by
    cases creds.hidden <;> exact ⟨_, rfl⟩
  obtain ⟨tail, htail⟩ := hhid
  have hview : fullWifiString creds = (ascii "WIFI:T:" ++ secStr creds.security ++ [semicolon] ++
      ascii "S:" ++ escape creds.ssid.bytes ++ [semicolon]) ++ 0x50 :: colon ::
        (escape creds.password.bytes ++ semicolon :: tail) := by
    rw [fullWifiString, htail, ssidHead_eq, passwordHead_eq, passwordKey_eq]
    simp
  rw [hview, passwordKey_eq,
    wfrExtractField_of_keyFree (by decide) _ _ _ (keyFree_ssid creds (by simp)),
    wfrReadValue_escape]

private theorem extract_hidden :
    wfrExtractField (ascii "H:") 8 (fullWifiString creds) =
      some (if creds.hidden then ascii "true" else ascii "false") := by
  have hhid : hiddenStr creds.hidden = semicolon :: 0x48 :: colon ::
      (escape (if creds.hidden then ascii "true" else ascii "false") ++ semicolon :: [semicolon]) := by
    cases creds.hidden <;> decide
  have hview : fullWifiString creds = (ascii "WIFI:T:" ++ secStr creds.security ++ [semicolon] ++
      ascii "S:" ++ escape creds.ssid.bytes ++ [semicolon] ++ ascii "P:" ++
        escape creds.password.bytes ++ [semicolon]) ++ 0x48 :: colon ::
      (escape (if creds.hidden then ascii "true" else ascii "false") ++ semicolon :: [semicolon]) := by
    rw [fullWifiString, hhid, ssidHead_eq, passwordHead_eq]
    simp
  have hfree := (((keyFree_ssid creds (.inr rfl)).append (by decide : KeyFree 0x48 (ascii "P:"))
    (by decide)).append (keyFree_escape (by decide) creds.password.bytes)
    (escape_head?_ne_colon _)).append (List.isChain_singleton semicolon) (by decide)
  rw [hview, hiddenKey_eq,
    wfrExtractField_of_keyFree (by decide) _ _ _ hfree, wfrReadValue_escape]
  cases creds.hidden <;> decide

end Fields

theorem wifi_prefix_fullWifiString (creds : WfrWifiCreds) :
    (ascii "WIFI:").isPrefixOf (fullWifiString creds) = true := by
  rw [List.isPrefixOf_iff_prefix, fullWifiString, typeHead_eq]
  simp only [List.append_assoc]
  exact List.prefix_append _ _

theorem wfrParseWifiString_fullWifiString (creds : WfrWifiCreds) (hssid : creds.ssid.bytes ≠ [])
    (hsec : IsWfrSec creds.security) :
    wfrParseWifiString (fullWifiString creds) = some creds := by
  have hwifi := wifi_prefix_fullWifiString creds
  have hT : (secStr creds.security).take (16 - 1) = secStr creds.security :=
    List.take_of_length_le (by have := (secStr_length creds.security).2; omega)
  have hS : CString.ofBytes wfrSsidMaxLen (creds.ssid.bytes.take wfrSsidMaxLen) = creds.ssid := by
    rw [List.take_of_length_le creds.ssid.length_le]
    exact CString.ext (CString.ofBytes_bytes creds.ssid.nulFree creds.ssid.length_le)
  have hP : CString.ofBytes wfrPassMaxLen (creds.password.bytes.take wfrPassMaxLen) =
      creds.password := by
    rw [List.take_of_length_le creds.password.length_le]
    exact CString.ext (CString.ofBytes_bytes creds.password.nulFree creds.password.length_le)
  have hH : ¬ ascii "false" = ascii "true" := by decide
  simp [wfrParseWifiString, hwifi, extract_type, extract_ssid, extract_password, extract_hidden,
    hT, hS, hP, hH, hssid, secOfType_secStr hsec]

/-- A string without an SSID is not taken. -/
theorem wfrParseWifiString_no_ssid (creds : WfrWifiCreds) (hssid : creds.ssid.bytes = []) :
    wfrParseWifiString (fullWifiString creds) = none := by
  have hwifi := wifi_prefix_fullWifiString creds
  have hS : (CString.ofBytes wfrSsidMaxLen []).bytes = [] := rfl
  simp [wfrParseWifiString, hwifi, extract_type, extract_ssid, hssid, hS]

/-- The sender's buffer holds the whole string and its NUL. -/
theorem wfrBuildWifiString_string (creds : WfrWifiCreds) {out : Bytes}
    (hout : out.length = wfrMaxTotalPayload + 1) :
    ∃ n out', wfrBuildWifiString creds out = .ok (n, out') ∧ 1 ≤ n ∧ n ≤ 255 ∧
      (cstr out').length = n ∧ cstr out' = fullWifiString creds := by
  have hle := fullWifiString_length_le creds
  have hpos := fullWifiString_length_pos creds
  have hbuf : out.length = 256 := hout
  have hcstr := cstr_terminated (zero_notMem_fullWifiString creds)
    (out.drop ((fullWifiString creds).length + 1))
  refine ⟨_, _, wfrBuildWifiString_fits creds out (by omega) (by omega), hpos, by omega, ?_, hcstr⟩
  rw [hcstr]

/-- Build and parse are inverse on every valid credentials value, and the string fits the
sender's buffer with room for its NUL. -/
theorem wifiString_roundTrip (creds : WfrWifiCreds) (hssid : creds.ssid.bytes ≠ [])
    (hsec : IsWfrSec creds.security) (out : Bytes) (hout : out.length = wfrMaxTotalPayload + 1) :
    ∃ n out', wfrBuildWifiString creds out = .ok (n, out') ∧ 1 ≤ n ∧ n ≤ 255 ∧
      (cstr out').length = n ∧ wfrParseWifiString (cstr out') = some creds := by
  rcases wfrBuildWifiString_string creds hout with ⟨n, out', hbuild, hpos, hle, hlen, hcstr⟩
  refine ⟨n, out', hbuild, hpos, hle, hlen, ?_⟩
  rw [hcstr, wfrParseWifiString_fullWifiString creds hssid hsec]

/-- Content that looks like fields of its own. -/
private def trickyCreds : WfrWifiCreds where
  ssid := CString.ofBytes wfrSsidMaxLen (ascii ";S:fake;P:x\\")
  password := CString.ofBytes wfrPassMaxLen (ascii "T:WEP;H:true;;\"',")
  security := wfrSecSae
  hidden := false

theorem wifiString_roundTrip_tricky :
    ∃ n out', wfrBuildWifiString trickyCreds (List.replicate 256 0) = .ok (n, out') ∧ 1 ≤ n ∧
      n ≤ 255 ∧ (cstr out').length = n ∧ wfrParseWifiString (cstr out') = some trickyCreds :=
  wifiString_roundTrip trickyCreds (by decide) (by decide) _ (List.length_replicate ..)

end InfraFi.Protocol
