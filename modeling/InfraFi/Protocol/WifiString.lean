import InfraFi.Base.Memory
import InfraFi.Protocol.Defs

/-! # The WiFi QR string: `WIFI:T:<type>;S:<ssid>;P:<pass>;H:<hidden>;;`

The builder writes into the caller's buffer, every write checked against its
size. The parser does not split fields: it looks for `key:` at every offset
and reads from the first match.
-/
namespace InfraFi.Protocol
open Base

def backslash : UInt8 := 0x5C
def semicolon : UInt8 := 0x3B
def colon : UInt8 := 0x3A

/-- Characters that must be backslash-escaped in WiFi QR strings. -/
def wfrNeedsEscape (c : UInt8) : Bool :=
  c == backslash || c == semicolon || c == colon || c == 0x22 || c == 0x2C

/-- Appends `str` to `out` at `pos`; stops early, without a report, when the space runs out. -/
def wfrEscapeAppend (max : ℕ) : Bytes → Bytes → ℕ → Exec (Bytes × ℕ)
  | [], out, pos => .ok (out, pos)
  | c :: cs, out, pos =>
    if pos < max - 1 then
      if wfrNeedsEscape c then
        if pos + 2 > max - 1 then .ok (out, pos)
        else do
          let out ← store out pos backslash
          let out ← store out (pos + 1) c
          wfrEscapeAppend max cs out (pos + 2)
      else do
        let out ← store out pos c
        wfrEscapeAppend max cs out (pos + 1)
    else .ok (out, pos)

def secStr (security : UInt8) : Bytes :=
  if security = wfrSecWpa then ascii "WPA"
  else if security = wfrSecWep then ascii "WEP"
  else if security = wfrSecSae then ascii "SAE"
  else ascii "nopass"

def hiddenStr (hidden : Bool) : Bytes :=
  if hidden then ascii ";H:true;;" else ascii ";H:false;;"

/-- Returns the number of bytes written (0 on error) and the buffer as it is left. -/
def wfrBuildWifiString (creds : WfrWifiCreds) (out : Bytes) : Exec (ℕ × Bytes) := do
  let outSize := out.length
  if outSize < 16 then return (0, out)
  let pre := ascii "WIFI:T:"
  if pre.length ≥ outSize then return (0, out)
  let out ← storeBytes out 0 pre
  let pos := pre.length
  let sec := secStr creds.security
  if pos + sec.length + 3 ≥ outSize then return (0, out)
  let out ← storeBytes out pos sec
  let pos := pos + sec.length
  let out ← storeBytes out pos (ascii ";S:")
  let pos := pos + 3
  let (out, pos) ← wfrEscapeAppend outSize creds.ssid.bytes out pos
  if pos + 3 ≥ outSize then return (0, out)
  let out ← storeBytes out pos (ascii ";P:")
  let pos := pos + 3
  let (out, pos) ← wfrEscapeAppend outSize creds.password.bytes out pos
  let hidden := hiddenStr creds.hidden
  if pos + hidden.length ≥ outSize then return (0, out)
  let out ← storeBytes out pos hidden
  let pos := pos + hidden.length
  let out ← store out pos 0
  return (pos, out)

/-- Reads a field value up to an unescaped `;`, at most `room` decoded bytes. -/
def wfrReadValue : ℕ → Bytes → Bytes
  | 0, _ => []
  | _ + 1, [] => []
  | _ + 1, [c] => if c = semicolon then [] else [c]
  | room + 1, c :: d :: cs =>
    if c = backslash then d :: wfrReadValue room cs
    else if c = semicolon then []
    else c :: wfrReadValue room (d :: cs)

/-- Looks for `key` at every offset and reads the value behind the first match;
`none` is the result -1. -/
def wfrExtractField (key : Bytes) (outSize : ℕ) : Bytes → Option Bytes
  | [] => none
  | c :: cs =>
    if key.isPrefixOf (c :: cs) then some (wfrReadValue (outSize - 1) ((c :: cs).drop key.length))
    else wfrExtractField key outSize cs

def secOfType (typeBuf : Bytes) : UInt8 :=
  if typeBuf = ascii "WPA" then wfrSecWpa
  else if typeBuf = ascii "WEP" then wfrSecWep
  else if typeBuf = ascii "SAE" then wfrSecSae
  else wfrSecOpen

/-- `none` is the result false. -/
def wfrParseWifiString (str : Bytes) : Option WfrWifiCreds := do
  if ¬ (ascii "WIFI:").isPrefixOf str then none
  let typeBuf ← wfrExtractField (ascii "T:") 16 str
  let ssid := CString.ofBytes wfrSsidMaxLen (← wfrExtractField (ascii "S:") (wfrSsidMaxLen + 1) str)
  if ssid.bytes = [] then none
  let password := match wfrExtractField (ascii "P:") (wfrPassMaxLen + 1) str with
    | some p => CString.ofBytes wfrPassMaxLen p
    | none => CString.empty wfrPassMaxLen
  let hidden := match wfrExtractField (ascii "H:") 8 str with
    | some h => h = ascii "true"
    | none => false
  return { ssid, password, security := secOfType typeBuf, hidden }

/-! ## What the builder writes -/

/-- Backslash-escaping of a whole string. -/
def escape (s : Bytes) : Bytes :=
  s.flatMap (fun c => if wfrNeedsEscape c then [backslash, c] else [c])

@[simp] theorem escape_nil : escape [] = [] := rfl

theorem escape_cons (c : UInt8) (cs : Bytes) :
    escape (c :: cs) = (if wfrNeedsEscape c then [backslash, c] else [c]) ++ escape cs := rfl

theorem escape_length_le (s : Bytes) : (escape s).length ≤ 2 * s.length := by
  induction s with
  | nil => simp
  | cons c cs ih =>
    rw [escape_cons, List.length_append, List.length_cons]
    split <;> simp only [List.length_cons, List.length_nil] <;> omega

/-- The complete string for some credentials. -/
def fullWifiString (creds : WfrWifiCreds) : Bytes :=
  ascii "WIFI:T:" ++ secStr creds.security ++ ascii ";S:" ++ escape creds.ssid.bytes ++
    ascii ";P:" ++ escape creds.password.bytes ++ hiddenStr creds.hidden

theorem secStr_length (security : UInt8) :
    3 ≤ (secStr security).length ∧ (secStr security).length ≤ 6 := by
  unfold secStr
  split_ifs <;> decide

theorem hiddenStr_length (hidden : Bool) :
    9 ≤ (hiddenStr hidden).length ∧ (hiddenStr hidden).length ≤ 10 := by
  cases hidden <;> decide

/-- With room for all of it, the escape loop appends the escaped string. -/
theorem wfrEscapeAppend_fits (max : ℕ) (str done rest : Bytes) (pos : ℕ)
    (hmax : (done ++ rest).length = max) (hpos : done.length = pos)
    (hroom : (escape str).length < rest.length) :
    wfrEscapeAppend max str (done ++ rest) pos =
      .ok (done ++ escape str ++ rest.drop (escape str).length, pos + (escape str).length) := by
  induction str generalizing done rest pos with
  | nil => simp [wfrEscapeAppend]
  | cons c cs ih =>
    subst hpos
    rw [List.length_append] at hmax
    rw [escape_cons] at hroom ⊢
    cases rest with
    | nil => simp at hroom
    | cons x rest =>
      have hx (b : UInt8) := store_append done rest x b
      simp only [List.length_cons] at hmax hroom
      by_cases hc : wfrNeedsEscape c = true
      · simp only [hc, if_true, List.length_append, List.length_cons, List.length_nil] at hroom ⊢
        cases rest with
        | nil => simp at hroom
        | cons y rest =>
          have hy := store_append (done ++ [backslash]) rest y c
          simp only [List.length_cons, List.length_append, List.length_nil, List.append_assoc,
            List.cons_append, List.nil_append, Nat.zero_add] at hy hmax hroom
          have hnext := ih (done ++ [backslash, c]) rest (done.length + 2)
            (by simp; omega) (by simp) (by omega)
          simp only [List.append_assoc, List.cons_append, List.nil_append] at hnext
          rw [wfrEscapeAppend, if_pos (by omega), if_pos hc, if_neg (by omega), hx, Exec.ok_bind,
            hy, Exec.ok_bind, hnext, show 0 + 1 + 1 + (escape cs).length = (escape cs).length + 2 by omega]
          refine congrArg Except.ok (Prod.ext ?_ ?_)
          · simp
          · exact Nat.add_right_comm _ _ _
      · simp only [hc, Bool.false_eq_true, if_false, List.length_append, List.length_cons,
          List.length_nil] at hroom ⊢
        have hnext := ih (done ++ [c]) rest (done.length + 1) (by simp; omega) (by simp) (by omega)
        simp only [List.append_assoc, List.cons_append, List.nil_append] at hnext
        rw [wfrEscapeAppend, if_pos (by omega), if_neg hc, hx, Exec.ok_bind, hnext,
          show 0 + 1 + (escape cs).length = (escape cs).length + 1 by omega]
        refine congrArg Except.ok (Prod.ext ?_ ?_)
        · simp
        · exact Nat.add_right_comm _ _ _

/-- With room for the whole string and its NUL, the builder writes exactly that. -/
theorem wfrBuildWifiString_fits (creds : WfrWifiCreds) (out : Bytes) (h16 : 16 ≤ out.length)
    (hroom : (fullWifiString creds).length < out.length) :
    wfrBuildWifiString creds out = .ok ((fullWifiString creds).length,
      fullWifiString creds ++ 0 :: out.drop ((fullWifiString creds).length + 1)) := by
  have hpre : (ascii "WIFI:T:").length = 7 := by decide
  have hs : (ascii ";S:").length = 3 := by decide
  have hp : (ascii ";P:").length = 3 := by decide
  unfold wfrBuildWifiString fullWifiString
  simp only [fullWifiString, List.length_append, hpre, hs, hp] at hroom
  generalize secStr creds.security = sec at hroom ⊢
  generalize creds.ssid.bytes = ssid at hroom ⊢
  generalize creds.password.bytes = pass at hroom ⊢
  generalize hiddenStr creds.hidden = hid at hroom ⊢
  generalize ascii "WIFI:T:" = pre at hpre ⊢
  generalize ascii ";S:" = keyS at hs ⊢
  generalize ascii ";P:" = keyP at hp ⊢
  have h1 := storeBytes_append [] out pre 0 rfl (by omega)
  have h2 := storeBytes_append pre (out.drop 7) sec 7 hpre (by simp; omega)
  have h3 := storeBytes_append (pre ++ sec) (out.drop (7 + sec.length)) keyS
    (7 + sec.length) (by simp [hpre]) (by simp [hs]; omega)
  have h4 := wfrEscapeAppend_fits out.length ssid (pre ++ sec ++ keyS)
    (out.drop (7 + sec.length + 3)) (7 + sec.length + 3) (by simp [hpre, hs]; omega)
    (by simp [hpre, hs, Nat.add_assoc]) (by simp; omega)
  have h5 := storeBytes_append (pre ++ sec ++ keyS ++ escape ssid)
    (out.drop (7 + sec.length + 3 + (escape ssid).length)) keyP
    (7 + sec.length + 3 + (escape ssid).length) (by simp [hpre, hs]; omega) (by simp [hp]; omega)
  have h6 := wfrEscapeAppend_fits out.length pass (pre ++ sec ++ keyS ++ escape ssid ++ keyP)
    (out.drop (7 + sec.length + 3 + (escape ssid).length + 3))
    (7 + sec.length + 3 + (escape ssid).length + 3) (by simp [hpre, hs, hp]; omega)
    (by simp [hpre, hs, hp]; omega) (by simp; omega)
  have h7 := storeBytes_append (pre ++ sec ++ keyS ++ escape ssid ++ keyP ++ escape pass)
    (out.drop (7 + sec.length + 3 + (escape ssid).length + 3 + (escape pass).length)) hid
    (7 + sec.length + 3 + (escape ssid).length + 3 + (escape pass).length)
    (by simp [hpre, hs, hp]; omega) (by simp; omega)
  simp only [List.nil_append, hpre, hs, hp, List.drop_drop] at h1 h2 h3 h4 h5 h6 h7
  simp only [if_neg (by omega : ¬ out.length < 16), hpre, if_neg (by omega : ¬ 7 ≥ out.length),
    if_neg (by omega : ¬ 7 + sec.length + 3 ≥ out.length), h1, h2, h3, h4, h5, h6, h7, Exec.ok_bind,
    if_neg (by omega : ¬ 7 + sec.length + 3 + (escape ssid).length + 3 ≥ out.length),
    if_neg (by omega : ¬ 7 + sec.length + 3 + (escape ssid).length + 3 + (escape pass).length +
      hid.length ≥ out.length)]
  have hlen : (pre ++ sec ++ keyS ++ escape ssid ++ keyP ++ escape pass ++ hid).length =
      7 + sec.length + 3 + (escape ssid).length + 3 + (escape pass).length + hid.length := by
    simp [hpre, hs, hp]
    omega
  generalize pre ++ sec ++ keyS ++ escape ssid ++ keyP ++ escape pass ++ hid = full at hlen ⊢
  rw [← hlen] at hroom ⊢
  rw [List.drop_eq_getElem_cons hroom, store_append]
  rfl

/-! ## When the room runs out -/

/-- The two early exits of the escape loop leave at most two places free. -/
theorem wfrEscapeAppend_stops {max : ℕ} (str : Bytes) {out : Bytes} {pos : ℕ}
    (hlen : out.length = max) (hfull : max ≤ pos + (escape str).length) :
    ∃ out' pos', wfrEscapeAppend max str out pos = .ok (out', pos') ∧ out'.length = max ∧
      max ≤ pos' + 2 := by
  induction str generalizing out pos with
  | nil =>
    rw [escape_nil, List.length_nil] at hfull
    exact ⟨out, pos, rfl, hlen, by omega⟩
  | cons c cs ih =>
    rw [escape_cons, List.length_append] at hfull
    rw [wfrEscapeAppend]
    by_cases hpos : pos < max - 1
    · rw [if_pos hpos]
      by_cases hc : wfrNeedsEscape c = true
      · rw [if_pos hc] at hfull ⊢
        by_cases hpair : pos + 2 > max - 1
        · rw [if_pos hpair]
          exact ⟨out, pos, rfl, hlen, by omega⟩
        · have hslash := store_of_lt out backslash (by omega : pos < out.length)
          have hchar := store_of_lt (out.set pos backslash) c
            (by rw [List.length_set]; omega : pos + 1 < (out.set pos backslash).length)
          rw [if_neg hpair, hslash, Exec.ok_bind, hchar, Exec.ok_bind]
          apply ih
          · rw [List.length_set, List.length_set, hlen]
          · simp only [List.length_cons, List.length_nil] at hfull
            omega
      · have hchar := store_of_lt out c (by omega : pos < out.length)
        rw [if_neg hc] at hfull ⊢
        rw [hchar, Exec.ok_bind]
        apply ih
        · rw [List.length_set, hlen]
        · simp only [List.length_cons, List.length_nil] at hfull
          omega
    · rw [if_neg hpos]
      exact ⟨out, pos, rfl, hlen, by omega⟩

/-- Where the escape loop ends, and that it stays inside the buffer. -/
theorem wfrEscapeAppend_ends (str out : Bytes) (pos : ℕ) (hpos : pos ≤ out.length) :
    ∃ out' pos', wfrEscapeAppend out.length str out pos = .ok (out', pos') ∧
      out'.length = out.length ∧
      (pos + (escape str).length < out.length ∧ pos' = pos + (escape str).length ∨
        out.length ≤ pos + (escape str).length ∧ out.length ≤ pos' + 2) := by
  by_cases hroom : pos + (escape str).length < out.length
  · have hfits := wfrEscapeAppend_fits out.length str (out.take pos) (out.drop pos) pos
      (by rw [List.take_append_drop]) (List.length_take_of_le hpos)
      (by rw [List.length_drop]; omega)
    rw [List.take_append_drop] at hfits
    refine ⟨_, _, hfits, ?_, .inl ⟨hroom, rfl⟩⟩
    simp only [List.length_append, List.length_take, List.length_drop]
    omega
  · obtain ⟨out', pos', hrun, hlen, hstop⟩ :=
      wfrEscapeAppend_stops str rfl (Nat.le_of_not_lt hroom)
    exact ⟨out', pos', hrun, hlen, .inr ⟨Nat.le_of_not_lt hroom, hstop⟩⟩

/-- Without that room, the builder reports an error and leaves the rest of memory alone. -/
theorem wfrBuildWifiString_short (creds : WfrWifiCreds) (out : Bytes)
    (hshort : out.length ≤ (fullWifiString creds).length) :
    ∃ out', wfrBuildWifiString creds out = .ok (0, out') ∧ out'.length = out.length := by
  have hpre : (ascii "WIFI:T:").length = 7 := by decide
  have hs : (ascii ";S:").length = 3 := by decide
  have hp : (ascii ";P:").length = 3 := by decide
  simp only [fullWifiString, List.length_append, hpre, hs, hp] at hshort
  unfold wfrBuildWifiString
  by_cases h16 : out.length < 16
  · exact ⟨out, if_pos h16, rfl⟩
  obtain ⟨o1, h1, hl1⟩ := storeBytes_of_le out 0 (ascii "WIFI:T:") (by omega)
  simp only [if_neg h16, hpre, if_neg (by omega : ¬ 7 ≥ out.length), h1, Exec.ok_bind]
  by_cases hsec : 7 + (secStr creds.security).length + 3 ≥ out.length
  · exact ⟨o1, if_pos hsec, hl1⟩
  obtain ⟨o2, h2, hl2⟩ := storeBytes_of_le o1 7 (secStr creds.security) (by omega)
  obtain ⟨o3, h3, hl3⟩ := storeBytes_of_le o2 (7 + (secStr creds.security).length) (ascii ";S:") (by omega)
  obtain ⟨o4, pos, h4, hl4, hpos⟩ := wfrEscapeAppend_ends creds.ssid.bytes o3
    (7 + (secStr creds.security).length + 3) (by omega)
  rw [hl3, hl2, hl1] at h4 hl4 hpos
  simp only [if_neg hsec, h2, h3, h4, Exec.ok_bind]
  by_cases hssid : pos + 3 ≥ out.length
  · exact ⟨o4, if_pos hssid, hl4⟩
  -- the SSID is complete: a loop that stopped early leaves no room for `;P:`
  obtain ⟨o5, h5, hl5⟩ := storeBytes_of_le o4 pos (ascii ";P:") (by omega)
  obtain ⟨o6, pos', h6, hl6, hpos'⟩ := wfrEscapeAppend_ends creds.password.bytes o5 (pos + 3) (by omega)
  rw [hl5, hl4] at h6 hl6 hpos'
  simp only [if_neg hssid, h5, h6, Exec.ok_bind]
  have hhidden := (hiddenStr_length creds.hidden).1
  have hlast : pos' + (hiddenStr creds.hidden).length ≥ out.length := by omega
  exact ⟨o6, if_pos hlast, hl6⟩

theorem fullWifiString_length_ge (creds : WfrWifiCreds) : 16 ≤ (fullWifiString creds).length := by
  have hpre : (ascii "WIFI:T:").length = 7 := by decide
  have hsec := (secStr_length creds.security).1
  have hhidden := (hiddenStr_length creds.hidden).1
  simp only [fullWifiString, List.length_append, hpre]
  omega

/-- The builder never truncates silently: it stays inside the buffer, and what it leaves there
is the whole string and its NUL, or it returns 0. -/
theorem wfrBuildWifiString_whole (creds : WfrWifiCreds) (out : Bytes) :
    ∃ n out', wfrBuildWifiString creds out = .ok (n, out') ∧ out'.length = out.length ∧
      ((fullWifiString creds).length < out.length → n = (fullWifiString creds).length ∧
        out' = fullWifiString creds ++ 0 :: out.drop (n + 1)) ∧
      (out.length ≤ (fullWifiString creds).length → n = 0) := by
  by_cases hroom : (fullWifiString creds).length < out.length
  · have hge := fullWifiString_length_ge creds
    refine ⟨_, _, wfrBuildWifiString_fits creds out (by omega) hroom, ?_, fun _ => ⟨rfl, rfl⟩,
      fun hshort => absurd hroom (Nat.not_lt_of_le hshort)⟩
    simp only [List.length_append, List.length_cons, List.length_drop]
    omega
  · obtain ⟨out', hbuild, hlen⟩ := wfrBuildWifiString_short creds out (Nat.le_of_not_lt hroom)
    exact ⟨0, out', hbuild, hlen, fun h => absurd h hroom, fun _ => rfl⟩

end InfraFi.Protocol
