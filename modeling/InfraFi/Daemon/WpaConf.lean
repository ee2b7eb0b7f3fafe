import InfraFi.Base.Lines
import InfraFi.Daemon.Rollback

/-! # The `wpa_supplicant` configuration, read line by line

The writer prints the SSID and the password between double quotes and escapes
nothing. A reader that takes the text between the first and the last double
quote of a line gets any value back, but a newline ends the line early.
-/
namespace InfraFi.Daemon
open Base Protocol Prog Lines

def doubleQuote : UInt8 := 0x22

/-- What comes after the first byte of a kind. -/
def afterFirst (b : UInt8) (line : Bytes) : Bytes := (line.dropWhile (· ≠ b)).drop 1

/-- The text between the first and the last double quote of a line. -/
def betweenQuotes (line : Bytes) : Bytes :=
  (afterFirst doubleQuote (afterFirst doubleQuote line).reverse).reverse

/-- A line that gives a key this value. -/
def Assigns (key value line : Bytes) : Prop :=
  ascii "    " ++ key ++ ascii "=" <+: line ∧ betweenQuotes line = value

/-- The `key_mgmt` and `psk` lines of the security type. -/
def SecurityLines (creds : WfrWifiCreds) (ls : List Bytes) : Prop :=
  if creds.security = wfrSecOpen then ls = [ascii "    key_mgmt=NONE"]
  else ∃ psk, Assigns (ascii "psk") creds.password.bytes psk ∧
    ls = if creds.security = wfrSecSae then [ascii "    key_mgmt=SAE", psk] else [psk]

def headerLines : List Bytes :=
  [ascii "ctrl_interface=DIR=/var/run/wpa_supplicant GROUP=netdev", ascii "update_config=1", [],
    ascii "network=\x7b"]

def hiddenLines (creds : WfrWifiCreds) : List Bytes :=
  if creds.hidden then [ascii "    scan_ssid=1"] else []

/-- The lines of the file are those for the credentials and no others. -/
def FaithfulConf (creds : WfrWifiCreds) (text : Bytes) : Prop :=
  ∃ ssid security, Assigns (ascii "ssid") creds.ssid.bytes ssid ∧ SecurityLines creds security ∧
    lines text = headerLines ++ [ssid] ++ security ++ hiddenLines creds ++ [ascii "\x7d"]

/-! ## The lines that are written -/

/-- `    key="value"`. -/
def quotedLine (key value : Bytes) : Bytes :=
  ascii "    " ++ key ++ ascii "=\"" ++ value ++ [doubleQuote]

def writtenSecurity (creds : WfrWifiCreds) : List Bytes :=
  let psk := quotedLine (ascii "psk") creds.password.bytes
  if creds.security = wfrSecOpen then [ascii "    key_mgmt=NONE"]
  else if creds.security = wfrSecSae then [ascii "    key_mgmt=SAE", psk]
  else [psk]

def writtenLines (creds : WfrWifiCreds) : List Bytes :=
  headerLines ++ [quotedLine (ascii "ssid") creds.ssid.bytes] ++ writtenSecurity creds ++
    hiddenLines creds ++ [ascii "\x7d"]

theorem unlines_append (ls ks : List Bytes) : unlines (ls ++ ks) = unlines ls ++ unlines ks :=
  List.flatMap_append

theorem unlines_singleton (l : Bytes) : unlines [l] = l ++ [lineFeed] := List.append_nil _

theorem unlines_quotedLine (key value : Bytes) :
    unlines [quotedLine key value] = ascii "    " ++ key ++ ascii "=\"" ++ value ++ ascii "\"\n" := by
  have hend : ascii "\"\n" = [doubleQuote] ++ [lineFeed] := rfl
  rw [unlines_singleton, quotedLine, hend, List.append_assoc _ [doubleQuote]]

theorem wpaConfText_eq (creds : WfrWifiCreds) : wpaConfText creds = unlines (writtenLines creds) := by
  have hheader : unlines headerLines = ascii "ctrl_interface=DIR=/var/run/wpa_supplicant GROUP=netdev\n" ++
      ascii "update_config=1\n\n" ++ ascii "network=\x7b\n" := by decide +kernel
  have hssid : unlines [quotedLine (ascii "ssid") creds.ssid.bytes] =
      ascii "    ssid=\"" ++ creds.ssid.bytes ++ ascii "\"\n" := unlines_quotedLine ..
  have hpsk : unlines [quotedLine (ascii "psk") creds.password.bytes] =
      ascii "    psk=\"" ++ creds.password.bytes ++ ascii "\"\n" := unlines_quotedLine ..
  have hsecurity : unlines (writtenSecurity creds) =
      if creds.security = wfrSecOpen then ascii "    key_mgmt=NONE\n"
      else if creds.security = wfrSecSae then ascii "    key_mgmt=SAE\n" ++
        (ascii "    psk=\"" ++ creds.password.bytes ++ ascii "\"\n")
      else ascii "    psk=\"" ++ creds.password.bytes ++ ascii "\"\n" := by
    unfold writtenSecurity
    split
    · rfl
    split
    · rw [← List.singleton_append, unlines_append, hpsk]
      rfl
    · exact hpsk
  have hhidden : unlines (hiddenLines creds) =
      if creds.hidden then ascii "    scan_ssid=1\n" else [] := by
    unfold hiddenLines
    split <;> rfl
  have hend : unlines [ascii "\x7d"] = ascii "\x7d\n" := rfl
  rw [writtenLines]
  simp only [unlines_append]
  rw [hheader, hssid, hsecurity, hhidden, hend, wpaConfText]
  simp only [List.append_assoc]

/-! ## Reading them back -/

theorem afterFirst_append {b : UInt8} {pre : Bytes} (h : b ∉ pre) (rest : Bytes) :
    afterFirst b (pre ++ b :: rest) = rest := by
  have hall : ∀ x ∈ pre, decide (x ≠ b) = true := by
    intro x hx
    have hne : x ≠ b := fun he => h (he ▸ hx)
    simpa using hne
  rw [afterFirst, List.dropWhile_append_of_pos hall]
  simp

/-- Quotes in the value do not matter. -/
theorem betweenQuotes_quotedLine {key : Bytes} (hkey : doubleQuote ∉ key) (value : Bytes) :
    betweenQuotes (quotedLine key value) = value := by
  have hline : quotedLine key value =
      (ascii "    " ++ key ++ ascii "=") ++ doubleQuote :: (value ++ [doubleQuote]) := by
    have hopen : ascii "=\"" = ascii "=" ++ [doubleQuote] := rfl
    rw [quotedLine, hopen]
    simp only [List.append_assoc, List.cons_append, List.nil_append]
  have hpre : doubleQuote ∉ ascii "    " ++ key ++ ascii "=" := by
    simp only [List.mem_append, not_or]
    exact ⟨⟨by decide, hkey⟩, by decide⟩
  have hrev : (value ++ [doubleQuote]).reverse = [] ++ doubleQuote :: value.reverse := by simp
  rw [betweenQuotes, hline, afterFirst_append hpre, hrev, afterFirst_append List.not_mem_nil,
    List.reverse_reverse]

theorem assigns_quotedLine {key : Bytes} (hkey : doubleQuote ∉ key) (value : Bytes) :
    Assigns key value (quotedLine key value) := by
  refine ⟨⟨doubleQuote :: (value ++ [doubleQuote]), ?_⟩, betweenQuotes_quotedLine hkey value⟩
  have hopen : ascii "=\"" = ascii "=" ++ [doubleQuote] := rfl
  rw [quotedLine, hopen]
  simp only [List.append_assoc, List.cons_append, List.nil_append]

theorem securityLines_written (creds : WfrWifiCreds) : SecurityLines creds (writtenSecurity creds) := by
  unfold SecurityLines writtenSecurity
  split
  · rfl
  · exact ⟨_, assigns_quotedLine (by decide) _, rfl⟩

theorem SecurityLines.length_eq {creds : WfrWifiCreds} {ls ks : List Bytes} (h : SecurityLines creds ls)
    (h' : SecurityLines creds ks) : ls.length = ks.length := by
  unfold SecurityLines at h h'
  by_cases hopen : creds.security = wfrSecOpen
  · rw [if_pos hopen] at h h'
    rw [h, h']
  · rw [if_neg hopen] at h h'
    rcases h with ⟨psk, -, rfl⟩
    rcases h' with ⟨psk', -, rfl⟩
    split <;> rfl

/-- No value spreads over two lines. -/
def OnOneLine (creds : WfrWifiCreds) : Prop :=
  lineFeed ∉ creds.ssid.bytes ∧ (creds.security ≠ wfrSecOpen → lineFeed ∉ creds.password.bytes)

theorem lineFeed_notMem_quotedLine (key : Bytes) (hkey : lineFeed ∉ key) (value : Bytes) :
    lineFeed ∉ quotedLine key value ↔ lineFeed ∉ value := by
  have hopen : lineFeed ∉ ascii "    " ∧ lineFeed ∉ ascii "=\"" ∧ lineFeed ∉ [doubleQuote] := by decide
  simp [quotedLine, hkey, hopen]

theorem lineFeed_notMem_written (creds : WfrWifiCreds) :
    (∀ l ∈ writtenLines creds, lineFeed ∉ l) ↔ OnOneLine creds := by
  have hheader : ∀ l ∈ headerLines, lineFeed ∉ l := by decide
  have hhidden : ∀ l ∈ hiddenLines creds, lineFeed ∉ l := by
    unfold hiddenLines
    split
    · decide
    · exact List.forall_mem_nil _
  have hsecurity : (∀ l ∈ writtenSecurity creds, lineFeed ∉ l) ↔
      (creds.security ≠ wfrSecOpen → lineFeed ∉ creds.password.bytes) := by
    have hpsk := lineFeed_notMem_quotedLine (ascii "psk") (by decide) creds.password.bytes
    have hfixed : lineFeed ∉ ascii "    key_mgmt=NONE" ∧ lineFeed ∉ ascii "    key_mgmt=SAE" := by decide
    unfold writtenSecurity
    by_cases hopen : creds.security = wfrSecOpen
    · simp [hopen, hfixed]
    · by_cases hsae : creds.security = wfrSecSae
      · simp [hopen, if_pos hsae, hfixed, hpsk]
      · simp [hopen, hsae, hpsk]
  have hssid := lineFeed_notMem_quotedLine (ascii "ssid") (by decide) creds.ssid.bytes
  have hend : ∀ l ∈ [ascii "\x7d"], lineFeed ∉ l := by decide
  unfold writtenLines OnOneLine
  simp only [List.forall_mem_append, List.forall_mem_singleton, hssid, hsecurity]
  exact ⟨fun h => ⟨h.1.1.1.2, h.1.1.2⟩, fun h => ⟨⟨⟨⟨hheader, h.1⟩, h.2⟩, hhidden⟩, hend _ (by simp)⟩⟩

theorem faithfulConf_iff (creds : WfrWifiCreds) :
    FaithfulConf creds (wpaConfText creds) ↔ OnOneLine creds := by
  rw [wpaConfText_eq, ← lineFeed_notMem_written]
  constructor
  · rintro ⟨ssid, security, -, hsecurity, hlines⟩
    rw [← (length_lines_unlines _).2, hlines, writtenLines]
    simp only [List.length_append, List.length_singleton, hsecurity.length_eq (securityLines_written creds)]
  · intro h
    exact ⟨_, _, assigns_quotedLine (by decide) _, securityLines_written creds, lines_unlines h⟩

/-! ## The file of a run -/

/-- The only two files a run writes, with their texts. -/
theorem writeFile_mem_interfaces {creds : WfrWifiCreds} {tr : Trace} {b : Bool}
    (h : Run (wfrNetConnectInterfaces creds) tr b) {path text : Bytes} {ok : Bool}
    (hw : ⟨.writeFile path text, ok⟩ ∈ tr) : path = confPath ∨ text = wpaConfText creds := by
  have hevent : ⟨.writeFile path text, ok⟩ ∈ fileEvents tr := List.mem_filter.mpr ⟨hw, rfl⟩
  rcases run_bind.mp h with ⟨t₁, found, t₂, rfl, h₁, h₂⟩
  rw [fileEvents_append, fileEvents_of_kinds (kinds_detectWifiIface 32) (by simp) (by simp) h₁,
    List.nil_append] at hevent
  cases found with
  | none =>
    rw [(run_pure.mp h₂).1] at hevent
    cases hevent
  | some iface =>
    have hwritten {t : Trace} {wrote : Bool} (ht : Run (writeConfig iface creds) t wrote)
        (hmem : (⟨.writeFile path text, ok⟩ : Event Call Call.Answer) ∈ fileEvents t) :
        path = confPath ∨ text = wpaConfText creds := by
      have hmem' := (List.mem_filter.mp hmem).1
      rcases run_writeConfig ht with ⟨rfl, -⟩ | ⟨⟨u, rfl⟩, -⟩ | ⟨rfl, -⟩
      all_goals
        simp only [List.mem_cons, List.not_mem_nil, or_false, Sigma.mk.injEq, Call.writeFile.injEq,
          reduceCtorEq, false_and] at hmem'
      · exact .inr hmem'.1.2
      · exact hmem'.symm.imp (fun h => h.1.1) (fun h => h.1.2)
      · exact hmem'.symm.imp (fun h => h.1.1) (fun h => h.1.2)
    rcases run_guard h₂ with ⟨-, h₃⟩ | ⟨t₃, t₄, rfl, h₃, h₄⟩
    · exact hwritten h₃ hevent
    · have hrest := kinds_finishInterfaces (length_of_detectWifiIface h₁) creds
      rw [fileEvents_append, fileEvents_of_kinds hrest (by simp) (by simp) h₄, List.append_nil] at hevent
      exact hwritten h₃ hevent

/-- The `wpa_supplicant` file of a run is faithful exactly if no value in it has a newline. -/
theorem wpaConf_faithful_iff (creds : WfrWifiCreds) (tr : Trace) (b : Bool)
    (h : Run (wfrNetConnectInterfaces creds) tr b) (path text : Bytes) (ok : Bool)
    (hw : ⟨.writeFile path text, ok⟩ ∈ tr) (hpath : path ≠ confPath) :
    FaithfulConf creds text ↔ OnOneLine creds := by
  rw [(writeFile_mem_interfaces h hw).resolve_left hpath]
  exact faithfulConf_iff creds

/-! A newline in the SSID that brings in a network of its own. -/

private def twoLineCreds : WfrWifiCreds where
  ssid := CString.ofBytes wfrSsidMaxLen (ascii "a\"\npriority=9\nssid=\"b")
  password := CString.ofBytes wfrPassMaxLen (ascii "password")
  security := wfrSecWpa
  hidden := false

private def answerWritten (_ : ℕ) : (c : Call) → c.Answer
  | .system _ => some 0
  | .popen _ => some (ascii "wlan0\n")
  | .sleep _ => ()
  | .delayMs _ => ()
  | .getaddrinfo _ _ => true
  | .writeFile _ _ => true
  | .unlink _ => true
  | .writeScancode _ _ => true

private theorem run_twoLine : Run (wfrNetConnectInterfaces twoLineCreds)
    (runWith answerWritten 0 (wfrNetConnectInterfaces twoLineCreds)).1
    (runWith answerWritten 0 (wfrNetConnectInterfaces twoLineCreds)).2 := run_runWith ..

private theorem mem_twoLine : ⟨.writeFile (wpaConfPath (ascii "wlan0")) (wpaConfText twoLineCreds), true⟩ ∈
    (runWith answerWritten 0 (wfrNetConnectInterfaces twoLineCreds)).1 := by
  decide +kernel

theorem wpaConf_faithful_iff_twoLine :
    FaithfulConf twoLineCreds (wpaConfText twoLineCreds) ↔ OnOneLine twoLineCreds :=
  wpaConf_faithful_iff _ _ _ run_twoLine _ _ _ mem_twoLine (by decide +kernel)

theorem wpaConf_extra_lines :
    wfrParseWifiString (ascii "WIFI:T:WPA;S:a\"\npriority=9\nssid=\"b;P:password;;") = some twoLineCreds ∧
      ∃ tr b, Run (wfrNetConnectInterfaces twoLineCreds) tr b ∧
        ⟨.writeFile (wpaConfPath (ascii "wlan0")) (wpaConfText twoLineCreds), true⟩ ∈ tr ∧
        ¬ FaithfulConf twoLineCreds (wpaConfText twoLineCreds) := by
  refine ⟨by decide +kernel, _, _, run_twoLine, mem_twoLine, fun hfaithful => ?_⟩
  have hline := ((faithfulConf_iff twoLineCreds).mp hfaithful).1
  exact absurd hline (by decide +kernel)

end InfraFi.Daemon
