import InfraFi.Daemon.Calls
import InfraFi.Protocol.WifiString

/-! # The network back-ends

NetworkManager through `nmcli`, systemd-networkd through `wpa_cli`, and
ifupdown through files of its own. Every command line is built with `snprintf`
into a buffer of fixed size.
-/
namespace InfraFi.Daemon
open Base Protocol

def quote : UInt8 := 0x27

/-- The bytes that `shell_escape` writes from `pos` on; `none` is its result 0. -/
def shellEscapeFrom (dstSize : ℕ) : Bytes → ℕ → Option Bytes
  | [], pos => if pos + 1 ≥ dstSize then none else some [quote]
  | c :: src, pos =>
    if c = quote then
      if pos + 4 ≥ dstSize then none
      else (shellEscapeFrom dstSize src (pos + 4)).map (ascii "'\\''" ++ ·)
    else if pos + 1 ≥ dstSize then none
    else (shellEscapeFrom dstSize src (pos + 1)).map (c :: ·)

/-- Wraps a string in single quotes and escapes the single quotes in it. -/
def shellEscape (src : Bytes) (dstSize : ℕ) : Option Bytes :=
  if 0 ≥ dstSize then none else (shellEscapeFrom dstSize src 1).map (quote :: ·)

def verifyConnectivity : Cmd Bool :=
  call (.getaddrinfo (ascii "connectivitycheck.gstatic.com") (ascii "80"))

def wpaStateCmd (iface : Bytes) : Bytes :=
  snprintf 256 (ascii "wpa_cli -i " ++ iface ++
    ascii " status 2>/dev/null | grep '^wpa_state=' | cut -d= -f2")

/-- The state that `wpa_cli` reports, if it reports one. -/
def getWpaState (iface : Bytes) : Cmd (Option Bytes) := runCmdLine (wpaStateCmd iface) 64

def wpaSsidCmd (iface : Bytes) : Bytes :=
  snprintf 256 (ascii "wpa_cli -i " ++ iface ++
    ascii " status 2>/dev/null | grep '^ssid=' | cut -d= -f2")

/-- The SSID that `wpa_supplicant` is connected to, if it can be read. -/
def getWpaSsid (iface : Bytes) (outSize : ℕ) : Cmd (Option Bytes) :=
  runCmdLine (wpaSsidCmd iface) outSize

/-- The polls that are left of `wait_for_wpa_association`. -/
def waitForWpaAssociationFrom (iface targetSsid : Bytes) : ℕ → ℕ → Cmd ℤ
  | 0, _ => return 0
  | polls + 1, elapsed => do
    call (.sleep 2)
    match ← getWpaState iface with
    | none => return 0
    | some state =>
      if state = ascii "COMPLETED" then
        match ← getWpaSsid iface (wfrSsidMaxLen + 1) with
        | some connectedSsid => if connectedSsid ≠ targetSsid then return -1 else return 1
        | none => return 1
      else if state = ascii "DISCONNECTED" ∧ elapsed > 6 then return -1
      else waitForWpaAssociationFrom iface targetSsid polls (elapsed + 2)

/-- 1 = COMPLETED, 0 = timeout or unknown, -1 = authentication failure. -/
def waitForWpaAssociation (iface targetSsid : Bytes) (maxWait : ℕ) : Cmd ℤ :=
  waitForWpaAssociationFrom iface targetSsid ((maxWait + 1) / 2) 0

def ipAddrCmd (iface : Bytes) : Bytes :=
  snprintf 256 (ascii "ip -4 addr show " ++ iface ++
    ascii " 2>/dev/null | grep -oP 'inet \\K[0-9.]+'")

def linkLocal (ip : Bytes) : Bool := ip.take 8 = ascii "169.254."

/-- The polls that are left of `wait_for_dhcp`. -/
def waitForDhcpFrom (iface : Bytes) : ℕ → Cmd Bool
  | 0 => return false
  | polls + 1 => do
    call (.sleep 2)
    match ← runCmdLine (ipAddrCmd iface) 64 with
    | some ip => if ¬ linkLocal ip then return true else waitForDhcpFrom iface polls
    | none => waitForDhcpFrom iface polls

def waitForDhcp (iface : Bytes) (maxWait : ℕ) : Cmd Bool :=
  waitForDhcpFrom iface ((maxWait + 1) / 2)

def detectCmd : Bytes :=
  ascii ("for d in /sys/class/net/*/wireless; do [ -d \"$d\" ] && basename \"$(dirname \"$d\")\" " ++
    "&& break; done")

def detectWifiIface (outSize : ℕ) : Cmd (Option Bytes) := do
  match ← runCmdLine detectCmd 32 with
  | some iface => return some (snprintf outSize iface)
  | none => return none

def wfrNetHasNetworkmanager : Cmd Bool := do
  if (← runCmd (ascii "which nmcli >/dev/null 2>&1")) ≠ 0 then return false
  return (← runCmd (ascii "systemctl is-active --quiet NetworkManager")) = 0

def hasSystemdNetworkd : Cmd Bool := do
  return (← runCmd (ascii "systemctl is-active --quiet systemd-networkd")) = 0

/-- The SSID that `wpa_cli` reports. -/
def getCurrentFromWpa (outSize : ℕ) : Cmd (Option Bytes) := do
  match ← detectWifiIface 32 with
  | some iface => getWpaSsid iface outSize
  | none => return none

/-- `none` is the result false, which leaves an empty string behind. -/
def wfrNetGetCurrent (outSize : ℕ) : Cmd (Option Bytes) := do
  if ← wfrNetHasNetworkmanager then
    let (gotLine, line) ← runCmdOutput
      (ascii "nmcli -t -f active,ssid dev wifi 2>/dev/null | grep '^yes:'") [] 256
    let ssid := (line.dropWhile (· ≠ colon)).drop 1
    if gotLine ∧ ssid ≠ [] then return some (snprintf outSize ssid)
    else getCurrentFromWpa outSize
  else getCurrentFromWpa outSize

def nmcliConnectCmd (creds : WfrWifiCreds) (escapedSsid escapedPass : Bytes) : Bytes :=
  let hidden := if creds.hidden then ascii " hidden yes" else []
  if creds.security = wfrSecOpen then
    snprintf 1024 (ascii "nmcli dev wifi connect " ++ escapedSsid ++ hidden ++ ascii " 2>&1")
  else
    snprintf 1024 (ascii "nmcli dev wifi connect " ++ escapedSsid ++ ascii " password " ++
      escapedPass ++ hidden ++ ascii " 2>&1")

def wfrNetConnectNmcli (creds : WfrWifiCreds) : Cmd Bool := do
  match shellEscape creds.ssid.bytes 256, shellEscape creds.password.bytes 256 with
  | none, _ => return false
  | some escapedSsid, escapedPass =>
    if creds.security ≠ wfrSecOpen ∧ escapedPass = none then return false
    let status ← runCmd (nmcliConnectCmd creds escapedSsid (escapedPass.getD []))
    if status ≠ 0 then return false
    call (.sleep 3)
    let _ ← verifyConnectivity
    return true

/-- `wpa_cli -i <iface> <command> 2>/dev/null`. -/
def wpaCliCmd (size : ℕ) (iface command : Bytes) : Bytes :=
  snprintf size (ascii "wpa_cli -i " ++ iface ++ ascii " " ++ command ++ ascii " 2>/dev/null")

def setNetworkCmd (iface netId setting : Bytes) : Bytes :=
  wpaCliCmd 512 iface (ascii "set_network " ++ netId ++ ascii " " ++ setting)

def setSsidCmd (iface netId ssid : Bytes) : Bytes :=
  setNetworkCmd iface netId (ascii "ssid '\"" ++ ssid ++ ascii "\"'")

def setPskCmd (iface netId password : Bytes) : Bytes :=
  setNetworkCmd iface netId (ascii "psk '\"" ++ password ++ ascii "\"'")

/-- Sets the security type and the password of the new network. -/
def setSecurity (iface netId : Bytes) (creds : WfrWifiCreds) : Cmd Bool := do
  if creds.security = wfrSecOpen then
    let _ ← runWpaCmd (setNetworkCmd iface netId (ascii "key_mgmt NONE"))
    return true
  else if creds.security = wfrSecSae then
    if ¬ (← runWpaCmd (setNetworkCmd iface netId (ascii "key_mgmt SAE"))) then return false
    runWpaCmd (setPskCmd iface netId creds.password.bytes)
  else runWpaCmd (setPskCmd iface netId creds.password.bytes)

def setHidden (iface netId : Bytes) (creds : WfrWifiCreds) : Cmd Unit := do
  if creds.hidden then
    let _ ← runWpaCmd (setNetworkCmd iface netId (ascii "scan_ssid 1"))

/-- Waits for the association and an address, then saves the configuration. -/
def finishNetworkd (iface : Bytes) (creds : WfrWifiCreds) : Cmd Bool := do
  let wpaResult ← waitForWpaAssociation iface creds.ssid.bytes 20
  if wpaResult ≤ 0 then return false
  let _ ← runCmd (snprintf 512 (ascii "dhclient -r " ++ iface ++ ascii " 2>/dev/null; dhclient " ++
    iface ++ ascii " 2>/dev/null"))
  if ¬ (← waitForDhcp iface 15) then return false
  let _ ← verifyConnectivity
  let _ ← runWpaCmd (wpaCliCmd 512 iface (ascii "set update_config 1"))
  let _ ← runWpaCmd (wpaCliCmd 512 iface (ascii "save_config"))
  return true

def wfrNetConnectNetworkd (creds : WfrWifiCreds) : Cmd Bool := do
  match ← detectWifiIface 32 with
  | none => return false
  | some iface =>
    let (gotLine, netId) ← runCmdOutput (wpaCliCmd 512 iface (ascii "add_network")) [] 8
    if ¬ gotLine ∨ netId = ascii "FAIL" then return false
    if ¬ (← runWpaCmd (setSsidCmd iface netId creds.ssid.bytes)) then return false
    if ¬ (← setSecurity iface netId creds) then return false
    setHidden iface netId creds
    if ¬ (← runWpaCmd (wpaCliCmd 512 iface (ascii "select_network " ++ netId))) then return false
    finishNetworkd iface creds

def confPath : Bytes := ascii "/etc/network/interfaces.d/infrafid"

def wpaConfPath (iface : Bytes) : Bytes :=
  snprintf 128 (ascii "/etc/wpa_supplicant/wpa_supplicant-infrafid-" ++ iface ++ ascii ".conf")

/-- The text of the `wpa_supplicant` configuration. -/
def wpaConfText (creds : WfrWifiCreds) : Bytes :=
  let psk := ascii "    psk=\"" ++ creds.password.bytes ++ ascii "\"\n"
  ascii "ctrl_interface=DIR=/var/run/wpa_supplicant GROUP=netdev\n" ++ ascii "update_config=1\n\n" ++
    ascii "network=\x7b\n" ++ ascii "    ssid=\"" ++ creds.ssid.bytes ++ ascii "\"\n" ++
    (if creds.security = wfrSecOpen then ascii "    key_mgmt=NONE\n"
     else if creds.security = wfrSecSae then ascii "    key_mgmt=SAE\n" ++ psk
     else psk) ++
    (if creds.hidden then ascii "    scan_ssid=1\n" else []) ++ ascii "\x7d\n"

/-- The text of the interfaces configuration. -/
def ifcfgText (iface : Bytes) : Bytes :=
  ascii "# Managed by infrafid\n" ++ ascii "auto " ++ iface ++ ascii "\niface " ++ iface ++
    ascii " inet dhcp\n" ++ ascii "    wpa-conf " ++ wpaConfPath iface ++ ascii "\n"

/-- Writes both configuration files; false when one of them cannot be opened. -/
def writeConfig (iface : Bytes) (creds : WfrWifiCreds) : Cmd Bool := do
  if ¬ (← call (.writeFile (wpaConfPath iface) (wpaConfText creds))) then return false
  if ¬ (← call (.writeFile confPath (ifcfgText iface))) then
    let _ ← call (.unlink (wpaConfPath iface))
    return false
  return true

/-- Restarts the interface and waits for the association and an address. -/
def finishInterfaces (iface : Bytes) (creds : WfrWifiCreds) : Cmd Bool := do
  let _ ← runCmd (snprintf 256 (ascii "wpa_cli -i " ++ iface ++
    ascii " terminate 2>/dev/null; sleep 1"))
  let _ ← runCmd (snprintf 256 (ascii "ifdown " ++ iface ++ ascii " 2>&1; ifup " ++ iface ++
    ascii " 2>&1"))
  let wpaResult ← waitForWpaAssociation iface creds.ssid.bytes 20
  -- the timeout and unknown results go on to the DHCP wait
  if wpaResult < 0 then return false
  if ¬ (← waitForDhcp iface 15) then return false
  let _ ← verifyConnectivity
  return true

def wfrNetConnectInterfaces (creds : WfrWifiCreds) : Cmd Bool := do
  match ← detectWifiIface 32 with
  | none => return false
  | some iface =>
    if ¬ (← writeConfig iface creds) then return false
    finishInterfaces iface creds

def wfrNetConnect (creds : WfrWifiCreds) : Cmd Bool := do
  if creds.ssid.bytes = [] then return false
  if ← wfrNetHasNetworkmanager then wfrNetConnectNmcli creds
  else if ← hasSystemdNetworkd then wfrNetConnectNetworkd creds
  else wfrNetConnectInterfaces creds

def rollbackNmcli (ssid : Bytes) : Cmd Bool := do
  match shellEscape ssid 256 with
  | none => return false
  | some escapedSsid =>
    let status ← runCmd (snprintf 512 (ascii "nmcli con up " ++ escapedSsid ++ ascii " 2>&1"))
    return status = 0

def rmConfCmd : Bytes :=
  ascii "rm -f /etc/wpa_supplicant/wpa_supplicant-infrafid-*.conf 2>/dev/null"

/-- Kills our `wpa_supplicant` and removes the configuration. -/
def rollbackInterfaces (iface : Bytes) : Cmd Bool := do
  let _ ← runCmd (wpaCliCmd 256 iface (ascii "terminate"))
  let _ ← runCmd (snprintf 256 (ascii "ifdown " ++ iface ++ ascii " 2>&1"))
  let _ ← call (.unlink confPath)
  let _ ← runCmd rmConfCmd
  let _ ← runCmd (snprintf 256 (ascii "ifup " ++ iface ++ ascii " 2>&1"))
  return true

def wfrNetRollback (ssid : Bytes) : Cmd Bool := do
  if ssid = [] then return false
  if ← wfrNetHasNetworkmanager then rollbackNmcli ssid
  else
    match ← detectWifiIface 32 with
    | none => return false
    | some iface =>
      if ← hasSystemdNetworkd then
        let _ ← runWpaCmd (wpaCliCmd 256 iface (ascii "reconfigure"))
        return true
      else rollbackInterfaces iface

/-- The result, and the text left in `out`, which is not empty on failure in every case. -/
def wfrNetGetIp (out : Bytes) (outSize : ℕ) : Cmd (Bool × Bytes) := do
  match ← detectWifiIface 32 with
  | none => return (false, out)
  | some iface =>
    let (gotLine, out) ← runCmdOutput (ipAddrCmd iface) out outSize
    return (gotLine ∧ out ≠ [] ∧ ¬ linkLocal out, out)

/-! ## Interface detection and address lookup -/

theorem run_detectWifiIface {tr : Trace} {r : Option Bytes} :
    Prog.Run (detectWifiIface 32) tr r ↔
      ∃ x, tr = [⟨.popen detectCmd, x⟩] ∧ r = answerLine 32 x := by
  have hshort {x : Option Bytes} {iface : Bytes} (h : answerLine 32 x = some iface) :
      snprintf 32 iface = iface :=
    snprintf_of_lt (Nat.lt_succ_of_le (answerLine_eq_some h).2.2)
  constructor
  · intro h
    rcases Prog.run_bind.mp h with ⟨t₁, line, t₂, rfl, h₁, h₂⟩
    rcases run_runCmdLine.mp h₁ with ⟨x, rfl, rfl⟩
    refine ⟨x, ?_⟩
    cases hline : answerLine 32 x with
    | none =>
      rw [hline] at h₂
      rcases Prog.run_pure.mp h₂ with ⟨rfl, rfl⟩
      exact ⟨rfl, rfl⟩
    | some iface =>
      rw [hline] at h₂
      rcases Prog.run_pure.mp h₂ with ⟨rfl, rfl⟩
      exact ⟨rfl, by rw [hshort hline]⟩
  · rintro ⟨x, rfl, rfl⟩
    refine Prog.run_bind.mpr ⟨_, _, [], rfl, run_runCmdLine.mpr ⟨x, rfl, rfl⟩, ?_⟩
    cases hline : answerLine 32 x with
    | none => exact Prog.run_pure.mpr ⟨rfl, rfl⟩
    | some iface => exact Prog.run_pure.mpr ⟨rfl, by rw [hshort hline]⟩

/-- The lookup runs commands only. It leaves a string that fits its buffer, and not the
empty one on success. -/
theorem run_wfrNetGetIp {size : ℕ} {tr : Trace} {r : Bool × Bytes}
    (h : Prog.Run (wfrNetGetIp [] size) tr r) :
    (∀ e ∈ tr, ∃ cmd x, e = ⟨.popen cmd, x⟩) ∧
      0 ∉ r.2 ∧ r.2.length ≤ size - 1 ∧ (r.1 = true → r.2 ≠ []) := by
  rcases Prog.run_bind.mp h with ⟨t₁, iface, t₂, rfl, h₁, h₂⟩
  rcases run_detectWifiIface.mp h₁ with ⟨x, rfl, rfl⟩
  cases hiface : answerLine 32 x with
  | none =>
    rw [hiface] at h₂
    rcases Prog.run_pure.mp h₂ with ⟨rfl, rfl⟩
    simp
  | some iface =>
    rw [hiface] at h₂
    rcases Prog.run_bind.mp h₂ with ⟨t₃, line, t₄, rfl, h₃, h₄⟩
    rcases run_runCmdOutput.mp h₃ with ⟨y, rfl, rfl⟩
    rcases Prog.run_pure.mp h₄ with ⟨rfl, rfl⟩
    rcases lineInto_text size y with ⟨h0, hlen⟩
    refine ⟨by simp, h0, hlen, fun hok => ?_⟩
    simp only [decide_eq_true_eq] at hok
    exact hok.2.1

/-- The three ways of writing the configuration: no first file, no second file, both. -/
theorem run_writeConfig {iface : Bytes} {creds : WfrWifiCreds} {tr : Trace} {ok : Bool}
    (h : Prog.Run (writeConfig iface creds) tr ok) :
    tr = [⟨.writeFile (wpaConfPath iface) (wpaConfText creds), false⟩] ∧ ok = false ∨
    (∃ u, tr = [⟨.writeFile (wpaConfPath iface) (wpaConfText creds), true⟩,
      ⟨.writeFile confPath (ifcfgText iface), false⟩, ⟨.unlink (wpaConfPath iface), u⟩]) ∧
        ok = false ∨
    tr = [⟨.writeFile (wpaConfPath iface) (wpaConfText creds), true⟩,
      ⟨.writeFile confPath (ifcfgText iface), true⟩] ∧ ok = true := by
  rcases run_guard h with ⟨rfl, h₁⟩ | ⟨t₁, t₂, rfl, h₁, h₂⟩
  · exact .inl ⟨run_call.mp h₁, rfl⟩
  obtain rfl := run_call.mp h₁
  rcases Prog.run_bind.mp h₂ with ⟨t₃, written, t₄, rfl, h₃, h₄⟩
  obtain rfl := run_call.mp h₃
  cases written with
  | false =>
    rcases Prog.run_bind.mp h₄ with ⟨t₅, u, t₆, rfl, h₅, h₆⟩
    obtain rfl := run_call.mp h₅
    rcases Prog.run_pure.mp h₆ with ⟨rfl, rfl⟩
    exact .inr (.inl ⟨⟨u, rfl⟩, rfl⟩)
  | true =>
    rcases Prog.run_pure.mp h₄ with ⟨rfl, rfl⟩
    exact .inr (.inr ⟨rfl, rfl⟩)

end InfraFi.Daemon
