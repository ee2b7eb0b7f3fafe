import InfraFi.Daemon.Main
import InfraFi.Daemon.Association
import Mathlib.Data.List.Infix

/-! # What each function of the daemon can ask for

Calls are sorted by what they are for. The footprint of a function is the list
of the kinds of all calls that it can make, whatever the answers.
-/
namespace InfraFi.Daemon
open Base Protocol Prog

/-- The commands that change the networks of `wpa_supplicant`. -/
inductive WpaCommand where
  | addNetwork
  | setNetwork
  | saveConfig
  | reconfigure
deriving DecidableEq

/-- The end of a `wpa_cli` command line whose last word is `word`. -/
def lastWord (word : String) : Bytes := ascii " " ++ ascii word ++ ascii " 2>/dev/null"

/-- The command that a `wpa_cli` command line gives, if it changes the networks. -/
def wpaCommand (cmd : Bytes) : Option WpaCommand :=
  if ¬ (ascii "wpa_cli -i " <+: cmd ∧ ascii " 2>/dev/null" <:+ cmd) then none
  else if lastWord "add_network" <:+ cmd then some .addNetwork
  else if lastWord "save_config" <:+ cmd then some .saveConfig
  else if lastWord "reconfigure" <:+ cmd then some .reconfigure
  else if ascii " set_network " <:+: cmd then some .setNetwork
  else none

inductive CallKind where
  | command
  /-- The command that removes all `wpa_supplicant` configurations of ours. -/
  | removal
  | query
  | wpa (c : WpaCommand)
  | pause
  | lookup
  | file
  | scancode
deriving DecidableEq

def Call.kind : Call → CallKind
  | .system cmd => if cmd = rmConfCmd then .removal else .command
  | .popen cmd => ((wpaCommand cmd).map .wpa).getD .query
  | .sleep _ => .pause
  | .delayMs _ => .pause
  | .getaddrinfo _ _ => .lookup
  | .writeFile _ _ => .file
  | .unlink _ => .file
  | .writeScancode _ _ => .scancode

/-- The program makes calls of the given kinds only. -/
abbrev Kinds (ks : List CallKind) {α : Type} (p : Cmd α) : Prop := p.Only (fun c => c.kind ∈ ks)

section Rules
variable {α : Type} {ks ks' : List CallKind} {p : Cmd α}

theorem Kinds.mono (hp : Kinds ks p) (h : ks ⊆ ks') : Kinds ks' p := Only.mono (fun _ hc => h hc) hp

theorem Kinds.run (hp : Kinds ks p) {tr : Trace} {a : α} (h : Run p tr a) :
    ∀ e ∈ tr, e.1.kind ∈ ks := h.only hp

theorem kinds_call {c : Call} (h : c.kind ∈ ks) : Kinds ks (call c) := only_request h

/-- `if(!p) return false; f`. -/
theorem kinds_guard {p f : Cmd Bool} (hp : Kinds ks p) (hf : Kinds ks f) :
    Kinds ks (p >>= fun ok => if ¬ ok = true then pure false else f) :=
  hp.bind fun _ => (only_pure _).ite hf

theorem kinds_read {c : Call} {f : c.Answer → α} (h : c.kind ∈ ks) :
    Kinds ks (do return f (← call c)) :=
  (kinds_call h).bind fun _ => only_pure _

/-- The command that removes the configurations is the only one that starts with an `r`. -/
theorem kinds_runCmd {cmd : Bytes} {c : UInt8} (h : cmd.head? = some c) (hc : c ≠ 0x72)
    (hks : .command ∈ ks) : Kinds ks (runCmd cmd) := by
  have hne : cmd ≠ rmConfCmd := by
    rintro rfl
    exact hc (Option.some.inj h.symm)
  apply kinds_read
  rwa [Call.kind, if_neg hne]

end Rules

/-! ## Reading command lines -/

section Reading

/-- A command line that goes on behind `wpa_cli` is a query. -/
theorem kind_of_getLast? {cmd : Bytes} {c : UInt8} (h : cmd.getLast? = some c) (hc : c ≠ 0x6C) :
    (Call.popen cmd).kind = .query := by
  have hnull : ¬ ascii " 2>/dev/null" <:+ cmd := by
    intro hsuffix
    have hl : [0x6C] <:+ cmd := List.IsSuffix.trans ⟨ascii " 2>/dev/nul", rfl⟩ hsuffix
    rw [List.singleton_suffix_iff_getLast?_eq_some, h, Option.some.injEq] at hl
    exact hc hl
  simp [Call.kind, wpaCommand, hnull]

variable {iface command : Bytes} {size : ℕ} (hi : iface.length ≤ 31)
include hi

theorem kind_wpaStateCmd : (Call.popen (wpaStateCmd iface)).kind = .query := by
  apply kind_of_getLast? (c := 0x32) _ (by decide)
  rw [wpaStateCmd_eq hi, List.getLast?_append]
  rfl

theorem kind_wpaSsidCmd : (Call.popen (wpaSsidCmd iface)).kind = .query := by
  apply kind_of_getLast? (c := 0x32) _ (by decide)
  rw [wpaSsidCmd_eq hi, List.getLast?_append]
  rfl

theorem kind_ipAddrCmd : (Call.popen (ipAddrCmd iface)).kind = .query := by
  apply kind_of_getLast? (c := 0x27) _ (by decide)
  rw [ipAddrCmd_eq hi, List.getLast?_append]
  rfl

theorem wpaCliCmd_eq (h : command.length + 56 ≤ size) : wpaCliCmd size iface command =
    ascii "wpa_cli -i " ++ iface ++ ascii " " ++ command ++ ascii " 2>/dev/null" := by
  have hlens : (ascii "wpa_cli -i ").length = 11 ∧ (ascii " ").length = 1 ∧
      (ascii " 2>/dev/null").length = 12 := by decide
  rw [wpaCliCmd, snprintf_of_lt]
  simp only [List.length_append, hlens]
  omega

theorem lastWord_suffix_iff (h : command.length + 56 ≤ size) {word : String} :
    lastWord word <:+ wpaCliCmd size iface command ↔
      ascii " " ++ ascii word <:+ ascii "wpa_cli -i " ++ iface ++ ascii " " ++ command := by
  rw [wpaCliCmd_eq hi h, lastWord]
  exact List.suffix_append_self_iff

theorem isWpaCli (h : command.length + 56 ≤ size) :
    ascii "wpa_cli -i " <+: wpaCliCmd size iface command ∧
      ascii " 2>/dev/null" <:+ wpaCliCmd size iface command := by
  rw [wpaCliCmd_eq hi h]
  refine ⟨?_, List.suffix_append _ _⟩
  simp only [List.append_assoc]
  exact List.prefix_append _ _

/-- The last words are told apart by their last letters. -/
theorem not_lastWord {word : String} {c d : UInt8} (h : command.length + 56 ≤ size)
    (hcommand : command.getLast? = some c) (hword : (ascii word).getLast? = some d) (hne : c ≠ d) :
    ¬ lastWord word <:+ wpaCliCmd size iface command := by
  rw [lastWord_suffix_iff hi h]
  intro hsuffix
  have hd : [d] <:+ ascii " " ++ ascii word := by
    rw [List.singleton_suffix_iff_getLast?_eq_some, List.getLast?_append, hword]
    rfl
  have hc := hd.trans hsuffix
  rw [List.singleton_suffix_iff_getLast?_eq_some, List.getLast?_append, hcommand] at hc
  exact hne (Option.some.inj hc)

theorem lastWord_suffix {word : String} (h : (ascii word).length + 56 ≤ size) :
    lastWord word <:+ wpaCliCmd size iface (ascii word) := by
  rw [lastWord_suffix_iff hi h, List.append_assoc, List.append_assoc]
  exact (List.suffix_append _ _).trans (List.suffix_append _ _)

theorem kind_addNetwork :
    (Call.popen (wpaCliCmd 512 iface (ascii "add_network"))).kind = .wpa .addNetwork := by
  have hlen : (ascii "add_network").length + 56 ≤ 512 := by decide
  rw [Call.kind, wpaCommand, if_neg (not_not.mpr (isWpaCli hi hlen)), if_pos (lastWord_suffix hi hlen)]
  rfl

theorem kind_saveConfig :
    (Call.popen (wpaCliCmd 512 iface (ascii "save_config"))).kind = .wpa .saveConfig := by
  have hlen : (ascii "save_config").length + 56 ≤ 512 := by decide
  have hadd : ¬ lastWord "add_network" <:+ wpaCliCmd 512 iface (ascii "save_config") :=
    not_lastWord hi hlen (c := 0x67) (d := 0x6B) rfl rfl (by decide)
  rw [Call.kind, wpaCommand, if_neg (not_not.mpr (isWpaCli hi hlen)), if_neg hadd,
    if_pos (lastWord_suffix hi hlen)]
  rfl

theorem kind_reconfigure :
    (Call.popen (wpaCliCmd 256 iface (ascii "reconfigure"))).kind = .wpa .reconfigure := by
  have hlen : (ascii "reconfigure").length + 56 ≤ 256 := by decide
  have hadd : ¬ lastWord "add_network" <:+ wpaCliCmd 256 iface (ascii "reconfigure") :=
    not_lastWord hi hlen (c := 0x65) (d := 0x6B) rfl rfl (by decide)
  have hsave : ¬ lastWord "save_config" <:+ wpaCliCmd 256 iface (ascii "reconfigure") :=
    not_lastWord hi hlen (c := 0x65) (d := 0x67) rfl rfl (by decide)
  rw [Call.kind, wpaCommand, if_neg (not_not.mpr (isWpaCli hi hlen)), if_neg hadd, if_neg hsave,
    if_pos (lastWord_suffix hi hlen)]
  rfl

/-- The letters that end the commands which add, save or reload networks. -/
def wordEnds : Bytes := ascii "kge"

theorem kind_of_notMem_wordEnds {c : UInt8} (h : command.length + 56 ≤ size)
    (hcommand : command.getLast? = some c) (hc : c ∉ wordEnds) :
    (Call.popen (wpaCliCmd size iface command)).kind =
      if ascii " set_network " <:+: wpaCliCmd size iface command then .wpa .setNetwork else .query := by
  have hne : c ≠ 0x6B ∧ c ≠ 0x67 ∧ c ≠ 0x65 := by simpa [wordEnds, ascii] using hc
  rw [Call.kind, wpaCommand, if_neg (not_not.mpr (isWpaCli hi h)),
    if_neg (not_lastWord hi h hcommand (d := 0x6B) rfl hne.1),
    if_neg (not_lastWord hi h hcommand (d := 0x67) rfl hne.2.1),
    if_neg (not_lastWord hi h hcommand (d := 0x65) rfl hne.2.2)]
  split <;> rfl

theorem kind_setNetworkCmd {netId setting : Bytes} {c : UInt8} (hid : netId.length ≤ 7)
    (h : setting.length ≤ 400) (hsetting : setting.getLast? = some c) (hc : c ∉ wordEnds) :
    (Call.popen (setNetworkCmd iface netId setting)).kind = .wpa .setNetwork := by
  have hlens : (ascii "set_network ").length = 12 ∧ (ascii " ").length = 1 := by decide
  have hlen : (ascii "set_network " ++ netId ++ ascii " " ++ setting).length + 56 ≤ 512 := by
    simp only [List.length_append, hlens]
    omega
  have hinfix : ascii " set_network " <:+: setNetworkCmd iface netId setting := by
    rw [setNetworkCmd, wpaCliCmd_eq hi hlen]
    exact ⟨ascii "wpa_cli -i " ++ iface, netId ++ ascii " " ++ setting ++ ascii " 2>/dev/null", by
      simp only [List.append_assoc]
      rfl⟩
  have hlast : (ascii "set_network " ++ netId ++ ascii " " ++ setting).getLast? = some c := by
    rw [List.getLast?_append, hsetting]
    rfl
  rw [setNetworkCmd, kind_of_notMem_wordEnds hi hlen hlast hc]
  exact if_pos hinfix

/-- A network id is too short to hold one of the last words. -/
theorem kind_selectNetwork {netId : Bytes} (hid : netId.length ≤ 7) :
    (Call.popen (wpaCliCmd 512 iface (ascii "select_network " ++ netId))).kind ∈
      [.query, .wpa .setNetwork] := by
  have hlens : (ascii "select_network ").length = 15 := by decide
  have hlen : (ascii "select_network " ++ netId).length + 56 ≤ 512 := by
    simp only [List.length_append, hlens]
    omega
  have hword {word : String} (hw : 8 < (ascii " " ++ ascii word).length) (hspace : 0x20 ∉ ascii word) :
      ¬ lastWord word <:+ wpaCliCmd 512 iface (ascii "select_network " ++ netId) := by
    rw [lastWord_suffix_iff hi hlen]
    intro hsuffix
    have hspaced : 0x20 :: netId <:+ ascii "wpa_cli -i " ++ iface ++ ascii " " ++
        (ascii "select_network " ++ netId) :=
      ⟨ascii "wpa_cli -i " ++ iface ++ ascii " " ++ ascii "select_network", by
        simp only [List.append_assoc]
        rfl⟩
    have hshort := List.suffix_of_suffix_length_le hspaced hsuffix (by
      rw [List.length_cons]
      omega)
    rcases List.suffix_cons_iff.mp hshort with heq | htail
    · have hlength := congrArg List.length heq
      simp only [List.length_cons] at hlength
      simp only [List.length_append] at hw
      have h1 : (ascii " ").length = 1 := rfl
      simp at hlength
      omega
    · exact hspace (htail.subset List.mem_cons_self)
  rw [Call.kind, wpaCommand, if_neg (not_not.mpr (isWpaCli hi hlen)),
    if_neg (hword (by decide) (by decide)), if_neg (hword (by decide) (by decide)),
    if_neg (hword (by decide) (by decide))]
  split <;> simp

end Reading

/-! ## Footprints -/

section Footprints

theorem kinds_detectWifiIface (size : ℕ) : Kinds [.query] (detectWifiIface size) := by
  have hquery : (Call.popen detectCmd).kind ∈ [CallKind.query] := by
    rw [kind_of_getLast? (c := 0x65) rfl (by decide)]
    simp
  apply (kinds_read hquery).bind
  intro line
  cases line <;> exact only_pure _

theorem kinds_hasNetworkmanager : Kinds [.command] wfrNetHasNetworkmanager :=
  (kinds_runCmd rfl (by decide) (by simp)).bind fun _ =>
    (only_pure _).ite ((kinds_runCmd rfl (by decide) (by simp)).bind fun _ => only_pure _)

theorem kinds_hasSystemdNetworkd : Kinds [.command] hasSystemdNetworkd :=
  (kinds_runCmd rfl (by decide) (by simp)).bind fun _ => only_pure _

theorem length_of_detectWifiIface {iface : Bytes} {tr : Trace}
    (h : Run (detectWifiIface 32) tr (some iface)) : iface.length ≤ 31 := by
  rcases run_detectWifiIface.mp h with ⟨x, -, hx⟩
  exact (answerLine_eq_some hx.symm).2.2

/-- What is asked of the interface that was found; its name fits the buffer. -/
theorem kinds_found {α : Type} {ks : List CallKind} {f : Option Bytes → Cmd α}
    (hks : .query ∈ ks) (hnone : Kinds ks (f none))
    (hf : ∀ iface : Bytes, iface.length ≤ 31 → Kinds ks (f (some iface))) :
    Kinds ks (detectWifiIface 32 >>= f) := by
  apply ((kinds_detectWifiIface 32).mono (by simpa using hks)).bind_of_run
  intro tr found hrun
  cases found with
  | none => exact hnone
  | some iface => exact hf iface (length_of_detectWifiIface hrun)

theorem kinds_getCurrentFromWpa (size : ℕ) : Kinds [.query] (getCurrentFromWpa size) := by
  refine kinds_found (by simp) ?_ fun iface hi => ?_
  · exact only_pure _
  apply kinds_read
  simp [kind_wpaSsidCmd hi]

theorem kinds_wfrNetGetCurrent (size : ℕ) : Kinds [.command, .query] (wfrNetGetCurrent size) := by
  have hwpa : Kinds [.command, .query] (getCurrentFromWpa size) :=
    (kinds_getCurrentFromWpa size).mono (by simp)
  apply (kinds_hasNetworkmanager.mono (by simp)).bind
  intro nm
  apply Only.ite _ hwpa
  have hquery : (Call.popen (ascii
      "nmcli -t -f active,ssid dev wifi 2>/dev/null | grep '^yes:'")).kind ∈
        [CallKind.command, .query] := by
    rw [kind_of_getLast? (c := 0x27) rfl (by decide)]
    simp
  exact (kinds_read hquery).bind fun _ => (only_pure _).ite hwpa

section Waits
variable {iface : Bytes} (hi : iface.length ≤ 31)
include hi

theorem kinds_waitForWpaAssociationFrom (target : Bytes) (polls elapsed : ℕ) :
    Kinds [.pause, .query] (waitForWpaAssociationFrom iface target polls elapsed) := by
  induction polls generalizing elapsed with
  | zero => exact only_pure _
  | succ polls ih =>
    apply (kinds_call (by simp [Call.kind])).bind
    intro u
    apply (kinds_read (by simp [kind_wpaStateCmd hi])).bind
    intro state
    cases state with
    | none => exact only_pure _
    | some state =>
      apply Only.ite _ ((only_pure _).ite (ih _))
      apply (kinds_read (by simp [kind_wpaSsidCmd hi])).bind
      intro read
      cases read with
      | none => exact only_pure _
      | some read => exact (only_pure _).ite (only_pure _)

theorem kinds_waitForDhcpFrom (polls : ℕ) :
    Kinds [.pause, .query] (waitForDhcpFrom iface polls) := by
  induction polls with
  | zero => exact only_pure _
  | succ polls ih =>
    apply (kinds_call (by simp [Call.kind])).bind
    intro u
    apply (kinds_read (by simp [kind_ipAddrCmd hi])).bind
    intro ip
    cases ip with
    | none => exact ih
    | some ip => exact (only_pure _).ite ih

end Waits

theorem kinds_verifyConnectivity : Kinds [.lookup] verifyConnectivity := kinds_call (by simp [Call.kind])

theorem kinds_wfrNetConnectNmcli (creds : WfrWifiCreds) :
    Kinds [.command, .pause, .lookup] (wfrNetConnectNmcli creds) := by
  unfold wfrNetConnectNmcli
  cases shellEscape creds.ssid.bytes 256 with
  | none => exact only_pure _
  | some ssid =>
    have hhead : (nmcliConnectCmd creds ssid
        ((shellEscape creds.password.bytes 256).getD [])).head? = some 0x6E := by
      by_cases hopen : creds.security = wfrSecOpen
      · rw [nmcliConnectCmd, if_pos hopen]
        rfl
      · rw [nmcliConnectCmd, if_neg hopen]
        rfl
    apply (only_pure _).ite
    apply (kinds_runCmd hhead (by decide) (by simp)).bind
    intro status
    apply (only_pure _).ite
    apply (kinds_call (by simp [Call.kind])).bind
    intro u
    exact (kinds_verifyConnectivity.mono (by simp)).bind fun _ => only_pure _

/-- The settings of a network: what `set_network` is given ends in none of the last letters. -/
theorem kinds_setNetwork {iface netId setting : Bytes} {c : UInt8} (hi : iface.length ≤ 31)
    (hid : netId.length ≤ 7) (h : setting.length ≤ 400) (hsetting : setting.getLast? = some c)
    (hc : c ∉ wordEnds) :
    Kinds [.wpa .setNetwork] (runWpaCmd (setNetworkCmd iface netId setting)) := by
  apply kinds_read
  rw [kind_setNetworkCmd hi hid h hsetting hc]
  simp

section Networkd
variable {iface netId : Bytes} (hi : iface.length ≤ 31) (hid : netId.length ≤ 7)
include hi hid

theorem kinds_quoted {key value : Bytes} (hkey : key.length ≤ 10) (hvalue : value.length ≤ 63) :
    Kinds [.wpa .setNetwork] (runWpaCmd (setNetworkCmd iface netId (key ++ value ++ ascii "\"'"))) := by
  have hlen : (ascii "\"'").length = 2 := by decide
  refine kinds_setNetwork hi hid ?_ (c := 0x27) ?_ (by decide)
  · simp only [List.length_append, hlen]
    omega
  · rw [List.getLast?_append]
    rfl

theorem kinds_setSsid (creds : WfrWifiCreds) :
    Kinds [.wpa .setNetwork] (runWpaCmd (setSsidCmd iface netId creds.ssid.bytes)) :=
  kinds_quoted hi hid (by decide) (creds.ssid.length_le.trans (by decide))

theorem kinds_setSecurity (creds : WfrWifiCreds) :
    Kinds [.wpa .setNetwork] (setSecurity iface netId creds) := by
  have hpsk : Kinds [.wpa .setNetwork] (runWpaCmd (setPskCmd iface netId creds.password.bytes)) :=
    kinds_quoted hi hid (by decide) (creds.password.length_le.trans (by decide))
  have hnone : Kinds [.wpa .setNetwork] (runWpaCmd (setNetworkCmd iface netId (ascii "key_mgmt NONE"))) :=
    kinds_setNetwork hi hid (by decide) rfl (by decide)
  have hsae : Kinds [.wpa .setNetwork] (runWpaCmd (setNetworkCmd iface netId (ascii "key_mgmt SAE"))) :=
    kinds_setNetwork hi hid (by decide) rfl (by decide)
  exact (hnone.bind fun _ => only_pure _).ite ((kinds_guard hsae hpsk).ite hpsk)

theorem kinds_setHidden (creds : WfrWifiCreds) :
    Kinds [.wpa .setNetwork] (setHidden iface netId creds) :=
  ((kinds_setNetwork hi hid (by decide) rfl (by decide)).bind fun _ => only_pure _).ite (only_pure _)

/-- What follows the choice of an interface and a network id. -/
theorem kinds_selectNetwork :
    Kinds [.query, .wpa .setNetwork]
      (runWpaCmd (wpaCliCmd 512 iface (ascii "select_network " ++ netId))) :=
  kinds_read (kind_selectNetwork hi hid)

end Networkd

/-- A join that succeeds saves the configuration. -/
theorem kinds_finishNetworkd {iface : Bytes} (hi : iface.length ≤ 31) (creds : WfrWifiCreds) :
    Kinds [.pause, .query, .command, .lookup, .wpa .setNetwork, .wpa .saveConfig]
      (finishNetworkd iface creds) := by
  apply ((kinds_waitForWpaAssociationFrom hi _ _ _).mono (by simp)).bind
  intro r
  apply (only_pure _).ite
  apply (kinds_runCmd rfl (by decide) (by simp)).bind
  intro status
  apply kinds_guard ((kinds_waitForDhcpFrom hi _).mono (by simp))
  apply (kinds_verifyConnectivity.mono (by simp)).bind
  intro probe
  have hupdate : (Call.popen (wpaCliCmd 512 iface (ascii "set update_config 1"))).kind ∈
      [.pause, .query, .command, .lookup, .wpa .setNetwork, .wpa .saveConfig] := by
    rw [kind_of_notMem_wordEnds hi (by decide) (c := 0x31) rfl (by decide)]
    split <;> simp
  apply (kinds_read hupdate).bind
  intro updated
  apply (kinds_read (by simp [kind_saveConfig hi])).bind
  intro saved
  exact only_pure _

theorem kinds_wfrNetConnectNetworkd (creds : WfrWifiCreds) :
    Kinds [.pause, .query, .command, .lookup, .wpa .addNetwork, .wpa .setNetwork, .wpa .saveConfig]
      (wfrNetConnectNetworkd creds) := by
  refine kinds_found (by simp) ?_ fun iface hi => ?_
  · exact only_pure _
  apply Only.bind_of_run (kinds_read (by simp [kind_addNetwork hi]))
  intro tr line hrun
  rcases run_runCmdOutput.mp hrun with ⟨y, -, rfl⟩
  have hid : (lineInto [] 8 y).2.length ≤ 7 := (lineInto_text 8 y).2
  apply (only_pure _).ite
  apply kinds_guard ((kinds_setSsid hi hid creds).mono (by simp))
  apply kinds_guard ((kinds_setSecurity hi hid creds).mono (by simp))
  apply ((kinds_setHidden hi hid creds).mono (by simp)).bind
  intro u
  apply kinds_guard ((kinds_selectNetwork hi hid).mono (by simp))
  exact (kinds_finishNetworkd hi creds).mono (by simp)

/-- One that fails does not. -/
theorem run_finishNetworkd_false {iface : Bytes} (hi : iface.length ≤ 31) {creds : WfrWifiCreds}
    {tr : Trace} (h : Run (finishNetworkd iface creds) tr false) :
    ∀ e ∈ tr, e.1.kind ∈ [.pause, .query, .command] := by
  rcases run_bind.mp h with ⟨t₁, r, t₂, rfl, h₁, h₂⟩
  have hwait : ∀ e ∈ t₁, e.1.kind ∈ [CallKind.pause, .query, .command] :=
    ((kinds_waitForWpaAssociationFrom hi _ _ _).mono (by simp)).run h₁
  apply List.forall_mem_append.mpr ⟨hwait, _⟩
  split at h₂
  · rw [(run_pure.mp h₂).1]
    simp
  rcases run_bind.mp h₂ with ⟨t₃, status, t₄, rfl, h₃, h₄⟩
  apply List.forall_mem_append.mpr ⟨(kinds_runCmd rfl (by decide) (by simp)).run h₃, _⟩
  rcases run_guard h₄ with ⟨-, h₅⟩ | ⟨t₅, t₆, rfl, -, h₆⟩
  · exact ((kinds_waitForDhcpFrom hi _).mono (by simp)).run h₅
  · rcases run_bind.mp h₆ with ⟨t₇, probe, t₈, rfl, -, h₈⟩
    rcases run_bind.mp h₈ with ⟨t₉, updated, t₁₀, rfl, -, h₁₀⟩
    rcases run_bind.mp h₁₀ with ⟨t₁₁, saved, t₁₂, rfl, -, h₁₂⟩
    cases (run_pure.mp h₁₂).2

theorem kinds_finishInterfaces {iface : Bytes} (hi : iface.length ≤ 31) (creds : WfrWifiCreds) :
    Kinds [.pause, .query, .command, .lookup] (finishInterfaces iface creds) := by
  apply (kinds_runCmd rfl (by decide) (by simp)).bind
  intro killed
  apply (kinds_runCmd rfl (by decide) (by simp)).bind
  intro restarted
  apply ((kinds_waitForWpaAssociationFrom hi _ _ _).mono (by simp)).bind
  intro r
  apply (only_pure _).ite
  apply kinds_guard ((kinds_waitForDhcpFrom hi _).mono (by simp))
  exact (kinds_verifyConnectivity.mono (by simp)).bind fun _ => only_pure _

theorem kinds_writeConfig (iface : Bytes) (creds : WfrWifiCreds) :
    Kinds [.file] (writeConfig iface creds) := by
  have hfile {c : Call} (h : c.kind = .file) : Kinds [.file] (call c) := kinds_call (by simp [h])
  apply (hfile rfl).bind
  intro written
  apply (only_pure _).ite
  apply (hfile rfl).bind
  intro written'
  exact ((hfile rfl).bind fun _ => only_pure _).ite (only_pure _)

theorem kinds_wfrNetConnectInterfaces (creds : WfrWifiCreds) :
    Kinds [.pause, .query, .command, .lookup, .file] (wfrNetConnectInterfaces creds) := by
  refine kinds_found (by simp) ?_ fun iface hi => ?_
  · exact only_pure _
  · exact kinds_guard ((kinds_writeConfig _ _).mono (by simp))
      ((kinds_finishInterfaces hi creds).mono (by simp))

theorem kinds_wfrNetConnect (creds : WfrWifiCreds) :
    Kinds [.pause, .query, .command, .lookup, .file, .wpa .addNetwork, .wpa .setNetwork,
      .wpa .saveConfig] (wfrNetConnect creds) := by
  apply (only_pure _).ite
  apply (kinds_hasNetworkmanager.mono (by simp)).bind
  intro nm
  apply ((kinds_wfrNetConnectNmcli creds).mono (by simp)).ite
  apply (kinds_hasSystemdNetworkd.mono (by simp)).bind
  intro networkd
  exact ((kinds_wfrNetConnectNetworkd creds).mono (by simp)).ite
    ((kinds_wfrNetConnectInterfaces creds).mono (by simp))

theorem kinds_sendAckData (pass : UInt8) (bs : Bytes) :
    Kinds [.pause, .scancode] (sendAckData pass bs) := by
  induction bs with
  | nil => exact only_pure _
  | cons b bs ih =>
    apply kinds_guard (kinds_call (by simp [Call.kind]))
    exact (kinds_call (by simp [Call.kind])).bind fun _ => ih

theorem kinds_wfrAckSend (fd : ℤ) (success : Bool) (ipStr : Option Bytes) :
    Kinds [.pause, .scancode] (wfrAckSend fd success ipStr) := by
  apply (only_pure _).ite
  apply (only_pure _).ite
  apply kinds_guard (kinds_call (by simp [Call.kind]))
  apply (kinds_call (by simp [Call.kind])).bind
  intro u
  apply kinds_guard (kinds_sendAckData _ _)
  exact kinds_guard (kinds_call (by simp [Call.kind])) (only_pure _)

theorem kinds_sendIp (ackFd : ℤ) (success : Bool) (lookup : Bool × Bytes) :
    Kinds [.pause, .scancode] (sendIp ackFd success lookup) := by
  apply (kinds_call (by simp [Call.kind])).bind
  intro u
  exact (kinds_wfrAckSend _ _ _).bind fun _ => only_pure _

theorem kinds_lookupIp (success : Bool) : Kinds [.query] (lookupIp success) := by
  apply Only.ite _ (only_pure _)
  refine kinds_found (by simp) ?_ fun iface hi => ?_
  · exact only_pure _
  · apply (kinds_read (by simp [kind_ipAddrCmd hi])).bind
    intro line
    exact only_pure _

theorem kinds_sendAck (ackFd : ℤ) (success : Bool) :
    Kinds [.query, .pause, .scancode] (sendAck ackFd success) := by
  apply (only_pure _).ite
  apply ((kinds_lookupIp success).mono (by simp)).bind
  intro lookup
  exact (kinds_sendIp _ _ _).mono (by simp)

/-- A failure needs no address. -/
theorem kinds_sendAck_false (ackFd : ℤ) : Kinds [.pause, .scancode] (sendAck ackFd false) := by
  apply (only_pure _).ite
  apply (only_pure (false, ([] : Bytes))).bind
  intro lookup
  exact kinds_sendIp _ _ _

theorem kinds_rollbackNmcli (ssid : Bytes) : Kinds [.command] (rollbackNmcli ssid) := by
  unfold rollbackNmcli
  cases shellEscape ssid 256 with
  | none => exact only_pure _
  | some escaped => exact (kinds_runCmd rfl (by decide) (by simp)).bind fun _ => only_pure _

theorem kinds_rollbackInterfaces (iface : Bytes) :
    Kinds [.command, .removal, .file] (rollbackInterfaces iface) := by
  have hremoval : (Call.system rmConfCmd).kind ∈ [CallKind.command, .removal, .file] := by
    simp [Call.kind]
  apply (kinds_runCmd rfl (by decide) (by simp)).bind
  intro killed
  apply (kinds_runCmd rfl (by decide) (by simp)).bind
  intro down
  apply (kinds_call (by simp [Call.kind])).bind
  intro unlinked
  apply (kinds_read hremoval).bind
  intro removed
  exact (kinds_runCmd rfl (by decide) (by simp)).bind fun _ => only_pure _

theorem kinds_rollbackWpa {iface : Bytes} (hi : iface.length ≤ 31) :
    Kinds [.wpa .reconfigure] (do
      let _ ← runWpaCmd (wpaCliCmd 256 iface (ascii "reconfigure"))
      return true) :=
  (kinds_read (by simp [kind_reconfigure hi])).bind fun _ => only_pure _

theorem kinds_wfrNetRollback (ssid : Bytes) :
    Kinds [.command, .query, .wpa .reconfigure, .removal, .file] (wfrNetRollback ssid) := by
  apply (only_pure _).ite
  apply (kinds_hasNetworkmanager.mono (by simp)).bind
  intro nm
  apply ((kinds_rollbackNmcli ssid).mono (by simp)).ite
  refine kinds_found (by simp) ?_ fun iface hi => ?_
  · exact only_pure _
  apply (kinds_hasSystemdNetworkd.mono (by simp)).bind
  intro networkd
  exact ((kinds_rollbackWpa hi).mono (by simp)).ite ((kinds_rollbackInterfaces iface).mono (by simp))

end Footprints

end InfraFi.Daemon
