import InfraFi.Daemon.Looks

/-! # The networks of `wpa_supplicant` across a failed connection

`wpa_supplicant` is a current and a saved list of networks. The commands of a
run that it accepts are replayed on it; those it refuses have no effect.
-/
namespace InfraFi.Daemon
open Base Protocol Prog

/-- A network is given by the calls that have set it up. -/
structure WpaSupplicant where
  current : List (List Call)
  saved : List (List Call)
deriving DecidableEq

/-- `add_network` answers with the id of the new network, the other commands with `OK`. -/
def wpaAccepts (x : Option Bytes) : WpaCommand → Bool
  | .addNetwork => (lineInto [] 8 x).1 ∧ (lineInto [] 8 x).2 ≠ ascii "FAIL"
  | _ => saysOk x

/-- The command that `wpa_supplicant` got and accepted in an event. -/
def wpaEffect : Event Call Call.Answer → Option WpaCommand
  | ⟨.popen cmd, x⟩ => (wpaCommand cmd).filter (wpaAccepts x)
  | _ => none

/-- What a command does; the settings go to the network that was added last. -/
def WpaSupplicant.obey (w : WpaSupplicant) (c : Call) : WpaCommand → WpaSupplicant
  | .addNetwork => { w with current := w.current ++ [[]] }
  | .setNetwork => { w with current := w.current.modify (w.current.length - 1) (· ++ [c]) }
  | .saveConfig => { w with saved := w.current }
  | .reconfigure => { w with current := w.saved }

def WpaSupplicant.step (w : WpaSupplicant) (e : Event Call Call.Answer) : WpaSupplicant :=
  match wpaEffect e with
  | some command => w.obey e.1 command
  | none => w

/-- The networks after the calls of a run. -/
def networksAfter (w : WpaSupplicant) (tr : Trace) : WpaSupplicant := tr.foldl WpaSupplicant.step w

theorem networksAfter_append (w : WpaSupplicant) (s t : Trace) :
    networksAfter w (s ++ t) = networksAfter (networksAfter w s) t := List.foldl_append

theorem kind_of_wpaEffect {e : Event Call Call.Answer} {command : WpaCommand}
    (h : wpaEffect e = some command) : e.1.kind = .wpa command := by
  rcases e with ⟨c, x⟩
  cases c with
  | popen cmd =>
    rcases Option.filter_eq_some_iff.mp h with ⟨hcommand, -⟩
    rw [Call.kind, hcommand]
    rfl
  | _ => cases h

theorem wpaEffect_of_kind {cmd : Bytes} {command : WpaCommand} (h : (Call.popen cmd).kind = .wpa command)
    (x : Option Bytes) :
    wpaEffect ⟨.popen cmd, x⟩ = if wpaAccepts x command = true then some command else none := by
  have hcommand : wpaCommand cmd = some command := by
    rw [Call.kind] at h
    cases hc : wpaCommand cmd with
    | none => simp [hc] at h
    | some c => simpa [hc] using h
  rw [wpaEffect, hcommand, Option.filter_some]

/-! ## Runs without some of the commands -/

section Kinds
variable {tr : Trace}

/-- A run that neither adds nor sets nor saves a network: the last reload decides. -/
theorem networksAfter_of_reloads (w : WpaSupplicant)
    (h : ∀ e ∈ tr, ∀ c, wpaEffect e = some c → c = .reconfigure) :
    networksAfter w tr =
      if tr.any (fun e => wpaEffect e = some .reconfigure) then { w with current := w.saved } else w := by
  induction tr generalizing w with
  | nil => simp [networksAfter]
  | cons e tr ih =>
    rcases List.forall_mem_cons.mp h with ⟨he, htr⟩
    change networksAfter (w.step e) tr = _
    rw [ih _ htr, WpaSupplicant.step]
    cases heffect : wpaEffect e with
    | none =>
      have hany : (e :: tr).any (fun e => wpaEffect e = some .reconfigure) =
          tr.any (fun e => wpaEffect e = some .reconfigure) := by
        rw [List.any_cons, heffect]
        rfl
      rw [hany]
    | some command =>
      obtain rfl := he _ heffect
      simp [heffect, WpaSupplicant.obey]

/-- A run that only sets networks keeps their number and what is saved. -/
theorem networksAfter_of_settings (w : WpaSupplicant)
    (h : ∀ e ∈ tr, ∀ c, wpaEffect e = some c → c = .setNetwork) :
    (networksAfter w tr).saved = w.saved ∧
      (networksAfter w tr).current.length = w.current.length := by
  induction tr generalizing w with
  | nil => exact ⟨rfl, rfl⟩
  | cons e tr ih =>
    rcases List.forall_mem_cons.mp h with ⟨he, htr⟩
    change (networksAfter (w.step e) tr).saved = _ ∧ (networksAfter (w.step e) tr).current.length = _
    rw [(ih _ htr).1, (ih _ htr).2, WpaSupplicant.step]
    cases heffect : wpaEffect e with
    | none => exact ⟨rfl, rfl⟩
    | some command =>
      obtain rfl := he _ heffect
      exact ⟨rfl, List.length_modify ..⟩

/-- Kinds of calls decide which commands can have been accepted. -/
theorem effects_of_kinds {ks : List CallKind} {P : WpaCommand → Prop} (h : ∀ e ∈ tr, e.1.kind ∈ ks)
    (hks : ∀ c, .wpa c ∈ ks → P c) : ∀ e ∈ tr, ∀ c, wpaEffect e = some c → P c := by
  intro e he c heffect
  apply hks
  rw [← kind_of_wpaEffect heffect]
  exact h e he

theorem no_effects {ks : List CallKind} (h : ∀ e ∈ tr, e.1.kind ∈ ks) (hks : ∀ c, .wpa c ∉ ks) :
    ∀ e ∈ tr, wpaEffect e = none := by
  intro e he
  cases heffect : wpaEffect e with
  | none => rfl
  | some c => exact (effects_of_kinds (P := fun _ => False) h hks e he c heffect).elim

theorem networksAfter_of_none (w : WpaSupplicant) (h : ∀ e ∈ tr, wpaEffect e = none) :
    networksAfter w tr = w := by
  have hnone : ¬ tr.any (fun e => wpaEffect e = some .reconfigure) = true := by
    simp +contextual [h]
  rw [networksAfter_of_reloads w (by simp +contextual [h]), if_neg hnone]

end Kinds

/-! ## A failed join and what follows it -/

section Failed
variable {creds : WfrWifiCreds} {tr : Trace}

/-- After `add_network` a join that fails only sets the network and waits. -/
theorem run_settings_false {iface netId : Bytes} (hi : iface.length ≤ 31) (hid : netId.length ≤ 7)
    (h : Run (do
      if ¬ (← runWpaCmd (setSsidCmd iface netId creds.ssid.bytes)) then return false
      if ¬ (← setSecurity iface netId creds) then return false
      setHidden iface netId creds
      if ¬ (← runWpaCmd (wpaCliCmd 512 iface (ascii "select_network " ++ netId))) then return false
      finishNetworkd iface creds) tr false) :
    ∀ e ∈ tr, e.1.kind ∈ [.pause, .query, .command, .wpa .setNetwork] := by
  have hset {α : Type} {p : Cmd α} {t : Trace} {a : α} (hp : Kinds [.wpa .setNetwork] p)
      (ht : Run p t a) : ∀ e ∈ t, e.1.kind ∈ [.pause, .query, .command, .wpa .setNetwork] :=
    (hp.mono (by simp)).run ht
  rcases run_guard h with ⟨-, h₁⟩ | ⟨t₁, t₂, rfl, h₁, h₂⟩
  · exact hset (kinds_setSsid hi hid creds) h₁
  apply List.forall_mem_append.mpr ⟨hset (kinds_setSsid hi hid creds) h₁, _⟩
  rcases run_guard h₂ with ⟨-, h₃⟩ | ⟨t₃, t₄, rfl, h₃, h₄⟩
  · exact hset (kinds_setSecurity hi hid creds) h₃
  apply List.forall_mem_append.mpr ⟨hset (kinds_setSecurity hi hid creds) h₃, _⟩
  rcases run_bind.mp h₄ with ⟨t₅, u, t₆, rfl, h₅, h₆⟩
  apply List.forall_mem_append.mpr ⟨hset (kinds_setHidden hi hid creds) h₅, _⟩
  rcases run_guard h₆ with ⟨-, h₇⟩ | ⟨t₇, t₈, rfl, h₇, h₈⟩
  · exact ((kinds_selectNetwork hi hid).mono (by simp)).run h₇
  apply List.forall_mem_append.mpr ⟨((kinds_selectNetwork hi hid).mono (by simp)).run h₇, _⟩
  intro e he
  have hkind := run_finishNetworkd_false hi h₈ e he
  simp only [List.mem_cons, List.not_mem_nil, or_false] at hkind ⊢
  tauto

/-- `add_network` is accepted just when the join goes on. -/
theorem run_wfrNetConnectNetworkd_false (h : Run (wfrNetConnectNetworkd creds) tr false) :
    (∀ e ∈ tr, wpaEffect e = none) ∨
      ∃ found y iface rest, iface.length ≤ 31 ∧ (∀ e ∈ found, wpaEffect e = none) ∧
        tr = found ++ ⟨.popen (wpaCliCmd 512 iface (ascii "add_network")), y⟩ :: rest ∧
        wpaAccepts y .addNetwork = true ∧
        ∀ e ∈ rest, e.1.kind ∈ [.pause, .query, .command, .wpa .setNetwork] := by
  rcases run_bind.mp h with ⟨t₁, found, t₂, rfl, h₁, h₂⟩
  have hdetect : ∀ e ∈ t₁, wpaEffect e = none := no_effects ((kinds_detectWifiIface 32).run h₁) (by simp)
  rcases run_detectWifiIface.mp h₁ with ⟨x, rfl, rfl⟩
  cases hx : answerLine 32 x with
  | none =>
    rw [hx] at h₂
    rw [(run_pure.mp h₂).1, List.append_nil]
    exact .inl hdetect
  | some iface =>
    rw [hx] at h₂
    rcases run_bind.mp h₂ with ⟨t₃, line, t₄, rfl, h₃, h₄⟩
    rcases run_runCmdOutput.mp h₃ with ⟨y, rfl, rfl⟩
    dsimp only at h₄
    split at h₄
    · rename_i hrefused
      rw [(run_pure.mp h₄).1, List.append_nil]
      left
      apply List.forall_mem_append.mpr ⟨hdetect, _⟩
      rw [List.forall_mem_singleton, wpaEffect_of_kind (kind_addNetwork (answerLine_eq_some hx).2.2)]
      apply if_neg
      simp only [wpaAccepts, decide_eq_true_eq]
      tauto
    · rename_i haccepted
      rw [not_or, not_not] at haccepted
      refine .inr ⟨_, y, iface, t₄, (answerLine_eq_some hx).2.2, hdetect, rfl, ?_,
        run_settings_false (answerLine_eq_some hx).2.2 (lineInto_text 8 y).2 h₄⟩
      simp [wpaAccepts, haccepted]

/-- What the commands of a failed join leave: one network more, or everything as it was. -/
def AddsOne (w : WpaSupplicant) (tr : Trace) : Prop :=
  (networksAfter w tr).saved = w.saved ∧
      (networksAfter w tr).current.length = w.current.length + 1 ∧
      (∃ e ∈ tr, wpaEffect e = some .addNetwork) ∨
    networksAfter w tr = w ∧ ∀ e ∈ tr, wpaEffect e ≠ some .addNetwork

theorem addsOne_of_none (w : WpaSupplicant) (h : ∀ e ∈ tr, wpaEffect e = none) : AddsOne w tr :=
  .inr ⟨networksAfter_of_none w h, fun e he heffect => by simp [h e he] at heffect⟩

/-- Calls without an effect may come first. -/
theorem AddsOne.append_left {w : WpaSupplicant} {s : Trace} (h : AddsOne w tr)
    (hs : ∀ e ∈ s, wpaEffect e = none) : AddsOne w (s ++ tr) := by
  rw [AddsOne, networksAfter_append, networksAfter_of_none w hs]
  apply h.imp
  · rintro ⟨hsaved, hlength, e, he, heffect⟩
    exact ⟨hsaved, hlength, e, List.mem_append_right s he, heffect⟩
  · rintro ⟨hunchanged, hadd⟩
    exact ⟨hunchanged, List.forall_mem_append.mpr ⟨by simp +contextual [hs], hadd⟩⟩

theorem addsOne_networkd (w : WpaSupplicant) (h : Run (wfrNetConnectNetworkd creds) tr false) :
    AddsOne w tr := by
  rcases run_wfrNetConnectNetworkd_false h with hnone | ⟨found, y, iface, rest, hi, hfound, rfl, hy, hrest⟩
  · exact addsOne_of_none w hnone
  apply AddsOne.append_left _ hfound
  have hadd : wpaEffect ⟨.popen (wpaCliCmd 512 iface (ascii "add_network")), y⟩ = some .addNetwork := by
    rw [wpaEffect_of_kind (kind_addNetwork hi), if_pos hy]
  have hsettings := networksAfter_of_settings
    (w.step ⟨.popen (wpaCliCmd 512 iface (ascii "add_network")), y⟩)
    (effects_of_kinds hrest (by simp))
  rw [WpaSupplicant.step, hadd] at hsettings
  left
  refine ⟨?_, ?_, _, List.mem_cons_self, hadd⟩
  · change (networksAfter (w.step _) rest).saved = _
    rw [WpaSupplicant.step, hadd]
    exact hsettings.1
  · change (networksAfter (w.step _) rest).current.length = _
    rw [WpaSupplicant.step, hadd]
    exact hsettings.2.trans (by simp [WpaSupplicant.obey])

/-- Of the three back-ends only this one gives commands to `wpa_supplicant`. -/
theorem addsOne_wfrNetConnect (w : WpaSupplicant) (h : Run (wfrNetConnect creds) tr false) :
    AddsOne w tr := by
  rcases run_wfrNetConnect h with ⟨looking, rest, rfl, hlooking, hattempted⟩
  apply AddsOne.append_left _ (no_effects hlooking (by simp))
  cases hattempted with
  | unnamed hiface hrest => exact addsOne_of_none w (by simp [hrest])
  | nmcli hnm hrun =>
    exact addsOne_of_none w (no_effects ((kinds_wfrNetConnectNmcli creds).run hrun) (by simp))
  | networkd hnm hnetworkd hrun => exact addsOne_networkd w hrun
  | interfaces hnm hnetworkd hrun hiface =>
    exact addsOne_of_none w (no_effects ((kinds_wfrNetConnectInterfaces creds).run hrun) (by simp))

/-- The answer to the reload command of the rollback. -/
def reloadAnswer (rest : Trace) : Option Bytes :=
  (looksOf rest).networkdIface.bind fun iface =>
    (firstAnswer (.popen (wpaCliCmd 256 iface (ascii "reconfigure"))) rest).join

/-- What follows can only reload the saved networks: when there is a previous SSID, the rollback
finds systemd-networkd and an interface, and `wpa_supplicant` accepts the command. -/
theorem effects_reportOutcome {ackFd : ℤ} {prevSsid : Bytes}
    (h : Run (reportOutcome ackFd prevSsid false) tr ()) :
    (∀ e ∈ tr, ∀ c, wpaEffect e = some c → c = .reconfigure) ∧
      ((∃ e ∈ tr, wpaEffect e = some .reconfigure) ↔
        prevSsid ≠ [] ∧ saysOk (reloadAnswer tr) = true) := by
  rcases run_reportOutcome_false h with ⟨looking, rest, rfl, hlooking, hrest⟩
  have hquiet : ∀ e ∈ looking, wpaEffect e = none := no_effects hlooking (by simp)
  have hignored (hnone : ∀ e ∈ rest, wpaEffect e = none)
      (hnot : ¬ (prevSsid ≠ [] ∧ saysOk (reloadAnswer (looking ++ rest)) = true)) :
      (∀ e ∈ looking ++ rest, ∀ c, wpaEffect e = some c → c = .reconfigure) ∧
        ((∃ e ∈ looking ++ rest, wpaEffect e = some .reconfigure) ↔
          prevSsid ≠ [] ∧ saysOk (reloadAnswer (looking ++ rest)) = true) := by
    have hall : ∀ e ∈ looking ++ rest, wpaEffect e = none := List.forall_mem_append.mpr ⟨hquiet, hnone⟩
    refine ⟨by simp +contextual [hall], iff_of_false ?_ hnot⟩
    rintro ⟨e, he, heffect⟩
    rw [hall e he] at heffect
    cases heffect
  have hunasked (hnone : (looksOf (looking ++ rest)).networkdIface = none) :
      ¬ (prevSsid ≠ [] ∧ saysOk (reloadAnswer (looking ++ rest)) = true) := by
    simp [reloadAnswer, hnone, saysOk]
  rcases hrest with ⟨hprev, rfl⟩ | ⟨hprev, hrolled⟩
  · exact hignored (by simp) (by simp [hprev])
  cases hrolled with
  | neither hifupdown hnetworkd hkinds => exact hignored (no_effects hkinds (by simp)) (hunasked hnetworkd)
  | interfaces iface ok hiface hrun =>
    exact hignored (no_effects ((kinds_rollbackInterfaces iface).run hrun) (by simp))
      (hunasked ((looksOf _).one_backend.resolve_left (by simp [hiface])))
  | networkd iface x hiface hlen hcall =>
    have heffect := wpaEffect_of_kind (kind_reconfigure hlen) x
    have hunlike : ∀ e ∈ looking, e.1 ≠ .popen (wpaCliCmd 256 iface (ascii "reconfigure")) := by
      intro e he heq
      have hkind := hlooking e he
      rw [heq, kind_reconfigure hlen] at hkind
      simp at hkind
    have hasked : reloadAnswer (looking ++ rest) = x := by
      rw [reloadAnswer, hiface, Option.bind_some, firstAnswer_append hunlike, hcall, firstAnswer_self]
      rfl
    have hcause {e : Event Call Call.Answer} {c : WpaCommand} (he : e ∈ looking ++ rest)
        (hc : wpaEffect e = some c) : saysOk x = true ∧ c = .reconfigure := by
      rcases List.mem_append.mp he with hl | hr
      · rw [hquiet e hl] at hc
        cases hc
      · rw [hcall, List.mem_singleton] at hr
        rw [hr, heffect, Option.ite_none_right_eq_some] at hc
        exact ⟨hc.1, (Option.some.inj hc.2).symm⟩
    refine ⟨fun e he c hc => (hcause he hc).2, ?_⟩
    rw [hasked]
    constructor
    · rintro ⟨e, he, hc⟩
      exact ⟨hprev, (hcause he hc).1⟩
    · rintro ⟨-, hok⟩
      exact ⟨_, List.mem_append_right _ (hcall ▸ List.mem_singleton_self _), heffect.trans (if_pos hok)⟩

end Failed

/-! A system with systemd-networkd and no connection: `wpa_supplicant` refuses the SSID. -/

private def answerRefused (_ : ℕ) : (c : Call) → c.Answer
  | .system cmd => if cmd = ascii "systemctl is-active --quiet systemd-networkd" then some 0 else some 1
  | .popen cmd =>
    if cmd = detectCmd then some (ascii "wlan0\n")
    else if cmd = wpaCliCmd 512 (ascii "wlan0") (ascii "add_network") then some (ascii "1\n")
    else if cmd = wpaSsidCmd (ascii "wlan0") then none
    else some (ascii "FAIL\n")
  | .sleep _ => ()
  | .delayMs _ => ()
  | .getaddrinfo _ _ => true
  | .writeFile _ _ => true
  | .unlink _ => true
  | .writeScancode _ _ => true

private def refusedPayload : Bytes := ascii "WIFI:S:Home;T:nopass;;"

private def refusedCreds : WfrWifiCreds where
  ssid := CString.ofBytes wfrSsidMaxLen (ascii "Home")
  password := CString.ofBytes wfrPassMaxLen []
  security := wfrSecOpen
  hidden := false

private def refusedCurrent : Trace × Option Bytes :=
  runWith answerRefused 0 (wfrNetGetCurrent (wfrSsidMaxLen + 1))

private def refusedConnect : Trace × Bool := runWith answerRefused 0 (wfrNetConnect refusedCreds)

private def refusedReport : Trace :=
  (runWith answerRefused 0 (handleCredentials 3 refusedPayload)).1.drop
    (refusedCurrent.1.length + refusedConnect.1.length)

/-- The network before the join, in use and saved. -/
private def oneNetwork : WpaSupplicant := ⟨[[]], [[]]⟩

private theorem refused_runs :
    wfrParseWifiString (cstr refusedPayload) = some refusedCreds ∧
      Run (handleCredentials 3 refusedPayload)
        (refusedCurrent.1 ++ (refusedConnect.1 ++ refusedReport)) () ∧
      Run (wfrNetGetCurrent (wfrSsidMaxLen + 1)) refusedCurrent.1 none ∧
      Run (wfrNetConnect refusedCreds) refusedConnect.1 false := by
  have hprev := run_runWith answerRefused (wfrNetGetCurrent (wfrSsidMaxLen + 1)) 0
  have hconnect := run_runWith answerRefused (wfrNetConnect refusedCreds) 0
  have hrun := run_runWith answerRefused (handleCredentials 3 refusedPayload) 0
  have hnone : refusedCurrent.2 = none := by decide +kernel
  have hfalse : refusedConnect.2 = false := by decide +kernel
  have hsplit : (runWith answerRefused 0 (handleCredentials 3 refusedPayload)).1 =
      refusedCurrent.1 ++ (refusedConnect.1 ++ refusedReport) := by decide +kernel
  rw [refusedCurrent] at hnone
  rw [refusedConnect] at hfalse
  rw [hnone] at hprev
  rw [hfalse] at hconnect
  rw [hsplit] at hrun
  exact ⟨by decide +kernel, hrun, hprev, hconnect⟩

end InfraFi.Daemon
