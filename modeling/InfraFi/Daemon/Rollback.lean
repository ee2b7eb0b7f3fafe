import InfraFi.Daemon.Looks
import Mathlib.Data.Sigma.Basic

/-! # The configuration files across a failed connection

The two files of the ifupdown back-end are replayed from the calls of a run.
Only three kinds of calls touch them: writing one, removing one, and the
command that removes all `wpa_supplicant` configurations of ours.
-/
namespace InfraFi.Daemon
open Base Protocol Prog

/-- `/etc/network/interfaces.d/infrafid` and the `wpa_supplicant` configuration of an interface. -/
@[ext] structure ConfFiles where
  conf : Option Bytes
  wpa : Option Bytes
deriving DecidableEq

def slash : UInt8 := 0x2F

/-- The new content of the interfaces configuration, for a call that sets or removes it. -/
def confAct : Event Call Call.Answer → Option (Option Bytes)
  | ⟨.writeFile path text, ok⟩ => if path = confPath ∧ ok = true then some (some text) else none
  | ⟨.unlink path, ok⟩ => if path = confPath ∧ ok = true then some none else none
  | _ => none

/-- The new content of the `wpa_supplicant` configuration, for a call that sets or removes it.
The `*` of the `rm` command matches no `/`. -/
def wpaAct (iface : Bytes) : Event Call Call.Answer → Option (Option Bytes)
  | ⟨.writeFile path text, ok⟩ =>
    if path = wpaConfPath iface ∧ ok = true then some (some text) else none
  | ⟨.unlink path, ok⟩ => if path = wpaConfPath iface ∧ ok = true then some none else none
  | ⟨.system cmd, status⟩ =>
    if cmd = rmConfCmd ∧ status = some 0 ∧ slash ∉ iface then some none else none
  | _ => none

/-- What a call and its answer do to the two files. A failed call leaves them as they are. -/
def applyCall (iface : Bytes) (files : ConfFiles) (e : Event Call Call.Answer) : ConfFiles where
  conf := (confAct e).getD files.conf
  wpa := (wpaAct iface e).getD files.wpa

def replay (iface : Bytes) (files : ConfFiles) (tr : Trace) : ConfFiles :=
  tr.foldl (applyCall iface) files

theorem replay_append (iface : Bytes) (files : ConfFiles) (s t : Trace) :
    replay iface files (s ++ t) = replay iface (replay iface files s) t := List.foldl_append

def touchesFiles : Call → Bool
  | .writeFile _ _ => true
  | .unlink _ => true
  | .system cmd => cmd = rmConfCmd
  | _ => false

/-- The calls of a run that may touch the files. -/
def fileEvents (tr : Trace) : Trace := tr.filter (fun e => touchesFiles e.1)

theorem fileEvents_append (s t : Trace) : fileEvents (s ++ t) = fileEvents s ++ fileEvents t :=
  List.filter_append ..

theorem applyCall_of_not_touches (iface : Bytes) (files : ConfFiles) {e : Event Call Call.Answer}
    (h : touchesFiles e.1 = false) : applyCall iface files e = files := by
  have hacts : confAct e = none ∧ wpaAct iface e = none := by
    rcases e with ⟨c, x⟩
    cases c <;> simp_all [touchesFiles, confAct, wpaAct]
  rw [applyCall, hacts.1, hacts.2]
  rfl

theorem replay_fileEvents (iface : Bytes) (files : ConfFiles) (tr : Trace) :
    replay iface files (fileEvents tr) = replay iface files tr := by
  induction tr generalizing files with
  | nil => rfl
  | cons e tr ih =>
    change _ = replay iface (applyCall iface files e) tr
    rw [fileEvents, List.filter_cons]
    split
    · exact ih _
    · rename_i he
      rw [applyCall_of_not_touches iface files (Bool.not_eq_true _ ▸ he)]
      exact ih _

/-! ## Programs that leave the files alone -/

theorem touchesFiles_eq_false {c : Call} (hremoval : c.kind ≠ .removal) (hfile : c.kind ≠ .file) :
    touchesFiles c = false := by
  cases c with
  | system cmd =>
    have hne : cmd ≠ rmConfCmd := fun h => hremoval (if_pos h)
    exact decide_eq_false hne
  | writeFile path text => exact absurd rfl hfile
  | unlink path => exact absurd rfl hfile
  | _ => rfl

/-- Calls that are not for files leave the files alone. -/
theorem fileEvents_of_eventKinds {ks : List CallKind} {tr : Trace} (h : ∀ e ∈ tr, e.1.kind ∈ ks)
    (hremoval : .removal ∉ ks) (hfile : .file ∉ ks) : fileEvents tr = [] := by
  refine List.filter_eq_nil_iff.mpr fun e he => ?_
  simp [touchesFiles_eq_false (ne_of_mem_of_not_mem (h e he) hremoval)
    (ne_of_mem_of_not_mem (h e he) hfile)]

/-- A function whose footprint has no file in it leaves the files alone. -/
theorem fileEvents_of_kinds {α : Type} {ks : List CallKind} {p : Cmd α} (hp : Kinds ks p)
    (hremoval : .removal ∉ ks) (hfile : .file ∉ ks) {tr : Trace} {a : α} (h : Run p tr a) :
    fileEvents tr = [] := fileEvents_of_eventKinds (hp.run h) hremoval hfile

/-! ## What a failed connection and a rollback do to the files -/

/-- The answers to the `fopen` calls of a run, in order. -/
def fopens (tr : Trace) : List Bool :=
  tr.filterMap (fun
    | ⟨.writeFile _ _, ok⟩ => some ok
    | _ => none)

/-- The answers to the `unlink` calls of a run, in order. -/
def unlinks (tr : Trace) : List Bool :=
  tr.filterMap (fun
    | ⟨.unlink _, ok⟩ => some ok
    | _ => none)

theorem filterMap_fileEvents {f : Event Call Call.Answer → Option Bool}
    (hf : ∀ e, touchesFiles e.1 = false → f e = none) (tr : Trace) :
    (fileEvents tr).filterMap f = tr.filterMap f := by
  rw [fileEvents, List.filterMap_filter]
  refine List.filterMap_congr fun e _ => ?_
  cases he : touchesFiles e.1 with
  | true => rfl
  | false => exact (hf e he).symm

theorem fopens_fileEvents (tr : Trace) : fopens (fileEvents tr) = fopens tr := by
  apply filterMap_fileEvents
  rintro ⟨c, x⟩ he
  cases c <;> first | rfl | cases he

theorem unlinks_fileEvents (tr : Trace) : unlinks (fileEvents tr) = unlinks tr := by
  apply filterMap_fileEvents
  rintro ⟨c, x⟩ he
  cases c <;> first | rfl | cases he

/-- What the files depend on in a failed handling. -/
structure Answers where
  prevSsid : Bytes
  /-- The interfaces that the attempt and the rollback use ifupdown on. -/
  iface : Option Bytes
  rollbackIface : Option Bytes
  /-- Whether the files can be opened. -/
  opensWpa : Bool
  opensConf : Bool
  /-- Whether the `wpa_supplicant` configuration can be removed when the other cannot be opened. -/
  unlinksWpa : Bool
  /-- Whether the `unlink` and the `rm` of the rollback succeed. -/
  unlinksConf : Bool
  removes : Bool
deriving DecidableEq

/-- The answers in the calls of an attempt and of what follows it. -/
def answersOf (prevSsid : Bytes) (attempt rest : Trace) : Answers where
  prevSsid := prevSsid
  iface := (looksOf attempt).ifupdownIface
  rollbackIface := (looksOf rest).ifupdownIface
  opensWpa := (fopens attempt)[0]?.getD false
  opensConf := (fopens attempt)[1]?.getD false
  unlinksWpa := (unlinks attempt)[0]?.getD false
  unlinksConf := (unlinks rest)[0]?.getD false
  removes := ⟨.system rmConfCmd, some 0⟩ ∈ rest

namespace Answers

/-- A rollback with ifupdown. -/
def rollsBack (a : Answers) : Bool := a.prevSsid ≠ [] ∧ a.rollbackIface ≠ none

/-- What the attempt makes of the files. -/
def written (a : Answers) (iface : Bytes) (creds : WfrWifiCreds) (files : ConfFiles) : ConfFiles :=
  match a.iface with
  | none => files
  | some j =>
    { conf := if a.opensWpa ∧ a.opensConf then some (ifcfgText j) else files.conf
      wpa :=
        if wpaConfPath j = wpaConfPath iface ∧ a.opensWpa then
          if a.opensConf = false ∧ a.unlinksWpa then none else some (wpaConfText creds)
        else files.wpa }

/-- What the rollback makes of them. -/
def removed (a : Answers) (iface : Bytes) (files : ConfFiles) : ConfFiles :=
  if a.rollsBack then
    { conf := if a.unlinksConf then none else files.conf
      wpa := if a.removes ∧ slash ∉ iface then none else files.wpa }
  else files

variable (a : Answers) (iface : Bytes) (files : ConfFiles)

theorem removed_conf : (a.removed iface files).conf =
    if a.rollsBack ∧ a.unlinksConf then none else files.conf := by
  unfold removed
  cases a.rollsBack <;> simp

theorem removed_wpa : (a.removed iface files).wpa =
    if a.rollsBack ∧ a.removes ∧ slash ∉ iface then none else files.wpa := by
  unfold removed
  cases a.rollsBack <;> simp

end Answers

theorem confPath_ne_wpaConfPath (iface : Bytes) : confPath ≠ wpaConfPath iface := by
  intro he
  have hletter : confPath[5]? = some 0x6E ∧ (wpaConfPath iface)[5]? = some 0x77 := ⟨by decide, rfl⟩
  rw [← he, hletter.1] at hletter
  exact absurd hletter.2 (by decide)

/-- A connection attempt touches the files only while it writes the configuration, and that only
with ifupdown. -/
theorem fileEvents_wfrNetConnect {creds : WfrWifiCreds} {tr : Trace} {ok : Bool}
    (h : Run (wfrNetConnect creds) tr ok) :
    (looksOf tr).ifupdownIface = none ∧ fileEvents tr = [] ∨
      ∃ iface wrote, (looksOf tr).ifupdownIface = some iface ∧
        Run (writeConfig iface creds) (fileEvents tr) wrote := by
  rcases run_wfrNetConnect h with ⟨looking, rest, rfl, hlooking, hattempted⟩
  have hquiet : fileEvents looking = [] := fileEvents_of_eventKinds hlooking (by simp) (by simp)
  rw [fileEvents_append, hquiet, List.nil_append]
  cases hattempted with
  | unnamed hiface hrest =>
    rw [hrest]
    exact .inl ⟨ite_eq_left_iff.mpr fun _ => hrest ▸ hiface, rfl⟩
  | nmcli hnm hrun =>
    exact .inl ⟨by simp [Looks.ifupdownIface, hnm],
      fileEvents_of_kinds (kinds_wfrNetConnectNmcli creds) (by simp) (by simp) hrun⟩
  | networkd hnm hnetworkd hrun =>
    exact .inl ⟨by simp [Looks.ifupdownIface, hnetworkd],
      fileEvents_of_kinds (kinds_wfrNetConnectNetworkd creds) (by simp) (by simp) hrun⟩
  | interfaces hnm hnetworkd hrun hiface =>
    have hused : (looksOf (looking ++ rest)).ifupdownIface = (looksOf rest).iface := by
      simp [Looks.ifupdownIface, hnm, hnetworkd, hiface]
    rw [hused]
    rcases run_bind.mp hrun with ⟨t₁, found, t₂, rfl, h₁, h₂⟩
    rw [looksOf_detectWifiIface h₁, fileEvents_append,
      fileEvents_of_kinds (kinds_detectWifiIface 32) (by simp) (by simp) h₁, List.nil_append]
    cases found with
    | none =>
      obtain rfl := (run_pure.mp h₂).1
      exact .inl ⟨rfl, rfl⟩
    | some iface =>
      have hi := length_of_detectWifiIface h₁
      have hwrite {t : Trace} {wrote : Bool} (ht : Run (writeConfig iface creds) t wrote) :
          fileEvents t = t := by
        rcases run_writeConfig ht with ⟨rfl, -⟩ | ⟨⟨u, rfl⟩, -⟩ | ⟨rfl, -⟩ <;> rfl
      rcases run_guard h₂ with ⟨-, h₃⟩ | ⟨t₃, t₄, rfl, h₃, h₄⟩
      · exact .inr ⟨iface, false, rfl, (hwrite h₃).symm ▸ h₃⟩
      · refine .inr ⟨iface, true, rfl, ?_⟩
        rwa [fileEvents_append, hwrite h₃,
          fileEvents_of_kinds (kinds_finishInterfaces hi creds) (by simp) (by simp) h₄, List.append_nil]

/-- What follows a failed attempt touches the files only in a rollback with ifupdown, which
removes both. -/
theorem fileEvents_reportOutcome {ackFd : ℤ} {prevSsid : Bytes} {tr : Trace}
    (h : Run (reportOutcome ackFd prevSsid false) tr ()) :
    (prevSsid = [] ∨ (looksOf tr).ifupdownIface = none) ∧ fileEvents tr = [] ∨
      (prevSsid ≠ [] ∧ (looksOf tr).ifupdownIface ≠ none) ∧
        ∃ u status, fileEvents tr = [⟨.unlink confPath, u⟩, ⟨.system rmConfCmd, status⟩] := by
  rcases run_reportOutcome_false h with ⟨looking, rest, rfl, hlooking, hrest⟩
  have hquiet : fileEvents looking = [] := fileEvents_of_eventKinds hlooking (by simp) (by simp)
  rw [fileEvents_append, hquiet, List.nil_append]
  rcases hrest with ⟨hprev, rfl⟩ | ⟨hprev, hrolled⟩
  · exact .inl ⟨.inl hprev, rfl⟩
  cases hrolled with
  | neither hifupdown hnetworkd hkinds =>
    exact .inl ⟨.inr hifupdown, fileEvents_of_eventKinds hkinds (by simp) (by simp)⟩
  | networkd iface x hiface hlen hrest =>
    refine .inl ⟨.inr ((looksOf _).one_backend.resolve_right (by simp [hiface])), ?_⟩
    rw [hrest]
    rfl
  | interfaces iface ok hiface hrun =>
    refine .inr ⟨⟨hprev, by simp [hiface]⟩, ?_⟩
    rcases run_bind.mp hrun with ⟨t₁, s₁, t₂, rfl, h₁, h₂⟩
    rcases run_bind.mp h₂ with ⟨t₃, s₃, t₄, rfl, h₃, h₄⟩
    rcases run_bind.mp h₄ with ⟨t₅, u, t₆, rfl, h₅, h₆⟩
    rcases run_bind.mp h₆ with ⟨t₇, s₇, t₈, rfl, h₇, h₈⟩
    rcases run_bind.mp h₈ with ⟨t₉, s₉, t₁₀, rfl, h₉, h₁₀⟩
    obtain rfl := run_call.mp h₅
    rcases run_runCmd.mp h₇ with ⟨status, rfl, rfl⟩
    have hcommand {cmd : Bytes} {c : UInt8} {t : Trace} {s : ℤ} (hhead : cmd.head? = some c)
        (hc : c ≠ 0x72) (ht : Run (runCmd cmd) t s) : fileEvents t = [] := by
      have hkinds : Kinds [.command] (runCmd cmd) := kinds_runCmd hhead hc (by simp)
      exact fileEvents_of_kinds hkinds (by simp) (by simp) ht
    refine ⟨u, status, ?_⟩
    simp only [fileEvents_append, hcommand rfl (by decide) h₁, hcommand rfl (by decide) h₃,
      hcommand rfl (by decide) h₉, (run_pure.mp h₁₀).1, List.nil_append, List.append_nil]
    simp [fileEvents, touchesFiles]

/-- The attempt writes what the payload and the interface say, as far as the files can be opened. -/
theorem replay_wfrNetConnect {creds : WfrWifiCreds} {prevSsid : Bytes} {attempt : Trace} {ok : Bool}
    (h : Run (wfrNetConnect creds) attempt ok) (rest : Trace) (iface : Bytes) (files : ConfFiles) :
    replay iface files attempt = (answersOf prevSsid attempt rest).written iface creds files := by
  have hne (i : Bytes) := confPath_ne_wpaConfPath i
  have hne' (i : Bytes) := (confPath_ne_wpaConfPath i).symm
  rw [← replay_fileEvents, Answers.written, answersOf, ← fopens_fileEvents attempt,
    ← unlinks_fileEvents attempt]
  rcases fileEvents_wfrNetConnect h with ⟨hnone, hquiet⟩ | ⟨j, wrote, hj, hwrite⟩
  · rw [hnone, hquiet]
    rfl
  · rw [hj]
    rcases run_writeConfig hwrite with ⟨htr, -⟩ | ⟨⟨u, htr⟩, -⟩ | ⟨htr, -⟩
    · simp [htr, replay, applyCall, confAct, wpaAct, fopens]
    · by_cases hpath : wpaConfPath j = wpaConfPath iface <;> cases u <;>
        simp [htr, replay, applyCall, confAct, wpaAct, fopens, unlinks, hpath, hne, hne']
    · by_cases hpath : wpaConfPath j = wpaConfPath iface <;>
        simp [htr, replay, applyCall, confAct, wpaAct, fopens, unlinks, hpath, hne, hne']

/-- The rollback removes the files, as far as they can be. -/
theorem replay_reportOutcome {ackFd : ℤ} {prevSsid : Bytes} {rest : Trace}
    (h : Run (reportOutcome ackFd prevSsid false) rest ()) (attempt : Trace) (iface : Bytes)
    (files : ConfFiles) :
    replay iface files rest = (answersOf prevSsid attempt rest).removed iface files := by
  have hremoves : ⟨.system rmConfCmd, some 0⟩ ∈ rest ↔
      ⟨.system rmConfCmd, some 0⟩ ∈ fileEvents rest := by
    simp [fileEvents, touchesFiles]
  rw [← replay_fileEvents, Answers.removed, Answers.rollsBack, answersOf, ← unlinks_fileEvents rest]
  simp only [hremoves]
  rcases fileEvents_reportOutcome h with ⟨hnone, hquiet⟩ | ⟨hrolls, u, status, hgone⟩
  · rw [← not_and_or.trans (or_congr not_not not_not)] at hnone
    rw [hquiet, if_neg (by simpa using hnone)]
    rfl
  · rw [hgone, if_pos (by simpa using hrolls)]
    by_cases hstatus : status = some 0 <;> by_cases hslash : slash ∈ iface <;> cases u <;>
      simp [replay, applyCall, confAct, wpaAct, unlinks, hstatus, hslash, eq_comm,
        confPath_ne_wpaConfPath]

/-! ## Sequences of handlings -/

/-- A payload and the run of its handling. -/
structure Handling where
  payload : Bytes
  trace : Trace

def Handling.Runs (ackFd : ℤ) (h : Handling) : Prop :=
  Run (handleCredentials ackFd h.payload) h.trace ()

/-- The payload parses and `wfr_net_connect` returns false, with the previous SSID and the calls of
the attempt and of what follows it. -/
structure Handling.Fails (h : Handling) (creds : WfrWifiCreds) (prev : Option Bytes)
    (attempt rest : Trace) : Prop where
  parses : wfrParseWifiString (cstr h.payload) = some creds
  calls : ∃ t, Run (wfrNetGetCurrent (wfrSsidMaxLen + 1)) t prev ∧ h.trace = t ++ (attempt ++ rest)
  connects : Run (wfrNetConnect creds) attempt false

/-- The files after a sequence of handlings. -/
def filesAfter (iface : Bytes) (start : ConfFiles) (hs : List Handling) : ConfFiles :=
  hs.foldl (fun files h => replay iface files h.trace) start

/-- What a failed handling makes of the files is settled by the previous SSID and the answers. -/
theorem Handling.Fails.replay_trace {ackFd : ℤ} {h : Handling} {creds : WfrWifiCreds}
    {prev : Option Bytes} {attempt rest : Trace} (hfails : h.Fails creds prev attempt rest)
    (hruns : h.Runs ackFd) (iface : Bytes) (files : ConfFiles) :
    replay iface files h.trace = (answersOf (prev.getD []) attempt rest).removed iface
      ((answersOf (prev.getD []) attempt rest).written iface creds files) := by
  rcases hfails.calls with ⟨t, hprev, htrace⟩
  have hread : replay iface files t = files := by
    rw [← replay_fileEvents, fileEvents_of_kinds (kinds_wfrNetGetCurrent _) (by simp) (by simp) hprev]
    rfl
  rw [Handling.Runs, htrace, handleCredentials, hfails.parses] at hruns
  have hreport : Run (reportOutcome ackFd (prev.getD []) false) rest () :=
    (hruns.of_bind hprev).of_bind hfails.connects
  rw [htrace, replay_append, replay_append, hread, replay_wfrNetConnect hfails.connects rest,
    replay_reportOutcome hreport attempt]

/-- The files before a failed handling, against what the answers say: a file that is removed was
absent, and one that is written and stays held just that text. -/
structure LeavesAsFound (iface : Bytes) (creds : WfrWifiCreds) (a : Answers) (before : ConfFiles) :
    Prop where
  conf : if a.rollsBack ∧ a.unlinksConf then before.conf = none
    else ∀ j, a.iface = some j → a.opensWpa → a.opensConf → before.conf = some (ifcfgText j)
  wpa : if a.rollsBack ∧ a.removes ∧ slash ∉ iface then before.wpa = none
    else ∀ j, a.iface = some j → wpaConfPath j = wpaConfPath iface → a.opensWpa →
      before.wpa = if a.opensConf = false ∧ a.unlinksWpa then none else some (wpaConfText creds)

theorem Answers.restores_iff (a : Answers) (iface : Bytes) (creds : WfrWifiCreds) (before : ConfFiles) :
    a.removed iface (a.written iface creds before) = before ↔ LeavesAsFound iface creds a before := by
  have hconf : (a.removed iface (a.written iface creds before)).conf = before.conf ↔
      if a.rollsBack ∧ a.unlinksConf then before.conf = none
      else ∀ j, a.iface = some j → a.opensWpa → a.opensConf → before.conf = some (ifcfgText j) := by
    rw [removed_conf]
    split
    · exact eq_comm
    · cases hiface : a.iface with
      | none => simp [written, hiface]
      | some j =>
        simp only [written, hiface, ite_eq_right_iff, and_imp, Option.some.injEq, forall_eq']
        rw [eq_comm (a := before.conf)]
  have hwpa : (a.removed iface (a.written iface creds before)).wpa = before.wpa ↔
      if a.rollsBack ∧ a.removes ∧ slash ∉ iface then before.wpa = none
      else ∀ j, a.iface = some j → wpaConfPath j = wpaConfPath iface → a.opensWpa →
        before.wpa = if a.opensConf = false ∧ a.unlinksWpa then none else some (wpaConfText creds) := by
    rw [removed_wpa]
    split
    · exact eq_comm
    · cases hiface : a.iface with
      | none => simp [written, hiface]
      | some j =>
        simp only [written, hiface, ite_eq_right_iff, and_imp, Option.some.injEq, forall_eq']
        rw [eq_comm (a := before.wpa)]
  rw [ConfFiles.ext_iff, hconf, hwpa]
  exact ⟨fun h => ⟨h.1, h.2⟩, fun h => ⟨h.conf, h.wpa⟩⟩

/-- In every sequence of handlings, a failed one restores both files if and only if the previous
SSID, the answers and the files before it are such that it leaves them as found. -/
theorem handleCredentials_restores_iff (ackFd : ℤ) (iface : Bytes) (start : ConfFiles)
    (hs : List Handling) (hruns : ∀ h ∈ hs, h.Runs ackFd) (earlier : List Handling) (h : Handling)
    (later : List Handling) (hsplit : hs = earlier ++ h :: later) (creds : WfrWifiCreds)
    (prev : Option Bytes) (attempt rest : Trace) (hfails : h.Fails creds prev attempt rest) :
    filesAfter iface start (earlier ++ [h]) = filesAfter iface start earlier ↔
      LeavesAsFound iface creds (answersOf (prev.getD []) attempt rest)
        (filesAfter iface start earlier) := by
  have hrun : h.Runs ackFd := hruns h (by simp [hsplit])
  have hlast : filesAfter iface start (earlier ++ [h]) =
      replay iface (filesAfter iface start earlier) h.trace := by simp [filesAfter]
  rw [hlast, hfails.replay_trace hrun]
  exact Answers.restores_iff _ iface creds _

/-! ## A rollback over the files of an earlier join -/

/-- An ifupdown system connected to `A`: it finds `wlan0`, joined and with an address. -/
private def answerJoined (_ : ℕ) : (c : Call) → c.Answer
  | .system cmd => if cmd = rmConfCmd then some 0 else some 1
  | .popen cmd =>
    if cmd = detectCmd then some (ascii "wlan0\n")
    else if cmd = wpaStateCmd (ascii "wlan0") then some (ascii "COMPLETED\n")
    else if cmd = wpaSsidCmd (ascii "wlan0") then some (ascii "A\n")
    else if cmd = ipAddrCmd (ascii "wlan0") then some (ascii "10.0.0.2\n")
    else none
  | .sleep _ => ()
  | .delayMs _ => ()
  | .getaddrinfo _ _ => true
  | .writeFile _ _ => true
  | .unlink _ => true
  | .writeScancode _ _ => true

private def handlingOf (payload : Bytes) : Handling where
  payload := payload
  trace := (runWith answerJoined 0 (handleCredentials (-1) payload)).1

private theorem runs_handlingOf (payload : Bytes) : (handlingOf payload).Runs (-1) :=
  run_runWith answerJoined (handleCredentials (-1) payload) 0

private def joinA : Handling := handlingOf (ascii "WIFI:S:A;T:nopass;;")

private def joinB : Handling := handlingOf (ascii "WIFI:S:B;T:nopass;;")

private def credsB : WfrWifiCreds where
  ssid := CString.ofBytes wfrSsidMaxLen (ascii "B")
  password := CString.ofBytes wfrPassMaxLen []
  security := wfrSecOpen
  hidden := false

private def prevB : Trace × Option Bytes :=
  runWith answerJoined 0 (wfrNetGetCurrent (wfrSsidMaxLen + 1))

private def attemptB : Trace × Bool := runWith answerJoined 0 (wfrNetConnect credsB)

private def restB : Trace := joinB.trace.drop (prevB.1.length + attemptB.1.length)

private theorem joinB_fails : joinB.Fails credsB prevB.2 attemptB.1 restB := by
  have hconnect := run_runWith answerJoined (wfrNetConnect credsB) 0
  have hfalse : attemptB.2 = false := by decide +kernel
  rw [attemptB] at hfalse
  rw [hfalse] at hconnect
  refine ⟨by decide +kernel, ⟨prevB.1, ?_, by decide +kernel⟩, hconnect⟩
  exact run_runWith answerJoined (wfrNetGetCurrent (wfrSsidMaxLen + 1)) 0

private theorem runs_joins : ∀ h ∈ [joinA, joinB], h.Runs (-1) := by
  simp only [List.forall_mem_cons]
  exact ⟨runs_handlingOf _, runs_handlingOf _, by simp⟩

/-- The second handling, on a system with the files of the first. -/
theorem handleCredentials_restores_iff_second :
    filesAfter (ascii "wlan0") ⟨none, none⟩ ([joinA] ++ [joinB]) =
        filesAfter (ascii "wlan0") ⟨none, none⟩ [joinA] ↔
      LeavesAsFound (ascii "wlan0") credsB (answersOf (prevB.2.getD []) attemptB.1 restB)
        (filesAfter (ascii "wlan0") ⟨none, none⟩ [joinA]) :=
  handleCredentials_restores_iff (-1) (ascii "wlan0") ⟨none, none⟩ [joinA, joinB] runs_joins [joinA]
    joinB [] rfl credsB prevB.2 attemptB.1 restB joinB_fails

/-- The files of the join of `A` are gone after the failed join of `B`. -/
theorem rollback_removes_joined :
    (∀ h ∈ [joinA, joinB], h.Runs (-1)) ∧ joinB.Fails credsB prevB.2 attemptB.1 restB ∧
      ∃ conf wpa, filesAfter (ascii "wlan0") ⟨none, none⟩ [joinA] = ⟨some conf, some wpa⟩ ∧
        filesAfter (ascii "wlan0") ⟨none, none⟩ [joinA, joinB] = ⟨none, none⟩ := by
  refine ⟨runs_joins, joinB_fails, ifcfgText (ascii "wlan0"),
    ((filesAfter (ascii "wlan0") ⟨none, none⟩ [joinA]).wpa).getD [], ?_, ?_⟩
  · decide +kernel
  · decide +kernel

end InfraFi.Daemon
