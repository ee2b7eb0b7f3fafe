import InfraFi.Daemon.Footprint

/-! # Which back-end is used

An attempt and a rollback look for NetworkManager, for systemd-networkd and for
an interface, in different orders. What the looks are answered decides which
back-end works and on which interface.
-/
namespace InfraFi.Daemon
open Base Protocol Prog

/-- What the first looks of a run are answered. -/
structure Looks where
  networkManager : Bool
  networkd : Bool
  iface : Option Bytes
deriving DecidableEq

def whichCmd : Bytes := ascii "which nmcli >/dev/null 2>&1"

def networkManagerCmd : Bytes := ascii "systemctl is-active --quiet NetworkManager"

def networkdCmd : Bytes := ascii "systemctl is-active --quiet systemd-networkd"

def looksOf (tr : Trace) : Looks where
  networkManager := firstAnswer (.system whichCmd) tr = some (some 0) ∧
    firstAnswer (.system networkManagerCmd) tr = some (some 0)
  networkd := firstAnswer (.system networkdCmd) tr = some (some 0)
  iface := (firstAnswer (.popen detectCmd) tr).bind (answerLine 32)

/-- The interface that ifupdown is used on. -/
def Looks.ifupdownIface (l : Looks) : Option Bytes :=
  if l.networkManager = true ∨ l.networkd = true then none else l.iface

/-- The interface that `wpa_cli` is used on. -/
def Looks.networkdIface (l : Looks) : Option Bytes :=
  if l.networkManager = false ∧ l.networkd = true then l.iface else none

theorem Looks.one_backend (l : Looks) : l.ifupdownIface = none ∨ l.networkdIface = none := by
  rw [ifupdownIface, networkdIface]
  cases l.networkManager <;> cases l.networkd <;> simp

theorem exitStatus_eq_zero {x : Option UInt8} : exitStatus x = 0 ↔ x = some 0 := by
  cases x with
  | none => simp [exitStatus]
  | some status =>
    rw [exitStatus, Option.some.injEq, Int.natCast_eq_zero]
    exact ⟨fun h => UInt8.toNat_inj.mp h, fun h => h ▸ rfl⟩

/-! ## The looks -/

section Looking
variable {s tr : Trace}

/-- The three commands and the scan do not answer for one another. -/
theorem looks_ne : (∀ cmd, Call.system cmd ≠ .popen detectCmd) ∧
    Call.system whichCmd ≠ .system networkManagerCmd ∧ Call.system whichCmd ≠ .system networkdCmd ∧
    Call.system networkManagerCmd ≠ .system networkdCmd ∧
    ∀ cmd, Call.popen detectCmd ≠ .system cmd :=
  ⟨nofun, by decide, by decide, by decide, nofun⟩

/-- The second command is run when the first one exits with 0. -/
theorem run_hasNetworkmanager {nm : Bool} (h : Run wfrNetHasNetworkmanager s nm) :
    (∃ x, x ≠ some 0 ∧ s = [⟨.system whichCmd, x⟩] ∧ nm = false) ∨
      ∃ y, s = [⟨.system whichCmd, some 0⟩, ⟨.system networkManagerCmd, y⟩] ∧
        nm = decide (y = some 0) := by
  rcases run_bind.mp h with ⟨t₁, status, t₂, rfl, h₁, h₂⟩
  rcases run_runCmd.mp h₁ with ⟨x, rfl, rfl⟩
  split at h₂
  · rename_i hx
    rcases run_pure.mp h₂ with ⟨rfl, rfl⟩
    exact .inl ⟨x, mt exitStatus_eq_zero.mpr hx, rfl, rfl⟩
  · rename_i hx
    obtain rfl := exitStatus_eq_zero.mp (not_not.mp hx)
    rcases run_bind.mp h₂ with ⟨t₃, status, t₄, rfl, h₃, h₄⟩
    rcases run_runCmd.mp h₃ with ⟨y, rfl, rfl⟩
    rcases run_pure.mp h₄ with ⟨rfl, rfl⟩
    exact .inr ⟨y, rfl, decide_eq_decide.mpr exitStatus_eq_zero⟩

theorem run_hasSystemdNetworkd {networkd : Bool} (h : Run hasSystemdNetworkd s networkd) :
    ∃ x, s = [⟨.system networkdCmd, x⟩] ∧ networkd = decide (x = some 0) := by
  rcases run_bind.mp h with ⟨t₁, status, t₂, rfl, h₁, h₂⟩
  rcases run_runCmd.mp h₁ with ⟨x, rfl, rfl⟩
  rcases run_pure.mp h₂ with ⟨rfl, rfl⟩
  exact ⟨x, rfl, decide_eq_decide.mpr exitStatus_eq_zero⟩

theorem looksOf_hasNetworkmanager {nm : Bool} (h : Run wfrNetHasNetworkmanager s nm) :
    looksOf (s ++ tr) = { looksOf tr with networkManager := nm } := by
  rcases looks_ne with ⟨hscan, hmanager, hnetworkd, hother, -⟩
  rcases run_hasNetworkmanager h with ⟨x, hx, rfl, rfl⟩ | ⟨y, rfl, rfl⟩
  · simp [looksOf, firstAnswer_of_ne, hx, hscan, hnetworkd]
  · simp [looksOf, firstAnswer_of_ne, hscan, hmanager, hnetworkd, hother]

theorem looksOf_hasSystemdNetworkd {networkd : Bool} (h : Run hasSystemdNetworkd s networkd) :
    looksOf (s ++ tr) = { looksOf tr with networkd := networkd } := by
  rcases looks_ne with ⟨hscan, -, hwhich, hmanager, -⟩
  rcases run_hasSystemdNetworkd h with ⟨x, rfl, rfl⟩
  simp [looksOf, firstAnswer_of_ne, hscan, hwhich.symm, hmanager.symm]

theorem looksOf_detectWifiIface {found : Option Bytes} (h : Run (detectWifiIface 32) s found) :
    looksOf (s ++ tr) = { looksOf tr with iface := found } := by
  rcases run_detectWifiIface.mp h with ⟨x, rfl, rfl⟩
  simp [looksOf, firstAnswer_of_ne, looks_ne.2.2.2.2]

/-- Calls of other kinds tell nothing about the system. -/
theorem looksOf_append (h : ∀ e ∈ s, e.1.kind ∈ [.pause, .scancode]) :
    looksOf (s ++ tr) = looksOf tr := by
  have hne {c : Call} (hc : c.kind ∉ [CallKind.pause, .scancode]) : ∀ e ∈ s, e.1 ≠ c := by
    rintro e he rfl
    exact hc (h e he)
  have hsystem (cmd : Bytes) : (Call.system cmd).kind ∉ [CallKind.pause, .scancode] := by
    rw [Call.kind]
    split <;> decide
  have hscan : (Call.popen detectCmd).kind ∉ [CallKind.pause, .scancode] := by
    rw [kind_of_getLast? (c := 0x65) rfl (by decide)]
    decide
  simp only [looksOf, firstAnswer_append (hne (hsystem _)), firstAnswer_append (hne hscan)]

end Looking

/-! ## What the looks lead to -/

/-- An attempt behind its looks. -/
inductive Attempted (creds : WfrWifiCreds) (l : Looks) (tr : Trace) (ok : Bool) : Prop where
  | unnamed (hiface : l.iface = none) (htr : tr = [])
  | nmcli (hnm : l.networkManager = true) (h : Run (wfrNetConnectNmcli creds) tr ok)
  | networkd (hnm : l.networkManager = false) (hnetworkd : l.networkd = true)
      (h : Run (wfrNetConnectNetworkd creds) tr ok)
  | interfaces (hnm : l.networkManager = false) (hnetworkd : l.networkd = false)
      (h : Run (wfrNetConnectInterfaces creds) tr ok) (hiface : l.iface = (looksOf tr).iface)

/-- A rollback behind its looks. -/
inductive RolledBack (l : Looks) (tr : Trace) : Prop where
  | neither (hifupdown : l.ifupdownIface = none) (hnetworkd : l.networkdIface = none)
      (h : ∀ e ∈ tr, e.1.kind ∈ [.command])
  | networkd (iface : Bytes) (x : Option Bytes) (hiface : l.networkdIface = some iface)
      (hlen : iface.length ≤ 31)
      (htr : tr = [⟨.popen (wpaCliCmd 256 iface (ascii "reconfigure")), x⟩])
  | interfaces (iface : Bytes) (ok : Bool) (hiface : l.ifupdownIface = some iface)
      (h : Run (rollbackInterfaces iface) tr ok)

section Cases
variable {tr : Trace}

theorem run_wfrNetConnect {creds : WfrWifiCreds} {ok : Bool} (h : Run (wfrNetConnect creds) tr ok) :
    ∃ looking rest, tr = looking ++ rest ∧ (∀ e ∈ looking, e.1.kind ∈ [.command]) ∧
      Attempted creds (looksOf tr) rest ok := by
  unfold wfrNetConnect at h
  split at h
  · obtain rfl := (run_pure.mp h).1
    exact ⟨[], [], rfl, by simp, .unnamed rfl rfl⟩
  rcases run_bind.mp h with ⟨t₁, nm, t₂, rfl, h₁, h₂⟩
  have hnm := kinds_hasNetworkmanager.run h₁
  rw [looksOf_hasNetworkmanager h₁]
  split at h₂
  · rename_i htrue
    exact ⟨t₁, t₂, rfl, hnm, .nmcli htrue h₂⟩
  rename_i hfalse
  rw [Bool.not_eq_true] at hfalse
  rcases run_bind.mp h₂ with ⟨t₃, networkd, t₄, rfl, h₃, h₄⟩
  rw [looksOf_hasSystemdNetworkd h₃]
  refine ⟨t₁ ++ t₃, t₄, by rw [List.append_assoc], ?_, ?_⟩
  · exact List.forall_mem_append.mpr ⟨hnm, kinds_hasSystemdNetworkd.run h₃⟩
  · split at h₄
    · rename_i htrue
      exact .networkd hfalse htrue h₄
    · rename_i hneither
      exact .interfaces hfalse (Bool.not_eq_true _ ▸ hneither) h₄ rfl

theorem run_wfrNetRollback {ssid : Bytes} {ok : Bool} (h : Run (wfrNetRollback ssid) tr ok) :
    ∃ looking rest, tr = looking ++ rest ∧ (∀ e ∈ looking, e.1.kind ∈ [.command, .query]) ∧
      (ssid = [] ∧ rest = [] ∨ ssid ≠ [] ∧ RolledBack (looksOf tr) rest) := by
  unfold wfrNetRollback at h
  split at h
  · rename_i hssid
    obtain rfl := (run_pure.mp h).1
    exact ⟨[], [], rfl, by simp, .inl ⟨hssid, rfl⟩⟩
  rename_i hssid
  have hlooks {α : Type} {ks : List CallKind} {p : Cmd α} (hp : Kinds ks p)
      (hks : ks ⊆ [.command, .query]) {t : Trace} {a : α} (ht : Run p t a) :
      ∀ e ∈ t, e.1.kind ∈ [.command, .query] := fun e he => hks (hp.run ht e he)
  rcases run_bind.mp h with ⟨t₁, nm, t₂, rfl, h₁, h₂⟩
  have hnm := hlooks kinds_hasNetworkmanager (by simp) h₁
  rw [looksOf_hasNetworkmanager h₁]
  split at h₂
  · rename_i htrue
    refine ⟨t₁, t₂, rfl, hnm, .inr ⟨hssid, .neither ?_ ?_ ((kinds_rollbackNmcli ssid).run h₂)⟩⟩
    · simp [Looks.ifupdownIface, htrue]
    · simp [Looks.networkdIface, htrue]
  rename_i hfalse
  rw [Bool.not_eq_true] at hfalse
  rcases run_bind.mp h₂ with ⟨t₃, found, t₄, rfl, h₃, h₄⟩
  have hlooking := List.forall_mem_append.mpr ⟨hnm, hlooks (kinds_detectWifiIface 32) (by simp) h₃⟩
  rw [looksOf_detectWifiIface h₃]
  cases found with
  | none =>
    obtain rfl := (run_pure.mp h₄).1
    refine ⟨t₁ ++ t₃, [], by rw [List.append_assoc], hlooking, .inr ⟨hssid, .neither ?_ ?_ (by simp)⟩⟩
    · simp [Looks.ifupdownIface]
    · simp [Looks.networkdIface]
  | some iface =>
    rcases run_bind.mp h₄ with ⟨t₅, networkd, t₆, rfl, h₅, h₆⟩
    rw [looksOf_hasSystemdNetworkd h₅]
    refine ⟨t₁ ++ t₃ ++ t₅, t₆, by simp only [List.append_assoc], ?_, .inr ⟨hssid, ?_⟩⟩
    · exact List.forall_mem_append.mpr ⟨hlooking, hlooks kinds_hasSystemdNetworkd (by simp) h₅⟩
    · split at h₆
      · rename_i htrue
        rcases run_bind.mp h₆ with ⟨t₇, accepted, t₈, rfl, h₇, h₈⟩
        rcases run_runWpaCmd.mp h₇ with ⟨x, rfl, -⟩
        obtain rfl := (run_pure.mp h₈).1
        exact .networkd iface x (by simp [Looks.networkdIface, hfalse, htrue])
          (length_of_detectWifiIface h₃) rfl
      · rename_i hneither
        exact .interfaces iface ok (by simp [Looks.ifupdownIface, hfalse, hneither]) h₆

/-- What follows a failed attempt: the response, the looks of the rollback and the rollback. -/
theorem run_reportOutcome_false {ackFd : ℤ} {prevSsid : Bytes}
    (h : Run (reportOutcome ackFd prevSsid false) tr ()) :
    ∃ looking rest, tr = looking ++ rest ∧
      (∀ e ∈ looking, e.1.kind ∈ [.command, .query, .pause, .scancode]) ∧
      (prevSsid = [] ∧ rest = [] ∨ prevSsid ≠ [] ∧ RolledBack (looksOf tr) rest) := by
  rcases run_bind.mp h with ⟨t₁, u, t₂, rfl, h₁, h₂⟩
  have hack := (kinds_sendAck_false ackFd).run h₁
  have hack' : ∀ e ∈ t₁, e.1.kind ∈ [CallKind.command, .query, .pause, .scancode] := fun e he =>
    List.mem_cons_of_mem _ (List.mem_cons_of_mem _ (hack e he))
  rw [looksOf_append hack]
  split at h₂
  · rcases run_bind.mp h₂ with ⟨t₃, ok, t₄, rfl, h₃, h₄⟩
    obtain rfl := (run_pure.mp h₄).1
    rw [List.append_nil]
    rcases run_wfrNetRollback h₃ with ⟨looking, rest, rfl, hlooking, hrest⟩
    refine ⟨t₁ ++ looking, rest, by rw [List.append_assoc], ?_, hrest⟩
    refine List.forall_mem_append.mpr ⟨hack', fun e he => ?_⟩
    exact List.mem_append_left [.pause, .scancode] (hlooking e he)
  · rename_i hprev
    obtain rfl := (run_pure.mp h₂).1
    exact ⟨t₁, [], rfl, hack', .inl ⟨not_not.mp hprev, rfl⟩⟩

end Cases

end InfraFi.Daemon
