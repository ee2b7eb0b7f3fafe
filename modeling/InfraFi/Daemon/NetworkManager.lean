import InfraFi.Base.Arguments
import InfraFi.Daemon.Footprint
import InfraFi.Daemon.Injection

/-! # What NetworkManager is told

With NetworkManager the daemon works through `nmcli` alone. What it asks for is
read off the command lines as the shell hands them to the program.
-/
namespace InfraFi.Daemon
open Base Protocol Prog Shell

inductive NmRequest where
  | connect (ssid : Bytes) (password : Option Bytes) (hidden : Bool)
  | up (ssid : Bytes)
deriving DecidableEq

/-- `nmcli` and its arguments. -/
def NmRequest.arguments : NmRequest → List Bytes
  | .connect ssid password hidden =>
    [ascii "nmcli", ascii "dev", ascii "wifi", ascii "connect", ssid] ++
      (match password with
      | some pass => [ascii "password", pass]
      | none => []) ++
      if hidden then [ascii "hidden", ascii "yes"] else []
  | .up ssid => [ascii "nmcli", ascii "con", ascii "up", ssid]

/-- An open network is joined without a password. -/
def joinRequest (creds : WfrWifiCreds) : NmRequest :=
  .connect creds.ssid.bytes (if creds.security = wfrSecOpen then none else some creds.password.bytes)
    creds.hidden

/-- The looks for a running NetworkManager. -/
def looks : List (List Bytes) :=
  [[ascii "which", ascii "nmcli"],
    [ascii "systemctl", ascii "is-active", ascii "--quiet", ascii "NetworkManager"]]

def isLook (cmd : Bytes) : Bool := arguments cmd ∈ looks.map some

/-- The commands that are run besides these looks, as the shell reads them, with their answers. -/
def told (tr : Trace) : List (Option (List Bytes) × Option UInt8) :=
  tr.filterMap (fun
    | ⟨.system cmd, x⟩ => if isLook cmd then none else some (arguments cmd, x)
    | _ => none)

def lookFails : Event Call Call.Answer → Bool
  | ⟨.system cmd, x⟩ => isLook cmd && decide (x ≠ some 0)
  | _ => false

/-- NetworkManager is there at every look. -/
def Managed (tr : Trace) : Prop := ∀ e ∈ tr, lookFails e = false

instance (tr : Trace) : Decidable (Managed tr) := inferInstanceAs (Decidable (∀ e ∈ tr, _))

/-- A part of a run asks NetworkManager for this, with these answers, and changes nothing itself. -/
structure Tells (tr : Trace) (asked : List (NmRequest × Option UInt8)) : Prop where
  told : told tr = asked.map (fun a => (some a.1.arguments, a.2))
  kinds : ∀ e ∈ tr, e.1.kind ∈ [.command, .query, .pause, .lookup, .scancode]

/-- The arguments tell the request. -/
theorem NmRequest.arguments_injective : Function.Injective NmRequest.arguments := by
  have hkeys : ascii "password" ≠ ascii "hidden" := by decide
  have hnames : ascii "dev" ≠ ascii "con" := by decide
  have hother (ssid ssid' : Bytes) (password : Option Bytes) (hidden : Bool) :
      (NmRequest.connect ssid password hidden).arguments ≠ (NmRequest.up ssid').arguments := by
    intro h
    exact hnames (List.cons.inj (List.cons.inj h).2).1
  intro q q' h
  cases q with
  | connect ssid password hidden =>
    cases q' with
    | connect ssid' password' hidden' =>
      cases password <;> cases password' <;> cases hidden <;> cases hidden' <;> simp_all [arguments]
    | up ssid' => exact absurd h (hother ssid ssid' password hidden)
  | up ssid =>
    cases q' with
    | connect ssid' password hidden => exact absurd h.symm (hother ssid' ssid password hidden)
    | up ssid' => simpa [arguments] using h

section Parts
variable {s t tr : Trace} {asked asked' : List (NmRequest × Option UInt8)}

theorem managed_append : Managed (s ++ t) ↔ Managed s ∧ Managed t := List.forall_mem_append

theorem Tells.append (h : Tells s asked) (h' : Tells t asked') : Tells (s ++ t) (asked ++ asked') := by
  constructor
  · rw [Daemon.told, List.filterMap_append, List.map_append, ← h.told, ← h'.told]
    rfl
  · exact List.forall_mem_append.mpr ⟨h.kinds, h'.kinds⟩

theorem tells_nil : Tells [] [] := ⟨rfl, by simp⟩

/-- A run asks for one list of requests only. -/
theorem Tells.unique (h : Tells tr asked) (h' : Tells tr asked') : asked = asked' := by
  have hinj : Function.Injective
      (fun a : NmRequest × Option UInt8 => (some a.1.arguments, a.2)) := by
    rintro ⟨q, x⟩ ⟨q', x'⟩ hq
    obtain ⟨hargs, rfl⟩ := Prod.mk.inj hq
    exact Prod.ext (NmRequest.arguments_injective (Option.some.inj hargs)) rfl
  exact List.map_injective_iff.mpr hinj (h.told.symm.trans h'.told)

/-- Only commands tell anything. -/
theorem tells_of_kinds (h : ∀ e ∈ tr, e.1.kind ∈ [.query, .pause, .lookup, .scancode]) : Tells tr [] := by
  constructor
  · rw [List.map_nil, Daemon.told, List.filterMap_eq_nil_iff]
    rintro ⟨c, x⟩ he
    cases c with
    | system cmd =>
      have hkind := h _ he
      simp only [Call.kind] at hkind
      split at hkind <;> simp at hkind
    | _ => rfl
  · intro e he
    exact List.mem_cons_of_mem _ (h e he)

theorem tells_of_run {α : Type} {ks : List CallKind} {p : Cmd α} {a : α} (hp : Kinds ks p)
    (hks : ks ⊆ [.query, .pause, .lookup, .scancode]) (h : Run p tr a) : Tells tr [] :=
  tells_of_kinds fun e he => hks (hp.run h e he)

/-- A pattern is no argument list, so the command that removes our files is none. -/
theorem kinds_of_arguments {cmd : Bytes} {ws : List Bytes} (h : arguments cmd = some ws)
    (x : Option UInt8) : ∀ e ∈ ([⟨.system cmd, x⟩] : Trace),
      e.1.kind ∈ [.command, .query, .pause, .lookup, .scancode] := by
  have hne : cmd ≠ rmConfCmd := by
    rintro rfl
    have hrm : arguments rmConfCmd = none := by decide +kernel
    cases h.symm.trans hrm
  intro e he
  rw [List.mem_singleton.mp he, Call.kind, if_neg hne]
  exact List.mem_cons_self

theorem NmRequest.not_look (q : NmRequest) : some q.arguments ∉ looks.map some := by
  have hnames : ascii "nmcli" ≠ ascii "which" ∧ ascii "nmcli" ≠ ascii "systemctl" := by decide
  cases q <;> simp [looks, arguments, hnames.1, hnames.2]

/-- One request with its answer. -/
theorem tells_request {cmd : Bytes} {q : NmRequest} (h : arguments cmd = some q.arguments)
    (x : Option UInt8) : Tells [⟨.system cmd, x⟩] [(q, x)] := by
  have hlook : isLook cmd = false := by
    rw [isLook, h]
    exact decide_eq_false q.not_look
  exact ⟨by simp [Daemon.told, hlook, h], kinds_of_arguments h x⟩

/-- A look that finds NetworkManager. -/
theorem tells_look {cmd : Bytes} {x : Option UInt8} (hcmd : isLook cmd = true)
    (h : Managed [⟨.system cmd, x⟩]) : x = some 0 ∧ Tells [⟨.system cmd, x⟩] [] := by
  have hfound : x = some 0 := by
    simpa [lookFails, hcmd] using h _ (List.mem_singleton_self _)
  obtain ⟨ws, -, hws⟩ := List.mem_map.mp (of_decide_eq_true hcmd)
  exact ⟨hfound, by simp [Daemon.told, hcmd], kinds_of_arguments hws.symm x⟩

theorem tells_hasNetworkmanager {nm : Bool} (h : Run wfrNetHasNetworkmanager tr nm)
    (hm : Managed tr) : nm = true ∧ Tells tr [] := by
  obtain ⟨t₁, status, t₂, rfl, h₁, h₂⟩ := run_bind.mp h
  obtain ⟨x, rfl, rfl⟩ := run_runCmd.mp h₁
  obtain ⟨hm₁, hm₂⟩ := managed_append.mp hm
  obtain ⟨rfl, hfirst⟩ := tells_look (by decide +kernel) hm₁
  rw [if_neg (by decide)] at h₂
  obtain ⟨t₃, status, t₄, rfl, h₃, h₄⟩ := run_bind.mp h₂
  obtain ⟨y, rfl, rfl⟩ := run_runCmd.mp h₃
  obtain ⟨rfl, hsecond⟩ := tells_look (by decide +kernel) (managed_append.mp hm₂).1
  obtain ⟨rfl, rfl⟩ := run_pure.mp h₄
  exact ⟨rfl, hfirst.append (hsecond.append tells_nil)⟩

/-! ## The current network -/

theorem text_getCurrentFromWpa {size : ℕ} {current : Option Bytes}
    (h : Run (getCurrentFromWpa size) tr current) {ssid : Bytes} (hssid : current = some ssid) :
    ssid ≠ [] ∧ ssid.length ≤ size - 1 := by
  obtain ⟨t₁, iface, t₂, rfl, -, h₂⟩ := run_bind.mp h
  cases iface with
  | none =>
    obtain ⟨-, rfl⟩ := run_pure.mp h₂
    cases hssid
  | some iface =>
    obtain ⟨x, -, hx⟩ := run_runCmdLine.mp h₂
    obtain ⟨hne, -, hlen⟩ := answerLine_eq_some (hx.symm.trans hssid)
    exact ⟨hne, hlen⟩

/-- The lookup of the current network only asks. -/
theorem tells_getCurrent {current : Option Bytes}
    (h : Run (wfrNetGetCurrent (wfrSsidMaxLen + 1)) tr current) (hm : Managed tr) :
    Tells tr [] ∧ ∀ ssid, current = some ssid → ssid ≠ [] ∧ ssid.length ≤ wfrSsidMaxLen := by
  obtain ⟨t₁, nm, t₂, rfl, h₁, h₂⟩ := run_bind.mp h
  obtain ⟨rfl, hlook⟩ := tells_hasNetworkmanager h₁ (managed_append.mp hm).1
  rw [if_pos rfl] at h₂
  obtain ⟨t₃, line, t₄, rfl, h₃, h₄⟩ := run_bind.mp h₂
  have hquery : (Call.popen (ascii
      "nmcli -t -f active,ssid dev wifi 2>/dev/null | grep '^yes:'")).kind ∈ [CallKind.query] := by
    rw [kind_of_getLast? (c := 0x27) rfl (by decide)]
    exact List.mem_singleton_self _
  have hask := tells_of_run (kinds_read hquery) (by simp) h₃
  dsimp only at h₄
  split at h₄
  · rename_i hgot
    obtain ⟨rfl, rfl⟩ := run_pure.mp h₄
    refine ⟨hlook.append (hask.append tells_nil), ?_⟩
    rintro ssid hssid
    rw [← Option.some.inj hssid, snprintf]
    refine ⟨?_, List.length_take_le _ _⟩
    rw [Ne, List.take_eq_nil_iff, not_or]
    exact ⟨by decide, hgot.2⟩
  · have hrest := tells_of_run (kinds_getCurrentFromWpa _) (by simp) h₄
    exact ⟨hlook.append (hask.append hrest), fun ssid hssid => text_getCurrentFromWpa h₄ hssid⟩

end Parts

/-! ## The requests -/

section Requests
variable {tr : Trace} {creds : WfrWifiCreds}

/-- Any escaped text is an argument. -/
theorem words_escaped (front : List Bytes) {pre text src rest : Bytes} {us : List Bytes}
    (hpre : Shell.run .plain pre = ((front.map (·.map .bare)).map .word, .plain))
    (hfront : (front.map (·.map .bare)).map literal = front.map some)
    (htext : Shell.run .plain text = ([], .word (src.map .quoted))) (hrest : words rest = some us) :
    words (pre ++ text ++ 0x20 :: rest) = some (front ++ src :: us) :=
  words_between hpre hfront htext (literal_quoted src) hrest

theorem words_nmcliTail (hidden : Bool) :
    words (nmcliTail hidden) = some (if hidden then [ascii "hidden", ascii "yes"] else []) := by
  cases hidden <;> decide +kernel

theorem arguments_connect (creds : WfrWifiCreds) {ssid pass : Bytes} (hssid : ssid.length < 256)
    (hpass : pass.length < 256)
    (hssidRun : Shell.run .plain ssid = ([], .word (creds.ssid.bytes.map .quoted)))
    (hpassRun : Shell.run .plain pass = ([], .word (creds.password.bytes.map .quoted))) :
    arguments (nmcliConnectCmd creds ssid pass) = some (joinRequest creds).arguments := by
  have hname : ascii "nmcli" ∉ reserved := by decide
  have htail := words_nmcliTail creds.hidden
  have hfront {rest : Bytes} {us : List Bytes} (hrest : words rest = some us) :
      words (ascii "nmcli dev wifi connect " ++ ssid ++ 0x20 :: rest) = some
        ([ascii "nmcli", ascii "dev", ascii "wifi", ascii "connect"] ++ creds.ssid.bytes :: us) :=
    words_escaped _ (by decide +kernel) (by decide +kernel) hssidRun hrest
  refine arguments_of_words ?_ hname
  by_cases hopen : creds.security = wfrSecOpen
  · rw [nmcliConnectCmd_open hopen hssid, hfront htail]
    simp [hopen]
  · have hrest : words (ascii "password " ++ pass ++ 0x20 :: nmcliTail creds.hidden) = some
        ([ascii "password"] ++ creds.password.bytes ::
          if creds.hidden then [ascii "hidden", ascii "yes"] else []) :=
      words_escaped _ (by decide +kernel) (by decide +kernel) hpassRun htail
    rw [nmcliConnectCmd_password hopen hssid hpass, hfront hrest]
    simp [hopen]

theorem exitStatus_eq_zero_iff {x : Option UInt8} : exitStatus x = 0 ↔ x = some 0 := by
  cases x with
  | none => decide
  | some status => simp [exitStatus, ← UInt8.toNat_inj]

theorem tells_connectNmcli {connected : Bool} (h : Run (wfrNetConnectNmcli creds) tr connected) :
    ∃ x, Tells tr [(joinRequest creds, x)] ∧ (connected = true ↔ x = some 0) := by
  obtain ⟨ssid, hssid, hlen, hrun⟩ := shellEscape_eq_some
    (creds.ssid.length_le.trans (by decide : wfrSsidMaxLen ≤ 63))
  obtain ⟨pass, hpass, hplen, hprun⟩ := shellEscape_eq_some creds.password.length_le
  have hnone : ¬ (creds.security ≠ wfrSecOpen ∧ some pass = none) := fun h => by cases h.2
  unfold wfrNetConnectNmcli at h
  simp only [hssid, hpass, if_neg hnone, Option.getD_some] at h
  obtain ⟨t₁, status, t₂, rfl, h₁, h₂⟩ := run_bind.mp h
  obtain ⟨x, rfl, rfl⟩ := run_runCmd.mp h₁
  have hasked := tells_request (arguments_connect creds hlen hplen hrun hprun) x
  refine ⟨x, ?_⟩
  by_cases hx : x = some 0
  · rw [if_neg (not_not.mpr (exitStatus_eq_zero_iff.mpr hx))] at h₂
    have hwait : Kinds [.pause, .lookup] (do
        call (.sleep 3)
        let _ ← verifyConnectivity
        return true) := by
      apply (kinds_call (by simp [Call.kind])).bind
      intro u
      exact (kinds_verifyConnectivity.mono (by simp)).bind fun _ => only_pure _
    have hrest := tells_of_run hwait (by simp) h₂
    obtain ⟨t₃, u, t₄, rfl, -, h₄⟩ := run_bind.mp h₂
    obtain ⟨t₅, v, t₆, rfl, -, h₆⟩ := run_bind.mp h₄
    obtain ⟨rfl, rfl⟩ := run_pure.mp h₆
    exact ⟨hasked.append hrest, by simp [hx]⟩
  · rw [if_pos (mt exitStatus_eq_zero_iff.mp hx)] at h₂
    obtain ⟨rfl, rfl⟩ := run_pure.mp h₂
    exact ⟨hasked.append tells_nil, by simp [hx]⟩

/-- An attempt is one request, and its answer is the outcome. -/
theorem tells_connect {connected : Bool} (h : Run (wfrNetConnect creds) tr connected)
    (hssid : creds.ssid.bytes ≠ []) (hm : Managed tr) :
    ∃ x, Tells tr [(joinRequest creds, x)] ∧ (connected = true ↔ x = some 0) := by
  rw [wfrNetConnect, if_neg hssid] at h
  obtain ⟨t₁, nm, t₂, rfl, h₁, h₂⟩ := run_bind.mp h
  obtain ⟨rfl, hlook⟩ := tells_hasNetworkmanager h₁ (managed_append.mp hm).1
  obtain ⟨x, hasked, hx⟩ := tells_connectNmcli h₂
  exact ⟨x, hlook.append hasked, hx⟩

/-- So is a rollback. -/
theorem tells_rollback {ssid : Bytes} {ok : Bool} (h : Run (wfrNetRollback ssid) tr ok)
    (hne : ssid ≠ []) (hlen : ssid.length ≤ wfrSsidMaxLen) (hm : Managed tr) :
    ∃ x, Tells tr [(.up ssid, x)] := by
  rw [wfrNetRollback, if_neg hne] at h
  obtain ⟨t₁, nm, t₂, rfl, h₁, h₂⟩ := run_bind.mp h
  obtain ⟨rfl, hlook⟩ := tells_hasNetworkmanager h₁ (managed_append.mp hm).1
  rw [if_pos rfl] at h₂
  obtain ⟨escaped, hescaped, hshort, hrun⟩ := shellEscape_eq_some (hlen.trans (by decide : _ ≤ 63))
  have hname : ascii "nmcli" ∉ reserved := by decide
  have hend : words (ascii "2>&1") = some [] := by decide +kernel
  have hwords : words (ascii "nmcli con up " ++ escaped ++ 0x20 :: ascii "2>&1") = some
      ([ascii "nmcli", ascii "con", ascii "up"] ++ ssid :: []) :=
    words_escaped _ (by decide +kernel) (by decide +kernel) hrun hend
  have hargs : arguments (ascii "nmcli con up " ++ escaped ++ 0x20 :: ascii "2>&1") =
      some (NmRequest.up ssid).arguments := arguments_of_words hwords hname
  simp only [rollbackNmcli, hescaped, rollbackCmd_eq hshort] at h₂
  obtain ⟨t₃, status, t₄, rfl, h₃, h₄⟩ := run_bind.mp h₂
  obtain ⟨x, rfl, rfl⟩ := run_runCmd.mp h₃
  obtain ⟨rfl, rfl⟩ := run_pure.mp h₄
  exact ⟨x, hlook.append ((tells_request hargs x).append tells_nil)⟩

theorem tells_sendAck {ackFd : ℤ} {success : Bool} (h : Run (sendAck ackFd success) tr ()) :
    Tells tr [] :=
  tells_of_run (kinds_sendAck ackFd success) (by simp) h

end Requests
end InfraFi.Daemon
