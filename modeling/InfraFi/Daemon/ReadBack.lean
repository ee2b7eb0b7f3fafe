import InfraFi.Base.Lines
import InfraFi.Daemon.Association

/-! # The SSID that `wpa_cli` reports

The pipeline keeps the line that starts with `ssid=` and prints its second
field. An SSID that contains the separator is cut short.
-/
namespace InfraFi.Daemon
open Base Protocol Prog Lines

def equals : UInt8 := 0x3D

/-- What the command of `get_wpa_ssid` prints for the output of `wpa_cli status`. -/
def ssidPipeline (status : Bytes) : Bytes := cutField equals 2 (grepStart (ascii "ssid=") status)

/-- `key=value`. -/
def statusLine (kv : Bytes × Bytes) : Bytes := kv.1 ++ equals :: kv.2

/-- A key and a value of another line. -/
def OtherLine (kv : Bytes × Bytes) : Prop :=
  kv.1 ≠ ascii "ssid" ∧ equals ∉ kv.1 ∧ lineFeed ∉ kv.1 ∧ lineFeed ∉ kv.2

/-- The status has the SSID, verbatim, in a line among others. -/
def ShowsSsid (ssid status : Bytes) : Prop :=
  ∃ before after : List (Bytes × Bytes), (∀ kv ∈ before ++ after, OtherLine kv) ∧
    status = unlines (before.map statusLine ++ statusLine (ascii "ssid",ssid) :: after.map statusLine)

/-- The characters of an SSID that `wpa_cli` prints as they are. -/
def Printable (ssid : Bytes) : Prop :=
  ∀ b ∈ ssid, 0x20 ≤ b ∧ b ≤ 0x7E ∧ b ≠ 0x22 ∧ b ≠ 0x5C

/-- Every time the command ran, it filtered a status that shows the SSID. -/
def AnsweredFrom (ssid cmd : Bytes) (tr : Trace) : Prop :=
  ∀ x ∈ answersTo cmd tr, ∃ status, ShowsSsid ssid status ∧ x = some (ssidPipeline status)

/-- The wait ends with a COMPLETED poll, its first, and the SSID read back. -/
def EndsAtCompleted (iface : Bytes) (tr : Trace) : Prop :=
  ∃ pre x y, tr = pre ++ [⟨.popen (wpaStateCmd iface), x⟩, ⟨.popen (wpaSsidCmd iface), y⟩] ∧
    answerLine 64 x = some (ascii "COMPLETED") ∧ ¬ Completed iface pre

/-- The SSID comes back unchanged, to the association and to the lookup for the rollback. -/
structure ReadsBack (ssid : Bytes) : Prop where
  pipeline (status : Bytes) (h : ShowsSsid ssid status) :
    answerLine (wfrSsidMaxLen + 1) (some (ssidPipeline status)) = some ssid
  association (iface : Bytes) (maxWait : ℕ) (tr : Trace) (r : ℤ) (hi : iface.length ≤ 31)
    (h : Run (waitForWpaAssociation iface ssid maxWait) tr r)
    (hans : AnsweredFrom ssid (wpaSsidCmd iface) tr) (hc : Completed iface tr) :
    r = 1 ∧ EndsAtCompleted iface tr
  current (t₁ t₂ : Trace) (r : Option Bytes) (hnm : Run wfrNetHasNetworkmanager t₁ false)
    (h : Run (wfrNetGetCurrent (wfrSsidMaxLen + 1)) (t₁ ++ t₂) r) (hfound : ifaceOf t₂ ≠ [])
    (hans : AnsweredFrom ssid (wpaSsidCmd (ifaceOf t₂)) t₂) : r = some ssid

/-! ## The pipeline -/

section Pipeline
variable {ssid status : Bytes}

theorem equals_notMem_key : equals ∉ ascii "ssid" := by decide

theorem lineFeed_notMem_key : lineFeed ∉ ascii "ssid" := by decide

theorem OtherLine.isPrefixOf_eq_false {kv : Bytes × Bytes} (h : OtherLine kv) :
    (ascii "ssid=").isPrefixOf (statusLine kv) = false := by
  rw [← Bool.not_eq_true, List.isPrefixOf_iff_prefix]
  rintro ⟨rest, hrest⟩
  have hkey : ascii "ssid=" = ascii "ssid" ++ [equals] := rfl
  have hsplit := congrArg (List.splitOn equals) hrest
  rw [hkey, List.append_assoc, List.singleton_append, statusLine,
    List.splitOn_append_cons_self_of_not_mem equals_notMem_key,
    List.splitOn_append_cons_self_of_not_mem h.2.1] at hsplit
  exact h.1 (List.cons.inj hsplit).1.symm

theorem lineFeed_notMem_statusLine {kv : Bytes × Bytes} (hkey : lineFeed ∉ kv.1) (hvalue : lineFeed ∉ kv.2) :
    lineFeed ∉ statusLine kv := by
  have hne : lineFeed ≠ equals := by decide
  simp [statusLine, hkey, hvalue, hne]

/-- Only the line of the SSID passes the filter. -/
theorem grep_status (hssid : lineFeed ∉ ssid) (h : ShowsSsid ssid status) :
    grepStart (ascii "ssid=") status = unlines [statusLine (ascii "ssid",ssid)] := by
  rcases h with ⟨before, after, hother, rfl⟩
  have hnone (kvs : List (Bytes × Bytes)) (hkvs : ∀ kv ∈ kvs, OtherLine kv) :
      (kvs.map statusLine).filter (ascii "ssid=").isPrefixOf = [] := by
    rw [List.filter_eq_nil_iff]
    intro l hl
    rcases List.mem_map.mp hl with ⟨kv, hkv, rfl⟩
    simp [(hkvs kv hkv).isPrefixOf_eq_false]
  have hself : (ascii "ssid=").isPrefixOf (statusLine (ascii "ssid",ssid)) = true := by
    rw [List.isPrefixOf_iff_prefix]
    exact ⟨ssid, rfl⟩
  rw [List.forall_mem_append] at hother
  rw [grepStart, lines_unlines]
  · rw [List.filter_append, hnone before hother.1, List.filter_cons_of_pos hself,
      hnone after hother.2, List.nil_append]
  · simp only [List.forall_mem_append, List.forall_mem_cons, List.forall_mem_map]
    refine ⟨fun kv hkv => ?_, ?_, fun kv hkv => ?_⟩
    · exact lineFeed_notMem_statusLine (hother.1 kv hkv).2.2.1 (hother.1 kv hkv).2.2.2
    · exact lineFeed_notMem_statusLine lineFeed_notMem_key hssid
    · exact lineFeed_notMem_statusLine (hother.2 kv hkv).2.2.1 (hother.2 kv hkv).2.2.2

/-- What is printed ends at the first separator in the SSID. -/
theorem ssidPipeline_eq (hssid : lineFeed ∉ ssid) (h : ShowsSsid ssid status) :
    ssidPipeline status = (ssid.splitOn equals).headD [] ++ [lineFeed] := by
  have hcut : cutLine equals 2 (statusLine (ascii "ssid",ssid)) = (ssid.splitOn equals).headD [] := by
    have hmem : equals ∈ statusLine (ascii "ssid",ssid) := by simp [statusLine]
    rw [cutLine, if_pos hmem, statusLine, List.splitOn_append_cons_self_of_not_mem equals_notMem_key]
    cases ssid.splitOn equals <;> rfl
  have hlines : lines (unlines [statusLine (ascii "ssid",ssid)]) = [statusLine (ascii "ssid",ssid)] := by
    apply lines_unlines
    rw [List.forall_mem_singleton]
    exact lineFeed_notMem_statusLine lineFeed_notMem_key hssid
  rw [ssidPipeline, grep_status hssid h, cutField, hlines, List.map_singleton, hcut, unlines_cons,
    unlines_nil]

theorem headD_splitOn_of_notMem (h : equals ∉ ssid) : (ssid.splitOn equals).headD [] = ssid := by
  rw [List.splitOn_eq_singleton h]
  rfl

/-- With a separator the head is shorter. -/
theorem headD_splitOn_ne (h : equals ∈ ssid) : (ssid.splitOn equals).headD [] ≠ ssid := by
  rcases List.eq_append_cons_of_mem h with ⟨a, rest, rfl, ha⟩
  rw [List.splitOn_append_cons_self_of_not_mem ha]
  intro he
  have hlen := congrArg List.length he
  simp only [List.headD_cons, List.length_append, List.length_cons] at hlen
  omega

/-- The buffer holds the longest SSID. -/
theorem answerLine_ssidPipeline (hne : ssid ≠ []) (hlen : ssid.length ≤ 32) (hp : Printable ssid)
    (heq : equals ∉ ssid) (h : ShowsSsid ssid status) :
    answerLine (wfrSsidMaxLen + 1) (some (ssidPipeline status)) = some ssid := by
  have hnl : lineFeed ∉ ssid := fun hm => absurd (hp _ hm).1 (by decide)
  have h0 : 0 ∉ ssid := fun hm => absurd (hp _ hm).1 (by decide)
  rw [ssidPipeline_eq hnl h, headD_splitOn_of_notMem heq]
  exact answerLine_append_cons hne h0 hnl hlen []

/-- With a separator another line is read, or none. -/
theorem answerLine_ssidPipeline_ne (hlen : ssid.length ≤ 32) (hp : Printable ssid)
    (heq : equals ∈ ssid) (h : ShowsSsid ssid status) :
    answerLine (wfrSsidMaxLen + 1) (some (ssidPipeline status)) ≠ some ssid := by
  have hnl : lineFeed ∉ ssid := fun hm => absurd (hp _ hm).1 (by decide)
  have h0 : 0 ∉ ssid := fun hm => absurd (hp _ hm).1 (by decide)
  rw [ssidPipeline_eq hnl h]
  rcases List.eq_append_cons_of_mem heq with ⟨a, rest, rfl, ha⟩
  have hcut := headD_splitOn_ne heq
  rw [List.splitOn_append_cons_self_of_not_mem ha, List.headD_cons] at hcut ⊢
  rw [List.mem_append, not_or] at hnl h0
  rw [List.length_append] at hlen
  by_cases hempty : a = []
  · rw [hempty, List.nil_append]
    have hnone : answerLine (wfrSsidMaxLen + 1) (some [lineFeed]) = none := by decide
    rw [hnone]
    exact Option.some_ne_none _ |>.symm
  · have hfits : a.length ≤ wfrSsidMaxLen + 1 - 1 := (Nat.le_add_right ..).trans hlen
    have hline : answerLine (wfrSsidMaxLen + 1) (some (a ++ [lineFeed])) = some a :=
      answerLine_append_cons hempty h0.1 hnl.1 hfits []
    rw [hline]
    exact fun he => hcut (Option.some.inj he)

end Pipeline

/-! ## The two callers -/

section Callers
variable {ssid iface : Bytes} {tr : Trace}

theorem AnsweredFrom.read {cmd : Bytes} (hans : AnsweredFrom ssid cmd tr)
    (hpipe : ∀ status, ShowsSsid ssid status →
      answerLine (wfrSsidMaxLen + 1) (some (ssidPipeline status)) = some ssid) :
    ∀ y ∈ answersTo cmd tr, answerLine (wfrSsidMaxLen + 1) y = some ssid := by
  intro y hy
  rcases hans y hy with ⟨status, hstatus, rfl⟩
  exact hpipe status hstatus

theorem EndsAtCompleted.append_left {s t : Trace} (h : EndsAtCompleted iface t)
    (hs : ¬ Completed iface s) : EndsAtCompleted iface (s ++ t) := by
  rcases h with ⟨pre, x, y, rfl, hx, hpre⟩
  refine ⟨s ++ pre, x, y, (List.append_assoc ..).symm, hx, ?_⟩
  rw [completed_append, not_or]
  exact ⟨hs, hpre⟩

/-- The polls end at the first COMPLETED when every SSID read back is the requested one. -/
theorem run_waitForWpaAssociationFrom_of_read {polls elapsed : ℕ} {r : ℤ}
    (h : Run (waitForWpaAssociationFrom iface ssid polls elapsed) tr r)
    (hread : ∀ y ∈ answersTo (wpaSsidCmd iface) tr, answerLine (wfrSsidMaxLen + 1) y = some ssid)
    (hc : Completed iface tr) : r = 1 ∧ EndsAtCompleted iface tr := by
  induction polls generalizing elapsed tr with
  | zero =>
    rcases run_pure.mp h with ⟨rfl, rfl⟩
    simp [Completed] at hc
  | succ polls ih =>
    have hsleep {u : Unit} : ¬ Completed iface [⟨.sleep 2, u⟩] := by simp [Completed]
    cases run_associationPoll h with
    | silent hx => simp [Completed, hx] at hc
    | @joined u x y hx hy => exact ⟨rfl, [⟨.sleep 2, u⟩], x, y, rfl, hx, hsleep⟩
    | @elsewhere u x y read hx hy hother =>
      have hback : answerLine (wfrSsidMaxLen + 1) y = some ssid := hread y (by simp)
      cases hback.symm.trans hy
      exact absurd rfl hother
    | disconnected hx hstate => simp [Completed, hx, hstate] at hc
    | @again u x state rest r hx hstate hrest =>
      have hpoll : ¬ Completed iface [⟨.popen (wpaStateCmd iface), x⟩] := by
        simp [Completed, hx, hstate]
      rw [completed_append, completed_append] at hc
      have hcrest := (hc.resolve_left hsleep).resolve_left hpoll
      rcases ih hrest (fun y hy => hread y (by simp [hy])) hcrest with ⟨hr, hends⟩
      exact ⟨hr, (hends.append_left hpoll).append_left hsleep⟩

/-- Without NetworkManager the lookup is the one command on the interface found. -/
theorem run_wfrNetGetCurrent_of_read {t₁ t₂ : Trace} {r : Option Bytes}
    (hnm : Run wfrNetHasNetworkmanager t₁ false)
    (h : Run (wfrNetGetCurrent (wfrSsidMaxLen + 1)) (t₁ ++ t₂) r) (hfound : ifaceOf t₂ ≠ [])
    (hread : ∀ y ∈ answersTo (wpaSsidCmd (ifaceOf t₂)) t₂,
      answerLine (wfrSsidMaxLen + 1) y = some ssid) : r = some ssid := by
  have h₂ : Run (getCurrentFromWpa (wfrSsidMaxLen + 1)) t₂ r := h.of_bind hnm
  rcases run_bind.mp h₂ with ⟨t₃, found, t₄, rfl, h₃, h₄⟩
  rcases run_detectWifiIface.mp h₃ with ⟨x, rfl, rfl⟩
  have hiface : ifaceOf ([⟨.popen detectCmd, x⟩] ++ t₄) = (answerLine 32 x).getD [] := rfl
  rw [hiface] at hfound hread
  cases hx : answerLine 32 x with
  | none => simp [hx] at hfound
  | some iface =>
    rw [hx] at h₄
    rcases run_runCmdLine.mp h₄ with ⟨y, rfl, rfl⟩
    apply hread y
    simp [hx]

end Callers

/-- The SSID is read back unchanged if and only if it has no separator. -/
theorem readsBack_iff (ssid : Bytes) (hne : ssid ≠ []) (hlen : ssid.length ≤ 32)
    (hp : Printable ssid) : ReadsBack ssid ↔ equals ∉ ssid := by
  constructor
  · intro h hmem
    have hshown : ShowsSsid ssid (unlines [statusLine (ascii "ssid",ssid)]) :=
      ⟨[], [], by simp, rfl⟩
    exact answerLine_ssidPipeline_ne hlen hp hmem hshown (h.pipeline _ hshown)
  · intro heq
    have hpipe (status : Bytes) (h : ShowsSsid ssid status) :=
      answerLine_ssidPipeline hne hlen hp heq h
    constructor
    · exact hpipe
    · intro iface maxWait tr r _ h hans hc
      exact run_waitForWpaAssociationFrom_of_read h (hans.read hpipe) hc
    · intro t₁ t₂ r hnm h hfound hans
      exact run_wfrNetGetCurrent_of_read hnm h hfound (hans.read hpipe)

theorem readsBack_iff_spaces : ReadsBack (ascii " home ") :=
  (readsBack_iff (ascii " home ") (by decide) (by decide) (by unfold Printable; decide +kernel)).mpr
    (by decide)

/-! ## An SSID with a separator -/

def cutStatus : Bytes :=
  unlines ([(ascii "bssid",ascii "02:00:01:02:03:04")].map statusLine ++
    statusLine (ascii "ssid",ascii "a=b") :: [(ascii "wpa_state",ascii "COMPLETED")].map statusLine)

private def answerCut (_ : ℕ) : (c : Call) → c.Answer
  | .system _ => some 0
  | .popen cmd =>
    if cmd = wpaSsidCmd (ascii "wlan0") then some (ssidPipeline cutStatus)
    else some (ascii "COMPLETED\n")
  | .sleep _ => ()
  | .delayMs _ => ()
  | .getaddrinfo _ _ => true
  | .writeFile _ _ => true
  | .unlink _ => true
  | .writeScancode _ _ => true

private def cutTrace : Trace :=
  (runWith answerCut 0 (waitForWpaAssociation (ascii "wlan0") (ascii "a=b") 20)).1

/-- The association is taken for a stale one. -/
theorem readBack_cut : ShowsSsid (ascii "a=b") cutStatus ∧
    AnsweredFrom (ascii "a=b") (wpaSsidCmd (ascii "wlan0")) cutTrace ∧
    Completed (ascii "wlan0") cutTrace ∧
    Run (waitForWpaAssociation (ascii "wlan0") (ascii "a=b") 20) cutTrace (-1) ∧
    ¬ ReadsBack (ascii "a=b") := by
  have hshown : ShowsSsid (ascii "a=b") cutStatus := by
    refine ⟨_, _, ?_, rfl⟩
    simp only [List.cons_append, List.nil_append, List.forall_mem_cons, OtherLine]
    refine ⟨by decide, by decide, by simp⟩
  have hans : AnsweredFrom (ascii "a=b") (wpaSsidCmd (ascii "wlan0")) cutTrace := by
    have hread : answersTo (wpaSsidCmd (ascii "wlan0")) cutTrace = [some (ssidPipeline cutStatus)] := by
      decide +kernel
    intro x hx
    rw [hread, List.mem_singleton] at hx
    exact ⟨cutStatus, hshown, hx⟩
  have hc : Completed (ascii "wlan0") cutTrace := by
    unfold Completed
    decide +kernel
  have hrun : Run (waitForWpaAssociation (ascii "wlan0") (ascii "a=b") 20) cutTrace (-1) := by
    have hresult : (runWith answerCut 0
        (waitForWpaAssociation (ascii "wlan0") (ascii "a=b") 20)).2 = -1 := by decide +kernel
    rw [← hresult]
    exact run_runWith answerCut _ 0
  refine ⟨hshown, hans, hc, hrun, fun h => ?_⟩
  have hone := (h.association _ _ _ _ (by decide) hrun hans hc).1
  exact absurd hone (by decide)

end InfraFi.Daemon
