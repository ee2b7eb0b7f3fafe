import InfraFi.Daemon.Network

/-! # What a successful connection says about the association

Two back-ends poll `wpa_cli` for the association and then wait for an address.
They read the middle result of the first wait, neither joined nor failed, in
different ways.
-/
namespace InfraFi.Daemon
open Base Protocol Prog

/-- The answers that a command line got, in order. -/
def answersTo (cmd : Bytes) (tr : Trace) : List (Option Bytes) :=
  tr.filterMap (fun
    | ⟨.popen c, x⟩ => if c = cmd then some x else none
    | _ => none)

section Answers
variable {cmd : Bytes} {t : Trace}

@[simp] theorem answersTo_nil : answersTo cmd [] = [] := rfl

@[simp] theorem answersTo_popen {c : Bytes} {x : Option Bytes} :
    answersTo cmd (⟨.popen c, x⟩ :: t) = (if c = cmd then [x] else []) ++ answersTo cmd t := by
  rw [answersTo, List.filterMap_cons]
  split <;> simp_all [answersTo]

@[simp] theorem answersTo_system {c : Bytes} {x : Option UInt8} :
    answersTo cmd (⟨.system c, x⟩ :: t) = answersTo cmd t := rfl

@[simp] theorem answersTo_sleep {n : ℕ} {x : Unit} :
    answersTo cmd (⟨.sleep n, x⟩ :: t) = answersTo cmd t := rfl

@[simp] theorem answersTo_getaddrinfo {node service : Bytes} {x : Bool} :
    answersTo cmd (⟨.getaddrinfo node service, x⟩ :: t) = answersTo cmd t := rfl

@[simp] theorem answersTo_writeFile {path text : Bytes} {x : Bool} :
    answersTo cmd (⟨.writeFile path text, x⟩ :: t) = answersTo cmd t := rfl

@[simp] theorem answersTo_unlink {path : Bytes} {x : Bool} :
    answersTo cmd (⟨.unlink path, x⟩ :: t) = answersTo cmd t := rfl

end Answers

theorem answersTo_append (cmd : Bytes) (s t : Trace) :
    answersTo cmd (s ++ t) = answersTo cmd s ++ answersTo cmd t := List.filterMap_append

/-- Every poll of the association state got an answer. -/
def PollsAnswered (iface : Bytes) (tr : Trace) : Prop :=
  ∀ x ∈ answersTo (wpaStateCmd iface) tr, answerLine 64 x ≠ none

/-- Some poll reported COMPLETED. -/
def Completed (iface : Bytes) (tr : Trace) : Prop :=
  ∃ x ∈ answersTo (wpaStateCmd iface) tr, answerLine 64 x = some (ascii "COMPLETED")

/-- Some address poll printed an address that is not link-local. -/
def Addressed (iface : Bytes) (tr : Trace) : Prop :=
  ∃ x ∈ answersTo (ipAddrCmd iface) tr, ∃ ip, answerLine 64 x = some ip ∧ linkLocal ip = false

/-- Some poll reported COMPLETED, and the SSID read back at it was not a different one. -/
def Joined (iface ssid : Bytes) (tr : Trace) : Prop :=
  ∃ pre x y post, tr = pre ++ ⟨.popen (wpaStateCmd iface), x⟩ ::
      ⟨.popen (wpaSsidCmd iface), y⟩ :: post ∧
    answerLine 64 x = some (ascii "COMPLETED") ∧
    ∀ read, answerLine (wfrSsidMaxLen + 1) y = some read → read = ssid

theorem pollsAnswered_append {iface : Bytes} {s t : Trace} :
    PollsAnswered iface (s ++ t) ↔ PollsAnswered iface s ∧ PollsAnswered iface t := by
  simp only [PollsAnswered, answersTo_append]
  exact List.forall_mem_append

theorem completed_append {iface : Bytes} {s t : Trace} :
    Completed iface (s ++ t) ↔ Completed iface s ∨ Completed iface t := by
  simp only [Completed, answersTo_append, List.mem_append, or_and_right, exists_or]

theorem addressed_append {iface : Bytes} {s t : Trace} :
    Addressed iface (s ++ t) ↔ Addressed iface s ∨ Addressed iface t := by
  simp only [Addressed, answersTo_append, List.mem_append, or_and_right, exists_or]

theorem Joined.append_left {iface ssid : Bytes} {t : Trace} (h : Joined iface ssid t) (s : Trace) :
    Joined iface ssid (s ++ t) := by
  rcases h with ⟨pre, x, y, post, rfl, hx, hy⟩
  exact ⟨s ++ pre, x, y, post, by simp, hx, hy⟩

theorem Joined.append_right {iface ssid : Bytes} {t : Trace} (h : Joined iface ssid t) (u : Trace) :
    Joined iface ssid (t ++ u) := by
  rcases h with ⟨pre, x, y, post, rfl, hx, hy⟩
  exact ⟨pre, x, y, post ++ u, by simp, hx, hy⟩

theorem Joined.completed {iface ssid : Bytes} {t : Trace} (h : Joined iface ssid t) :
    Completed iface t := by
  rcases h with ⟨pre, x, y, post, rfl, hx, -⟩
  exact ⟨x, by simp [answersTo], hx⟩

/-! ## Command lines that are not confused -/

section Commands
variable {iface : Bytes} (h : iface.length ≤ 31)
include h

/-- An interface name, the longest there is, leaves every command whole. -/
theorem snprintf_iface {pre post : Bytes} (hlen : pre.length + post.length < 225) :
    snprintf 256 (pre ++ iface ++ post) = pre ++ iface ++ post :=
  snprintf_of_lt (by simp only [List.length_append]; omega)

theorem wpaStateCmd_eq : wpaStateCmd iface = ascii "wpa_cli -i " ++ iface ++
    ascii " status 2>/dev/null | grep '^wpa_state=' | cut -d= -f2" :=
  snprintf_iface h (by decide)

theorem wpaSsidCmd_eq : wpaSsidCmd iface = ascii "wpa_cli -i " ++ iface ++
    ascii " status 2>/dev/null | grep '^ssid=' | cut -d= -f2" :=
  snprintf_iface h (by decide)

theorem ipAddrCmd_eq : ipAddrCmd iface = ascii "ip -4 addr show " ++ iface ++
    ascii " 2>/dev/null | grep -oP 'inet \\K[0-9.]+'" :=
  snprintf_iface h (by decide)

theorem wpaSsidCmd_ne_state : wpaSsidCmd iface ≠ wpaStateCmd iface := by
  intro he
  have hlen := congrArg List.length he
  rw [wpaSsidCmd_eq h, wpaStateCmd_eq h] at hlen
  have htail := Nat.add_left_cancel
    ((List.length_append ..).symm.trans (hlen.trans (List.length_append ..)))
  revert htail
  decide

theorem head?_commands : detectCmd.head? = some 0x66 ∧ (ipAddrCmd iface).head? = some 0x69 ∧
    (wpaStateCmd iface).head? = some 0x77 ∧ (wpaSsidCmd iface).head? = some 0x77 := by
  rw [ipAddrCmd_eq h, wpaStateCmd_eq h, wpaSsidCmd_eq h]
  exact ⟨by decide, rfl, rfl, rfl⟩

theorem ipAddrCmd_ne : ipAddrCmd iface ≠ detectCmd ∧ ipAddrCmd iface ≠ wpaStateCmd iface ∧
    ipAddrCmd iface ≠ wpaSsidCmd iface := by
  rcases head?_commands h with ⟨hd, hi, hs, hr⟩
  refine ⟨fun he => ?_, fun he => ?_, fun he => ?_⟩ <;> simp_all

end Commands

/-! ## The two waits -/

/-- What the next poll of the association does, and what is left to do after it. -/
inductive AssociationPoll (iface target : Bytes) (polls elapsed : ℕ) : Trace → ℤ → Prop where
  | silent {u : Unit} {x : Option Bytes} (hx : answerLine 64 x = none) :
    AssociationPoll iface target polls elapsed
      ([⟨.sleep 2, u⟩] ++ [⟨.popen (wpaStateCmd iface), x⟩]) 0
  | joined {u : Unit} {x y : Option Bytes} (hx : answerLine 64 x = some (ascii "COMPLETED"))
      (hy : ∀ read, answerLine (wfrSsidMaxLen + 1) y = some read → read = target) :
    AssociationPoll iface target polls elapsed ([⟨.sleep 2, u⟩] ++
      ([⟨.popen (wpaStateCmd iface), x⟩] ++ [⟨.popen (wpaSsidCmd iface), y⟩])) 1
  | elsewhere {u : Unit} {x y : Option Bytes} {read : Bytes}
      (hx : answerLine 64 x = some (ascii "COMPLETED"))
      (hy : answerLine (wfrSsidMaxLen + 1) y = some read) (hother : read ≠ target) :
    AssociationPoll iface target polls elapsed ([⟨.sleep 2, u⟩] ++
      ([⟨.popen (wpaStateCmd iface), x⟩] ++ [⟨.popen (wpaSsidCmd iface), y⟩])) (-1)
  | disconnected {u : Unit} {x : Option Bytes} {state : Bytes} (hx : answerLine 64 x = some state)
      (hstate : state ≠ ascii "COMPLETED") :
    AssociationPoll iface target polls elapsed
      ([⟨.sleep 2, u⟩] ++ [⟨.popen (wpaStateCmd iface), x⟩]) (-1)
  | again {u : Unit} {x : Option Bytes} {state : Bytes} {rest : Trace} {r : ℤ}
      (hx : answerLine 64 x = some state) (hstate : state ≠ ascii "COMPLETED")
      (hrest : Run (waitForWpaAssociationFrom iface target polls (elapsed + 2)) rest r) :
    AssociationPoll iface target polls elapsed
      ([⟨.sleep 2, u⟩] ++ ([⟨.popen (wpaStateCmd iface), x⟩] ++ rest)) r

theorem run_associationPoll {iface target : Bytes} {polls elapsed : ℕ} {tr : Trace} {r : ℤ}
    (h : Run (waitForWpaAssociationFrom iface target (polls + 1) elapsed) tr r) :
    AssociationPoll iface target polls elapsed tr r := by
  rcases run_bind.mp h with ⟨t₁, u, t₂, rfl, h₁, h₂⟩
  obtain rfl := run_call.mp h₁
  rcases run_bind.mp h₂ with ⟨t₃, state, t₄, rfl, h₃, h₄⟩
  rcases run_runCmdLine.mp h₃ with ⟨x, rfl, rfl⟩
  cases hx : answerLine 64 x with
  | none =>
    rw [hx] at h₄
    rcases run_pure.mp h₄ with ⟨rfl, rfl⟩
    exact .silent hx
  | some state =>
    rw [hx] at h₄
    dsimp only at h₄
    by_cases hstate : state = ascii "COMPLETED"
    · rw [if_pos hstate] at h₄
      rcases run_bind.mp h₄ with ⟨t₅, read, t₆, rfl, h₅, h₆⟩
      rcases run_runCmdLine.mp h₅ with ⟨y, rfl, rfl⟩
      rw [hstate] at hx
      cases hy : answerLine (wfrSsidMaxLen + 1) y with
      | none =>
        rw [hy] at h₆
        rcases run_pure.mp h₆ with ⟨rfl, rfl⟩
        exact .joined hx (by simp [hy])
      | some read =>
        rw [hy] at h₆
        dsimp only at h₆
        split at h₆
        · next hother =>
          rcases run_pure.mp h₆ with ⟨rfl, rfl⟩
          exact .elsewhere hx hy hother
        · next hsame =>
          rcases run_pure.mp h₆ with ⟨rfl, rfl⟩
          exact .joined hx (by simpa [hy] using hsame)
    · rw [if_neg hstate] at h₄
      split at h₄
      · rcases run_pure.mp h₄ with ⟨rfl, rfl⟩
        exact .disconnected hx hstate
      · exact .again hx hstate h₄

/-- What the next poll for an address does. -/
inductive AddressPoll (iface : Bytes) (polls : ℕ) : Trace → Bool → Prop where
  | addressed {u : Unit} {x : Option Bytes} {ip : Bytes} (hx : answerLine 64 x = some ip)
      (hip : linkLocal ip = false) :
    AddressPoll iface polls ([⟨.sleep 2, u⟩] ++ [⟨.popen (ipAddrCmd iface), x⟩]) true
  | again {u : Unit} {x : Option Bytes} {rest : Trace} {ok : Bool}
      (hx : ∀ ip, answerLine 64 x = some ip → linkLocal ip = true)
      (hrest : Run (waitForDhcpFrom iface polls) rest ok) :
    AddressPoll iface polls ([⟨.sleep 2, u⟩] ++ ([⟨.popen (ipAddrCmd iface), x⟩] ++ rest)) ok

theorem run_addressPoll {iface : Bytes} {polls : ℕ} {tr : Trace} {ok : Bool}
    (h : Run (waitForDhcpFrom iface (polls + 1)) tr ok) : AddressPoll iface polls tr ok := by
  rcases run_bind.mp h with ⟨t₁, u, t₂, rfl, h₁, h₂⟩
  obtain rfl := run_call.mp h₁
  rcases run_bind.mp h₂ with ⟨t₃, line, t₄, rfl, h₃, h₄⟩
  rcases run_runCmdLine.mp h₃ with ⟨x, rfl, rfl⟩
  cases hx : answerLine 64 x with
  | none =>
    rw [hx] at h₄
    exact .again (by simp [hx]) h₄
  | some ip =>
    rw [hx] at h₄
    dsimp only at h₄
    cases hip : linkLocal ip with
    | true =>
      rw [if_neg (by simp [hip])] at h₄
      exact .again (by simp [hx, hip]) h₄
    | false =>
      rw [if_pos (by simp [hip])] at h₄
      rcases run_pure.mp h₄ with ⟨rfl, rfl⟩
      exact .addressed hx hip

section Waits
variable {iface target : Bytes} (hi : iface.length ≤ 31) {tr : Trace}
include hi

/-- The polls of the association end with a join, a failure, or without a COMPLETED. -/
theorem run_waitForWpaAssociationFrom {polls elapsed : ℕ} {r : ℤ}
    (h : Run (waitForWpaAssociationFrom iface target polls elapsed) tr r)
    (hans : PollsAnswered iface tr) :
    ¬ Addressed iface tr ∧
      (r = 1 ∧ Joined iface target tr ∨ r = -1 ∨ r = 0 ∧ ¬ Completed iface tr) := by
  have hne := ipAddrCmd_ne hi
  induction polls generalizing elapsed tr with
  | zero =>
    rcases run_pure.mp h with ⟨rfl, rfl⟩
    simp [Addressed, Completed]
  | succ polls ih =>
    cases run_associationPoll h with
    | silent hx => exact absurd hx (hans _ (by simp))
    | @joined u x y hx hy =>
      refine ⟨by simp [Addressed, hne.2.1.symm, hne.2.2.symm], .inl ⟨rfl, ?_⟩⟩
      exact ⟨[⟨.sleep 2, u⟩], x, y, [], rfl, hx, hy⟩
    | elsewhere hx hy hother =>
      exact ⟨by simp [Addressed, hne.2.1.symm, hne.2.2.symm], .inr (.inl rfl)⟩
    | disconnected hx hstate => exact ⟨by simp [Addressed, hne.2.1.symm], .inr (.inl rfl)⟩
    | @again u x state rest r hx hstate hrest =>
      have hnot : ¬ Completed iface [⟨.popen (wpaStateCmd iface), x⟩] := by
        simp [Completed, hx, hstate]
      have hrestans := (pollsAnswered_append.mp (pollsAnswered_append.mp hans).2).2
      rcases ih hrest hrestans with ⟨haddr, hcase⟩
      refine ⟨?_, hcase.imp (fun hj => ⟨hj.1, ?_⟩) (Or.imp_right fun h0 => ⟨h0.1, ?_⟩)⟩
      · simp only [addressed_append, not_or]
        exact ⟨by simp [Addressed], by simp [Addressed, hne.2.1.symm], haddr⟩
      · exact (hj.2.append_left _).append_left _
      · simp only [completed_append, not_or]
        exact ⟨by simp [Completed], hnot, h0.2⟩

theorem run_waitForDhcpFrom {polls : ℕ} {ok : Bool} (h : Run (waitForDhcpFrom iface polls) tr ok) :
    (ok = true ↔ Addressed iface tr) ∧ ¬ Completed iface tr := by
  have hne := ipAddrCmd_ne hi
  induction polls generalizing tr with
  | zero =>
    rcases run_pure.mp h with ⟨rfl, rfl⟩
    simp [Addressed, Completed]
  | succ polls ih =>
    cases run_addressPoll h with
    | addressed hx hip => simp [Addressed, Completed, hx, hip, hne.2.1]
    | @again u x rest ok hx hrest =>
      rcases ih hrest with ⟨hiff, hnot⟩
      have hskip : ¬ Addressed iface [⟨.popen (ipAddrCmd iface), x⟩] := by
        simp only [Addressed, answersTo_popen, if_true, answersTo_nil, List.append_nil,
          List.mem_singleton, exists_eq_left]
        rintro ⟨ip, hip, hlocal⟩
        rw [hx ip hip] at hlocal
        cases hlocal
      constructor
      · rw [addressed_append, addressed_append, hiff]
        simp [hskip]
        simp [Addressed]
      · simp only [completed_append, not_or]
        exact ⟨by simp [Completed], by simp [Completed, hne.2.1], hnot⟩

end Waits

/-! ## The two back-ends -/

inductive Backend where
  | networkd
  | interfaces
deriving DecidableEq

def Backend.connect : Backend → WfrWifiCreds → Cmd Bool
  | .networkd => wfrNetConnectNetworkd
  | .interfaces => wfrNetConnectInterfaces

/-- The interface that the first call of a run found. -/
def ifaceOf : Trace → Bytes
  | ⟨.popen _, x⟩ :: _ => (answerLine 32 x).getD []
  | _ => []

theorem run_finishNetworkd_true {iface : Bytes} {creds : WfrWifiCreds} {tr : Trace}
    (hi : iface.length ≤ 31) (h : Run (finishNetworkd iface creds) tr true)
    (hans : PollsAnswered iface tr) : Joined iface creds.ssid.bytes tr := by
  rcases run_bind.mp h with ⟨t₁, r, t₂, rfl, h₁, h₂⟩
  rw [pollsAnswered_append] at hans
  rcases run_waitForWpaAssociationFrom hi h₁ hans.1 with ⟨-, ⟨rfl, hj⟩ | rfl | ⟨rfl, -⟩⟩
  · exact hj.append_right t₂
  · exact absurd (run_pure.mp h₂).2 Bool.false_ne_true
  · exact absurd (run_pure.mp h₂).2 Bool.false_ne_true

theorem run_networkd_true {creds : WfrWifiCreds} {tr : Trace}
    (h : Run (wfrNetConnectNetworkd creds) tr true) (hans : PollsAnswered (ifaceOf tr) tr) :
    Joined (ifaceOf tr) creds.ssid.bytes tr := by
  rcases run_bind.mp h with ⟨t₁, r, t₂, rfl, h₁, h₂⟩
  rcases run_detectWifiIface.mp h₁ with ⟨x, rfl, rfl⟩
  cases hx : answerLine 32 x with
  | none =>
    rw [hx] at h₂
    exact absurd (run_pure.mp h₂).2 Bool.false_ne_true
  | some iface =>
    have hi : iface.length ≤ 31 := (answerLine_eq_some hx).2.2
    have hiface : ifaceOf ([⟨.popen detectCmd, x⟩] ++ t₂) = iface := by simp [ifaceOf, hx]
    rw [hiface, pollsAnswered_append] at hans
    rw [hiface]
    rw [hx] at h₂
    rcases run_bind.mp h₂ with ⟨t₃, line, t₄, rfl, -, h₄⟩
    dsimp only at h₄
    split at h₄
    · exact absurd (run_pure.mp h₄).2 Bool.false_ne_true
    rcases run_guard_true h₄ with ⟨t₅, t₆, rfl, -, h₆⟩
    rcases run_guard_true h₆ with ⟨t₇, t₈, rfl, -, h₈⟩
    rcases run_bind.mp h₈ with ⟨t₉, u, t₁₀, rfl, -, h₁₀⟩
    rcases run_guard_true h₁₀ with ⟨t₁₁, t₁₂, rfl, -, h₁₂⟩
    simp only [pollsAnswered_append] at hans
    have hj := run_finishNetworkd_true hi h₁₂ hans.2.2.2.2.2.2
    exact (((((hj.append_left _).append_left _).append_left _).append_left _).append_left _).append_left _

/-- The ifupdown back-end succeeds on a join, or on an address after polls that never
reported COMPLETED. -/
theorem run_finishInterfaces {iface : Bytes} {creds : WfrWifiCreds} {tr : Trace} {b : Bool}
    (hi : iface.length ≤ 31) (h : Run (finishInterfaces iface creds) tr b)
    (hans : PollsAnswered iface tr) :
    (b = true → Joined iface creds.ssid.bytes tr) ↔ Completed iface tr ∨ ¬ Addressed iface tr := by
  rcases run_bind.mp h with ⟨t₁, s₁, t₂, rfl, h₁, h₂⟩
  rcases run_runCmd.mp h₁ with ⟨x₁, rfl, rfl⟩
  rcases run_bind.mp h₂ with ⟨t₃, s₃, t₄, rfl, h₃, h₄⟩
  rcases run_runCmd.mp h₃ with ⟨x₃, rfl, rfl⟩
  rcases run_bind.mp h₄ with ⟨t₅, r, t₆, rfl, h₅, h₆⟩
  simp only [pollsAnswered_append] at hans
  rcases run_waitForWpaAssociationFrom hi h₅ hans.2.2.1 with ⟨haddr, hcase⟩
  have hsystem {cmd : Bytes} {x : Option UInt8} :
      ¬ Completed iface [⟨.system cmd, x⟩] ∧ ¬ Addressed iface [⟨.system cmd, x⟩] := by
    simp [Completed, Addressed]
  simp only [completed_append, addressed_append, hsystem.1, hsystem.2, haddr, false_or]
  rcases hcase with ⟨rfl, hj⟩ | rfl | ⟨rfl, hnot⟩
  · exact iff_of_true (fun _ => ((hj.append_right _).append_left _).append_left _) (.inl (.inl hj.completed))
  · rcases run_pure.mp h₆ with ⟨rfl, rfl⟩
    exact iff_of_true (fun hf => absurd hf Bool.false_ne_true) (.inr (by simp [Addressed]))
  · rw [if_neg (by decide)] at h₆
    have hlost {t : Trace} (ht : ¬ Completed iface t) :
        ¬ Joined iface creds.ssid.bytes ([⟨.system _, x₁⟩] ++ ([⟨.system _, x₃⟩] ++ (t₅ ++ t))) := by
      intro hj
      have hc := hj.completed
      simp only [completed_append, hsystem.1, hnot, ht, or_self] at hc
    rcases run_guard h₆ with ⟨rfl, hd⟩ | ⟨t₇, t₈, rfl, hd, h₈⟩
    · have hdhcp := run_waitForDhcpFrom hi hd
      exact iff_of_true (fun hf => absurd hf Bool.false_ne_true)
        (.inr fun ha => Bool.false_ne_true (hdhcp.1.mpr ha))
    · have hdhcp := run_waitForDhcpFrom hi hd
      rcases run_bind.mp h₈ with ⟨t₉, v, t₁₀, rfl, h₉, h₁₀⟩
      obtain rfl := run_call.mp h₉
      rcases run_pure.mp h₁₀ with ⟨rfl, rfl⟩
      have hprobe {node service : Bytes} :
          ¬ Completed iface [⟨.getaddrinfo node service, v⟩] := by simp [Completed]
      have haddressed : Addressed iface t₇ := hdhcp.1.mp rfl
      refine iff_of_false
        (fun hf => hlost (fun hc => (completed_append.mp hc).elim hdhcp.2 hprobe) (hf rfl)) ?_
      simp [completed_append, addressed_append, hnot, hdhcp.2, hprobe, haddressed]

/-- Writing the files is no poll. -/
theorem answersTo_writeConfig {iface : Bytes} {creds : WfrWifiCreds} {tr : Trace} {ok : Bool}
    (h : Run (writeConfig iface creds) tr ok) (cmd : Bytes) : answersTo cmd tr = [] := by
  rcases run_writeConfig h with ⟨rfl, -⟩ | ⟨⟨u, rfl⟩, -⟩ | ⟨rfl, -⟩ <;> simp

theorem run_interfaces {creds : WfrWifiCreds} {tr : Trace} {b : Bool}
    (h : Run (wfrNetConnectInterfaces creds) tr b) (hans : PollsAnswered (ifaceOf tr) tr) :
    (b = true → Joined (ifaceOf tr) creds.ssid.bytes tr) ↔
      Completed (ifaceOf tr) tr ∨ ¬ Addressed (ifaceOf tr) tr := by
  rcases run_bind.mp h with ⟨t₁, r, t₂, rfl, h₁, h₂⟩
  rcases run_detectWifiIface.mp h₁ with ⟨x, rfl, rfl⟩
  cases hx : answerLine 32 x with
  | none =>
    rw [hx] at h₂
    rcases run_pure.mp h₂ with ⟨rfl, rfl⟩
    have hne : detectCmd ≠ ipAddrCmd [] := (ipAddrCmd_ne (Nat.zero_le _)).1.symm
    exact iff_of_true (fun hf => absurd hf Bool.false_ne_true)
      (.inr (by simp [Addressed, ifaceOf, hx, hne]))
  | some iface =>
    have hi : iface.length ≤ 31 := (answerLine_eq_some hx).2.2
    have hiface : ifaceOf ([⟨.popen detectCmd, x⟩] ++ t₂) = iface := by simp [ifaceOf, hx]
    have hne := head?_commands hi
    have hdetect : ¬ Completed iface [⟨.popen detectCmd, x⟩] ∧
        ¬ Addressed iface [⟨.popen detectCmd, x⟩] := by
      have hstate : detectCmd ≠ wpaStateCmd iface := by
        intro he
        have hhead := congrArg List.head? he
        rw [hne.1, hne.2.2.1] at hhead
        exact absurd hhead (by decide)
      simp [Completed, Addressed, hstate, (ipAddrCmd_ne hi).1.symm]
    rw [hiface] at hans ⊢
    rw [hx] at h₂
    rcases run_guard h₂ with ⟨rfl, h₃⟩ | ⟨t₃, t₄, rfl, h₃, h₄⟩
    · have hnot : ¬ Addressed iface t₂ := by simp [Addressed, answersTo_writeConfig h₃]
      exact iff_of_true (fun hf => absurd hf Bool.false_ne_true)
        (.inr fun ha => (addressed_append.mp ha).elim hdetect.2 hnot)
    · simp only [pollsAnswered_append] at hans
      have hfinish := run_finishInterfaces hi h₄ hans.2.2
      have hwrite : ¬ Completed iface t₃ ∧ ¬ Addressed iface t₃ := by
        simp [Completed, Addressed, answersTo_writeConfig h₃]
      have hcompleted : Completed iface ([⟨.popen detectCmd, x⟩] ++ (t₃ ++ t₄)) ↔
          Completed iface t₄ := by
        simp only [completed_append, hdetect.1, hwrite.1, false_or]
      rw [hcompleted, addressed_append, addressed_append]
      simp only [hdetect.2, hwrite.2, false_or]
      constructor
      · intro hj
        cases b with
        | false => exact hfinish.mp (fun hf => absurd hf Bool.false_ne_true)
        | true => exact .inl (hcompleted.mp (hj rfl).completed)
      · intro hc hb
        exact ((hfinish.mpr hc hb).append_left _).append_left _

/-- systemd-networkd never reports success without a join; ifupdown does so exactly when an
address is found although no poll reported COMPLETED. -/
theorem connect_joined_iff (backend : Backend) (creds : WfrWifiCreds) (tr : Trace) (b : Bool)
    (h : Run (backend.connect creds) tr b) (hans : PollsAnswered (ifaceOf tr) tr) :
    (b = true → Joined (ifaceOf tr) creds.ssid.bytes tr) ↔
      backend = .networkd ∨ Completed (ifaceOf tr) tr ∨ ¬ Addressed (ifaceOf tr) tr := by
  cases backend with
  | networkd =>
    exact iff_of_true (fun hb => run_networkd_true (hb ▸ h) hans) (.inl rfl)
  | interfaces =>
    simp only [reduceCtorEq, false_or]
    exact run_interfaces h hans

/-! The association never completes, but the interface still has an address. -/

private def answerStale (_ : ℕ) : (c : Call) → c.Answer
  | .system _ => some 0
  | .popen cmd =>
    if cmd = detectCmd then some (ascii "wlan0\n")
    else if cmd = ipAddrCmd (ascii "wlan0") then some (ascii "192.168.1.5\n")
    else some (ascii "SCANNING\n")
  | .sleep _ => ()
  | .delayMs _ => ()
  | .getaddrinfo _ _ => true
  | .writeFile _ _ => true
  | .unlink _ => true
  | .writeScancode _ _ => true

private def staleCreds : WfrWifiCreds where
  ssid := CString.ofBytes wfrSsidMaxLen (ascii "Home")
  password := CString.ofBytes wfrPassMaxLen (ascii "password")
  security := wfrSecWpa
  hidden := false

private def staleTrace : Trace := (runWith answerStale 0 (wfrNetConnectInterfaces staleCreds)).1

private theorem run_stale_true : Run (wfrNetConnectInterfaces staleCreds) staleTrace true := by
  have hrun := run_runWith answerStale (wfrNetConnectInterfaces staleCreds) 0
  have hok : (runWith answerStale 0 (wfrNetConnectInterfaces staleCreds)).2 = true := by
    decide +kernel
  rwa [hok] at hrun

private theorem stale_polls :
    ifaceOf staleTrace = ascii "wlan0" ∧ PollsAnswered (ascii "wlan0") staleTrace ∧
      ¬ Completed (ascii "wlan0") staleTrace := by
  refine ⟨by decide +kernel, ?_⟩
  unfold PollsAnswered Completed
  decide +kernel

theorem connect_joined_iff_stale :
    (true = true → Joined (ifaceOf staleTrace) staleCreds.ssid.bytes staleTrace) ↔
      Backend.interfaces = .networkd ∨ Completed (ifaceOf staleTrace) staleTrace ∨
        ¬ Addressed (ifaceOf staleTrace) staleTrace :=
  connect_joined_iff .interfaces staleCreds staleTrace true run_stale_true
    (stale_polls.1 ▸ stale_polls.2.1)

/-- Success without any poll that reported COMPLETED. -/
theorem interfaces_stale_address :
    Run (wfrNetConnectInterfaces staleCreds) staleTrace true ∧
      PollsAnswered (ifaceOf staleTrace) staleTrace ∧
      ¬ Joined (ifaceOf staleTrace) staleCreds.ssid.bytes staleTrace := by
  refine ⟨run_stale_true, ?_⟩
  rw [stale_polls.1]
  exact ⟨stale_polls.2.1, fun hj => stale_polls.2.2 hj.completed⟩

end InfraFi.Daemon
