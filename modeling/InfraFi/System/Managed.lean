import InfraFi.Daemon.NetworkManager
import InfraFi.System.Screen

/-! # The daemon beside NetworkManager

Every request leads to one attempt, and an attempt that fails to one way back.
Nothing else is asked for, and no file or `wpa_supplicant` is touched.
-/
namespace InfraFi.System
open Base Protocol Reassembly Daemon Flipper

variable {ε : Type} {ackFd : ℤ}

/-- What is asked for some credentials, and how the attempt went. -/
inductive Asks (creds : WfrWifiCreds) (prevSsid : Option Bytes) :
    Bool → List (NmRequest × Option UInt8) → Prop
  | joined : Asks creds prevSsid true [(joinRequest creds, some 0)]
  | refused {answer : Option UInt8} (h : answer ≠ some 0) (hprev : prevSsid = none) :
      Asks creds prevSsid false [(joinRequest creds, answer)]
  | backTo {answer back : Option UInt8} {ssid : Bytes} (h : answer ≠ some 0)
      (hprev : prevSsid = some ssid) :
      Asks creds prevSsid false [(joinRequest creds, answer), (.up ssid, back)]

/-- The rounds of a run and what each of them asks for. -/
structure Asked (rounds : List (Round ackFd)) (asked : List (List (NmRequest × Option UInt8))) (tr : Trace) :
    Prop where
  round : List.Forall₂ (fun r a => Asks r.creds r.prevSsid r.connected a) rounds asked
  tells : Tells tr asked.flatten

theorem ssid_of_parse {str : Bytes} {creds : WfrWifiCreds} (h : wfrParseWifiString str = some creds) :
    creds.ssid.bytes ≠ [] := by
  simp only [wfrParseWifiString, Option.pure_def, Option.bind_eq_bind, Option.bind_eq_some_iff,
    Option.bind_none, Option.ite_none_left_eq_some, Option.some.injEq] at h
  obtain ⟨-, type, -, ssid, -, hne, rfl⟩ := h
  exact hne

/-- The look before, the attempt, its report, and the way back. -/
theorem Round.asks (r : Round ackFd) (hssid : r.creds.ssid.bytes ≠ []) (hm : Managed r.trace) :
    ∃ asked, Asks r.creds r.prevSsid r.connected asked ∧ Tells r.trace asked := by
  obtain ⟨hm₁, hm₂⟩ := managed_append.mp hm
  obtain ⟨hm₂, hm₃⟩ := managed_append.mp hm₂
  obtain ⟨hbefore, hprev⟩ := tells_getCurrent r.run_before hm₁
  obtain ⟨x, hattempt, hx⟩ := tells_connect r.run_attempt hssid hm₂
  have hreport := r.run_report
  cases hconnected : r.connected with
  | true =>
    rw [hconnected] at hreport hx
    obtain rfl := hx.mp rfl
    exact ⟨_, .joined, hbefore.append (hattempt.append (tells_sendAck hreport))⟩
  | false =>
    rw [hconnected] at hreport hx
    have hfailed : x ≠ some 0 := fun h => Bool.false_ne_true (hx.mpr h)
    obtain ⟨t₁, u, t₂, ht, hack, hback⟩ := Prog.run_bind.mp hreport
    rw [ht] at hm₃
    cases hp : r.prevSsid with
    | none =>
      rw [hp, Option.getD_none, if_neg (not_not.mpr rfl)] at hback
      obtain ⟨rfl, -⟩ := Prog.run_pure.mp hback
      refine ⟨_, .refused hfailed rfl, ?_⟩
      rw [trace, ht]
      exact hbefore.append (hattempt.append ((tells_sendAck hack).append tells_nil))
    | some ssid =>
      obtain ⟨hne, hlen⟩ := hprev ssid hp
      rw [hp, Option.getD_some, if_pos hne] at hback
      obtain ⟨t₃, ok, t₄, rfl, hroll, hdone⟩ := Prog.run_bind.mp hback
      obtain ⟨rfl, -⟩ := Prog.run_pure.mp hdone
      rw [List.append_nil] at ht hm₃
      obtain ⟨y, hup⟩ := tells_rollback hroll hne hlen (managed_append.mp hm₃).2
      have hall : Tells r.trace [(joinRequest r.creds, x), (.up ssid, y)] := by
        rw [trace, ht]
        exact hbefore.append (hattempt.append ((tells_sendAck hack).append hup))
      exact ⟨_, .backTo hfailed rfl, hall⟩

theorem asked_rounds {rounds : List (Round ackFd)} (hssid : ∀ r ∈ rounds, r.creds.ssid.bytes ≠ [])
    (hm : Managed (rounds.flatMap Round.trace)) :
    ∃ asked, Asked rounds asked (rounds.flatMap Round.trace) := by
  induction rounds with
  | nil => exact ⟨[], .nil, tells_nil⟩
  | cons r rounds ih =>
    obtain ⟨hm₁, hm₂⟩ := managed_append.mp hm
    obtain ⟨hr, hrest⟩ := List.forall_mem_cons.mp hssid
    obtain ⟨a, ha, htells⟩ := r.asks hr hm₁
    obtain ⟨asked, hrounds, hall⟩ := ih hrest hm₂
    exact ⟨a :: asked, .cons ha hrounds, htells.append hall⟩

/-- In every run beside NetworkManager: what is asked of it is, round by round, to join the network of
the request and, if it refuses, to go back to the one it had named before. -/
theorem managed_asked (scancode? : ε → Option (UInt8 × UInt8)) (ackFd : ℤ) (out : Bytes)
    (reads : List (DeviceRead ε)) (tr : Trace) (stop : Bool)
    (hrun : Prog.Run (mainLoop (readScancode scancode?) ackFd reads.length reads wfrDecodeInit out)
      tr stop) (hmanaged : Managed tr) :
    ∃ (rounds : List (Round ackFd)) (asked : List (List (NmRequest × Option UInt8))),
      rounds.map Round.creds =
        requests (deliveries (feedAll wfrDecodeInit out (heard scancode? reads))) ∧
      rounds.flatMap Round.trace = tr ∧ Asked rounds asked tr := by
  rw [mainLoop_eq scancode? ackFd holds_init out (Nat.le_refl _)] at hrun
  obtain ⟨t₁, u, t₂, rfl, hhandled, hdone⟩ := Prog.run_bind.mp hrun
  obtain ⟨rfl, -⟩ := Prog.run_pure.mp hdone
  rw [List.append_nil] at hmanaged ⊢
  obtain ⟨rounds, hcreds, rfl⟩ := run_handleAll hhandled
  have hssid : ∀ r ∈ rounds, r.creds.ssid.bytes ≠ [] := by
    intro r hr
    have hmem := List.mem_map_of_mem hr (f := Round.creds)
    rw [hcreds, requests, List.mem_filterMap] at hmem
    obtain ⟨p, -, hp⟩ := hmem
    exact ssid_of_parse hp
  obtain ⟨asked, hasked⟩ := asked_rounds hssid hmanaged
  exact ⟨rounds, asked, hcreds, rfl, hasked⟩

/-- NetworkManager refuses everything. It is connected to `Old`. -/
private def refusing (_ : ℕ) : (c : Call) → c.Answer
  | .system cmd => if isLook cmd then some 0 else some 10
  | .popen _ => some (ascii "yes:Old\n")
  | .sleep _ => ()
  | .delayMs _ => ()
  | .getaddrinfo _ _ => true
  | .writeFile _ _ => true
  | .unlink _ => true
  | .writeScancode _ _ => true

private def quotedReads : List (DeviceRead LircScancode) :=
  (passFrames 0 (ascii "WIFI:T:WPA;S:it's;P:a b;;")).map (fun f =>
    ⟨some (rc6Scancode f.1 f.2), wfrDecoderConfig.zero, true⟩)

private def quotedLoop : Cmd Bool :=
  mainLoop (readScancode lircScancode) 3 quotedReads.length quotedReads wfrDecodeInit
    (List.replicate 256 0)

theorem managed_asked_refused :
    told (Prog.runWith refusing 0 quotedLoop).1 =
      [(some [ascii "nmcli", ascii "dev", ascii "wifi", ascii "connect", ascii "it's",
          ascii "password", ascii "a b"], some 10),
        (some [ascii "nmcli", ascii "con", ascii "up", ascii "Old"], some 10)] ∧
    ∃ (rounds : List (Round 3)) (asked : List (List (NmRequest × Option UInt8))),
      rounds.map Round.creds = requests (deliveries (feedAll wfrDecodeInit (List.replicate 256 0)
        (heard lircScancode quotedReads))) ∧
      rounds.flatMap Round.trace = (Prog.runWith refusing 0 quotedLoop).1 ∧
      Asked rounds asked (Prog.runWith refusing 0 quotedLoop).1 :=
  ⟨by decide +kernel, managed_asked lircScancode 3 (List.replicate 256 0) quotedReads _ _
    (Prog.run_runWith refusing quotedLoop 0) (by decide +kernel)⟩

/-! ## Beside an application -/

private def sentReads : List (DeviceRead LircScancode) :=
  (passFrames 0 (fullWifiString Gui.dock)).map (fun f =>
    ⟨some (rc6Scancode f.1 f.2), wfrDecoderConfig.zero, true⟩)

private def sentLoop : Cmd Bool :=
  mainLoop (readScancode lircScancode) 3 sentReads.length sentReads wfrDecodeInit (List.replicate 256 0)

end InfraFi.System
