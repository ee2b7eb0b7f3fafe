import InfraFi.Daemon.AckTime
import InfraFi.System.Acks
import InfraFi.System.Listening

/-! # One answer for each request

A run of the daemon falls into rounds, one for each payload with credentials.
What is transmitted is the answers of the rounds, one after the other.
-/
namespace InfraFi.System
open Base Protocol Reassembly Daemon Flipper

variable {ε : Type} {ackFd : ℤ}

/-- The credentials in the payloads. -/
def requests (ps : List Bytes) : List WfrWifiCreds :=
  ps.filterMap (fun p => wfrParseWifiString (cstr p))

/-- One request and all that is done for it: the look at the network before, the attempt and the
report. -/
structure Round (ackFd : ℤ) where
  creds : WfrWifiCreds
  prevSsid : Option Bytes
  connected : Bool
  before : Trace
  attempt : Trace
  report : Trace
  run_before : Prog.Run (wfrNetGetCurrent (wfrSsidMaxLen + 1)) before prevSsid
  run_attempt : Prog.Run (wfrNetConnect creds) attempt connected
  run_report : Prog.Run (reportOutcome ackFd (prevSsid.getD []) connected) report ()

def Round.trace (r : Round ackFd) : Trace := r.before ++ (r.attempt ++ r.report)

theorem run_serve {creds : WfrWifiCreds} {tr : Trace} (h : Prog.Run (serve ackFd creds) tr ()) :
    ∃ r : Round ackFd, r.creds = creds ∧ r.trace = tr := by
  obtain ⟨t₁, prev, t₂, rfl, h₁, h₂⟩ := Prog.run_bind.mp h
  obtain ⟨t₃, connected, t₄, rfl, h₃, h₄⟩ := Prog.run_bind.mp h₂
  exact ⟨⟨creds, prev, connected, t₁, t₃, t₄, h₁, h₃, h₄⟩, rfl, rfl⟩

/-- The payloads without credentials leave no trace. -/
theorem run_handleAll {ps : List Bytes} {tr : Trace} {u : Unit}
    (h : Prog.Run (forM ps (handleCredentials ackFd)) tr u) :
    ∃ rounds : List (Round ackFd), rounds.map Round.creds = requests ps ∧
      rounds.flatMap Round.trace = tr := by
  obtain ⟨ts, rfl, hts⟩ := Prog.run_forM.mp h
  clear h
  induction hts with
  | nil => exact ⟨[], rfl, rfl⟩
  | @cons p t ps ts hp _ ih =>
    obtain ⟨rounds, hcreds, htrace⟩ := ih
    rw [List.flatten_cons, ← htrace]
    cases hparse : wfrParseWifiString (cstr p) with
    | none =>
      rw [handleCredentials, hparse] at hp
      obtain ⟨rfl, -⟩ := Prog.run_pure.mp hp
      exact ⟨rounds, by rw [hcreds, requests, requests, List.filterMap_cons, hparse], rfl⟩
    | some creds =>
      rw [handleCredentials, hparse] at hp
      obtain ⟨r, rfl, rfl⟩ := run_serve hp
      refine ⟨r :: rounds, ?_, rfl⟩
      rw [List.map_cons, hcreds, requests, requests, List.filterMap_cons, hparse]

/-! ## What is transmitted -/

theorem written_of_kinds {ks : List CallKind} {tr : Trace} (h : ∀ e ∈ tr, e.1.kind ∈ ks)
    (hks : .scancode ∉ ks) : written tr = [] ∧ AllWritten tr := by
  induction tr with
  | nil => exact ⟨rfl, allWritten_nil⟩
  | cons e tr ih =>
    obtain ⟨he, htr⟩ := List.forall_mem_cons.mp h
    obtain ⟨hnone, hall⟩ := ih htr
    rcases e with ⟨c, x⟩
    cases c with
    | writeScancode address command => exact absurd he hks
    | _ => exact ⟨hnone, List.forall_mem_cons.mpr ⟨rfl, hall⟩⟩

theorem written_reportOutcome {prevSsid : Bytes} {connected : Bool} {tr : Trace}
    (h : Prog.Run (reportOutcome ackFd prevSsid connected) tr ()) :
    ∃ t, Prog.Run (sendAck ackFd connected) t () ∧ written tr = written t ∧
      (AllWritten tr ↔ AllWritten t) := by
  cases connected with
  | true => exact ⟨tr, h, rfl, Iff.rfl⟩
  | false =>
    obtain ⟨t₁, u, t₂, rfl, h₁, h₂⟩ := Prog.run_bind.mp h
    have hroll : written t₂ = [] ∧ AllWritten t₂ := by
      split at h₂
      · obtain ⟨t₃, ok, t₄, rfl, h₃, h₄⟩ := Prog.run_bind.mp h₂
        rw [(Prog.run_pure.mp h₄).1, List.append_nil]
        exact written_of_kinds ((kinds_wfrNetRollback prevSsid).run h₃) (by simp)
      · rw [(Prog.run_pure.mp h₂).1]
        exact ⟨rfl, allWritten_nil⟩
    refine ⟨t₁, h₁, ?_, ?_⟩
    · rw [written_append, hroll.1, List.append_nil]
    · rw [allWritten_append, and_iff_left hroll.2]

/-- What a round transmits is its answer, or the beginning of it up to a write that failed. -/
structure Answers (connected : Bool) (ip : Option Bytes) (tr : Trace) : Prop where
  address : ∀ text, ip = some text → 0 ∉ text ∧ text.length ≤ 31
  short : (ackText connected ip).length ≤ 255
  part : written tr <+: passFrames 0 (ackText connected ip)
  whole : AllWritten tr → written tr = passFrames 0 (ackText connected ip)

theorem answers_sendAck {connected : Bool} {tr : Trace} (hfd : 0 ≤ ackFd)
    (h : Prog.Run (sendAck ackFd connected) tr ()) : ∃ ip, Answers connected ip tr := by
  rw [sendAck, if_neg (by omega)] at h
  obtain ⟨t₁, ⟨found, ip⟩, t₂, rfl, hlookup, hsend⟩ := Prog.run_bind.mp h
  obtain ⟨t, ok, hack, hw, hall⟩ := run_sendIp hsend
  obtain ⟨hw₁, hall₁⟩ := lookupIp_writes hlookup
  obtain ⟨h0, hlen, -⟩ := lookupIp_text hlookup
  have hwritten : written (t₁ ++ t₂) = written t := by
    rw [written_append, hw₁, hw, List.nil_append]
  have hdone : AllWritten (t₁ ++ t₂) ↔ AllWritten t := by
    rw [allWritten_append, and_iff_right hall₁, hall]
  generalize hipStr : (if (found, ip).2 ≠ [] then some (found, ip).2 else none) = ipStr at hack
  have htext := (ackText_valid connected h0 hlen hipStr).2
  have haddress : ∀ text, ipStr = some text → 0 ∉ text ∧ text.length ≤ 31 := by
    rintro text rfl
    rw [Option.ite_none_right_eq_some, Option.some.injEq] at hipStr
    rw [← hipStr.2]
    exact ⟨h0, hlen⟩
  refine ⟨ipStr, ?_⟩
  rcases run_wfrAckSend hfd htext hack with ⟨-, hwhole⟩ | ⟨hfailed, hcut⟩
  · rw [← hwritten] at hwhole
    exact ⟨haddress, htext, by rw [hwhole], fun _ => hwhole⟩
  · refine ⟨haddress, htext, ?_, fun hdone' => absurd (hdone.mp hdone') hfailed⟩
    rw [hwritten]
    rcases hcut with hnil | ⟨k, hpart⟩
    · rw [hnil]
      exact List.nil_prefix
    · rw [hpart, passFrames, List.cons_append]
      refine List.cons_prefix_cons.mpr ⟨rfl, ?_⟩
      exact ((List.take_prefix k _).map _).trans (List.prefix_append _ _)

/-- A round transmits nothing but its answer. -/
theorem Round.written_trace (r : Round ackFd) :
    (ackFd < 0 → written r.trace = []) ∧ (0 ≤ ackFd → ∃ ip, Answers r.connected ip r.trace) := by
  obtain ⟨hbefore, hall⟩ := written_of_kinds ((kinds_wfrNetGetCurrent _).run r.run_before) (by simp)
  obtain ⟨hattempt, hall'⟩ := written_of_kinds ((kinds_wfrNetConnect _).run r.run_attempt) (by simp)
  obtain ⟨t, hsend, hw, hdone⟩ := written_reportOutcome r.run_report
  have hwritten : written r.trace = written t := by
    rw [trace, written_append, written_append, hbefore, hattempt, hw, List.nil_append,
      List.nil_append]
  have hkept : AllWritten r.trace ↔ AllWritten t := by
    rw [trace, allWritten_append, allWritten_append, and_iff_right hall, and_iff_right hall', hdone]
  constructor
  · intro hfd
    rw [sendAck, if_pos hfd] at hsend
    rw [hwritten, (Prog.run_pure.mp hsend).1]
    rfl
  · intro hfd
    obtain ⟨ip, haddress, hshort, hpart, hwhole⟩ := answers_sendAck hfd hsend
    exact ⟨ip, haddress, hshort, by rwa [hwritten], fun h => hwritten.trans (hwhole (hkept.mp h))⟩

theorem written_flatMap (rounds : List (Round ackFd)) :
    written (rounds.flatMap Round.trace) = rounds.flatMap (fun r => written r.trace) := by
  induction rounds with
  | nil => rfl
  | cons r rounds ih => rw [List.flatMap_cons, List.flatMap_cons, written_append, ih]

/-- Nothing works on this system but the writes. -/
private def failing (_ : ℕ) : (c : Call) → c.Answer
  | .system _ => some 1
  | .popen _ => none
  | .sleep _ => ()
  | .delayMs _ => ()
  | .getaddrinfo _ _ => false
  | .writeFile _ _ => false
  | .unlink _ => false
  | .writeScancode _ _ => true

/-- The text of an answer and an open network. -/
private def twoReads : List (DeviceRead LircScancode) :=
  (passFrames 0 (ascii "FAIL") ++ passFrames 0 (ascii "WIFI:T:nopass;S:A;;")).map (fun f =>
    ⟨some (rc6Scancode f.1 f.2), wfrDecoderConfig.zero, true⟩)

private def twoHandled : Cmd Bool :=
  mainLoop (readScancode lircScancode) 3 twoReads.length twoReads wfrDecodeInit (List.replicate 256 0)

end InfraFi.System
