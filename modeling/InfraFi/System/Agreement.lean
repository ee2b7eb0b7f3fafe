import InfraFi.System.Channel
import InfraFi.System.Rounds

/-! # What the Flipper learns is what happened

One send and its answer, over air that loses frames both ways.
-/
namespace InfraFi.System
open Base Protocol Reassembly Daemon Flipper

variable {ε : Type} {ackFd : ℤ}

/-- What is left of the text behind the messages of a listener. -/
def textAfter (text : CString 63) (ps : List Bytes) : CString 63 :=
  ps.foldl (fun text p => if p.take 3 = wfrAckPrefixOk then CString.ofBytes 63 (p.drop 3) else text) text

theorem receiveAll_text {T : UInt32} {signals : List Reception} (hs : ∀ s ∈ signals, s.Heard)
    {app : Flipper.WiFirApp} {σ : Option (Session UInt32 UInt8)} (h : HoldsAck T app.ackDecoder σ)
    (hclean : ∀ p ∈ messages (run (ackPolicy T) σ (signals.map Reception.frame)).2, 0 ∉ p) :
    (receiveAll T app signals).ackResultText = textAfter app.ackResultText
      (messages (run (ackPolicy T) σ (signals.map Reception.frame)).2) := by
  induction signals generalizing app σ with
  | nil => rfl
  | cons s signals ih =>
    rcases wiFirIrRxCallback_heard (hs s (by simp)) h with ⟨r, happ, hrep, hreports⟩
    have hfold : receiveAll T app (s :: signals) = receiveAll T (onAckResult app r) signals :=
      congrArg (fun a => receiveAll T a signals) happ
    have hframe : s.frame = (s.frame.1, s.frame.2) := rfl
    rw [List.map_cons, hframe, run_cons, messages_cons] at hclean ⊢
    rw [hfold, ih (fun t ht => hs t (by simp [ht])) (by rwa [(onAckResult_events app hreports).1])
      fun p hp => hclean p (List.mem_append_right _ hp)]
    generalize step (ackPolicy T) s.frame.1 σ s.frame.2 = stepped at hreports hclean ⊢
    rcases stepped with ⟨σ', outcome⟩
    cases outcome with
    | delivered p =>
      have hp : 0 ∉ p := hclean p (List.mem_append_left _ (by simp [Outcome.message?]))
      rw [onAckResult_delivered hreports hp]
      split
      · rename_i hok
        simp [textAfter, Outcome.message?, hok]
      · rename_i hok
        simp [textAfter, Outcome.message?, hok]
    | _ =>
      rw [onAckResult_quiet app hreports rfl]
      rfl

/-- Of the frames of an answer, any of which may be lost, a listening Flipper makes nothing or the
answer. -/
theorem messages_of_answer (T : UInt32) {text : Bytes} (hpos : text ≠ []) (hlen : text.length ≤ 255)
    {signals : List Reception}
    (hsub : (signals.map Reception.message).Sublist ((passFrames 0 text).map signalOf)) :
    (∀ s ∈ signals, s.Heard) ∧
      (messages (run (ackPolicy T) none (signals.map Reception.frame)).2 = [] ∨
        messages (run (ackPolicy T) none (signals.map Reception.frame)).2 = [text]) := by
  obtain ⟨fs, hfs, hm⟩ := List.sublist_map_iff.mp hsub
  obtain ⟨hrc6, hframes⟩ := frames_of_signals hm
  have hpass := hfs.map (fun f => frameOf f.1 f.2)
  rw [frameOf_passFrames (by decide) hlen, ← hframes] at hpass
  refine ⟨fun s hs => (hrc6 s hs).heard, ?_⟩
  exact messages_of_sublist (ackPolicy T) hpos (c := wfrCrc8 text) (by rw [List.map_map]; exact hpass)

/-- It posts nothing, or the verdict of the answer. -/
theorem receiveAll_of_sublist (T : UInt32) {text : Bytes} (hpos : text ≠ []) (hlen : text.length ≤ 255)
    {signals : List Reception}
    (hsub : (signals.map Reception.message).Sublist ((passFrames 0 text).map signalOf)) :
    (receiveAll T (wiFirStartAckListener T) signals).events = [] ∨
      (receiveAll T (wiFirStartAckListener T) signals).events = [verdictOf text] ∧
        (0 ∉ text → (receiveAll T (wiFirStartAckListener T) signals).ackResultText =
          textAfter (.empty _) [text]) := by
  obtain ⟨hheard, hgot⟩ := messages_of_answer T hpos hlen hsub
  obtain ⟨-, hevents⟩ := receiveAll_events (wiFirStartAckListener T) hheard (represents_init _)
  rw [hevents]
  rcases hgot with hnone | hgot
  · exact .inl (by rw [hnone]; rfl)
  · refine .inr ⟨by rw [hgot]; rfl, fun h0 => ?_⟩
    have hinit : HoldsAck T (wiFirStartAckListener T).ackDecoder none := represents_init _
    have htext := receiveAll_text hheard hinit (by rw [hgot]; simpa using h0)
    rw [htext, hgot]
    rfl

theorem verdictOf_ackText (success : Bool) (ip : Option Bytes) :
    verdictOf (ackText success ip) =
      if success = true ∧ ip ≠ none then .ackSuccess else .ackFail := by
  cases success <;> cases ip <;> simp [verdictOf, ackText, wfrAckPrefixOk, wfrAckPrefixFail, ascii]

/-- A send puts out nothing, or frames of the one pass of its string. -/
theorem Send.messages_sublist (s : Send) : s.messages = [] ∨ s.creds.ssid.bytes ≠ [] ∧
    (s.messages.map (fun m => (m.address, m.command))).Sublist
      (passFrames 0 (fullWifiString s.creds)) := by
  by_cases hssid : s.creds.ssid.bytes = []
  · have hnothing : s.transmit = .ok ([], false) := by
      rw [transmit, wfrTransmitCredentials, if_pos hssid]
      rfl
    exact .inl (Send.transmit_ok hnothing).1
  rcases wfrTransmitCredentials_cases s.creds s.protocol s.progress s.wifiStr with
    ⟨-, hsent | ⟨k, hsent⟩⟩ | ⟨-, hsent⟩
  · exact .inl (Send.transmit_ok hsent).1
  · refine .inr ⟨hssid, ?_⟩
    rw [(Send.transmit_ok hsent).1, passFrames, List.cons_append, List.map_cons, List.map_map]
    exact (((List.take_sublist k _).map _).trans (List.sublist_append_left _ _)).cons_cons _
  · refine .inr ⟨hssid, ?_⟩
    rw [(Send.transmit_ok hsent).1, passFrames, List.map_append, List.map_cons, List.map_map]
    exact .refl _

/-- Of the frames of a send, any of which may be lost, an idle decoder makes nothing or the string of
its credentials. -/
theorem deliveries_of_send (out : Bytes) (s : Send) {ss : List Scancode}
    (hsub : (ss.map pairOf).Sublist (s.messages.map (fun m => (m.address, m.command)))) :
    deliveries (feedAll wfrDecodeInit out ss) = [] ∨ s.creds.ssid.bytes ≠ [] ∧
      deliveries (feedAll wfrDecodeInit out ss) = [fullWifiString s.creds] := by
  rcases s.messages_sublist with hnone | ⟨hssid, hpass⟩
  · rw [hnone, List.map_nil, List.sublist_nil, List.map_eq_nil_iff] at hsub
    rw [hsub]
    exact .inl rfl
  · have hlen := fullWifiString_length_le s.creds
    exact (deliveries_of_sublist out (fullWifiString_length_pos s.creds) (by omega)
      (hsub.trans hpass)).imp_right fun hgot => ⟨hssid, hgot⟩

/-- A daemon that has heard some frames of a send has done nothing, or has had one round with the very
credentials that were sent. -/
theorem round_of_send (scancode? : ε → Option (UInt8 × UInt8)) (ackFd : ℤ) (out : Bytes) (s : Send)
    (hsec : IsWfrSec s.creds.security) {reads : List (DeviceRead ε)}
    (hthere : ((heard scancode? reads).map pairOf).Sublist
      (s.messages.map (fun m => (m.address, m.command))))
    {tr : Trace} {stop : Bool}
    (hrun : Prog.Run (mainLoop (readScancode scancode?) ackFd reads.length reads wfrDecodeInit out)
      tr stop) :
    tr = [] ∨ s.creds.ssid.bytes ≠ [] ∧ ∃ r : Round ackFd, r.creds = s.creds ∧ r.trace = tr := by
  rw [mainLoop_eq scancode? ackFd holds_init out (Nat.le_refl _)] at hrun
  obtain ⟨t₁, u, t₂, rfl, hhandled, hdone⟩ := Prog.run_bind.mp hrun
  obtain ⟨rfl, -⟩ := Prog.run_pure.mp hdone
  rw [List.append_nil]
  rcases deliveries_of_send out s hthere with hnone | ⟨hssid, hgot⟩
  · rw [hnone] at hhandled
    obtain ⟨rfl, -⟩ := Prog.run_pure.mp hhandled
    exact .inl rfl
  · rw [hgot, List.forM_cons, List.forM_nil, bind_pure_unit,
      handleCredentials_wifiString ackFd hssid hsec] at hhandled
    exact .inr ⟨hssid, run_serve hhandled⟩

/-- What it has answered is the outcome of that round. -/
theorem answered_of_send (scancode? : ε → Option (UInt8 × UInt8)) (ackFd : ℤ) (out : Bytes) (s : Send)
    (hsec : IsWfrSec s.creds.security) {reads : List (DeviceRead ε)}
    (hthere : ((heard scancode? reads).map pairOf).Sublist
      (s.messages.map (fun m => (m.address, m.command))))
    {tr : Trace} {stop : Bool}
    (hrun : Prog.Run (mainLoop (readScancode scancode?) ackFd reads.length reads wfrDecodeInit out)
      tr stop) :
    written tr = [] ∨ ∃ (r : Round ackFd) (ip : Option Bytes), r.creds = s.creds ∧ r.trace = tr ∧
      Answers r.connected ip tr := by
  rcases round_of_send scancode? ackFd out s hsec hthere hrun with rfl | ⟨-, r, hcreds, rfl⟩
  · exact .inl rfl
  obtain ⟨hsilent, hanswer⟩ := r.written_trace
  by_cases hfd : ackFd < 0
  · exact .inl (hsilent hfd)
  · obtain ⟨ip, hans⟩ := hanswer (by omega)
    exact .inr ⟨r, ip, hcreds, rfl, hans⟩

/-- An open network is sent. -/
@[irreducible] private def openSend' : Send := {
  creds := { ssid := CString.ofBytes wfrSsidMaxLen (ascii "A"),
             password := CString.empty wfrPassMaxLen, security := wfrSecOpen, hidden := false }
  protocol := .rc6, progress := none, wifiStr := Vector.replicate _ 0, arrivals := [] }

/-- NetworkManager joins it, and the interface gets an address. -/
def joining (_ : ℕ) : (c : Call) → c.Answer
  | .system _ => some 0
  | .popen cmd => if cmd = detectCmd then some (ascii "wlan0\n") else some (ascii "10.0.0.2\n")
  | .sleep _ => ()
  | .delayMs _ => ()
  | .getaddrinfo _ _ => true
  | .writeFile _ _ => true
  | .unlink _ => true
  | .writeScancode _ _ => true

private def joinReads : List (DeviceRead LircScancode) :=
  openSend'.messages.map (fun m => ⟨some (rc6Scancode m.address m.command), wfrDecoderConfig.zero, true⟩)

private def joinLoop : Cmd Bool :=
  mainLoop (readScancode lircScancode) 3 joinReads.length joinReads wfrDecodeInit (List.replicate 256 0)

private def joinSignals : List Reception :=
  (written (Prog.runWith joining 0 joinLoop).1).map (fun f => ⟨0, signalOf f, Vector.replicate _ 0⟩)

end InfraFi.System
