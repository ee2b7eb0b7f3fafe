import InfraFi.Flipper.Listener
import InfraFi.System.Agreement

/-! # From the confirm screen to the daemon and back

Two parties that share nothing but the air: an application in any state that it
can reach and a daemon that has heard some of the frames of its TX. What the
listener then hears of the answer is what the screen tells.
-/
namespace InfraFi.System
open Base Protocol Reassembly Daemon Flipper

variable {ε : Type}

/-- A TX as a send. -/
def sendOf (r : Gui.Radio) (t : Gui.TxThread) (progress : UInt16 → UInt16 → Bool)
    (wifiStr : Vector UInt8 (wfrMaxTotalPayload + 1)) : Send :=
  ⟨r.txCreds, t.protocol, some progress, wifiStr, []⟩

theorem transmitted_eq (r : Gui.Radio) (t : Gui.TxThread) (progress : UInt16 → UInt16 → Bool)
    (wifiStr : Vector UInt8 (wfrMaxTotalPayload + 1)) :
    (Gui.transmitted r t progress wifiStr).1 = (sendOf r t progress wifiStr).messages := by
  have hsend : (sendOf r t progress wifiStr).transmit =
      wfrTransmitCredentials r.txCreds t.protocol (some progress) wifiStr := rfl
  rw [Gui.transmitted, Send.messages, hsend]
  cases wfrTransmitCredentials r.txCreds t.protocol (some progress) wifiStr <;> rfl

/-- Some frames of a send make the daemon do nothing, or serve the credentials. -/
theorem mainLoop_of_sublist (scancode? : ε → Option (UInt8 × UInt8)) (ackFd : ℤ) (out : Bytes) (s : Send)
    (hsec : IsWfrSec s.creds.security) {reads : List (DeviceRead ε)}
    (hheard : ((heard scancode? reads).map pairOf).Sublist
      (s.messages.map (fun m => (m.address, m.command)))) :
    ∃ served, (served = [] ∨ served = [s.creds]) ∧
      mainLoop (readScancode scancode?) ackFd reads.length reads wfrDecodeInit out = do
        forM served (serve ackFd)
        return stopped scancode? reads := by
  rw [mainLoop_eq scancode? ackFd holds_init out (Nat.le_refl _)]
  rcases deliveries_of_send out s hheard with hnone | ⟨hssid, hgot⟩
  · exact ⟨[], .inl rfl, by rw [hnone]; rfl⟩
  · refine ⟨[s.creds], .inr rfl, ?_⟩
    rw [hgot, List.forM_cons, List.forM_nil, handleCredentials_wifiString ackFd hssid hsec,
      List.forM_cons, List.forM_nil]

/-- A saved network is sent. -/
def sendDock : List Gui.DeviceInput :=
  Gui.written [.menuOk 2, Gui.handle, .listOk 0, Gui.handle, .confirmKey .right, Gui.handle,
    .txDone (Vector.replicate _ 0)]

theorem reach_sendDock : ∃ (app : Gui.WiFirApp) (o : Option Gui.Origin),
    Reach Gui.deviceStep (fun _ _ => True) (Gui.started Gui.dockCard, none) (app, o) ∧
      app.scene = some .transmit ∧ IsWfrSec app.securityType ∧
      app.radio.aired.map (fun m => (m.address, m.command)) = passFrames 0 (fullWifiString Gui.dock) := by
  have hrun : (runAll (fun s d => if True then Gui.deviceStep s d else none)
      (Gui.started Gui.dockCard, none) sendDock).map (fun s =>
        decide (s.1.scene = some .transmit ∧ IsWfrSec s.1.securityType ∧
          s.1.radio.aired.map (fun m => (m.address, m.command)) =
            passFrames 0 (fullWifiString Gui.dock))) = some true := by decide +kernel
  obtain ⟨⟨app, o⟩, happ, hsent⟩ := Option.map_eq_some_iff.mp hrun
  rw [decide_eq_true_eq] at hsent
  exact ⟨app, o, Reach.of_runAll happ, hsent⟩

/-- The daemon misses the second frame. -/
private def dockReads : List (DeviceRead LircScancode) :=
  ((passFrames 0 (fullWifiString Gui.dock)).eraseIdx 1).map (fun f =>
    ⟨some (rc6Scancode f.1 f.2), wfrDecoderConfig.zero, true⟩)

/-- What is on the air is a send of `tx_creds`, as far as there is anything. -/
theorem exists_send {r : Gui.Radio} (h : Gui.Sent r) {fs : List (UInt8 × UInt8)}
    (hsub : fs.Sublist (r.aired.map (fun m => (m.address, m.command)))) :
    ∃ s : Send, s.creds = r.txCreds ∧ fs.Sublist (s.messages.map (fun m => (m.address, m.command))) := by
  rcases h with ⟨hnone, -⟩ | ⟨t, progress, wifiStr, hsent⟩
  · rw [hnone, List.map_nil, List.sublist_nil] at hsub
    refine ⟨⟨r.txCreds, .rc6, none, Vector.replicate _ 0, []⟩, rfl, ?_⟩
    rw [hsub]
    exact List.nil_sublist _
  · refine ⟨sendOf r t progress wifiStr, rfl, ?_⟩
    rwa [← transmitted_eq, hsent]

/-- The verdict of the running listener is handled in the transmit scene. -/
theorem status_of_verdict {app app' : Gui.WiFirApp} {v : Flipper.WiFirCustomEvent} {n : ℕ}
    {rest : List Gui.Posted} {env : Gui.Env} (hevents : app.events = ⟨Gui.ackEvent v, n⟩ :: rest)
    (hscene : app.scene = some .transmit) (hstep : Gui.step app (.custom env) = some app') :
    (v = .ackSuccess → app'.status.mode = .connected ∧
      app'.status.line1 = CString.ofBytes 31 app.radio.ackResultText.bytes) ∧
    (v = .ackFail → app'.status.mode = .result ∧ app'.status.title.bytes = ascii "Join failed") := by
  have hpopped : Gui.WiFirApp.scene { app with events := rest } = some .transmit := hscene
  rw [Gui.step] at hstep
  split at hstep
  · cases hstep
  simp only [Gui.perform, hevents, Option.some.injEq] at hstep
  rw [← hstep, Gui.handleCustom, hpopped]
  cases v with
  | ackSuccess =>
    refine ⟨fun _ => ?_, fun hv => Flipper.WiFirCustomEvent.noConfusion hv⟩
    have hstop := Gui.stopAckListener_eq (Gui.WiFirApp.call { app with events := rest } (.verdict n))
    simp only [Gui.ackEvent, Gui.wiFirSceneTransmitOnEvent, Gui.wiFirOnAckSuccess, hstop]
    exact ⟨rfl, rfl⟩
  | ackFail =>
    refine ⟨fun hv => ?_, fun _ => ⟨rfl, ?_⟩⟩
    · cases hv
    · have hjoin : (CString.ofBytes 23 (ascii "Join failed")).bytes = ascii "Join failed" := by decide
      exact hjoin

/-- The ACK is turned on, an open network is entered and sent, and the listener hears an answer. -/
private def openSent : List Gui.DeviceInput :=
  Gui.written ([.menuOk 3, Gui.handle, .ackChange true, .back Gui.calm, .menuOk 0, Gui.handle,
    .textDone (ascii "A"), Gui.handle, .textDone [], Gui.handle, .securityChange 0, .itemOk, Gui.handle,
    .confirmKey .right, Gui.handle] ++ Gui.wholeTx ++ [Gui.handle] ++
    (passFrames 0 (ascii "OK:10.0.0.2")).map (fun f => .signal 1 ⟨0, signalOf f, Vector.replicate _ 0⟩))

private def openString : Bytes := fullWifiString ⟨.ofBytes _ (ascii "A"), .empty _, wfrSecOpen, false⟩

private def openReads : List (DeviceRead LircScancode) :=
  (passFrames 0 openString).map (fun f =>
    ⟨some (rc6Scancode f.1 f.2), wfrDecoderConfig.zero, true⟩)

private def openLoop : Cmd Bool :=
  mainLoop (readScancode lircScancode) 3 openReads.length openReads wfrDecodeInit (List.replicate 256 0)

end InfraFi.System
