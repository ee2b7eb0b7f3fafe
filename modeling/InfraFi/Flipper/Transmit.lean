import InfraFi.Flipper.App

/-! # The transmit scene

Stopping a party joins it. What it posted before stays in the queue.
-/
namespace InfraFi.Flipper.Gui
open Base Protocol

def dismissSentTicks : ℕ := 25
def dismissConnected : ℕ := 60

def wiFirProtoLabel (app : WiFirApp) : Bytes :=
  match app.irProtocol with
  | .nec => ascii "NEC"
  | .rc6 => ascii "RC-6"

/-! ## ACK receive -/

def ackEvent : Flipper.WiFirCustomEvent → WiFirCustomEvent
  | .ackSuccess => .ackSuccess
  | .ackFail => .ackFail

/-- A signal received by one of the IR workers. -/
def wiFirIrRxCallback (app : WiFirApp) (worker : ℕ) (signal : Reception) : WiFirApp :=
  let r := Flipper.wiFirIrRxCallback ackTimeoutTicks
    ⟨app.radio.ackDecoder, app.radio.ackResultText, []⟩ signal
  { app with
    events := app.events ++ r.events.map (fun e => ⟨ackEvent e, worker⟩)
    radio := { app.radio with ackDecoder := r.ackDecoder, ackResultText := r.ackResultText } }

def wiFirAckTimeoutCallback (app : WiFirApp) (timer : ℕ) : WiFirApp := app.post .ackTimeout timer

def stopTimer (r : Radio) : Radio :=
  match r.ackTimer with
  | some timer => { r with ackTimer := none, armed := r.armed.filter (· ≠ timer) }
  | none => r

def stopWorker (r : Radio) : Radio :=
  match r.irWorker with
  | some worker => { r with irWorker := none, receiving := r.receiving.filter (· ≠ worker) }
  | none => r

def wiFirStopAckListener (app : WiFirApp) : WiFirApp :=
  { app with radio := stopWorker (stopTimer app.radio) }

def wiFirStartAckListener (app : WiFirApp) : WiFirApp :=
  let r := app.radio
  let number := r.listenerCount + 1
  { app with
    status := app.status.setWaiting wfrAckTimeoutSec
    radio := { r with
      ackDecoder := wfrAckDecodeInit ackTimeoutTicks
      ackResultText := .empty _
      irWorker := some number
      receiving := number :: r.receiving
      ackTimer := some number
      armed := number :: r.armed
      listenerCount := number
      calls := r.calls ++ [.startAckListener r.txThread r.irWorker r.ackTimer] } }

/-! ## IR transmit worker -/

def wiFirTxProgress (app : WiFirApp) (sent total : UInt16) : WiFirApp :=
  { app with status := app.status.setTransmit sent total (wiFirProtoLabel app) }

/-- What `wfr_transmit_credentials` puts on the air and returns on the TX thread. It does not
fault. -/
def transmitted (r : Radio) (t : TxThread) (progress : UInt16 → UInt16 → Bool)
    (wifiStr : Vector UInt8 (wfrMaxTotalPayload + 1)) : List TxMessage × Bool :=
  match wfrTransmitCredentials r.txCreds t.protocol (some progress) wifiStr with
  | .ok result => result
  | .error _ => ([], false)

/-- The rest of the TX worker once `tx_cancel` is set. Only a worker that has looked at
`tx_cancel` before still posts. -/
def joinTx (env : Env) (t : TxThread) (app : WiFirApp) : WiFirApp :=
  match t.phase with
  | .sending =>
    let result := transmitted app.radio t env.late env.wifiStr
    let app := match env.redraw with
      | some (sent, total) => wiFirTxProgress app sent total
      | none => app
    { app with radio := { app.radio with aired := result.1, txOk := result.2 } }
  | .posting => app.post .txFinished t.number
  | .sent | .returned => app

def wiFirStopTx (env : Env) (app : WiFirApp) : WiFirApp :=
  match app.radio.txThread with
  | some t =>
    let app := joinTx env t { app with radio := { app.radio with txCancel := true } }
    { app with radio := { app.radio with txThread := none } }
  | none => app

/-- `strncpy` of the working set into a cleared record. -/
def workingCreds (app : WiFirApp) : WfrWifiCreds :=
  ⟨app.ssid, app.password, app.securityType, app.hidden⟩

/-- From `memset(&app->tx_creds, ..)` to the start of the thread. -/
def startThread (app : WiFirApp) : WiFirApp :=
  let r := app.radio
  let number := r.txCount + 1
  { app with
    dismissTicks := 0
    status := app.status.setTransmit 0 0 (wiFirProtoLabel app)
    view := .status
    radio := { r with
      txCreds := workingCreds app
      txCancel := false
      txOk := false
      retryAllowed := false
      txThread := some ⟨number, app.irProtocol, .sending⟩
      txCount := number
      aired := []
      calls := r.calls ++ [.startTx r.irWorker r.ackTimer] } }

def wiFirStartTx (env : Env) (app : WiFirApp) : WiFirApp :=
  startThread (wiFirStopTx env (wiFirStopAckListener app))

/-! ## Results -/

def wiFirShowFailure (app : WiFirApp) (badge : WfrStatusBadge) (title line1 line2 retryLabel : Bytes) :
    WiFirApp :=
  { app with
    dismissTicks := 0
    status := app.status.setResult .server badge title line1 line2 (some (ascii "Menu"))
      (some retryLabel)
    radio := { app.radio with retryAllowed := true } }

def wiFirOnTxFinished (env : Env) (source : ℕ) (app : WiFirApp) : WiFirApp :=
  let app := wiFirStopTx env (app.call (.txFinished source app.radio.txCount))
  if ¬ app.radio.txOk then
    wiFirShowFailure app .cross (ascii "Send failed") (ascii "IR transmit error")
      (ascii "Try again") (ascii "Retry")
  else
    let saved := wfrStorageSave env.writes app.card app.radio.txCreds
    let app := { app with card := saved.2 }.call (.save app.radio.txCreds app.radio.aired)
    if app.ackEnabled then wiFirStartAckListener app
    else
      { app with
        status := app.status.setResult .server .check (ascii "Sent!") (ascii "Credentials sent")
          (ascii "over infrared") none none
        dismissTicks := dismissSentTicks }

def wiFirOnAckSuccess (source : ℕ) (app : WiFirApp) : WiFirApp :=
  let app := wiFirStopAckListener (app.call (.verdict source))
  { app with
    status := app.status.setConnected app.radio.ackResultText.bytes
    dismissTicks := dismissConnected
    radio := { app.radio with retryAllowed := false } }

def wiFirOnAckFail (source : ℕ) (app : WiFirApp) : WiFirApp :=
  wiFirShowFailure (wiFirStopAckListener (app.call (.verdict source))) .cross (ascii "Join failed")
    (ascii "Server rejected") (ascii "the credentials") (ascii "Retry")

def wiFirOnAckTimeout (source : ℕ) (app : WiFirApp) : WiFirApp :=
  wiFirShowFailure (wiFirStopAckListener (app.call (.verdict source))) .question (ascii "No reply")
    (ascii "Credentials sent,") (ascii "server is silent") (ascii "Resend")

/-! ## Scene -/

def wiFirSceneTransmitOnEnter (env : Env) (app : WiFirApp) : WiFirApp :=
  wiFirStartTx env { app with statusCallback := true }

def wiFirSceneTransmitOnExit (env : Env) (app : WiFirApp) : WiFirApp :=
  let app := wiFirStopAckListener (wiFirStopTx env app)
  { app with dismissTicks := 0 }.call
    (.exited app.radio.txThread app.radio.irWorker app.radio.ackTimer)

/-! ## What stopping leaves -/

section Stopping
variable {env : Env} {app : WiFirApp}

theorem stopAckListener_eq (app : WiFirApp) : wiFirStopAckListener app =
    { app with
      radio := { app.radio with
        irWorker := none
        ackTimer := none
        receiving := app.radio.receiving.filter (fun n => some n ≠ app.radio.irWorker)
        armed := app.radio.armed.filter (fun n => some n ≠ app.radio.ackTimer) } } := by
  rcases app with ⟨⟩
  rename_i r
  rcases r with ⟨worker, timer⟩
  cases worker <;> cases timer <;> simp [wiFirStopAckListener, stopTimer, stopWorker]

theorem stopTx_of_none (h : app.radio.txThread = none) : wiFirStopTx env app = app := by
  rw [wiFirStopTx, h]

/-- Joining changes neither the listener nor what was called before. -/
theorem stopTx_keeps (env : Env) (app : WiFirApp) :
    (wiFirStopTx env app).sceneStack = app.sceneStack ∧
      ∃ r : Radio, (wiFirStopTx env app).radio = { r with
        txThread := none
        irWorker := app.radio.irWorker
        ackTimer := app.radio.ackTimer
        receiving := app.radio.receiving
        armed := app.radio.armed
        listenerCount := app.radio.listenerCount
        calls := app.radio.calls } := by
  cases ht : app.radio.txThread with
  | none =>
    rw [stopTx_of_none ht]
    refine ⟨rfl, app.radio, ?_⟩
    rw [← ht]
  | some t =>
    have hjoin : wiFirStopTx env app =
        let joined := joinTx env t { app with radio := { app.radio with txCancel := true } }
        { joined with radio := { joined.radio with txThread := none } } := by
      rw [wiFirStopTx, ht]
    rw [hjoin]
    rcases t with ⟨number, protocol, phase⟩
    cases phase with
    | sending =>
      rcases env with ⟨late, redraw, wifiStr, writes, removes, names⟩
      rcases redraw with _ | ⟨sent, total⟩ <;> exact ⟨rfl, _, rfl⟩
    | _ => exact ⟨rfl, _, rfl⟩

theorem stopTx_returned (env : Env) (app : WiFirApp) {t : TxThread}
    (ht : app.radio.txThread = some t) (hp : t.phase = .returned) :
    wiFirStopTx env app =
      { app with radio := { app.radio with txCancel := true, txThread := none } } := by
  rw [wiFirStopTx, ht]
  simp only [joinTx, hp]

end Stopping
end InfraFi.Flipper.Gui
