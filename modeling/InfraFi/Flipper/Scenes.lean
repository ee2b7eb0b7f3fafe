import InfraFi.Flipper.Transmit

/-! # Scenes and the main loop

The scene manager keeps a stack of scenes. An input is anything that one of
the parties does next: the main thread handles an event, the user presses a
key, a thread or a timer goes one step further.
-/
namespace InfraFi.Flipper.Gui
open Base Protocol

def nfcErrorTicks : ℕ := 20
def infrafiVersion : Bytes := ascii "2.0.0"

/-! ## Entering and leaving scenes -/

def wiFirNfcStop (app : WiFirApp) : WiFirApp := { app with nfcPoller := none }

def wiFirNfcStart (app : WiFirApp) : WiFirApp :=
  { wiFirNfcStop app with
    dismissTicks := 0
    status := app.status.setNfcScan
    nfcPoller := some true }

def wiFirNfcShowError (app : WiFirApp) (title line1 line2 : Bytes) : WiFirApp :=
  { wiFirNfcStop app with
    status := app.status.setResult .menuNfc .cross title line1 line2 none none
    dismissTicks := nfcErrorTicks }

def sceneOnEnter (env : Env) (app : WiFirApp) : WiFirScene → WiFirApp
  | .mainMenu => { app with view := .menu }
  | .editSsid =>
    { app with textInputBuf := .ofBytes _ app.ssid.bytes, textMinimum := 1, view := .textInput }
  | .editPassword =>
    { app with textInputBuf := .ofBytes _ app.password.bytes, textMinimum := 0, view := .textInput }
  | .editSecurity =>
    { app with items := .security, itemEnterCallback := true, view := .variableItemList }
  | .confirm =>
    { app with
      confirm := ⟨app.ssid, app.securityType, app.password.bytes ≠ [], app.hidden,
        app.selectedSavedFile.bytes ≠ []⟩
      view := .confirm }
  | .transmit => wiFirSceneTransmitOnEnter env app
  | .scanNfc => wiFirNfcStart { app with statusCallback := false, view := .status }
  | .saved =>
    let networks := wfrStorageList app.card env.names wfrSavedMax
    { app with
      savedNetworks := networks
      list := networks.map (fun n => (n.ssid, n.security ≠ wfrSecOpen))
      view := .list }
  | .about => { app with status := app.status.setAbout infrafiVersion, view := .status }
  | .settings => { app with items := .settings, view := .variableItemList }

def sceneOnExit (env : Env) (app : WiFirApp) : WiFirScene → WiFirApp
  | .mainMenu | .saved | .about => app
  | .editSsid | .editPassword => { app with textMinimum := 0 }
  | .editSecurity | .settings => { app with items := .none }
  | .confirm => { app with dialogCallback := false }
  | .transmit => wiFirSceneTransmitOnExit env app
  | .scanNfc => { wiFirNfcStop app with dismissTicks := 0 }

/-! ## The scene manager -/

def sceneManagerNextScene (env : Env) (app : WiFirApp) (next : WiFirScene) : WiFirApp :=
  let app := match app.sceneStack with
    | cur :: _ => sceneOnExit env app cur
    | [] => app
  sceneOnEnter env { app with sceneStack := next :: app.sceneStack } next

/-- Leaving the last scene ends the main loop. -/
def sceneManagerPreviousScene (env : Env) (app : WiFirApp) : WiFirApp :=
  match app.sceneStack with
  | [] => app
  | [cur] => sceneOnExit env { app with sceneStack := [] } cur
  | cur :: prev :: rest =>
    sceneOnEnter env (sceneOnExit env { app with sceneStack := prev :: rest } cur) prev

def sceneManagerSearchAndSwitch (env : Env) (app : WiFirApp) (target : WiFirScene) : WiFirApp :=
  match app.sceneStack with
  | [] => app
  | cur :: below =>
    match below.dropWhile (· ≠ target) with
    | [] => app
    | found => sceneOnEnter env (sceneOnExit env { app with sceneStack := found } cur) target

def wiFirDismiss (env : Env) (app : WiFirApp) : WiFirApp :=
  sceneManagerSearchAndSwitch env app .mainMenu

/-! ## Handling events -/

def wiFirSceneMainMenuOnEvent (env : Env) (app : WiFirApp) : WiFirCustomEvent → WiFirApp
  | .mainMenuCredentials => sceneManagerNextScene env app .editSsid
  | .mainMenuScanNfc => sceneManagerNextScene env app .scanNfc
  | .mainMenuSaved => sceneManagerNextScene env app .saved
  | .mainMenuSettings => sceneManagerNextScene env app .settings
  | .mainMenuAbout => sceneManagerNextScene env app .about
  | _ => app

def wiFirSceneEditSsidOnEvent (env : Env) (app : WiFirApp) : WiFirCustomEvent → WiFirApp
  | .textInputDone =>
    sceneManagerNextScene env { app with ssid := .ofBytes _ app.textInputBuf.bytes } .editPassword
  | _ => app

def wiFirSceneEditPasswordOnEvent (env : Env) (app : WiFirApp) : WiFirCustomEvent → WiFirApp
  | .textInputDone =>
    sceneManagerNextScene env { app with password := .ofBytes _ app.textInputBuf.bytes } .editSecurity
  | _ => app

def wiFirSceneEditSecurityOnEvent (env : Env) (app : WiFirApp) : WiFirCustomEvent → WiFirApp
  | .securityDone => sceneManagerNextScene env { app with selectedSavedFile := .empty _ } .confirm
  | _ => app

def wiFirSceneConfirmOnEvent (env : Env) (app : WiFirApp) : WiFirCustomEvent → WiFirApp
  | .confirmSend => sceneManagerNextScene env app .transmit
  | .confirmBack => sceneManagerPreviousScene env app
  | .confirmDelete =>
    if app.selectedSavedFile.bytes ≠ [] then { app with dialogCallback := true, view := .dialogEx }
    else app
  | .deleteConfirmed =>
    let removed := wfrStorageDelete env.removes app.card app.selectedSavedFile.bytes
    sceneManagerPreviousScene env
      { { app with card := removed.2 }.call (.delete app.selectedSavedFile.bytes) with
        selectedSavedFile := .empty _ }
  | .deleteCancelled => { app with view := .confirm }
  | _ => app

def wiFirSceneTransmitOnEvent (env : Env) (app : WiFirApp) (source : ℕ) : WiFirCustomEvent → WiFirApp
  | .txFinished => wiFirOnTxFinished env source app
  | .ackSuccess => wiFirOnAckSuccess source app
  | .ackFail => wiFirOnAckFail source app
  | .ackTimeout => wiFirOnAckTimeout source app
  | .statusLeft | .statusOk => wiFirDismiss env app
  | .statusRight => if app.radio.retryAllowed then wiFirStartTx env app else app
  | _ => app

def wiFirSceneScanNfcOnEvent (env : Env) (app : WiFirApp) : WiFirCustomEvent → WiFirApp
  | .nfcWifiFound =>
    sceneManagerNextScene env
      { app with
        ssid := app.nfcCreds.ssid
        password := app.nfcCreds.password
        securityType := app.nfcCreds.security
        hidden := app.nfcCreds.hidden
        selectedSavedFile := .empty _ } .confirm
  | .nfcNotWifi =>
    wiFirNfcShowError app (ascii "Not Wi-Fi") (ascii "No credentials") (ascii "on this tag")
  | .nfcError =>
    wiFirNfcShowError app (ascii "Read error") (ascii "Couldn't read tag") (ascii "Hold it still")
  | _ => app

def wiFirSceneSavedOnEvent (env : Env) (app : WiFirApp) : WiFirCustomEvent → WiFirApp
  | .savedSelected =>
    match app.savedNetworks[app.savedState]? with
    | none => app
    | some network =>
      let loaded := wfrStorageLoad app.card (filePath network.filename)
      if loaded.1 then
        sceneManagerNextScene env
          { app with
            ssid := loaded.2.ssid
            password := loaded.2.password
            securityType := loaded.2.security
            hidden := loaded.2.hidden
            selectedSavedFile := .ofBytes _ network.filename } .confirm
      else app
  | _ => app

/-- A custom event in the scene that is current when its turn comes. -/
def handleCustom (env : Env) (app : WiFirApp) (e : Posted) : WiFirApp :=
  match app.scene with
  | some .mainMenu => wiFirSceneMainMenuOnEvent env app e.event
  | some .editSsid => wiFirSceneEditSsidOnEvent env app e.event
  | some .editPassword => wiFirSceneEditPasswordOnEvent env app e.event
  | some .editSecurity => wiFirSceneEditSecurityOnEvent env app e.event
  | some .confirm => wiFirSceneConfirmOnEvent env app e.event
  | some .transmit => wiFirSceneTransmitOnEvent env app e.source e.event
  | some .scanNfc => wiFirSceneScanNfcOnEvent env app e.event
  | some .saved => wiFirSceneSavedOnEvent env app e.event
  | some .about | some .settings | none => app

def handleTick (env : Env) (app : WiFirApp) : WiFirApp :=
  let left := app.dismissTicks - 1
  match app.scene with
  | some .transmit =>
    if app.dismissTicks = 0 then app
    else if left = 0 then wiFirDismiss env { app with dismissTicks := left }
    else { app with dismissTicks := left }
  | some .scanNfc =>
    if app.dismissTicks = 0 then app
    else if left = 0 then wiFirNfcStart { app with dismissTicks := left }
    else { app with dismissTicks := left }
  | _ => app

/-- Scenes that do not consume Back are left for the scene below. -/
def handleBack (env : Env) (app : WiFirApp) : WiFirApp :=
  match app.scene with
  | some .transmit => wiFirDismiss env app
  | _ => sceneManagerPreviousScene env app

/-! ## Keys of the views -/

def menuEvent : ℕ → Option WiFirCustomEvent
  | 0 => some .mainMenuCredentials
  | 1 => some .mainMenuScanNfc
  | 2 => some .mainMenuSaved
  | 3 => some .mainMenuSettings
  | 4 => some .mainMenuAbout
  | _ => none

def confirmEvent (m : WfrConfirmViewModel) : InputKey → WiFirCustomEvent
  | .left => .confirmBack
  | .right => .confirmSend
  | .ok => if m.showDelete then .confirmDelete else .confirmSend

def statusEvent : InputKey → WiFirCustomEvent
  | .left => .statusLeft
  | .right => .statusRight
  | .ok => .statusOk

/-- The dialog has no button in the middle. -/
def dialogEvent : InputKey → Option WiFirCustomEvent
  | .left => some .deleteCancelled
  | .right => some .deleteConfirmed
  | .ok => none

/-! ## Inputs -/

inductive Input where
  /-- The main thread handles the oldest custom event. -/
  | custom (env : Env)
  | back (env : Env)
  | tick (env : Env)
  | menuOk (index : ℕ)
  | listOk (index : ℕ)
  | confirmKey (key : InputKey)
  | statusKey (key : InputKey)
  | dialogKey (key : InputKey)
  | textDone (text : Bytes)
  | itemOk
  | securityChange (index : Fin 4)
  | hiddenChange (value : Bool)
  | protocolChange (value : WfrIrProtocol)
  | ackChange (value : Bool)
  /-- The TX worker reports progress, ends its transmission, looks at `tx_cancel`, posts. -/
  | txProgress (sent total : UInt16)
  | txDone (wifiStr : Vector UInt8 (wfrMaxTotalPayload + 1))
  | txCheck
  | txPost
  | signal (worker : ℕ) (s : Reception)
  | timeout (timer : ℕ)
  | nfcRead (fuel : ℕ) (tag : Nfc.TagImage)

/-- The TX worker moves on from `before`. -/
def txStep (app : WiFirApp) (before : TxPhase) (go : TxThread → WiFirApp → WiFirApp) : Option WiFirApp :=
  match app.radio.txThread with
  | some t => if t.phase = before then some (go t app) else none
  | none => none

def setPhase (t : TxThread) (phase : TxPhase) (app : WiFirApp) : WiFirApp :=
  { app with radio := { app.radio with txThread := some { t with phase := phase } } }

/-- The end of `wfr_transmit_credentials` when `tx_cancel` did not cut it short. -/
def txDone (wifiStr : Vector UInt8 (wfrMaxTotalPayload + 1)) (t : TxThread) (app : WiFirApp) : WiFirApp :=
  let result := transmitted app.radio t (fun _ _ => !app.radio.txCancel) wifiStr
  setPhase t .sent { app with radio := { app.radio with aired := result.1, txOk := result.2 } }

/-- What an input does while the main loop runs, if it is possible. -/
def perform (app : WiFirApp) : Input → Option WiFirApp
  | .custom env =>
    match app.events with
    | e :: rest => some (handleCustom env { app with events := rest } e)
    | [] => none
  | .back env => some (handleBack env app)
  | .tick env => some (handleTick env app)
  | .menuOk index =>
    if app.view = .menu then (menuEvent index).map (fun event => app.post event 0) else none
  | .listOk index =>
    if app.view = .list ∧ index < app.list.length then
      some ({ app with savedState := index }.post .savedSelected 0)
    else none
  | .confirmKey key =>
    if app.view = .confirm then some (app.post (confirmEvent app.confirm key) 0) else none
  | .statusKey key =>
    if app.view = .status ∧ app.statusCallback ∧ app.status.takesKeys then
      some (app.post (statusEvent key) 0)
    else none
  | .dialogKey key =>
    if app.view = .dialogEx ∧ app.dialogCallback then
      (dialogEvent key).map (fun event => app.post event 0)
    else none
  | .textDone text =>
    if app.view = .textInput ∧ app.textMinimum ≤ text.length then
      some ({ app with textInputBuf := .ofBytes _ text }.post .textInputDone 0)
    else none
  | .itemOk =>
    if app.view = .variableItemList ∧ app.items ≠ .none ∧ app.itemEnterCallback then
      some (app.post .securityDone 0)
    else none
  | .securityChange index =>
    if app.view = .variableItemList ∧ app.items = .security then
      some { app with securityType := UInt8.ofNat index }
    else none
  | .hiddenChange value =>
    if app.view = .variableItemList ∧ app.items = .security then some { app with hidden := value }
    else none
  | .protocolChange value =>
    if app.view = .variableItemList ∧ app.items = .settings then some { app with irProtocol := value }
    else none
  | .ackChange value =>
    if app.view = .variableItemList ∧ app.items = .settings then some { app with ackEnabled := value }
    else none
  | .txProgress sent total => txStep app .sending (fun _ app => wiFirTxProgress app sent total)
  | .txDone wifiStr => txStep app .sending (txDone wifiStr)
  | .txCheck =>
    txStep app .sent (fun t app => setPhase t (if app.radio.txCancel then .returned else .posting) app)
  | .txPost =>
    txStep app .posting (fun t app => setPhase t .returned (app.post .txFinished t.number))
  | .signal worker s => if worker ∈ app.radio.receiving then some (wiFirIrRxCallback app worker s) else none
  | .timeout timer =>
    if timer ∈ app.radio.armed then
      some (wiFirAckTimeoutCallback
        { app with radio := { app.radio with armed := app.radio.armed.filter (· ≠ timer) } } timer)
    else none
  | .nfcRead fuel tag =>
    if app.nfcPoller = some true then
      match Nfc.wfrNfcParseWifiTag fuel tag app.nfcCreds with
      | .ok (found, creds) =>
        some ({ app with nfcCreds := creds, nfcPoller := some false }.post
          (if found then .nfcWifiFound else .nfcNotWifi) 0)
      | .error _ => none
    else none

def step (app : WiFirApp) (i : Input) : Option WiFirApp :=
  if app.sceneStack = [] then none else perform app i

/-- The application behind `wi_fir_alloc` and its first scene, with any saved networks and any
settings. -/
def launched (card : Card) (ackEnabled : Bool) (irProtocol : WfrIrProtocol) : WiFirApp where
  sceneStack := [.mainMenu]
  events := []
  view := .menu
  list := []
  savedState := 0
  confirm := ⟨.empty _, 0, false, false, false⟩
  status := .blank
  statusCallback := false
  textInputBuf := .empty _
  textMinimum := 0
  items := .none
  itemEnterCallback := false
  dialogCallback := false
  card := card
  nfcPoller := none
  nfcCreds := clearedCreds
  ssid := .empty _
  password := .empty _
  securityType := wfrSecWpa
  hidden := false
  savedNetworks := []
  selectedSavedFile := .empty _
  irProtocol := irProtocol
  ackEnabled := ackEnabled
  dismissTicks := 0
  radio :=
    { irWorker := none
      ackTimer := none
      ackDecoder := wfrAckDecodeInit ackTimeoutTicks
      ackResultText := .empty _
      txThread := none
      txCreds := clearedCreds
      txCancel := false
      txOk := false
      retryAllowed := false
      receiving := []
      armed := []
      txCount := 0
      listenerCount := 0
      aired := []
      calls := [] }

/-! ## What the handlers come to -/

section Handlers
variable (env : Env) {app app' : WiFirApp}

theorem sceneOnEnter_keeps (app : WiFirApp) {s : WiFirScene} (hs : s ≠ .transmit) :
    (sceneOnEnter env app s).radio = app.radio ∧
      (sceneOnEnter env app s).sceneStack = app.sceneStack ∧
      (sceneOnEnter env app s).events = app.events := by
  cases s with
  | transmit => exact absurd rfl hs
  | _ => exact ⟨rfl, rfl, rfl⟩

theorem sceneOnExit_keeps (app : WiFirApp) {s : WiFirScene} (hs : s ≠ .transmit) :
    (sceneOnExit env app s).radio = app.radio ∧
      (sceneOnExit env app s).sceneStack = app.sceneStack ∧
      (sceneOnExit env app s).events = app.events := by
  cases s with
  | transmit => exact absurd rfl hs
  | _ => exact ⟨rfl, rfl, rfl⟩

theorem searchAndSwitch_cases (app : WiFirApp) (target : WiFirScene) :
    sceneManagerSearchAndSwitch env app target = app ∨
      ∃ cur below found, app.sceneStack = cur :: below ∧ found.Sublist below ∧
        sceneManagerSearchAndSwitch env app target =
          sceneOnEnter env (sceneOnExit env { app with sceneStack := found } cur) target := by
  unfold sceneManagerSearchAndSwitch
  split
  · exact .inl rfl
  · rename_i cur below hstack
    split
    · exact .inl rfl
    · exact .inr ⟨cur, below, _, hstack, List.dropWhile_sublist _, rfl⟩

/-- What the handlers of the scenes without parties come to: they stay, with other data, or go on
to another such scene. -/
inductive Moves (app : WiFirApp) : WiFirApp → Prop
  | stays {app' : WiFirApp} (hr : app'.radio = app.radio) (hs : app'.sceneStack = app.sceneStack)
      (hev : app'.events = app.events) : Moves app app'
  | goes {app' : WiFirApp} (next : WiFirScene) (hne : next ≠ .transmit)
      (hr : app'.radio = app.radio) (hs : app'.sceneStack = app.sceneStack)
      (hev : app'.events = app.events) : Moves app (sceneManagerNextScene env app' next)

theorem mainMenu_moves (app : WiFirApp) (event : WiFirCustomEvent) :
    Moves env app (wiFirSceneMainMenuOnEvent env app event) := by
  cases event with
  | mainMenuCredentials => exact .goes .editSsid (by decide) rfl rfl rfl
  | mainMenuScanNfc => exact .goes .scanNfc (by decide) rfl rfl rfl
  | mainMenuSaved => exact .goes .saved (by decide) rfl rfl rfl
  | mainMenuSettings => exact .goes .settings (by decide) rfl rfl rfl
  | mainMenuAbout => exact .goes .about (by decide) rfl rfl rfl
  | _ => exact .stays rfl rfl rfl

theorem editors_move (app : WiFirApp) (event : WiFirCustomEvent) :
    Moves env app (wiFirSceneEditSsidOnEvent env app event) ∧
      Moves env app (wiFirSceneEditPasswordOnEvent env app event) ∧
      Moves env app (wiFirSceneEditSecurityOnEvent env app event) := by
  cases event with
  | textInputDone => exact ⟨.goes .editPassword (by decide) rfl rfl rfl,
      .goes .editSecurity (by decide) rfl rfl rfl, .stays rfl rfl rfl⟩
  | securityDone => exact ⟨.stays rfl rfl rfl, .stays rfl rfl rfl, .goes .confirm (by decide) rfl rfl rfl⟩
  | _ => exact ⟨.stays rfl rfl rfl, .stays rfl rfl rfl, .stays rfl rfl rfl⟩

theorem scanNfc_moves (app : WiFirApp) (event : WiFirCustomEvent) :
    Moves env app (wiFirSceneScanNfcOnEvent env app event) := by
  cases event with
  | nfcWifiFound => exact .goes .confirm (by decide) rfl rfl rfl
  | _ => exact .stays rfl rfl rfl

theorem saved_moves (app : WiFirApp) (event : WiFirCustomEvent) :
    Moves env app (wiFirSceneSavedOnEvent env app event) := by
  cases event with
  | savedSelected =>
    simp only [wiFirSceneSavedOnEvent]
    split
    · exact .stays rfl rfl rfl
    · split
      · exact .goes .confirm (by decide) rfl rfl rfl
      · exact .stays rfl rfl rfl
  | _ => exact .stays rfl rfl rfl

/-- What the keys of the views other than the status view post. -/
theorem key_quiet :
    (∀ i event, menuEvent i = some event →
        ¬ (Posted.OfParty ⟨event, 0⟩) ∧ event ≠ .statusRight ∧ event ≠ .confirmSend) ∧
      (∀ m key, ¬ (Posted.OfParty ⟨confirmEvent m key, 0⟩) ∧ confirmEvent m key ≠ .statusRight) ∧
      ∀ key event, dialogEvent key = some event →
        ¬ (Posted.OfParty ⟨event, 0⟩) ∧ event ≠ .statusRight ∧ event ≠ .confirmSend := by
  refine ⟨?_, ?_, ?_⟩
  · intro i event h
    rcases i with _ | _ | _ | _ | _ | i <;> cases h <;> decide
  · intro m key
    cases key with
    | ok =>
      rw [confirmEvent]
      split <;> decide
    | _ =>
      rw [confirmEvent]
      decide
  · intro key event h
    cases key <;> cases h <;> decide

theorem txStep_eq {before : TxPhase} {go : TxThread → WiFirApp → WiFirApp}
    (h : txStep app before go = some app') :
    ∃ t, app.radio.txThread = some t ∧ t.phase = before ∧ app' = go t app := by
  simp only [txStep] at h
  split at h
  · rename_i t ht
    split at h
    · rename_i hphase
      exact ⟨t, ht, hphase, (Option.some.inj h).symm⟩
    · cases h
  · cases h

/-- What a step comes to. The keys and the NFC poller post one event; the settings change only the
working set. -/
inductive Happens (app : WiFirApp) : Input → WiFirApp → Prop
  | custom (env : Env) {e : Posted} {rest : List Posted} (he : app.events = e :: rest) :
      Happens app (.custom env) (handleCustom env { app with events := rest } e)
  | back (env : Env) : Happens app (.back env) (handleBack env app)
  | tick (env : Env) : Happens app (.tick env) (handleTick env app)
  | posts {i : Input} {app' : WiFirApp} (f : Posted) (hr : app'.radio = app.radio)
      (hs : app'.sceneStack = app.sceneStack) (hm : app'.status = app.status)
      (hev : app'.events = app.events ++ [f]) (hparty : ¬ f.OfParty)
      (hkeys : f.event = .statusRight → app.status.takesKeys = true) (hv : app'.view = app.view)
      (hsend : f.event = .confirmSend → app.view = .confirm) : Happens app i app'
  | edits {i : Input} {app' : WiFirApp} (hr : app'.radio = app.radio)
      (hs : app'.sceneStack = app.sceneStack) (hm : app'.status = app.status)
      (hev : app'.events = app.events) (hv : app'.view = app.view) : Happens app i app'
  | txProgress (sent total : UInt16) {t : TxThread} (ht : app.radio.txThread = some t)
      (hphase : t.phase = .sending) : Happens app (.txProgress sent total) (wiFirTxProgress app sent total)
  | txDone (wifiStr : Vector UInt8 (wfrMaxTotalPayload + 1)) {t : TxThread}
      (ht : app.radio.txThread = some t) (hphase : t.phase = .sending) :
      Happens app (.txDone wifiStr) (txDone wifiStr t app)
  | txCheck {t : TxThread} (ht : app.radio.txThread = some t) (hphase : t.phase = .sent) :
      Happens app .txCheck (setPhase t (if app.radio.txCancel then .returned else .posting) app)
  | txPost {t : TxThread} (ht : app.radio.txThread = some t) (hphase : t.phase = .posting) :
      Happens app .txPost (setPhase t .returned (app.post .txFinished t.number))
  | signal {worker : ℕ} (hmem : worker ∈ app.radio.receiving) (s : Reception) :
      Happens app (.signal worker s) (wiFirIrRxCallback app worker s)
  | timeout {timer : ℕ} (hmem : timer ∈ app.radio.armed) :
      Happens app (.timeout timer) (wiFirAckTimeoutCallback
        { app with radio := { app.radio with armed := app.radio.armed.filter (· ≠ timer) } } timer)

theorem happens_of_step {i : Input} (hstep : step app i = some app') : Happens app i app' := by
  rw [step] at hstep
  split at hstep
  · cases hstep
  obtain ⟨hmenu, hconfirm, hdialog⟩ := key_quiet
  cases i with
  | custom env =>
    simp only [perform] at hstep
    split at hstep
    · rename_i e rest he
      cases hstep
      exact .custom env he
    · cases hstep
  | back env =>
    cases hstep
    exact .back env
  | tick env =>
    cases hstep
    exact .tick env
  | menuOk index =>
    simp only [perform, Option.ite_none_right_eq_some, Option.map_eq_some_iff] at hstep
    obtain ⟨-, event, hevent, rfl⟩ := hstep
    obtain ⟨hparty, hright, hsend⟩ := hmenu index event hevent
    exact .posts _ rfl rfl rfl rfl hparty (fun hr => absurd hr hright) rfl fun hs => absurd hs hsend
  | confirmKey key =>
    simp only [perform, Option.ite_none_right_eq_some, Option.some.injEq] at hstep
    obtain ⟨hview, rfl⟩ := hstep
    obtain ⟨hparty, hright⟩ := hconfirm app.confirm key
    exact .posts _ rfl rfl rfl rfl hparty (fun hr => absurd hr hright) rfl fun _ => hview
  | statusKey key =>
    simp only [perform, Option.ite_none_right_eq_some, Option.some.injEq] at hstep
    obtain ⟨⟨-, -, hkeys⟩, rfl⟩ := hstep
    have hparty : ¬ Posted.OfParty ⟨statusEvent key, 0⟩ := by cases key <;> decide
    exact .posts _ rfl rfl rfl rfl hparty (fun _ => hkeys) rfl fun hs => by cases key <;> cases hs
  | dialogKey key =>
    simp only [perform, Option.ite_none_right_eq_some, Option.map_eq_some_iff] at hstep
    obtain ⟨-, event, hevent, rfl⟩ := hstep
    obtain ⟨hparty, hright, hsend⟩ := hdialog key event hevent
    exact .posts _ rfl rfl rfl rfl hparty (fun hr => absurd hr hright) rfl fun hs => absurd hs hsend
  | listOk _ | textDone _ | itemOk =>
    simp only [perform, Option.ite_none_right_eq_some, Option.some.injEq] at hstep
    obtain ⟨-, rfl⟩ := hstep
    exact .posts _ rfl rfl rfl rfl (by decide) (fun hr => by cases hr) rfl fun hs => by cases hs
  | securityChange _ | hiddenChange _ | protocolChange _ | ackChange _ =>
    simp only [perform, Option.ite_none_right_eq_some, Option.some.injEq] at hstep
    obtain ⟨-, rfl⟩ := hstep
    exact .edits rfl rfl rfl rfl rfl
  | txProgress sent total =>
    rw [perform] at hstep
    obtain ⟨t, ht, hphase, rfl⟩ := txStep_eq hstep
    exact .txProgress sent total ht hphase
  | txDone wifiStr =>
    obtain ⟨t, ht, hphase, rfl⟩ := txStep_eq hstep
    exact .txDone wifiStr ht hphase
  | txCheck =>
    obtain ⟨t, ht, hphase, rfl⟩ := txStep_eq hstep
    exact .txCheck ht hphase
  | txPost =>
    rw [perform] at hstep
    obtain ⟨t, ht, hphase, rfl⟩ := txStep_eq hstep
    exact .txPost ht hphase
  | signal worker s =>
    simp only [perform, Option.ite_none_right_eq_some, Option.some.injEq] at hstep
    obtain ⟨hmem, rfl⟩ := hstep
    exact .signal hmem s
  | timeout timer =>
    simp only [perform, Option.ite_none_right_eq_some, Option.some.injEq] at hstep
    obtain ⟨hmem, rfl⟩ := hstep
    exact .timeout hmem
  | nfcRead fuel tag =>
    simp only [perform] at hstep
    split at hstep
    · split at hstep
      · rename_i found creds _
        cases hstep
        have hparty : ¬ Posted.OfParty ⟨if found then .nfcWifiFound else .nfcNotWifi, 0⟩ := by
          cases found <;> decide
        refine .posts _ rfl rfl rfl rfl hparty (fun hr => ?_) rfl fun hs => ?_
        · cases found <;> cases hr
        · cases found <;> cases hs
      · cases hstep
    · cases hstep

end Handlers
end InfraFi.Flipper.Gui
