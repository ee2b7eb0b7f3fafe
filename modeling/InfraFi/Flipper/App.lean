import InfraFi.Flipper.AckDecode
import InfraFi.Flipper.Encode
import InfraFi.Flipper.Nfc
import InfraFi.Flipper.Storage

/-! # The Flipper application

One main thread handles custom events in the order they were posted. The TX
worker, the IR worker, the ACK timer and the NFC poller run beside it. Icons
of menu items, texts of dialogs and headers are only drawn and left out.
-/
namespace InfraFi.Flipper.Gui
open Base Protocol

inductive WiFirScene where
  | mainMenu
  | editSsid
  | editPassword
  | editSecurity
  | confirm
  | transmit
  | scanNfc
  | saved
  | about
  | settings
deriving DecidableEq

inductive WiFirCustomEvent where
  | mainMenuCredentials
  | mainMenuScanNfc
  | mainMenuSaved
  | mainMenuAbout
  | textInputDone
  | securityDone
  | confirmSend
  | confirmBack
  | transmitDone
  | transmitFail
  | nfcWifiFound
  | nfcNotWifi
  | nfcError
  | savedSelected
  | confirmDelete
  | deleteConfirmed
  | deleteCancelled
  | mainMenuSettings
  | ackSuccess
  | ackFail
  | ackTimeout
  | ackDismiss
  | txFinished
  | statusLeft
  | statusRight
  | statusOk
deriving DecidableEq

/-- The verdicts of an ACK listener. -/
def WiFirCustomEvent.isAck : WiFirCustomEvent → Bool
  | .ackSuccess | .ackFail | .ackTimeout => true
  | _ => false

inductive WiFirView where
  | menu
  | list
  | confirm
  | status
  | textInput
  | variableItemList
  | dialogEx
deriving DecidableEq

inductive InputKey where
  | left
  | right
  | ok
deriving DecidableEq

/-! ## Views -/

inductive Icon where
  | server
  | menuNfc
deriving DecidableEq

inductive WfrStatusMode where
  | none
  | transmit
  | waiting
  | connected
  | result
  | nfcScan
  | about
deriving DecidableEq

inductive WfrStatusBadge where
  | check
  | cross
  | question
deriving DecidableEq

/-- The frame counter of the animation is left out. -/
structure WfrStatusViewModel where
  mode : WfrStatusMode
  sent : UInt16
  total : UInt16
  proto : CString 7
  timeoutSec : ℕ
  subject : Icon
  badge : WfrStatusBadge
  title : CString 23
  line1 : CString 31
  line2 : CString 31
  btnLeft : Option Bytes
  btnRight : Option Bytes
deriving DecidableEq

namespace WfrStatusViewModel

/-- The model of a view that was only allocated. -/
def blank : WfrStatusViewModel :=
  ⟨.none, 0, 0, .empty _, 0, .server, .check, .empty _, .empty _, .empty _, none, none⟩

def setTransmit (m : WfrStatusViewModel) (sent total : UInt16) (proto : Bytes) : WfrStatusViewModel :=
  { m with mode := .transmit, sent := sent, total := total, proto := .ofBytes _ proto }

def setWaiting (m : WfrStatusViewModel) (timeoutSec : ℕ) : WfrStatusViewModel :=
  { m with mode := .waiting, timeoutSec := timeoutSec }

def setConnected (m : WfrStatusViewModel) (ip : Bytes) : WfrStatusViewModel :=
  { m with mode := .connected, line1 := .ofBytes _ ip }

def setResult (m : WfrStatusViewModel) (subject : Icon) (badge : WfrStatusBadge)
    (title line1 line2 : Bytes) (btnLeft btnRight : Option Bytes) : WfrStatusViewModel :=
  { m with
    mode := .result
    subject := subject
    badge := badge
    title := .ofBytes _ title
    line1 := .ofBytes _ line1
    line2 := .ofBytes _ line2
    btnLeft := btnLeft
    btnRight := btnRight }

def setNfcScan (m : WfrStatusViewModel) : WfrStatusViewModel := { m with mode := .nfcScan }

def setAbout (m : WfrStatusViewModel) (version : Bytes) : WfrStatusViewModel :=
  { m with mode := .about, title := .ofBytes _ (ascii "v" ++ version) }

/-- Whether a key of the view reaches its callback. -/
def takesKeys (m : WfrStatusViewModel) : Bool := m.mode = .result ∨ m.mode = .connected

end WfrStatusViewModel

structure WfrConfirmViewModel where
  ssid : CString wfrSsidMaxLen
  security : UInt8
  hasPassword : Bool
  hidden : Bool
  showDelete : Bool
deriving DecidableEq

/-- The items that the variable item list holds. -/
inductive Items where
  | none
  | security
  | settings
deriving DecidableEq

/-! ## Threads and timers -/

/-- An event with the TX or the ACK listener that posted it, by number; 0 is the main thread. -/
structure Posted where
  event : WiFirCustomEvent
  source : ℕ
deriving DecidableEq

/-- An event of a TX or of an ACK listener. -/
def Posted.OfParty (e : Posted) : Prop := e.event = .txFinished ∨ e.event.isAck = true

instance (e : Posted) : Decidable e.OfParty := inferInstanceAs (Decidable (_ ∨ _))

/-- Where the TX worker is: inside `wfr_transmit_credentials`, behind it, past its look at
`tx_cancel` and about to post, or at its end. -/
inductive TxPhase where
  | sending
  | sent
  | posting
  | returned
deriving DecidableEq

structure TxThread where
  number : ℕ
  protocol : WfrIrProtocol
  phase : TxPhase
deriving DecidableEq

/-- What the statements look back on. -/
inductive Call where
  /-- A TX thread is started with these in `ir_worker` and `ack_timer`. -/
  | startTx (irWorker ackTimer : Option ℕ)
  /-- `wi_fir_start_ack_listener` is entered with these in `tx_thread`, `ir_worker`, `ack_timer`. -/
  | startAckListener (txThread : Option TxThread) (irWorker ackTimer : Option ℕ)
  /-- A TxFinished of one TX is handled when another was the last to be started. -/
  | txFinished (source latest : ℕ)
  /-- Credentials are saved behind a TX that put out these messages. -/
  | save (creds : WfrWifiCreds) (aired : List TxMessage)
  /-- An ACK event of a listener is handled. -/
  | verdict (listener : ℕ)
  /-- The exit handler leaves these in `tx_thread`, `ir_worker` and `ack_timer`. -/
  | exited (txThread : Option TxThread) (irWorker ackTimer : Option ℕ)
  | delete (filename : Bytes)
deriving DecidableEq

/-- What the transmit scene owns. A pointer holds the number of what it points to. -/
structure Radio where
  irWorker : Option ℕ
  ackTimer : Option ℕ
  ackDecoder : WfrAckDecoder
  ackResultText : CString 63
  txThread : Option TxThread
  txCreds : WfrWifiCreds
  txCancel : Bool
  txOk : Bool
  retryAllowed : Bool
  /-- The IR workers that receive. -/
  receiving : List ℕ
  /-- The timers that have not fired. -/
  armed : List ℕ
  /-- How many TX threads and ACK listeners were started. -/
  txCount : ℕ
  listenerCount : ℕ
  /-- What the last TX put on the air. -/
  aired : List TxMessage
  calls : List Call

structure WiFirApp where
  /-- The current scene first. -/
  sceneStack : List WiFirScene
  events : List Posted
  view : WiFirView
  list : List (CString wfrSsidMaxLen × Bool)
  savedState : ℕ
  confirm : WfrConfirmViewModel
  status : WfrStatusViewModel
  statusCallback : Bool
  textInputBuf : CString wfrPassMaxLen
  textMinimum : ℕ
  items : Items
  itemEnterCallback : Bool
  dialogCallback : Bool
  card : Card
  /-- Whether the NFC poller, if there is one, still polls. -/
  nfcPoller : Option Bool
  nfcCreds : WfrWifiCreds
  ssid : CString wfrSsidMaxLen
  password : CString wfrPassMaxLen
  securityType : UInt8
  hidden : Bool
  savedNetworks : List SavedNetwork
  selectedSavedFile : CString (wfrFilenameMax - 1)
  irProtocol : WfrIrProtocol
  ackEnabled : Bool
  dismissTicks : ℕ
  radio : Radio

/-- What the surroundings decide while the main thread handles an event. -/
structure Env where
  /-- What the progress callback answers a TX that is being joined. -/
  late : UInt16 → UInt16 → Bool
  /-- The last progress such a TX shows, if it shows any. -/
  redraw : Option (UInt16 × UInt16)
  wifiStr : Vector UInt8 (wfrMaxTotalPayload + 1)
  /-- Which operations on a file succeed. -/
  writes : ℕ → Bool
  removes : Bool
  /-- The names that the directory of saved networks gives. -/
  names : List Bytes

namespace WiFirApp

def scene (app : WiFirApp) : Option WiFirScene := app.sceneStack.head?

/-- `view_dispatcher_send_custom_event`. -/
def post (app : WiFirApp) (event : WiFirCustomEvent) (source : ℕ) : WiFirApp :=
  { app with events := app.events ++ [⟨event, source⟩] }

/-- Remembers a call. -/
def call (app : WiFirApp) (c : Call) : WiFirApp :=
  { app with radio := { app.radio with calls := app.radio.calls ++ [c] } }

end WiFirApp
end InfraFi.Flipper.Gui
