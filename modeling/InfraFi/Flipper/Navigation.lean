import InfraFi.Flipper.Scenes
import Mathlib.Data.List.Chain

/-! # Navigation and the working set

What the scenes do to the stack, to the credentials being worked on and to the
saved file they came from, without views, threads and queues. Every step of the
application is one of a few changes to these.
-/
namespace InfraFi.Flipper.Gui
open Base Protocol

/-- The part of the application that navigation and the working set need. -/
structure Desk where
  stack : List WiFirScene
  creds : WfrWifiCreds
  file : CString (wfrFilenameMax - 1)
  nfcCreds : WfrWifiCreds
  items : Items
  confirm : WfrConfirmViewModel
  /-- The names that `wfr_storage_delete` was called with. -/
  deleted : List Bytes

def Call.deleted? : Call → Option Bytes
  | .delete filename => some filename
  | _ => none

def WiFirApp.desk (app : WiFirApp) : Desk where
  stack := app.sceneStack
  creds := workingCreds app
  file := app.selectedSavedFile
  nfcCreds := app.nfcCreds
  items := app.items
  confirm := app.confirm
  deleted := app.radio.calls.filterMap Call.deleted?

namespace Desk

/-- What the confirm screen shows of the working set. -/
def shown (d : Desk) : WfrConfirmViewModel :=
  ⟨d.creds.ssid, d.creds.security, d.creds.password.bytes ≠ [], d.creds.hidden, d.file.bytes ≠ []⟩

def enter (d : Desk) : WiFirScene → Desk
  | .editSecurity => { d with items := .security }
  | .settings => { d with items := .settings }
  | .confirm => { d with confirm := d.shown }
  | _ => d

def leave (d : Desk) : WiFirScene → Desk
  | .editSecurity | .settings => { d with items := .none }
  | _ => d

def next (d : Desk) (s : WiFirScene) : Desk :=
  let d := match d.stack with
    | cur :: _ => d.leave cur
    | [] => d
  { d with stack := s :: d.stack }.enter s

def previous (d : Desk) : Desk :=
  match d.stack with
  | [] => d
  | [cur] => { d with stack := [] }.leave cur
  | cur :: prev :: rest => ({ d with stack := prev :: rest }.leave cur).enter prev

/-- Back to the main menu, if it is below. -/
def home (d : Desk) : Desk :=
  match d.stack with
  | [] => d
  | cur :: below =>
    match below.dropWhile (· ≠ .mainMenu) with
    | [] => d
    | found => ({ d with stack := found }.leave cur).enter .mainMenu

/-- The working set, the file it came from and the deletions are the same. -/
structure Keeps (d d' : Desk) : Prop where
  creds : d'.creds = d.creds
  file : d'.file = d.file
  nfcCreds : d'.nfcCreds = d.nfcCreds
  deleted : d'.deleted = d.deleted

variable {d : Desk}

theorem Keeps.trans {d' d'' : Desk} (h : d.Keeps d') (h' : d'.Keeps d'') : d.Keeps d'' :=
  ⟨h'.creds.trans h.creds, h'.file.trans h.file, h'.nfcCreds.trans h.nfcCreds,
    h'.deleted.trans h.deleted⟩

theorem keeps_enter (s : WiFirScene) : d.Keeps (d.enter s) := by
  cases s <;> exact ⟨rfl, rfl, rfl, rfl⟩

theorem keeps_leave (s : WiFirScene) : d.Keeps (d.leave s) := by
  cases s <;> exact ⟨rfl, rfl, rfl, rfl⟩

/-- Moving between scenes carries the working set along. -/
theorem keeps_next (s : WiFirScene) : d.Keeps (d.next s) := by
  unfold next
  split
  · rename_i cur below _
    have hpush : (d.leave cur).Keeps { d.leave cur with stack := s :: (d.leave cur).stack } :=
      ⟨rfl, rfl, rfl, rfl⟩
    exact ((keeps_leave cur).trans hpush).trans (keeps_enter s)
  · have hpush : d.Keeps { d with stack := s :: d.stack } := ⟨rfl, rfl, rfl, rfl⟩
    exact hpush.trans (keeps_enter s)

theorem keeps_previous : d.Keeps d.previous := by
  unfold previous
  split
  · exact ⟨rfl, rfl, rfl, rfl⟩
  · rename_i cur _
    have hpop : d.Keeps { d with stack := [] } := ⟨rfl, rfl, rfl, rfl⟩
    exact hpop.trans (keeps_leave cur)
  · rename_i cur prev rest _
    have hpop : d.Keeps { d with stack := prev :: rest } := ⟨rfl, rfl, rfl, rfl⟩
    exact (hpop.trans (keeps_leave cur)).trans (keeps_enter prev)

theorem keeps_home : d.Keeps d.home := by
  unfold home
  split
  · exact ⟨rfl, rfl, rfl, rfl⟩
  · rename_i cur below _
    split
    · exact ⟨rfl, rfl, rfl, rfl⟩
    · have hpop : d.Keeps { d with stack := below.dropWhile (· ≠ .mainMenu) } := ⟨rfl, rfl, rfl, rfl⟩
      exact (hpop.trans (keeps_leave cur)).trans (keeps_enter .mainMenu)

end Desk

/-! ## The scene manager on the desk -/

section SceneManager
variable (env : Env) (app : WiFirApp)

theorem desk_stopAckListener : (wiFirStopAckListener app).desk = app.desk := by
  rw [stopAckListener_eq]
  rfl

theorem desk_stopTx : (wiFirStopTx env app).desk = app.desk := by
  cases ht : app.radio.txThread with
  | none => rw [stopTx_of_none ht]
  | some t =>
    rw [wiFirStopTx, ht]
    rcases t with ⟨number, protocol, phase⟩
    cases phase with
    | sending =>
      rcases env with ⟨late, redraw, wifiStr, writes, removes, names⟩
      rcases redraw with _ | ⟨sent, total⟩ <;> rfl
    | _ => rfl

theorem desk_call {c : Call} (hc : c.deleted? = none) : (app.call c).desk = app.desk := by
  simp [WiFirApp.desk, WiFirApp.call, workingCreds, hc]

theorem desk_startTx : (wiFirStartTx env app).desk = app.desk := by
  have hstop := (desk_stopTx env (wiFirStopAckListener app)).trans (desk_stopAckListener app)
  rw [← hstop]
  simp [wiFirStartTx, startThread, WiFirApp.desk, workingCreds, Call.deleted?]

theorem desk_enter (s : WiFirScene) : (sceneOnEnter env app s).desk = app.desk.enter s := by
  cases s with
  | transmit => exact desk_startTx env { app with statusCallback := true }
  | _ => rfl

theorem desk_leave (s : WiFirScene) : (sceneOnExit env app s).desk = app.desk.leave s := by
  cases s with
  | transmit =>
    have hstop := (desk_stopAckListener (wiFirStopTx env app)).trans (desk_stopTx env app)
    change (WiFirApp.call _ _).desk = app.desk
    rw [desk_call _ rfl, ← hstop]
    rfl
  | _ => rfl

theorem desk_next (s : WiFirScene) : (sceneManagerNextScene env app s).desk = app.desk.next s := by
  have hdesk : app.desk.stack = app.sceneStack := rfl
  cases hstack : app.sceneStack with
  | nil =>
    simp only [sceneManagerNextScene, Desk.next, hdesk, hstack, desk_enter]
    rfl
  | cons cur below =>
    simp only [sceneManagerNextScene, Desk.next, hdesk, hstack, desk_enter, ← desk_leave env]
    rfl

theorem desk_previous : (sceneManagerPreviousScene env app).desk = app.desk.previous := by
  have hdesk : app.desk.stack = app.sceneStack := rfl
  rcases hstack : app.sceneStack with _ | ⟨cur, _ | ⟨prev, rest⟩⟩
  · simp only [sceneManagerPreviousScene, Desk.previous, hdesk, hstack]
  · simp only [sceneManagerPreviousScene, Desk.previous, hdesk, hstack, desk_leave]
    rfl
  · simp only [sceneManagerPreviousScene, Desk.previous, hdesk, hstack, desk_enter, desk_leave]
    rfl

theorem desk_dismiss : (wiFirDismiss env app).desk = app.desk.home := by
  have hdesk : app.desk.stack = app.sceneStack := rfl
  cases hstack : app.sceneStack with
  | nil => simp only [wiFirDismiss, sceneManagerSearchAndSwitch, Desk.home, hdesk, hstack]
  | cons cur below =>
    simp only [wiFirDismiss, sceneManagerSearchAndSwitch, Desk.home, hdesk, hstack]
    generalize below.dropWhile (· ≠ .mainMenu) = found
    cases found with
    | nil => rfl
    | cons _ _ =>
      simp only [desk_enter, desk_leave]
      rfl

end SceneManager

/-! ## What a step changes -/

/-- The scenes that are pushed on a scene. -/
def successors : WiFirScene → List WiFirScene
  | .mainMenu => [.editSsid, .scanNfc, .saved, .settings, .about]
  | .editSsid => [.editPassword]
  | .editPassword => [.editSecurity]
  | .editSecurity | .scanNfc | .saved => [.confirm]
  | .confirm => [.transmit]
  | .transmit | .about | .settings => []

/-- The event whose turn it is. -/
def WiFirApp.turn (app : WiFirApp) : Option WiFirCustomEvent := app.events.head?.map Posted.event

/-- A saved file and the credentials in it. -/
structure Origin where
  file : CString (wfrFilenameMax - 1)
  creds : WfrWifiCreds

/-- What the selected entry of the list of saved networks is loaded as. -/
def WiFirApp.selected (app : WiFirApp) : Option Origin :=
  match app.savedNetworks[app.savedState]? with
  | none => none
  | some network =>
    let loaded := wfrStorageLoad app.card (filePath network.filename)
    if loaded.1 then some ⟨.ofBytes _ network.filename, loaded.2⟩ else none

/-- Whether the main thread handles a custom event. -/
def Input.isCustom : Input → Bool
  | .custom _ => true
  | _ => false

def Input.isItemChange : Input → Bool
  | .securityChange _ | .hiddenChange _ => true
  | _ => false

/-- What a step comes to for the desk. -/
inductive Change (app : WiFirApp) : Input → Desk → Prop
  | stays {i : Input} (hi : i.isItemChange = false) : Change app i app.desk
  | goes {env : Env} {cur next : WiFirScene} (hcur : app.scene = some cur)
      (hnext : next ∈ successors cur) (hne : next ≠ .confirm) :
      Change app (.custom env) (app.desk.next next)
  | ssid {env : Env} (hcur : app.scene = some .editSsid) (hturn : app.turn = some .textInputDone)
      (text : CString wfrSsidMaxLen) :
      Change app (.custom env)
        ({ app.desk with creds := { app.desk.creds with ssid := text } }.next .editPassword)
  | password {env : Env} (hcur : app.scene = some .editPassword)
      (hturn : app.turn = some .textInputDone) (text : CString wfrPassMaxLen) :
      Change app (.custom env)
        ({ app.desk with creds := { app.desk.creds with password := text } }.next .editSecurity)
  | entered {env : Env} (hcur : app.scene = some .editSecurity) :
      Change app (.custom env) ({ app.desk with file := .empty _ }.next .confirm)
  | scanned {env : Env} (hcur : app.scene = some .scanNfc) (hturn : app.turn = some .nfcWifiFound) :
      Change app (.custom env)
        ({ app.desk with creds := app.desk.nfcCreds, file := .empty _ }.next .confirm)
  | loaded {env : Env} {o : Origin} (hcur : app.scene = some .saved)
      (hturn : app.turn = some .savedSelected) (hload : app.selected = some o) :
      Change app (.custom env) ({ app.desk with creds := o.creds, file := o.file }.next .confirm)
  | previous {i : Input} (hi : i.isItemChange = false) (hcur : app.scene ≠ some .transmit) :
      Change app i app.desk.previous
  | deletes {env : Env} (hcur : app.scene = some .confirm) (hturn : app.turn = some .deleteConfirmed) :
      Change app (.custom env) (Desk.previous { app.desk with
        file := .empty _
        deleted := app.desk.deleted ++ [app.desk.file.bytes] })
  | home {i : Input} (hi : i.isItemChange = false) : Change app i app.desk.home
  | security (index : Fin 4) (hitems : app.desk.items = .security) :
      Change app (.securityChange index)
        { app.desk with creds := { app.desk.creds with security := UInt8.ofNat index } }
  | hidden (value : Bool) (hitems : app.desk.items = .security) :
      Change app (.hiddenChange value)
        { app.desk with creds := { app.desk.creds with hidden := value } }
  | scans {fuel : ℕ} {tag : Nfc.TagImage} {found : Bool} {creds : WfrWifiCreds}
      (hread : Nfc.wfrNfcParseWifiTag fuel tag app.nfcCreds = .ok (found, creds)) :
      Change app (.nfcRead fuel tag) { app.desk with nfcCreds := creds }

section Steps
variable {env : Env} {app app' : WiFirApp} {i : Input}

theorem Change.same (hi : i.isItemChange = false) (h : app'.desk = app.desk) :
    Change app i app'.desk := by
  rw [h]
  exact .stays hi

/-- The transmit scene leaves the desk alone, unless it is left. -/
theorem desk_transmitOnEvent (env : Env) (app : WiFirApp) (source : ℕ) (event : WiFirCustomEvent) :
    (wiFirSceneTransmitOnEvent env app source event).desk = app.desk ∨
      (wiFirSceneTransmitOnEvent env app source event).desk = app.desk.home := by
  cases event with
  | txFinished =>
    refine .inl ?_
    have hstop := (desk_stopTx env (app.call (.txFinished source app.radio.txCount))).trans
      (desk_call _ rfl)
    simp only [wiFirSceneTransmitOnEvent, wiFirOnTxFinished]
    rw [← hstop]
    generalize wiFirStopTx env (app.call (.txFinished source app.radio.txCount)) = stopped
    split
    · rfl
    · split <;> simp [wiFirStartAckListener, WiFirApp.call, WiFirApp.desk, workingCreds, Call.deleted?]
  | ackSuccess | ackFail | ackTimeout =>
    refine .inl ?_
    have hstop := (desk_stopAckListener (app.call (.verdict source))).trans (desk_call _ rfl)
    rw [← hstop]
    rfl
  | statusLeft | statusOk => exact .inr (desk_dismiss env app)
  | statusRight =>
    refine .inl ?_
    simp only [wiFirSceneTransmitOnEvent]
    split
    · exact desk_startTx env app
    · rfl
  | _ => exact .inl rfl

/-- The event `e` is handled behind its removal from the queue. -/
theorem change_custom {e : Posted} {rest : List Posted} (he : app.events = e :: rest) :
    Change app (.custom env) (handleCustom env { app with events := rest } e).desk := by
  have hturn : app.turn = some e.event := by
    rw [WiFirApp.turn, he]
    rfl
  have hpopped : WiFirApp.scene { app with events := rest } = app.scene := rfl
  rcases e with ⟨event, source⟩
  rw [handleCustom, hpopped]
  split
  · rename_i hscene
    cases event with
    | mainMenuCredentials | mainMenuScanNfc | mainMenuSaved | mainMenuSettings | mainMenuAbout =>
      rw [wiFirSceneMainMenuOnEvent, desk_next]
      exact .goes hscene (by decide) (by decide)
    | _ => exact .same rfl rfl
  · rename_i hscene
    cases event with
    | textInputDone =>
      rw [wiFirSceneEditSsidOnEvent, desk_next]
      exact .ssid hscene hturn _
    | _ => exact .same rfl rfl
  · rename_i hscene
    cases event with
    | textInputDone =>
      rw [wiFirSceneEditPasswordOnEvent, desk_next]
      exact .password hscene hturn _
    | _ => exact .same rfl rfl
  · rename_i hscene
    cases event with
    | securityDone =>
      rw [wiFirSceneEditSecurityOnEvent, desk_next]
      exact .entered hscene
    | _ => exact .same rfl rfl
  · rename_i hscene
    have hleft : app.scene ≠ some .transmit := by
      rw [hscene]
      decide
    cases event with
    | confirmSend =>
      rw [wiFirSceneConfirmOnEvent, desk_next]
      exact .goes hscene (by decide) (by decide)
    | confirmBack =>
      rw [wiFirSceneConfirmOnEvent, desk_previous]
      exact .previous rfl hleft
    | confirmDelete =>
      rw [wiFirSceneConfirmOnEvent]
      split <;> exact .same rfl rfl
    | deleteConfirmed =>
      rw [wiFirSceneConfirmOnEvent, desk_previous]
      have hdesk := @Change.deletes app env hscene hturn
      simpa [WiFirApp.desk, WiFirApp.call, workingCreds, Call.deleted?] using hdesk
    | _ => exact .same rfl rfl
  · rcases desk_transmitOnEvent env { app with events := rest } source event with h | h
    · exact .same rfl h
    · rw [h]
      exact .home rfl
  · rename_i hscene
    cases event with
    | nfcWifiFound =>
      rw [wiFirSceneScanNfcOnEvent, desk_next]
      exact .scanned hscene hturn
    | _ => exact .same rfl rfl
  · rename_i hscene
    cases event with
    | savedSelected =>
      have hselected : app.selected = WiFirApp.selected { app with events := rest } := rfl
      simp only [wiFirSceneSavedOnEvent]
      split
      · exact .same rfl rfl
      · rename_i network hnetwork
        split
        · rename_i hload
          have hloaded : app.selected = some ⟨.ofBytes _ network.filename,
              (wfrStorageLoad app.card (filePath network.filename)).2⟩ := by
            rw [hselected, WiFirApp.selected, hnetwork]
            exact if_pos hload
          rw [desk_next]
          exact .loaded hscene hturn hloaded
        · exact .same rfl rfl
    | _ => exact .same rfl rfl
  all_goals exact .same rfl rfl

theorem change_tick : Change app (.tick env) (handleTick env app).desk := by
  rw [handleTick]
  split
  · split
    · exact .same rfl rfl
    · split
      · rw [desk_dismiss]
        exact .home rfl
      · exact .same rfl rfl
  · split
    · exact .same rfl rfl
    · split <;> exact .same rfl rfl
  · exact .same rfl rfl

theorem change_back : Change app (.back env) (handleBack env app).desk := by
  rw [handleBack]
  split
  · rw [desk_dismiss]
    exact .home rfl
  · rename_i hscene
    rw [desk_previous]
    exact .previous rfl hscene

/-- Every step is one of the changes. -/
theorem change_of_step (hstep : step app i = some app') : Change app i app'.desk := by
  rw [step] at hstep
  split at hstep
  · cases hstep
  cases i with
  | custom env =>
    simp only [perform] at hstep
    split at hstep
    · rename_i e rest he
      cases hstep
      exact change_custom he
    · cases hstep
  | back env =>
    cases hstep
    exact change_back
  | tick env =>
    cases hstep
    exact change_tick
  | menuOk _ | dialogKey _ =>
    simp only [perform, Option.ite_none_right_eq_some, Option.map_eq_some_iff] at hstep
    obtain ⟨-, event, -, rfl⟩ := hstep
    exact .same rfl rfl
  | listOk _ | confirmKey _ | statusKey _ | textDone _ | itemOk | protocolChange _ | ackChange _
  | signal _ _ | timeout _ =>
    simp only [perform, Option.ite_none_right_eq_some, Option.some.injEq] at hstep
    obtain ⟨-, rfl⟩ := hstep
    exact .same rfl rfl
  | securityChange index =>
    simp only [perform, Option.ite_none_right_eq_some, Option.some.injEq] at hstep
    obtain ⟨⟨-, hitems⟩, rfl⟩ := hstep
    exact .security index hitems
  | hiddenChange value =>
    simp only [perform, Option.ite_none_right_eq_some, Option.some.injEq] at hstep
    obtain ⟨⟨-, hitems⟩, rfl⟩ := hstep
    exact .hidden value hitems
  | txProgress _ _ | txDone _ | txCheck | txPost =>
    rw [perform] at hstep
    obtain ⟨t, -, -, rfl⟩ := txStep_eq hstep
    exact .same rfl rfl
  | nfcRead fuel tag =>
    simp only [perform] at hstep
    split at hstep
    · split at hstep
      · rename_i found creds hread
        cases hstep
        exact .scans hread
      · cases hstep
    · cases hstep

end Steps
end InfraFi.Flipper.Gui
