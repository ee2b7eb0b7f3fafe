import InfraFi.Flipper.Scenes

/-! # Relations that moving between scenes keeps

A relation that holds between the application before and after a scene is
entered or left also holds across the scene manager and the handlers.
-/
namespace InfraFi.Flipper.Gui
open Base Protocol

/-- Entering and leaving scenes keeps the relation, and so does what is shown and the working set. -/
structure Carried (env : Env) (R : WiFirApp → WiFirApp → Prop) : Prop where
  refl (app : WiFirApp) : R app app
  trans {app app' app'' : WiFirApp} (h : R app app') (h' : R app' app'') : R app app''
  enter (app : WiFirApp) (s : WiFirScene) : R app (sceneOnEnter env app s)
  exit (app : WiFirApp) (s : WiFirScene) : R app (sceneOnExit env app s)
  stack (app : WiFirApp) (stack : List WiFirScene) : R app { app with sceneStack := stack }
  edit (app : WiFirApp) (ssid : CString wfrSsidMaxLen) (password : CString wfrPassMaxLen)
    (securityType : UInt8) (hidden : Bool) (file : CString (wfrFilenameMax - 1)) :
    R app { app with
      ssid := ssid
      password := password
      securityType := securityType
      hidden := hidden
      selectedSavedFile := file }
  draw (app : WiFirApp) (view : WiFirView) (status : WfrStatusViewModel) (dialogCallback : Bool)
    (dismissTicks : ℕ) (nfcPoller : Option Bool) :
    R app { app with
      view := view
      status := status
      dialogCallback := dialogCallback
      dismissTicks := dismissTicks
      nfcPoller := nfcPoller }

namespace Carried
variable {env : Env} {R : WiFirApp → WiFirApp → Prop}

theorem next (h : Carried env R) (app : WiFirApp) (s : WiFirScene) :
    R app (sceneManagerNextScene env app s) := by
  unfold sceneManagerNextScene
  refine h.trans ?_ (h.enter _ s)
  split
  · rename_i cur _ _
    exact h.trans (h.exit app cur) (h.stack _ _)
  · exact h.stack _ _

/-- From one scene to one below it. -/
theorem below (h : Carried env R) (app : WiFirApp) (cur s : WiFirScene) (stack : List WiFirScene) :
    R app (sceneOnEnter env (sceneOnExit env { app with sceneStack := stack } cur) s) :=
  h.trans (h.trans (h.stack app stack) (h.exit _ cur)) (h.enter _ s)

theorem previous (h : Carried env R) (app : WiFirApp) : R app (sceneManagerPreviousScene env app) := by
  unfold sceneManagerPreviousScene
  split
  · exact h.refl app
  · exact h.trans (h.stack app []) (h.exit _ _)
  · exact h.below app _ _ _

theorem dismiss (h : Carried env R) (app : WiFirApp) : R app (wiFirDismiss env app) := by
  rcases searchAndSwitch_cases env app .mainMenu with hsame | ⟨cur, below, found, -, -, hgo⟩
  · rw [wiFirDismiss, hsame]
    exact h.refl app
  · rw [wiFirDismiss, hgo]
    exact h.below app _ _ _

theorem tick (h : Carried env R) (app : WiFirApp) : R app (handleTick env app) := by
  have hticks (n : ℕ) : R app { app with dismissTicks := n } := h.draw app _ _ _ n _
  rw [handleTick]
  split
  · split
    · exact h.refl app
    · split
      · exact h.trans (hticks _) (h.dismiss _)
      · exact hticks _
  · split
    · exact h.refl app
    · split
      · exact h.draw app _ _ _ _ _
      · exact hticks _
  · exact h.refl app

theorem back (h : Carried env R) (app : WiFirApp) : R app (handleBack env app) := by
  rw [handleBack]
  split
  · exact h.dismiss app
  · exact h.previous app

theorem confirmOnEvent (h : Carried env R) (app : WiFirApp) {event : WiFirCustomEvent}
    (hne : event ≠ .deleteConfirmed) : R app (wiFirSceneConfirmOnEvent env app event) := by
  cases event with
  | deleteConfirmed => exact absurd rfl hne
  | confirmSend => exact h.next app .transmit
  | confirmBack => exact h.previous app
  | confirmDelete =>
    rw [wiFirSceneConfirmOnEvent]
    split
    · exact h.draw app _ _ _ _ _
    · exact h.refl app
  | deleteCancelled => exact h.draw app _ _ _ _ _
  | _ => exact h.refl app

/-- Neither in the confirm nor in the transmit scene. -/
theorem elsewhere (h : Carried env R) (app : WiFirApp) (e : Posted)
    (hconfirm : app.scene ≠ some .confirm) (htransmit : app.scene ≠ some .transmit) :
    R app (handleCustom env app e) := by
  rw [handleCustom]
  split
  · cases e.event with
    | mainMenuCredentials | mainMenuScanNfc | mainMenuSaved | mainMenuSettings | mainMenuAbout =>
      rw [wiFirSceneMainMenuOnEvent]
      exact h.next app _
    | _ => exact h.refl app
  · cases e.event with
    | textInputDone =>
      rw [wiFirSceneEditSsidOnEvent]
      exact h.trans (h.edit app _ _ _ _ _) (h.next _ _)
    | _ => exact h.refl app
  · cases e.event with
    | textInputDone =>
      rw [wiFirSceneEditPasswordOnEvent]
      exact h.trans (h.edit app _ _ _ _ _) (h.next _ _)
    | _ => exact h.refl app
  · cases e.event with
    | securityDone =>
      rw [wiFirSceneEditSecurityOnEvent]
      exact h.trans (h.edit app _ _ _ _ _) (h.next _ _)
    | _ => exact h.refl app
  · exact absurd ‹_› hconfirm
  · exact absurd ‹_› htransmit
  · cases e.event with
    | nfcWifiFound =>
      rw [wiFirSceneScanNfcOnEvent]
      exact h.trans (h.edit app _ _ _ _ _) (h.next _ _)
    | nfcNotWifi | nfcError =>
      rw [wiFirSceneScanNfcOnEvent]
      exact h.draw app _ _ _ _ _
    | _ => exact h.refl app
  · cases e.event with
    | savedSelected =>
      simp only [wiFirSceneSavedOnEvent]
      split
      · exact h.refl app
      · split
        · exact h.trans (h.edit app _ _ _ _ _) (h.next _ _)
        · exact h.refl app
    | _ => exact h.refl app
  all_goals exact h.refl app

end Carried
end InfraFi.Flipper.Gui
