import InfraFi.Flipper.Settings

/-! # What is sent is what was shown

The transmit scene is entered from the confirm scene only, and nothing in it
changes the working set. The thread sends a copy, which is also what is saved
when the TX is over.
-/
namespace InfraFi.Flipper.Gui
open Base Protocol

/-- The messages on the air and the result are those of a send of `tx_creds`, or nothing was sent. -/
def Sent (r : Radio) : Prop :=
  r.aired = [] ∧ r.txOk = false ∨
    ∃ t progress wifiStr, transmitted r t progress wifiStr = (r.aired, r.txOk)

/-- The same credentials stay on the air. -/
structure Ongoing (r r' : Radio) : Prop where
  creds : r'.txCreds = r.txCreds
  sent : Sent r → Sent r'

/-- What a step comes to for the copy of the credentials. -/
inductive Airs (app app' : WiFirApp) : Prop
  | starts (hcreds : app'.radio.txCreds = workingCreds app') (haired : app'.radio.aired = [])
      (hok : app'.radio.txOk = false) : Airs app app'
  | goesOn (h : Ongoing app.radio app'.radio)
      (hscene : app'.scene = some .transmit → app.scene = some .transmit) : Airs app app'

/-! ## Starting and stopping -/

section Stopping
variable {env : Env} {app app' : WiFirApp}

theorem Ongoing.refl (r : Radio) : Ongoing r r := ⟨rfl, id⟩

theorem Ongoing.trans {r r' r'' : Radio} (h : Ongoing r r') (h' : Ongoing r' r'') : Ongoing r r'' :=
  ⟨h'.creds.trans h.creds, h'.sent ∘ h.sent⟩

theorem ongoing_stopAckListener (app : WiFirApp) :
    Ongoing app.radio (wiFirStopAckListener app).radio := by
  rw [stopAckListener_eq]
  exact ⟨rfl, id⟩

/-- A worker that is joined finishes its send. -/
theorem ongoing_stopTx (env : Env) (app : WiFirApp) : Ongoing app.radio (wiFirStopTx env app).radio := by
  cases ht : app.radio.txThread with
  | none =>
    rw [stopTx_of_none ht]
    exact .refl _
  | some t =>
    rw [wiFirStopTx, ht]
    rcases t with ⟨number, protocol, phase⟩
    cases phase with
    | sending =>
      have hsent (redraw : Option (UInt16 × UInt16)) :
          Sent { app.radio with
            txCancel := true
            txThread := none
            aired := (transmitted app.radio ⟨number, protocol, .sending⟩ env.late env.wifiStr).1
            txOk := (transmitted app.radio ⟨number, protocol, .sending⟩ env.late env.wifiStr).2 } :=
        .inr ⟨⟨number, protocol, .sending⟩, env.late, env.wifiStr, rfl⟩
      rcases env with ⟨late, redraw, wifiStr, writes, removes, names⟩
      rcases redraw with _ | ⟨sent, total⟩
      · exact ⟨rfl, fun _ => hsent none⟩
      · exact ⟨rfl, fun _ => hsent none⟩
    | _ => exact ⟨rfl, id⟩

theorem ongoing_exit (env : Env) (app : WiFirApp) (s : WiFirScene) :
    Ongoing app.radio (sceneOnExit env app s).radio := by
  cases s with
  | transmit =>
    have hstop := (ongoing_stopTx env app).trans (ongoing_stopAckListener (wiFirStopTx env app))
    exact ⟨hstop.creds, hstop.sent⟩
  | _ => exact .refl _

theorem airs_startTx : Airs app (wiFirStartTx env app') := .starts rfl rfl rfl

/-- Entering a scene behind steps that keep the credentials on the air. -/
theorem airs_enter (s : WiFirScene) (h : Ongoing app.radio app'.radio)
    (hs : app'.sceneStack.head? = some s) : Airs app (sceneOnEnter env app' s) := by
  by_cases hne : s = .transmit
  · rw [hne]
    exact airs_startTx
  · obtain ⟨hradio, hstack, -⟩ := sceneOnEnter_keeps env app' hne
    refine .goesOn (hradio ▸ h) fun hscene => ?_
    rw [WiFirApp.scene, hstack, hs] at hscene
    exact absurd (Option.some.inj hscene) hne

theorem airs_next (env : Env) (app : WiFirApp) (s : WiFirScene) :
    Airs app (sceneManagerNextScene env app s) := by
  unfold sceneManagerNextScene
  split
  · rename_i cur _ _
    exact airs_enter s ⟨(ongoing_exit env app cur).creds, (ongoing_exit env app cur).sent⟩ rfl
  · exact airs_enter s ⟨rfl, id⟩ rfl

theorem sceneStack_exit (env : Env) (app : WiFirApp) (s : WiFirScene) :
    (sceneOnExit env app s).sceneStack = app.sceneStack := by
  have h := congrArg Desk.stack (desk_leave env app s)
  rw [Desk.leave_stack] at h
  exact h

/-- From one scene to one below it. -/
theorem airs_below (env : Env) (app : WiFirApp) (cur : WiFirScene) {stack : List WiFirScene}
    {s : WiFirScene} (hs : stack.head? = some s) :
    Airs app (sceneOnEnter env (sceneOnExit env { app with sceneStack := stack } cur) s) := by
  have hexit := ongoing_exit env { app with sceneStack := stack } cur
  refine airs_enter s ⟨hexit.creds, hexit.sent⟩ ?_
  rw [sceneStack_exit]
  exact hs

theorem airs_previous (env : Env) (app : WiFirApp) : Airs app (sceneManagerPreviousScene env app) := by
  unfold sceneManagerPreviousScene
  split
  · exact .goesOn (.refl _) id
  · rename_i cur _
    have hexit := ongoing_exit env { app with sceneStack := [] } cur
    refine .goesOn ⟨hexit.creds, hexit.sent⟩ fun hscene => ?_
    rw [WiFirApp.scene, sceneStack_exit] at hscene
    cases hscene
  · exact airs_below env app _ rfl

theorem head_dropWhile {below found : List WiFirScene}
    (h : below.dropWhile (· ≠ .mainMenu) = found) (hne : found ≠ []) :
    found.head? = some .mainMenu := by
  obtain ⟨top, rest, rfl⟩ := List.exists_cons_of_ne_nil hne
  have hnot := List.head?_dropWhile_not (fun s => decide (s ≠ WiFirScene.mainMenu)) below
  rw [h] at hnot
  simpa using hnot

theorem airs_dismiss (env : Env) (app : WiFirApp) : Airs app (wiFirDismiss env app) := by
  rw [wiFirDismiss]
  unfold sceneManagerSearchAndSwitch
  split
  · exact .goesOn (.refl _) id
  · split
    · exact .goesOn (.refl _) id
    · rename_i hne
      exact airs_below env app _ (head_dropWhile rfl hne)

theorem Airs.of_same {app₀ : WiFirApp} (h : Airs app app') (hr : app.radio = app₀.radio)
    (hs : app.sceneStack = app₀.sceneStack) : Airs app₀ app' := by
  cases h with
  | starts hcreds haired hok => exact .starts hcreds haired hok
  | goesOn h hscene =>
    refine .goesOn (hr ▸ h) fun hnow => ?_
    rw [WiFirApp.scene, ← hs]
    exact hscene hnow

theorem airs_same (hr : app'.radio = app.radio) (hs : app'.sceneStack = app.sceneStack) :
    Airs app app' :=
  Airs.of_same (.goesOn (.refl _) id) hr hs

end Stopping

/-! ## Every step -/

section Steps
variable {env : Env} {app app' : WiFirApp} {i : Input}

theorem Moves.airs (h : Moves env app app') : Airs app app' := by
  cases h with
  | stays hr hs => exact airs_same hr hs
  | goes next _ hr hs => exact (airs_next env _ next).of_same hr hs

theorem airs_confirmOnEvent (env : Env) (app : WiFirApp) (event : WiFirCustomEvent) :
    Airs app (wiFirSceneConfirmOnEvent env app event) := by
  cases event with
  | confirmSend => exact airs_next env app .transmit
  | confirmBack => exact airs_previous env app
  | confirmDelete =>
    rw [wiFirSceneConfirmOnEvent]
    split <;> exact airs_same rfl rfl
  | deleteConfirmed =>
    have hcalled : Airs app (app.call (.delete app.selectedSavedFile.bytes)) := .goesOn ⟨rfl, id⟩ id
    rw [wiFirSceneConfirmOnEvent]
    cases airs_previous env { { app with
        card := (wfrStorageDelete env.removes app.card app.selectedSavedFile.bytes).2 }.call
          (.delete app.selectedSavedFile.bytes) with selectedSavedFile := .empty _ } with
    | starts hcreds haired hok => exact .starts hcreds haired hok
    | goesOn h hscene => exact .goesOn ⟨h.creds, h.sent⟩ hscene
  | _ => exact airs_same rfl rfl

/-- In the transmit scene. -/
theorem airs_transmitOnEvent (env : Env) (app : WiFirApp) (source : ℕ) (event : WiFirCustomEvent)
    (hscene : app.scene = some .transmit) :
    Airs app (wiFirSceneTransmitOnEvent env app source event) := by
  cases event with
  | txFinished =>
    have hstop := ongoing_stopTx env (app.call (.txFinished source app.radio.txCount))
    refine .goesOn ?_ fun _ => hscene
    simp only [wiFirSceneTransmitOnEvent, wiFirOnTxFinished]
    generalize wiFirStopTx env (app.call (.txFinished source app.radio.txCount)) = stopped at hstop
    split
    · exact ⟨hstop.creds, hstop.sent⟩
    · split <;> exact ⟨hstop.creds, hstop.sent⟩
  | ackSuccess | ackFail | ackTimeout =>
    have hstop := ongoing_stopAckListener (app.call (.verdict source))
    exact .goesOn ⟨hstop.creds, hstop.sent⟩ fun _ => hscene
  | statusLeft | statusOk => exact airs_dismiss env app
  | statusRight =>
    rw [wiFirSceneTransmitOnEvent]
    split
    · exact airs_startTx
    · exact airs_same rfl rfl
  | _ => exact airs_same rfl rfl

theorem airs_custom (env : Env) (app : WiFirApp) (e : Posted) : Airs app (handleCustom env app e) := by
  have hedit := editors_move env app e.event
  rw [handleCustom]
  split
  · exact (mainMenu_moves env app e.event).airs
  · exact hedit.1.airs
  · exact hedit.2.1.airs
  · exact hedit.2.2.airs
  · exact airs_confirmOnEvent env app e.event
  · rename_i hscene
    exact airs_transmitOnEvent env app e.source e.event hscene
  · exact (scanNfc_moves env app e.event).airs
  · exact (saved_moves env app e.event).airs
  all_goals exact airs_same rfl rfl

theorem airs_tick (env : Env) (app : WiFirApp) : Airs app (handleTick env app) := by
  rw [handleTick]
  split
  · split
    · exact airs_same rfl rfl
    · split
      · exact (airs_dismiss env _).of_same rfl rfl
      · exact airs_same rfl rfl
  · split
    · exact airs_same rfl rfl
    · split <;> exact airs_same rfl rfl
  · exact airs_same rfl rfl

theorem airs_back (env : Env) (app : WiFirApp) : Airs app (handleBack env app) := by
  rw [handleBack]
  split
  · exact airs_dismiss env app
  · exact airs_previous env app

theorem airs_of_step (hstep : step app i = some app') : Airs app app' := by
  cases happens_of_step hstep with
  | custom env _ => exact (airs_custom env _ _).of_same rfl rfl
  | back env => exact airs_back env app
  | tick env => exact airs_tick env app
  | posts _ hr hs => exact airs_same hr hs
  | edits hr hs => exact airs_same hr hs
  | txDone wifiStr _ _ =>
    exact .goesOn ⟨rfl, fun _ => .inr ⟨_, fun _ _ => !app.radio.txCancel, wifiStr, rfl⟩⟩ id
  | _ => exact .goesOn ⟨rfl, id⟩ id

end Steps

/-! ## Every run -/

/-- The confirm screen shows the working set, which is that of the selected file if there is one. -/
def Shown (d : Desk) (o : Option Origin) : Prop :=
  d.confirm = d.shown ∧ (d.file.bytes = [] ∨ o = some ⟨d.file, d.creds⟩)

section Runs
variable {app app' : WiFirApp} {i : Input} {o : Option Origin} {d : Desk}

theorem originAfter_transmit (hi : i.isItemChange = false) (hscene : app.scene = some .transmit) :
    originAfter app i o = o := by
  cases i with
  | securityChange _ | hiddenChange _ => cases hi
  | custom env => simp only [originAfter, hscene]
  | _ => rfl

theorem head_next (d : Desk) (s : WiFirScene) : (d.next s).stack.head? = some s := by
  unfold Desk.next
  rw [Desk.enter_stack]
  rfl

/-- Nothing is above the transmit scene. -/
theorem head_previous (hway : d.stack.IsChain (fun top below => top ∈ successors below)) :
    d.previous.stack.head? ≠ some .transmit := by
  rcases hstack : d.stack with _ | ⟨cur, _ | ⟨prev, rest⟩⟩
  · simp [Desk.previous, hstack]
  · simp [Desk.previous, hstack]
  · rw [hstack, List.isChain_cons_cons] at hway
    simp only [Desk.previous, hstack, Desk.enter_stack, Desk.leave_stack, List.head?_cons, Ne,
      Option.some.injEq]
    rintro rfl
    exact absurd hway.1 (by simp [successors])

theorem home_cases (d : Desk) : d.home = d ∨ d.home.stack.head? = some .mainMenu := by
  unfold Desk.home
  split
  · exact .inl rfl
  · split
    · exact .inl rfl
    · rename_i hne
      refine .inr ?_
      rw [Desk.enter_stack, Desk.leave_stack]
      exact head_dropWhile rfl hne

/-- The way into the transmit scene is from the confirm screen, and in it the working set stays. -/
theorem shown_change (h : Watch app.desk o) (hshown : app.scene = some .transmit → Shown app.desk o)
    (hc : Change app i d) (hd : d.stack.head? = some .transmit) :
    Shown d (originAfter app i o) ∧
      (app.scene = some .transmit → d.creds = app.desk.creds) := by
  have hnext (d : Desk) {s : WiFirScene} (hd : (d.next s).stack.head? = some .transmit) :
      s = .transmit := Option.some.inj ((head_next d s).symm.trans hd)
  cases hc with
  | stays hi =>
    refine ⟨?_, fun _ => rfl⟩
    rw [originAfter_transmit hi hd]
    exact hshown hd
  | @goes env cur next hcur hsucc hne =>
    obtain rfl := hnext _ hd
    obtain rfl : cur = .confirm := by
      revert hsucc
      cases cur <;> decide
    obtain ⟨hconfirm, hfile⟩ := h.shown hcur
    obtain ⟨below, hstack⟩ := List.head?_eq_some_iff.mp hcur
    have hkeep : (app.desk.next .transmit).confirm = app.desk.confirm := by
      rw [Desk.next_eq hstack]
      rfl
    obtain ⟨hcreds, hname, -, -⟩ := Desk.keeps_next (d := app.desk) .transmit
    constructor
    · rw [originAfter_confirm rfl hcur, Shown, Desk.shown, hkeep, hcreds, hname]
      exact ⟨hconfirm, hfile⟩
    · intro ht
      rw [hcur] at ht
      cases ht
  | ssid => cases hnext _ hd
  | password => cases hnext _ hd
  | entered => cases hnext _ hd
  | scanned => cases hnext _ hd
  | loaded => cases hnext _ hd
  | previous => exact absurd hd (head_previous h.way)
  | deletes => exact absurd hd (head_previous h.way)
  | home hi =>
    rcases home_cases app.desk with hsame | hmenu
    · rw [hsame] at hd ⊢
      refine ⟨?_, fun _ => rfl⟩
      rw [originAfter_transmit hi hd]
      exact hshown hd
    · rw [hmenu] at hd
      cases hd
  | security _ hitems | hidden _ hitems => cases (h.items hitems).symm.trans hd
  | scans => exact ⟨hshown hd, fun _ => rfl⟩

/-- What holds of the application and the origin of its working set. -/
structure Honest (app : WiFirApp) (o : Option Origin) : Prop where
  watch : Watch app.desk o
  shown : app.scene = some .transmit → Shown app.desk o
  creds : app.scene = some .transmit → app.radio.txCreds = workingCreds app
  sent : Sent app.radio

theorem Honest.step (h : Honest app o) (hstep : Gui.step app i = some app') :
    Honest app' (originAfter app i o) := by
  have hchange := change_of_step hstep
  have hairs := airs_of_step hstep
  refine ⟨h.watch.change hchange, ?_, ?_, ?_⟩
  · intro hscene
    exact (shown_change h.watch h.shown hchange hscene).1
  · intro hscene
    cases hairs with
    | starts hcreds => exact hcreds
    | goesOn hon hbefore =>
      have hsame := (shown_change h.watch h.shown hchange hscene).2 (hbefore hscene)
      exact (hon.creds.trans (h.creds (hbefore hscene))).trans hsame.symm
  · cases hairs with
    | starts _ haired hok => exact .inl ⟨haired, hok⟩
    | goesOn hon => exact hon.sent h.sent

theorem honest_launched (card : Card) (ackEnabled : Bool) (irProtocol : WfrIrProtocol) :
    Honest (launched card ackEnabled irProtocol) none := by
  refine ⟨⟨.singleton _, fun hi => ?_, fun hc => ?_⟩, fun hs => ?_, fun hs => ?_, .inl ⟨rfl, rfl⟩⟩
  · cases hi
  · cases hc
  · cases hs
  · cases hs

/-- What is sent does not depend on the settings file. -/
theorem Honest.saves (h : Honest app o) (ok : ℕ → Bool) : Honest (wiFirSceneSettingsSave ok app) o :=
  ⟨h.watch, h.shown, h.creds, h.sent⟩

theorem honest_of_reach {card : Card} {guard : Watched → DeviceInput → Prop}
    (h : Reach deviceStep guard (started card, none) (app, o)) : Honest app o := by
  have hkeep : ∀ s d s', Honest (Prod.fst s) (Prod.snd s) → guard s d → deviceStep s d = some s' →
      Honest s'.1 s'.2 := by
    rintro ⟨app, o⟩ d s' hs - hstep
    cases d with
    | input i writes =>
      obtain ⟨app', happ, rfl⟩ := deviceStep_input hstep
      dsimp only
      split
      · exact (hs.step happ).saves writes
      · exact hs.step happ
    | start =>
      cases hstep
      exact honest_launched _ _ _
  exact h.invariant (honest_launched _ _ _) hkeep

end Runs

/-- A TX that has returned true has put out all messages of its credentials. -/
theorem Sent.whole {r : Radio} (h : Sent r) (hok : r.txOk = true) : WholeSend r.txCreds r.aired := by
  rcases h with ⟨-, hnot⟩ | ⟨t, progress, wifiStr, hsent⟩
  · rw [hnot] at hok
    cases hok
  · have hwhole := @transmitted_whole r t progress wifiStr (by rw [hsent]; exact hok)
    rwa [hsent] at hwhole

/-- In every run, whatever is still queued: while the transmit scene is current the confirm screen has
last shown the working set, which is that of the selected file if there is one, and what is on the air
is a send of it, all of it once the TX has succeeded. -/
theorem sends_shown (card : Card) (app : WiFirApp) (o : Option Origin)
    (h : Reach deviceStep (fun _ _ => True) (started card, none) (app, o))
    (hscene : app.scene = some .transmit) :
    Shown app.desk o ∧ app.radio.txCreds = workingCreds app ∧ Sent app.radio ∧
      (app.radio.txOk = true → WholeSend (workingCreds app) app.radio.aired) := by
  obtain ⟨-, hshown, hcreds, hsent⟩ := honest_of_reach h
  refine ⟨hshown hscene, hcreds hscene, hsent, fun hok => ?_⟩
  rw [← hcreds hscene]
  exact hsent.whole hok

/-- The ACK is turned on, the application is started again, and a saved network is sent. -/
private def savedSend : List DeviceInput :=
  written [.menuOk 3, handle, .ackChange true] ++
    .start :: written [.menuOk 2, handle, .listOk 0, handle, .confirmKey .right, handle,
      .txDone (Vector.replicate _ 0)]

theorem sends_shown_saved :
    ∃ app o, Reach deviceStep (fun _ _ => True) (started dockCard, none) (app, o) ∧
      app.scene = some .transmit ∧ workingCreds app = dock ∧ app.radio.txOk = true ∧
      app.ackEnabled = true ∧
      Shown app.desk o ∧ app.radio.txCreds = workingCreds app ∧ Sent app.radio ∧
      (app.radio.txOk = true → WholeSend (workingCreds app) app.radio.aired) := by
  have hrun : (runAll (fun s d => if True then deviceStep s d else none) (started dockCard, none)
      savedSend).map (fun s => decide (s.1.scene = some .transmit ∧ workingCreds s.1 = dock ∧
        s.1.radio.txOk = true ∧ s.1.ackEnabled = true)) = some true := by decide +kernel
  obtain ⟨⟨app, o⟩, happ, hsent⟩ := Option.map_eq_some_iff.mp hrun
  rw [decide_eq_true_eq] at hsent
  obtain ⟨hscene, hdock, hok, hack⟩ := hsent
  have hreach := Reach.of_runAll happ
  exact ⟨app, o, hreach, hscene, hdock, hok, hack, sends_shown dockCard app o hreach hscene⟩

end InfraFi.Flipper.Gui
