import InfraFi.Flipper.Resources

/-! # The first verdict

A verdict stops its listener, but what the listener has posted stays queued and
is handled like any other verdict. Listeners are told apart by their number.
-/
namespace InfraFi.Flipper.Gui
open Base Protocol

/-- The event that an input handles. -/
def handled (app : WiFirApp) : Input → Option Posted
  | .custom _ => app.events.head?
  | _ => none

/-- A verdict is handled in the transmit scene only while the listener that posted it is running. -/
def OwnVerdict (app : WiFirApp) (i : Input) : Prop :=
  ∀ e ∈ handled app i, app.scene = some .transmit → e.event.isAck = true →
    app.radio.irWorker = some e.source

instance OwnVerdict.decidable (app : WiFirApp) (i : Input) : Decidable (OwnVerdict app i) :=
  Option.decidableForallMem _

theorem handled_custom {app : WiFirApp} {e : Posted} {rest : List Posted} (he : app.events = e :: rest)
    (env : Env) : e ∈ handled app (.custom env) := by
  rw [handled, he]
  rfl

/-! ## The numbers of the listeners -/

/-- A listener whose verdict was handled is not running. -/
structure Counted (r : Radio) : Prop where
  worker : ∀ n, r.irWorker = some n → n ≤ r.listenerCount
  judged : ∀ n, .verdict n ∈ r.calls → n ≤ r.listenerCount ∧ r.irWorker ≠ some n

/-- No listener is started and no verdict handled. -/
structure Quieter (r r' : Radio) : Prop where
  worker : r'.irWorker = r.irWorker ∨ r'.irWorker = none
  count : r'.listenerCount = r.listenerCount
  calls : ∀ n, .verdict n ∈ r'.calls → .verdict n ∈ r.calls

namespace Quieter
variable {r r' r'' : Radio}

theorem same (hw : r'.irWorker = r.irWorker) (hn : r'.listenerCount = r.listenerCount)
    (hc : r'.calls = r.calls) : Quieter r r' :=
  ⟨.inl hw, hn, fun _ h => hc ▸ h⟩

theorem of_eq (h : r' = r) : Quieter r r' := same (by rw [h]) (by rw [h]) (by rw [h])

theorem trans (h : Quieter r r') (h' : Quieter r' r'') : Quieter r r'' := by
  constructor
  · rcases h'.worker with hw | hw
    · exact h.worker.imp hw.trans hw.trans
    · exact .inr hw
  · exact h'.count.trans h.count
  · exact fun n hn => h.calls n (h'.calls n hn)

/-- One more call that is no verdict. -/
theorem concat {c : Call} (hw : r'.irWorker = r.irWorker) (hn : r'.listenerCount = r.listenerCount)
    (hc : r'.calls = r.calls ++ [c]) (hv : ∀ n, c ≠ .verdict n) : Quieter r r' := by
  refine ⟨.inl hw, hn, ?_⟩
  intro n hmem
  rw [hc, List.mem_append, List.mem_singleton] at hmem
  exact hmem.resolve_right fun heq => hv n heq.symm

end Quieter

theorem Counted.quiet {r r' : Radio} (h : Counted r) (hq : Quieter r r') : Counted r' := by
  constructor
  · intro n hn
    rw [hq.count]
    rcases hq.worker with hw | hw
    · exact h.worker n (hw ▸ hn)
    · simp [hw] at hn
  · intro n hn
    obtain ⟨hle, hne⟩ := h.judged n (hq.calls n hn)
    rw [hq.count]
    rcases hq.worker with hw | hw
    · exact ⟨hle, hw ▸ hne⟩
    · exact ⟨hle, by simp [hw]⟩

/-! ## Stopping, starting and moving between scenes -/

section Scenes
variable (env : Env)

theorem stopAckListener_quieter (app : WiFirApp) :
    Quieter app.radio (wiFirStopAckListener app).radio := by
  rw [stopAckListener_eq]
  exact ⟨.inr rfl, rfl, fun _ h => h⟩

theorem stopTx_quieter (app : WiFirApp) : Quieter app.radio (wiFirStopTx env app).radio := by
  obtain ⟨-, r, hr⟩ := stopTx_keeps env app
  rw [hr]
  exact .same rfl rfl rfl

theorem startTx_quieter (app : WiFirApp) : Quieter app.radio (wiFirStartTx env app).radio := by
  have hstop := (stopAckListener_quieter app).trans (stopTx_quieter env _)
  have hstart : Quieter (wiFirStopTx env (wiFirStopAckListener app)).radio
      (wiFirStartTx env app).radio := .concat rfl rfl rfl (by simp)
  exact hstop.trans hstart

theorem enter_quieter (app : WiFirApp) (s : WiFirScene) :
    Quieter app.radio (sceneOnEnter env app s).radio := by
  by_cases hs : s = .transmit
  · subst hs
    exact startTx_quieter env { app with statusCallback := true }
  · exact .of_eq (sceneOnEnter_keeps env app hs).1

theorem exit_quieter (app : WiFirApp) (s : WiFirScene) :
    Quieter app.radio (sceneOnExit env app s).radio := by
  by_cases hs : s = .transmit
  · subst hs
    have hstop := (stopTx_quieter env app).trans (stopAckListener_quieter _)
    have hcall : Quieter (wiFirStopAckListener (wiFirStopTx env app)).radio
        (sceneOnExit env app .transmit).radio := .concat rfl rfl rfl (by simp)
    exact hstop.trans hcall
  · exact .of_eq (sceneOnExit_keeps env app hs).1

theorem nextScene_quieter (app : WiFirApp) (next : WiFirScene) :
    Quieter app.radio (sceneManagerNextScene env app next).radio := by
  simp only [sceneManagerNextScene]
  split
  · rename_i cur rest _
    have henter := enter_quieter env { sceneOnExit env app cur with
      sceneStack := next :: (sceneOnExit env app cur).sceneStack } next
    exact (exit_quieter env app cur).trans henter
  · exact enter_quieter env { app with sceneStack := next :: app.sceneStack } next

theorem previousScene_quieter (app : WiFirApp) :
    Quieter app.radio (sceneManagerPreviousScene env app).radio := by
  rw [sceneManagerPreviousScene]
  split
  · exact .of_eq rfl
  · exact exit_quieter env { app with sceneStack := [] } _
  · rename_i cur prev rest _
    exact (exit_quieter env { app with sceneStack := prev :: rest } cur).trans
      (enter_quieter env _ prev)

theorem dismiss_quieter (app : WiFirApp) : Quieter app.radio (wiFirDismiss env app).radio := by
  rcases searchAndSwitch_cases env app .mainMenu with hsame | ⟨cur, -, found, -, -, hgo⟩
  · exact .of_eq (by rw [wiFirDismiss, hsame])
  · rw [wiFirDismiss, hgo]
    exact (exit_quieter env { app with sceneStack := found } cur).trans (enter_quieter env _ _)

variable {env} in
theorem Moves.quieter {app app' : WiFirApp} (hm : Moves env app app') :
    Quieter app.radio app'.radio := by
  cases hm with
  | stays hr => exact .of_eq hr
  | goes next _ hr => exact (Quieter.of_eq hr).trans (nextScene_quieter env _ next)

theorem confirmOnEvent_quieter (app : WiFirApp) (event : WiFirCustomEvent) :
    Quieter app.radio (wiFirSceneConfirmOnEvent env app event).radio := by
  cases event with
  | confirmSend => exact nextScene_quieter env app .transmit
  | confirmBack => exact previousScene_quieter env app
  | confirmDelete =>
    simp only [wiFirSceneConfirmOnEvent]
    split <;> exact .of_eq rfl
  | deleteConfirmed =>
    have hcall : Quieter app.radio (app.call (.delete app.selectedSavedFile.bytes)).radio :=
      .concat rfl rfl rfl (by simp)
    have hprevious := previousScene_quieter env
      { { app with
          card := (wfrStorageDelete env.removes app.card app.selectedSavedFile.bytes).2 }.call
            (.delete app.selectedSavedFile.bytes) with
        selectedSavedFile := .empty _ }
    exact hcall.trans hprevious
  | _ => exact .of_eq rfl

end Scenes

/-! ## Every input -/

section Inputs
variable {env : Env} {app app' : WiFirApp}

theorem counted_startAckListener (h : Counted app.radio) :
    Counted (wiFirStartAckListener app).radio := by
  constructor
  · intro n hn
    cases hn
    exact le_rfl
  · intro n hn
    have hmem : .verdict n ∈ app.radio.calls := by simpa [wiFirStartAckListener] using hn
    have hle := (h.judged n hmem).1
    refine ⟨Nat.le_succ_of_le hle, ?_⟩
    rintro ⟨⟩
    omega

/-- The handled verdict is from the running listener, which is stopped. -/
theorem counted_verdict (h : Counted app.radio) {source : ℕ} (hown : app.radio.irWorker = some source) :
    Counted (wiFirStopAckListener (app.call (.verdict source))).radio := by
  rw [stopAckListener_eq]
  constructor
  · rintro n ⟨⟩
  · intro n hn
    rw [WiFirApp.call, List.mem_append, List.mem_singleton] at hn
    rcases hn with hn | hn
    · exact ⟨(h.judged n hn).1, by simp⟩
    · cases hn
      exact ⟨h.worker source hown, by simp⟩

theorem counted_txFinished (h : Counted app.radio) (source : ℕ) :
    Counted (wiFirOnTxFinished env source app).radio := by
  have hcall : Quieter app.radio (app.call (.txFinished source app.radio.txCount)).radio :=
    .concat rfl rfl rfl (by simp)
  have hstop := h.quiet (hcall.trans (stopTx_quieter env _))
  simp only [wiFirOnTxFinished]
  split
  · exact hstop.quiet (.same rfl rfl rfl)
  · split
    · apply counted_startAckListener
      exact hstop.quiet (.concat rfl rfl rfl (by simp))
    · exact hstop.quiet (.concat rfl rfl rfl (by simp))

theorem counted_transmitOnEvent (h : Counted app.radio) (source : ℕ) (event : WiFirCustomEvent)
    (hown : event.isAck = true → app.radio.irWorker = some source) :
    Counted (wiFirSceneTransmitOnEvent env app source event).radio := by
  cases event with
  | txFinished => exact counted_txFinished h source
  | ackSuccess => exact (counted_verdict h (hown rfl)).quiet (.same rfl rfl rfl)
  | ackFail => exact (counted_verdict h (hown rfl)).quiet (.same rfl rfl rfl)
  | ackTimeout => exact (counted_verdict h (hown rfl)).quiet (.same rfl rfl rfl)
  | statusLeft => exact h.quiet (dismiss_quieter env app)
  | statusOk => exact h.quiet (dismiss_quieter env app)
  | statusRight =>
    simp only [wiFirSceneTransmitOnEvent]
    split
    · exact h.quiet (startTx_quieter env app)
    · exact h
  | _ => exact h

theorem counted_custom (h : Counted app.radio) (e : Posted)
    (hown : app.scene = some .transmit → e.event.isAck = true → app.radio.irWorker = some e.source) :
    Counted (handleCustom env app e).radio := by
  obtain ⟨hssid, hpassword, hsecurity⟩ := editors_move env app e.event
  rw [handleCustom]
  split
  · exact h.quiet (mainMenu_moves env app e.event).quieter
  · exact h.quiet hssid.quieter
  · exact h.quiet hpassword.quieter
  · exact h.quiet hsecurity.quieter
  · exact h.quiet (confirmOnEvent_quieter env app e.event)
  · rename_i hscene
    exact counted_transmitOnEvent h e.source e.event (hown hscene)
  · exact h.quiet (scanNfc_moves env app e.event).quieter
  · exact h.quiet (saved_moves env app e.event).quieter
  all_goals exact h

theorem tick_quieter (env : Env) (app : WiFirApp) : Quieter app.radio (handleTick env app).radio := by
  rw [handleTick]
  split
  · split
    · exact .of_eq rfl
    · split
      · exact dismiss_quieter env { app with dismissTicks := app.dismissTicks - 1 }
      · exact .of_eq rfl
  · split
    · exact .of_eq rfl
    · split <;> exact .of_eq rfl
  · exact .of_eq rfl

theorem back_quieter (env : Env) (app : WiFirApp) : Quieter app.radio (handleBack env app).radio := by
  rw [handleBack]
  split
  · exact dismiss_quieter env app
  · exact previousScene_quieter env app

theorem counted_step {i : Input} (h : Counted app.radio) (hown : OwnVerdict app i)
    (hstep : step app i = some app') : Counted app'.radio := by
  cases happens_of_step hstep with
  | @custom env e rest he =>
    have hpop : Counted (WiFirApp.radio { app with events := rest }) := h
    exact counted_custom hpop e (hown e (handled_custom he env))
  | back env => exact h.quiet (back_quieter env app)
  | tick env => exact h.quiet (tick_quieter env app)
  | posts f hr => exact hr ▸ h
  | edits hr => exact hr ▸ h
  | txProgress => exact h
  | txDone => exact h.quiet (.same rfl rfl rfl)
  | txCheck => exact h.quiet (.same rfl rfl rfl)
  | txPost => exact h.quiet (.same rfl rfl rfl)
  | signal => exact h.quiet (.same rfl rfl rfl)
  | timeout => exact h.quiet (.same rfl rfl rfl)

/-- The other scenes take no verdicts. -/
theorem ack_elsewhere {e : Posted} (hscene : app.scene ≠ some .transmit) (hack : e.event.isAck = true) :
    handleCustom env app e = app := by
  rcases e with ⟨event, source⟩
  rw [handleCustom]
  split
  all_goals
    cases event with
    | ackSuccess => first | rfl | exact absurd ‹_› hscene
    | ackFail => first | rfl | exact absurd ‹_› hscene
    | ackTimeout => first | rfl | exact absurd ‹_› hscene
    | _ => cases hack

end Inputs

theorem counted_launched (card : Card) (ackEnabled : Bool) (irProtocol : WfrIrProtocol) :
    Counted (launched card ackEnabled irProtocol).radio :=
  ⟨fun _ hn => by simp [launched] at hn, fun _ hn => by simp [launched] at hn⟩

/-- In every run that handles verdicts in the transmit scene only while their listener is running, a
later verdict of a listener changes neither what is shown nor the retry permission nor the countdown. -/
theorem verdict_stands (card : Card) (ackEnabled : Bool) (irProtocol : WfrIrProtocol) (app : WiFirApp)
    (h : Reach step OwnVerdict (launched card ackEnabled irProtocol) app) (env : Env) (e : Posted)
    (rest : List Posted) (he : app.events = e :: rest) (hack : e.event.isAck = true)
    (hjudged : .verdict e.source ∈ app.radio.calls) (hown : OwnVerdict app (.custom env))
    (app' : WiFirApp) (hstep : step app (.custom env) = some app') :
    app'.status = app.status ∧ app'.radio.retryAllowed = app.radio.retryAllowed ∧
      app'.dismissTicks = app.dismissTicks := by
  have hcounted : Counted app.radio := by
    apply h.invariant (counted_launched card ackEnabled irProtocol)
    exact fun _ _ _ hcounted hown hstep => counted_step hcounted hown hstep
  have hscene : app.scene ≠ some .transmit :=
    fun hscene => (hcounted.judged e.source hjudged).2 (hown e (handled_custom he env) hscene hack)
  have hsame : handleCustom env { app with events := rest } e = { app with events := rest } :=
    ack_elsewhere hscene hack
  rw [step] at hstep
  split at hstep
  · cases hstep
  simp only [perform, he, hsame] at hstep
  cases hstep
  exact ⟨rfl, rfl, rfl⟩

/-- A send whose reply and whose timeout both come before the main thread handles either. -/
private def lateReply : List Input :=
  [.menuOk 2, handle, .listOk 0, handle, .confirmKey .right, handle] ++ wholeTx ++ [handle] ++
    (passFrames 0 (ascii "OK:10.0.0.2")).map
      (fun f => .signal 1 ⟨0, some ⟨.rc6, f.1.toUInt32, f.2.toUInt32⟩, Vector.replicate _ 0⟩) ++
    [.timeout 1, handle]

/-- The timeout is handled in the main menu. -/
theorem verdict_stands_afterBack :
    ∃ app app', Reach step OwnVerdict (launched dockCard true .rc6) app ∧
      app.events = [⟨.ackTimeout, 1⟩] ∧ .verdict 1 ∈ app.radio.calls ∧
      step app handle = some app' ∧ app'.status = app.status ∧
      app'.radio.retryAllowed = app.radio.retryAllowed ∧ app'.dismissTicks = app.dismissTicks := by
  have hrun : (runAll (fun s i => if OwnVerdict s i then step s i else none)
      (launched dockCard true .rc6) (lateReply ++ [.back calm])).map (fun app =>
        decide (app.events = [⟨.ackTimeout, 1⟩] ∧ .verdict 1 ∈ app.radio.calls ∧
          OwnVerdict app handle ∧ (step app handle).isSome = true)) = some true := by
    decide +kernel
  obtain ⟨app, happ, hstale⟩ := Option.map_eq_some_iff.mp hrun
  rw [decide_eq_true_eq] at hstale
  obtain ⟨hevents, hjudged, hown, hsome⟩ := hstale
  obtain ⟨app', hstep⟩ := Option.isSome_iff_exists.mp hsome
  have hreach := Reach.of_runAll happ
  exact ⟨app, app', hreach, hevents, hjudged, hstep, verdict_stands dockCard true .rc6 app hreach calm
    ⟨.ackTimeout, 1⟩ [] hevents rfl hjudged hown app' hstep⟩

/-- The timeout is handled in the transmit scene, behind the reply of the same listener. -/
theorem timeout_after_reply :
    ∃ app app', Reach step (fun _ _ => True) (launched dockCard true .rc6) app ∧
      app.events = [⟨.ackTimeout, 1⟩] ∧ .verdict 1 ∈ app.radio.calls ∧
      step app handle = some app' ∧
      (app.status.mode = .connected ∧ app.radio.retryAllowed = false ∧ app.dismissTicks = 60) ∧
      app'.status.mode = .result ∧ app'.radio.retryAllowed = true ∧ app'.dismissTicks = 0 := by
  have hrun : (runAll (fun s i => if True then step s i else none)
      (launched dockCard true .rc6) lateReply).map (fun app =>
        decide (app.events = [⟨.ackTimeout, 1⟩] ∧ .verdict 1 ∈ app.radio.calls ∧
          (app.status.mode = .connected ∧ app.radio.retryAllowed = false ∧ app.dismissTicks = 60) ∧
          (step app handle).map (fun app' => decide (app'.status.mode = .result ∧
            app'.radio.retryAllowed = true ∧ app'.dismissTicks = 0)) = some true)) = some true := by
    decide +kernel
  obtain ⟨app, happ, hlate⟩ := Option.map_eq_some_iff.mp hrun
  rw [decide_eq_true_eq] at hlate
  obtain ⟨hevents, hjudged, hshown, hnext⟩ := hlate
  obtain ⟨app', hstep, hchanged⟩ := Option.map_eq_some_iff.mp hnext
  rw [decide_eq_true_eq] at hchanged
  exact ⟨app, app', .of_runAll happ, hevents, hjudged, hstep, hshown, hchanged⟩

end InfraFi.Flipper.Gui
