import InfraFi.Flipper.Carried
import InfraFi.Flipper.Shown

/-! # What is on the card

A step stores or deletes a saved network, or changes the settings file. The
names of the saved networks keep the one apart from the other.
-/
namespace InfraFi.Flipper.Gui
open Base Protocol

/-! ## Steps of the application -/

/-- The names that an input may give to the saved scene. -/
def Input.names : Input → List Bytes
  | .custom env | .back env | .tick env => env.names
  | _ => []

/-- The part of the application that the card has to do with. -/
structure Shelf where
  card : Card
  settings : Settings
  networks : List SavedNetwork
  list : List (CString wfrSsidMaxLen × Bool)

def WiFirApp.shelf (app : WiFirApp) : Shelf := ⟨app.card, app.settings, app.savedNetworks, app.list⟩

/-- What the list view shows of the saved networks. -/
def listItems (networks : List SavedNetwork) : List (CString wfrSsidMaxLen × Bool) :=
  networks.map (fun n => (n.ssid, n.security ≠ wfrSecOpen))

/-- The card and the settings stay as they are, and so do the lists, unless they are made anew from the
names. -/
structure Leaves (names : List Bytes) (b b' : Shelf) : Prop where
  card : b'.card = b.card
  settings : b'.settings = b.settings
  lists : b'.networks = b.networks ∧ b'.list = b.list ∨
    (∃ card, b'.networks = wfrStorageList card names wfrSavedMax) ∧ b'.list = listItems b'.networks

section Steps
variable {env : Env} {app app' : WiFirApp} {i : Input} {names : List Bytes} {b b' : Shelf}

theorem Leaves.refl (names : List Bytes) (b : Shelf) : Leaves names b b :=
  ⟨rfl, rfl, .inl ⟨rfl, rfl⟩⟩

theorem Leaves.trans {b'' : Shelf} (h : Leaves names b b') (h' : Leaves names b' b'') :
    Leaves names b b'' := by
  refine ⟨h'.card.trans h.card, h'.settings.trans h.settings, ?_⟩
  rcases h'.lists with ⟨hnetworks, hlist⟩ | hanew
  · rw [hnetworks, hlist]
    exact h.lists
  · exact .inr hanew

theorem leaves_stopTx (env : Env) (app : WiFirApp) :
    Leaves env.names app.shelf (wiFirStopTx env app).shelf := by
  cases ht : app.radio.txThread with
  | none =>
    rw [stopTx_of_none ht]
    exact .refl _ _
  | some t =>
    rw [wiFirStopTx, ht]
    rcases t with ⟨number, protocol, phase⟩
    cases phase with
    | sending =>
      rcases env with ⟨late, redraw, wifiStr, writes, removes, names⟩
      rcases redraw with _ | ⟨sent, total⟩ <;> exact .refl _ _
    | _ => exact .refl _ _

theorem leaves_enter (env : Env) (app : WiFirApp) (s : WiFirScene) :
    Leaves env.names app.shelf (sceneOnEnter env app s).shelf := by
  cases s with
  | transmit =>
    exact leaves_stopTx env (wiFirStopAckListener { app with statusCallback := true })
  | saved =>
    exact ⟨rfl, rfl, .inr ⟨⟨app.card, rfl⟩, rfl⟩⟩
  | _ => exact .refl _ _

theorem leaves_exit (env : Env) (app : WiFirApp) (s : WiFirScene) :
    Leaves env.names app.shelf (sceneOnExit env app s).shelf := by
  cases s with
  | transmit => exact leaves_stopTx env app
  | _ => exact .refl _ _

theorem carried_leaves (env : Env) :
    Carried env (fun app app' => Leaves env.names app.shelf app'.shelf) where
  refl _ := .refl _ _
  trans := .trans
  enter := leaves_enter env
  exit := leaves_exit env
  stack _ _ := .refl _ _
  edit _ _ _ _ _ _ := .refl _ _
  draw _ _ _ _ _ _ := .refl _ _

/-- What a step does to the card. -/
inductive Stores (app : WiFirApp) : Input → WiFirApp → Prop
  | nothing {i : Input} {app' : WiFirApp} (h : Leaves i.names app.shelf app'.shelf) : Stores app i app'
  | changes {i : Input} {app' : WiFirApp} (hi : i.isSettingsChange = true)
      (hcard : app'.card = app.card) (hnetworks : app'.savedNetworks = app.savedNetworks)
      (hlist : app'.list = app.list) : Stores app i app'
  | deletes {env : Env} {app' : WiFirApp} (hscene : app.scene = some .confirm)
      (hturn : app.turn = some .deleteConfirmed)
      (h : Leaves env.names { app.shelf with
        card := (wfrStorageDelete env.removes app.card app.selectedSavedFile.bytes).2 } app'.shelf) :
      Stores app (.custom env) app'
  | saves {env : Env} {app' : WiFirApp} (hscene : app.scene = some .transmit)
      (hturn : app.turn = some .txFinished) (aired : List TxMessage)
      (hcall : Call.save app.radio.txCreds aired ∈ app'.radio.calls)
      (hwhole : Sent app.radio → WholeSend app.radio.txCreds aired)
      (h : Leaves env.names
        { app.shelf with card := (wfrStorageSave env.writes app.card app.radio.txCreds).2 } app'.shelf) :
      Stores app (.custom env) app'

theorem leaves_transmitOnEvent (env : Env) (app : WiFirApp) (source : ℕ) {event : WiFirCustomEvent}
    (hne : event ≠ .txFinished) :
    Leaves env.names app.shelf (wiFirSceneTransmitOnEvent env app source event).shelf := by
  cases event with
  | txFinished => exact absurd rfl hne
  | statusLeft | statusOk => exact (carried_leaves env).dismiss app
  | statusRight =>
    rw [wiFirSceneTransmitOnEvent]
    split
    · exact leaves_stopTx env (wiFirStopAckListener app)
    · exact .refl _ _
  | _ => exact .refl _ _

/-- A TX is over: its credentials are saved if it has succeeded. -/
theorem stores_txFinished (env : Env) {e : Posted} {rest : List Posted} (he : app.events = e :: rest)
    (hevent : e.event = .txFinished) (hscene : app.scene = some .transmit) :
    Stores app (.custom env) (wiFirOnTxFinished env e.source { app with events := rest }) := by
  have hturn : app.turn = some .txFinished := by
    rw [WiFirApp.turn, he, List.head?_cons, Option.map_some, hevent]
  have hleft := leaves_stopTx env
    ({ app with events := rest }.call (.txFinished e.source app.radio.txCount))
  have hstop := ongoing_stopTx env
    ({ app with events := rest }.call (.txFinished e.source app.radio.txCount))
  simp only [wiFirOnTxFinished]
  generalize wiFirStopTx env
    ({ app with events := rest }.call (.txFinished e.source app.radio.txCount)) = stopped
    at hleft hstop ⊢
  have hcreds : stopped.radio.txCreds = app.radio.txCreds := hstop.creds
  have hcard : stopped.card = app.card := hleft.card
  split
  · exact .nothing hleft
  · rename_i hok
    rw [not_not] at hok
    have hwhole (hsent : Sent app.radio) : WholeSend app.radio.txCreds stopped.radio.aired := by
      rw [← hcreds]
      exact (hstop.sent hsent).whole hok
    have hsaved : (wfrStorageSave env.writes stopped.card stopped.radio.txCreds).2 =
        (wfrStorageSave env.writes app.card app.radio.txCreds).2 := by
      rw [hcreds, hcard]
    split
    · refine .saves hscene hturn stopped.radio.aired ?_ hwhole ⟨hsaved, hleft.settings, hleft.lists⟩
      simp [wiFirStartAckListener, WiFirApp.call, hcreds]
    · refine .saves hscene hturn stopped.radio.aired ?_ hwhole ⟨hsaved, hleft.settings, hleft.lists⟩
      simp [WiFirApp.call, hcreds]

theorem stores_custom (env : Env) {e : Posted} {rest : List Posted} (he : app.events = e :: rest) :
    Stores app (.custom env) (handleCustom env { app with events := rest } e) := by
  have hturn : app.turn = some e.event := by
    rw [WiFirApp.turn, he]
    rfl
  have hpopped : WiFirApp.scene { app with events := rest } = app.scene := rfl
  have hcarried := carried_leaves env
  by_cases hconfirm : app.scene = some .confirm
  · rw [handleCustom, hpopped, hconfirm]
    by_cases hevent : e.event = .deleteConfirmed
    · refine .deletes hconfirm (hturn.trans (congrArg some hevent)) ?_
      rw [hevent]
      exact hcarried.previous { { app with
        events := rest
        card := (wfrStorageDelete env.removes app.card app.selectedSavedFile.bytes).2 }.call
          (.delete app.selectedSavedFile.bytes) with selectedSavedFile := .empty _ }
    · exact .nothing (hcarried.confirmOnEvent { app with events := rest } hevent)
  by_cases htransmit : app.scene = some .transmit
  · rw [handleCustom, hpopped, htransmit]
    by_cases hevent : e.event = .txFinished
    · simp only [hevent]
      exact stores_txFinished env he hevent htransmit
    · exact .nothing (leaves_transmitOnEvent env { app with events := rest } e.source hevent)
  · exact .nothing (hcarried.elsewhere { app with events := rest } e hconfirm htransmit)

theorem stores_of_step (hstep : step app i = some app') : Stores app i app' := by
  rw [step] at hstep
  split at hstep
  · cases hstep
  cases i with
  | custom env =>
    simp only [perform] at hstep
    split at hstep
    · rename_i e rest he
      cases hstep
      exact stores_custom env he
    · cases hstep
  | back env =>
    cases hstep
    exact .nothing ((carried_leaves env).back app)
  | tick env =>
    cases hstep
    exact .nothing ((carried_leaves env).tick app)
  | menuOk _ | dialogKey _ =>
    simp only [perform, Option.ite_none_right_eq_some, Option.map_eq_some_iff] at hstep
    obtain ⟨-, event, -, rfl⟩ := hstep
    exact .nothing (.refl _ _)
  | listOk _ | confirmKey _ | statusKey _ | textDone _ | itemOk | signal _ _ | timeout _
  | securityChange _ | hiddenChange _ =>
    simp only [perform, Option.ite_none_right_eq_some, Option.some.injEq] at hstep
    obtain ⟨-, rfl⟩ := hstep
    exact .nothing (.refl _ _)
  | protocolChange _ | ackChange _ =>
    simp only [perform, Option.ite_none_right_eq_some, Option.some.injEq] at hstep
    obtain ⟨-, rfl⟩ := hstep
    exact .changes rfl rfl rfl rfl
  | txProgress _ _ | txDone _ | txCheck | txPost =>
    rw [perform] at hstep
    obtain ⟨t, -, -, rfl⟩ := txStep_eq hstep
    exact .nothing (.refl _ _)
  | nfcRead fuel tag =>
    simp only [perform] at hstep
    split at hstep
    · split at hstep
      · cases hstep
        exact .nothing (.refl _ _)
      · cases hstep
    · cases hstep

end Steps

/-! ## Apart from the settings -/

/-- A name with the extension does not name the settings file, and neither does what fits of it into a
slot. -/
theorem filePath_ne_settings {card : Card} {name : Bytes} {n : SavedNetwork} (hnul : 0 ∉ name)
    (h : listEntry card name = some n) :
    filePath (CString.ofBytes (wfrFilenameMax - 1) n.filename).bytes ≠ wfrSettingsFile := by
  have hslot : n.filename = name.take 63 ∧ name.drop (name.length - 5) = wfrSaveExt := by
    simp only [listEntry] at h
    split at h
    · cases h
    · split at h
      · cases h
      · rename_i hext
        split at h
        · cases h
          exact ⟨rfl, not_not.mp hext⟩
        · cases h
  obtain ⟨hfile, hext⟩ := hslot
  have hbytes : (CString.ofBytes (wfrFilenameMax - 1) n.filename).bytes = name.take 63 := by
    rw [hfile]
    exact CString.ofBytes_bytes (fun hz => hnul (List.mem_of_mem_take hz)) (List.length_take_le _ _)
  rw [hbytes, filePath_eq ((List.length_take_le _ _).trans (by decide))]
  intro he
  have hcut : name.take 63 = ascii "settings.cfg" := by
    have hpath : wfrSaveDir ++ ascii "/" ++ name.take 63 =
        wfrSaveDir ++ ascii "/" ++ ascii "settings.cfg" := he
    exact List.append_cancel_left hpath
  have hshort : name.length = 12 := by
    have hlen := congrArg List.length hcut
    have htwelve : (ascii "settings.cfg").length = 12 := by decide
    rw [List.length_take, htwelve] at hlen
    omega
  rw [← List.take_of_length_le (i := 63) (l := name) (by omega), hcut] at hext
  exact absurd hext (by decide)

/-- Neither the selected file nor one of the list is the settings file. -/
structure Apart (app : WiFirApp) : Prop where
  selected : filePath app.selectedSavedFile.bytes ≠ wfrSettingsFile
  listed : ∀ n ∈ app.savedNetworks,
    filePath (CString.ofBytes (wfrFilenameMax - 1) n.filename).bytes ≠ wfrSettingsFile

section Apart
variable {app app' : WiFirApp} {i : Input} {d : Desk}

theorem filePath_empty_ne : filePath (CString.empty (wfrFilenameMax - 1)).bytes ≠ wfrSettingsFile := by
  decide

theorem Apart.change (h : Apart app) (hc : Change app i d) : filePath d.file.bytes ≠ wfrSettingsFile := by
  cases hc with
  | stays | security | hidden | scans => exact h.selected
  | goes | ssid | password =>
    rw [(Desk.keeps_next _).file]
    exact h.selected
  | entered | scanned =>
    rw [(Desk.keeps_next _).file]
    exact filePath_empty_ne
  | @loaded env o hcur hturn hload =>
    rw [(Desk.keeps_next _).file]
    simp only [WiFirApp.selected] at hload
    split at hload
    · cases hload
    · rename_i network hnetwork
      split at hload
      · cases hload
        exact h.listed network (List.mem_of_getElem? hnetwork)
      · cases hload
  | previous =>
    rw [Desk.keeps_previous.file]
    exact h.selected
  | deletes =>
    rw [Desk.keeps_previous.file]
    exact filePath_empty_ne
  | home =>
    rw [Desk.keeps_home.file]
    exact h.selected

theorem Leaves.apart {names : List Bytes} {b b' : Shelf} (hleft : Leaves names b b')
    (hlisted : ∀ n ∈ b.networks,
      filePath (CString.ofBytes (wfrFilenameMax - 1) n.filename).bytes ≠ wfrSettingsFile)
    (hnames : ∀ name ∈ names, 0 ∉ name) :
    ∀ n ∈ b'.networks,
      filePath (CString.ofBytes (wfrFilenameMax - 1) n.filename).bytes ≠ wfrSettingsFile := by
  intro n hn
  rcases hleft.lists with ⟨hsame, -⟩ | ⟨⟨card, hanew⟩, -⟩
  · rw [hsame] at hn
    exact hlisted n hn
  · rw [hanew] at hn
    obtain ⟨name, hname, hentry⟩ := List.mem_filterMap.mp (List.mem_of_mem_take hn)
    exact filePath_ne_settings (hnames name hname) hentry

theorem Apart.step (h : Apart app) (hnames : ∀ name ∈ i.names, 0 ∉ name)
    (hstep : Gui.step app i = some app') : Apart app' := by
  refine ⟨h.change (change_of_step hstep), ?_⟩
  cases stores_of_step hstep with
  | nothing hleft => exact hleft.apart h.listed hnames
  | changes _ _ hnetworks =>
    rw [hnetworks]
    exact h.listed
  | deletes _ _ hleft => exact hleft.apart h.listed hnames
  | saves _ _ _ _ _ hleft => exact hleft.apart h.listed hnames

end Apart

/-! ## Every run -/

def DeviceInput.names : DeviceInput → List Bytes
  | .input i _ => i.names
  | .start => []

/-- The names that the directory gives are C strings. -/
def CleanNames (_ : Watched) (d : DeviceInput) : Prop := ∀ name ∈ d.names, 0 ∉ name

instance CleanNames.decidable (s : Watched) (d : DeviceInput) : Decidable (CleanNames s d) :=
  inferInstanceAs (Decidable (∀ name ∈ d.names, 0 ∉ name))

/-- Whenever the settings are saved, every operation on their file succeeds. -/
def DeviceInput.WritesAll : DeviceInput → Prop
  | .input i writes => i.isSettingsChange = true → ∀ k < 4, writes k = true
  | .start => True

instance DeviceInput.WritesAll.decidable (d : DeviceInput) : Decidable d.WritesAll :=
  match d with
  | .input i writes => inferInstanceAs (Decidable (i.isSettingsChange = true → ∀ k < 4, writes k = true))
  | .start => isTrue trivial

/-- What the next start loads behind an input, as what it loaded before. -/
def storedAfter (app' : WiFirApp) (stored : Settings) : DeviceInput → Settings
  | .input i writes =>
    if i.isSettingsChange = true ∧ writes 0 = true then partlySet app'.settings (writesDone writes 1 3)
    else stored
  | .start => stored

section Runs
variable {app app' : WiFirApp} {i : Input} {o : Option Origin} {ok : ℕ → Bool}

theorem card_of_change (hi : i.isSettingsChange = true) (hstep : step app i = some app') :
    app'.card = app.card := by
  cases stores_of_step hstep with
  | nothing hleft => exact hleft.card
  | changes _ hcard => exact hcard
  | deletes | saves => cases hi

theorem wfrStorageSave_of_ne (ok : ℕ → Bool) (card : Card) (creds : WfrWifiCreds) {path : Bytes}
    (hne : path ≠ savePath creds.ssid.bytes) : (wfrStorageSave ok card creds).2 path = card path := by
  by_cases hfail : creds.ssid.bytes = [] ∨ ok 0 = false
  · rw [wfrStorageSave_untouched card hfail]
  · rw [not_or, Bool.not_eq_false] at hfail
    rw [wfrStorageSave_eq ok card hfail.1 hfail.2]
    exact Function.update_of_ne hne _ _

theorem wfrStorageDelete_of_ne (ok : Bool) (card : Card) {name path : Bytes}
    (hne : path ≠ filePath name) : (wfrStorageDelete ok card name).2 path = card path := by
  rw [wfrStorageDelete]
  split
  · exact Function.update_of_ne hne _ _
  · rfl

/-- Only a change of the settings touches them. -/
theorem storedSettings_step (h : Apart app) (hi : i.isSettingsChange = false)
    (hstep : step app i = some app') :
    storedSettings app'.card = storedSettings app.card ∧ app'.settings = app.settings := by
  cases stores_of_step hstep with
  | nothing hleft => exact ⟨congrArg storedSettings hleft.card, hleft.settings⟩
  | changes hc =>
    rw [hi] at hc
    cases hc
  | @deletes env _ _ _ hleft =>
    refine ⟨storedSettings_congr ?_, hleft.settings⟩
    have hcard : app'.card = _ := hleft.card
    rw [hcard]
    exact wfrStorageDelete_of_ne env.removes app.card h.selected.symm
  | @saves env _ _ _ _ _ _ hleft =>
    refine ⟨storedSettings_congr ?_, hleft.settings⟩
    have hcard : app'.card = _ := hleft.card
    rw [hcard]
    exact wfrStorageSave_of_ne env.writes app.card _ (savePath_ne_settings _).symm

theorem apart_started (card : Card) : Apart (started card) := ⟨filePath_empty_ne, fun _ hn => by cases hn⟩

theorem Apart.saves (h : Apart app) (ok : ℕ → Bool) : Apart (wiFirSceneSettingsSave ok app) :=
  ⟨h.selected, h.listed⟩

theorem Apart.deviceStep {d : DeviceInput} {s' : Watched} (h : Apart app)
    (hnames : CleanNames (app, o) d) (hstep : Gui.deviceStep (app, o) d = some s') : Apart s'.1 := by
  cases d with
  | input i writes =>
    obtain ⟨app', happ, rfl⟩ := deviceStep_input hstep
    have hnext := h.step hnames happ
    dsimp only
    split
    · exact hnext.saves writes
    · exact hnext
  | start =>
    cases hstep
    exact apart_started _

theorem apart_of_reach {card : Card} {guard : Watched → DeviceInput → Prop}
    (hclean : ∀ s d, guard s d → CleanNames s d)
    (h : Reach Gui.deviceStep guard (started card, none) (app, o)) : Apart app := by
  have hkeep : ∀ s d s', Apart (Prod.fst s) → guard s d → Gui.deviceStep s d = some s' →
      Apart s'.1 := by
    intro s d s' hs hguard hstep
    exact hs.deviceStep (hclean s d hguard) hstep
  have hstart : Apart (Prod.fst (started card, (none : Option Origin))) := apart_started card
  exact h.invariant hstart hkeep

end Runs

/-- In every run, with the application cut off and started again at any time, a step leaves the card
alone, saves the settings, deletes the selected file from the confirm scene, or saves, behind a TX that
has put out all their messages, the credentials that the confirm screen has last shown. -/
theorem card_changes (card : Card) (app : WiFirApp) (o : Option Origin)
    (h : Reach deviceStep (fun _ _ => True) (started card, none) (app, o)) (d : DeviceInput)
    (app' : WiFirApp) (o' : Option Origin) (hstep : deviceStep (app, o) d = some (app', o')) :
    app'.card = app.card ∨
    (∃ i writes, d = .input i writes ∧ i.isSettingsChange = true ∧
      app'.card = (wfrStorageSaveSettings writes app.card app'.settings).2) ∨
    (∃ env writes, d = .input (.custom env) writes ∧ app.scene = some .confirm ∧
      app.turn = some .deleteConfirmed ∧
      app'.card = (wfrStorageDelete env.removes app.card app.selectedSavedFile.bytes).2) ∨
    ∃ env writes aired, d = .input (.custom env) writes ∧ app.scene = some .transmit ∧
      app.turn = some .txFinished ∧ Shown app.desk o ∧
      Call.save (workingCreds app) aired ∈ app'.radio.calls ∧ WholeSend (workingCreds app) aired ∧
      app'.card = (wfrStorageSave env.writes app.card (workingCreds app)).2 := by
  obtain ⟨-, hshown, hcreds, hsent⟩ := honest_of_reach h
  cases d with
  | start =>
    cases hstep
    exact .inl rfl
  | input i writes =>
    obtain ⟨app₁, happ, he⟩ := deviceStep_input hstep
    rw [Prod.mk.injEq] at he
    by_cases hi : i.isSettingsChange = true
    · rw [if_pos hi] at he
      refine .inr (.inl ⟨i, writes, rfl, hi, ?_⟩)
      rw [he.1, ← card_of_change hi happ]
      rfl
    · rw [if_neg hi] at he
      obtain rfl := he.1
      cases stores_of_step happ with
      | nothing hleft => exact .inl hleft.card
      | changes hc => exact absurd hc hi
      | deletes hscene hturn hleft =>
        exact .inr (.inr (.inl ⟨_, writes, rfl, hscene, hturn, hleft.card⟩))
      | saves hscene hturn aired hcall hwhole hleft =>
        have hcard := hleft.card
        rw [hcreds hscene] at hcall hwhole hcard
        exact .inr (.inr (.inr ⟨_, writes, aired, rfl, hscene, hturn, hshown hscene, hcall, hwhole hsent,
          hcard⟩))

/-- The send of the saved network is over. -/
theorem card_changes_saved :
    ∃ app app' o o', Reach deviceStep (fun _ _ => True) (started dockCard, none) (app, o) ∧
      deviceStep (app, o) (.input handle (fun _ => true)) = some (app', o') ∧
      app.turn = some .txFinished ∧
      (app'.card = app.card ∨
      (∃ i writes, DeviceInput.input handle (fun _ => true) = .input i writes ∧ i.isSettingsChange = true ∧
        app'.card = (wfrStorageSaveSettings writes app.card app'.settings).2) ∨
      (∃ env writes, DeviceInput.input handle (fun _ => true) = .input (.custom env) writes ∧
        app.scene = some .confirm ∧ app.turn = some .deleteConfirmed ∧
        app'.card = (wfrStorageDelete env.removes app.card app.selectedSavedFile.bytes).2) ∨
      ∃ env writes aired, DeviceInput.input handle (fun _ => true) = .input (.custom env) writes ∧
        app.scene = some .transmit ∧ app.turn = some .txFinished ∧ Shown app.desk o ∧
        Call.save (workingCreds app) aired ∈ app'.radio.calls ∧ WholeSend (workingCreds app) aired ∧
        app'.card = (wfrStorageSave env.writes app.card (workingCreds app)).2) := by
  have hrun : (runAll (fun s d => if True then deviceStep s d else none) (started dockCard, none)
      (written ([.menuOk 2, handle, .listOk 0, handle, .confirmKey .right, handle] ++ wholeTx))).map
        (fun s => decide (s.1.turn = some .txFinished ∧
          (deviceStep s (.input handle (fun _ => true))).isSome = true)) = some true := by
    decide +kernel
  obtain ⟨⟨app, o⟩, happ, hover⟩ := Option.map_eq_some_iff.mp hrun
  rw [decide_eq_true_eq] at hover
  obtain ⟨⟨app', o'⟩, hstep⟩ := Option.isSome_iff_exists.mp hover.2
  have hreach := Reach.of_runAll happ
  exact ⟨app, app', o, o', hreach, hstep, hover.1,
    card_changes dockCard app o hreach _ app' o' hstep⟩

/-- What the next start loads changes with the settings only, and these leave every saved network
alone. -/
theorem settings_kept (card : Card) (app : WiFirApp) (o : Option Origin)
    (h : Reach deviceStep CleanNames (started card, none) (app, o)) (d : DeviceInput)
    (app' : WiFirApp) (o' : Option Origin) (hstep : deviceStep (app, o) d = some (app', o')) :
    (started app'.card).settings = storedAfter app' (started app.card).settings d ∧
      ∀ i writes, d = .input i writes → i.isSettingsChange = true → ∀ ssid,
        wfrStorageLoad app'.card (savePath ssid) = wfrStorageLoad app.card (savePath ssid) := by
  have hapart := apart_of_reach (fun _ _ hclean => hclean) h
  change storedSettings app'.card = storedAfter app' (storedSettings app.card) d ∧ _
  cases d with
  | start =>
    cases hstep
    exact ⟨rfl, fun i writes hd => by cases hd⟩
  | input i writes =>
    obtain ⟨app₁, happ, he⟩ := deviceStep_input hstep
    rw [Prod.mk.injEq] at he
    by_cases hi : i.isSettingsChange = true
    · rw [if_pos hi] at he
      have hcard : app'.card = (wfrStorageSaveSettings writes app.card app'.settings).2 := by
        rw [he.1, ← card_of_change hi happ]
        rfl
      constructor
      · rw [storedAfter, hcard, storedSettings_save]
        simp only [hi, true_and]
      · intro _ _ _ _ ssid
        apply wfrStorageLoad_congr
        rw [hcard]
        exact wfrStorageSaveSettings_of_ne writes app.card _ (savePath_ne_settings ssid)
    · rw [if_neg hi] at he
      obtain rfl := he.1
      constructor
      · rw [storedAfter, if_neg fun hc => hi hc.1]
        exact (storedSettings_step hapart (by simpa using hi) happ).1
      · intro _ _ hd hc
        cases hd
        exact absurd hc hi

/-- The protocol is changed, and the last line of the file is not written. -/
private def necCut : DeviceInput := .input (.protocolChange .nec) (fun k => k ≠ 3)

theorem settings_kept_cut :
    ∃ app app' o o', Reach deviceStep CleanNames (started dockCard, none) (app, o) ∧
      deviceStep (app, o) necCut = some (app', o') ∧ app'.settings = ⟨true, .nec⟩ ∧
      (started app'.card).settings = ⟨true, .rc6⟩ ∧
      wfrStorageLoad app'.card (savePath (ascii "dock")) =
        wfrStorageLoad app.card (savePath (ascii "dock")) := by
  have hrun : (runAll (fun s d => if CleanNames s d then deviceStep s d else none)
      (started dockCard, none) (written [.menuOk 3, handle, .ackChange true])).map (fun s =>
        (deviceStep s necCut).map (fun s' => s'.1.settings)) = some (some ⟨true, .nec⟩) := by
    decide +kernel
  obtain ⟨⟨app, o⟩, happ, hnext⟩ := Option.map_eq_some_iff.mp hrun
  obtain ⟨⟨app', o'⟩, hstep, hset⟩ := Option.map_eq_some_iff.mp hnext
  have hreach := Reach.of_runAll happ
  obtain ⟨hstored, hload⟩ := settings_kept dockCard app o hreach necCut app' o' hstep
  refine ⟨app, app', o, o', hreach, hstep, hset, ?_, hload _ _ rfl rfl _⟩
  rw [hstored]
  dsimp only at hset
  simp only [storedAfter, necCut, hset]
  exact (if_pos (by decide)).trans rfl

/-- While every operation on the settings file succeeds, a start at any time brings the application up
with the settings it has. -/
theorem settings_survive (card : Card) (app : WiFirApp) (o : Option Origin)
    (h : Reach deviceStep (fun s d => CleanNames s d ∧ d.WritesAll) (started card, none) (app, o)) :
    (started app.card).settings = app.settings := by
  have hkeep : ∀ s d s', (Apart (Prod.fst s) ∧ storedSettings s.1.card = s.1.settings) →
      (CleanNames s d ∧ d.WritesAll) → deviceStep s d = some s' →
      Apart s'.1 ∧ storedSettings s'.1.card = s'.1.settings := by
    rintro ⟨app, o⟩ d s' ⟨hapart, hstored⟩ ⟨hnames, hwrites⟩ hstep
    refine ⟨hapart.deviceStep hnames hstep, ?_⟩
    cases d with
    | start =>
      cases hstep
      rfl
    | input i writes =>
      obtain ⟨app', happ, rfl⟩ := deviceStep_input hstep
      by_cases hi : i.isSettingsChange = true
      · have hall : ∀ k < 4, writes k = true := hwrites hi
        have hdone : writesDone writes 1 3 = 3 := writesDone_of_all fun k _ hk => hall k hk
        rw [if_pos hi]
        change storedSettings (wfrStorageSaveSettings writes app'.card app'.settings).2 = app'.settings
        rw [storedSettings_save, if_pos (hall 0 (by decide)), hdone]
        rfl
      · obtain ⟨hkept, hsame⟩ := storedSettings_step hapart (by simpa using hi) happ
        rw [if_neg hi, hkept, hsame]
        exact hstored
  have hstart : Apart (started card) ∧ storedSettings (started card).card = (started card).settings :=
    ⟨apart_started card, rfl⟩
  have hkept : Apart (Prod.fst (app, o)) ∧
      storedSettings (Prod.fst (app, o)).card = (Prod.fst (app, o)).settings := h.invariant hstart hkeep
  exact hkept.2

theorem settings_survive_nec :
    ∃ app o, Reach deviceStep (fun s d => CleanNames s d ∧ d.WritesAll) (started dockCard, none) (app, o) ∧
      app.settings = ⟨true, .nec⟩ ∧ (started app.card).settings = app.settings := by
  have hrun : (runAll (fun s d => if CleanNames s d ∧ d.WritesAll then deviceStep s d else none)
      (started dockCard, none) (written [.menuOk 3, handle, .ackChange true] ++
        .start :: written [.menuOk 3, handle, .protocolChange .nec])).map (fun s => s.1.settings) =
      some ⟨true, .nec⟩ := by decide +kernel
  obtain ⟨⟨app, o⟩, happ, hset⟩ := Option.map_eq_some_iff.mp hrun
  have hreach := Reach.of_runAll happ
  exact ⟨app, o, hreach, hset, settings_survive dockCard app o hreach⟩

end InfraFi.Flipper.Gui
