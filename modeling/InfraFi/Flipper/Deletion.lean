import InfraFi.Flipper.Navigation
import InfraFi.Flipper.Resources

/-! # What is deleted

The confirm screen is reached from the security editor, from a tag and from the
list of saved networks. Only the last leaves a file name behind that can be
deleted. Keys of the delete dialog that are still queued are handled in
whatever scene is current by then.
-/
namespace InfraFi.Flipper.Gui
open Base Protocol

/-- The file that the working set was last taken from, and what was in it; `none` once some of it
came from elsewhere. -/
def originAfter (app : WiFirApp) (i : Input) (o : Option Origin) : Option Origin :=
  match i with
  | .securityChange _ | .hiddenChange _ => none
  | .custom _ =>
    match app.scene, app.turn with
    | some .editSsid, some .textInputDone | some .editPassword, some .textInputDone
    | some .scanNfc, some .nfcWifiFound => none
    | some .saved, some .savedSelected => app.selected <|> o
    | _, _ => o
  | _ => o

/-- The application with the origin of its working set. -/
abbrev Watched := WiFirApp × Option Origin

def watchedStep (s : Watched) (i : Input) : Option Watched :=
  (step s.1 i).map (fun app => (app, originAfter s.1 i s.2))

/-- DeleteConfirmed is handled in the confirm scene only when a file is selected. -/
def NamesFile (app : WiFirApp) : Input → Prop
  | .custom _ => app.scene = some .confirm → app.turn = some .deleteConfirmed →
    app.selectedSavedFile.bytes ≠ []
  | _ => True

instance NamesFile.decidable (app : WiFirApp) (i : Input) : Decidable (NamesFile app i) :=
  decidable_of_iff (i.isCustom = true → app.scene = some .confirm → app.turn = some .deleteConfirmed →
    app.selectedSavedFile.bytes ≠ []) (by
    cases i <;> simp [NamesFile, Input.isCustom])

/-- The step deletes nothing, or the file that the credentials on screen came from. -/
def DeletesShown (s : Watched) (app' : WiFirApp) : Prop :=
  app'.desk.deleted = s.1.desk.deleted ∨
    s.1.scene = some .confirm ∧ s.1.selectedSavedFile.bytes ≠ [] ∧
      s.2 = some ⟨s.1.selectedSavedFile, workingCreds s.1⟩ ∧
      app'.desk.deleted = s.1.desk.deleted ++ [s.1.selectedSavedFile.bytes]

/-! ## The stack and the confirm screen -/

/-- The stack is a way through the scenes, and the confirm screen shows credentials without a file
or those of the selected file. -/
structure Watch (d : Desk) (o : Option Origin) : Prop where
  way : d.stack.IsChain (fun top below => top ∈ successors below)
  items : d.items = .security → d.stack.head? = some .editSecurity
  shown : d.stack.head? = some .confirm →
    d.confirm = d.shown ∧ (d.file.bytes = [] ∨ o = some ⟨d.file, d.creds⟩)

namespace Desk
variable {d : Desk} {s : WiFirScene}

@[simp] theorem enter_stack : (d.enter s).stack = d.stack := by
  cases s <;> rfl

@[simp] theorem leave_stack : (d.leave s).stack = d.stack := by
  cases s <;> rfl

theorem next_eq {cur : WiFirScene} {below : List WiFirScene} (h : d.stack = cur :: below) :
    d.next s = { d.leave cur with stack := s :: cur :: below }.enter s := by
  simp only [next, h, leave_stack]

/-- The items of the security editor go with its scene. -/
theorem leave_items {cur : WiFirScene} (h : d.items = .security → cur = .editSecurity) :
    (d.leave cur).items ≠ .security := by
  cases cur with
  | editSecurity => exact fun hc => Items.noConfusion hc
  | settings => exact fun hc => Items.noConfusion hc
  | _ => exact fun hc => WiFirScene.noConfusion (h hc)

theorem enter_items (h : d.items ≠ .security) (he : (d.enter s).items = .security) :
    s = .editSecurity := by
  cases s with
  | editSecurity => rfl
  | settings => cases he
  | _ => exact absurd he h

end Desk

section Moves
variable {d : Desk} {o : Option Origin}

theorem watch_next {cur next : WiFirScene} (hcur : d.stack.head? = some cur)
    (hway : d.stack.IsChain (fun top below => top ∈ successors below))
    (hitems : d.items = .security → d.stack.head? = some .editSecurity)
    (hnext : next ∈ successors cur)
    (hfile : next = .confirm → d.file.bytes = [] ∨ o = some ⟨d.file, d.creds⟩) :
    Watch (d.next next) o := by
  obtain ⟨below, hstack⟩ := List.head?_eq_some_iff.mp hcur
  rw [hcur, Option.some.injEq] at hitems
  rw [hstack] at hway
  have hleft : ({ d.leave cur with stack := next :: cur :: below } : Desk).items ≠ .security :=
    Desk.leave_items hitems
  rw [Desk.next_eq hstack]
  constructor
  · rw [Desk.enter_stack]
    exact .cons_cons hnext hway
  · intro hi
    rw [Desk.enter_stack]
    exact congrArg some (Desk.enter_items hleft hi)
  · intro hc
    rw [Desk.enter_stack] at hc
    obtain rfl : next = .confirm := Option.some.inj hc
    have hkeep := Desk.keeps_leave (d := d) cur
    refine ⟨rfl, ?_⟩
    change (d.leave cur).file.bytes = [] ∨ o = some ⟨(d.leave cur).file, (d.leave cur).creds⟩
    rw [hkeep.file, hkeep.creds]
    exact hfile rfl

/-- Only the transmit scene is above the confirm scene. -/
theorem watch_previous (hway : d.stack.IsChain (fun top below => top ∈ successors below))
    (hitems : d.items = .security → d.stack.head? = some .editSecurity)
    (hcur : d.stack.head? ≠ some .transmit) : Watch d.previous o := by
  rcases hstack : d.stack with _ | ⟨cur, _ | ⟨prev, rest⟩⟩
  · have hsame : d.previous = d := by simp only [Desk.previous, hstack]
    rw [hsame]
    exact ⟨hway, hitems, fun hc => by simp [hstack] at hc⟩
  · have hend : d.previous = { d with stack := [] }.leave cur := by simp only [Desk.previous, hstack]
    rw [hstack, List.head?_cons, Option.some.injEq] at hitems
    rw [hend]
    refine ⟨by simp, fun hi => ?_, fun hc => by simp at hc⟩
    exact absurd hi (Desk.leave_items hitems)
  · have hback : d.previous = ({ d with stack := prev :: rest }.leave cur).enter prev := by
      simp only [Desk.previous, hstack]
    rw [hstack, List.head?_cons, Option.some.injEq] at hitems
    rw [hstack, List.head?_cons, Ne, Option.some.injEq] at hcur
    rw [hstack, List.isChain_cons_cons] at hway
    have hleft : ({ d with stack := prev :: rest }.leave cur).items ≠ .security :=
      Desk.leave_items hitems
    rw [hback]
    refine ⟨by simpa using hway.2, fun hi => ?_, fun hc => ?_⟩
    · rw [Desk.enter_stack, Desk.leave_stack]
      exact congrArg some (Desk.enter_items hleft hi)
    · rw [Desk.enter_stack, Desk.leave_stack, List.head?_cons, Option.some.injEq] at hc
      rw [hc] at hway
      exact absurd (List.mem_singleton.mp hway.1) hcur

theorem Watch.home (h : Watch d o) : Watch d.home o := by
  obtain ⟨hway, hitems, -⟩ := id h
  cases hstack : d.stack with
  | nil =>
    have hsame : d.home = d := by simp only [Desk.home, hstack]
    rw [hsame]
    exact h
  | cons cur below =>
    rw [hstack] at hway hitems
    rw [List.head?_cons, Option.some.injEq] at hitems
    cases hfound : below.dropWhile (· ≠ .mainMenu) with
    | nil =>
      have hsame : d.home = d := by simp only [Desk.home, hstack, hfound]
      rw [hsame]
      exact h
    | cons top rest =>
      have hback : d.home = ({ d with stack := top :: rest }.leave cur).enter .mainMenu := by
        simp only [Desk.home, hstack, hfound]
      have hsuffix : top :: rest <:+ cur :: below :=
        (hfound ▸ List.dropWhile_suffix _).trans (List.suffix_cons cur below)
      have htop : top = .mainMenu := by
        have hnot := List.head?_dropWhile_not (fun s => decide (s ≠ WiFirScene.mainMenu)) below
        rw [hfound] at hnot
        simpa using hnot
      have hleft : ({ d with stack := top :: rest }.leave cur).items ≠ .security :=
        Desk.leave_items hitems
      rw [hback]
      refine ⟨by simpa using hway.suffix hsuffix, fun hi => ?_, fun hc => ?_⟩
      · exact absurd (Desk.enter_items hleft hi) (by decide)
      · rw [Desk.enter_stack, Desk.leave_stack, List.head?_cons, htop] at hc
        cases hc

end Moves

/-! ## Every step -/

section Steps
variable {app app' : WiFirApp} {i : Input} {o : Option Origin}

/-- In the confirm scene the working set is not touched. -/
theorem originAfter_confirm (hi : i.isItemChange = false) (hscene : app.scene = some .confirm) :
    originAfter app i o = o := by
  cases i with
  | securityChange _ | hiddenChange _ => cases hi
  | custom env => simp only [originAfter, hscene]
  | _ => rfl

theorem Watch.same {o' : Option Origin} {d : Desk} (h : Watch d o)
    (ho : d.stack.head? = some .confirm → o' = o) : Watch d o' := by
  refine ⟨h.way, h.items, fun hc => ?_⟩
  rw [ho hc]
  exact h.shown hc

theorem Watch.change {d : Desk} (h : Watch app.desk o) (hc : Change app i d) :
    Watch d (originAfter app i o) := by
  cases hc with
  | stays hi => exact h.same (originAfter_confirm hi)
  | goes hcur hnext hne => exact watch_next hcur h.way h.items hnext fun he => absurd he hne
  | ssid hcur => exact watch_next hcur h.way h.items (by decide) fun he => by cases he
  | password hcur => exact watch_next hcur h.way h.items (by decide) fun he => by cases he
  | entered hcur => exact watch_next hcur h.way h.items (by decide) fun _ => .inl rfl
  | scanned hcur => exact watch_next hcur h.way h.items (by decide) fun _ => .inl rfl
  | loaded hcur hturn hload =>
    refine watch_next hcur h.way h.items (by decide) fun _ => .inr ?_
    simp only [originAfter, hcur, hturn, hload]
    rfl
  | previous _ hcur => exact watch_previous h.way h.items hcur
  | deletes hcur =>
    have hleft : app.scene ≠ some .transmit := by
      rw [hcur]
      decide
    exact watch_previous h.way h.items hleft
  | home hi => exact (h.same (originAfter_confirm hi)).home
  | security _ hitems | hidden _ hitems =>
    refine ⟨h.way, h.items, fun hc => ?_⟩
    have hhead := h.items hitems
    cases hhead.symm.trans hc
  | scans => exact ⟨h.way, h.items, h.shown⟩

/-- DeleteConfirmed in the confirm scene deletes the selected file, whatever its name is. -/
theorem deleted_of_confirmed {env : Env} (hscene : app.scene = some .confirm)
    (hturn : app.turn = some .deleteConfirmed) (hstep : step app (.custom env) = some app') :
    app'.desk.deleted = app.desk.deleted ++ [app.selectedSavedFile.bytes] := by
  obtain ⟨⟨event, source⟩, he, hevent⟩ := Option.map_eq_some_iff.mp hturn
  obtain ⟨rest, hevents⟩ := List.head?_eq_some_iff.mp he
  obtain rfl : event = .deleteConfirmed := hevent
  have hpopped : WiFirApp.scene { app with events := rest } = some .confirm := hscene
  rw [step] at hstep
  split at hstep
  · cases hstep
  simp only [perform, hevents, Option.some.injEq] at hstep
  rw [← hstep, handleCustom, hpopped]
  simp only [wiFirSceneConfirmOnEvent]
  rw [desk_previous, Desk.keeps_previous.deleted]
  simp [WiFirApp.desk, WiFirApp.call, Call.deleted?]

/-- Nothing else deletes a file. -/
theorem deleted_of_change {d : Desk} (hc : Change app i d) :
    d.deleted = app.desk.deleted ∨
      app.scene = some .confirm ∧ app.turn = some .deleteConfirmed ∧ (∃ env, i = .custom env) ∧
        d.deleted = app.desk.deleted ++ [app.selectedSavedFile.bytes] := by
  cases hc with
  | stays | security | hidden | scans => exact .inl rfl
  | goes | ssid | password | entered | scanned | loaded => exact .inl (Desk.keeps_next _).deleted
  | previous => exact .inl Desk.keeps_previous.deleted
  | home => exact .inl Desk.keeps_home.deleted
  | @deletes env hcur hturn =>
    exact .inr ⟨hcur, hturn, ⟨env, rfl⟩, Desk.keeps_previous.deleted⟩

end Steps

/-- In every run the confirm screen shows credentials without a file or those that were loaded from
the selected file; a step deletes no other file if and only if it does not confirm a deletion while
no file is selected. -/
theorem deletes_shown_iff (card : Card) (ackEnabled : Bool) (irProtocol : WfrIrProtocol)
    (app : WiFirApp) (o : Option Origin)
    (h : Reach watchedStep (fun _ _ => True) (launched card ackEnabled irProtocol, none) (app, o)) :
    (app.scene = some .confirm → app.confirm = app.desk.shown ∧
      (app.selectedSavedFile.bytes = [] ∨ o = some ⟨app.selectedSavedFile, workingCreds app⟩)) ∧
    ∀ i app', step app i = some app' → (DeletesShown (app, o) app' ↔ NamesFile app i) := by
  have hstart : Watch (launched card ackEnabled irProtocol).desk none := by
    refine ⟨.singleton _, fun hi => ?_, fun hc => ?_⟩
    · cases hi
    · cases hc
  have hkeep : ∀ s i s', Watch (Prod.fst s).desk (Prod.snd s) → True → watchedStep s i = some s' →
      Watch s'.1.desk s'.2 := by
    rintro ⟨app, o⟩ i s' hw - hstep
    obtain ⟨app', happ, rfl⟩ := Option.map_eq_some_iff.mp hstep
    exact hw.change (change_of_step happ)
  have hwatch : Watch (Prod.fst (app, o)).desk (Prod.snd (app, o)) := h.invariant hstart hkeep
  refine ⟨hwatch.shown, fun i app' hstep => ?_⟩
  constructor
  · intro hdel
    cases i with
    | custom env =>
      intro hscene hturn hempty
      have hgrown := deleted_of_confirmed hscene hturn hstep
      rcases hdel with hsame | ⟨-, hne, -⟩
      · simp [hgrown] at hsame
      · exact hne hempty
    | _ => trivial
  · intro hnames
    rcases deleted_of_change (change_of_step hstep) with hsame | ⟨hscene, hturn, ⟨env, rfl⟩, hgrown⟩
    · exact .inl hsame
    · have hne := hnames hscene hturn
      exact .inr ⟨hscene, hne, (hwatch.shown hscene).2.resolve_left hne, hgrown⟩

/-- A saved network is selected and the dialog answered with Yes. -/
private def confirmedDelete : List Input :=
  [.menuOk 2, handle, .listOk 0, handle, .confirmKey .ok, handle, .dialogKey .right]

theorem deletes_shown_iff_confirmed :
    ∃ app o, Reach watchedStep (fun _ _ => True) (launched dockCard true .rc6, none) (app, o) ∧
      app.turn = some .deleteConfirmed ∧
      (app.scene = some .confirm → app.confirm = app.desk.shown ∧
        (app.selectedSavedFile.bytes = [] ∨ o = some ⟨app.selectedSavedFile, workingCreds app⟩)) ∧
      ∀ i app', step app i = some app' → (DeletesShown (app, o) app' ↔ NamesFile app i) := by
  have hrun : (runAll (fun s i => if True then watchedStep s i else none)
      (launched dockCard true .rc6, none) confirmedDelete).map (fun s =>
        decide (s.1.turn = some .deleteConfirmed)) = some true := by decide +kernel
  obtain ⟨⟨app, o⟩, happ, hturn⟩ := Option.map_eq_some_iff.mp hrun
  rw [decide_eq_true_eq] at hturn
  have hreach := Reach.of_runAll happ
  exact ⟨app, o, hreach, hturn, deletes_shown_iff dockCard true .rc6 app o hreach⟩

/-- Keys that are handled late. Each round queues the keys of the next: a way to the saved network and
its dialog, and behind it a way through the editors, which the answer to the dialog follows. -/
private def lateAnswer : List Input :=
  [.menuOk 0, .menuOk 2, .menuOk 0, handle, .textDone (ascii "cafe"), .back calm, .menuOk 2, handle,
    .listOk 0, .back calm] ++
  [.menuOk 0, handle, .textDone (ascii "cafe"), handle, .textDone [], .back calm, .back calm, .menuOk 2,
    handle, .listOk 0, handle, .confirmKey .ok, .back calm, .back calm] ++
  [.menuOk 0, handle, .textDone (ascii "cafe"), handle, .textDone [], handle, .itemOk, .back calm,
    .back calm, .back calm, handle, handle, handle, .dialogKey .right, .back calm, .back calm] ++
  [handle, handle, handle, handle]

/-- The answer to the dialog of a saved network is handled when the confirm screen shows credentials
that were entered by hand. -/
theorem deletes_no_file :
    ∃ app app' o, Reach watchedStep (fun _ _ => True) (launched dockCard true .rc6, none) (app, o) ∧
      app.scene = some .confirm ∧ app.selectedSavedFile.bytes = [] ∧ o = none ∧
      step app handle = some app' ∧ app'.desk.deleted = [[]] := by
  have hrun : (runAll (fun s i => if True then watchedStep s i else none)
      (launched dockCard true .rc6, none) lateAnswer).map (fun s =>
        decide (s.1.scene = some .confirm ∧ s.1.selectedSavedFile.bytes = [] ∧ s.2.isNone = true ∧
          (step s.1 handle).map (fun app' => app'.desk.deleted) = some [[]])) = some true := by
    decide +kernel
  obtain ⟨⟨app, o⟩, happ, hlate⟩ := Option.map_eq_some_iff.mp hrun
  rw [decide_eq_true_eq] at hlate
  obtain ⟨hscene, hempty, hnone, hdeleted⟩ := hlate
  obtain ⟨app', hstep, hgrown⟩ := Option.map_eq_some_iff.mp hdeleted
  exact ⟨app, app', o, .of_runAll happ, hscene, hempty, Option.isNone_iff_eq_none.mp hnone, hstep, hgrown⟩

end InfraFi.Flipper.Gui
