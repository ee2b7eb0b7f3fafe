import InfraFi.Base.Cursor
import InfraFi.Flipper.Card

/-! # The list and the menu

Both views hold a few items and a cursor that wraps around. Of the list only
the rows around the cursor are drawn. The indices that they hand over are the
inputs of the application.
-/
namespace InfraFi.Flipper.Gui
open Base Protocol

def wfrListViewMaxItems : ℕ := 20
def wfrMenuViewMaxItems : ℕ := 6
def rowsVisible : ℕ := 4

inductive Key where
  | up
  | down
  | left
  | right
  | ok
  | back
deriving DecidableEq

inductive InputType where
  | press
  | release
  | short
  | long
  | repeated
deriving DecidableEq

structure InputEvent where
  key : Key
  type : InputType
deriving DecidableEq

/-- The step of a cursor on an event, for the step of its key. -/
def InputEvent.step (keyStep : Key → ℤ) (e : InputEvent) : ℤ :=
  if e.type = .short ∨ e.type = .repeated then keyStep e.key else 0

def InputEvent.isOk (e : InputEvent) : Bool := e.type = .short ∧ e.key = .ok

/-- What an input callback comes to: the model, the index that is handed over, whether the event was
consumed. -/
structure Handled (σ : Type) where
  model : σ
  index : Option ℕ
  consumed : Bool

/-! ## The list -/

structure WfrListViewModel where
  title : Option Bytes
  /-- Names and locks, `count` of them. -/
  items : List (CString wfrSsidMaxLen × Bool)
  cursor : Cursor
  count_le : items.length ≤ wfrListViewMaxItems

namespace WfrListViewModel

def reset (title : Option Bytes) : WfrListViewModel := ⟨title, [], ⟨0, 0⟩, Nat.zero_le _⟩

def addItem (m : WfrListViewModel) (item : CString wfrSsidMaxLen × Bool) : WfrListViewModel :=
  if h : m.items.length < wfrListViewMaxItems then
    { m with items := m.items ++ [item], count_le := by simpa using Nat.succ_le_of_lt h }
  else m

def setSelected (m : WfrListViewModel) (index : ℕ) : WfrListViewModel :=
  if index < m.items.length then { m with cursor := .put rowsVisible index } else m

def keyStep : Key → ℤ
  | .up => -1
  | .down => 1
  | _ => 0

def move (m : WfrListViewModel) (step : ℤ) : WfrListViewModel :=
  if step ≠ 0 ∧ m.items ≠ [] then
    { m with cursor := m.cursor.moveTo rowsVisible (wrapStep m.items.length m.cursor.selected step) }
  else m

/-- `wfr_list_view_input`. -/
def input (m : WfrListViewModel) (e : InputEvent) : Handled WfrListViewModel where
  model := m.move (e.step keyStep)
  index := if e.isOk ∧ m.items ≠ [] then some m.cursor.selected else none
  consumed := e.step keyStep ≠ 0 ∨ e.isOk

/-- The rows that are drawn, and whether they are highlighted. -/
def rows (m : WfrListViewModel) : List ((CString wfrSsidMaxLen × Bool) × Bool) :=
  ((m.cursor.window rowsVisible m.items).zipIdx m.cursor.offset).map
    (fun row => (row.1, decide (row.2 = m.cursor.selected)))

def run (m : WfrListViewModel) (events : List InputEvent) : WfrListViewModel :=
  events.foldl (fun m e => (m.input e).model) m

end WfrListViewModel

/-- The list as the saved scene sets it up. -/
def savedListView (networks : List SavedNetwork) (state : ℕ) : WfrListViewModel :=
  ((listItems networks).foldl WfrListViewModel.addItem
    (WfrListViewModel.reset (some (ascii "Saved Networks")))).setSelected state

/-! ## The menu -/

structure WfrMenuViewModel where
  labels : List Bytes
  selected : ℕ
  count_le : labels.length ≤ wfrMenuViewMaxItems

namespace WfrMenuViewModel

def reset : WfrMenuViewModel := ⟨[], 0, Nat.zero_le _⟩

def addItem (m : WfrMenuViewModel) (label : Bytes) : WfrMenuViewModel :=
  if h : m.labels.length < wfrMenuViewMaxItems then
    { m with labels := m.labels ++ [label], count_le := by simpa using Nat.succ_le_of_lt h }
  else m

def setSelected (m : WfrMenuViewModel) (index : ℕ) : WfrMenuViewModel :=
  if index < m.labels.length then { m with selected := index } else m

def keyStep : Key → ℤ
  | .left | .up => -1
  | .right | .down => 1
  | _ => 0

def move (m : WfrMenuViewModel) (step : ℤ) : WfrMenuViewModel :=
  if step ≠ 0 ∧ m.labels ≠ [] then
    { m with selected := wrapStep m.labels.length m.selected step }
  else m

/-- `wfr_menu_view_input`. -/
def input (m : WfrMenuViewModel) (e : InputEvent) : Handled WfrMenuViewModel where
  model := m.move (e.step keyStep)
  index := if e.isOk then some m.selected else none
  consumed := e.step keyStep ≠ 0 ∨ e.isOk

def run (m : WfrMenuViewModel) (events : List InputEvent) : WfrMenuViewModel :=
  events.foldl (fun m e => (m.input e).model) m

end WfrMenuViewModel

/-- The menu as the main menu scene sets it up. -/
def mainMenuView (state : ℕ) : WfrMenuViewModel :=
  ([ascii "Send Credentials", ascii "Scan NFC Tag", ascii "Saved Networks", ascii "Settings",
    ascii "About"].foldl WfrMenuViewModel.addItem WfrMenuViewModel.reset).setSelected state

/-! ## Every run of the list -/

namespace WfrListViewModel
variable {m : WfrListViewModel} {e : InputEvent} {events : List InputEvent}

theorem addItem_items (items : List (CString wfrSsidMaxLen × Bool))
    (h : m.items.length + items.length ≤ wfrListViewMaxItems) :
    (items.foldl addItem m).items = m.items ++ items ∧ (items.foldl addItem m).cursor = m.cursor := by
  induction items generalizing m with
  | nil => exact ⟨(List.append_nil _).symm, rfl⟩
  | cons item items ih =>
    rw [List.length_cons] at h
    have hroom : m.items.length < wfrListViewMaxItems := by omega
    have hadd : (m.addItem item).items = m.items ++ [item] ∧ (m.addItem item).cursor = m.cursor := by
      rw [addItem, dif_pos hroom]
      exact ⟨rfl, rfl⟩
    have hrest := ih (m := m.addItem item) (by
      rw [hadd.1, List.length_append, List.length_singleton]
      omega)
    rw [hadd.1, hadd.2, List.append_assoc, List.singleton_append] at hrest
    exact hrest

@[simp] theorem setSelected_items (m : WfrListViewModel) (index : ℕ) :
    (m.setSelected index).items = m.items := by
  rw [setSelected]
  split <;> rfl

@[simp] theorem input_items (m : WfrListViewModel) (e : InputEvent) :
    (m.input e).model.items = m.items := by
  simp only [input, move]
  split <;> rfl

theorem input_ok (h : m.items ≠ []) : (m.input ⟨.ok, .short⟩).index = some m.cursor.selected :=
  if_pos ⟨rfl, h⟩

/-- The cursor stays in the window, and goes where the step takes it. -/
theorem fits_input (h : m.cursor.Fits rowsVisible m.items.length) (e : InputEvent) :
    (m.input e).model.cursor.Fits rowsVisible m.items.length ∧
      (m.items ≠ [] → (m.input e).model.cursor.selected =
        wrapStep m.items.length m.cursor.selected (e.step keyStep)) := by
  simp only [input, move]
  split
  · rename_i hstep
    have hpos : 0 < m.items.length := List.length_pos_iff.mpr hstep.2
    exact ⟨h.moveTo (by decide) (wrapStep_lt hpos _), fun _ => rfl⟩
  · rename_i hstep
    refine ⟨h, fun hne => ?_⟩
    have hzero : e.step keyStep = 0 := by
      by_contra hne'
      exact hstep ⟨hne', hne⟩
    have hpos : 0 < m.items.length := List.length_pos_iff.mpr hne
    have hin := h.inside
    rw [hzero, wrapStep_zero (by omega)]

theorem run_items (m : WfrListViewModel) (events : List InputEvent) : (m.run events).items = m.items := by
  induction events generalizing m with
  | nil => rfl
  | cons e events ih => exact (ih _).trans (input_items m e)

theorem fits_run (h : m.cursor.Fits rowsVisible m.items.length) (events : List InputEvent) :
    (m.run events).cursor.Fits rowsVisible m.items.length ∧
      (m.items ≠ [] → (m.run events).cursor.selected =
        (events.map (InputEvent.step keyStep)).foldl (wrapStep m.items.length) m.cursor.selected) := by
  induction events generalizing m with
  | nil => exact ⟨h, fun _ => rfl⟩
  | cons e events ih =>
    obtain ⟨hfits, hselected⟩ := fits_input h e
    have hrest := ih (m := (m.input e).model) (by rwa [input_items])
    rw [input_items] at hrest
    refine ⟨hrest.1, fun hne => ?_⟩
    rw [List.map_cons, List.foldl_cons, ← hselected hne]
    exact hrest.2 hne

/-- A window that fits is drawn in full, and exactly the row of the cursor is highlighted. -/
theorem rows_of_fits (h : m.cursor.Fits rowsVisible m.items.length) :
    m.rows.length = min rowsVisible m.items.length ∧
      ∀ r item, m.rows[r]? = some (item, true) ↔
        r = m.cursor.selected - m.cursor.offset ∧ m.items[m.cursor.selected]? = some item := by
  have hlen := h.window_length
  obtain ⟨-, htop, hbottom, -⟩ := h
  refine ⟨by rw [rows, List.length_map, List.length_zipIdx, hlen], fun r item => ?_⟩
  rw [rows, List.getElem?_map, List.getElem?_zipIdx, Option.map_map, Option.map_eq_some_iff]
  simp only [Function.comp_apply, Prod.mk.injEq, decide_eq_true_eq]
  constructor
  · rintro ⟨item, hitem, rfl, hrow⟩
    rw [Cursor.window_getElem? _ (by omega), hrow] at hitem
    exact ⟨by omega, hitem⟩
  · rintro ⟨rfl, hitem⟩
    have hrow : m.cursor.offset + (m.cursor.selected - m.cursor.offset) = m.cursor.selected := by omega
    refine ⟨item, ?_, rfl, hrow⟩
    rw [Cursor.window_getElem? _ (by omega), hrow]
    exact hitem

end WfrListViewModel

section SavedList
variable {networks : List SavedNetwork} {state : ℕ}

theorem savedListView_items (h : networks.length ≤ wfrSavedMax) (state : ℕ) :
    (savedListView networks state).items = listItems networks := by
  have hroom : (listItems networks).length ≤ wfrListViewMaxItems := by
    rw [listItems, List.length_map]
    exact h
  rw [savedListView, WfrListViewModel.setSelected_items,
    (WfrListViewModel.addItem_items (listItems networks) (by rwa [WfrListViewModel.reset, List.length_nil,
      Nat.zero_add])).1]
  rfl

theorem savedListView_cursor (h : networks.length ≤ wfrSavedMax) (state : ℕ) :
    (savedListView networks state).cursor.Fits rowsVisible networks.length ∧
      (savedListView networks state).cursor.selected = if state < networks.length then state else 0 := by
  have hroom : (listItems networks).length ≤ wfrListViewMaxItems := by
    rw [listItems, List.length_map]
    exact h
  obtain ⟨hitems, hcursor⟩ := WfrListViewModel.addItem_items (m := .reset (some (ascii "Saved Networks")))
    (listItems networks) (by rwa [WfrListViewModel.reset, List.length_nil, Nat.zero_add])
  have hlen : ((listItems networks).foldl WfrListViewModel.addItem
      (.reset (some (ascii "Saved Networks")))).items.length = networks.length := by
    rw [hitems, WfrListViewModel.reset, List.nil_append, listItems, List.length_map]
  rw [savedListView, WfrListViewModel.setSelected, hlen]
  split
  · rename_i hin
    exact ⟨Cursor.fits_put (by decide) hin, rfl⟩
  · rw [hcursor]
    exact ⟨Cursor.fits_start (by decide) _, rfl⟩

end SavedList

/-! ## Every run of the menu -/

namespace WfrMenuViewModel
variable {m : WfrMenuViewModel}

theorem input_labels (m : WfrMenuViewModel) (e : InputEvent) : (m.input e).model.labels = m.labels := by
  simp only [input, move]
  split <;> rfl

theorem input_ok (m : WfrMenuViewModel) : (m.input ⟨.ok, .short⟩).index = some m.selected := rfl

theorem selected_input (h : m.selected < m.labels.length) (e : InputEvent) :
    (m.input e).model.selected = wrapStep m.labels.length m.selected (e.step keyStep) := by
  simp only [input, move]
  split
  · rfl
  · rename_i hstep
    have hne : m.labels ≠ [] := List.ne_nil_of_length_pos (by omega)
    have hzero : e.step keyStep = 0 := by
      by_contra hne'
      exact hstep ⟨hne', hne⟩
    rw [hzero, wrapStep_zero h]

theorem selected_run (h : m.selected < m.labels.length) (events : List InputEvent) :
    (m.run events).selected =
      (events.map (InputEvent.step keyStep)).foldl (wrapStep m.labels.length) m.selected := by
  induction events generalizing m with
  | nil => rfl
  | cons e events ih =>
    have hnext := selected_input h e
    have hlt := wrapStep_lt (n := m.labels.length) (s := m.selected) (by omega) (e.step keyStep)
    have hrest := ih (m := (m.input e).model) (by rwa [input_labels, hnext])
    rw [input_labels, hnext] at hrest
    exact hrest

end WfrMenuViewModel

theorem menuEvent_isSome (index : ℕ) : (menuEvent index).isSome = true ↔ index < 5 := by
  rcases index with _ | _ | _ | _ | _ | index
  case succ.succ.succ.succ.succ => simp [menuEvent]
  all_goals simp [menuEvent]

theorem mainMenuView_start (state : ℕ) :
    (mainMenuView state).labels.length = 5 ∧ (mainMenuView state).selected < 5 := by
  rw [mainMenuView, WfrMenuViewModel.setSelected]
  split
  · rename_i hin
    exact ⟨rfl, hin⟩
  · exact ⟨rfl, by decide⟩

/-! ## The application behind the views -/

/-- The list view behind some events since the saved scene was entered. -/
def WiFirApp.listView (app : WiFirApp) (state : ℕ) (events : List InputEvent) : WfrListViewModel :=
  (savedListView app.savedNetworks state).run events

/-- The list shows the saved networks, and has room for them. -/
structure Listed (app : WiFirApp) : Prop where
  list : app.list = listItems app.savedNetworks
  count : app.savedNetworks.length ≤ wfrSavedMax

section Steps
variable {app app' : WiFirApp} {i : Input} {o : Option Origin}

theorem Leaves.listed {names : List Bytes} {b b' : Shelf} (hleft : Leaves names b b')
    (h : b.list = listItems b.networks ∧ b.networks.length ≤ wfrSavedMax) :
    b'.list = listItems b'.networks ∧ b'.networks.length ≤ wfrSavedMax := by
  rcases hleft.lists with ⟨hnetworks, hlist⟩ | ⟨⟨card, hanew⟩, hlist⟩
  · rw [hnetworks, hlist]
    exact h
  · refine ⟨hlist, ?_⟩
    rw [hanew]
    exact List.length_take_le _ _

theorem Listed.step (h : Listed app) (hstep : Gui.step app i = some app') : Listed app' := by
  have hkeep {names : List Bytes} {b : Shelf} (hleft : Leaves names b app'.shelf)
      (hlist : b.list = app.list) (hnetworks : b.networks = app.savedNetworks) : Listed app' := by
    obtain ⟨hl, hc⟩ := hleft.listed (by rw [hlist, hnetworks]; exact ⟨h.list, h.count⟩)
    exact ⟨hl, hc⟩
  cases stores_of_step hstep with
  | nothing hleft => exact hkeep hleft rfl rfl
  | changes _ _ hnetworks hlist =>
    refine ⟨?_, ?_⟩
    · rw [hlist, hnetworks]
      exact h.list
    · rw [hnetworks]
      exact h.count
  | deletes _ _ hleft => exact hkeep hleft rfl rfl
  | saves _ _ _ _ _ hleft => exact hkeep hleft rfl rfl

theorem listed_of_reach {card : Card} {guard : Watched → DeviceInput → Prop}
    (h : Reach deviceStep guard (started card, none) (app, o)) : Listed app := by
  have hstart (card : Card) : Listed (Prod.fst (started card, (none : Option Origin))) :=
    ⟨rfl, Nat.zero_le _⟩
  have hkeep : ∀ s d s', Listed (Prod.fst s) → guard s d → deviceStep s d = some s' → Listed s'.1 := by
    rintro ⟨app, o⟩ d s' hs - hstep
    cases d with
    | input i writes =>
      obtain ⟨app', happ, rfl⟩ := deviceStep_input hstep
      dsimp only
      split
      · exact ⟨(hs.step happ).list, (hs.step happ).count⟩
      · exact hs.step happ
    | start =>
      cases hstep
      exact hstart _
  exact h.invariant (hstart card) hkeep

theorem Listed.view (h : Listed app) (state : ℕ) (events : List InputEvent) :
    (app.listView state events).items = app.list ∧
      (app.listView state events).cursor.Fits rowsVisible app.list.length ∧
      (app.list ≠ [] → (app.listView state events).cursor.selected =
        (events.map (InputEvent.step WfrListViewModel.keyStep)).foldl (wrapStep app.list.length)
          (if state < app.list.length then state else 0)) := by
  have hlen : app.list.length = app.savedNetworks.length := by
    rw [h.list, listItems, List.length_map]
  have hitems : (savedListView app.savedNetworks state).items = app.list :=
    (savedListView_items h.count state).trans h.list.symm
  obtain ⟨hfits, hselected⟩ := savedListView_cursor h.count state
  rw [← hlen] at hfits hselected
  have hrun := WfrListViewModel.fits_run (m := savedListView app.savedNetworks state)
    (by rwa [hitems]) events
  rw [hitems, hselected] at hrun
  exact ⟨(WfrListViewModel.run_items _ events).trans hitems, hrun.1, hrun.2⟩

end Steps

/-- In every run, for any keys: the list view has an item for every saved network, its rows show as many
as fit, exactly the row of the cursor is highlighted, and the cursor is as far from the item it was put
on as the keys add up to. -/
theorem list_keys (card : Card) (app : WiFirApp) (o : Option Origin)
    (h : Reach deviceStep (fun _ _ => True) (started card, none) (app, o)) (state : ℕ)
    (events : List InputEvent) :
    (app.listView state events).items = app.list ∧
      (app.listView state events).cursor.Fits rowsVisible app.list.length ∧
      (app.listView state events).rows.length = min rowsVisible app.list.length ∧
      (∀ r item, (app.listView state events).rows[r]? = some (item, true) ↔
        r = (app.listView state events).cursor.selected - (app.listView state events).cursor.offset ∧
          app.list[(app.listView state events).cursor.selected]? = some item) ∧
      (app.list ≠ [] → ((app.listView state events).cursor.selected : ℤ) ≡
        (if state < app.list.length then state else 0 : ℕ) +
          (events.map (InputEvent.step WfrListViewModel.keyStep)).sum [ZMOD app.list.length]) := by
  obtain ⟨hitems, hfits, hselected⟩ := (listed_of_reach h).view state events
  obtain ⟨hlen, hrows⟩ := WfrListViewModel.rows_of_fits (m := app.listView state events) (by rwa [hitems])
  rw [hitems] at hlen hrows
  refine ⟨hitems, hfits, hlen, hrows, fun hne => ?_⟩
  rw [hselected hne]
  exact foldl_wrapStep_modEq (List.length_pos_iff.mpr hne) _ _

private def roomNames : List Bytes :=
  [ascii "attic", ascii "cellar", ascii "garden", ascii "kitchen", ascii "office", ascii "porch"]

private def roomLines (name : Bytes) : List Line :=
  savedLines ⟨.ofBytes _ name, .ofBytes _ (ascii "letmein1"), wfrSecWpa, false⟩

/-- A card with six saved networks. -/
private def roomCard : Card := fun path =>
  (roomNames.find? (fun name => path = savePath name)).map roomLines

/-- The saved scene is opened. -/
private def savedOpened : List DeviceInput :=
  written [.menuOk 2, .custom { calm with names := roomNames.map (· ++ wfrSaveExt) }]

/-- Up over the top of the list, and down from there over its end and on. -/
private def aroundTwice : List InputEvent :=
  ⟨.up, .repeated⟩ :: ⟨.up, .short⟩ :: List.replicate 6 ⟨.down, .repeated⟩

private theorem reach_savedOpened :
    ∃ app o, Reach deviceStep (fun _ _ => True) (started roomCard, none) (app, o) ∧
      app.sceneStack ≠ [] ∧ app.view = .list ∧ app.list.map (fun item => item.1.bytes) = roomNames ∧
      (app.listView 0 aroundTwice).cursor = ⟨4, 1⟩ := by
  have hrun : (runAll (fun s d => if True then deviceStep s d else none) (started roomCard, none)
      savedOpened).map (fun s => decide (s.1.sceneStack ≠ [] ∧ s.1.view = .list ∧
        s.1.list.map (fun item => item.1.bytes) = roomNames ∧
        (s.1.listView 0 aroundTwice).cursor = ⟨4, 1⟩)) = some true := by decide +kernel
  obtain ⟨⟨app, o⟩, happ, hopen⟩ := Option.map_eq_some_iff.mp hrun
  exact ⟨app, o, Reach.of_runAll happ, of_decide_eq_true hopen⟩

/-- The keys lead from the first of six items to the fifth, and the window follows them. -/
theorem list_keys_around :
    ∃ app o, Reach deviceStep (fun _ _ => True) (started roomCard, none) (app, o) ∧
      app.list.map (fun item => item.1.bytes) = roomNames ∧
      (app.listView 0 aroundTwice).cursor = ⟨4, 1⟩ ∧
      (app.listView 0 aroundTwice).items = app.list ∧
      (app.listView 0 aroundTwice).cursor.Fits rowsVisible app.list.length ∧
      (app.listView 0 aroundTwice).rows.length = min rowsVisible app.list.length ∧
      (∀ r item, (app.listView 0 aroundTwice).rows[r]? = some (item, true) ↔
        r = (app.listView 0 aroundTwice).cursor.selected - (app.listView 0 aroundTwice).cursor.offset ∧
          app.list[(app.listView 0 aroundTwice).cursor.selected]? = some item) ∧
      (app.list ≠ [] → ((app.listView 0 aroundTwice).cursor.selected : ℤ) ≡
        (if 0 < app.list.length then 0 else 0 : ℕ) +
          (aroundTwice.map (InputEvent.step WfrListViewModel.keyStep)).sum [ZMOD app.list.length]) := by
  obtain ⟨app, o, hreach, -, -, hnames, hcursor⟩ := reach_savedOpened
  exact ⟨app, o, hreach, hnames, hcursor, list_keys roomCard app o hreach 0 aroundTwice⟩

/-- In every run the indices that the keys of the list and of the menu can hand over are those that the
application takes. -/
theorem keys_handed (card : Card) (app : WiFirApp) (o : Option Origin)
    (h : Reach deviceStep (fun _ _ => True) (started card, none) (app, o))
    (hrunning : app.sceneStack ≠ []) (state index : ℕ) :
    (app.view = .list → ((∃ events e, ((app.listView state events).input e).index = some index) ↔
      (step app (.listOk index)).isSome = true)) ∧
    (app.view = .menu → ((∃ events e, (((mainMenuView state).run events).input e).index = some index) ↔
      (step app (.menuOk index)).isSome = true)) := by
  have hlisted := listed_of_reach h
  constructor
  · intro hview
    have htakes : (step app (.listOk index)).isSome = true ↔ index < app.list.length := by
      simp [step, perform, hrunning, hview]
    rw [htakes]
    constructor
    · rintro ⟨events, e, hindex⟩
      obtain ⟨hitems, hfits, -⟩ := hlisted.view state events
      simp only [WfrListViewModel.input, hitems, Option.ite_none_right_eq_some, Option.some.injEq] at hindex
      obtain ⟨⟨-, hne⟩, rfl⟩ := hindex
      have hpos : 0 < app.list.length := List.length_pos_iff.mpr hne
      have hin := hfits.inside
      omega
    · intro hin
      have hne : app.list ≠ [] := List.ne_nil_of_length_pos (by omega)
      obtain ⟨k, hk⟩ := exists_wrapStep
        (by split <;> omega : (if state < app.list.length then state else 0) < app.list.length) hin
      obtain ⟨hitems, -, hselected⟩ := hlisted.view state (List.replicate k ⟨.down, .short⟩)
      refine ⟨List.replicate k ⟨.down, .short⟩, ⟨.ok, .short⟩, ?_⟩
      have hdown : InputEvent.step WfrListViewModel.keyStep ⟨.down, .short⟩ = 1 := by decide
      rw [List.map_replicate, hdown, hk] at hselected
      rw [← hitems] at hne
      exact (WfrListViewModel.input_ok hne).trans (congrArg some (hselected (hitems ▸ hne)))
  · intro hview
    obtain ⟨hlen, hstart⟩ := mainMenuView_start state
    have hselected (events : List InputEvent) := WfrMenuViewModel.selected_run
      (m := mainMenuView state) (by rwa [hlen]) events
    rw [hlen] at hselected
    have htakes : (step app (.menuOk index)).isSome = true ↔ index < 5 := by
      rw [← menuEvent_isSome]
      simp [step, perform, hrunning, hview]
    rw [htakes]
    constructor
    · rintro ⟨events, e, hindex⟩
      simp only [WfrMenuViewModel.input, Option.ite_none_right_eq_some, Option.some.injEq] at hindex
      rw [← hindex.2, hselected]
      exact foldl_wrapStep_lt hstart _
    · intro hin
      obtain ⟨k, hk⟩ := exists_wrapStep hstart hin
      refine ⟨List.replicate k ⟨.down, .short⟩, ⟨.ok, .short⟩, ?_⟩
      have hdown : InputEvent.step WfrMenuViewModel.keyStep ⟨.down, .short⟩ = 1 := by decide
      have hafter := hselected (List.replicate k ⟨.down, .short⟩)
      rw [List.map_replicate, hdown, hk] at hafter
      exact (WfrMenuViewModel.input_ok _).trans (congrArg some hafter)

/-- The keys can hand over each of the six items, and the one that they have led to. -/
theorem keys_handed_around :
    ∃ app o, Reach deviceStep (fun _ _ => True) (started roomCard, none) (app, o) ∧
      app.view = .list ∧ app.list.map (fun item => item.1.bytes) = roomNames ∧
      ((app.listView 0 aroundTwice).input ⟨.ok, .short⟩).index = some 4 ∧
      ∀ index, (app.view = .list → ((∃ events e, ((app.listView 0 events).input e).index = some index) ↔
          (step app (.listOk index)).isSome = true)) ∧
        (app.view = .menu → ((∃ events e, (((mainMenuView 0).run events).input e).index = some index) ↔
          (step app (.menuOk index)).isSome = true)) := by
  obtain ⟨app, o, hreach, hrunning, hview, hnames, hcursor⟩ := reach_savedOpened
  have hitems : (app.listView 0 aroundTwice).items = app.list :=
    ((listed_of_reach hreach).view 0 aroundTwice).1
  have hne : (app.listView 0 aroundTwice).items ≠ [] := by
    rw [hitems]
    rintro hnil
    rw [hnil] at hnames
    cases hnames
  refine ⟨app, o, hreach, hview, hnames, ?_, fun index => keys_handed roomCard app o hreach hrunning 0 index⟩
  rw [WfrListViewModel.input_ok hne, hcursor]

end InfraFi.Flipper.Gui
