import InfraFi.Base.Slots
import InfraFi.Flipper.Storage

/-! # Saving and deleting over time

The files of the saved networks are slots, named by their SSIDs. Two SSIDs
whose characters differ only where they are replaced share a file.
-/
namespace InfraFi.Flipper
open Base Protocol

/-- The card, and the last credentials saved for every SSID that was not deleted since. -/
structure SavedState where
  card : Card
  latest : Bytes → Option WfrWifiCreds

/-- A save that succeeds, or a deletion of an entry of the list. -/
inductive SavedStep (s : SavedState) : Option WfrWifiCreds → SavedState → Prop
  | save (ok : ℕ → Bool) (creds : WfrWifiCreds) (card : Card)
      (h : wfrStorageSave ok s.card creds = (true, card)) :
      SavedStep s (some creds) ⟨card, Function.update s.latest creds.ssid.bytes (some creds)⟩
  | delete (ok : Bool) (names : List Bytes) (entry : SavedNetwork)
      (h : entry ∈ wfrStorageList s.card names wfrSavedMax) :
      SavedStep s none ⟨(wfrStorageDelete ok s.card entry.filename).2,
        Function.update s.latest entry.ssid.bytes none⟩

/-- A run with the credentials saved and the states reached. -/
inductive SavedRun : SavedState → List (Option WfrWifiCreds × SavedState) → Prop
  | nil (s : SavedState) : SavedRun s []
  | cons {s t : SavedState} {a : Option WfrWifiCreds} {rest : List (Option WfrWifiCreds × SavedState)}
      (h : SavedStep s a t) (hrest : SavedRun t rest) : SavedRun s ((a, t) :: rest)

/-- Every SSID saved and not deleted since is loaded from its file, with the credentials of its
last save. -/
def SavedState.Kept (s : SavedState) : Prop :=
  ∀ ssid creds, s.latest ssid = some creds → wfrStorageLoad s.card (savePath ssid) = (true, creds)

/-- Another SSID, saved and not deleted since, has the file name of these credentials. -/
def SavedState.Shares (s : SavedState) (creds : WfrWifiCreds) : Prop :=
  ∃ ssid, ssid ≠ creds.ssid.bytes ∧
    sanitizeForFilename ssid 48 = sanitizeForFilename creds.ssid.bytes 48 ∧ s.latest ssid ≠ none

/-- No save of the run takes a file name that another SSID has by then. -/
def NoneShares (s : SavedState) : List (Option WfrWifiCreds × SavedState) → Prop
  | [] => True
  | (a, t) :: rest => (∀ creds, a = some creds → ¬ s.Shares creds) ∧ NoneShares t rest

/-! ## The files as slots -/

/-- What a path is loaded as. -/
def loaded (card : Card) (path : Bytes) : Option WfrWifiCreds :=
  if (wfrStorageLoad card path).1 then some (wfrStorageLoad card path).2 else none

theorem loaded_eq_some {card : Card} {path : Bytes} {creds : WfrWifiCreds} :
    loaded card path = some creds ↔ wfrStorageLoad card path = (true, creds) := by
  rw [loaded]
  rcases wfrStorageLoad card path with ⟨ok, c⟩
  cases ok <;> simp

def ssidOf (creds : WfrWifiCreds) : Bytes := creds.ssid.bytes

def slotsOf (s : SavedState) : Slots Bytes Bytes WfrWifiCreds := ⟨loaded s.card, s.latest⟩

theorem loaded_update (card : Card) (path : Bytes) (file : Option (List Line)) :
    loaded (Function.update card path file) =
      Function.update (loaded card) path (loaded (Function.update card path file) path) := by
  funext p
  by_cases hp : p = path
  · rw [hp, Function.update_self]
  · have hcard : Function.update card path file p = card p := Function.update_of_ne hp ..
    rw [Function.update_of_ne hp, loaded, loaded, wfrStorageLoad_congr hcard]

/-- An entry of the list is that of a file which is loaded with its SSID. -/
theorem mem_wfrStorageList {card : Card} {names : List Bytes} {n : ℕ} {entry : SavedNetwork}
    (h : entry ∈ wfrStorageList card names n) :
    ∃ name creds, entry.filename = name.take (wfrFilenameMax - 1) ∧
      loaded card (filePath name) = some creds ∧ creds.ssid = entry.ssid := by
  rcases List.mem_filterMap.mp (List.mem_of_mem_take h) with ⟨name, -, hentry⟩
  unfold listEntry at hentry
  split at hentry
  · cases hentry
  split at hentry
  · cases hentry
  dsimp only at hentry
  split at hentry
  · next hok =>
    cases hentry
    exact ⟨name, _, rfl, if_pos hok, rfl⟩
  · cases hentry

theorem SavedStep.refines {s t : SavedState} {a : Option WfrWifiCreds} (h : SavedStep s a t) :
    Slots.Step savePath ssidOf (slotsOf s) a (slotsOf t) := by
  cases h with
  | save ok creds card h =>
    have hcard := wfrStorageSave_true h
    have hload : loaded card (savePath creds.ssid.bytes) = some creds := by
      apply loaded_eq_some.mpr
      apply load_savedLines
      rw [hcard, Function.update_self]
    have hcells : loaded card = Function.update (loaded s.card) (savePath creds.ssid.bytes) (some creds) := by
      rw [← hload, hcard, ← loaded_update]
    have hslots : slotsOf ⟨card, Function.update s.latest creds.ssid.bytes (some creds)⟩ =
        (slotsOf s).put savePath ssidOf creds := congrArg (Slots.mk · _) hcells
    rw [hslots]
    exact .put creds
  | delete ok names entry h =>
    rcases mem_wfrStorageList h with ⟨name, creds, hname, hload, hssid⟩
    rw [hname]
    cases ok with
    | false => exact .forget _
    | true =>
      have hnone : loaded (Function.update s.card (filePath (name.take (wfrFilenameMax - 1))) none)
          (filePath (name.take (wfrFilenameMax - 1))) = none := by
        rw [loaded, load_none (Function.update_self ..)]
        rfl
      have hcells := loaded_update s.card (filePath (name.take (wfrFilenameMax - 1))) none
      rw [hnone] at hcells
      have hslots : slotsOf ⟨(wfrStorageDelete true s.card (name.take (wfrFilenameMax - 1))).2,
          Function.update s.latest entry.ssid.bytes none⟩ =
          (slotsOf s).remove (filePath (name.take (wfrFilenameMax - 1))) entry.ssid.bytes :=
        congrArg (Slots.mk · _) hcells
      rw [hslots]
      apply Slots.Step.remove
      intro v hv
      rcases Nat.lt_or_ge name.length wfrFilenameMax with hshort | hlong
      · have hwhole : name.take (wfrFilenameMax - 1) = name := List.take_of_length_le (by omega)
        rw [hwhole] at hv
        cases hload.symm.trans hv
        exact .inl (congrArg CString.bytes hssid)
      · exact .inr (savePath_ne_cut hlong)

theorem kept_iff (s : SavedState) : s.Kept ↔ Slots.Independent savePath (slotsOf s) := by
  simp only [SavedState.Kept, Slots.Independent, slotsOf, loaded_eq_some]

theorem savePath_eq_iff {ssid ssid' : Bytes} :
    savePath ssid = savePath ssid' ↔ sanitizeForFilename ssid 48 = sanitizeForFilename ssid' 48 := by
  rw [savePath_eq, savePath_eq, List.append_cancel_left_eq, List.append_cancel_left_eq,
    List.append_cancel_right_eq]

theorem shares_iff (s : SavedState) (creds : WfrWifiCreds) :
    s.Shares creds ↔ Slots.Clash savePath ssidOf (slotsOf s) creds := by
  simp only [SavedState.Shares, Slots.Clash, savePath_eq_iff]
  rfl

theorem noneShares_iff (s : SavedState) (run : List (Option WfrWifiCreds × SavedState)) :
    NoneShares s run ↔
      Slots.Clean savePath ssidOf (slotsOf s) (run.map (fun x => (x.1, slotsOf x.2))) := by
  induction run generalizing s with
  | nil => rfl
  | cons x run ih =>
    rw [List.map_cons, NoneShares, Slots.Clean, ih]
    simp only [shares_iff]

theorem SavedRun.refines {s : SavedState} {run : List (Option WfrWifiCreds × SavedState)}
    (h : SavedRun s run) :
    Slots.Run savePath ssidOf (slotsOf s) (run.map (fun x => (x.1, slotsOf x.2))) := by
  induction h with
  | nil s => exact .nil _
  | cons hstep _ ih => exact .cons hstep.refines ih

/-- From any card, the saved networks stay as they were saved in every state of a run if and
only if no save takes the file name of another one. -/
theorem saved_kept_iff (card : Card) (run : List (Option WfrWifiCreds × SavedState))
    (h : SavedRun ⟨card, fun _ => none⟩ run) :
    (∀ x ∈ run, x.2.Kept) ↔ NoneShares ⟨card, fun _ => none⟩ run := by
  have hind : Slots.Independent savePath (slotsOf ⟨card, fun _ => none⟩) := by
    intro ssid creds hcreds
    cases hcreds
  have hkey : Slots.Keyed ssidOf (slotsOf ⟨card, fun _ => none⟩) := by
    intro ssid creds hcreds
    cases hcreds
  have hslots := Slots.run_independent_iff h.refines hind hkey
  rw [noneShares_iff, ← hslots, List.forall_mem_map]
  simp only [kept_iff]

/-! Two networks whose names differ only in a character that is replaced. -/

private def slashCreds : WfrWifiCreds where
  ssid := CString.ofBytes wfrSsidMaxLen (ascii "a/b")
  password := CString.ofBytes wfrPassMaxLen (ascii "password")
  security := wfrSecWpa
  hidden := false

private def lowLineCreds : WfrWifiCreds where
  ssid := CString.ofBytes wfrSsidMaxLen (ascii "a_b")
  password := CString.empty wfrPassMaxLen
  security := wfrSecOpen
  hidden := false

private def saved (s : SavedState) (creds : WfrWifiCreds) : SavedState :=
  ⟨(wfrStorageSave (fun _ => true) s.card creds).2,
    Function.update s.latest creds.ssid.bytes (some creds)⟩

private theorem saved_step (s : SavedState) {creds : WfrWifiCreds} (h : creds.ssid.bytes ≠ []) :
    SavedStep s (some creds) (saved s creds) := by
  apply SavedStep.save (fun _ => true)
  rw [wfrStorageSave, if_neg h]
  rfl

private def noneSaved : SavedState := ⟨fun _ => none, fun _ => none⟩

private def twoSaves : List (Option WfrWifiCreds × SavedState) :=
  [(some slashCreds, saved noneSaved slashCreds),
    (some lowLineCreds, saved (saved noneSaved slashCreds) lowLineCreds)]

private theorem run_twoSaves : SavedRun noneSaved twoSaves :=
  .cons (saved_step _ (by decide)) (.cons (saved_step _ (by decide)) (.nil _))

theorem saved_kept_iff_twoSaves :
    (∀ x ∈ twoSaves, x.2.Kept) ↔ NoneShares noneSaved twoSaves :=
  saved_kept_iff _ twoSaves run_twoSaves

/-- The second save replaces the first network. -/
theorem saved_overwritten :
    SavedRun noneSaved twoSaves ∧ ¬ ∀ x ∈ twoSaves, x.2.Kept := by
  refine ⟨run_twoSaves, fun hkept => ?_⟩
  have hlast : (saved (saved noneSaved slashCreds) lowLineCreds).Kept :=
    hkept (some lowLineCreds, _) (.tail _ (.head _))
  have hload := hlast (ascii "a/b") slashCreds rfl
  exact absurd hload (by decide +kernel)

end InfraFi.Flipper
