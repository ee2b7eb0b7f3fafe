import InfraFi.Flipper.Scenes

/-! # The names of saved networks

The file of a saved network is named after its SSID. The list keeps the name in
a slot, and the saved scene and the deletion build the path from the slot again.
-/
namespace InfraFi.Flipper
open Base Protocol

def wfrSettingsFile : Bytes := ascii "/ext/apps_data/infrafi/settings.cfg"

/-! ## Safe names -/

section Sanitize
variable (src : Bytes) {dstSize : ℕ}

theorem sanitizeForFilename_safe (dstSize : ℕ) :
    ∀ c ∈ sanitizeForFilename src dstSize, safeChar c = true := by
  have hunderscore : safeChar 0x5F = true := by decide
  intro c hc
  rw [sanitizeForFilename] at hc
  split at hc
  · rw [List.mem_singleton.mp hc]
    exact hunderscore
  · rcases List.mem_map.mp hc with ⟨d, -, rfl⟩
    split
    · assumption
    · exact hunderscore

theorem sanitizeForFilename_ne_nil (h : 1 < dstSize) : sanitizeForFilename src dstSize ≠ [] := by
  rw [sanitizeForFilename]
  split
  · exact List.cons_ne_nil _ _
  · next hdst => exact fun hnil => hdst ⟨hnil, h⟩

end Sanitize

/-! ## One path from several buffers -/

/-- The file name of a saved network, as it is in the slot of its list entry. -/
def savedFile (ssid : CString wfrSsidMaxLen) : CString (wfrFilenameMax - 1) where
  bytes := sanitizeForFilename ssid.bytes 48 ++ wfrSaveExt
  nulFree := by
    rw [List.mem_append, not_or]
    refine ⟨fun hzero => ?_, by decide⟩
    exact absurd (sanitizeForFilename_safe ssid.bytes 48 0 hzero) (by decide)
  length_le := by
    have hname := sanitizeForFilename_length ssid.bytes 48 (by decide)
    have hext : wfrSaveExt.length = 5 := rfl
    rw [List.length_append]
    have hmax : wfrFilenameMax = 64 := rfl
    omega

theorem filePath_savedFile (ssid : CString wfrSsidMaxLen) :
    filePath (savedFile ssid).bytes = savePath ssid.bytes := by
  rw [savePath_eq, filePath_eq ((savedFile ssid).length_le.trans (by decide))]
  rfl

/-- The list takes a file with the extension, and keeps its name whole if it fits into the slot. -/
theorem listEntry_append (card : Card) {stem : Bytes} (hstem : stem ≠ [])
    (hfits : (stem ++ wfrSaveExt).length ≤ wfrFilenameMax - 1) :
    listEntry card (stem ++ wfrSaveExt) =
      let loaded := wfrStorageLoad card (filePath (stem ++ wfrSaveExt))
      if loaded.1 then some ⟨loaded.2.ssid, stem ++ wfrSaveExt, loaded.2.security⟩ else none := by
  have hpos : 0 < stem.length := List.length_pos_iff.mpr hstem
  have hlen : ¬ (stem ++ wfrSaveExt).length ≤ wfrSaveExt.length := by
    rw [List.length_append]
    omega
  have hdrop : (stem ++ wfrSaveExt).drop ((stem ++ wfrSaveExt).length - wfrSaveExt.length) =
      wfrSaveExt := by
    rw [List.length_append, Nat.add_sub_cancel, List.drop_left]
  rw [listEntry, if_neg hlen, if_neg (not_not.mpr hdrop), List.take_of_length_le hfits]

theorem savePath_ne_settings (ssid : Bytes) : savePath ssid ≠ wfrSettingsFile := by
  have hlast : (savePath ssid).getLast? = some 0x72 := by
    have hext : wfrSaveExt.getLast? = some 0x72 := by decide
    rw [savePath_eq]
    simp only [List.getLast?_append, hext]
    rfl
  have hsettings : wfrSettingsFile.getLast? = some 0x67 := by decide
  intro he
  rw [he, hsettings] at hlast
  cases hlast

/-- What is loaded from a file of the directory is in the list, unless the list is full. -/
theorem mem_list_of_loaded {card : Card} {names : List Bytes} {max : ℕ} (ssid : CString wfrSsidMaxLen)
    (hname : (savedFile ssid).bytes ∈ names) (hmax : names.length ≤ max)
    (hloaded : (wfrStorageLoad card (savePath ssid.bytes)).1 = true) :
    ⟨(wfrStorageLoad card (savePath ssid.bytes)).2.ssid, (savedFile ssid).bytes,
      (wfrStorageLoad card (savePath ssid.bytes)).2.security⟩ ∈ wfrStorageList card names max := by
  have hstem : sanitizeForFilename ssid.bytes 48 ≠ [] :=
    sanitizeForFilename_ne_nil ssid.bytes (by decide)
  have hentry := listEntry_append card hstem (savedFile ssid).length_le
  have hpath : filePath (sanitizeForFilename ssid.bytes 48 ++ wfrSaveExt) = savePath ssid.bytes :=
    filePath_savedFile ssid
  rw [hpath] at hentry
  rw [wfrStorageList, List.take_of_length_le ((List.length_filterMap_le _ _).trans hmax)]
  apply List.mem_filterMap.mpr
  exact ⟨(savedFile ssid).bytes, hname, hentry.trans (if_pos hloaded)⟩

/-- A network is saved under a safe name in the directory, the list keeps that name, and the saved
scene and the deletion find the file again. -/
theorem savedFile_exact (creds : WfrWifiCreds) :
    ∃ name : Bytes, ∃ file : CString (wfrFilenameMax - 1),
      name ≠ [] ∧ (∀ c ∈ name, safeChar c = true) ∧ file.bytes = name ++ wfrSaveExt ∧
      savePath creds.ssid.bytes = wfrSaveDir ++ ascii "/" ++ name ++ wfrSaveExt ∧
      (savePath creds.ssid.bytes).length < 128 ∧ savePath creds.ssid.bytes ≠ wfrSettingsFile ∧
      (∀ ok card, creds.ssid.bytes ≠ [] → ok 0 = true → ∃ content,
        (wfrStorageSave ok card creds).2 =
          Function.update card (savePath creds.ssid.bytes) (some content)) ∧
      (∀ card names max, file.bytes ∈ names → names.length ≤ max →
        let loaded := wfrStorageLoad card (savePath creds.ssid.bytes)
        loaded.1 = true →
          ⟨loaded.2.ssid, file.bytes, loaded.2.security⟩ ∈ wfrStorageList card names max) ∧
      (∀ env app network, app.savedNetworks[app.savedState]? = some network →
        network.filename = file.bytes →
        Gui.wiFirSceneSavedOnEvent env app .savedSelected =
          let loaded := wfrStorageLoad app.card (savePath creds.ssid.bytes)
          if loaded.1 then
            Gui.sceneManagerNextScene env
              { app with
                ssid := loaded.2.ssid
                password := loaded.2.password
                securityType := loaded.2.security
                hidden := loaded.2.hidden
                selectedSavedFile := file } .confirm
          else app) ∧
      (∀ ok card, wfrStorageDelete ok card file.bytes =
        if ok then (true, Function.update card (savePath creds.ssid.bytes) none) else (false, card)) := by
  refine ⟨sanitizeForFilename creds.ssid.bytes 48, savedFile creds.ssid,
    sanitizeForFilename_ne_nil _ (by decide), sanitizeForFilename_safe _ _, rfl, ?_, ?_,
    savePath_ne_settings _, ?_, ?_, ?_, ?_⟩
  · rw [savePath_eq]
    simp only [List.append_assoc]
  · have hname := sanitizeForFilename_length creds.ssid.bytes 48 (by decide)
    have hlens : (ascii "/").length = 1 ∧ wfrSaveExt.length = 5 := by decide
    rw [savePath_eq]
    simp only [List.length_append, wfrSaveDir_length, hlens]
    omega
  · intro ok card hssid hopen
    exact ⟨_, congrArg Prod.snd (wfrStorageSave_eq ok card hssid hopen)⟩
  · intro card names max hname hmax loaded hloaded
    exact mem_list_of_loaded creds.ssid hname hmax hloaded
  · intro env app network hnetwork hfile
    have hslot : CString.ofBytes (wfrFilenameMax - 1) network.filename = savedFile creds.ssid := by
      apply CString.ext
      rw [hfile]
      exact CString.ofBytes_bytes (savedFile creds.ssid).nulFree (savedFile creds.ssid).length_le
    rw [Gui.wiFirSceneSavedOnEvent, hnetwork]
    dsimp only
    rw [hslot, hfile, filePath_savedFile]
  · intro ok card
    rw [wfrStorageDelete, filePath_savedFile]

/-- An SSID of the full length, made of characters that are all replaced. -/
private def dots : WfrWifiCreds where
  ssid := .ofBytes _ (ascii "../../../../../../../../../../..")
  password := .empty _
  security := wfrSecOpen
  hidden := false

theorem savedFile_exact_dots :
    ∃ file : CString (wfrFilenameMax - 1), file.bytes = List.replicate 32 0x5F ++ wfrSaveExt ∧
      savePath dots.ssid.bytes = wfrSaveDir ++ ascii "/" ++ file.bytes ∧
      ∀ card, (wfrStorageDelete true card file.bytes).2 =
        Function.update card (savePath dots.ssid.bytes) none := by
  rcases savedFile_exact dots with ⟨name, file, -, -, hfile, hpath, -, -, -, -, -, hdelete⟩
  have hname : savePath dots.ssid.bytes =
      wfrSaveDir ++ ascii "/" ++ List.replicate 32 0x5F ++ wfrSaveExt := by decide +kernel
  have hsame := List.append_cancel_left (List.append_cancel_right (hpath.symm.trans hname))
  refine ⟨file, by rw [hfile, hsame], by rw [hpath, hfile, List.append_assoc _ name], fun card => ?_⟩
  rw [hdelete]
  rfl

end InfraFi.Flipper
