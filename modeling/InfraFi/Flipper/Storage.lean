import InfraFi.Protocol.Defs
import Mathlib.Logic.Function.Basic

/-! # Saved networks

A saved network is a FlipperFormat file on the SD card. The file name is the
SSID with every character replaced that is not safe in one.
-/
namespace InfraFi.Flipper
open Base Protocol

def wfrFileType : Bytes := ascii "InfraFi Credentials"
def wfrFileVersion : UInt32 := 1

def wfrSaveDir : Bytes := ascii "/ext/apps_data/infrafi"
def wfrSaveExt : Bytes := ascii ".wfir"
def wfrSavedMax : ℕ := 20
def wfrFilenameMax : ℕ := 64

/-! ## FlipperFormat files -/

inductive Line where
  | header (fileType : Bytes) (version : UInt32)
  | string (key value : Bytes)
  | uint32 (key : Bytes) (value : UInt32)
deriving DecidableEq

/-- The SD card; a path without a file has no content. -/
abbrev Card := Bytes → Option (List Line)

def Line.header? : Line → Option (Bytes × UInt32)
  | .header fileType version => some (fileType, version)
  | _ => none

def Line.string? (key : Bytes) : Line → Option Bytes
  | .string k value => if k = key then some value else none
  | _ => none

def Line.uint32? (key : Bytes) : Line → Option UInt32
  | .uint32 k value => if k = key then some value else none
  | _ => none

/-- The value of the next line that has one, and the lines behind it. -/
def readNext {α : Type} (value? : Line → Option α) : List Line → Option (α × List Line)
  | [] => none
  | l :: ls =>
    match value? l with
    | some a => some (a, ls)
    | none => readNext value? ls

def Card.append (card : Card) (path : Bytes) (line : Line) : Card :=
  Function.update card path ((card path).map (· ++ [line]))

/-! ## Saving -/

def safeChar (c : UInt8) : Bool :=
  (0x41 ≤ c ∧ c ≤ 0x5A) ∨ (0x61 ≤ c ∧ c ≤ 0x7A) ∨ (0x30 ≤ c ∧ c ≤ 0x39) ∨ c = 0x2D ∨ c = 0x5F

/-- Replaces the characters that are not alphanumeric, `-` or `_` with underscores. -/
def sanitizeForFilename (src : Bytes) (dstSize : ℕ) : Bytes :=
  let dst := (src.take (dstSize - 1)).map (fun c => if safeChar c then c else 0x5F)
  if dst = [] ∧ dstSize > 1 then [0x5F] else dst

/-- The file that holds the network with this SSID. -/
def savePath (ssid : Bytes) : Bytes :=
  snprintf 128 (wfrSaveDir ++ ascii "/" ++ sanitizeForFilename ssid 48 ++ wfrSaveExt)

/-- The lines of a saved network, in the order of their writes. -/
def savedLines (creds : WfrWifiCreds) : List Line :=
  [.header wfrFileType wfrFileVersion, .string (ascii "SSID") creds.ssid.bytes,
    .uint32 (ascii "Security") creds.security.toUInt32,
    .string (ascii "Password") creds.password.bytes,
    .uint32 (ascii "Hidden") (if creds.hidden then 1 else 0)]

/-- Writes lines to a file until a write fails; `ok i` tells whether the `i`-th operation on
the file succeeds. -/
def writeLines (ok : ℕ → Bool) (path : Bytes) : ℕ → List Line → Card → Bool × Card
  | _, [], card => (true, card)
  | i, line :: lines, card =>
    if ok i then writeLines ok path (i + 1) lines (card.append path line) else (false, card)

def wfrStorageSave (ok : ℕ → Bool) (card : Card) (creds : WfrWifiCreds) : Bool × Card :=
  if creds.ssid.bytes = [] then (false, card)
  else
    let path := savePath creds.ssid.bytes
    -- `open_always` creates the file or empties it
    if ok 0 then writeLines ok path 1 (savedLines creds) (Function.update card path (some []))
    else (false, card)

/-! ## Loading -/

/-- Whether the file was loaded, and the credentials as far as they were read. -/
def wfrStorageLoad (card : Card) (path : Bytes) : Bool × WfrWifiCreds :=
  match card path with
  | none => (false, clearedCreds)
  | some file =>
    match readNext Line.header? file with
    | none => (false, clearedCreds)
    | some ((fileType, version), file) =>
      if fileType ≠ wfrFileType then (false, clearedCreds)
      else if version ≠ wfrFileVersion then (false, clearedCreds)
      else
        match readNext (Line.string? (ascii "SSID")) file with
        | none => (false, clearedCreds)
        | some (ssid, file) =>
          let creds := { clearedCreds with ssid := .ofBytes _ ssid }
          match readNext (Line.uint32? (ascii "Security")) file with
          | none => (false, creds)
          | some (sec, file) =>
            let creds := { creds with security := sec.toUInt8 }
            match readNext (Line.string? (ascii "Password")) file with
            | none => (false, creds)
            | some (password, file) =>
              let creds := { creds with password := .ofBytes _ password }
              match readNext (Line.uint32? (ascii "Hidden")) file with
              | none => (true, creds)
              | some (hidden, _) => (true, { creds with hidden := hidden ≠ 0 })

/-! ## Listing and deleting -/

/-- An entry of the list: the name to show, the file name, the security type. -/
structure SavedNetwork where
  ssid : CString wfrSsidMaxLen
  filename : Bytes
  security : UInt8

def filePath (name : Bytes) : Bytes := snprintf 256 (wfrSaveDir ++ ascii "/" ++ name)

/-- The entry for a name in the directory, if it is that of a saved network. -/
def listEntry (card : Card) (name : Bytes) : Option SavedNetwork :=
  if name.length ≤ wfrSaveExt.length then none
  else if name.drop (name.length - wfrSaveExt.length) ≠ wfrSaveExt then none
  else
    let r := wfrStorageLoad card (filePath name)
    if r.1 then some ⟨r.2.ssid, name.take (wfrFilenameMax - 1), r.2.security⟩ else none

/-- The list for the names of the files that `storage_dir_read` gives, in its order. -/
def wfrStorageList (card : Card) (names : List Bytes) (maxCount : ℕ) : List SavedNetwork :=
  (names.filterMap (listEntry card)).take maxCount

/-- `ok` tells whether the removal succeeds. -/
def wfrStorageDelete (ok : Bool) (card : Card) (filename : Bytes) : Bool × Card :=
  if ok then (true, Function.update card (filePath filename) none) else (false, card)

/-! ## What is saved is loaded -/

section SaveAndLoad
variable {card : Card} {path : Bytes} {creds : WfrWifiCreds}

/-- What a file is loaded as once the first `k` lines of a saved network are in it. -/
def partlyLoaded (creds : WfrWifiCreds) : ℕ → Bool × WfrWifiCreds
  | 0 | 1 => (false, clearedCreds)
  | 2 => (false, { clearedCreds with ssid := creds.ssid })
  | 3 => (false, { clearedCreds with ssid := creds.ssid, security := creds.security })
  | 4 => (true, { creds with hidden := false })
  | _ => (true, creds)

theorem load_take_savedLines {k : ℕ} (h : card path = some ((savedLines creds).take k)) :
    wfrStorageLoad card path = partlyLoaded creds k := by
  rcases creds with ⟨ssid, password, security, hidden⟩
  have hssid : CString.ofBytes wfrSsidMaxLen ssid.bytes = ssid :=
    CString.ext (CString.ofBytes_bytes ssid.nulFree ssid.length_le)
  have hpass : CString.ofBytes wfrPassMaxLen password.bytes = password :=
    CString.ext (CString.ofBytes_bytes password.nulFree password.length_le)
  match k with
  | 0 | 1 | 2 | 3 | 4 =>
    simp [wfrStorageLoad, h, savedLines, partlyLoaded, clearedCreds, readNext, Line.header?,
      Line.string?, Line.uint32?, hssid, hpass]
  | k + 5 =>
    cases hidden <;>
      simp [wfrStorageLoad, h, savedLines, partlyLoaded, readNext, Line.header?, Line.string?,
        Line.uint32?, hssid, hpass]

theorem load_savedLines (h : card path = some (savedLines creds)) :
    wfrStorageLoad card path = (true, creds) := by
  have hall : (savedLines creds).take 5 = savedLines creds := rfl
  exact load_take_savedLines (k := 5) (hall.symm ▸ h)

/-- How many of the next `n` operations succeed before one fails. -/
def writesDone (ok : ℕ → Bool) : ℕ → ℕ → ℕ
  | _, 0 => 0
  | i, n + 1 => if ok i then writesDone ok (i + 1) n + 1 else 0

theorem writesDone_le (ok : ℕ → Bool) (i n : ℕ) : writesDone ok i n ≤ n := by
  induction n generalizing i with
  | zero => exact Nat.le_refl 0
  | succ n ih =>
    rw [writesDone]
    split
    · exact Nat.succ_le_succ (ih (i + 1))
    · exact Nat.zero_le _

/-- The lines before the first write that fails are added to the file, and no other is touched. -/
theorem writeLines_eq (ok : ℕ → Bool) (i : ℕ) (lines : List Line) {file : List Line}
    (hfile : card path = some file) :
    writeLines ok path i lines card = (decide (writesDone ok i lines.length = lines.length),
      Function.update card path (some (file ++ lines.take (writesDone ok i lines.length)))) := by
  induction lines generalizing i card file with
  | nil =>
    rw [List.take_nil, List.append_nil, ← hfile, Function.update_eq_self]
    rfl
  | cons line lines ih =>
    rw [writeLines, List.length_cons, writesDone]
    split
    · have hnext : card.append path line path = some (file ++ [line]) := by
        rw [Card.append, Function.update_self, hfile]
        rfl
      rw [ih (i + 1) hnext, Card.append, Function.update_idem, List.take_succ_cons, List.append_assoc,
        List.singleton_append]
      simp only [Nat.add_right_cancel_iff]
    · rw [List.take_zero, List.append_nil, ← hfile, Function.update_eq_self]
      simp

theorem wfrStorageSave_eq (ok : ℕ → Bool) (card : Card) (hssid : creds.ssid.bytes ≠ [])
    (hopen : ok 0 = true) :
    wfrStorageSave ok card creds = (decide (writesDone ok 1 5 = 5),
      Function.update card (savePath creds.ssid.bytes)
        (some ((savedLines creds).take (writesDone ok 1 5)))) := by
  have hlen : (savedLines creds).length = 5 := rfl
  rw [wfrStorageSave, if_neg hssid, if_pos hopen, writeLines_eq ok 1 _ (Function.update_self ..),
    Function.update_idem, List.nil_append, hlen]

/-- A save that gets past neither the SSID nor the opening of the file touches nothing. -/
theorem wfrStorageSave_untouched {ok : ℕ → Bool} (card : Card)
    (h : creds.ssid.bytes = [] ∨ ok 0 = false) : wfrStorageSave ok card creds = (false, card) := by
  rw [wfrStorageSave]
  split
  · rfl
  · rename_i hssid
    have hopen : ¬ ok 0 = true := by simpa using h.resolve_left hssid
    exact if_neg hopen

theorem wfrStorageSave_true {ok : ℕ → Bool} {card' : Card}
    (h : wfrStorageSave ok card creds = (true, card')) :
    card' = Function.update card (savePath creds.ssid.bytes) (some (savedLines creds)) := by
  by_cases hfail : creds.ssid.bytes = [] ∨ ok 0 = false
  · rw [wfrStorageSave_untouched card hfail] at h
    cases h
  · rw [not_or, Bool.not_eq_false] at hfail
    rw [wfrStorageSave_eq ok card hfail.1 hfail.2, Prod.mk.injEq, decide_eq_true_eq] at h
    rw [← h.2, h.1]
    rfl

/-- What a path is loaded as depends on the content of that path only. -/
theorem wfrStorageLoad_congr {card' : Card} {path' : Bytes} (h : card path = card' path') :
    wfrStorageLoad card path = wfrStorageLoad card' path' := by
  unfold wfrStorageLoad
  rw [h]

theorem load_none (h : card path = none) : wfrStorageLoad card path = (false, clearedCreds) := by
  rw [wfrStorageLoad, h]

/-- A save that fails leaves the lines it did write in its file and changes what the path is loaded
as, unless it touched nothing or these lines are loaded as the earlier content was. -/
theorem failed_save_load (ok : ℕ → Bool) (card : Card) (creds : WfrWifiCreds)
    (h : (wfrStorageSave ok card creds).1 = false) :
    let card' := (wfrStorageSave ok card creds).2
    let path := savePath creds.ssid.bytes
    (∀ other, other ≠ path → wfrStorageLoad card' other = wfrStorageLoad card other) ∧
    (creds.ssid.bytes ≠ [] → ok 0 = true → writesDone ok 1 5 < 5 ∧
      card' path = some ((savedLines creds).take (writesDone ok 1 5)) ∧
      wfrStorageLoad card' path = partlyLoaded creds (writesDone ok 1 5)) ∧
    (wfrStorageLoad card' path = wfrStorageLoad card path ↔
      creds.ssid.bytes = [] ∨ ok 0 = false ∨
        wfrStorageLoad card path = partlyLoaded creds (writesDone ok 1 5)) := by
  intro card' path
  by_cases hfail : creds.ssid.bytes = [] ∨ ok 0 = false
  · have hcard : card' = card := congrArg Prod.snd (wfrStorageSave_untouched card hfail)
    rw [hcard]
    refine ⟨fun _ _ => rfl, fun hssid hopen => ?_, iff_of_true rfl (or_assoc.mp (.inl hfail))⟩
    exact absurd hfail (by simp [hssid, hopen])
  · rw [not_or, Bool.not_eq_false] at hfail
    have hsave := wfrStorageSave_eq ok card hfail.1 hfail.2
    rw [hsave, decide_eq_false_iff_not] at h
    have hcard : card' = Function.update card path (some ((savedLines creds).take (writesDone ok 1 5))) :=
      congrArg Prod.snd hsave
    have hlines : card' path = some ((savedLines creds).take (writesDone ok 1 5)) := by
      rw [hcard, Function.update_self]
    have hload : wfrStorageLoad card' path = partlyLoaded creds (writesDone ok 1 5) :=
      load_take_savedLines hlines
    refine ⟨fun other hother => ?_, fun _ _ => ⟨?_, hlines, hload⟩, ?_⟩
    · apply wfrStorageLoad_congr
      rw [hcard, Function.update_of_ne hother]
    · exact Nat.lt_of_le_of_ne (writesDone_le ok 1 5) h
    · rw [hload, eq_comm]
      simp [hfail]

private def office : WfrWifiCreds where
  ssid := .ofBytes _ (ascii "Office")
  password := .ofBytes _ (ascii "secret12")
  security := wfrSecWpa
  hidden := false

private def officeCard : Card := fun path =>
  if path = savePath (ascii "Office") then some (savedLines office) else none

/-- The write of the header fails. -/
private def openOnly (i : ℕ) : Bool := i = 0

theorem failed_save_load_office :
    let card' := (wfrStorageSave openOnly officeCard office).2
    let path := savePath office.ssid.bytes
    (∀ other, other ≠ path → wfrStorageLoad card' other = wfrStorageLoad officeCard other) ∧
    (office.ssid.bytes ≠ [] → openOnly 0 = true → writesDone openOnly 1 5 < 5 ∧
      card' path = some ((savedLines office).take (writesDone openOnly 1 5)) ∧
      wfrStorageLoad card' path = partlyLoaded office (writesDone openOnly 1 5)) ∧
    (wfrStorageLoad card' path = wfrStorageLoad officeCard path ↔
      office.ssid.bytes = [] ∨ openOnly 0 = false ∨
        wfrStorageLoad officeCard path = partlyLoaded office (writesDone openOnly 1 5)) :=
  failed_save_load openOnly officeCard office (by decide +kernel)

/-- Saving a network again can lose it. -/
theorem failed_save_loses_network :
    (wfrStorageSave openOnly officeCard office).1 = false ∧
      wfrStorageLoad officeCard (savePath office.ssid.bytes) = (true, office) ∧
      wfrStorageLoad (wfrStorageSave openOnly officeCard office).2 (savePath office.ssid.bytes) =
        (false, clearedCreds) := by
  decide +kernel

end SaveAndLoad

/-! ## File names -/

section Names

theorem sanitizeForFilename_length (src : Bytes) (dstSize : ℕ) (h : 1 < dstSize) :
    (sanitizeForFilename src dstSize).length ≤ dstSize - 1 := by
  have hlen : ((src.take (dstSize - 1)).map (fun c => if safeChar c then c else 0x5F)).length ≤
      dstSize - 1 := by
    rw [List.length_map]
    exact List.length_take_le _ _
  rw [sanitizeForFilename]
  split
  · change 1 ≤ dstSize - 1
    omega
  · exact hlen

theorem wfrSaveDir_length : wfrSaveDir.length = 22 := by decide

theorem savePath_eq (ssid : Bytes) :
    savePath ssid = wfrSaveDir ++ (ascii "/" ++ (sanitizeForFilename ssid 48 ++ wfrSaveExt)) := by
  have hlen := sanitizeForFilename_length ssid 48 (by decide)
  have hslash : (ascii "/").length = 1 := rfl
  have hext : wfrSaveExt.length = 5 := rfl
  rw [savePath, snprintf_of_lt]
  · simp only [List.append_assoc]
  · simp only [List.length_append, wfrSaveDir_length, hslash, hext]
    omega

theorem filePath_eq {name : Bytes} (h : name.length ≤ 128) :
    filePath name = wfrSaveDir ++ (ascii "/" ++ name) := by
  have hslash : (ascii "/").length = 1 := rfl
  rw [filePath, snprintf_of_lt]
  · rw [List.append_assoc]
  · simp only [List.length_append, wfrSaveDir_length, hslash]
    omega

/-- A file name that the list cut short is that of no saved network. -/
theorem savePath_ne_cut {name : Bytes} (h : wfrFilenameMax ≤ name.length) (ssid : Bytes) :
    savePath ssid ≠ filePath (name.take (wfrFilenameMax - 1)) := by
  have hmax : wfrFilenameMax = 64 := rfl
  have hext : wfrSaveExt.length = 5 := rfl
  have hcut : (name.take (wfrFilenameMax - 1)).length = 63 := by
    rw [List.length_take]
    omega
  rw [savePath_eq, filePath_eq (by omega)]
  intro he
  have hname := List.append_cancel_left (List.append_cancel_left he)
  have hlen := congrArg List.length hname
  have hsafe := sanitizeForFilename_length ssid 48 (by decide)
  rw [hcut, List.length_append, hext] at hlen
  omega

end Names
end InfraFi.Flipper
