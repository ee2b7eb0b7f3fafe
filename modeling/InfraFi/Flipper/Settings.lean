import InfraFi.Flipper.Deletion
import InfraFi.Flipper.SavedNames

/-! # Settings

The settings are a file beside the saved networks. Every change on the settings
screen is saved at once, and the next start of the application loads them.
-/
namespace InfraFi.Flipper
open Base Protocol

def wfrSettingsType : Bytes := ascii "InfraFi Settings"
def wfrSettingsVersion : UInt32 := 1

structure Settings where
  ackEnabled : Bool
  irProtocol : WfrIrProtocol
deriving DecidableEq

/-- The settings in `wi_fir_alloc` before any are loaded. -/
def defaultSettings : Settings := ⟨false, .rc6⟩

/-- The value of an enumerator. -/
def protocolNumber : WfrIrProtocol → UInt32
  | .rc6 => 0
  | .nec => 1

def protocolOf (proto : UInt32) : WfrIrProtocol :=
  -- `proto <= WfrIrProtocolNEC`, and there are two enumerators
  if proto ≤ protocolNumber .nec then (if proto = protocolNumber .rc6 then .rc6 else .nec) else .rc6

/-- The lines of the settings file, in the order of their writes. -/
def settingsLines (s : Settings) : List Line :=
  [.header wfrSettingsType wfrSettingsVersion,
    .uint32 (ascii "WaitForACK") (if s.ackEnabled then 1 else 0),
    .uint32 (ascii "IrProtocol") (protocolNumber s.irProtocol)]

def wfrStorageSaveSettings (ok : ℕ → Bool) (card : Card) (s : Settings) : Bool × Card :=
  -- `open_always` creates the file or empties it
  if ok 0 then
    writeLines ok wfrSettingsFile 1 (settingsLines s) (Function.update card wfrSettingsFile (some []))
  else (false, card)

/-- Whether the file was loaded, and the settings, which are left as they were where it has none. -/
def wfrStorageLoadSettings (card : Card) (s : Settings) : Bool × Settings :=
  match card wfrSettingsFile with
  | none => (false, s)
  | some file =>
    match readNext Line.header? file with
    | none => (false, s)
    | some ((fileType, version), file) =>
      if fileType ≠ wfrSettingsType then (false, s)
      else if version ≠ wfrSettingsVersion then (false, s)
      else
        match readNext (Line.uint32? (ascii "WaitForACK")) file with
        -- the search for the key has read the whole file
        | none => (true, s)
        | some (ack, file) =>
          let s := { s with ackEnabled := ack ≠ 0 }
          match readNext (Line.uint32? (ascii "IrProtocol")) file with
          | none => (true, s)
          | some (proto, _) => (true, { s with irProtocol := protocolOf proto })

/-- The settings that the next start loads. -/
def storedSettings (card : Card) : Settings := (wfrStorageLoadSettings card defaultSettings).2

/-! ## What is saved is loaded -/

section SaveAndLoad
variable {card : Card} {s : Settings}

/-- What a start loads once the first `k` lines of these settings are in the file. -/
def partlySet (s : Settings) : ℕ → Settings
  | 0 | 1 => defaultSettings
  | 2 => { defaultSettings with ackEnabled := s.ackEnabled }
  | _ => s

theorem protocolOf_number (p : WfrIrProtocol) : protocolOf (protocolNumber p) = p := by
  cases p <;> decide

theorem load_take_settingsLines {k : ℕ} (h : card wfrSettingsFile = some ((settingsLines s).take k)) :
    storedSettings card = partlySet s k := by
  rcases s with ⟨ackEnabled, irProtocol⟩
  match k with
  | 0 | 1 =>
    simp [storedSettings, wfrStorageLoadSettings, h, settingsLines, partlySet, readNext, Line.header?]
  | 2 =>
    cases ackEnabled <;>
      simp [storedSettings, wfrStorageLoadSettings, h, settingsLines, partlySet, readNext, Line.header?,
        Line.uint32?]
  | k + 3 =>
    cases ackEnabled <;>
      simp [storedSettings, wfrStorageLoadSettings, h, settingsLines, partlySet, readNext, Line.header?,
        Line.uint32?, protocolOf_number]

theorem wfrStorageSaveSettings_eq (ok : ℕ → Bool) (card : Card) (s : Settings) (hopen : ok 0 = true) :
    wfrStorageSaveSettings ok card s = (decide (writesDone ok 1 3 = 3),
      Function.update card wfrSettingsFile (some ((settingsLines s).take (writesDone ok 1 3)))) := by
  have hlen : (settingsLines s).length = 3 := rfl
  rw [wfrStorageSaveSettings, if_pos hopen, writeLines_eq ok 1 _ (Function.update_self ..),
    Function.update_idem, List.nil_append, hlen]

/-- A save replaces the stored settings by what it has written, if it gets the file open. -/
theorem storedSettings_save (ok : ℕ → Bool) (card : Card) (s : Settings) :
    storedSettings (wfrStorageSaveSettings ok card s).2 =
      if ok 0 then partlySet s (writesDone ok 1 3) else storedSettings card := by
  split
  · rename_i hopen
    apply load_take_settingsLines
    rw [wfrStorageSaveSettings_eq ok card s hopen]
    exact Function.update_self wfrSettingsFile _ card
  · rename_i hclosed
    rw [wfrStorageSaveSettings, if_neg hclosed]

/-- No other file is touched. -/
theorem wfrStorageSaveSettings_of_ne (ok : ℕ → Bool) (card : Card) (s : Settings) {path : Bytes}
    (hne : path ≠ wfrSettingsFile) : (wfrStorageSaveSettings ok card s).2 path = card path := by
  by_cases hopen : ok 0 = true
  · rw [wfrStorageSaveSettings_eq ok card s hopen]
    exact Function.update_of_ne hne _ _
  · rw [wfrStorageSaveSettings, if_neg hopen]

/-- The stored settings depend on their file only. -/
theorem storedSettings_congr {card' : Card} (h : card wfrSettingsFile = card' wfrSettingsFile) :
    storedSettings card = storedSettings card' := by
  unfold storedSettings wfrStorageLoadSettings
  rw [h]

theorem writesDone_of_all {ok : ℕ → Bool} {i n : ℕ} (h : ∀ k, i ≤ k → k < i + n → ok k = true) :
    writesDone ok i n = n := by
  induction n generalizing i with
  | zero => rfl
  | succ n ih =>
    rw [writesDone, if_pos (h i (Nat.le_refl i) (by omega)), ih fun k hi hk => h k (by omega) (by omega)]

end SaveAndLoad

/-! ## The application on its device -/

namespace Gui

def WiFirApp.settings (app : WiFirApp) : Settings := ⟨app.ackEnabled, app.irProtocol⟩

/-- `wi_fir_scene_settings_save`. -/
def wiFirSceneSettingsSave (ok : ℕ → Bool) (app : WiFirApp) : WiFirApp :=
  { app with card := (wfrStorageSaveSettings ok app.card app.settings).2 }

/-- The application behind `wi_fir_alloc`, which loads the settings, and its first scene. -/
def started (card : Card) : WiFirApp :=
  launched card (storedSettings card).ackEnabled (storedSettings card).irProtocol

/-- A change on the settings screen, whose handler saves the settings. -/
def Input.isSettingsChange : Input → Bool
  | .protocolChange _ | .ackChange _ => true
  | _ => false

inductive DeviceInput where
  /-- `writes` tells which operations on the settings file succeed. -/
  | input (i : Input) (writes : ℕ → Bool)
  /-- The application is started, also when it has been cut off. -/
  | start

/-- Inputs whose settings are all written. -/
def written (is : List Input) : List DeviceInput := is.map (fun i => .input i (fun _ => true))

def deviceStep (s : Watched) : DeviceInput → Option Watched
  | .input i writes =>
    (watchedStep s i).map (fun s' =>
      if i.isSettingsChange then (wiFirSceneSettingsSave writes s'.1, s'.2) else s')
  | .start => some (started s.1.card, none)

theorem deviceStep_input {app : WiFirApp} {o : Option Origin} {i : Input} {writes : ℕ → Bool}
    {s' : Watched} (hstep : deviceStep (app, o) (.input i writes) = some s') :
    ∃ app', step app i = some app' ∧ s' =
      (if i.isSettingsChange then wiFirSceneSettingsSave writes app' else app', originAfter app i o) := by
  obtain ⟨s₁, hwatched, rfl⟩ := Option.map_eq_some_iff.mp hstep
  obtain ⟨app', happ, rfl⟩ := Option.map_eq_some_iff.mp hwatched
  refine ⟨app', happ, ?_⟩
  split <;> rfl

end Gui
end InfraFi.Flipper
