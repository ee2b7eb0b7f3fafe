import InfraFi.Flipper.Navigation
import InfraFi.Flipper.Resources

/-! # The security type

The editor of the security type uses it as an index into a table of four names.
It comes from the editor itself, from a tag or from a saved file, where it is a
number of 32 bits that is cut to 8.
-/
namespace InfraFi.Flipper
open Base Protocol

namespace Nfc

/-! ## Tags -/

abbrev SecOk (creds : WfrWifiCreds) : Prop := IsWfrSec creds.security

section Tags
variable {tag : Bytes} {fuel data len : ℕ} {creds : WfrWifiCreds}

theorem wscAttribute_sec {recurse : ℕ → ℕ → WscOut → Exec WscOut} {attrId attrLen value : ℕ}
    {out : WscOut} (hrec : Yields (recurse value attrLen out) (fun o => SecOk o.creds))
    (h : SecOk out.creds) :
    Yields (wscAttribute tag recurse attrId attrLen value out) (fun o => SecOk o.creds) := by
  unfold wscAttribute
  apply Yields.ite hrec
  apply Yields.ite
  · apply Yields.ite
    · exact .bind_any fun ssid => .ok h
    · exact .ok h
  apply Yields.ite
  · apply Yields.ite
    · refine .bind_any fun auth => .ok ?_
      change IsWfrSec (if auth = wscAuthOpen then wfrSecOpen
        else if auth = wscAuthShared then wfrSecWep else wfrSecWpa)
      split
      · decide
      · split <;> decide
    · exact .ok h
  apply Yields.ite
  · apply Yields.ite
    · exact .bind_any fun password => .ok h
    · exact .ok h
  · exact .ok h

theorem parseWscAttributes_sec (fuel data len : ℕ) (out : WscOut) (h : SecOk out.creds) :
    Yields (parseWscAttributes tag fuel data len out) (fun o => SecOk o.creds) := by
  induction fuel generalizing data len out with
  | zero => exact .error
  | succ fuel ih =>
    apply loop_yields (fun s => SecOk s.2.creds)
    · rintro ⟨pos, out⟩ hout
      apply Yields.ite
      · refine .bind_any fun id => .bind_any fun n => .ite (.ok hout) ?_
        exact .bind (wscAttribute_sec (ih _ _ out hout) hout) fun o ho => .ok ho
      · exact .ok hout
    · exact h

theorem recordType_sec (typeLen payloadLen idLen pos : ℕ) (h : SecOk creds) :
    Yields (recordType fuel tag data len creds typeLen payloadLen idLen pos) (fun r => SecOk r.2) := by
  refine .ite (.ok h) (.ite (.ok h) (.bind_any fun bytes => .ite (.ok h) (.ite (.ok h) ?_)))
  have hzero : SecOk clearedCreds := .inl rfl
  exact .bind (parseWscAttributes_sec _ _ _ _ hzero) fun o ho => .ok ho

theorem recordId_sec (flags : UInt8) (typeLen payloadLen pos : ℕ) (h : SecOk creds) :
    Yields (recordId fuel tag data len creds flags typeLen payloadLen pos) (fun r => SecOk r.2) := by
  apply Yields.ite
  · exact .ite (.ok h) (.bind_any fun idLen => recordType_sec _ _ _ _ h)
  · exact recordType_sec _ _ _ _ h

theorem parseNdefRecord_sec (h : SecOk creds) :
    Yields (parseNdefRecord fuel tag data len creds) (fun r => SecOk r.2) := by
  refine .ite (.ok h) (.bind_any fun flags => .ite (.ok h) (.bind_any fun typeLen => .ite ?_ ?_))
  · exact .ite (.ok h) (.bind_any fun payloadLen => recordId_sec _ _ _ _ h)
  · exact .ite (.ok h) (.bind_any fun payloadLen => recordId_sec _ _ _ _ h)

/-- What a pass of the record loop or of the TLV loop ends with or hands on. -/
abbrev PassOk : Pass (ℕ × WfrWifiCreds) (Bool × WfrWifiCreds) → Prop :=
  Pass.Meets (fun t => SecOk t.2) (fun r => SecOk r.2)

theorem ndefRecordAt_sec (flags : UInt8) (hdrSize typeLen idLen payloadLen pos : ℕ) (h : SecOk creds) :
    Yields (ndefRecordAt fuel tag data len flags hdrSize typeLen idLen payloadLen (pos, creds)) PassOk := by
  refine .ite (.ok h) (.bind (parseNdefRecord_sec h) ?_)
  rintro ⟨found, creds⟩ hcreds
  exact .ite (.ok hcreds) (.ite (.ok hcreds) (.ok hcreds))

theorem ndefIdAt_sec (flags : UInt8) (hdrSize typeLen payloadLen pos : ℕ) (h : SecOk creds) :
    Yields (ndefIdAt fuel tag data len flags hdrSize typeLen payloadLen (pos, creds)) PassOk := by
  apply Yields.ite
  · exact .ite (.ok h) (.bind_any fun idLen => ndefRecordAt_sec _ _ _ _ _ _ h)
  · exact ndefRecordAt_sec _ _ _ _ _ _ h

theorem parseNdefMessage_sec (h : SecOk creds) :
    Yields (parseNdefMessage fuel tag data len creds) (fun r => SecOk r.2) := by
  apply loop_yields (fun s => SecOk s.2)
  · rintro ⟨pos, creds⟩ (hcreds : SecOk creds)
    refine .ite (.ok hcreds) (.ite (.ok hcreds) (.bind_any fun flags => .bind_any fun typeLen => .ite ?_ ?_))
    · exact .ite (.ok hcreds) (.bind_any fun payloadLen => ndefIdAt_sec _ _ _ _ _ hcreds)
    · exact .ite (.ok hcreds) (.bind_any fun payloadLen => ndefIdAt_sec _ _ _ _ _ hcreds)
  · exact h

theorem tlvValue_sec (tag : TagImage) (tlvType : UInt8) (tlvLen pos : ℕ) (h : SecOk creds) :
    Yields (tlvValue fuel tag tlvType tlvLen (pos, creds)) PassOk := by
  refine .ite (.ok h) (.ite ?_ (.ok h))
  refine .bind (parseNdefMessage_sec h) ?_
  rintro ⟨found, creds⟩ hcreds
  exact .ite (.ok hcreds) (.ok hcreds)

/-- Whatever is on a tag, its credentials have one of the four security types. -/
theorem wfrNfcParseWifiTag_sec (tag : TagImage) (h : SecOk creds) :
    Yields (wfrNfcParseWifiTag fuel tag creds) (fun r => SecOk r.2) := by
  refine .ite (.ok h) (.bind_any fun magic => .ite (.ok h) ?_)
  apply loop_yields (fun s => SecOk s.2)
  · rintro ⟨pos, creds⟩ (hcreds : SecOk creds)
    refine .ite (.ok hcreds) (.bind_any fun tlvType => .ite (.ok hcreds) (.ite (.ok hcreds)
      (.ite (.ok hcreds) (.bind_any fun lenByte => .ite ?_ (tlvValue_sec _ _ _ _ hcreds)))))
    exact .ite (.ok hcreds) (.bind_any fun tlvLen => tlvValue_sec _ _ _ _ hcreds)
  · exact h

end Tags
end Nfc

namespace Gui

/-! ## The application -/

def securityNames : List Bytes := [ascii "Open", ascii "WPA", ascii "WEP", ascii "SAE"]

/-- `security_names[index]`; there is nothing to read outside the table. -/
def securityName (index : UInt8) : Option Bytes := securityNames[index.toNat]?

/-- The number for the security type in a file that is accepted. -/
def acceptedSecurity (file : List Line) : Option UInt32 :=
  match readNext Line.header? file with
  | none => none
  | some ((fileType, version), file) =>
    if fileType ≠ wfrFileType ∨ version ≠ wfrFileVersion then none
    else
      match readNext (Line.string? (ascii "SSID")) file with
      | none => none
      | some (_, file) =>
        match readNext (Line.uint32? (ascii "Security")) file with
        | none => none
        | some (sec, file) => (readNext (Line.string? (ascii "Password")) file).map (fun _ => sec)

/-- The low byte of the number in a saved file that is selected is at most 3. -/
def SoundFile (app : WiFirApp) : Input → Prop
  | .custom _ => app.scene = some .saved → app.turn = some .savedSelected →
    ∀ network ∈ app.savedNetworks[app.savedState]?, ∀ file ∈ app.card (filePath network.filename),
      ∀ sec ∈ acceptedSecurity file, sec.toNat % 256 ≤ 3
  | _ => True

-- The options are searched, not the values they could hold.
instance SoundFile.decidable (app : WiFirApp) (i : Input) : Decidable (SoundFile app i) :=
  haveI (file : List Line) : Decidable (∀ sec ∈ acceptedSecurity file, sec.toNat % 256 ≤ 3) :=
    Option.decidableForallMem _
  haveI (network : SavedNetwork) : Decidable (∀ file ∈ app.card (filePath network.filename),
      ∀ sec ∈ acceptedSecurity file, sec.toNat % 256 ≤ 3) := Option.decidableForallMem _
  haveI : Decidable (∀ network ∈ app.savedNetworks[app.savedState]?,
      ∀ file ∈ app.card (filePath network.filename),
        ∀ sec ∈ acceptedSecurity file, sec.toNat % 256 ≤ 3) := Option.decidableForallMem _
  decidable_of_iff (i.isCustom = true → app.scene = some .saved → app.turn = some .savedSelected →
    ∀ network ∈ app.savedNetworks[app.savedState]?, ∀ file ∈ app.card (filePath network.filename),
      ∀ sec ∈ acceptedSecurity file, sec.toNat % 256 ≤ 3) (by
    cases i <;> simp [SoundFile, Input.isCustom])

theorem isWfrSec_iff {s : UInt8} : IsWfrSec s ↔ s.toNat ≤ 3 := by
  simp only [IsWfrSec, wfrSecOpen, wfrSecWpa, wfrSecWep, wfrSecSae, ← UInt8.toNat_inj,
    UInt8.reduceToNat]
  omega

theorem isWfrSec_iff_name {s : UInt8} : IsWfrSec s ↔ ∃ name, securityName s = some name := by
  have hlen : securityNames.length = 4 := rfl
  rw [isWfrSec_iff, securityName, ← Option.isSome_iff_exists, isSome_getElem?, hlen]
  omega

/-- A load that succeeds takes the security type from the accepted number. -/
theorem security_of_load {card : Card} {path : Bytes} (h : (wfrStorageLoad card path).1 = true) :
    ∃ file sec, card path = some file ∧ acceptedSecurity file = some sec ∧
      (wfrStorageLoad card path).2.security = sec.toUInt8 := by
  unfold wfrStorageLoad at h ⊢
  split at h
  · cases h
  rename_i file hfile
  refine ⟨file, ?_⟩
  split at h
  · cases h
  rename_i fileType version f₁ hheader
  split at h
  · cases h
  rename_i htype
  split at h
  · cases h
  rename_i hversion
  split at h
  · cases h
  rename_i ssid f₂ hssid
  split at h
  · cases h
  rename_i sec f₃ hsec
  split at h
  · cases h
  rename_i password f₄ hpassword
  refine ⟨sec, hfile, ?_, ?_⟩
  · simp [acceptedSecurity, hheader, htype, hversion, hssid, hsec, hpassword]
  · simp only [htype, hversion, if_false]
    split <;> rfl

/-- The working set and the last scanned credentials have valid security types. -/
structure SoundDesk (d : Desk) : Prop where
  creds : IsWfrSec d.creds.security
  nfcCreds : IsWfrSec d.nfcCreds.security

section Runs
variable {app : WiFirApp} {i : Input} {d d' : Desk}

theorem SoundDesk.keep (h : SoundDesk d) (hk : d.Keeps d') : SoundDesk d' :=
  ⟨hk.creds ▸ h.creds, hk.nfcCreds ▸ h.nfcCreds⟩

theorem SoundDesk.next (h : SoundDesk d) (s : WiFirScene) : SoundDesk (d.next s) :=
  h.keep (Desk.keeps_next s)

theorem SoundDesk.previous (h : SoundDesk d) : SoundDesk d.previous := h.keep Desk.keeps_previous

theorem isWfrSec_selected {env : Env} {o : Origin} (hsound : SoundFile app (.custom env))
    (hcur : app.scene = some .saved) (hturn : app.turn = some .savedSelected)
    (hload : app.selected = some o) : IsWfrSec o.creds.security := by
  have hfile := hsound hcur hturn
  rw [WiFirApp.selected] at hload
  split at hload
  · cases hload
  rename_i network hnetwork
  rw [hnetwork] at hfile
  simp only [Option.ite_none_right_eq_some, Option.some.injEq] at hload
  rcases hload with ⟨hok, rfl⟩
  rcases security_of_load hok with ⟨file, sec, hcard, hsec, heq⟩
  have hle := hfile network rfl file hcard sec hsec
  rw [isWfrSec_iff, heq, UInt32.toNat_toUInt8]
  exact hle

/-- Every source of the working set keeps the security type valid. -/
theorem SoundDesk.change (h : SoundDesk app.desk) (hsound : SoundFile app i) (hc : Change app i d) :
    SoundDesk d := by
  cases hc with
  | stays => exact h
  | goes => exact h.next _
  | ssid | password | entered =>
    apply SoundDesk.next
    exact ⟨h.creds, h.nfcCreds⟩
  | scanned =>
    apply SoundDesk.next
    exact ⟨h.nfcCreds, h.nfcCreds⟩
  | loaded hcur hturn hload =>
    apply SoundDesk.next
    exact ⟨isWfrSec_selected hsound hcur hturn hload, h.nfcCreds⟩
  | previous => exact h.previous
  | deletes =>
    apply SoundDesk.previous
    exact ⟨h.creds, h.nfcCreds⟩
  | home => exact h.keep Desk.keeps_home
  | security index =>
    refine ⟨isWfrSec_iff.mpr ?_, h.nfcCreds⟩
    have hlt := index.isLt
    simp only [UInt8.toNat_ofNat']
    omega
  | hidden => exact ⟨h.creds, h.nfcCreds⟩
  | scans hread => exact ⟨h.creds, Nfc.wfrNfcParseWifiTag_sec _ h.nfcCreds _ hread⟩

end Runs

/-- In every run in which only sound files are selected, the security type is one of the four, and so
is every index that the editor's handlers use. -/
theorem security_valid (card : Card) (ackEnabled : Bool) (irProtocol : WfrIrProtocol) (app : WiFirApp)
    (h : Reach step SoundFile (launched card ackEnabled irProtocol) app) :
    IsWfrSec app.securityType ∧ (∃ name, securityName app.securityType = some name) ∧
      ∀ index app', step app (.securityChange index) = some app' →
        app'.securityType = UInt8.ofNat index ∧ ∃ name, securityName (UInt8.ofNat index) = some name := by
  have hstart : SoundDesk (launched card ackEnabled irProtocol).desk := ⟨.inr (.inl rfl), .inl rfl⟩
  have hkeep : ∀ s i s', SoundDesk s.desk → SoundFile s i → step s i = some s' → SoundDesk s'.desk :=
    fun _ _ _ hd hsound hstep => hd.change hsound (change_of_step hstep)
  have hdesk : SoundDesk app.desk := h.invariant hstart hkeep
  refine ⟨hdesk.creds, isWfrSec_iff_name.mp hdesk.creds, ?_⟩
  intro index app' hstep
  have hsound : SoundFile app (.securityChange index) := trivial
  have hnext := (hdesk.change hsound (change_of_step hstep)).creds
  have hindex : app'.securityType = UInt8.ofNat index := by
    rw [step] at hstep
    split at hstep
    · cases hstep
    simp only [perform, Option.ite_none_right_eq_some, Option.some.injEq] at hstep
    rw [← hstep.2]
  exact ⟨hindex, hindex ▸ isWfrSec_iff_name.mp hnext⟩

/-- A saved network is selected, and after Back the credentials are entered by hand. -/
private def reedited : List Input :=
  [.menuOk 2, handle, .listOk 0, handle, .back calm, .back calm, .menuOk 0, handle,
    .textDone (ascii "cafe"), handle, .textDone [], handle]

theorem security_valid_reedited :
    ∃ app, Reach step SoundFile (launched dockCard true .rc6) app ∧
      app.scene = some .editSecurity ∧ IsWfrSec app.securityType ∧
      (∃ name, securityName app.securityType = some name) ∧
      ∀ index app', step app (.securityChange index) = some app' →
        app'.securityType = UInt8.ofNat index ∧ ∃ name, securityName (UInt8.ofNat index) = some name := by
  have hrun : (runAll (fun s i => if SoundFile s i then step s i else none)
      (launched dockCard true .rc6) reedited).map (fun app =>
        decide (app.scene = some .editSecurity)) = some true := by decide +kernel
  obtain ⟨app, happ, hscene⟩ := Option.map_eq_some_iff.mp hrun
  rw [decide_eq_true_eq] at hscene
  have hreach := Reach.of_runAll happ
  exact ⟨app, hreach, hscene, security_valid dockCard true .rc6 app hreach⟩

/-- The file of the saved network, with a security type that does not exist. -/
private def oddCard : Card := fun path =>
  if path = savePath (ascii "dock") then some [.header wfrFileType wfrFileVersion,
    .string (ascii "SSID") (ascii "dock"), .uint32 (ascii "Security") 7,
    .string (ascii "Password") (ascii "letmein1")]
  else none

/-- The editor is entered with an index outside its table. -/
theorem security_out_of_range :
    ∃ app, Reach step (fun _ _ => True) (launched oddCard true .rc6) app ∧
      app.scene = some .editSecurity ∧ ¬ IsWfrSec app.securityType ∧
      securityName app.securityType = none := by
  have hrun : (runAll (fun s i => if True then step s i else none) (launched oddCard true .rc6)
      reedited).map (fun app => decide (app.scene = some .editSecurity ∧ app.securityType = 7)) =
        some true := by decide +kernel
  obtain ⟨app, happ, hfound⟩ := Option.map_eq_some_iff.mp hrun
  rw [decide_eq_true_eq] at hfound
  obtain ⟨hscene, hseven⟩ := hfound
  refine ⟨app, .of_runAll happ, hscene, ?_⟩
  rw [hseven]
  decide

end Gui
end InfraFi.Flipper
