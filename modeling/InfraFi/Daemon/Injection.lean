import InfraFi.Daemon.Association
import InfraFi.Daemon.Quoting
import Mathlib.Data.List.Forall2

/-! # Two runs that differ in the credentials

A run of a back-end is compared with a run for credentials made of letters that
gets the same answers. Only the SSID that `wpa_cli` reads back has to differ,
as it is compared with the SSID itself.
-/
namespace InfraFi.Daemon
open Base Protocol Prog Shell

/-- An SSID and a password made of letters, all else as in `c`. -/
structure LettersFor (c l : WfrWifiCreds) : Prop where
  ssid_ne : l.ssid.bytes ≠ []
  ssid : ∀ b ∈ l.ssid.bytes, isLetter b = true
  password : ∀ b ∈ l.password.bytes, isLetter b = true
  security : l.security = c.security
  hidden : l.hidden = c.hidden

/-- The SSID, the password, or both in this order. -/
def Carries (c l : WfrWifiCreds) (vs : List (Bytes × Bytes)) : Prop :=
  vs = [(c.ssid.bytes, l.ssid.bytes)] ∨ vs = [(c.password.bytes, l.password.bytes)] ∨
    vs = [(c.ssid.bytes, l.ssid.bytes), (c.password.bytes, l.password.bytes)]

/-- The same call with the same answer, or two command lines of the same shape. -/
inductive Corresponds (c l : WfrWifiCreds) : Event Call Call.Answer → Event Call Call.Answer → Prop
  | same (e : Event Call Call.Answer) : Corresponds c l e e
  | system {vs : List (Bytes × Bytes)} {cmd cmd' : Bytes} (x : Option UInt8) (hvs : Carries c l vs)
      (h : SameShape vs cmd cmd') : Corresponds c l ⟨.system cmd, x⟩ ⟨.system cmd', x⟩
  | popen {vs : List (Bytes × Bytes)} {cmd cmd' : Bytes} (x : Option Bytes) (hvs : Carries c l vs)
      (h : SameShape vs cmd cmd') : Corresponds c l ⟨.popen cmd, x⟩ ⟨.popen cmd', x⟩
  /-- The SSID read back matches in both runs or in neither. -/
  | readBack {iface : Bytes} {x x' : Option Bytes} (hi : iface.length ≤ 31)
      (h : answerLine (wfrSsidMaxLen + 1) x = some c.ssid.bytes ↔
        answerLine (wfrSsidMaxLen + 1) x' = some l.ssid.bytes) :
      Corresponds c l ⟨.popen (wpaSsidCmd iface), x⟩ ⟨.popen (wpaSsidCmd iface), x'⟩

/-- A run of `q` with the same result whose calls correspond to the given ones. -/
def Matched (c l : WfrWifiCreds) {α : Type} (q : Cmd α) (tr : Trace) (a : α) : Prop :=
  ∃ s, Run q s a ∧ List.Forall₂ (Corresponds c l) tr s

/-- Every run of `p` has its counterpart among the runs of `q`. -/
def Matches (c l : WfrWifiCreds) {α : Type} (p q : Cmd α) : Prop :=
  ∀ tr a, Run p tr a → Matched c l q tr a

section Matches
variable {c l : WfrWifiCreds} {α β : Type}

theorem Matched.refl {p : Cmd α} {tr : Trace} {a : α} (h : Run p tr a) : Matched c l p tr a :=
  ⟨tr, h, List.forall₂_same.mpr fun e _ => .same e⟩

theorem Matched.bind {q : Cmd α} {g : α → Cmd β} {t₁ t₂ : Trace} {a : α} {b : β}
    (hq : Matched c l q t₁ a) (hg : Matched c l (g a) t₂ b) : Matched c l (q >>= g) (t₁ ++ t₂) b := by
  rcases hq with ⟨s₁, hs₁, hc₁⟩
  rcases hg with ⟨s₂, hs₂, hc₂⟩
  exact ⟨s₁ ++ s₂, run_bind.mpr ⟨s₁, a, s₂, rfl, hs₁, hs₂⟩, List.rel_append hc₁ hc₂⟩

theorem Matches.refl (p : Cmd α) : Matches c l p p := fun _ _ h => .refl h

theorem Matches.bind {p q : Cmd α} {f g : α → Cmd β} (hp : Matches c l p q)
    (hf : ∀ a, Matches c l (f a) (g a)) : Matches c l (p >>= f) (q >>= g) := by
  intro tr b h
  rcases run_bind.mp h with ⟨t₁, a, t₂, rfl, h₁, h₂⟩
  exact (hp t₁ a h₁).bind (hf a t₂ b h₂)

/-- Two commands of the same shape. -/
theorem matches_runCmd {cmd cmd' : Bytes} {vs : List (Bytes × Bytes)} (hvs : Carries c l vs)
    (h : SameShape vs cmd cmd') : Matches c l (runCmd cmd) (runCmd cmd') := by
  intro tr a hrun
  rcases run_runCmd.mp hrun with ⟨x, rfl, rfl⟩
  exact ⟨_, run_runCmd.mpr ⟨x, rfl, rfl⟩, .cons (.system x hvs h) .nil⟩

end Matches

/-! ## NetworkManager and the rollback -/

section Nmcli
variable {c l : WfrWifiCreds}

theorem ssid_length (c : WfrWifiCreds) : c.ssid.bytes.length ≤ 63 := c.ssid.length_le.trans (by decide)

theorem matches_wfrNetConnectNmcli (hl : LettersFor c l) :
    Matches c l (wfrNetConnectNmcli c) (wfrNetConnectNmcli l) := by
  rcases shellEscape_eq_some (ssid_length c) with ⟨ssid, hssid, hlen, hrun⟩
  rcases shellEscape_eq_some (ssid_length l) with ⟨ssid', hssid', hlen', hrun'⟩
  rcases shellEscape_eq_some c.password.length_le with ⟨pass, hpass, hplen, hprun⟩
  rcases shellEscape_eq_some l.password.length_le with ⟨pass', hpass', hplen', hprun'⟩
  have hpre : (run .plain (ascii "nmcli dev wifi connect ")).2 = .plain := by decide +kernel
  have hmid : (run .plain (ascii "password ")).2 = .plain := by decide +kernel
  have hshape : ∃ vs, Carries c l vs ∧
      SameShape vs (nmcliConnectCmd c ssid pass) (nmcliConnectCmd l ssid' pass') := by
    by_cases hopen : c.security = wfrSecOpen
    · refine ⟨_, .inl rfl, ?_⟩
      rw [nmcliConnectCmd_open hopen hlen, nmcliConnectCmd_open (hl.security.trans hopen) hlen',
        hl.hidden]
      exact .cons [] [] hpre (by simpa using hrun) (by simpa using hrun')
        (.refl (tokenise_nmcliTail _))
    · refine ⟨_, .inr (.inr rfl), ?_⟩
      rw [nmcliConnectCmd_password hopen hlen hplen,
        nmcliConnectCmd_password (hl.security ▸ hopen) hlen' hplen', hl.hidden]
      exact .cons [] [] hpre (by simpa using hrun) (by simpa using hrun')
        (.cons [] [] hmid (by simpa using hprun) (by simpa using hprun')
          (.refl (tokenise_nmcliTail _)))
  rcases hshape with ⟨vs, hvs, hshape⟩
  have hnone : ¬ (c.security ≠ wfrSecOpen ∧ some pass = none) := fun h => by cases h.2
  have hnone' : ¬ (l.security ≠ wfrSecOpen ∧ some pass' = none) := fun h => by cases h.2
  unfold wfrNetConnectNmcli
  simp only [hssid, hssid', hpass, hpass', if_neg hnone, if_neg hnone', Option.getD_some]
  exact (matches_runCmd hvs hshape).bind fun _ => .refl _

theorem rollbackCmd_eq {escaped : Bytes} (h : escaped.length < 256) :
    snprintf 512 (ascii "nmcli con up " ++ escaped ++ ascii " 2>&1") =
      ascii "nmcli con up " ++ escaped ++ 0x20 :: ascii "2>&1" := by
  have hlens : (ascii "nmcli con up ").length = 13 ∧ (ascii " 2>&1").length = 5 := by decide
  apply snprintf_of_lt
  simp only [List.length_append, hlens]
  omega

theorem matches_wfrNetRollback (hl : LettersFor c l) (hne : c.ssid.bytes ≠ []) :
    Matches c l (wfrNetRollback c.ssid.bytes) (wfrNetRollback l.ssid.bytes) := by
  rcases shellEscape_eq_some (ssid_length c) with ⟨ssid, hssid, hlen, hrun⟩
  rcases shellEscape_eq_some (ssid_length l) with ⟨ssid', hssid', hlen', hrun'⟩
  have hpre : (run .plain (ascii "nmcli con up ")).2 = .plain := by decide +kernel
  have hnmcli : Matches c l (rollbackNmcli c.ssid.bytes) (rollbackNmcli l.ssid.bytes) := by
    unfold rollbackNmcli
    simp only [hssid, hssid', rollbackCmd_eq hlen, rollbackCmd_eq hlen']
    apply (matches_runCmd (.inl rfl) ?_).bind fun _ => .refl _
    exact .cons [] [] hpre (by simpa using hrun) (by simpa using hrun') (.refl (by decide +kernel))
  unfold wfrNetRollback
  rw [if_neg hne, if_neg hl.ssid_ne]
  apply (Matches.refl _).bind
  intro nm
  cases nm with
  | true => exact hnmcli
  | false => exact .refl _

end Nmcli

/-! ## The SSID that is read back -/

section ReadBack
variable {c l : WfrWifiCreds}

/-- An answer that matches the other SSID just when the given one matches the SSID. -/
theorem exists_readBack (hl : LettersFor c l) (x : Option Bytes) :
    ∃ x', (answerLine (wfrSsidMaxLen + 1) x = some c.ssid.bytes ↔
        answerLine (wfrSsidMaxLen + 1) x' = some l.ssid.bytes) ∧
      (answerLine (wfrSsidMaxLen + 1) x = none ↔ answerLine (wfrSsidMaxLen + 1) x' = none) := by
  have hletters : answerLine (wfrSsidMaxLen + 1) (some l.ssid.bytes) = some l.ssid.bytes :=
    answerLine_of_notMem hl.ssid_ne l.ssid.nulFree (letters_notMem hl.ssid (by decide))
      l.ssid.length_le
  have hother : answerLine (wfrSsidMaxLen + 1) (some [0x2E]) = some [0x2E] :=
    answerLine_of_notMem (by decide) (by decide) (by decide) (by decide)
  have hdot : [0x2E] ≠ l.ssid.bytes := by
    intro he
    have hletter := hl.ssid 0x2E (he ▸ List.mem_singleton_self _)
    exact absurd hletter (by decide)
  by_cases hmatch : answerLine (wfrSsidMaxLen + 1) x = some c.ssid.bytes
  · exact ⟨some l.ssid.bytes, by simp [hmatch, hletters], by simp [hmatch, hletters]⟩
  by_cases hsame : answerLine (wfrSsidMaxLen + 1) x = some l.ssid.bytes
  · exact ⟨some [0x2E], by simp [hother, hdot, hmatch], by simp [hsame, hother]⟩
  · exact ⟨x, by simp [hmatch, hsame], Iff.rfl⟩

/-- What is made of the SSID that was read back. -/
def readBackResult (ssid : Bytes) : Option Bytes → ℤ
  | some connectedSsid => if connectedSsid ≠ ssid then -1 else 1
  | none => 1

theorem run_readBack {iface ssid : Bytes} {tr : Trace} {r : ℤ} :
    Run (do
      match ← getWpaSsid iface (wfrSsidMaxLen + 1) with
      | some connectedSsid => if connectedSsid ≠ ssid then return (-1 : ℤ) else return 1
      | none => return 1) tr r ↔
    ∃ x, tr = [⟨.popen (wpaSsidCmd iface), x⟩] ∧
      r = readBackResult ssid (answerLine (wfrSsidMaxLen + 1) x) := by
  have heq : (do
      match ← getWpaSsid iface (wfrSsidMaxLen + 1) with
      | some connectedSsid => if connectedSsid ≠ ssid then return (-1 : ℤ) else return 1
      | none => return 1) =
      (do return readBackResult ssid (← getWpaSsid iface (wfrSsidMaxLen + 1)) : Cmd ℤ) := by
    congr 1
    funext line
    cases line with
    | none => rfl
    | some line =>
      simp only [readBackResult]
      split <;> rfl
  rw [heq]
  constructor
  · intro h
    rcases run_bind.mp h with ⟨t₁, line, t₂, rfl, h₁, h₂⟩
    rcases run_runCmdLine.mp h₁ with ⟨x, rfl, rfl⟩
    rcases run_pure.mp h₂ with ⟨rfl, rfl⟩
    exact ⟨x, rfl, rfl⟩
  · rintro ⟨x, rfl, rfl⟩
    exact run_bind.mpr ⟨_, _, [], rfl, run_runCmdLine.mpr ⟨x, rfl, rfl⟩, run_pure.mpr ⟨rfl, rfl⟩⟩

theorem matches_readBack (hl : LettersFor c l) {iface : Bytes} (hi : iface.length ≤ 31) :
    Matches c l
      (do
        match ← getWpaSsid iface (wfrSsidMaxLen + 1) with
        | some connectedSsid => if connectedSsid ≠ c.ssid.bytes then return (-1 : ℤ) else return 1
        | none => return 1)
      (do
        match ← getWpaSsid iface (wfrSsidMaxLen + 1) with
        | some connectedSsid => if connectedSsid ≠ l.ssid.bytes then return (-1 : ℤ) else return 1
        | none => return 1) := by
  intro tr r h
  rcases run_readBack.mp h with ⟨x, rfl, rfl⟩
  rcases exists_readBack hl x with ⟨x', hx', hnone⟩
  have hresult : readBackResult c.ssid.bytes (answerLine (wfrSsidMaxLen + 1) x) =
      readBackResult l.ssid.bytes (answerLine (wfrSsidMaxLen + 1) x') := by
    cases hx : answerLine (wfrSsidMaxLen + 1) x with
    | none => rw [hnone.mp hx, readBackResult, readBackResult]
    | some line =>
      cases hy : answerLine (wfrSsidMaxLen + 1) x' with
      | none => exact absurd (hnone.mpr hy) (by simp [hx])
      | some line' =>
        rw [hx, hy, Option.some.injEq, Option.some.injEq] at hx'
        simp only [readBackResult, ne_eq, hx']
  exact ⟨_, run_readBack.mpr ⟨x', rfl, hresult⟩, .cons (.readBack hi hx') .nil⟩

theorem matches_waitForWpaAssociationFrom (hl : LettersFor c l) {iface : Bytes}
    (hi : iface.length ≤ 31) (polls elapsed : ℕ) :
    Matches c l (waitForWpaAssociationFrom iface c.ssid.bytes polls elapsed)
      (waitForWpaAssociationFrom iface l.ssid.bytes polls elapsed) := by
  induction polls generalizing elapsed with
  | zero => exact .refl _
  | succ polls ih =>
    apply (Matches.refl _).bind
    intro _
    apply (Matches.refl _).bind
    intro state
    cases state with
    | none => exact .refl _
    | some state =>
      dsimp only
      by_cases hcompleted : state = ascii "COMPLETED"
      · rw [if_pos hcompleted, if_pos hcompleted]
        exact matches_readBack hl hi
      · rw [if_neg hcompleted, if_neg hcompleted]
        by_cases hgone : state = ascii "DISCONNECTED" ∧ elapsed > 6
        · rw [if_pos hgone, if_pos hgone]
          exact .refl _
        · rw [if_neg hgone, if_neg hgone]
          exact ih _

theorem matches_finishNetworkd (hl : LettersFor c l) {iface : Bytes} (hi : iface.length ≤ 31) :
    Matches c l (finishNetworkd iface c) (finishNetworkd iface l) :=
  (matches_waitForWpaAssociationFrom hl hi _ _).bind fun _ => .refl _

end ReadBack

/-! ## systemd-networkd -/

/-- The value ends up in one word of a `set_network` command: the text before it leaves the
opening quote outside quotes and comments, and the value does not close it. -/
def QuotesValue (iface netId key value : Bytes) : Prop :=
  (run .plain (beforeValue iface netId key)).2 = .plain ∧ squote ∉ value

instance QuotesValue.decidable (iface netId key value : Bytes) :
    Decidable (QuotesValue iface netId key value) := inferInstanceAs (Decidable (_ ∧ _))

/-- The output of the command that was the `i`-th call. -/
def answerAt (tr : Trace) (i : ℕ) : Option Bytes :=
  match tr[i]? with
  | some ⟨.popen _, x⟩ => x
  | _ => none

/-- The answers let the password be sent; WPA3 takes one command more before it. -/
def SendsPsk (security : UInt8) (tr : Trace) : Prop :=
  security ≠ wfrSecOpen ∧ saysOk (answerAt tr 2) = true ∧
    (security = wfrSecSae → saysOk (answerAt tr 3) = true)

/-- The quotes hold around the SSID and the password, where the answers let them be sent. -/
def QuotesHold (c : WfrWifiCreds) (tr : Trace) : Prop :=
  ∀ iface netId, answerLine 32 (answerAt tr 0) = some iface →
    lineInto [] 8 (answerAt tr 1) = (true, netId) → netId ≠ ascii "FAIL" →
    QuotesValue iface netId (ascii "ssid") c.ssid.bytes ∧
      (SendsPsk c.security tr → QuotesValue iface netId (ascii "psk") c.password.bytes)

theorem saysOk_answerAt_append {t : Trace} (h : saysOk (answerAt t 0) = true) (u : Trace) :
    saysOk (answerAt (t ++ u) 0) = true := by
  cases t with
  | nil => exact absurd h Bool.false_ne_true
  | cons e t => exact h

section Networkd
variable {c l : WfrWifiCreds} {iface netId : Bytes} {tr : Trace} {b : Bool}

theorem matches_runWpaCmd {cmd cmd' : Bytes} {vs : List (Bytes × Bytes)} (hvs : Carries c l vs)
    (h : SameShape vs cmd cmd') : Matches c l (runWpaCmd cmd) (runWpaCmd cmd') := by
  intro tr a hrun
  rcases run_runWpaCmd.mp hrun with ⟨x, rfl, rfl⟩
  exact ⟨_, run_runWpaCmd.mpr ⟨x, rfl, rfl⟩, .cons (.popen x hvs h) .nil⟩

/-- Pasted between single quotes, a value without any is carried by one word. -/
theorem sameShape_valueLine {pre v lv : Bytes} (hpre : (run .plain pre).2 = .plain)
    (hv : squote ∉ v) (hlv : squote ∉ lv) :
    SameShape [(v, lv)] (valueLine pre v) (valueLine pre lv) :=
  .cons [.quoted dquote] [.quoted dquote] hpre (run_pasted hv) (run_pasted hlv)
    (.refl (by decide +kernel))

theorem matches_setSsid (hl : LettersFor c l) (hi : iface.length ≤ 31) (hid : netId.length ≤ 7)
    (hq : QuotesValue iface netId (ascii "ssid") c.ssid.bytes) :
    Matches c l (runWpaCmd (setSsidCmd iface netId c.ssid.bytes))
      (runWpaCmd (setSsidCmd iface netId l.ssid.bytes)) := by
  rw [setSsidCmd_eq hi hid (ssid_length c), setSsidCmd_eq hi hid (ssid_length l)]
  exact matches_runWpaCmd (.inl rfl)
    (sameShape_valueLine hq.1 hq.2 (letters_notMem hl.ssid (by decide)))

theorem matches_setPsk (hl : LettersFor c l) (hi : iface.length ≤ 31) (hid : netId.length ≤ 7)
    (hq : QuotesValue iface netId (ascii "psk") c.password.bytes) :
    Matches c l (runWpaCmd (setPskCmd iface netId c.password.bytes))
      (runWpaCmd (setPskCmd iface netId l.password.bytes)) := by
  rw [setPskCmd_eq hi hid c.password.length_le, setPskCmd_eq hi hid l.password.length_le]
  exact matches_runWpaCmd (.inr (.inl rfl))
    (sameShape_valueLine hq.1 hq.2 (letters_notMem hl.password (by decide)))

/-- A guard that ends the run, and one that lets it go on. -/
theorem Matched.guard_false {p f : Cmd Bool} (hp : Matched c l p tr false) :
    Matched c l (p >>= fun ok => if ¬ ok = true then pure false else f) tr false := by
  have h := hp.bind (g := fun ok => if ¬ ok = true then pure false else f) (Matched.refl (.ret false))
  rwa [List.append_nil] at h

theorem Matched.guard_true {p f : Cmd Bool} {t₁ t₂ : Trace} (hp : Matched c l p t₁ true)
    (hf : Matched c l f t₂ b) :
    Matched c l (p >>= fun ok => if ¬ ok = true then pure false else f) (t₁ ++ t₂) b :=
  hp.bind hf

theorem matched_setSecurity (hl : LettersFor c l) (hi : iface.length ≤ 31) (hid : netId.length ≤ 7)
    (h : Run (setSecurity iface netId c) tr b)
    (hq : c.security ≠ wfrSecOpen → (c.security = wfrSecSae → saysOk (answerAt tr 0) = true) →
      QuotesValue iface netId (ascii "psk") c.password.bytes) :
    Matched c l (setSecurity iface netId l) tr b := by
  unfold setSecurity at h ⊢
  rw [hl.security]
  by_cases hopen : c.security = wfrSecOpen
  · rw [if_pos hopen] at h ⊢
    exact .refl h
  rw [if_neg hopen] at h ⊢
  by_cases hsae : c.security = wfrSecSae
  · rw [if_pos hsae] at h ⊢
    rcases run_guard h with ⟨rfl, h₁⟩ | ⟨t₁, t₂, rfl, h₁, h₂⟩
    · exact (Matched.refl h₁).guard_false
    · rcases run_runWpaCmd.mp h₁ with ⟨x, rfl, hx⟩
      have hpsk := matches_setPsk hl hi hid (hq hopen fun _ => hx.symm)
      exact (Matched.refl h₁).guard_true (hpsk t₂ b h₂)
  · rw [if_neg hsae] at h ⊢
    exact matches_setPsk hl hi hid (hq hopen fun he => absurd he hsae) tr b h

theorem matched_wfrNetConnectNetworkd (hl : LettersFor c l) (h : Run (wfrNetConnectNetworkd c) tr b)
    (hq : QuotesHold c tr) : Matched c l (wfrNetConnectNetworkd l) tr b := by
  rcases run_bind.mp h with ⟨t₁, r, t₂, rfl, h₁, h₂⟩
  apply (Matched.refl h₁).bind
  rcases run_detectWifiIface.mp h₁ with ⟨x, rfl, rfl⟩
  cases hx : answerLine 32 x with
  | none =>
    rw [hx] at h₂
    exact .refl h₂
  | some iface =>
    have hi : iface.length ≤ 31 := (answerLine_eq_some hx).2.2
    rw [hx] at h₂
    rcases run_bind.mp h₂ with ⟨t₃, line, t₄, rfl, h₃, h₄⟩
    apply (Matched.refl h₃).bind
    rcases run_runCmdOutput.mp h₃ with ⟨y, rfl, rfl⟩
    have hid : (lineInto [] 8 y).2.length ≤ 7 := (lineInto_text 8 y).2
    dsimp only at h₄ ⊢
    by_cases hfail : ¬ (lineInto [] 8 y).1 = true ∨ (lineInto [] 8 y).2 = ascii "FAIL"
    · rw [if_pos hfail] at h₄ ⊢
      exact .refl h₄
    rw [if_neg hfail] at h₄ ⊢
    have hquotes := hq iface (lineInto [] 8 y).2 hx
      (Prod.ext (Classical.not_not.mp (not_or.mp hfail).1) rfl) (not_or.mp hfail).2
    have hssid := matches_setSsid hl hi hid hquotes.1
    rcases run_guard h₄ with ⟨rfl, h₅⟩ | ⟨t₅, t₆, rfl, h₅, h₆⟩
    · exact (hssid _ _ h₅).guard_false
    apply (hssid _ _ h₅).guard_true
    rcases run_runWpaCmd.mp h₅ with ⟨z, rfl, hz⟩
    rcases run_guard h₆ with ⟨rfl, h₇⟩ | ⟨t₇, t₈, rfl, h₇, h₈⟩
    · apply (matched_setSecurity hl hi hid h₇ fun hopen hsae => ?_).guard_false
      exact hquotes.2 ⟨hopen, hz.symm, hsae⟩
    · have hsecurity : Matched c l (setSecurity iface (lineInto [] 8 y).2 l) t₇ true := by
        apply matched_setSecurity hl hi hid h₇
        intro hopen hsae
        exact hquotes.2 ⟨hopen, hz.symm, fun he => saysOk_answerAt_append (hsae he) t₈⟩
      apply hsecurity.guard_true
      rcases run_bind.mp h₈ with ⟨t₉, u, t₁₀, rfl, h₉, h₁₀⟩
      have hhidden : setHidden iface (lineInto [] 8 y).2 l = setHidden iface (lineInto [] 8 y).2 c := by
        rw [setHidden, setHidden, hl.hidden]
      apply Matched.bind (hhidden ▸ Matched.refl h₉)
      rcases run_guard h₁₀ with ⟨rfl, h₁₁⟩ | ⟨t₁₁, t₁₂, rfl, h₁₁, h₁₂⟩
      · exact (Matched.refl h₁₁).guard_false
      · exact (Matched.refl h₁₁).guard_true (matches_finishNetworkd hl hi _ _ h₁₂)

/-! The calls that send the SSID and the password. -/

theorem run_networkd_ssid (h : Run (wfrNetConnectNetworkd c) tr b)
    (hiface : answerLine 32 (answerAt tr 0) = some iface)
    (hid : lineInto [] 8 (answerAt tr 1) = (true, netId)) (hne : netId ≠ ascii "FAIL") :
    ∃ x y z t, tr = ⟨.popen detectCmd, x⟩ :: ⟨.popen (wpaCliCmd 512 iface (ascii "add_network")), y⟩ ::
        ⟨.popen (setSsidCmd iface netId c.ssid.bytes), z⟩ :: t ∧
      (saysOk z = true → ∃ t₁ ok t₂, t = t₁ ++ t₂ ∧ Run (setSecurity iface netId c) t₁ ok) := by
  rcases run_bind.mp h with ⟨t₁, r, t₂, rfl, h₁, h₂⟩
  rcases run_detectWifiIface.mp h₁ with ⟨x, rfl, rfl⟩
  have hx : answerLine 32 x = some iface := hiface
  rw [hx] at h₂
  rcases run_bind.mp h₂ with ⟨t₃, line, t₄, rfl, h₃, h₄⟩
  rcases run_runCmdOutput.mp h₃ with ⟨y, rfl, rfl⟩
  have hy : lineInto [] 8 y = (true, netId) := hid
  dsimp only at h₄
  rw [hy, if_neg (by simp [hne])] at h₄
  rcases run_guard h₄ with ⟨rfl, h₅⟩ | ⟨t₅, t₆, rfl, h₅, h₆⟩
  · rcases run_runWpaCmd.mp h₅ with ⟨z, rfl, hz⟩
    exact ⟨x, y, z, [], rfl, fun hok => absurd (hz.trans hok) Bool.false_ne_true⟩
  · rcases run_runWpaCmd.mp h₅ with ⟨z, rfl, -⟩
    rcases run_bind.mp h₆ with ⟨t₇, ok, t₈, rfl, h₇, -⟩
    exact ⟨x, y, z, t₇ ++ t₈, rfl, fun _ => ⟨t₇, ok, t₈, rfl, h₇⟩⟩

theorem run_setSecurity_psk {t u : Trace} (h : Run (setSecurity iface netId c) t b)
    (hopen : c.security ≠ wfrSecOpen)
    (hsae : c.security = wfrSecSae → saysOk (answerAt (t ++ u) 0) = true) :
    ∃ v, c.security ≠ wfrSecSae ∧ t = [⟨.popen (setPskCmd iface netId c.password.bytes), v⟩] ∨
      c.security = wfrSecSae ∧ ∃ w, t = [⟨.popen (setNetworkCmd iface netId (ascii "key_mgmt SAE")), w⟩,
        ⟨.popen (setPskCmd iface netId c.password.bytes), v⟩] := by
  rw [setSecurity, if_neg hopen] at h
  by_cases he : c.security = wfrSecSae
  · rw [if_pos he] at h
    rcases run_guard h with ⟨rfl, h₁⟩ | ⟨t₁, t₂, rfl, h₁, h₂⟩
    · rcases run_runWpaCmd.mp h₁ with ⟨w, rfl, hw⟩
      exact absurd (hw.trans (hsae he)) Bool.false_ne_true
    · rcases run_runWpaCmd.mp h₁ with ⟨w, rfl, -⟩
      rcases run_runWpaCmd.mp h₂ with ⟨v, rfl, -⟩
      exact ⟨v, .inr ⟨he, w, rfl⟩⟩
  · rw [if_neg he] at h
    rcases run_runWpaCmd.mp h with ⟨v, rfl, -⟩
    exact ⟨v, .inl ⟨he, rfl⟩⟩

/-- The index of the call that sends the password. -/
def pskIndex (security : UInt8) : ℕ := if security = wfrSecSae then 4 else 3

/-- The calls of a run up to the one that sends the password. -/
structure NetworkdCalls (c : WfrWifiCreds) (iface netId : Bytes) (tr : Trace) : Prop where
  detect : tr[0]? = some ⟨.popen detectCmd, answerAt tr 0⟩
  add : tr[1]? = some ⟨.popen (wpaCliCmd 512 iface (ascii "add_network")), answerAt tr 1⟩
  ssid : tr[2]? = some ⟨.popen (setSsidCmd iface netId c.ssid.bytes), answerAt tr 2⟩
  sae (h : SendsPsk c.security tr) (he : c.security = wfrSecSae) :
    tr[3]? = some ⟨.popen (setNetworkCmd iface netId (ascii "key_mgmt SAE")), answerAt tr 3⟩
  psk (h : SendsPsk c.security tr) :
    tr[pskIndex c.security]? = some ⟨.popen (setPskCmd iface netId c.password.bytes),
      answerAt tr (pskIndex c.security)⟩

theorem networkd_calls (h : Run (wfrNetConnectNetworkd c) tr b)
    (hiface : answerLine 32 (answerAt tr 0) = some iface)
    (hid : lineInto [] 8 (answerAt tr 1) = (true, netId)) (hne : netId ≠ ascii "FAIL") :
    NetworkdCalls c iface netId tr := by
  rcases run_networkd_ssid h hiface hid hne with ⟨x, y, z, t, rfl, hrest⟩
  refine ⟨rfl, rfl, rfl, fun hsent hsae => ?_, fun hsent => ?_⟩
  all_goals
    rcases hrest hsent.2.1 with ⟨t₁, ok, t₂, rfl, hsecurity⟩
    rcases run_setSecurity_psk hsecurity hsent.1 hsent.2.2 with ⟨v, ⟨hno, rfl⟩ | ⟨hyes, w, rfl⟩⟩
  · exact absurd hsae hno
  · rfl
  · rw [pskIndex, if_neg hno]
    rfl
  · rw [pskIndex, if_pos hyes]
    rfl

end Networkd

/-! ## What corresponding runs say about the quotes -/

/-- The same command line, or two of the same shape. -/
def SameLine (c l : WfrWifiCreds) (cmd cmd' : Bytes) : Prop :=
  cmd = cmd' ∨ ∃ vs, Carries c l vs ∧ SameShape vs cmd cmd'

section SameLine
variable {c l : WfrWifiCreds} {iface netId : Bytes} {tr s : Trace} {b : Bool}

theorem getLast?_wpaSsidCmd (hi : iface.length ≤ 31) : (wpaSsidCmd iface).getLast? = some 0x32 := by
  rw [wpaSsidCmd_eq hi, List.getLast?_append]
  rfl

theorem getLast?_wpaCliCmd {command : Bytes} (hi : iface.length ≤ 31) (h : command.length ≤ 400) :
    (wpaCliCmd 512 iface command).getLast? = some 0x6C := by
  have hlens : (ascii "wpa_cli -i ").length = 11 ∧ (ascii " ").length = 1 ∧
      (ascii " 2>/dev/null").length = 12 := by decide
  rw [wpaCliCmd, snprintf_of_lt, List.getLast?_append]
  · rfl
  · simp only [List.length_append, hlens]
    omega

/-- Only the command that reads the SSID back ends in `2`. -/
theorem Corresponds.sameLine {cmd : Bytes} {x : Option Bytes} {e : Event Call Call.Answer}
    (h : Corresponds c l ⟨.popen cmd, x⟩ e) (hend : cmd.getLast? ≠ some 0x32) :
    ∃ cmd', e = ⟨.popen cmd', x⟩ ∧ SameLine c l cmd cmd' := by
  cases h with
  | same => exact ⟨cmd, rfl, .inl rfl⟩
  | popen x hvs h => exact ⟨_, rfl, .inr ⟨_, hvs, h⟩⟩
  | readBack hi h => exact absurd (getLast?_wpaSsidCmd hi) hend

theorem forall₂_getElem? {α β : Type} {R : α → β → Prop} {as : List α} {bs : List β}
    (h : List.Forall₂ R as bs) {i : ℕ} {a : α} (ha : as[i]? = some a) (rest : List β) :
    ∃ b, (bs ++ rest)[i]? = some b ∧ R a b := by
  induction h generalizing i with
  | nil => cases ha
  | cons hab h ih =>
    cases i with
    | zero =>
      cases ha
      exact ⟨_, rfl, hab⟩
    | succ i => exact ih ha

/-- A call that is not the read-back has its counterpart at the same place. -/
theorem corresponding_call (h : List.Forall₂ (Corresponds c l) tr s) {i : ℕ} {cmd : Bytes}
    {x : Option Bytes} (hi : tr[i]? = some ⟨.popen cmd, x⟩) (hend : cmd.getLast? ≠ some 0x32)
    (rest : Trace) :
    answerAt (s ++ rest) i = x ∧ ∀ cmd' x', (s ++ rest)[i]? = some ⟨.popen cmd', x'⟩ →
      SameLine c l cmd cmd' := by
  rcases forall₂_getElem? h hi rest with ⟨e, he, hcorr⟩
  rcases hcorr.sameLine hend with ⟨cmd', rfl, hline⟩
  refine ⟨by rw [answerAt, he], fun cmd'' x' he' => ?_⟩
  cases he.symm.trans he'
  exact hline

/-- Corresponding runs send the SSID and the password in command lines that correspond. -/
theorem sameLine_of_corresponds {rest : Trace} {b' : Bool} (hl : LettersFor c l)
    (h : Run (wfrNetConnectNetworkd c) tr b) (h' : Run (wfrNetConnectNetworkd l) (s ++ rest) b')
    (hcorr : List.Forall₂ (Corresponds c l) tr s)
    (hiface : answerLine 32 (answerAt tr 0) = some iface)
    (hid : lineInto [] 8 (answerAt tr 1) = (true, netId)) (hne : netId ≠ ascii "FAIL") :
    SameLine c l (setSsidCmd iface netId c.ssid.bytes) (setSsidCmd iface netId l.ssid.bytes) ∧
      (SendsPsk c.security tr →
        SameLine c l (setPskCmd iface netId c.password.bytes)
          (setPskCmd iface netId l.password.bytes)) := by
  have hi : iface.length ≤ 31 := (answerLine_eq_some hiface).2.2
  have hnid : netId.length ≤ 7 := by
    have hlen := (lineInto_text 8 (answerAt tr 1)).2
    rwa [hid] at hlen
  have hend {command : Bytes} (hlen : command.length ≤ 400) :
      (wpaCliCmd 512 iface command).getLast? ≠ some 0x32 := by
    rw [getLast?_wpaCliCmd hi hlen]
    decide
  have hset {setting : Bytes} (hlen : setting.length ≤ 300) :
      (setNetworkCmd iface netId setting).getLast? ≠ some 0x32 := by
    have hlens : (ascii "set_network ").length = 12 ∧ (ascii " ").length = 1 := by decide
    apply hend
    simp only [List.length_append, hlens]
    omega
  have hcalls := networkd_calls h hiface hid hne
  have hdetect := corresponding_call hcorr hcalls.detect (by decide) rest
  have hadd := corresponding_call hcorr hcalls.add (hend (by decide)) rest
  have hssidLen := ssid_length c
  have hpassLen : c.password.bytes.length ≤ 63 := c.password.length_le
  have hlens : (ascii "ssid '\"").length = 7 ∧ (ascii "psk '\"").length = 6 ∧
      (ascii "\"'").length = 2 := by decide
  have hssid := corresponding_call hcorr hcalls.ssid
    (hset (by simp only [List.length_append, hlens]; omega)) rest
  have hcalls' := networkd_calls h' (hdetect.1.symm ▸ hiface) (hadd.1.symm ▸ hid) hne
  refine ⟨hssid.2 _ _ hcalls'.ssid, fun hsent => ?_⟩
  have hsent' : SendsPsk l.security (s ++ rest) := by
    rw [hl.security]
    refine ⟨hsent.1, hssid.1.symm ▸ hsent.2.1, fun hsae => ?_⟩
    rw [(corresponding_call hcorr (hcalls.sae hsent hsae) (hset (by decide)) rest).1]
    exact hsent.2.2 hsae
  have hpsk := hcalls'.psk hsent'
  rw [hl.security] at hpsk
  exact (corresponding_call hcorr (hcalls.psk hsent)
    (hset (by simp only [List.length_append, hlens]; omega)) rest).2 _ _ hpsk

end SameLine

/-- An SSID of `n` letters and a password of `m`. -/
def lettersCreds (c : WfrWifiCreds) (n m : ℕ) : WfrWifiCreds where
  ssid := CString.ofBytes wfrSsidMaxLen (List.replicate n 0x61)
  password := CString.ofBytes wfrPassMaxLen (List.replicate m 0x61)
  security := c.security
  hidden := c.hidden

section Letters
variable {c : WfrWifiCreds} {n m : ℕ}

theorem zero_notMem_replicate (n : ℕ) : 0 ∉ List.replicate n (0x61 : UInt8) :=
  fun h => absurd (List.eq_of_mem_replicate h) (by decide)

theorem lettersCreds_ssid (hn : n ≤ 3) :
    (lettersCreds c n m).ssid.bytes = List.replicate n 0x61 := by
  apply CString.ofBytes_bytes (zero_notMem_replicate n)
  rw [List.length_replicate]
  exact hn.trans (by decide)

theorem lettersCreds_password (hm : m ≤ 3) :
    (lettersCreds c n m).password.bytes = List.replicate m 0x61 := by
  apply CString.ofBytes_bytes (zero_notMem_replicate m)
  rw [List.length_replicate]
  exact hm.trans (by decide)

theorem lettersFor_lettersCreds (hn : 1 ≤ n ∧ n ≤ 3) (hm : m ≤ 3) :
    LettersFor c (lettersCreds c n m) := by
  have hletter {k : ℕ} {b : UInt8} (hb : b ∈ List.replicate k 0x61) : isLetter b = true :=
    (List.eq_of_mem_replicate hb).symm ▸ (by decide)
  refine ⟨?_, ?_, ?_, rfl, rfl⟩
  · rw [lettersCreds_ssid hn.2]
    intro he
    have hlen := congrArg List.length he
    rw [List.length_replicate, List.length_nil] at hlen
    omega
  · rw [lettersCreds_ssid hn.2]
    exact fun b hb => hletter hb
  · rw [lettersCreds_password hm]
    exact fun b hb => hletter hb

/-- Two lengths that are not the given one. -/
theorem exists_two_others (k : ℕ) : ∃ i j, 1 ≤ i ∧ i ≤ 3 ∧ 1 ≤ j ∧ j ≤ 3 ∧ i ≠ j ∧ k ≠ i ∧ k ≠ j := by
  by_cases h1 : k = 1
  · exact ⟨2, 3, by omega⟩
  by_cases h2 : k = 2
  · exact ⟨1, 3, by omega⟩
  · exact ⟨1, 2, by omega⟩

end Letters

/-- The values differ, and one of them is made of letters. -/
def Told (q : Bytes × Bytes) : Prop := q.1 ≠ q.2 ∧ ∀ b ∈ q.2, isLetter b = true

theorem Carries.told {c l : WfrWifiCreds} {vs : List (Bytes × Bytes)} (h : Carries c l vs)
    (hs : Told (c.ssid.bytes, l.ssid.bytes)) (hp : Told (c.password.bytes, l.password.bytes)) :
    (∀ q ∈ vs, Told q) ∧
      ((c.ssid.bytes, l.ssid.bytes) ∈ vs ∨ vs = [(c.password.bytes, l.password.bytes)]) ∧
      ((c.password.bytes, l.password.bytes) ∈ vs ∨ vs = [(c.ssid.bytes, l.ssid.bytes)]) := by
  rcases h with rfl | rfl | rfl
  · simp [hs]
  · simp [hp]
  · simp [hs, hp]

/-- Lines of the same shape as one of letters quote the value, unless they carry another one. That
is ruled out by two such shapes, in which the other value is given two lengths. -/
theorem quotes_of_sameShape {pre v lv p lp lp' : Bytes} {vs vs' : List (Bytes × Bytes)}
    (hrest : Resting (run .plain pre).2) (hlv : ∀ b ∈ lv, isLetter b = true)
    (hall : ∀ q ∈ vs, Told q) (hall' : ∀ q ∈ vs', Told q)
    (hvs : (v, lv) ∈ vs ∨ vs = [(p, lp)]) (hvs' : (v, lv) ∈ vs' ∨ vs' = [(p, lp')])
    (hne : lp.length ≠ lp'.length) (h : SameShape vs (valueLine pre v) (valueLine pre lv))
    (h' : SameShape vs' (valueLine pre v) (valueLine pre lv)) :
    (run .plain pre).2 = .plain ∧ squote ∉ v := by
  have hquotes {ws : List (Bytes × Bytes)} (hmem : (v, lv) ∈ ws) (hws : ∀ q ∈ ws, Told q)
      (hshape : SameShape ws (valueLine pre v) (valueLine pre lv)) :
      (run .plain pre).2 = .plain ∧ squote ∉ v := by
    have hplain := plain_of_sameShape hrest hlv (List.ne_nil_of_mem hmem) (fun q hq => (hws q hq).1) hshape
    exact ⟨hplain, notMem_of_sameShape hplain hmem (fun q hq => (hws q hq).2) hshape⟩
  rcases hvs with hmem | rfl
  · exact hquotes hmem hall h
  rcases hvs' with hmem | rfl
  · exact hquotes hmem hall' h'
  · exact absurd (length_of_sameShape h h') hne

/-- Lines that show values of two lengths are not the same. -/
theorem SameLine.shape {c l : WfrWifiCreds} {pre v lv : Bytes}
    (h : SameLine c l (valueLine pre v) (valueLine pre lv)) (hlen : v.length ≠ lv.length) :
    ∃ vs, Carries c l vs ∧ SameShape vs (valueLine pre v) (valueLine pre lv) := by
  rcases h with heq | hshape
  · have he := congrArg List.length heq
    simp only [valueLine, pasted, List.length_append, List.length_cons] at he
    exact absurd (by omega) hlen
  · exact hshape

/-! ## The commands that carry credentials -/

/-- What runs commands with an SSID in them. -/
inductive Task where
  | connectNmcli
  | connectNetworkd
  | rollback
deriving DecidableEq

/-- The rollback goes to the SSID of `creds`. -/
def Task.run : Task → WfrWifiCreds → Cmd Bool
  | .connectNmcli, creds => wfrNetConnectNmcli creds
  | .connectNetworkd, creds => wfrNetConnectNetworkd creds
  | .rollback, creds => wfrNetRollback creds.ssid.bytes

/-- A run whose calls all have their counterpart in a run for any credentials made of letters.
That run makes no other calls, except where the SSID to go back to is empty and none is made. -/
def Uninjected (task : Task) (c : WfrWifiCreds) (tr : Trace) : Prop :=
  ∀ l, LettersFor c l → ∃ s rest b, Run (task.run l) (s ++ rest) b ∧
    List.Forall₂ (Corresponds c l) tr s ∧ (tr ≠ [] → rest = [])

section Tasks
variable {c : WfrWifiCreds} {tr : Trace} {b : Bool}

theorem uninjected_of_matched {task : Task}
    (h : ∀ l, LettersFor c l → Matched c l (task.run l) tr b) : Uninjected task c tr := by
  intro l hl
  rcases h l hl with ⟨s, hs, hcorr⟩
  exact ⟨s, [], b, by rwa [List.append_nil], hcorr, fun _ => rfl⟩

theorem uninjected_rollback (h : Run (wfrNetRollback c.ssid.bytes) tr b) :
    Uninjected .rollback c tr := by
  by_cases hempty : c.ssid.bytes = []
  · rw [wfrNetRollback, if_pos hempty] at h
    rcases run_pure.mp h with ⟨rfl, -⟩
    intro l hl
    rcases exists_run (wfrNetRollback l.ssid.bytes) with ⟨rest, b', hrun⟩
    exact ⟨[], rest, b', hrun, .nil, fun hne => absurd rfl hne⟩
  · exact uninjected_of_matched fun l hl => matches_wfrNetRollback hl hempty tr b h

theorem told_replicate {v : Bytes} {k : ℕ} (hk : v.length ≠ k) : Told (v, List.replicate k 0x61) := by
  constructor
  · intro he
    exact hk ((congrArg List.length he).trans (List.length_replicate ..))
  · intro b hb
    rw [List.eq_of_mem_replicate hb]
    decide

/-- The two lines of a run, compared with those for an SSID of `n` letters and a password of `m`. -/
theorem shapes_of_uninjected {iface netId : Bytes} (h : Run (wfrNetConnectNetworkd c) tr b)
    (hun : Uninjected .connectNetworkd c tr) (hiface : answerLine 32 (answerAt tr 0) = some iface)
    (hid : lineInto [] 8 (answerAt tr 1) = (true, netId)) (hne : netId ≠ ascii "FAIL") {n m : ℕ}
    (hn : 1 ≤ n ∧ n ≤ 3) (hm : m ≤ 3) (hcn : c.ssid.bytes.length ≠ n)
    (hcm : c.password.bytes.length ≠ m) :
    (∃ vs, (∀ q ∈ vs, Told q) ∧ ((c.ssid.bytes, List.replicate n 0x61) ∈ vs ∨
        vs = [(c.password.bytes, List.replicate m 0x61)]) ∧
      SameShape vs (valueLine (beforeValue iface netId (ascii "ssid")) c.ssid.bytes)
        (valueLine (beforeValue iface netId (ascii "ssid")) (List.replicate n 0x61))) ∧
    (SendsPsk c.security tr → ∃ vs, (∀ q ∈ vs, Told q) ∧
      ((c.password.bytes, List.replicate m 0x61) ∈ vs ∨
        vs = [(c.ssid.bytes, List.replicate n 0x61)]) ∧
      SameShape vs (valueLine (beforeValue iface netId (ascii "psk")) c.password.bytes)
        (valueLine (beforeValue iface netId (ascii "psk")) (List.replicate m 0x61))) := by
  have hi : iface.length ≤ 31 := (answerLine_eq_some hiface).2.2
  have hnid : netId.length ≤ 7 := by
    have hlen := (lineInto_text 8 (answerAt tr 1)).2
    rwa [hid] at hlen
  have hl := lettersFor_lettersCreds (c := c) hn hm
  rcases hun _ hl with ⟨s, rest, b', hrun, hcorr, -⟩
  rcases sameLine_of_corresponds hl h hrun hcorr hiface hid hne with ⟨hssid, hpsk⟩
  rw [setSsidCmd_eq hi hnid (ssid_length c), setSsidCmd_eq hi hnid (ssid_length _)] at hssid
  rw [setPskCmd_eq hi hnid c.password.length_le, setPskCmd_eq hi hnid (lettersCreds c n m).password.length_le]
    at hpsk
  have htold {vs : List (Bytes × Bytes)} (hvs : Carries c (lettersCreds c n m) vs) :=
    hvs.told (by rw [lettersCreds_ssid hn.2]; exact told_replicate hcn)
      (by rw [lettersCreds_password hm]; exact told_replicate hcm)
  simp only [lettersCreds_ssid hn.2, lettersCreds_password hm] at hssid hpsk htold
  constructor
  · rcases hssid.shape (by rwa [List.length_replicate]) with ⟨vs, hvs, hshape⟩
    exact ⟨vs, (htold hvs).1, (htold hvs).2.1, hshape⟩
  · intro hsent
    rcases (hpsk hsent).shape (by rwa [List.length_replicate]) with ⟨vs, hvs, hshape⟩
    exact ⟨vs, (htold hvs).1, (htold hvs).2.2, hshape⟩

/-- If a run has its counterparts then the quotes hold in it. -/
theorem quotesHold_of_uninjected (h : Run (wfrNetConnectNetworkd c) tr b)
    (hun : Uninjected .connectNetworkd c tr) : QuotesHold c tr := by
  intro iface netId hiface hid hne
  have hshapes {n m : ℕ} := shapes_of_uninjected (n := n) (m := m) h hun hiface hid hne
  have hletters (k : ℕ) : ∀ b ∈ List.replicate k (0x61 : UInt8), isLetter b = true := by
    intro b hb
    rw [List.eq_of_mem_replicate hb]
    decide
  have hlength {n m : ℕ} (hnm : n ≠ m) :
      (List.replicate n (0x61 : UInt8)).length ≠ (List.replicate m (0x61 : UInt8)).length := by
    rwa [List.length_replicate, List.length_replicate]
  rcases exists_two_others c.ssid.bytes.length with ⟨n, n', hn, hn3, hn', hn3', hnn, hcn, hcn'⟩
  rcases exists_two_others c.password.bytes.length with ⟨m, m', -, hm3, -, hm3', hmm, hcm, hcm'⟩
  rcases hshapes ⟨hn, hn3⟩ hm3 hcn hcm with ⟨⟨vs, hall, hvs, hshape⟩, hpsk⟩
  constructor
  · rcases (hshapes ⟨hn, hn3⟩ hm3' hcn hcm').1 with ⟨vs', hall', hvs', hshape'⟩
    exact quotes_of_sameShape (resting_beforeValue iface netId (ascii "ssi") (by decide))
      (hletters n) hall hall' hvs hvs' (hlength hmm) hshape hshape'
  · intro hsent
    rcases hpsk hsent with ⟨ws, hallw, hws, hshapew⟩
    rcases (hshapes ⟨hn', hn3'⟩ hm3 hcn' hcm).2 hsent with ⟨ws', hallw', hws', hshapew'⟩
    exact quotes_of_sameShape (resting_beforeValue iface netId (ascii "ps") (by decide))
      (hletters m) hallw hallw' hws hws' (hlength hnn) hshapew hshapew'

/-- The credentials change no more than the words that carry them, except where `wpa_cli` is given
text that closes the quotes it is pasted between. -/
theorem uninjected_iff (task : Task) (c : WfrWifiCreds) (tr : Trace) (b : Bool)
    (h : Run (task.run c) tr b) :
    Uninjected task c tr ↔ (task = .connectNetworkd → QuotesHold c tr) := by
  cases task with
  | connectNmcli =>
    have hun : Uninjected .connectNmcli c tr :=
      uninjected_of_matched fun l hl => matches_wfrNetConnectNmcli hl tr b h
    exact iff_of_true hun (fun he => nomatch he)
  | rollback => exact iff_of_true (uninjected_rollback h) (fun he => nomatch he)
  | connectNetworkd =>
    constructor
    · exact fun hun _ => quotesHold_of_uninjected h hun
    · exact fun hq => uninjected_of_matched fun l hl => matched_wfrNetConnectNetworkd hl h (hq rfl)

end Tasks

/-! An SSID that closes the quotes and runs a command of its own. -/

private def rebootCreds : WfrWifiCreds where
  ssid := CString.ofBytes wfrSsidMaxLen (ascii "a'&reboot&'b")
  password := CString.ofBytes wfrPassMaxLen (ascii "password")
  security := wfrSecWpa
  hidden := false

private def answerReboot (i : ℕ) : (c : Call) → c.Answer
  | .system _ => some 0
  | .popen _ =>
    if i = 0 then some (ascii "wlan0\n")
    else if i = 1 then some (ascii "0\n")
    else some (ascii "FAIL\n")
  | .sleep _ => ()
  | .delayMs _ => ()
  | .getaddrinfo _ _ => true
  | .writeFile _ _ => true
  | .unlink _ => true
  | .writeScancode _ _ => true

private def rebootTrace : Trace := (runWith answerReboot 0 (wfrNetConnectNetworkd rebootCreds)).1

private theorem run_reboot : Run (Task.connectNetworkd.run rebootCreds) rebootTrace
    (runWith answerReboot 0 (wfrNetConnectNetworkd rebootCreds)).2 :=
  run_runWith answerReboot (wfrNetConnectNetworkd rebootCreds) 0

theorem uninjected_iff_reboot : Uninjected .connectNetworkd rebootCreds rebootTrace ↔
    (Task.connectNetworkd = .connectNetworkd → QuotesHold rebootCreds rebootTrace) :=
  uninjected_iff .connectNetworkd rebootCreds rebootTrace _ run_reboot

theorem networkd_injects :
    wfrParseWifiString (ascii "WIFI:T:WPA;S:a'&reboot&'b;P:password;;") = some rebootCreds ∧
      ∃ b, Run (Task.connectNetworkd.run rebootCreds) rebootTrace b ∧
        ¬ Uninjected .connectNetworkd rebootCreds rebootTrace := by
  refine ⟨by decide +kernel, _, run_reboot, fun hun => ?_⟩
  have hq := quotesHold_of_uninjected run_reboot hun (ascii "wlan0") (ascii "0") (by decide +kernel)
    (by decide +kernel) (by decide)
  exact absurd hq.1.2 (by decide +kernel)

end InfraFi.Daemon
