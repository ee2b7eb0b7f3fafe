import InfraFi.Daemon.Footprint

/-! # When the ACK is sent

Time is the sum of the explicit waits, in milliseconds from the delivery of the
credentials. On the networkd back-end the polls of the association and of the
address decide it.
-/
namespace InfraFi.Daemon
open Base Protocol Prog

/-- The wait that a call is, in milliseconds. -/
def waitMs : Call → ℕ
  | .sleep sec => 1000 * sec
  | .delayMs ms => ms
  | _ => 0

/-- The waits of a run. -/
def waited : Trace → ℕ
  | [] => 0
  | e :: tr => waitMs e.1 + waited tr

/-- The times at which scancodes are written, also those whose write fails, for a run that
starts at `now`. -/
def frameTimes : ℕ → Trace → List ℕ
  | _, [] => []
  | now, e :: tr =>
    (if e.1.kind = .scancode then [now] else []) ++ frameTimes (now + waitMs e.1) tr

/-- The answers to the polls of the association state and of the address. -/
def polls (iface : Bytes) (tr : Trace) : ℕ :=
  (answersTo (wpaStateCmd iface) tr).length + (answersTo (ipAddrCmd iface) tr).length

@[simp] theorem waited_nil : waited [] = 0 := rfl

@[simp] theorem waited_cons (e : Event Call Call.Answer) (tr : Trace) :
    waited (e :: tr) = waitMs e.1 + waited tr := rfl

theorem waited_append (s t : Trace) : waited (s ++ t) = waited s + waited t := by
  induction s with
  | nil => simp
  | cons e s ih => rw [List.cons_append, waited_cons, waited_cons, ih, Nat.add_assoc]

theorem polls_append (iface : Bytes) (s t : Trace) :
    polls iface (s ++ t) = polls iface s + polls iface t := by
  simp only [polls, answersTo_append, List.length_append]
  omega

theorem frameTimes_append (now : ℕ) (s t : Trace) :
    frameTimes now (s ++ t) = frameTimes now s ++ frameTimes (now + waited s) t := by
  induction s generalizing now with
  | nil => rfl
  | cons e s ih =>
    rw [List.cons_append, frameTimes, frameTimes, ih, waited_cons, List.append_assoc, Nat.add_assoc]

section Kinds
variable {ks : List CallKind} {tr : Trace} (h : ∀ e ∈ tr, e.1.kind ∈ ks)
include h

theorem waited_of_kinds (hks : .pause ∉ ks) : waited tr = 0 := by
  induction tr with
  | nil => rfl
  | cons e tr ih =>
    rcases List.forall_mem_cons.mp h with ⟨he, htr⟩
    rcases e with ⟨c, x⟩
    rw [waited_cons, ih htr]
    cases c with
    | sleep sec => exact absurd he hks
    | delayMs ms => exact absurd he hks
    | _ => rfl

theorem frameTimes_of_kinds (hks : .scancode ∉ ks) (now : ℕ) : frameTimes now tr = [] := by
  induction tr generalizing now with
  | nil => rfl
  | cons e tr ih =>
    rcases List.forall_mem_cons.mp h with ⟨he, htr⟩
    have hne : e.1.kind ≠ .scancode := fun heq => hks (heq ▸ he)
    rw [frameTimes, if_neg hne, ih htr]
    rfl

theorem answersTo_of_kinds {cmd : Bytes} (hcmd : (Call.popen cmd).kind = .query) (hks : .query ∉ ks) :
    answersTo cmd tr = [] := by
  rw [answersTo, List.filterMap_eq_nil_iff]
  rintro ⟨c, x⟩ he
  have hkind := h _ he
  cases c with
  | popen c =>
    have hne : c ≠ cmd := by
      rintro rfl
      exact hks (hcmd ▸ hkind)
    simp [hne]
  | _ => rfl

end Kinds

/-! ## The waits of the networkd back-end -/

/-- Every wait of the run is one of two seconds before a poll. -/
def Paced (iface : Bytes) (tr : Trace) : Prop := waited tr = 2000 * polls iface tr

theorem Paced.append {iface : Bytes} {s t : Trace} (hs : Paced iface s) (ht : Paced iface t) :
    Paced iface (s ++ t) := by
  unfold Paced at *
  rw [waited_append, polls_append]
  omega

theorem paced_nil (iface : Bytes) : Paced iface [] := rfl

/-- A query that is neither of the two polls. -/
theorem paced_popen {iface cmd : Bytes} {x : Option Bytes} (hstate : cmd ≠ wpaStateCmd iface)
    (haddr : cmd ≠ ipAddrCmd iface) : Paced iface [⟨.popen cmd, x⟩] := by
  simp [Paced, polls, waitMs, hstate, haddr]

section Paced
variable {iface : Bytes} (hi : iface.length ≤ 31) {tr : Trace}
include hi

theorem paced_of_kinds {ks : List CallKind} (h : ∀ e ∈ tr, e.1.kind ∈ ks) (hpause : .pause ∉ ks)
    (hquery : .query ∉ ks) : Paced iface tr := by
  rw [Paced, polls, waited_of_kinds h hpause, answersTo_of_kinds h (kind_wpaStateCmd hi) hquery,
    answersTo_of_kinds h (kind_ipAddrCmd hi) hquery]
  rfl

theorem paced_wpaCliCmd {command : Bytes} {x : Option Bytes} (h : command.length + 56 ≤ 512) :
    Paced iface [⟨.popen (wpaCliCmd 512 iface command), x⟩] := by
  have hlast : (wpaCliCmd 512 iface command).getLast? = some 0x6C := by
    rw [wpaCliCmd_eq hi h, List.getLast?_append]
    rfl
  have hstate : (wpaStateCmd iface).getLast? = some 0x32 := by
    rw [wpaStateCmd_eq hi, List.getLast?_append]
    rfl
  have haddr : (ipAddrCmd iface).getLast? = some 0x27 := by
    rw [ipAddrCmd_eq hi, List.getLast?_append]
    rfl
  apply paced_popen
  · intro he
    rw [he, hstate] at hlast
    exact absurd hlast (by decide)
  · intro he
    rw [he, haddr] at hlast
    exact absurd hlast (by decide)

theorem paced_waitForWpaAssociationFrom {target : Bytes} {left elapsed : ℕ} {r : ℤ}
    (h : Run (waitForWpaAssociationFrom iface target left elapsed) tr r) : Paced iface tr := by
  have hpoll (u : Unit) (x : Option Bytes) :
      Paced iface ([⟨.sleep 2, u⟩] ++ [⟨.popen (wpaStateCmd iface), x⟩]) := by
    simp [Paced, polls, waitMs, (ipAddrCmd_ne hi).2.1.symm]
  induction left generalizing elapsed tr with
  | zero =>
    rw [(run_pure.mp h).1]
    exact paced_nil iface
  | succ left ih =>
    have hread (y : Option Bytes) : Paced iface [⟨.popen (wpaSsidCmd iface), y⟩] :=
      paced_popen (wpaSsidCmd_ne_state hi) (ipAddrCmd_ne hi).2.2.symm
    cases run_associationPoll h with
    | silent hx => exact hpoll _ _
    | joined hx hy =>
      rw [← List.append_assoc]
      exact (hpoll _ _).append (hread _)
    | elsewhere hx hy hother =>
      rw [← List.append_assoc]
      exact (hpoll _ _).append (hread _)
    | disconnected hx hstate => exact hpoll _ _
    | again hx hstate hrest =>
      rw [← List.append_assoc]
      exact (hpoll _ _).append (ih hrest)

theorem paced_waitForDhcpFrom {left : ℕ} {ok : Bool} (h : Run (waitForDhcpFrom iface left) tr ok) :
    Paced iface tr := by
  have hpoll (u : Unit) (x : Option Bytes) :
      Paced iface ([⟨.sleep 2, u⟩] ++ [⟨.popen (ipAddrCmd iface), x⟩]) := by
    simp [Paced, polls, waitMs, (ipAddrCmd_ne hi).2.1]
  induction left generalizing tr with
  | zero =>
    rw [(run_pure.mp h).1]
    exact paced_nil iface
  | succ left ih =>
    cases run_addressPoll h with
    | addressed hx hip => exact hpoll _ _
    | again hx hrest =>
      rw [← List.append_assoc]
      exact (hpoll _ _).append (ih hrest)

/-- All runs of a program are paced. -/
abbrev Keeps (iface : Bytes) {α : Type} (p : Cmd α) : Prop := ∀ tr a, Run p tr a → Paced iface tr

omit hi in
theorem Keeps.bind {α β : Type} {p : Cmd α} {f : α → Cmd β} (hp : Keeps iface p)
    (hf : ∀ tr a, Run p tr a → Keeps iface (f a)) : Keeps iface (p >>= f) := by
  intro tr b h
  rcases run_bind.mp h with ⟨t₁, a, t₂, rfl, h₁, h₂⟩
  exact (hp t₁ a h₁).append (hf t₁ a h₁ t₂ b h₂)

omit hi in
theorem keeps_pure {α : Type} (a : α) : Keeps iface (pure a : Cmd α) := by
  intro tr b h
  rw [(run_pure.mp h).1]
  exact paced_nil iface

theorem keeps_of_kinds {α : Type} {ks : List CallKind} {p : Cmd α} (hp : Kinds ks p)
    (hpause : .pause ∉ ks) (hquery : .query ∉ ks) : Keeps iface p :=
  fun _ _ h => paced_of_kinds hi (hp.run h) hpause hquery

omit hi in
/-- `if(!p) return false; f`. -/
theorem keeps_guard {p f : Cmd Bool} (hp : Keeps iface p) (hf : Keeps iface f) :
    Keeps iface (p >>= fun ok => if ¬ ok = true then pure false else f) := by
  apply hp.bind
  intro t₁ ok h₁
  split
  · exact keeps_pure false
  · exact hf

omit hi in
theorem keeps_runCmd (cmd : Bytes) : Keeps iface (runCmd cmd) := by
  intro tr status h
  rcases run_runCmd.mp h with ⟨x, rfl, -⟩
  simp [Paced, polls, waitMs]

theorem keeps_wpaCliCmd {command : Bytes} (h : command.length + 56 ≤ 512) :
    Keeps iface (runWpaCmd (wpaCliCmd 512 iface command)) := by
  intro tr ok hrun
  rcases run_runWpaCmd.mp hrun with ⟨x, rfl, -⟩
  exact paced_wpaCliCmd hi h

theorem keeps_finishNetworkd (creds : WfrWifiCreds) : Keeps iface (finishNetworkd iface creds) := by
  apply Keeps.bind (fun _ _ h => paced_waitForWpaAssociationFrom hi h)
  intro t₁ r h₁
  split
  · exact keeps_pure false
  apply (keeps_runCmd _).bind
  intro t₂ status h₂
  apply keeps_guard (fun _ _ h => paced_waitForDhcpFrom hi h)
  apply (keeps_of_kinds hi kinds_verifyConnectivity (by simp) (by simp)).bind
  intro t₃ probe h₃
  apply (keeps_wpaCliCmd hi (by decide)).bind
  intro t₄ updated h₄
  apply (keeps_wpaCliCmd hi (by decide)).bind
  intro t₅ saved h₅
  exact keeps_pure true

/-- What follows `add_network`. -/
theorem keeps_settings {netId : Bytes} (hid : netId.length ≤ 7) (creds : WfrWifiCreds) :
    Keeps iface (do
      if ¬ (← runWpaCmd (setSsidCmd iface netId creds.ssid.bytes)) then return false
      if ¬ (← setSecurity iface netId creds) then return false
      setHidden iface netId creds
      if ¬ (← runWpaCmd (wpaCliCmd 512 iface (ascii "select_network " ++ netId))) then return false
      finishNetworkd iface creds) := by
  apply keeps_guard (keeps_of_kinds hi (kinds_setSsid hi hid creds) (by simp) (by simp))
  apply keeps_guard (keeps_of_kinds hi (kinds_setSecurity hi hid creds) (by simp) (by simp))
  apply (keeps_of_kinds hi (kinds_setHidden hi hid creds) (by simp) (by simp)).bind
  intro t₁ u h₁
  have hlen : (ascii "select_network ").length = 15 := by decide
  have hselect : (ascii "select_network " ++ netId).length + 56 ≤ 512 := by
    rw [List.length_append, hlen]
    omega
  exact keeps_guard (keeps_wpaCliCmd hi hselect) (keeps_finishNetworkd hi creds)

end Paced

/-- The join waits two seconds for each poll and for nothing else. -/
theorem paced_wfrNetConnectNetworkd {creds : WfrWifiCreds} {tr : Trace} {b : Bool}
    (h : Run (wfrNetConnectNetworkd creds) tr b) : Paced (ifaceOf tr) tr := by
  rcases run_bind.mp h with ⟨t₁, found, t₂, rfl, h₁, h₂⟩
  rcases run_detectWifiIface.mp h₁ with ⟨x, rfl, rfl⟩
  have hdetect {iface : Bytes} (hi : iface.length ≤ 31) : Paced iface [⟨.popen detectCmd, x⟩] := by
    apply paced_popen _ (ipAddrCmd_ne hi).1.symm
    intro he
    have hhead := (head?_commands hi).2.2.1
    rw [← he] at hhead
    exact absurd hhead (by decide)
  cases hx : answerLine 32 x with
  | none =>
    rw [hx] at h₂
    rw [(run_pure.mp h₂).1, List.append_nil]
    have hiface : ifaceOf [⟨.popen detectCmd, x⟩] = [] := by simp [ifaceOf, hx]
    rw [hiface]
    exact hdetect (Nat.zero_le _)
  | some iface =>
    have hi : iface.length ≤ 31 := (answerLine_eq_some hx).2.2
    have hiface : ifaceOf ([⟨.popen detectCmd, x⟩] ++ t₂) = iface := by simp [ifaceOf, hx]
    rw [hx] at h₂
    rw [hiface]
    apply (hdetect hi).append
    rcases run_bind.mp h₂ with ⟨t₃, line, t₄, rfl, h₃, h₄⟩
    rcases run_runCmdOutput.mp h₃ with ⟨y, rfl, rfl⟩
    apply (paced_wpaCliCmd hi (by decide)).append
    dsimp only at h₄
    split at h₄
    · rw [(run_pure.mp h₄).1]
      exact paced_nil iface
    · exact keeps_settings hi (lineInto_text 8 y).2 creds _ _ h₄

/-! ## The frames of the ACK -/

@[simp] theorem frameTimes_nil (now : ℕ) : frameTimes now [] = [] := rfl

@[simp] theorem frameTimes_scancode {address command : UInt8} {ok : Bool} (now : ℕ) (tr : Trace) :
    frameTimes now (⟨.writeScancode address command, ok⟩ :: tr) = now :: frameTimes now tr := rfl

@[simp] theorem frameTimes_delay {ms : ℕ} {u : Unit} (now : ℕ) (tr : Trace) :
    frameTimes now (⟨.delayMs ms, u⟩ :: tr) = frameTimes (now + ms) tr := rfl

/-- A run that sends one message and waits before it goes on. -/
theorem run_message {address command : UInt8} {f : Cmd Bool} {tr : Trace} {ok : Bool}
    (h : Run (do
      if ¬ (← sendRc6 address command) then return false
      call (.delayMs wfrRc6InterMsgMs)
      f) tr ok) :
    (∃ x, tr = [⟨.writeScancode address command, x⟩]) ∨
      ∃ x u t, tr = ⟨.writeScancode address command, x⟩ :: ⟨.delayMs wfrRc6InterMsgMs, u⟩ :: t ∧
        Run f t ok := by
  rcases run_guard h with ⟨-, h₁⟩ | ⟨t₁, t₂, rfl, h₁, h₂⟩
  · exact .inl ⟨_, run_call.mp h₁⟩
  · rcases run_bind.mp h₂ with ⟨t₃, u, t₄, rfl, h₃, h₄⟩
    obtain rfl := run_call.mp h₁
    obtain rfl := run_call.mp h₃
    exact .inr ⟨true, u, t₄, rfl, h₄⟩

/-- The DATA messages are sent one delay apart. -/
theorem frameTimes_sendAckData {pass : UInt8} {bs : Bytes} {tr : Trace} {ok : Bool} (now : ℕ)
    (h : Run (sendAckData pass bs) tr ok) :
    waited tr ≤ wfrRc6InterMsgMs * bs.length ∧
      ∀ t ∈ frameTimes now tr, t ≤ now + wfrRc6InterMsgMs * bs.length := by
  induction bs generalizing now tr with
  | nil =>
    rw [(run_pure.mp h).1]
    simp
  | cons b bs ih =>
    rcases run_message h with ⟨x, rfl⟩ | ⟨x, u, t, rfl, ht⟩
    · simp [waitMs]
    · rcases ih (now + wfrRc6InterMsgMs) ht with ⟨hwaited, htimes⟩
      simp only [waited_cons, waitMs, frameTimes_scancode, frameTimes_delay, List.forall_mem_cons,
        List.length_cons, Nat.mul_succ]
      refine ⟨by omega, by omega, fun s hs => ?_⟩
      have hs' := htimes s hs
      omega

/-- The START is sent at once, the END after one delay for each message before it. -/
theorem frameTimes_wfrAckSend {fd : ℤ} {success : Bool} {ipStr : Option Bytes} {tr : Trace} {ok : Bool}
    (now : ℕ) (hfd : 0 ≤ fd) (hlen : (ackText success ipStr).length ≤ 255)
    (h : Run (wfrAckSend fd success ipStr) tr ok) :
    now ∈ frameTimes now tr ∧ ∀ t ∈ frameTimes now tr,
      t ≤ now + wfrRc6InterMsgMs * ((ackText success ipStr).length + 1) := by
  have hne := List.length_pos_iff.mpr (ackText_ne_nil success ipStr)
  unfold wfrAckSend at h
  generalize ackText success ipStr = text at hlen hne h ⊢
  have htake : (snprintf (wfrMaxTotalPayload + 1) text).take text.length = text := by
    rw [snprintf_of_lt (by simp only [wfrMaxTotalPayload]; omega), List.take_length]
  rw [if_neg (by omega)] at h
  simp only [if_neg (by omega : ¬ (text.length = 0 ∨ text.length > 255)), htake] at h
  rcases run_message h with ⟨x, rfl⟩ | ⟨x, u, t, rfl, ht⟩
  · simp
  simp only [frameTimes_scancode, frameTimes_delay, List.mem_cons_self, List.forall_mem_cons, true_and,
    Nat.mul_succ]
  refine ⟨by omega, ?_⟩
  rcases run_guard ht with ⟨-, h₁⟩ | ⟨t₁, t₂, rfl, h₁, h₂⟩
  · intro s hs
    have hs' := (frameTimes_sendAckData (now + wfrRc6InterMsgMs) h₁).2 s hs
    omega
  · have hdata := frameTimes_sendAckData (now + wfrRc6InterMsgMs) h₁
    rw [frameTimes_append]
    refine List.forall_mem_append.mpr ⟨fun s hs => ?_, fun s hs => ?_⟩
    · have hs' := hdata.2 s hs
      omega
    · have hend : ∃ x, t₂ = [⟨.writeScancode (frameAddress wfrFrameTypeEnd 0) (wfrCrc8 text), x⟩] := by
        rcases run_guard h₂ with ⟨-, h₃⟩ | ⟨t₃, t₄, rfl, h₃, h₄⟩
        · exact ⟨_, run_call.mp h₃⟩
        · rw [(run_pure.mp h₄).1, List.append_nil]
          exact ⟨_, run_call.mp h₃⟩
      rcases hend with ⟨x, rfl⟩
      simp only [frameTimes_scancode, frameTimes_nil, List.mem_singleton] at hs
      omega

/-- The buffer of the address bounds the text. -/
theorem ackText_length_le {success : Bool} {ip : Bytes} (hip : ip.length ≤ 31) :
    (ackText success (if ip ≠ [] then some ip else none)).length ≤ 34 := by
  have hlens : wfrAckPrefixOk.length = 3 ∧ wfrAckPrefixFail.length = 4 := by decide
  unfold ackText
  split
  · rename_i text htext
    simp only [ne_eq, ite_not, Option.ite_none_left_eq_some, Option.some.injEq] at htext
    rw [List.length_append, hlens.1, ← htext.2]
    omega
  · rw [hlens.2]
    omega

/-- The pause of a second and then the frames. -/
theorem frameTimes_sendAck {ackFd : ℤ} {success : Bool} {tr : Trace} {u : Unit} (now : ℕ)
    (h : Run (sendAck ackFd success) tr u) :
    (ackFd < 0 → frameTimes now tr = []) ∧
      (0 ≤ ackFd → now + 1000 ∈ frameTimes now tr ∧
        ∀ t ∈ frameTimes now tr, t ≤ now + 1000 + wfrRc6InterMsgMs * 35) := by
  unfold sendAck at h
  split at h
  · rename_i hfd
    rw [(run_pure.mp h).1]
    exact ⟨fun _ => rfl, fun h0 => by omega⟩
  rename_i hfd
  refine ⟨fun hneg => absurd hneg hfd, fun h0 => ?_⟩
  rcases run_bind.mp h with ⟨t₁, lookup, t₂, rfl, h₁, h₂⟩
  have hquery := (kinds_lookupIp success).run h₁
  have hip : lookup.2.length ≤ 31 := by
    cases success with
    | true => exact (run_wfrNetGetIp h₁).2.2.1
    | false =>
      rw [← (run_pure.mp h₁).2]
      exact Nat.zero_le _
  rcases run_bind.mp h₂ with ⟨t₃, v, t₄, rfl, h₃, h₄⟩
  obtain rfl := run_call.mp h₃
  rcases run_bind.mp h₄ with ⟨t₅, ok, t₆, rfl, h₅, h₆⟩
  rw [(run_pure.mp h₆).1, List.append_nil, frameTimes_append, frameTimes_of_kinds hquery (by simp),
    waited_of_kinds hquery (by simp), List.nil_append, Nat.add_zero]
  have htext : (ackText success (if lookup.2 ≠ [] then some lookup.2 else none)).length ≤ 34 :=
    ackText_length_le hip
  have hframes := frameTimes_wfrAckSend (now + 1000) h0 (by omega) h₅
  change now + 1000 ∈ frameTimes (now + 1000) t₅ ∧ ∀ t ∈ frameTimes (now + 1000) t₅, _
  refine ⟨hframes.1, fun t ht => (hframes.2 t ht).trans ?_⟩
  simp only [wfrRc6InterMsgMs]
  omega

theorem frameTimes_reportOutcome {ackFd : ℤ} {prevSsid : Bytes} {connected : Bool} {tr : Trace}
    (now : ℕ) (h : Run (reportOutcome ackFd prevSsid connected) tr ()) :
    (ackFd < 0 → frameTimes now tr = []) ∧
      (0 ≤ ackFd → now + 1000 ∈ frameTimes now tr ∧
        ∀ t ∈ frameTimes now tr, t ≤ now + 1000 + wfrRc6InterMsgMs * 35) := by
  cases connected with
  | true => exact frameTimes_sendAck now h
  | false =>
    rcases run_bind.mp h with ⟨t₁, u, t₂, rfl, h₁, h₂⟩
    have hroll : ∀ e ∈ t₂, e.1.kind ∈
        [CallKind.command, .query, .wpa .reconfigure, .removal, .file] := by
      split at h₂
      · rcases run_bind.mp h₂ with ⟨t₃, ok, t₄, rfl, h₃, h₄⟩
        rw [(run_pure.mp h₄).1, List.append_nil]
        exact (kinds_wfrNetRollback prevSsid).run h₃
      · rw [(run_pure.mp h₂).1]
        simp
    rw [frameTimes_append, frameTimes_of_kinds hroll (by simp), List.append_nil]
    exact frameTimes_sendAck now h₁

/-- What is left of a connection attempt once networkd has been found. -/
theorem run_wfrNetConnect_networkd {creds : WfrWifiCreds} {s₁ s₂ u : Trace} {b : Bool}
    (h : Run (wfrNetConnect creds) (s₁ ++ (s₂ ++ u)) b) (hnm : Run wfrNetHasNetworkmanager s₁ false)
    (hnetworkd : Run hasSystemdNetworkd s₂ true) : Run (wfrNetConnectNetworkd creds) u b := by
  have hasked : s₁ ≠ [] := by
    rcases run_bind.mp hnm with ⟨t₁, status, t₂, rfl, h₁, -⟩
    rcases run_runCmd.mp h₁ with ⟨x, rfl, -⟩
    simp
  unfold wfrNetConnect at h
  split at h
  · have hnil := (run_pure.mp h).1
    exact absurd (List.append_eq_nil_iff.mp hnil).1 hasked
  · exact (h.of_bind hnm).of_bind hnetworkd

/-- On the networkd back-end every frame of the ACK is sent before the Flipper's timeout if and
only if no ACK is sent at all or the two waits take at most fourteen polls. -/
theorem ack_in_time_iff (ackFd : ℤ) (payload : Bytes) (creds : WfrWifiCreds) (prev : Option Bytes)
    (connected : Bool) (t₁ s₁ s₂ u t₃ : Trace)
    (hparse : wfrParseWifiString (cstr payload) = some creds)
    (hrun : Run (handleCredentials ackFd payload) (t₁ ++ ((s₁ ++ (s₂ ++ u)) ++ t₃)) ())
    (hprev : Run (wfrNetGetCurrent (wfrSsidMaxLen + 1)) t₁ prev)
    (hconnect : Run (wfrNetConnect creds) (s₁ ++ (s₂ ++ u)) connected)
    (hnm : Run wfrNetHasNetworkmanager s₁ false) (hnetworkd : Run hasSystemdNetworkd s₂ true) :
    (∀ t ∈ frameTimes 0 (t₁ ++ ((s₁ ++ (s₂ ++ u)) ++ t₃)), t < 1000 * wfrAckTimeoutSec) ↔
      ackFd < 0 ∨ polls (ifaceOf u) u ≤ 14 := by
  rw [handleCredentials, hparse] at hrun
  have hreport : Run (reportOutcome ackFd (prev.getD []) connected) t₃ () :=
    (hrun.of_bind hprev).of_bind hconnect
  have hpaced := paced_wfrNetConnectNetworkd (run_wfrNetConnect_networkd hconnect hnm hnetworkd)
  have hread := (kinds_wfrNetGetCurrent (wfrSsidMaxLen + 1)).run hprev
  have hjoin := (kinds_wfrNetConnect creds).run hconnect
  have hwaited : 0 + waited t₁ + waited (s₁ ++ (s₂ ++ u)) = 2000 * polls (ifaceOf u) u := by
    rw [waited_append, waited_append, waited_of_kinds hread (by simp),
      waited_of_kinds (kinds_hasNetworkmanager.run hnm) (by simp),
      waited_of_kinds (kinds_hasSystemdNetworkd.run hnetworkd) (by simp), hpaced]
    omega
  rw [frameTimes_append, frameTimes_append, frameTimes_of_kinds hread (by simp),
    frameTimes_of_kinds hjoin (by simp), hwaited, List.nil_append, List.nil_append]
  rcases frameTimes_reportOutcome (2000 * polls (ifaceOf u) u) hreport with ⟨hnone, hsome⟩
  by_cases hneg : ackFd < 0
  · rw [hnone hneg]
    exact iff_of_true (by simp) (.inl hneg)
  · rcases hsome (Int.not_lt.mp hneg) with ⟨hstart, hlast⟩
    constructor
    · intro hall
      have hfirst := hall _ hstart
      simp only [wfrAckTimeoutSec] at hfirst
      omega
    · rintro (hfd | hfew) t ht
      · exact absurd hfd hneg
      · have htime := hlast t ht
        simp only [wfrRc6InterMsgMs] at htime
        simp only [wfrAckTimeoutSec]
        omega

/-! The association completes at its tenth poll and the address comes at its eighth. -/

private def answerSlow (i : ℕ) : (c : Call) → c.Answer
  | .system cmd => if cmd = ascii "systemctl is-active --quiet systemd-networkd" then some 0 else some 1
  | .popen cmd =>
    if cmd = detectCmd then some (ascii "wlan0\n")
    else if cmd = wpaCliCmd 512 (ascii "wlan0") (ascii "add_network") then some (ascii "1\n")
    else if cmd = wpaStateCmd (ascii "wlan0") then
      if i < 28 then some (ascii "SCANNING\n") else some (ascii "COMPLETED\n")
    else if cmd = wpaSsidCmd (ascii "wlan0") then if i < 28 then none else some (ascii "Home\n")
    else if cmd = ipAddrCmd (ascii "wlan0") then
      if i < 47 then none else some (ascii "192.168.100.100\n")
    else some (ascii "OK\n")
  | .sleep _ => ()
  | .delayMs _ => ()
  | .getaddrinfo _ _ => true
  | .writeFile _ _ => true
  | .unlink _ => true
  | .writeScancode _ _ => true

private def slowPayload : Bytes := ascii "WIFI:S:Home;T:nopass;;"

private def slowCreds : WfrWifiCreds where
  ssid := CString.ofBytes wfrSsidMaxLen (ascii "Home")
  password := CString.ofBytes wfrPassMaxLen []
  security := wfrSecOpen
  hidden := false

private def slowCurrent : Trace := (runWith answerSlow 0 (wfrNetGetCurrent (wfrSsidMaxLen + 1))).1

private def slowChecks : Trace × Trace :=
  ((runWith answerSlow 3 wfrNetHasNetworkmanager).1, (runWith answerSlow 4 hasSystemdNetworkd).1)

private def slowJoin : Trace := (runWith answerSlow 5 (wfrNetConnectNetworkd slowCreds)).1

private def slowReport : Trace :=
  (runWith answerSlow 0 (handleCredentials 3 slowPayload)).1.drop 51

private theorem slow_runs :
    wfrParseWifiString (cstr slowPayload) = some slowCreds ∧
      Run (handleCredentials 3 slowPayload)
        (slowCurrent ++ ((slowChecks.1 ++ (slowChecks.2 ++ slowJoin)) ++ slowReport)) () ∧
      Run (wfrNetGetCurrent (wfrSsidMaxLen + 1)) slowCurrent none ∧
      Run (wfrNetConnect slowCreds) (slowChecks.1 ++ (slowChecks.2 ++ slowJoin)) true ∧
      Run wfrNetHasNetworkmanager slowChecks.1 false ∧ Run hasSystemdNetworkd slowChecks.2 true := by
  have hrun := run_runWith answerSlow (handleCredentials 3 slowPayload) 0
  have hprev := run_runWith answerSlow (wfrNetGetCurrent (wfrSsidMaxLen + 1)) 0
  have hconnect := run_runWith answerSlow (wfrNetConnect slowCreds) 3
  have hnm := run_runWith answerSlow wfrNetHasNetworkmanager 3
  have hnetworkd := run_runWith answerSlow hasSystemdNetworkd 4
  have hwhole : (runWith answerSlow 0 (handleCredentials 3 slowPayload)).1 =
      slowCurrent ++ ((slowChecks.1 ++ (slowChecks.2 ++ slowJoin)) ++ slowReport) := by decide +kernel
  have hjoin : runWith answerSlow 3 (wfrNetConnect slowCreds) =
      (slowChecks.1 ++ (slowChecks.2 ++ slowJoin), true) := by decide +kernel
  have hnone : (runWith answerSlow 0 (wfrNetGetCurrent (wfrSsidMaxLen + 1))).2 = none := by
    decide +kernel
  have hchecks : (runWith answerSlow 3 wfrNetHasNetworkmanager).2 = false ∧
      (runWith answerSlow 4 hasSystemdNetworkd).2 = true := by decide +kernel
  rw [hwhole] at hrun
  rw [hjoin] at hconnect
  rw [hnone] at hprev
  rw [hchecks.1] at hnm
  rw [hchecks.2] at hnetworkd
  exact ⟨by decide +kernel, hrun, hprev, hconnect, hnm, hnetworkd⟩

theorem ack_in_time_iff_slow :
    (∀ t ∈ frameTimes 0 (slowCurrent ++ ((slowChecks.1 ++ (slowChecks.2 ++ slowJoin)) ++ slowReport)),
        t < 1000 * wfrAckTimeoutSec) ↔
      (3 : ℤ) < 0 ∨ polls (ifaceOf slowJoin) slowJoin ≤ 14 :=
  ack_in_time_iff 3 slowPayload slowCreds none true _ _ _ _ _ slow_runs.1 slow_runs.2.1 slow_runs.2.2.1
    slow_runs.2.2.2.1 slow_runs.2.2.2.2.1 slow_runs.2.2.2.2.2

/-- The join succeeds, and its ACK is sent after 37 seconds. -/
theorem slow_ack_late :
    wfrParseWifiString (cstr slowPayload) = some slowCreds ∧
      Run (handleCredentials 3 slowPayload)
        (slowCurrent ++ ((slowChecks.1 ++ (slowChecks.2 ++ slowJoin)) ++ slowReport)) () ∧
      Run (wfrNetConnect slowCreds) (slowChecks.1 ++ (slowChecks.2 ++ slowJoin)) true ∧
      Run wfrNetHasNetworkmanager slowChecks.1 false ∧ Run hasSystemdNetworkd slowChecks.2 true ∧
      37000 ∈ frameTimes 0
        (slowCurrent ++ ((slowChecks.1 ++ (slowChecks.2 ++ slowJoin)) ++ slowReport)) ∧
      ¬ 37000 < 1000 * wfrAckTimeoutSec :=
  ⟨slow_runs.1, slow_runs.2.1, slow_runs.2.2.2.1, slow_runs.2.2.2.2.1, slow_runs.2.2.2.2.2,
    by decide +kernel, by decide⟩

end InfraFi.Daemon
