import InfraFi.Daemon.Main
import InfraFi.Flipper.AckDecode

/-! # The answer of the daemon as the Flipper sees it

The daemon looks the address up, chooses a payload and frames it; the Flipper
reassembles the frames, classifies the payload and copies the address.
-/
namespace InfraFi.System
open Base Protocol Reassembly Daemon Flipper

/-- What the receiver makes of a written scancode. -/
def signalOf (f : UInt8 × UInt8) : Option InfraredMessage :=
  some ⟨.rc6, f.1.toUInt32, f.2.toUInt32⟩

/-- The written scancodes all arrive, in order, before the decoder times out. -/
structure Received (timeoutTicks : UInt32) (tr : Trace) (signals : List Reception) : Prop where
  messages : signals.map Reception.message = (written tr).map signalOf
  timely : ∀ first ∈ signals.head?, ∀ s ∈ signals, s.tick - first.tick < timeoutTicks

instance Received.decidable (timeoutTicks : UInt32) (tr : Trace) (signals : List Reception) :
    Decidable (Received timeoutTicks tr signals) :=
  decidable_of_iff (_ ∧ _) ⟨fun h => ⟨h.1, h.2⟩, fun h => ⟨h.1, h.2⟩⟩

theorem frame_of_signal {s : Reception} {address command : UInt8}
    (h : s.message = signalOf (address, command)) :
    s.IsRc6 ∧ s.frame = (s.tick, frameOf address command) := by
  refine ⟨⟨_, h, rfl⟩, ?_⟩
  simp [Reception.frame, h, signalOf]

theorem frames_of_signals {signals : List Reception} {fs : List (UInt8 × UInt8)}
    (hm : signals.map Reception.message = fs.map signalOf) :
    (∀ s ∈ signals, s.IsRc6) ∧
      signals.map (fun s => s.frame.2) = fs.map (fun f => frameOf f.1 f.2) := by
  induction signals generalizing fs with
  | nil =>
    obtain rfl : fs = [] := by simpa using hm.symm
    exact ⟨by simp, rfl⟩
  | cons s signals ih =>
    cases fs with
    | nil => simp at hm
    | cons f fs =>
      simp only [List.map_cons, List.cons.injEq] at hm
      rcases frame_of_signal hm.1 with ⟨hrc6, hframe⟩
      rcases ih hm.2 with ⟨hall, hframes⟩
      refine ⟨List.forall_mem_cons.mpr ⟨hrc6, hall⟩, ?_⟩
      rw [List.map_cons, List.map_cons, hframe, hframes]

/-- Received DATA messages are a stretch of the body of a session. -/
theorem body_of_signals {T start : UInt32} {body : List Reception} {bs : Bytes}
    (hm : body.map Reception.message =
      (bs.map (fun b => (frameAddress wfrFrameTypeData 0, b))).map signalOf)
    (ht : ∀ s ∈ body, s.tick - start < T) :
    (∀ s ∈ body, s.IsRc6) ∧ Body (ackPolicy T) start (body.map Reception.frame) ∧
      items (body.map Reception.frame) = bs := by
  rcases frames_of_signals hm with ⟨hall, hframes⟩
  refine ⟨hall, body_of_data ?_ ht⟩
  rw [hframes, List.map_map]
  exact List.map_congr_left fun b _ => frameOf_data (addressIs_frameAddress (by decide)).2.1

/-- An unfinished answer posts nothing, a whole one its verdict. -/
theorem receiveAll_start {T : UInt32} {text : Bytes} (hpos : 1 ≤ text.length)
    (hlen : text.length ≤ 255) {start : Reception} {body : List Reception} {k : ℕ}
    (hstart : start.message = signalOf (frameAddress wfrFrameTypeStart 0, UInt8.ofNat text.length))
    (hbody : body.map Reception.message =
      ((text.take k).map (fun b => (frameAddress wfrFrameTypeData 0, b))).map signalOf)
    (ht : ∀ s ∈ body, s.tick - start.tick < T) :
    (receiveAll T (wiFirStartAckListener T) (start :: body)).events = [] ∧
      ∃ v : Session UInt32 UInt8, v.size = text.length ∧ v.opened = start.tick ∧
        v.received = text.take k ∧
        HoldsAck T (receiveAll T (wiFirStartAckListener T) (start :: body)).ackDecoder (some v) := by
  rcases frame_of_signal hstart with ⟨hrc6, hframe⟩
  rcases body_of_signals hbody ht with ⟨hall, hb, hitems⟩
  have hne : text.length ≠ 0 := by omega
  rw [frameOf_start (addressIs_frameAddress (by decide)).1,
    UInt8.toNat_ofNat_of_lt' (by simp only [UInt8.size]; omega)] at hframe
  have hrun := run_body (ackPolicy T) ⟨text.length, start.tick, [], hne, Nat.zero_le _⟩
    (body.map Reception.frame) hb (by rw [hitems]; exact List.length_take_le' _ _)
  have hopen := step_start (ackPolicy T) (t := start.tick) (s := none) rfl hne
  have hquiet : messages (run (ackPolicy T) none ((start :: body).map Reception.frame)).2 = [] := by
    rw [List.map_cons, hframe, run_cons, hopen, hrun]
    exact messages_quiet (body.map Reception.frame).length.succ
  rcases receiveAll_quiet (wiFirStartAckListener T) (List.forall_mem_cons.mpr ⟨hrc6, hall⟩)
    (represents_init _) hquiet with ⟨hrep, hevents⟩
  refine ⟨hevents, ⟨text.length, start.tick, text.take k, hne, List.length_take_le' _ _⟩, rfl, rfl,
    rfl, ?_⟩
  rw [List.map_cons, hframe, run_cons, hopen, hrun] at hrep
  simpa [hitems] using hrep

/-- A whole answer is classified by its first three bytes. -/
theorem receiveAll_whole {T : UInt32} {text : Bytes} (hpos : 1 ≤ text.length)
    (hlen : text.length ≤ 255) (h0 : 0 ∉ text) {signals : List Reception}
    (hm : signals.map Reception.message = (passFrames 0 text).map signalOf)
    (ht : ∀ first ∈ signals.head?, ∀ s ∈ signals, s.tick - first.tick < T) :
    let app := receiveAll T (wiFirStartAckListener T) signals
    app.events = [if text.take 3 = wfrAckPrefixOk then .ackSuccess else .ackFail] ∧
      (text.take 3 = wfrAckPrefixOk → app.ackResultText = CString.ofBytes 63 (text.drop 3)) := by
  intro app
  rw [passFrames, List.cons_append, List.map_cons, List.map_append] at hm
  rcases List.map_eq_cons_iff.mp hm with ⟨start, rest, rfl, hstart, hrest⟩
  rcases List.map_eq_append_iff.mp hrest with ⟨body, last, rfl, hbody, hlast⟩
  rcases List.map_eq_singleton_iff.mp hlast with ⟨fin, rfl, hfin⟩
  have hticks := ht start rfl
  have hpart := receiveAll_start hpos hlen (k := text.length) hstart (by rwa [List.take_length])
    (fun s hs => hticks s (by simp [hs]))
  rw [List.take_length] at hpart
  rcases hpart with ⟨hevents, v, hsize, hopened, hreceived, hholds⟩
  rcases frame_of_signal hfin with ⟨hrc6, hframe⟩
  rw [frameOf_end (addressIs_frameAddress (by decide)).2.2] at hframe
  have hstep : step (ackPolicy T) fin.tick (some v) (.finish (wfrCrc8 text)) =
      (none, .delivered text) := by
    have hlive : timedOut (ackPolicy T) fin.tick (some v) = false := by
      simpa [timedOut, wfrAckDecoderConfig, hopened] using hticks fin (by simp)
    have hfull : ¬ v.received.length ≠ v.size := by rw [hreceived, hsize, not_not]
    have hcheck : ¬ (ackPolicy T).check v.received ≠ wfrCrc8 text := by
      rw [hreceived, not_not]
      rfl
    have hroom : (ackPolicy T).room v.size = true := by
      rw [hsize]
      exact decide_eq_true (Nat.lt_succ_of_le hlen)
    rw [step_of_not_timedOut _ hlive, onFrame, if_neg hfull, if_neg hcheck, if_pos hroom, hreceived]
  rcases wiFirIrRxCallback_step hrc6 hholds with ⟨r, hr, -, hreports⟩
  rw [hframe, hstep] at hreports
  have happ : app = onAckResult (receiveAll T (wiFirStartAckListener T) (start :: body)) r := by
    rw [← hr]
    simp [app, receiveAll]
  rw [happ, onAckResult_delivered hreports h0]
  by_cases hok : text.take 3 = wfrAckPrefixOk
  · simp [hok, hevents]
  · simp [hok, hevents]

/-- Looking the address up writes nothing. -/
theorem lookupIp_writes {success : Bool} {tr : Trace} {r : Bool × Bytes}
    (h : Prog.Run (lookupIp success) tr r) : written tr = [] ∧ AllWritten tr := by
  have hpopens : ∀ e ∈ tr, ∃ cmd x, e = (⟨.popen cmd, x⟩ : Event Call Call.Answer) := by
    cases success with
    | true => exact (run_wfrNetGetIp h).1
    | false =>
      rcases Prog.run_pure.mp h with ⟨rfl, -⟩
      simp
  constructor
  · refine List.filterMap_eq_nil_iff.mpr fun e he => ?_
    rcases hpopens e he with ⟨cmd, x, rfl⟩
    rfl
  · intro e he
    rcases hpopens e he with ⟨cmd, x, rfl⟩
    rfl

theorem lookupIp_text {success : Bool} {tr : Trace} {found : Bool} {ip : Bytes}
    (h : Prog.Run (lookupIp success) tr (found, ip)) :
    0 ∉ ip ∧ ip.length ≤ 31 ∧ (found = true → ip ≠ []) := by
  cases success with
  | true => exact (run_wfrNetGetIp h).2
  | false =>
    rcases Prog.run_pure.mp h with ⟨-, he⟩
    cases he
    simp

/-- What goes out once the lookup is done. -/
theorem run_sendIp {ackFd : ℤ} {success : Bool} {lookup : Bool × Bytes} {tr : Trace}
    (h : Prog.Run (sendIp ackFd success lookup) tr ()) :
    ∃ t ok, Prog.Run (wfrAckSend ackFd success (if lookup.2 ≠ [] then some lookup.2 else none)) t ok ∧
      written tr = written t ∧ (AllWritten tr ↔ AllWritten t) := by
  rcases Prog.run_bind.mp h with ⟨t₁, u, t₂, rfl, h₁, h₂⟩
  obtain rfl := run_call.mp h₁
  rcases Prog.run_bind.mp h₂ with ⟨t₃, ok, t₄, rfl, h₃, h₄⟩
  rcases Prog.run_pure.mp h₄ with ⟨rfl, -⟩
  refine ⟨t₃, ok, h₃, by simp [written], ?_⟩
  simp [AllWritten, writeFailed]

theorem ackText_valid (success : Bool) {ip : Bytes} {ipStr : Option Bytes} (h0 : 0 ∉ ip)
    (hlen : ip.length ≤ 31) (hipStr : (if ip ≠ [] then some ip else none) = ipStr) :
    0 ∉ ackText success ipStr ∧ (ackText success ipStr).length ≤ 255 := by
  have hfail : 0 ∉ wfrAckPrefixFail ∧ wfrAckPrefixFail.length ≤ 255 := by decide
  have hok : 0 ∉ wfrAckPrefixOk ∧ wfrAckPrefixOk.length = 3 := by decide
  subst hipStr
  cases success with
  | false => simpa [ackText] using hfail
  | true =>
    by_cases hip : ip = []
    · simpa [ackText, hip] using hfail
    · simp only [ackText, if_pos hip, List.mem_append, List.length_append]
      exact ⟨fun h => h.elim hok.1 h0, by omega⟩

/-- With the device open and every write done, the Flipper gets the verdict and the address
exactly when a success comes with an address that was found. -/
theorem sendAck_faithful_iff (T : UInt32) (ackFd : ℤ) (success : Bool) (t₁ t₂ : Trace)
    (found : Bool) (ip : Bytes) (hlookup : Prog.Run (lookupIp success) t₁ (found, ip))
    (hrun : Prog.Run (sendAck ackFd success) (t₁ ++ t₂) ()) (signals : List Reception)
    (hrecv : Received T (t₁ ++ t₂) signals) :
    let app := receiveAll T (wiFirStartAckListener T) signals
    (app.events = [if success then .ackSuccess else .ackFail] ∧
      (success = true → app.ackResultText.bytes = if found then ip else [])) ↔
    0 ≤ ackFd ∧ AllWritten (t₁ ++ t₂) ∧ (success = true → found = true) := by
  intro app
  have hposted (hnone : app.events = []) :
      ¬ (app.events = [if success then .ackSuccess else .ackFail] ∧
        (success = true → app.ackResultText.bytes = if found then ip else [])) := by
    simp [hnone]
  obtain ⟨hm, ht⟩ := hrecv
  by_cases hfd : ackFd < 0
  · rw [sendAck, if_pos hfd] at hrun
    rw [(Prog.run_pure.mp hrun).1] at hm
    obtain rfl : signals = [] := by simpa using hm
    exact iff_of_false (hposted rfl) (fun h => absurd h.1 (by omega))
  rw [sendAck, if_neg hfd] at hrun
  rcases run_sendIp (hrun.of_bind hlookup) with ⟨t, ok, hsend, hw, ha⟩
  rcases lookupIp_writes hlookup with ⟨hw₁, ha₁⟩
  rcases lookupIp_text hlookup with ⟨h0, hlen, hfound⟩
  rw [written_append, hw₁, hw, List.nil_append] at hm
  rw [allWritten_append, ha]
  generalize hipStr : (if (found, ip).2 ≠ [] then some (found, ip).2 else none) = ipStr at hsend
  have htext := ackText_valid success h0 hlen hipStr
  have hpos : 1 ≤ (ackText success ipStr).length := List.length_pos_iff.mpr (ackText_ne_nil _ _)
  rcases run_wfrAckSend (by omega) htext.2 hsend with ⟨hall, hwhole⟩ | ⟨hpart, hw₂⟩
  · rw [hwhole] at hm
    obtain ⟨hevents, hresult⟩ := receiveAll_whole hpos htext.2 htext.1 hm ht
    have hall' : AllWritten t₁ ∧ AllWritten t := ⟨ha₁, hall⟩
    rw [show app.events = _ from hevents]
    cases success with
    | false =>
      have hfail : ¬ (ackText false ipStr).take 3 = wfrAckPrefixOk := by simp [ackText]; decide
      simp [hfail, hall', Int.not_lt.mp hfd]
    | true =>
      subst hipStr
      by_cases hip : ip = []
      · have hfail : ¬ (ackText true none).take 3 = wfrAckPrefixOk := by decide
        have hlost : ¬ found = true := fun h => hfound h hip
        simp [hip, hfail, hlost]
      · have hok : (ackText true (some ip)).take 3 = wfrAckPrefixOk := by
          simp [ackText, wfrAckPrefixOk, ascii]
        have hdrop : (ackText true (some ip)).drop 3 = ip := by simp [ackText, wfrAckPrefixOk, ascii]
        have hshown := hresult (by simpa [hip] using hok)
        rw [if_pos hip, hdrop] at hshown
        have hbytes : app.ackResultText.bytes = ip := by
          rw [show app.ackResultText = _ from hshown, CString.ofBytes_bytes h0 (by omega)]
        simp only [if_pos hip, hok, hbytes, if_true, hall', true_and]
        cases found <;> simp [hip, Int.not_lt.mp hfd]
  · refine iff_of_false (hposted ?_) (fun h => hpart h.2.1.2)
    rcases hw₂ with hnil | ⟨k, hsome⟩
    · rw [hnil] at hm
      obtain rfl : signals = [] := by simpa using hm
      rfl
    · rw [hsome, List.map_cons] at hm
      rcases List.map_eq_cons_iff.mp hm with ⟨start, body, rfl, hstart, hbody⟩
      exact (receiveAll_start hpos htext.2 hstart hbody
        (fun s hs => ht start rfl s (by simp [hs]))).1

/-! An interface `wlan0` whose address lookup prints `ip`. -/

private def answerIp (ip : Bytes) (_ : ℕ) : (c : Call) → c.Answer
  | .system _ => some 0
  | .popen cmd => if cmd = detectCmd then some (ascii "wlan0\n") else some ip
  | .sleep _ => ()
  | .delayMs _ => ()
  | .getaddrinfo _ _ => true
  | .writeFile _ _ => true
  | .unlink _ => true
  | .writeScancode _ _ => true

private def lookupTrace (ip : Bytes) : Trace := (Prog.runWith (answerIp ip) 0 (lookupIp true)).1

private def sendTrace (ip : Bytes) (lookup : Bool × Bytes) : Trace :=
  (Prog.runWith (answerIp ip) 2 (sendIp 3 true lookup)).1

/-- The written scancodes, 45 ticks apart, over the wrap of the tick counter. -/
private def signalsOf (tr : Trace) : List Reception :=
  (written tr).zipIdx.map (fun f =>
    ⟨4294967000 + 45 * UInt32.ofNat f.2, signalOf f.1, Vector.replicate _ 0⟩)

private theorem run_traces {ip : Bytes} {lookup : Bool × Bytes}
    (h : (Prog.runWith (answerIp ip) 0 (lookupIp true)).2 = lookup) :
    Prog.Run (lookupIp true) (lookupTrace ip) lookup ∧
      Prog.Run (sendAck 3 true) (lookupTrace ip ++ sendTrace ip lookup) () := by
  have hlookup := Prog.run_runWith (answerIp ip) (lookupIp true) 0
  rw [h] at hlookup
  refine ⟨hlookup, ?_⟩
  rw [sendAck, if_neg (by decide)]
  exact Prog.run_bind.mpr ⟨_, lookup, _, rfl, hlookup, Prog.run_runWith _ _ _⟩

theorem sendAck_faithful_iff_found :
    let tr := lookupTrace (ascii "192.168.1.5\n") ++
      sendTrace (ascii "192.168.1.5\n") (true, ascii "192.168.1.5")
    let app := receiveAll 30000 (wiFirStartAckListener 30000) (signalsOf tr)
    (app.events = [if true then .ackSuccess else .ackFail] ∧
      (true = true → app.ackResultText.bytes = if true then ascii "192.168.1.5" else [])) ↔
    (0 : ℤ) ≤ 3 ∧ AllWritten tr ∧ (true = true → true = true) :=
  sendAck_faithful_iff 30000 3 true _ _ true (ascii "192.168.1.5")
    (run_traces (by decide +kernel)).1 (run_traces (by decide +kernel)).2 _ (by decide +kernel)

/-- A successful join without an IPv4 address is reported as a failure. -/
theorem sendAck_without_ip :
    let tr := lookupTrace [] ++ sendTrace [] (false, [])
    Prog.Run (lookupIp true) (lookupTrace []) (false, []) ∧ Prog.Run (sendAck 3 true) tr () ∧
      AllWritten tr ∧ Received 30000 tr (signalsOf tr) ∧
      (receiveAll 30000 (wiFirStartAckListener 30000) (signalsOf tr)).events = [.ackFail] :=
  ⟨(run_traces (by decide +kernel)).1, (run_traces (by decide +kernel)).2, by decide +kernel,
    by decide +kernel, by decide +kernel⟩

end InfraFi.System
