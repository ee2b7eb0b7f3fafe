import InfraFi.Daemon.Delivery
import InfraFi.Flipper.Encode

/-! # Whole runs of sends into one decoder

A send that is cancelled leaves a transmission open. The decoder looks at the
clock before it looks at the frame, so a later START can be dropped together
with the transmission it finds.
-/
namespace InfraFi.System
open Base Protocol Reassembly Daemon Flipper

/-- One call of the sender and the scancodes that the daemon reads because of it. -/
structure Send where
  creds : WfrWifiCreds
  protocol : WfrIrProtocol
  progress : Option (UInt16 → UInt16 → Bool)
  wifiStr : Vector UInt8 (wfrMaxTotalPayload + 1)
  arrivals : List Scancode

namespace Send

def transmit (s : Send) : Exec (List TxMessage × Bool) :=
  wfrTransmitCredentials s.creds s.protocol s.progress s.wifiStr

def messages (s : Send) : List TxMessage :=
  match s.transmit with
  | .ok r => r.1
  | .error _ => []

/-- The sender returned true. -/
def completed (s : Send) : Bool :=
  match s.transmit with
  | .ok r => r.2
  | .error _ => false

/-- The WiFi string that the sender builds. -/
def wifiString (s : Send) : Bytes :=
  match wfrBuildWifiString s.creds s.wifiStr.toList with
  | .ok r => r.2.take r.1
  | .error _ => []

end Send

/-- The longest time one message is on the air. -/
def messageMaxMs : ℕ := 67

/-- No message comes later than its predecessor's pause and its own length allow. -/
def Paced : List TxMessage → List Scancode → Prop
  | m :: ms, s :: t :: ss =>
    t.now.nanos ≤ s.now.nanos + (messageMaxMs + m.delayMs) * 1000000 ∧ Paced ms (t :: ss)
  | _, _ => True

instance decidablePaced : ∀ ms ss, Decidable (Paced ms ss)
  | [], _ => isTrue trivial
  | _ :: _, [] => isTrue trivial
  | _ :: _, [_] => isTrue trivial
  | _ :: ms, _ :: t :: ss =>
    have := decidablePaced ms (t :: ss)
    inferInstanceAs (Decidable (_ ∧ _))

/-- All the messages of a send arrive, in order and at the sender's pacing. -/
structure Send.Received (s : Send) : Prop where
  bytes : s.arrivals.map (fun a => (a.address, a.command)) =
    s.messages.map (fun m => (m.address, m.command))
  paced : Paced s.messages s.arrivals

instance Send.Received.decidable (s : Send) : Decidable s.Received :=
  decidable_of_iff (_ ∧ _) ⟨fun h => ⟨h.1, h.2⟩, fun h => ⟨h.1, h.2⟩⟩

/-- The payloads that the daemon's main loop takes over. -/
def deliveries (fs : List Fed) : List Bytes :=
  fs.filterMap (fun r => if 0 < r.result then some (r.out.take r.result.toNat) else none)

def completedStrings (sends : List Send) : List Bytes :=
  (sends.filter Send.completed).map Send.wifiString

/-- A START 30 s or more after the one that opened the transmission. -/
def Stale (opened : Option Timespec) (start : Scancode) : Prop :=
  ∃ t ∈ opened, t.nanos + 30 * 1000000000 ≤ start.now.nanos

instance (opened : Option Timespec) (start : Scancode) : Decidable (Stale opened start) :=
  match opened with
  | none => isFalse (by simp [Stale])
  | some t => decidable_of_iff (t.nanos + 30 * 1000000000 ≤ start.now.nanos) (by simp [Stale])

/-- No completed send starts 30 s or more after a START that a cancelled send left open. A
cancelled send whose own START came that late closes the transmission instead. -/
def Timely : Option Timespec → List Send → Prop
  | _, [] => True
  | opened, s :: rest =>
    match s.arrivals with
    | [] => Timely opened rest
    | start :: _ =>
      if Stale opened start then ¬ Uncancelled s.creds s.progress ∧ Timely none rest
      else Timely (if Uncancelled s.creds s.progress then none else some start.now) rest

theorem timely_cons {opened : Option Timespec} {s : Send} {sends : List Send} {start : Scancode}
    {rest : List Scancode} (h : s.arrivals = start :: rest) :
    Timely opened (s :: sends) ↔
      if Stale opened start then ¬ Uncancelled s.creds s.progress ∧ Timely none sends
      else Timely (if Uncancelled s.creds s.progress then none else some start.now) sends := by
  rw [Timely, h]

/-! ## One send -/

theorem deliveries_eq_messages {fs : List Fed} {os : List (Outcome UInt8)}
    (h : List.Forall₂ FeedResult.Reports fs os) : deliveries fs = Reassembly.messages os := by
  induction h with
  | nil => rfl
  | @cons r o fs os hr hrest ih =>
    rw [deliveries] at ih
    rw [deliveries, Reassembly.messages, List.filterMap_cons, List.filterMap_cons, ih]
    cases o with
    | quiet => simp [show r.result = 0 from hr, Outcome.message?, Reassembly.messages]
    | rejected => simp [show r.result = -1 from hr, Outcome.message?, Reassembly.messages]
    | delivered p =>
      obtain ⟨hres, hne, -, hout, -⟩ := hr
      have hpos := List.length_pos_iff.mpr hne
      simp [hpos, hres, hout, Outcome.message?, Reassembly.messages]

/-- Pauses of at most 50 ms keep every arrival close to the first one. -/
theorem Paced.nanos_le {ms : List TxMessage} {s : Scancode} {ss : List Scancode}
    (h : Paced ms (s :: ss)) (hdelay : ∀ m ∈ ms, m.delayMs ≤ 50) (hlen : ss.length < ms.length) :
    ∀ t ∈ ss, t.now.nanos ≤ s.now.nanos + ss.length * 117000000 := by
  induction ss generalizing s ms with
  | nil => simp
  | cons u ss ih =>
    cases ms with
    | nil => simp at hlen
    | cons m ms =>
      obtain ⟨hgap, hrest⟩ := h
      have hm := hdelay m (by simp)
      simp only [messageMaxMs] at hgap
      have htail := ih hrest (fun m hm => hdelay m (by simp [hm])) (by simpa using hlen)
      intro t ht
      have hgap' : u.now.nanos ≤ s.now.nanos + 117000000 :=
        Nat.le_trans hgap (Nat.add_le_add_left (by omega) _)
      rw [List.length_cons, Nat.succ_mul]
      rcases List.mem_cons.mp ht with rfl | ht
      · exact Nat.le_trans hgap' (by omega)
      · exact Nat.le_trans (htail t ht) (by omega)

theorem carriesData_of_map {pass : UInt8} (hpass : pass ≤ wfrFramePassMask) {p : Bytes}
    {body : List Scancode} (h : body.map (fun s => (s.address, s.command)) =
      p.map (fun b => (frameAddress wfrFrameTypeData pass, b))) : CarriesData pass p body := by
  have hall : ∀ s ∈ body, ¬ IsForeign s.address := by
    intro s hs hf
    have hmem := List.mem_map_of_mem (f := fun s : Scancode => (s.address, s.command)) hs
    rw [h] at hmem
    obtain ⟨b, -, hb⟩ := List.mem_map.mp hmem
    have haddr : frameAddress wfrFrameTypeData pass = s.address := congrArg Prod.fst hb
    have hdata : frameOf s.address 0 = .data 0 :=
      frameOf_data (haddr ▸ (addressIs_frameAddress hpass).2.1)
    rw [frameOf_foreign hf] at hdata
    cases hdata
  rw [CarriesData, List.filter_eq_self.mpr (by simpa using hall), h]

/-- The scancodes of a send: none, an unfinished transmission, or a whole one within 30 s. -/
inductive Shape (n : ℕ) (s : Send) : Prop
  | nothing (harr : s.arrivals = []) (hcancel : ¬ Uncancelled s.creds s.progress)
      (hdone : s.completed = false)
  | partly (start : Scancode) (body : List Scancode) (harr : s.arrivals = start :: body)
      (hstart : start.frame = (start.now, .start s.wifiString.length))
      (hbody : Body (policy n) start.now (body.map Scancode.frame))
      (hitems : (items (body.map Scancode.frame)).length ≤ s.wifiString.length)
      (hcancel : ¬ Uncancelled s.creds s.progress) (hdone : s.completed = false)
  | whole (start : Scancode) (body : List Scancode) (fin : Scancode)
      (harr : s.arrivals = start :: body ++ [fin])
      (hstart : start.frame = (start.now, .start s.wifiString.length))
      (hbody : Body (policy n) start.now (body.map Scancode.frame))
      (hitems : items (body.map Scancode.frame) = s.wifiString)
      (hfin : fin.frame = (fin.now, .finish (wfrCrc8 s.wifiString)))
      (hlive : (policy n).expired start.now fin.now = false)
      (hkeep : Uncancelled s.creds s.progress) (hdone : s.completed = true)

theorem Send.wifiString_eq (s : Send) : s.wifiString = fullWifiString s.creds := by
  have hle := fullWifiString_length_le s.creds
  have hbuf : s.wifiStr.toList.length = 256 := Vector.length_toList
  rw [wifiString, wfrBuildWifiString_fits s.creds s.wifiStr.toList (by omega) (by omega)]
  exact List.take_left

theorem Send.wifiString_length (s : Send) :
    0 < s.wifiString.length ∧ s.wifiString.length ≤ 219 := by
  rw [wifiString_eq]
  exact ⟨fullWifiString_length_pos s.creds, fullWifiString_length_le s.creds⟩

/-- The longest send is over well within 30 s of its START. -/
theorem Paced.live {ms : List TxMessage} {s : Scancode} {ss : List Scancode}
    (h : Paced ms (s :: ss)) (hdelay : ∀ m ∈ ms, m.delayMs ≤ 50) (hlen : ss.length < ms.length)
    (hmax : ss.length ≤ 220) : ∀ t ∈ ss, t.now.nanos < s.now.nanos + 30 * 1000000000 := fun t ht =>
  Nat.lt_of_le_of_lt (h.nanos_le hdelay hlen t ht) (Nat.add_lt_add_left (by omega) _)

theorem interMsgMs_le (protocol : WfrIrProtocol) : interMsgMs protocol ≤ 50 := by
  cases protocol <;> decide

private theorem frame_start {start : Scancode} (protocol : WfrIrProtocol) {p : Bytes}
    (hp : p.length ≤ 219) (haddr : start.address = (startMessage protocol p).address)
    (hcmd : start.command = (startMessage protocol p).command) :
    start.frame = (start.now, .start p.length) := by
  rw [Scancode.frame, haddr, hcmd, startMessage, frameOf_start (addressIs_frameAddress (by decide)).1,
    UInt8.toNat_ofNat_of_lt' (by simp only [UInt8.size]; omega)]

private theorem body_of_data {n k : ℕ} {start : Timespec} {protocol : WfrIrProtocol} {p : Bytes}
    {body : List Scancode} (hbytes : body.map (fun a => (a.address, a.command)) =
      ((p.take k).map (dataMessage protocol)).map (fun m => (m.address, m.command)))
    (hin : ∀ s ∈ body, s.now.nanos < start.nanos + 30 * 1000000000) :
    Body (policy n) start (body.map Scancode.frame) ∧
      items (body.map Scancode.frame) = p.take k := by
  rw [List.map_map] at hbytes
  have hcarries : CarriesData 0 (p.take k) body := carriesData_of_map (by decide) hbytes
  exact hcarries.body (by decide) n start hin

theorem Send.transmit_ok {s : Send} {ms : List TxMessage} {ok : Bool}
    (h : s.transmit = .ok (ms, ok)) : s.messages = ms ∧ s.completed = ok := by
  rw [messages, completed, h]
  exact ⟨rfl, rfl⟩

private theorem delay_le (protocol : WfrIrProtocol) (p bs : Bytes) :
    ∀ m ∈ startMessage protocol p :: bs.map (dataMessage protocol), m.delayMs ≤ 50 := by
  refine List.forall_mem_cons.mpr ⟨interMsgMs_le protocol, fun m hm => ?_⟩
  obtain ⟨b, -, rfl⟩ := List.mem_map.mp hm
  exact interMsgMs_le protocol

theorem Send.Received.shape {s : Send} (h : s.Received) (n : ℕ) : Shape n s := by
  have hlen := s.wifiString_length
  obtain ⟨hbytes, hpaced⟩ := h
  have hcases := wfrTransmitCredentials_cases s.creds s.protocol s.progress s.wifiStr
  rw [← s.wifiString_eq] at hcases
  rcases hcases with ⟨hcancel, hsent | ⟨k, hsent⟩⟩ | ⟨hkeep, hsent⟩
  · obtain ⟨hms, hdone⟩ := transmit_ok hsent
    rw [hms] at hbytes
    exact .nothing (List.map_eq_nil_iff.mp hbytes) hcancel hdone
  · obtain ⟨hms, hdone⟩ := transmit_ok hsent
    rw [hms] at hbytes hpaced
    obtain ⟨start, body, harr, hstart, hbody⟩ := List.map_eq_cons_iff.mp hbytes
    have hcount : body.length = (s.wifiString.take k).length := by
      simpa using congrArg List.length hbody
    have hk : (s.wifiString.take k).length ≤ s.wifiString.length := List.length_take_le' _ _
    rw [harr] at hpaced
    have hin := hpaced.live (delay_le _ _ _) (by rw [List.length_cons, List.length_map]; omega)
      (by omega)
    obtain ⟨hb, hitems⟩ := body_of_data (n := n) hbody hin
    refine .partly start body harr ?_ hb (by rw [hitems]; exact hk) hcancel hdone
    exact frame_start s.protocol hlen.2 (congrArg Prod.fst hstart) (congrArg Prod.snd hstart)
  · obtain ⟨hms, hdone⟩ := transmit_ok hsent
    rw [hms, List.cons_append] at hbytes
    rw [hms] at hpaced
    obtain ⟨start, rest, harr, hstart, hrest⟩ := List.map_eq_cons_iff.mp hbytes
    rw [List.map_append] at hrest
    obtain ⟨body, last, rfl, hbody, hlast⟩ := List.map_eq_append_iff.mp hrest
    obtain ⟨fin, rfl, hfin⟩ := List.map_eq_singleton_iff.mp hlast
    have hcount : body.length = s.wifiString.length := by
      simpa using congrArg List.length hbody
    rw [harr] at hpaced
    have hin := hpaced.live
      (List.forall_mem_append.mpr ⟨delay_le _ _ _, by simp [endMessage]⟩)
      (by simp; omega) (by simp; omega)
    obtain ⟨hb, hitems⟩ := body_of_data (n := n) (k := s.wifiString.length)
      (by rwa [List.take_length]) (fun t ht => hin t (by simp [ht]))
    rw [List.take_length] at hitems
    refine .whole start body fin (by rw [harr, List.cons_append]) ?_ hb hitems ?_ ?_ hkeep hdone
    · exact frame_start s.protocol hlen.2 (congrArg Prod.fst hstart) (congrArg Prod.snd hstart)
    · rw [Scancode.frame, show fin.address = _ from congrArg Prod.fst hfin,
        show fin.command = _ from congrArg Prod.snd hfin, endMessage,
        frameOf_end (addressIs_frameAddress (by decide)).2.2]
    · exact policy_expired_eq_false_iff.mpr (hin fin (by simp))

/-! ## Runs -/

theorem timedOut_iff_stale {n : ℕ} {σ : Option (Session Timespec UInt8)} {start : Scancode} :
    timedOut (policy n) start.now σ = true ↔ Stale (σ.map Session.opened) start := by
  cases σ with
  | none => simp [timedOut, Stale]
  | some v =>
    rw [← Bool.not_eq_false, timedOut, policy_expired_eq_false_iff, Nat.not_lt]
    simp [Stale]

/-- A START that comes too late is dropped with the transmission it finds, and what follows
is ignored. -/
private theorem run_stale {n : ℕ} {σ : Option (Session Timespec UInt8)} {start : Scancode}
    {rest : List (Timespec × Frame UInt8 UInt8)} (hs : Stale (σ.map Session.opened) start)
    (hrest : ∀ f ∈ rest, ¬ f.2.Opens) :
    (run (policy n) σ (start.frame :: rest)).1 = none ∧
      Reassembly.messages (run (policy n) σ (start.frame :: rest)).2 = [] := by
  have hstep : step (policy n) start.now σ start.frame.2 = (none, .rejected) := by
    rw [step, timedOut_iff_stale.mpr hs]
    rfl
  obtain ⟨hidle, hnone⟩ := run_idle (policy n) rest hrest
  rw [show start.frame = (start.now, start.frame.2) from rfl, run_cons, hstep]
  exact ⟨hidle, hnone⟩

private theorem body_not_opens {n : ℕ} {t : Timespec} {fs : List (Timespec × Frame UInt8 UInt8)}
    (h : Body (policy n) t fs) : ∀ f ∈ fs, ¬ f.2.Opens := by
  intro f hf hopens
  rcases (h f hf).2 with he | ⟨b, he⟩ <;> rw [he] at hopens <;> exact hopens

/-- What the decoder delivers and keeps of one send. -/
theorem run_send {n : ℕ} (hn : 219 < n) {s : Send} (h : s.Received)
    (σ : Option (Session Timespec UInt8)) :
    (s.completed = true ↔ Uncancelled s.creds s.progress) ∧
    (s.arrivals = [] ∧ s.completed = false ∨
    ∃ start rest, s.arrivals = start :: rest ∧
      (Stale (σ.map Session.opened) start →
        (run (policy n) σ (s.arrivals.map Scancode.frame)).1 = none ∧
        Reassembly.messages (run (policy n) σ (s.arrivals.map Scancode.frame)).2 = []) ∧
      (¬ Stale (σ.map Session.opened) start →
        (run (policy n) σ (s.arrivals.map Scancode.frame)).1.map Session.opened =
          (if Uncancelled s.creds s.progress then none else some start.now) ∧
        Reassembly.messages (run (policy n) σ (s.arrivals.map Scancode.frame)).2 =
          if s.completed then [s.wifiString] else [])) := by
  have hlen := s.wifiString_length
  have hne : s.wifiString.length ≠ 0 := by omega
  have hlive {start : Scancode} (hs : ¬ Stale (σ.map Session.opened) start) :
      timedOut (policy n) start.now σ = false := by
    rwa [← timedOut_iff_stale (n := n), Bool.not_eq_true] at hs
  cases h.shape n with
  | nothing harr hcancel hdone =>
    exact ⟨by simp [hcancel, hdone], .inl ⟨harr, hdone⟩⟩
  | partly start body harr hstart hbody hitems hcancel hdone =>
    refine ⟨by simp [hcancel, hdone], .inr ⟨start, body, harr, fun hs => ?_, fun hs => ?_⟩⟩
    · rw [harr, List.map_cons]
      exact run_stale hs (body_not_opens hbody)
    · have hopen := step_start (policy n) (hlive hs) hne
      have hrun := run_body (policy n) ⟨s.wifiString.length, start.now, [], hne, Nat.zero_le _⟩
        (body.map Scancode.frame) hbody (by simpa using hitems)
      rw [harr, List.map_cons, hstart, run_cons, hopen, hrun, if_neg hcancel, hdone]
      exact ⟨rfl, messages_quiet (body.map Scancode.frame).length.succ⟩
  | whole start body fin harr hstart hbody hitems hfin hend hkeep hdone =>
    have hframes : s.arrivals.map Scancode.frame =
        start.frame :: (body.map Scancode.frame ++ [fin.frame]) := by
      rw [harr]
      simp
    refine ⟨by simp [hkeep, hdone], .inr ⟨start, body ++ [fin], harr, fun hs => ?_, fun hs => ?_⟩⟩
    · rw [hframes]
      refine run_stale hs (List.forall_mem_append.mpr ⟨body_not_opens hbody, ?_⟩)
      rw [hfin, List.forall_mem_singleton]
      exact not_false
    · have hroom : (policy n).room s.wifiString.length = true := by
        simp only [DecoderConfig.policy_room, decide_eq_true_eq]
        omega
      have hrun := run_transmission (policy n) (hlive hs) (List.length_pos_iff.mp hlen.1) hbody
        hitems hend hroom
      rw [hframes, hstart, hfin, ← List.cons_append,
        show wfrCrc8 s.wifiString = (policy n).check s.wifiString from rfl, hrun, if_pos hkeep, hdone,
        messages_append, messages_quiet]
      exact ⟨rfl, rfl⟩

/-- The deliveries are among the completed strings, and are all of them exactly in timely runs. -/
theorem run_sends {n : ℕ} (hn : 219 < n) (sends : List Send) (h : ∀ s ∈ sends, s.Received)
    (σ : Option (Session Timespec UInt8)) :
    let delivered := Reassembly.messages
      (run (policy n) σ ((sends.flatMap Send.arrivals).map Scancode.frame)).2
    delivered.length ≤ (completedStrings sends).length ∧
      (delivered = completedStrings sends ↔ Timely (σ.map Session.opened) sends) := by
  induction sends generalizing σ with
  | nil => exact ⟨Nat.le_refl _, iff_of_true rfl trivial⟩
  | cons s sends ih =>
    have hrest : ∀ s ∈ sends, s.Received := fun t ht => h t (by simp [ht])
    have hstrings : completedStrings (s :: sends) =
        (if s.completed then [s.wifiString] else []) ++ completedStrings sends := by
      rw [completedStrings, List.filter_cons]
      split <;> rfl
    obtain ⟨hdone, hcase⟩ := run_send hn (h s (by simp)) σ
    rw [List.flatMap_cons, List.map_append, run_append, messages_append, hstrings]
    rcases hcase with ⟨harr, hnot⟩ | ⟨start, rest, harr, hstale, hfresh⟩
    · rw [harr, hnot, Timely, harr]
      exact ih hrest σ
    · by_cases hs : Stale (σ.map Session.opened) start
      · obtain ⟨hidle, hnone⟩ := hstale hs
        obtain ⟨hle, hiff⟩ := ih hrest none
        rw [hnone, hidle, timely_cons harr, if_pos hs, ← hdone, List.nil_append]
        cases hc : s.completed with
        | true =>
          refine ⟨by simp; omega, iff_of_false (fun he => ?_) (by simp)⟩
          have := congrArg List.length he
          simp at this
          omega
        | false => exact ⟨hle, by simpa using hiff⟩
      · obtain ⟨hkept, hgot⟩ := hfresh hs
        obtain ⟨hle, hiff⟩ := ih hrest (run (policy n) σ (s.arrivals.map Scancode.frame)).1
        rw [hkept] at hiff
        rw [hgot, timely_cons harr, if_neg hs]
        refine ⟨?_, (List.append_cancel_left_eq ..).to_iff.trans hiff⟩
        rw [List.length_append, List.length_append]
        exact Nat.add_le_add_left hle _

/-- The daemon takes over exactly the strings of the completed sends, in order, when no
completed send starts 30 s or more after a START that a cancelled send left open. -/
theorem wfrSends_delivered_iff (out : Bytes) (hout : out.length = wfrMaxTotalPayload + 1)
    (sends : List Send) (h : ∀ s ∈ sends, s.Received) :
    deliveries (feedAll wfrDecodeInit out (sends.flatMap Send.arrivals)) = completedStrings sends ↔
      Timely none sends := by
  obtain ⟨-, -, hreports⟩ := feedAll_refines out holds_init (sends.flatMap Send.arrivals)
  rw [deliveries_eq_messages hreports]
  exact (run_sends (by rw [hout]; decide) sends h none).2

/-! A cancelled send, and a completed one 40 s later. -/

private def Timespec.ofMs (ms : ℕ) : Timespec := ⟨ms / 1000, ms % 1000 * 1000000, by omega⟩

/-- A send from `startMs` on, at the slowest pacing. -/
private def sendAt (startMs : ℕ) (progress : Option (UInt16 → UInt16 → Bool)) : Send :=
  let s : Send := {
    creds := { ssid := CString.ofBytes wfrSsidMaxLen (ascii "A"),
               password := CString.empty wfrPassMaxLen, security := wfrSecOpen, hidden := false },
    protocol := .nec, progress, wifiStr := Vector.replicate _ 0, arrivals := [] }
  { s with arrivals := s.messages.zipIdx.map (fun m =>
      ⟨Timespec.ofMs (startMs + 117 * m.2), m.1.address, m.1.command⟩) }

private def cancelledThenLate : List Send :=
  [sendAt 0 (some (fun sent _ => sent < 3)), sendAt 40000 none]

theorem wfrSends_delivered_iff_late :
    deliveries (feedAll wfrDecodeInit (List.replicate 256 0)
        (cancelledThenLate.flatMap Send.arrivals)) = completedStrings cancelledThenLate ↔
      Timely none cancelledThenLate :=
  wfrSends_delivered_iff _ (by decide +kernel) _ (by decide +kernel)

/-- The completed send is lost. -/
theorem wfrSends_late_lost :
    (∀ s ∈ cancelledThenLate, s.Received) ∧
    (cancelledThenLate.flatMap Send.arrivals).Pairwise (fun a b => a.now.nanos ≤ b.now.nanos) ∧
    completedStrings cancelledThenLate = [ascii "WIFI:T:nopass;S:A;P:;H:false;;"] ∧
    deliveries (feedAll wfrDecodeInit (List.replicate 256 0)
      (cancelledThenLate.flatMap Send.arrivals)) = [] := by
  decide +kernel

end InfraFi.System
