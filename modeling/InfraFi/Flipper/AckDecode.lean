import InfraFi.Protocol.Decoder

/-! # The Flipper's ACK decoder and its receive callback

The decoder keeps no pass number. Ticks are 32-bit, and the subtraction that
measures the elapsed time wraps.
-/
namespace InfraFi.Flipper
open Base Protocol Reassembly

/-- `timeoutTicks` is `furi_ms_to_ticks(WFR_ACK_TIMEOUT_SEC * 1000)`. -/
def wfrAckDecoderConfig (timeoutTicks : UInt32) : DecoderConfig UInt32 where
  zero := 0
  expired start now := timeoutTicks ≤ now - start
  pass _ := 0

abbrev WfrAckDecoder := Decoder UInt32

/-- `furi_ms_to_ticks(WFR_ACK_TIMEOUT_SEC * 1000)` at one tick a millisecond. -/
def ackTimeoutTicks : UInt32 := UInt32.ofNat (wfrAckTimeoutSec * 1000)

def wfrAckDecodeInit (timeoutTicks : UInt32) : WfrAckDecoder :=
  decodeInit (wfrAckDecoderConfig timeoutTicks)

def wfrAckDecodeFeed (timeoutTicks tick : UInt32) (dec : WfrAckDecoder) (address command : UInt8)
    (out : Bytes) : FeedResult UInt32 :=
  decodeFeed (wfrAckDecoderConfig timeoutTicks) tick dec address command out

inductive InfraredProtocol where
  | rc6
  | nec
  | other
deriving DecidableEq

structure InfraredMessage where
  protocol : InfraredProtocol
  address : UInt32
  command : UInt32
deriving DecidableEq

inductive WiFirCustomEvent where
  | ackSuccess
  | ackFail
deriving DecidableEq

/-- The part of the app that the callback touches, with the events it has posted. -/
structure WiFirApp where
  ackDecoder : WfrAckDecoder
  ackResultText : CString 63
  events : List WiFirCustomEvent

/-- A received signal: `none` when it could not be decoded. `payload` is the buffer on the
callback's stack. -/
structure Reception where
  tick : UInt32
  message : Option InfraredMessage
  payload : Vector UInt8 (wfrMaxTotalPayload + 1)

/-- `strncmp(s, prefix, strlen(prefix)) == 0`. -/
def hasText (text s : Bytes) : Bool := (cstr s).take text.length = text

/-- What the callback does with the result of the decoder. -/
def onAckResult (app : WiFirApp) (r : FeedResult UInt32) : WiFirApp :=
  if 0 < r.result then
    if hasText wfrAckPrefixOk r.out then
      let ip := cstr (r.out.drop wfrAckPrefixOk.length)
      { ackDecoder := r.dec, ackResultText := CString.ofBytes 63 ip,
        events := app.events ++ [.ackSuccess] }
    else { app with ackDecoder := r.dec, events := app.events ++ [.ackFail] }
  else { app with ackDecoder := r.dec }

def wiFirIrRxCallback (timeoutTicks : UInt32) (app : WiFirApp) (signal : Reception) : WiFirApp :=
  match signal.message with
  | none => app
  | some message =>
    if message.protocol = .other then app
    else
      onAckResult app (wfrAckDecodeFeed timeoutTicks signal.tick app.ackDecoder
        message.address.toUInt8 message.command.toUInt8 signal.payload.toList)

/-- The app when it starts to listen. -/
def wiFirStartAckListener (timeoutTicks : UInt32) : WiFirApp where
  ackDecoder := wfrAckDecodeInit timeoutTicks
  ackResultText := CString.empty 63
  events := []

def receiveAll (timeoutTicks : UInt32) (app : WiFirApp) (signals : List Reception) : WiFirApp :=
  signals.foldl (wiFirIrRxCallback timeoutTicks) app

/-! ## The callback and the reassembler -/

section Callback
variable {timeoutTicks : UInt32} {app : WiFirApp} {σ : Option (Session UInt32 UInt8)}

abbrev ackPolicy (timeoutTicks : UInt32) : Policy UInt32 UInt8 UInt8 :=
  (wfrAckDecoderConfig timeoutTicks).policy (wfrMaxTotalPayload + 1)

abbrev HoldsAck (timeoutTicks : UInt32) (dec : WfrAckDecoder) (σ : Option (Session UInt32 UInt8)) :
    Prop := Represents (wfrAckDecoderConfig timeoutTicks) dec σ

def Reception.frame (s : Reception) : UInt32 × Frame UInt8 UInt8 :=
  match s.message with
  | some m => (s.tick, frameOf m.address.toUInt8 m.command.toUInt8)
  | none => (s.tick, .other)

/-- A signal of the daemon's protocol. -/
def Reception.IsRc6 (s : Reception) : Prop := ∃ m, s.message = some m ∧ m.protocol = .rc6

/-- A buffer that a payload was delivered into. -/
theorem buffer_of_delivered {out p : Bytes} (htake : out.take p.length = p)
    (hnul : out[p.length]? = some 0) : out = p ++ 0 :: out.drop (p.length + 1) := by
  rcases List.getElem?_eq_some_iff.mp hnul with ⟨hlt, hget⟩
  conv_lhs =>
    rw [← List.take_append_drop p.length out, htake, List.drop_eq_getElem_cons hlt, hget]

/-- What a buffer holds from offset `k` on once a payload was delivered into it. -/
theorem cstr_drop_of_delivered {out p : Bytes} (h0 : 0 ∉ p) (htake : out.take p.length = p)
    (hnul : out[p.length]? = some 0) {k : ℕ} (hk : k ≤ p.length) :
    cstr (out.drop k) = p.drop k := by
  rw [buffer_of_delivered htake hnul, List.drop_append_of_le_length hk]
  exact cstr_terminated (fun h => h0 (List.mem_of_mem_drop h)) _

variable (app) in
/-- Without a delivery only the decoder changes. -/
theorem onAckResult_quiet {r : FeedResult UInt32} {o : Outcome UInt8} (h : r.Reports o)
    (ho : o.message? = none) : onAckResult app r = { app with ackDecoder := r.dec } :=
  if_neg (Int.not_lt.mpr (h.result_le_zero ho))

/-- A delivered payload is classified by its prefix. -/
theorem onAckResult_delivered {r : FeedResult UInt32} {p : Bytes} (h : r.Reports (.delivered p))
    (h0 : 0 ∉ p) :
    onAckResult app r =
      if p.take 3 = wfrAckPrefixOk then
        ⟨r.dec, CString.ofBytes 63 (p.drop 3), app.events ++ [.ackSuccess]⟩
      else { app with ackDecoder := r.dec, events := app.events ++ [.ackFail] } := by
  obtain ⟨hres, hne, -, htake, hnul⟩ := h
  have hpos : 0 < r.result := by
    rw [hres]
    exact Int.natCast_pos.mpr (List.length_pos_iff.mpr hne)
  have hstr : cstr r.out = p := cstr_drop_of_delivered h0 htake hnul (Nat.zero_le _)
  have hthree : wfrAckPrefixOk.length = 3 := by decide
  simp only [onAckResult, if_pos hpos, hasText, hstr, hthree, decide_eq_true_eq]
  split
  · rename_i hok
    have hlen : 3 ≤ p.length := by
      have hlen := congrArg List.length hok
      rw [List.length_take, hthree] at hlen
      omega
    rw [cstr_drop_of_delivered h0 htake hnul hlen]
  · rfl

/-- A signal that the callback hands to the decoder. -/
def Reception.Heard (s : Reception) : Prop := ∃ m, s.message = some m ∧ m.protocol ≠ .other

theorem Reception.IsRc6.heard {s : Reception} (hs : s.IsRc6) : s.Heard := by
  rcases hs with ⟨m, hm, hp⟩
  exact ⟨m, hm, by simp [hp]⟩

/-- A signal that is heard is one step of the reassembler. -/
theorem wiFirIrRxCallback_heard {s : Reception} (hs : s.Heard)
    (h : HoldsAck timeoutTicks app.ackDecoder σ) :
    ∃ r : FeedResult UInt32, wiFirIrRxCallback timeoutTicks app s = onAckResult app r ∧
      HoldsAck timeoutTicks r.dec (step (ackPolicy timeoutTicks) s.frame.1 σ s.frame.2).1 ∧
      r.Reports (step (ackPolicy timeoutTicks) s.frame.1 σ s.frame.2).2 := by
  rcases hs with ⟨m, hm, hp⟩
  obtain ⟨hrep, hreports, -⟩ := decodeFeed_refines (wfrAckDecoderConfig timeoutTicks) s.tick
    m.address.toUInt8 m.command.toUInt8 s.payload.toList h
  have hlen : s.payload.toList.length = wfrMaxTotalPayload + 1 := Vector.length_toList
  have hframe : s.frame = (s.tick, frameOf m.address.toUInt8 m.command.toUInt8) := by
    simp [Reception.frame, hm]
  rw [hlen] at hrep hreports
  rw [hframe]
  refine ⟨_, ?_, hrep, hreports⟩
  simp [wiFirIrRxCallback, hm, hp, wfrAckDecodeFeed]

/-- One signal is one step of the reassembler. -/
theorem wiFirIrRxCallback_step {s : Reception} (hs : s.IsRc6)
    (h : HoldsAck timeoutTicks app.ackDecoder σ) :
    ∃ r : FeedResult UInt32, wiFirIrRxCallback timeoutTicks app s = onAckResult app r ∧
      HoldsAck timeoutTicks r.dec (step (ackPolicy timeoutTicks) s.frame.1 σ s.frame.2).1 ∧
      r.Reports (step (ackPolicy timeoutTicks) s.frame.1 σ s.frame.2).2 :=
  wiFirIrRxCallback_heard hs.heard h

/-! ### The verdict on a payload -/

/-- What the callback posts for a delivered payload. -/
def verdictOf (p : Bytes) : WiFirCustomEvent := if p.take 3 = wfrAckPrefixOk then .ackSuccess else .ackFail

/-- The prefix is found in the buffer if and only if the payload starts with it, also when the
payload holds a NUL. -/
theorem hasText_iff_of_delivered {out p : Bytes} (htake : out.take p.length = p)
    (hnul : out[p.length]? = some 0) : hasText wfrAckPrefixOk out = true ↔ p.take 3 = wfrAckPrefixOk := by
  have hzero : 0 ∉ wfrAckPrefixOk := by decide
  have hthree : wfrAckPrefixOk.length = 3 := by decide
  have hbuf := buffer_of_delivered htake hnul
  have hread : wfrAckPrefixOk <+: cstr out ↔ wfrAckPrefixOk <+: p := by
    rw [prefix_cstr_iff hzero, hbuf, prefix_append_zero_iff hzero]
  rw [List.prefix_iff_eq_take, List.prefix_iff_eq_take, hthree, eq_comm, @eq_comm _ _ (p.take 3)] at hread
  rw [hasText, hthree, decide_eq_true_eq, hread]

theorem onAckResult_events (app : WiFirApp) {r : FeedResult UInt32} {o : Outcome UInt8}
    (h : r.Reports o) : (onAckResult app r).ackDecoder = r.dec ∧
      (onAckResult app r).events = app.events ++ (o.message?.map verdictOf).toList := by
  cases ho : o.message? with
  | none =>
    rw [onAckResult_quiet app h ho]
    exact ⟨rfl, by simp⟩
  | some q =>
    cases o with
    | delivered p =>
      obtain rfl : p = q := by simpa [Outcome.message?] using ho
      obtain ⟨hres, hne, -, htake, hnul⟩ := h
      have hpos : 0 < r.result := by
        rw [hres]
        exact Int.natCast_pos.mpr (List.length_pos_iff.mpr hne)
      have htext := hasText_iff_of_delivered htake hnul
      rw [onAckResult, if_pos hpos]
      split
      · rename_i hok
        exact ⟨rfl, by simp [verdictOf, htext.mp hok]⟩
      · rename_i hok
        have hother : p.take 3 ≠ wfrAckPrefixOk := fun h => hok (htext.mpr h)
        exact ⟨rfl, by simp [verdictOf, hother]⟩
    | _ => cases ho

/-- Every payload that the signals deliver gets its verdict, and nothing else does. -/
theorem receiveAll_events (app : WiFirApp) {signals : List Reception} (hs : ∀ s ∈ signals, s.Heard)
    (h : HoldsAck timeoutTicks app.ackDecoder σ) :
    HoldsAck timeoutTicks (receiveAll timeoutTicks app signals).ackDecoder
        (run (ackPolicy timeoutTicks) σ (signals.map Reception.frame)).1 ∧
      (receiveAll timeoutTicks app signals).events = app.events ++
        (messages (run (ackPolicy timeoutTicks) σ (signals.map Reception.frame)).2).map verdictOf := by
  induction signals generalizing app σ with
  | nil => exact ⟨h, by simp [receiveAll, messages]⟩
  | cons s signals ih =>
    rcases wiFirIrRxCallback_heard (hs s (by simp)) h with ⟨r, happ, hrep, hreports⟩
    obtain ⟨hdec, hevents⟩ := onAckResult_events app hreports
    have hrest := ih (onAckResult app r) (fun t ht => hs t (by simp [ht])) (by rwa [hdec])
    have hframe : s.frame = (s.frame.1, s.frame.2) := rfl
    have hfold : receiveAll timeoutTicks app (s :: signals) =
        receiveAll timeoutTicks (onAckResult app r) signals := congrArg
      (fun a => receiveAll timeoutTicks a signals) happ
    rw [hfold, List.map_cons, hframe, run_cons, messages_cons]
    refine ⟨hrest.1, ?_⟩
    rw [hrest.2, hevents, List.map_append, List.append_assoc]
    cases (step (ackPolicy timeoutTicks) s.frame.1 σ s.frame.2).2.message? <;> rfl

variable (app) in
/-- Signals that deliver nothing post no event. -/
theorem receiveAll_quiet {signals : List Reception} (hs : ∀ s ∈ signals, s.IsRc6)
    (h : HoldsAck timeoutTicks app.ackDecoder σ)
    (hquiet : messages (run (ackPolicy timeoutTicks) σ (signals.map Reception.frame)).2 = []) :
    HoldsAck timeoutTicks (receiveAll timeoutTicks app signals).ackDecoder
        (run (ackPolicy timeoutTicks) σ (signals.map Reception.frame)).1 ∧
      (receiveAll timeoutTicks app signals).events = app.events := by
  have hall := receiveAll_events app (fun s hm => (hs s hm).heard) h
  rwa [hquiet, List.map_nil, List.append_nil] at hall

/-! ### Whole transmissions -/

@[simp] theorem Reception.frame_fst (s : Reception) : s.frame.1 = s.tick := by
  unfold Reception.frame
  split <;> rfl

/-- Signals of other protocols change nothing. -/
theorem wiFirIrRxCallback_unheard {s : Reception} (hs : ¬ s.Heard) :
    wiFirIrRxCallback timeoutTicks app s = app := by
  unfold wiFirIrRxCallback
  split
  · rfl
  rename_i m hm
  have hother : m.protocol = .other := by
    by_contra hp
    exact hs ⟨m, hm, hp⟩
  rw [if_pos hother]

/-- Whatever is received, the decoder stands for some session. -/
theorem exists_holdsAck (timeoutTicks : UInt32) (signals : List Reception) :
    ∃ σ, HoldsAck timeoutTicks
      (receiveAll timeoutTicks (wiFirStartAckListener timeoutTicks) signals).ackDecoder σ := by
  induction signals using List.reverseRecOn with
  | nil => exact ⟨none, represents_init _⟩
  | append_singleton signals s ih =>
    rcases ih with ⟨σ, h⟩
    rw [receiveAll, List.foldl_concat]
    change ∃ σ, HoldsAck timeoutTicks (wiFirIrRxCallback timeoutTicks
      (receiveAll timeoutTicks (wiFirStartAckListener timeoutTicks) signals) s).ackDecoder σ
    by_cases hs : s.Heard
    · rcases wiFirIrRxCallback_heard hs h with ⟨r, happ, hrep, hreports⟩
      rw [happ, (onAckResult_events _ hreports).1]
      exact ⟨_, hrep⟩
    · rw [wiFirIrRxCallback_unheard hs]
      exact ⟨σ, h⟩

/-- Received DATA messages are a stretch of the body of a session. -/
theorem body_of_data {start : UInt32} {body : List Reception} {bs : Bytes}
    (hm : body.map (fun s => s.frame.2) = bs.map .data)
    (ht : ∀ s ∈ body, s.tick - start < timeoutTicks) :
    Body (ackPolicy timeoutTicks) start (body.map Reception.frame) ∧
      items (body.map Reception.frame) = bs := by
  induction body generalizing bs with
  | nil =>
    obtain rfl : bs = [] := by simpa using hm.symm
    exact ⟨by simp [Body], rfl⟩
  | cons s body ih =>
    cases bs with
    | nil => simp at hm
    | cons b bs =>
      simp only [List.map_cons, List.cons.injEq] at hm
      rcases ih hm.2 (fun t h => ht t (by simp [h])) with ⟨hbody, hitems⟩
      have hframe : s.frame = (s.tick, .data b) := Prod.ext s.frame_fst hm.1
      have hlive : (ackPolicy timeoutTicks).expired start s.tick = false := by
        simpa [wfrAckDecoderConfig] using ht s (by simp)
      rw [List.map_cons, hframe]
      constructor
      · exact List.forall_mem_cons.mpr ⟨⟨hlive, .inr ⟨b, rfl⟩⟩, hbody⟩
      · rw [items_cons, hitems]
        rfl

/-- A whole transmission is delivered, unless its START is spent on a transmission that has timed
out. -/
theorem messages_whole {p : Bytes} (hp : p ≠ []) (hlen : p.length ≤ 255) {start : Reception}
    {rest : List Reception} (hm : (start :: rest).map (fun s => s.frame.2) =
      .start p.length :: p.map .data ++ [.finish (wfrCrc8 p)])
    (ht : ∀ s ∈ rest, s.tick - start.tick < timeoutTicks) :
    messages (run (ackPolicy timeoutTicks) σ ((start :: rest).map Reception.frame)).2 =
      if timedOut (ackPolicy timeoutTicks) start.tick σ then [] else [p] := by
  rw [List.map_cons, List.cons_append, List.cons.injEq] at hm
  rcases hm with ⟨hstart, hrest⟩
  have hopen : start.frame = (start.tick, .start p.length) := Prod.ext start.frame_fst hstart
  cases hlate : timedOut (ackPolicy timeoutTicks) start.tick σ with
  | true =>
    have hstep : step (ackPolicy timeoutTicks) start.tick σ (.start p.length) = (none, .rejected) := by
      rw [step, hlate]
      rfl
    have hidle : ∀ f ∈ rest.map Reception.frame, ¬ f.2.Opens := by
      intro f hf
      rcases List.mem_map.mp hf with ⟨s, hs, rfl⟩
      have hmem := List.mem_map_of_mem (f := fun s => s.frame.2) hs
      rw [hrest, List.mem_append, List.mem_map, List.mem_singleton] at hmem
      rcases hmem with ⟨b, -, hb⟩ | hc
      · rw [← hb]
        exact not_false
      · rw [hc]
        exact not_false
    rw [List.map_cons, hopen, run_cons, hstep]
    exact (run_idle _ _ hidle).2
  | false =>
    rcases List.map_eq_append_iff.mp hrest with ⟨body, last, rfl, hbody, hlast⟩
    rcases List.map_eq_singleton_iff.mp hlast with ⟨fin, rfl, hfin⟩
    have hclose : fin.frame = (fin.tick, .finish (wfrCrc8 p)) := Prod.ext fin.frame_fst hfin
    rcases body_of_data hbody (fun s hs => ht s (by simp [hs])) with ⟨hb, hitems⟩
    have hlive : (ackPolicy timeoutTicks).expired start.tick fin.tick = false := by
      simpa [wfrAckDecoderConfig] using ht fin (by simp)
    have hroom : (ackPolicy timeoutTicks).room p.length = true := decide_eq_true (Nat.lt_succ_of_le hlen)
    have hrun := run_transmission (ackPolicy timeoutTicks) hlate hp hb hitems hlive hroom
    rw [List.map_cons, List.map_append, List.map_singleton, hopen, hclose, ← List.cons_append]
    change messages (run _ σ (_ ++ [(fin.tick, .finish ((ackPolicy timeoutTicks).check p))])).2 = _
    rw [hrun, messages_append, messages_quiet]
    rfl

end Callback
end InfraFi.Flipper
