import InfraFi.Flipper.AckDecode
import InfraFi.Flipper.Encode

/-! # What the Flipper takes for an answer

Credentials and answers share their frames, so a listening Flipper reassembles
the credentials of another one. Only the payload could tell them apart, and the
callback looks at it for one of the two verdicts.
-/
namespace InfraFi.System
open Base Protocol Reassembly Flipper

/-- The payload that the decoder hands to the callback with a signal. -/
def deliveredBy (timeoutTicks : UInt32) (dec : WfrAckDecoder) (s : Reception) : Option Bytes :=
  match s.message with
  | none => none
  | some m =>
    if m.protocol = .other then none
    else
      let r := wfrAckDecodeFeed timeoutTicks s.tick dec m.address.toUInt8 m.command.toUInt8
        s.payload.toList
      if 0 < r.result then some (r.out.take r.result.toNat) else none

/-- The events that the callback posts for a signal. -/
def posted (timeoutTicks : UInt32) (app : WiFirApp) (s : Reception) : List WiFirCustomEvent :=
  (wiFirIrRxCallback timeoutTicks app s).events.drop app.events.length

/-- The server sends this payload for this verdict. -/
def Justifies (p : Bytes) : WiFirCustomEvent → Prop
  | .ackSuccess => wfrAckPrefixOk <+: p
  | .ackFail => p = wfrAckPrefixFail

/-- Every event that a signal posts has its payload, delivered with the same signal. -/
def ServerVerdict (timeoutTicks : UInt32) (app : WiFirApp) (s : Reception) : Prop :=
  ∀ e ∈ posted timeoutTicks app s, ∃ p ∈ deliveredBy timeoutTicks app.ackDecoder s, Justifies p e

/-- What a full decoder holds. -/
def collected (dec : WfrAckDecoder) : Bytes := dec.payloadBuf.toList.take dec.expectedLen.toNat

/-- The message is the END of a live and full transmission. -/
structure EndsFull (timeoutTicks tick : UInt32) (dec : WfrAckDecoder) (m : InfraredMessage) : Prop where
  live : decodeCheckTimeout (wfrAckDecoderConfig timeoutTicks) tick dec = false
  receiving : dec.inTransmission = true
  full : dec.writeCursor = dec.expectedLen
  fin : AddressIs wfrFrameTypeEnd m.address.toUInt8
  check : m.command.toUInt8 = wfrCrc8 (collected dec)

/-- The signal completes a payload that the server never sends. -/
def CompletesOther (timeoutTicks : UInt32) (dec : WfrAckDecoder) (s : Reception) : Prop :=
  ∃ m, s.message = some m ∧ m.protocol ≠ .other ∧ EndsFull timeoutTicks s.tick dec m ∧
    ¬ wfrAckPrefixOk <+: collected dec ∧ collected dec ≠ wfrAckPrefixFail

/-! ## One signal -/

section Signal
variable {T : UInt32} {app : WiFirApp} {dec : WfrAckDecoder} {σ : Option (Session UInt32 UInt8)}
  {s : Reception}

theorem deliveredBy_of_heard (hs : s.Heard) (h : HoldsAck T dec σ) :
    deliveredBy T dec s = (step (ackPolicy T) s.frame.1 σ s.frame.2).2.message? := by
  rcases hs with ⟨m, hm, hp⟩
  obtain ⟨-, hreports, -⟩ := decodeFeed_refines (wfrAckDecoderConfig T) s.tick
    m.address.toUInt8 m.command.toUInt8 s.payload.toList h
  have hlen : s.payload.toList.length = wfrMaxTotalPayload + 1 := Vector.length_toList
  have hframe : s.frame = (s.tick, frameOf m.address.toUInt8 m.command.toUInt8) := by
    simp [Reception.frame, hm]
  rw [hlen] at hreports
  simp only [deliveredBy, hm, if_neg hp, wfrAckDecodeFeed, hframe]
  cases ho : (step (ackPolicy T) s.tick σ (frameOf m.address.toUInt8 m.command.toUInt8)).2 with
  | delivered p =>
    rw [ho] at hreports
    obtain ⟨hres, hne, -, htake, -⟩ := hreports
    have hpos := List.length_pos_iff.mpr hne
    simp [hres, hpos, htake, Outcome.message?]
  | quiet =>
    rw [ho] at hreports
    exact if_neg (Int.not_lt.mpr (hreports.result_le_zero rfl))
  | rejected =>
    rw [ho] at hreports
    exact if_neg (Int.not_lt.mpr (hreports.result_le_zero rfl))

theorem deliveredBy_of_not_heard (hs : ¬ s.Heard) : deliveredBy T dec s = none := by
  unfold deliveredBy
  split
  · rfl
  rename_i m hm
  have hother : m.protocol = .other := by
    by_contra hp
    exact hs ⟨m, hm, hp⟩
  exact if_pos hother

/-- A delivered payload gets its verdict, and nothing else is posted. -/
theorem posted_eq (h : HoldsAck T app.ackDecoder σ) :
    posted T app s = ((deliveredBy T app.ackDecoder s).map verdictOf).toList := by
  by_cases hs : s.Heard
  · rcases wiFirIrRxCallback_heard hs h with ⟨r, happ, -, hreports⟩
    rw [posted, happ, (onAckResult_events app hreports).2, List.drop_left, deliveredBy_of_heard hs h]
  · rw [posted, wiFirIrRxCallback_unheard hs, deliveredBy_of_not_heard hs, List.drop_length]
    rfl

/-- What is delivered is what a full decoder holds. -/
theorem deliveredBy_eq_some_iff (h : HoldsAck T dec σ) {p : Bytes} :
    deliveredBy T dec s = some p ↔
      ∃ m, s.message = some m ∧ m.protocol ≠ .other ∧ EndsFull T s.tick dec m ∧ collected dec = p := by
  by_cases hs : s.Heard
  · rw [deliveredBy_of_heard hs h]
    rcases hs with ⟨m, hm, hp⟩
    have hframe : s.frame = (s.tick, frameOf m.address.toUInt8 m.command.toUInt8) := by
      simp [Reception.frame, hm]
    have htime := decodeCheckTimeout_eq (wfrAckDecoderConfig T) s.tick (n := wfrMaxTotalPayload + 1) h
    rw [hframe]
    constructor
    · intro hdel
      have hstep : (step (ackPolicy T) s.tick σ (frameOf m.address.toUInt8 m.command.toUInt8)).2 =
          .delivered p := by
        cases ho : (step (ackPolicy T) s.tick σ (frameOf m.address.toUInt8 m.command.toUInt8)).2 with
        | delivered q =>
          rw [ho] at hdel
          simpa [Outcome.message?] using hdel
        | quiet => simp [ho, Outcome.message?] at hdel
        | rejected => simp [ho, Outcome.message?] at hdel
      rcases step_delivered _ hstep with ⟨v, rfl, hlive, rfl, hfull, hfin, -, -⟩
      obtain ⟨hin, hsize, hcur, -, hbuf⟩ := h
      rcases frameOf_eq_finish hfin with ⟨haddr, hcmd⟩
      have hcoll : collected dec = v.received := by rw [collected, hsize, ← hfull, hbuf]
      refine ⟨m, hm, hp, ⟨htime.trans hlive, hin, ?_, haddr, ?_⟩, hcoll⟩
      · exact UInt8.toNat_inj.mp (by rw [hcur, hsize, hfull])
      · rw [hcmd, hcoll]
        rfl
    · rintro ⟨m', hm', -, ⟨hlive, hin, hfull, haddr, hcmd⟩, rfl⟩
      obtain rfl : m = m' := Option.some.inj (hm.symm.trans hm')
      cases σ with
      | none =>
        obtain rfl : dec = decodeInit _ := h
        cases hin
      | some v =>
        obtain ⟨-, hsize, hcur, -, hbuf⟩ := h
        have hsame : v.received.length = v.size := by rw [← hcur, ← hsize, hfull]
        have hcoll : collected dec = v.received := by rw [collected, hsize, ← hsame, hbuf]
        have hroom : (ackPolicy T).room v.size = true := by
          have hlt := toNat_lt_bufferSize dec.expectedLen
          rw [hsize] at hlt
          exact decide_eq_true hlt
        have hshort : ¬ v.received.length ≠ v.size := not_not.mpr hsame
        have hcheck : ¬ (ackPolicy T).check v.received ≠ wfrCrc8 v.received := by
          rw [not_not]
          rfl
        rw [frameOf_end haddr, hcmd, hcoll, step_of_not_timedOut _ (htime.symm.trans hlive), onFrame,
          if_neg hshort, if_neg hcheck, if_pos hroom]
        rfl
  · rw [deliveredBy_of_not_heard hs]
    refine iff_of_false (by simp) ?_
    rintro ⟨m, hm, hp, -⟩
    exact hs ⟨m, hm, hp⟩

theorem justifies_verdictOf {p : Bytes} :
    Justifies p (verdictOf p) ↔ wfrAckPrefixOk <+: p ∨ p = wfrAckPrefixFail := by
  have hthree : wfrAckPrefixOk.length = 3 := by decide
  have hok : wfrAckPrefixOk <+: p ↔ p.take 3 = wfrAckPrefixOk := by
    rw [List.prefix_iff_eq_take, hthree, eq_comm]
  by_cases h : p.take 3 = wfrAckPrefixOk
  · have hpre := hok.mpr h
    simp [verdictOf, h, Justifies, hpre]
  · have hpre : ¬ wfrAckPrefixOk <+: p := fun hp => h (hok.mp hp)
    simp [verdictOf, h, Justifies, hpre]

/-- A verdict is the server's own unless the signal completes some other payload. -/
theorem serverVerdict_iff (h : HoldsAck T app.ackDecoder σ) :
    ServerVerdict T app s ↔ ¬ CompletesOther T app.ackDecoder s := by
  rw [ServerVerdict, posted_eq h]
  have hother : CompletesOther T app.ackDecoder s ↔
      ∃ p, deliveredBy T app.ackDecoder s = some p ∧ ¬ wfrAckPrefixOk <+: p ∧ p ≠ wfrAckPrefixFail := by
    constructor
    · rintro ⟨m, hm, hp, hc, hne⟩
      exact ⟨_, (deliveredBy_eq_some_iff h).mpr ⟨m, hm, hp, hc, rfl⟩, hne⟩
    · rintro ⟨p, hdel, hne⟩
      rcases (deliveredBy_eq_some_iff h).mp hdel with ⟨m, hm, hp, hc, rfl⟩
      exact ⟨m, hm, hp, hc, hne⟩
  rw [hother]
  cases hdel : deliveredBy T app.ackDecoder s with
  | none => simp
  | some p =>
    have hjust := justifies_verdictOf (p := p)
    simp only [Option.map_some, Option.toList_some, List.mem_singleton, forall_eq, Option.mem_def,
      Option.some.injEq, exists_eq_left', hjust]
    tauto

end Signal

/-! ## The credentials of another Flipper -/

/-- What the receiver makes of a message of the sender. -/
def receivedAs (m : TxMessage) : InfraredMessage :=
  ⟨match m.protocol with
    | .rc6 => .rc6
    | .nec => .nec,
    m.address.toUInt32, m.command.toUInt32⟩

/-- All the messages arrive, in order, before the decoder times out. -/
structure ReceivedInFull (timeoutTicks : UInt32) (ms : List TxMessage) (signals : List Reception) :
    Prop where
  messages : signals.map Reception.message = ms.map (fun m => some (receivedAs m))
  timely : ∀ first ∈ signals.head?, ∀ s ∈ signals, s.tick - first.tick < timeoutTicks

instance ReceivedInFull.decidable (timeoutTicks : UInt32) (ms : List TxMessage)
    (signals : List Reception) : Decidable (ReceivedInFull timeoutTicks ms signals) :=
  decidable_of_iff (_ ∧ _) ⟨fun h => ⟨h.1, h.2⟩, fun h => ⟨h.1, h.2⟩⟩

section Credentials
variable {T : UInt32} {ms : List TxMessage} {signals : List Reception}

theorem ReceivedInFull.heard (h : ReceivedInFull T ms signals) : ∀ s ∈ signals, s.Heard := by
  intro s hs
  have hmem := List.mem_map_of_mem (f := Reception.message) hs
  rw [h.messages] at hmem
  rcases List.mem_map.mp hmem with ⟨m, -, hm⟩
  refine ⟨receivedAs m, hm.symm, ?_⟩
  rcases m with ⟨_ | _, _, _, _⟩ <;> simp [receivedAs]

theorem ReceivedInFull.frames (h : ReceivedInFull T ms signals) :
    signals.map (fun s => s.frame.2) = ms.map (fun m => frameOf m.address m.command) := by
  have hsnd (s : Reception) : s.frame.2 =
      s.message.elim .other (fun m => frameOf m.address.toUInt8 m.command.toUInt8) := by
    unfold Reception.frame
    split <;> rename_i hm <;> rw [hm] <;> rfl
  have hmaps := congrArg (List.map (fun o : Option InfraredMessage =>
    o.elim Frame.other (fun m => frameOf m.address.toUInt8 m.command.toUInt8))) h.messages
  rw [List.map_map, List.map_map] at hmaps
  simp only [hsnd]
  refine hmaps.trans (List.map_congr_left fun m _ => ?_)
  simp [receivedAs]

/-- A WiFi string starts with neither verdict. -/
theorem verdictOf_fullWifiString (creds : WfrWifiCreds) :
    verdictOf (fullWifiString creds) = .ackFail := by
  have hprefix := List.isPrefixOf_iff_prefix.mp (wifi_prefix_fullWifiString creds)
  rcases hprefix with ⟨rest, hrest⟩
  have htake : (ascii "WIFI:" ++ rest).take 3 ≠ wfrAckPrefixOk := by
    rw [List.take_append_of_le_length (by decide)]
    decide
  rw [verdictOf, ← hrest, if_neg htake]

/-- The credentials of another Flipper count as a failure, unless their START is spent on a
transmission that has timed out. -/
theorem receiveAll_credentials {creds : WfrWifiCreds} {protocol : WfrIrProtocol}
    {progress : Option (UInt16 → UInt16 → Bool)} {wifiStr : Vector UInt8 (wfrMaxTotalPayload + 1)}
    {app : WiFirApp} {σ : Option (Session UInt32 UInt8)} (hold : HoldsAck T app.ackDecoder σ)
    (hsent : wfrTransmitCredentials creds protocol progress wifiStr = .ok (ms, true))
    (h : ReceivedInFull T ms signals) :
    ∃ start ∈ signals.head?, (receiveAll T app signals).events = app.events ++
      if decodeCheckTimeout (wfrAckDecoderConfig T) start.tick app.ackDecoder then [] else [.ackFail] := by
  have hle := fullWifiString_length_le creds
  have hpos := fullWifiString_length_pos creds
  have hms : ms = startMessage protocol (fullWifiString creds) ::
      (fullWifiString creds).map (dataMessage protocol) ++ [endMessage protocol (fullWifiString creds)] := by
    rcases wfrTransmitCredentials_cases creds protocol progress wifiStr with
      ⟨-, hnone | ⟨k, hpart⟩⟩ | ⟨-, hall⟩
    · cases hsent.symm.trans hnone
    · cases hsent.symm.trans hpart
    · cases hsent.symm.trans hall
      rfl
  obtain ⟨hstart, hdata, hend⟩ := @addressIs_frameAddress 0 (by decide)
  have hframes : signals.map (fun s => s.frame.2) = .start (fullWifiString creds).length ::
      (fullWifiString creds).map .data ++ [.finish (wfrCrc8 (fullWifiString creds))] := by
    rw [h.frames, hms, List.map_append, List.map_cons, List.map_map, List.map_singleton, startMessage,
      endMessage, frameOf_start hstart, frameOf_end hend,
      UInt8.toNat_ofNat_of_lt' (by simp only [UInt8.size]; omega)]
    congr 2
    exact List.map_congr_left fun b _ => frameOf_data hdata
  cases signals with
  | nil => cases hframes
  | cons start rest =>
    have hwhole := messages_whole (σ := σ) (List.length_pos_iff.mp hpos) (by omega) hframes
      (fun s hs => h.timely start rfl s (List.mem_cons_of_mem _ hs))
    have hevents := (receiveAll_events app h.heard hold).2
    have htime := decodeCheckTimeout_eq (wfrAckDecoderConfig T) start.tick
      (n := wfrMaxTotalPayload + 1) hold
    refine ⟨start, rfl, ?_⟩
    rw [hevents, hwhole, htime]
    split
    · rfl
    · rw [List.map_singleton, verdictOf_fullWifiString]

end Credentials

/-- In every run the verdicts are the server's own if and only if no signal completes a payload the
server never sends. The credentials of another Flipper, received in full, post no verdict only where
their START is spent on a transmission that has timed out. -/
theorem server_verdicts_iff (T : UInt32) :
    (∀ signals : List Reception,
      (∀ pre s post, signals = pre ++ s :: post →
        ServerVerdict T (receiveAll T (wiFirStartAckListener T) pre) s) ↔
      ∀ pre s post, signals = pre ++ s :: post →
        ¬ CompletesOther T (receiveAll T (wiFirStartAckListener T) pre).ackDecoder s) ∧
    ∀ creds protocol progress wifiStr ms pre signals,
      wfrTransmitCredentials creds protocol progress wifiStr = .ok (ms, true) →
      ReceivedInFull T ms signals →
      ((receiveAll T (wiFirStartAckListener T) (pre ++ signals)).events =
          (receiveAll T (wiFirStartAckListener T) pre).events ↔
        ∀ start ∈ signals.head?, decodeCheckTimeout (wfrAckDecoderConfig T) start.tick
          (receiveAll T (wiFirStartAckListener T) pre).ackDecoder = true) := by
  constructor
  · intro signals
    refine forall_congr' fun pre => forall_congr' fun s => forall_congr' fun post => ?_
    rcases exists_holdsAck T pre with ⟨σ, hold⟩
    exact imp_congr_right fun _ => serverVerdict_iff hold
  · intro creds protocol progress wifiStr ms pre signals hsent hrecv
    rcases exists_holdsAck T pre with ⟨σ, hold⟩
    rcases receiveAll_credentials hold hsent hrecv with ⟨start, hstart, hevents⟩
    have hrun : receiveAll T (wiFirStartAckListener T) (pre ++ signals) =
        receiveAll T (receiveAll T (wiFirStartAckListener T) pre) signals := List.foldl_append
    have hhead : signals.head? = some start := hstart
    rw [hrun, hevents, hhead]
    simp only [Option.mem_def, Option.some.injEq, forall_eq']
    split <;> rename_i hlate <;> simp [hlate]

/-! The credentials of a neighbour, 45 ticks apart. -/

private def neighbour : WfrWifiCreds where
  ssid := CString.ofBytes 32 (ascii "A")
  password := CString.empty 63
  security := wfrSecOpen
  hidden := false

private def neighbourMessages : List TxMessage :=
  match wfrTransmitCredentials neighbour .nec none (Vector.replicate _ 0) with
  | .ok r => r.1
  | .error _ => []

private def neighbourSignals : List Reception :=
  neighbourMessages.zipIdx.map (fun f =>
    ⟨45 * UInt32.ofNat f.2, some (receivedAs f.1), Vector.replicate _ 0⟩)

private theorem neighbour_sent :
    wfrTransmitCredentials neighbour .nec none (Vector.replicate _ 0) = .ok (neighbourMessages, true) := by
  decide +kernel

private theorem neighbour_received : ReceivedInFull 30000 neighbourMessages neighbourSignals := by
  decide +kernel

private theorem neighbourSignals_ne : neighbourSignals ≠ [] := by decide +kernel

theorem server_verdicts_iff_neighbour :
    (receiveAll 30000 (wiFirStartAckListener 30000) ([] ++ neighbourSignals)).events =
        (receiveAll 30000 (wiFirStartAckListener 30000) []).events ↔
      ∀ start ∈ neighbourSignals.head?, decodeCheckTimeout (wfrAckDecoderConfig 30000) start.tick
        (receiveAll 30000 (wiFirStartAckListener 30000) []).ackDecoder = true :=
  (server_verdicts_iff 30000).2 neighbour .nec none _ neighbourMessages [] neighbourSignals
    neighbour_sent neighbour_received

/-- A waiting Flipper reports a failure that no server has sent. -/
theorem neighbour_reported_as_failure :
    wfrTransmitCredentials neighbour .nec none (Vector.replicate _ 0) = .ok (neighbourMessages, true) ∧
      ReceivedInFull 30000 neighbourMessages neighbourSignals ∧
      (receiveAll 30000 (wiFirStartAckListener 30000) neighbourSignals).events = [.ackFail] ∧
      ∃ pre s post, neighbourSignals = pre ++ s :: post ∧
        ¬ ServerVerdict 30000 (receiveAll 30000 (wiFirStartAckListener 30000) pre) s := by
  refine ⟨neighbour_sent, neighbour_received, by decide +kernel, neighbourSignals.dropLast,
    neighbourSignals.getLast neighbourSignals_ne, [],
    (List.dropLast_append_getLast neighbourSignals_ne).symm, ?_⟩
  intro h
  have hposted : posted 30000 (receiveAll 30000 (wiFirStartAckListener 30000) neighbourSignals.dropLast)
      (neighbourSignals.getLast neighbourSignals_ne) = [.ackFail] := by decide +kernel
  have hdelivered : deliveredBy 30000 (receiveAll 30000 (wiFirStartAckListener 30000)
      neighbourSignals.dropLast).ackDecoder (neighbourSignals.getLast neighbourSignals_ne) =
        some (fullWifiString neighbour) := by decide +kernel
  have hother : fullWifiString neighbour ≠ wfrAckPrefixFail := by decide +kernel
  rcases h .ackFail (hposted ▸ List.mem_singleton.mpr rfl) with ⟨p, hp, hjust⟩
  rw [hdelivered, Option.mem_some_iff] at hp
  rw [← hp] at hjust
  exact hother hjust

end InfraFi.System
