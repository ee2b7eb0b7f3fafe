import InfraFi.Protocol.Frames

/-! # The scancode decoder that both sides run

Reassembles the messages of a transmission into its payload. The daemon and the
Flipper differ in their clocks and in whether they keep the pass number.
-/
namespace InfraFi.Protocol
open Base Reassembly

/-- What differs between the two sides. -/
structure DecoderConfig (τ : Type) where
  /-- The start time of a cleared decoder. -/
  zero : τ
  /-- Whether a transmission started at the first time has timed out at the second. -/
  expired : τ → τ → Bool
  /-- What is kept of the pass number of a START. -/
  pass : UInt8 → UInt8

structure Decoder (τ : Type) where
  payloadBuf : Vector UInt8 (wfrMaxTotalPayload + 1)
  expectedLen : UInt8
  writeCursor : UInt8
  currentPass : UInt8
  inTransmission : Bool
  startTime : τ
deriving DecidableEq

variable {τ : Type} (cfg : DecoderConfig τ)

/-- `memset(dec, 0, sizeof(*dec))`. -/
def decodeInit : Decoder τ where
  payloadBuf := Vector.replicate _ 0
  expectedLen := 0
  writeCursor := 0
  currentPass := 0
  inTransmission := false
  startTime := cfg.zero

def decodeReset : Decoder τ := decodeInit cfg

def decodeCheckTimeout (now : τ) (dec : Decoder τ) : Bool :=
  dec.inTransmission && cfg.expired dec.startTime now

/-- What one call returns and leaves behind. -/
structure FeedResult (τ : Type) where
  dec : Decoder τ
  result : ℤ
  out : Bytes

theorem toNat_lt_bufferSize (i : UInt8) : i.toNat < wfrMaxTotalPayload + 1 := by
  have h := i.toNat_lt
  simpa [wfrMaxTotalPayload] using h

/-- Feeds one scancode; `out` is the caller's buffer, of any size. -/
def decodeFeed (now : τ) (dec : Decoder τ) (address command : UInt8) (out : Bytes) : FeedResult τ :=
  if decodeCheckTimeout cfg now dec then ⟨decodeReset cfg, -1, out⟩
  else if address &&& wfrFrameMagicMask ≠ wfrFrameMagic then ⟨dec, 0, out⟩
  else
    let frameType := address &&& wfrFrameTypeMask
    let pass := address &&& wfrFramePassMask
    if frameType = wfrFrameTypeStart then
      let totalLen := command
      if totalLen = 0 then ⟨dec, -1, out⟩
      else if dec.inTransmission ∧ dec.expectedLen = totalLen then
        -- retransmit of the same transmission: the payload buffer is kept
        ⟨{ dec with writeCursor := 0, currentPass := cfg.pass pass, startTime := now }, 0, out⟩
      else
        ⟨{ decodeReset cfg with
            expectedLen := totalLen, currentPass := cfg.pass pass, inTransmission := true,
            startTime := now }, 0, out⟩
    else if frameType = wfrFrameTypeData then
      if ¬ dec.inTransmission then ⟨dec, 0, out⟩
      else if dec.writeCursor ≥ dec.expectedLen then ⟨dec, 0, out⟩
      else
        ⟨{ dec with
            payloadBuf := dec.payloadBuf.set dec.writeCursor.toNat command (toNat_lt_bufferSize _),
            writeCursor := dec.writeCursor + 1 }, 0, out⟩
    else if frameType = wfrFrameTypeEnd then
      if ¬ dec.inTransmission then ⟨dec, 0, out⟩
      else if dec.writeCursor ≠ dec.expectedLen then ⟨dec, 0, out⟩
      else
        let payload := dec.payloadBuf.toList.take dec.expectedLen.toNat
        if command ≠ wfrCrc8 payload then
          -- not a reset: the next pass will try again
          ⟨{ dec with writeCursor := 0 }, 0, out⟩
        else if dec.expectedLen.toNat ≥ out.length then ⟨decodeReset cfg, -1, out⟩
        else
          ⟨decodeReset cfg, dec.expectedLen.toNat,
            payload ++ 0 :: out.drop (dec.expectedLen.toNat + 1)⟩
    else ⟨dec, 0, out⟩

/-! ## The decoder is a reassembler -/

/-- The reassembly policy of a decoder whose reader has `outSize` bytes. -/
def DecoderConfig.policy (outSize : ℕ) : Policy τ UInt8 UInt8 where
  expired := cfg.expired
  check := wfrCrc8
  room n := n < outSize

@[simp] theorem DecoderConfig.policy_check (n : ℕ) : (cfg.policy n).check = wfrCrc8 := rfl

@[simp] theorem DecoderConfig.policy_expired (n : ℕ) : (cfg.policy n).expired = cfg.expired := rfl

@[simp] theorem DecoderConfig.policy_room (n k : ℕ) : (cfg.policy n).room k = decide (k < n) := rfl

/-- The decoder holds exactly this session. An idle decoder is the initial one. -/
def Represents (dec : Decoder τ) : Option (Session τ UInt8) → Prop
  | none => dec = decodeInit cfg
  | some s => dec.inTransmission = true ∧ dec.expectedLen.toNat = s.size ∧
      dec.writeCursor.toNat = s.received.length ∧ dec.startTime = s.opened ∧
      dec.payloadBuf.toList.take s.received.length = s.received

/-- The return value and the output buffer report this outcome. -/
def FeedResult.Reports (r : FeedResult τ) : Outcome UInt8 → Prop
  | .quiet => r.result = 0
  | .rejected => r.result = -1
  | .delivered p => r.result = p.length ∧ p ≠ [] ∧ p.length < r.out.length ∧
      r.out.take p.length = p ∧ r.out[p.length]? = some 0

theorem represents_init : Represents cfg (decodeInit cfg) none := rfl

theorem decodeCheckTimeout_eq (now : τ) {dec : Decoder τ} {n : ℕ}
    {s : Option (Session τ UInt8)} (h : Represents cfg dec s) :
    decodeCheckTimeout cfg now dec = timedOut (cfg.policy n) now s := by
  cases s with
  | none =>
    obtain rfl : dec = decodeInit cfg := h
    rfl
  | some s =>
    obtain ⟨hin, -, -, hopened, -⟩ := h
    simp [decodeCheckTimeout, timedOut, DecoderConfig.policy, hin, hopened]

theorem take_set {n : ℕ} (v : Vector UInt8 n) (i : ℕ) (b : UInt8) (h : i < n) :
    (v.set i b h).toList.take (i + 1) = v.toList.take i ++ [b] := by
  rw [Vector.toList_set, List.take_add_one, List.take_set_of_le (Nat.le_refl i)]
  simp [h]

section Refinement
variable {now : τ} {dec : Decoder τ} {address command : UInt8} {out : Bytes}
  {s : Option (Session τ UInt8)}

/-- A call and a step agree: on the state they leave, on the result, on the buffer size. -/
def Agrees (out : Bytes) (r : FeedResult τ) (q : Option (Session τ UInt8) × Outcome UInt8) : Prop :=
  Represents cfg r.dec q.1 ∧ r.Reports q.2 ∧ r.out.length = out.length

theorem agrees_quiet (h : Represents cfg dec s) : Agrees cfg out ⟨dec, 0, out⟩ (s, .quiet) := ⟨h, rfl, rfl⟩

private theorem agrees_start (h : Represents cfg dec s) (pass : UInt8) :
    Agrees cfg out
      (if command = 0 then ⟨dec, -1, out⟩
      else if dec.inTransmission ∧ dec.expectedLen = command then
        ⟨{ dec with writeCursor := 0, currentPass := cfg.pass pass, startTime := now }, 0, out⟩
      else
        ⟨{ decodeReset cfg with
            expectedLen := command, currentPass := cfg.pass pass, inTransmission := true,
            startTime := now }, 0, out⟩)
      (onFrame (cfg.policy out.length) now s (.start command.toNat)) := by
  by_cases h0 : command = 0
  · subst h0
    rw [if_pos rfl]
    cases s <;> exact ⟨h, rfl, rfl⟩
  · obtain ⟨n, hn⟩ : ∃ n, command.toNat = n + 1 := by
      refine Nat.exists_eq_succ_of_ne_zero fun hz => h0 ?_
      exact UInt8.toNat_inj.mp hz
    have hq : onFrame (cfg.policy out.length) now s (.start command.toNat) =
        (some ⟨n + 1, now, [], n.succ_ne_zero, Nat.zero_le _⟩, .quiet) := by
      rw [hn]
      cases s <;> rfl
    rw [if_neg h0, hq]
    split
    · rename_i hsame
      exact ⟨⟨hsame.1, by simpa [hsame.2] using hn, rfl, rfl, rfl⟩, rfl, rfl⟩
    · exact ⟨⟨rfl, hn, rfl, rfl, rfl⟩, rfl, rfl⟩

private theorem agrees_data (h : Represents cfg dec s) :
    Agrees cfg out
      (if ¬ dec.inTransmission then ⟨dec, 0, out⟩
      else if dec.writeCursor ≥ dec.expectedLen then ⟨dec, 0, out⟩
      else
        ⟨{ dec with
            payloadBuf := dec.payloadBuf.set dec.writeCursor.toNat command (toNat_lt_bufferSize _),
            writeCursor := dec.writeCursor + 1 }, 0, out⟩)
      (onFrame (cfg.policy out.length) now s (.data command)) := by
  cases s with
  | none =>
    obtain rfl : dec = decodeInit cfg := h
    exact agrees_quiet cfg rfl
  | some s =>
    obtain ⟨hin, hsize, hcur, hopened, hbuf⟩ := h
    rw [if_neg (by simp [hin])]
    by_cases hfull : dec.writeCursor ≥ dec.expectedLen
    · have hlen : ¬ s.received.length < s.size := by
        rw [← hcur, ← hsize]
        exact Nat.not_lt.mpr (UInt8.le_iff_toNat_le.mp hfull)
      rw [if_pos hfull, onFrame, dif_neg hlen]
      exact agrees_quiet cfg ⟨hin, hsize, hcur, hopened, hbuf⟩
    · have hlen : s.received.length < s.size := by
        rw [← hcur, ← hsize]
        exact UInt8.lt_iff_toNat_lt.mp (UInt8.not_le.mp hfull)
      have hnext : (dec.writeCursor + 1).toNat = s.received.length + 1 := by
        have h1 := dec.expectedLen.toNat_lt
        rw [UInt8.toNat_add, hcur, show (1 : UInt8).toNat = 1 by rfl]
        exact Nat.mod_eq_of_lt (by omega)
      rw [if_neg hfull, onFrame, dif_pos hlen]
      refine ⟨⟨hin, hsize, ?_, hopened, ?_⟩, rfl, rfl⟩
      · simpa using hnext
      · simp only [List.length_append, List.length_cons, List.length_nil, Nat.zero_add, hcur]
        rw [take_set, hbuf]

private theorem agrees_end (h : Represents cfg dec s) :
    Agrees cfg out
      (if ¬ dec.inTransmission then ⟨dec, 0, out⟩
      else if dec.writeCursor ≠ dec.expectedLen then ⟨dec, 0, out⟩
      else
        if command ≠ wfrCrc8 (dec.payloadBuf.toList.take dec.expectedLen.toNat) then
          ⟨{ dec with writeCursor := 0 }, 0, out⟩
        else if dec.expectedLen.toNat ≥ out.length then ⟨decodeReset cfg, -1, out⟩
        else
          ⟨decodeReset cfg, dec.expectedLen.toNat, dec.payloadBuf.toList.take dec.expectedLen.toNat ++
            0 :: out.drop (dec.expectedLen.toNat + 1)⟩)
      (onFrame (cfg.policy out.length) now s (.finish command)) := by
  cases s with
  | none =>
    obtain rfl : dec = decodeInit cfg := h
    exact agrees_quiet cfg rfl
  | some s =>
    obtain ⟨hin, hsize, hcur, hopened, hbuf⟩ := h
    rw [if_neg (by simp [hin])]
    by_cases hlen : s.received.length = s.size
    · have heq : dec.writeCursor = dec.expectedLen :=
        UInt8.toNat_inj.mp (by rw [hcur, hsize, hlen])
      have hpay : dec.payloadBuf.toList.take dec.expectedLen.toNat = s.received := by
        rw [hsize, ← hlen, hbuf]
      rw [if_neg (not_not.mpr heq), onFrame, if_neg (not_not.mpr hlen), hpay]
      by_cases hcrc : command = wfrCrc8 s.received
      · have hcheck : ¬ (cfg.policy out.length).check s.received ≠ command := not_not.mpr hcrc.symm
        rw [if_neg (not_not.mpr hcrc), if_neg hcheck, hsize]
        by_cases hroom : s.size < out.length
        · have hpol : (cfg.policy out.length).room s.size = true := by simpa [DecoderConfig.policy] using hroom
          rw [if_neg (Nat.not_le.mpr hroom), if_pos hpol]
          refine ⟨rfl, ⟨by simp [hlen], ?_, ?_, ?_, ?_⟩, ?_⟩
          · exact fun hnil => s.size_ne (by rw [← hlen, hnil, List.length_nil])
          · simp [hlen]
          · simp
          · simp
          · simp [hlen]
            omega
        · have hpol : ¬ (cfg.policy out.length).room s.size = true := by simpa [DecoderConfig.policy] using hroom
          rw [if_pos (Nat.not_lt.mp hroom), if_neg hpol]
          exact ⟨rfl, rfl, rfl⟩
      · have hcheck : (cfg.policy out.length).check s.received ≠ command := Ne.symm hcrc
        rw [if_pos hcrc, if_pos hcheck]
        exact ⟨⟨hin, hsize, rfl, hopened, rfl⟩, rfl, rfl⟩
    · have hne : dec.writeCursor ≠ dec.expectedLen := fun he => hlen (by rw [← hcur, ← hsize, he])
      rw [if_pos hne, onFrame, if_pos hlen]
      exact agrees_quiet cfg ⟨hin, hsize, hcur, hopened, hbuf⟩

variable (now address command out) in
/-- One call of the decoder is one step of the reassembler. -/
theorem decodeFeed_refines (h : Represents cfg dec s) :
    Agrees cfg out (decodeFeed cfg now dec address command out)
      (step (cfg.policy out.length) now s (frameOf address command)) := by
  have htime := decodeCheckTimeout_eq cfg now (n := out.length) h
  unfold decodeFeed step
  rw [← htime]
  split
  · exact ⟨rfl, rfl, rfl⟩
  by_cases hm : address &&& wfrFrameMagicMask = wfrFrameMagic
  · rw [if_neg (not_not.mpr hm)]
    by_cases hs : address &&& wfrFrameTypeMask = wfrFrameTypeStart
    · rw [if_pos hs, frameOf_start ⟨hm, hs⟩]
      exact agrees_start cfg h _
    rw [if_neg hs]
    by_cases hd : address &&& wfrFrameTypeMask = wfrFrameTypeData
    · rw [if_pos hd, frameOf_data ⟨hm, hd⟩]
      exact agrees_data cfg h
    rw [if_neg hd]
    by_cases he : address &&& wfrFrameTypeMask = wfrFrameTypeEnd
    · rw [if_pos he, frameOf_end ⟨hm, he⟩]
      exact agrees_end cfg h
    have hother : frameOf address command = .other := by
      simp [frameOf, AddressIs, hs, hd, he]
    rw [if_neg he, hother]
    cases s <;> exact agrees_quiet cfg h
  · rw [if_pos hm, frameOf_foreign (.inl hm)]
    cases s <;> exact agrees_quiet cfg h

end Refinement

theorem FeedResult.Reports.result_le_zero {r : FeedResult τ} {o : Outcome UInt8} (h : r.Reports o)
    (ho : o.message? = none) : r.result ≤ 0 := by
  cases o with
  | quiet => exact Int.le_of_eq h
  | rejected => exact Int.le_trans (Int.le_of_eq h) (by decide)
  | delivered p => cases ho

theorem FeedResult.Reports.delivered {r : FeedResult τ} {o : Outcome UInt8} (h : r.Reports o)
    (hpos : 0 < r.result) : ∃ p, o = .delivered p := by
  cases o with
  | quiet => exact absurd hpos (by simp [show r.result = 0 from h])
  | rejected => exact absurd hpos (by simp [show r.result = -1 from h])
  | delivered p => exact ⟨p, rfl⟩

end InfraFi.Protocol
