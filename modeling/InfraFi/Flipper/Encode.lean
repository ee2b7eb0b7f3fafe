import InfraFi.Protocol.Frames
import InfraFi.Protocol.RoundTrip

/-! # Sending credentials over infrared

The sender is the list of messages it puts on the air, each with the pause
behind it. The progress callback sees a different count at every call, so an
arbitrary function of the counts is an arbitrary callback.
-/
namespace InfraFi.Flipper
open Base Protocol

/-- One infrared message and the pause that follows it. -/
structure TxMessage where
  protocol : WfrIrProtocol
  address : UInt8
  command : UInt8
  delayMs : ℕ
deriving DecidableEq

/-- `progress && !progress(sent, total, context)`; `none` is a NULL callback. -/
def cancels (progress : Option (UInt16 → UInt16 → Bool)) (total : UInt16) (sent : ℕ) : Bool :=
  match progress with
  | none => false
  | some accepts => !accepts (UInt16.ofNat sent) total

/-- The DATA messages of a pass from the `i`-th on, and whether none of them was cancelled. -/
def sendData (protocol : WfrIrProtocol) (pass : UInt8) (interMsgMs : ℕ) (cancel : ℕ → Bool) :
    ℕ → Bytes → List TxMessage × Bool
  | _, [] => ([], true)
  | i, b :: bs =>
    let message := ⟨protocol, frameAddress wfrFrameTypeData pass, b, interMsgMs⟩
    if cancel (i + 1) then ([message], false)
    else
      let r := sendData protocol pass interMsgMs cancel (i + 1) bs
      (message :: r.1, r.2)

/-- The remaining retransmission passes. -/
def sendPasses (protocol : WfrIrProtocol) (interMsgMs retransmitGapMs : ℕ) (cancel : ℕ → Bool)
    (payload : Bytes) : ℕ → ℕ → List TxMessage × Bool
  | 0, _ => ([], true)
  | left + 1, attempt =>
    let pass := UInt8.ofNat attempt &&& wfrFramePassMask
    let start := ⟨protocol, frameAddress wfrFrameTypeStart pass, UInt8.ofNat payload.length, interMsgMs⟩
    let data := sendData protocol pass interMsgMs (fun i => cancel (attempt * payload.length + i)) 0
      payload
    if data.2 then
      let gap := if attempt + 1 < wfrRetransmitCount then retransmitGapMs else 0
      let fin := ⟨protocol, frameAddress wfrFrameTypeEnd pass, wfrCrc8 payload, gap⟩
      let r := sendPasses protocol interMsgMs retransmitGapMs cancel payload left (attempt + 1)
      (start :: data.1 ++ fin :: r.1, r.2)
    else (start :: data.1, false)

def interMsgMs : WfrIrProtocol → ℕ
  | .nec => wfrNecInterMsgMs
  | .rc6 => wfrRc6InterMsgMs

def retransmitGapMs : WfrIrProtocol → ℕ
  | .nec => wfrNecRetransmitGapMs
  | .rc6 => wfrRc6RetransmitGapMs

/-- The messages sent and the value returned. `wifiStr` is the sender's stack buffer. -/
def wfrTransmitCredentials (creds : WfrWifiCreds) (protocol : WfrIrProtocol)
    (progress : Option (UInt16 → UInt16 → Bool)) (wifiStr : Vector UInt8 (wfrMaxTotalPayload + 1)) :
    Exec (List TxMessage × Bool) := do
  if creds.ssid.bytes = [] then return ([], false)
  let (wifiLen, wifiStr) ← wfrBuildWifiString creds wifiStr.toList
  if wifiLen = 0 ∨ wifiLen > 255 then return ([], false)
  let payload := wifiStr.take wifiLen
  let total := UInt16.ofNat (wifiLen * wfrRetransmitCount)
  if cancels progress total 0 then return ([], false)
  return sendPasses protocol (interMsgMs protocol) (retransmitGapMs protocol)
    (cancels progress total) payload wfrRetransmitCount 0

/-! ## What is sent -/

section Messages
variable (protocol : WfrIrProtocol)

def startMessage (p : Bytes) : TxMessage :=
  ⟨protocol, frameAddress wfrFrameTypeStart 0, UInt8.ofNat p.length, interMsgMs protocol⟩

def dataMessage (b : UInt8) : TxMessage :=
  ⟨protocol, frameAddress wfrFrameTypeData 0, b, interMsgMs protocol⟩

def endMessage (p : Bytes) : TxMessage :=
  ⟨protocol, frameAddress wfrFrameTypeEnd 0, wfrCrc8 p, 0⟩

/-- The DATA messages go out in order, up to the first count that the callback cancels. -/
theorem sendData_eq (cancel : ℕ → Bool) (i : ℕ) (bs : Bytes) :
    ∃ k, (sendData protocol 0 (interMsgMs protocol) cancel i bs).1 =
        (bs.take k).map (dataMessage protocol) ∧
      ((sendData protocol 0 (interMsgMs protocol) cancel i bs).2 = true → bs.length ≤ k) ∧
      ((sendData protocol 0 (interMsgMs protocol) cancel i bs).2 = true ↔
        ∀ j < bs.length, cancel (i + 1 + j) = false) := by
  induction bs generalizing i with
  | nil => exact ⟨0, by simp [sendData]⟩
  | cons b bs ih =>
    obtain ⟨k, hsent, hall, hok⟩ := ih (i + 1)
    by_cases hc : cancel (i + 1) = true
    · refine ⟨1, by simp [sendData, hc, dataMessage], by simp [sendData, hc], ?_⟩
      simp only [sendData, hc, if_true, Bool.false_eq_true, false_iff, not_forall]
      exact ⟨0, by simp, by simp [hc]⟩
    · simp only [Bool.not_eq_true] at hc
      refine ⟨k + 1, by simp [sendData, hc, hsent, dataMessage], ?_, ?_⟩
      · simpa [sendData, hc] using hall
      · simp only [sendData, hc, Bool.false_eq_true, if_false, hok, List.length_cons]
        constructor
        · intro h j hj
          cases j with
          | zero => exact hc
          | succ j =>
            rw [show i + 1 + (j + 1) = i + 1 + 1 + j by omega]
            exact h j (by omega)
        · intro h j hj
          rw [show i + 1 + 1 + j = i + 1 + (j + 1) by omega]
          exact h (j + 1) (by omega)

/-- The single pass sends all its messages, or its START and a part of the data. -/
theorem sendPasses_cases (retransmitGapMs : ℕ) (cancel : ℕ → Bool) (p : Bytes) :
    ((∀ j < p.length, cancel (j + 1) = false) ∧
      sendPasses protocol (interMsgMs protocol) retransmitGapMs cancel p wfrRetransmitCount 0 =
        (startMessage protocol p :: p.map (dataMessage protocol) ++ [endMessage protocol p], true)) ∨
    (¬ (∀ j < p.length, cancel (j + 1) = false) ∧ ∃ k,
      sendPasses protocol (interMsgMs protocol) retransmitGapMs cancel p wfrRetransmitCount 0 =
        (startMessage protocol p :: (p.take k).map (dataMessage protocol), false)) := by
  obtain ⟨k, hsent, hall, hok⟩ := sendData_eq protocol cancel 0 p
  have hcounts : (∀ j < p.length, cancel (j + 1) = false) ↔
      ∀ j < p.length, cancel (0 + 1 + j) = false := by
    simp only [Nat.zero_add, Nat.add_comm 1]
  have hpass : UInt8.ofNat 0 &&& wfrFramePassMask = 0 := by decide
  rw [hcounts, ← hok]
  cases hdata : (sendData protocol 0 (interMsgMs protocol) cancel 0 p).2 with
  | true =>
    rw [List.take_of_length_le (hall hdata)] at hsent
    refine .inl ⟨rfl, ?_⟩
    simp only [wfrRetransmitCount, sendPasses, hpass, Nat.zero_mul, Nat.zero_add, hdata, hsent, if_true]
    rfl
  | false =>
    refine .inr ⟨Bool.false_ne_true, k, ?_⟩
    simp only [wfrRetransmitCount, sendPasses, hpass, Nat.zero_mul, Nat.zero_add, hdata, hsent]
    rfl

end Messages

/-- There is an SSID to send and the callback cancels at no count. -/
def Uncancelled (creds : WfrWifiCreds) (progress : Option (UInt16 → UInt16 → Bool)) : Prop :=
  creds.ssid.bytes ≠ [] ∧ ∀ sent < (fullWifiString creds).length + 1,
    cancels progress (UInt16.ofNat (fullWifiString creds).length) sent = false

instance (creds : WfrWifiCreds) (progress : Option (UInt16 → UInt16 → Bool)) :
    Decidable (Uncancelled creds progress) := inferInstanceAs (Decidable (_ ∧ _))

/-- The only case that depends on the counts: all checks before the first message pass. -/
private theorem wfrTransmitCredentials_eq {creds : WfrWifiCreds} (protocol : WfrIrProtocol)
    (progress : Option (UInt16 → UInt16 → Bool)) (wifiStr : Vector UInt8 (wfrMaxTotalPayload + 1))
    {p : Bytes} (hp : fullWifiString creds = p) (hssid : creds.ssid.bytes ≠ []) :
    wfrTransmitCredentials creds protocol progress wifiStr =
      if cancels progress (UInt16.ofNat p.length) 0 then .ok ([], false) else
        .ok (sendPasses protocol (interMsgMs protocol) (retransmitGapMs protocol)
          (cancels progress (UInt16.ofNat p.length)) p wfrRetransmitCount 0) := by
  have hle := fullWifiString_length_le creds
  have hpos := fullWifiString_length_pos creds
  have hbuf : wifiStr.toList.length = 256 := Vector.length_toList
  have hbuild := wfrBuildWifiString_fits creds wifiStr.toList (by omega) (by omega)
  rw [hp] at hle hpos hbuild
  have hbig : ¬ (p.length = 0 ∨ p.length > 255) := by omega
  rw [wfrTransmitCredentials, if_neg hssid, hbuild]
  simp only [Exec.ok_bind, if_neg hbig, List.take_left', wfrRetransmitCount, Nat.mul_one]
  split <;> rfl

/-- A send puts out nothing, its START and a part of the data, or all its messages. -/
theorem wfrTransmitCredentials_cases (creds : WfrWifiCreds) (protocol : WfrIrProtocol)
    (progress : Option (UInt16 → UInt16 → Bool)) (wifiStr : Vector UInt8 (wfrMaxTotalPayload + 1)) :
    (¬ Uncancelled creds progress ∧
      (wfrTransmitCredentials creds protocol progress wifiStr = .ok ([], false) ∨
        ∃ k, wfrTransmitCredentials creds protocol progress wifiStr =
          .ok (startMessage protocol (fullWifiString creds) ::
            ((fullWifiString creds).take k).map (dataMessage protocol), false))) ∨
    (Uncancelled creds progress ∧
      wfrTransmitCredentials creds protocol progress wifiStr =
        .ok (startMessage protocol (fullWifiString creds) ::
          (fullWifiString creds).map (dataMessage protocol) ++
            [endMessage protocol (fullWifiString creds)], true)) := by
  by_cases hssid : creds.ssid.bytes = []
  · refine .inl ⟨fun h => h.1 hssid, .inl ?_⟩
    rw [wfrTransmitCredentials, if_pos hssid]
    rfl
  rw [Uncancelled, wfrTransmitCredentials_eq protocol progress wifiStr rfl hssid]
  generalize fullWifiString creds = p
  by_cases h0 : cancels progress (UInt16.ofNat p.length) 0 = true
  · refine .inl ⟨fun h => ?_, .inl (if_pos h0)⟩
    exact Bool.false_ne_true ((h.2 0 p.length.succ_pos).symm.trans h0)
  rw [if_neg h0]
  rcases sendPasses_cases protocol (retransmitGapMs protocol)
    (cancels progress (UInt16.ofNat p.length)) p with ⟨hall, hsent⟩ | ⟨hsome, k, hsent⟩
  · refine .inr ⟨⟨hssid, fun sent hs => ?_⟩, by rw [hsent]⟩
    cases sent with
    | zero => simpa using h0
    | succ j => exact hall j (by omega)
  · refine .inl ⟨fun h => hsome fun j hj => h.2 (j + 1) (by omega), .inr ⟨k, by rw [hsent]⟩⟩

end InfraFi.Flipper
