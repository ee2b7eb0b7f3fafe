import InfraFi.Daemon.Calls
import InfraFi.Protocol.Frames

/-! # Answering over infrared -/
namespace InfraFi.Daemon
open Base Protocol

/-- Sends one RC-6 scancode; false when the write fails. -/
def sendRc6 (address command : UInt8) : Cmd Bool := call (.writeScancode address command)

/-- The DATA messages, one byte each. -/
def sendAckData (pass : UInt8) : Bytes → Cmd Bool
  | [] => return true
  | b :: bs => do
    if ¬ (← sendRc6 (frameAddress wfrFrameTypeData pass) b) then return false
    call (.delayMs wfrRc6InterMsgMs)
    sendAckData pass bs

def ackText (success : Bool) (ipStr : Option Bytes) : Bytes :=
  match success, ipStr with
  | true, some ip => wfrAckPrefixOk ++ ip
  | _, _ => wfrAckPrefixFail

def wfrAckSend (fd : ℤ) (success : Bool) (ipStr : Option Bytes) : Cmd Bool := do
  if fd < 0 then return false
  let payload := snprintf (wfrMaxTotalPayload + 1) (ackText success ipStr)
  let payloadLen := (ackText success ipStr).length
  if payloadLen = 0 ∨ payloadLen > 255 then return false
  let data := payload.take payloadLen
  let crc := wfrCrc8 data
  let pass : UInt8 := 0
  if ¬ (← sendRc6 (frameAddress wfrFrameTypeStart pass) (UInt8.ofNat payloadLen)) then return false
  call (.delayMs wfrRc6InterMsgMs)
  if ¬ (← sendAckData pass data) then return false
  if ¬ (← sendRc6 (frameAddress wfrFrameTypeEnd pass) crc) then return false
  return true

/-! ## What is written -/

/-- The scancodes that were written, in order. -/
def written (tr : Trace) : List (UInt8 × UInt8) :=
  tr.filterMap (fun
    | ⟨.writeScancode address command, ok⟩ => if ok then some (address, command) else none
    | _ => none)

def writeFailed : Event Call Call.Answer → Bool
  | ⟨.writeScancode _ _, ok⟩ => !ok
  | _ => false

def AllWritten (tr : Trace) : Prop := ∀ e ∈ tr, writeFailed e = false

instance (tr : Trace) : Decidable (AllWritten tr) := inferInstanceAs (Decidable (∀ e ∈ tr, _))

@[simp] theorem written_nil : written [] = [] := rfl

@[simp] theorem allWritten_nil : AllWritten [] := by simp [AllWritten]

theorem written_append (s t : Trace) : written (s ++ t) = written s ++ written t :=
  List.filterMap_append

theorem allWritten_append {s t : Trace} : AllWritten (s ++ t) ↔ AllWritten s ∧ AllWritten t :=
  List.forall_mem_append

theorem run_sendRc6 {tr : Trace} {address command : UInt8} {ok : Bool}
    (h : Prog.Run (sendRc6 address command) tr ok) :
    written tr = (if ok then [(address, command)] else []) ∧ (AllWritten tr ↔ ok = true) := by
  obtain rfl := run_call.mp h
  cases ok <;> simp [written, AllWritten, writeFailed]

theorem run_delay {tr : Trace} {ms : ℕ} {u : Unit} (h : Prog.Run (call (.delayMs ms)) tr u) :
    written tr = [] ∧ AllWritten tr := by
  obtain rfl := run_call.mp h
  simp [written, AllWritten, writeFailed]

/-- The DATA messages are all written, or those before the first write that fails. -/
theorem run_sendAckData {pass : UInt8} {bs : Bytes} {tr : Trace} {ok : Bool}
    (h : Prog.Run (sendAckData pass bs) tr ok) :
    (AllWritten tr ↔ ok = true) ∧ ∃ k, (ok = true → bs.length ≤ k) ∧
      written tr = (bs.take k).map (fun b => (frameAddress wfrFrameTypeData pass, b)) := by
  induction bs generalizing tr with
  | nil =>
    rcases Prog.run_pure.mp h with ⟨rfl, rfl⟩
    exact ⟨by simp, 0, by simp⟩
  | cons b bs ih =>
    rcases Prog.run_bind.mp h with ⟨t₁, sent, t₂, rfl, h₁, h₂⟩
    rcases run_sendRc6 h₁ with ⟨hw₁, ha₁⟩
    rw [written_append, allWritten_append, hw₁, ha₁]
    cases sent with
    | false =>
      rcases Prog.run_pure.mp h₂ with ⟨rfl, rfl⟩
      exact ⟨by simp, 0, by simp⟩
    | true =>
      rcases Prog.run_bind.mp h₂ with ⟨t₃, u, t₄, rfl, h₃, h₄⟩
      rcases run_delay h₃ with ⟨hw₃, ha₃⟩
      rcases ih h₄ with ⟨ha₄, k, hk, hw₄⟩
      rw [written_append, allWritten_append, hw₃, hw₄, ha₄]
      refine ⟨by simp [ha₃], k + 1, by simpa using hk, by simp⟩

theorem ackText_ne_nil (success : Bool) (ipStr : Option Bytes) : ackText success ipStr ≠ [] := by
  unfold ackText
  split <;> simp [wfrAckPrefixOk, wfrAckPrefixFail, ascii]

/-- The whole transmission is written, or a part of it that lacks at least the END. -/
theorem run_wfrAckSend {fd : ℤ} {success : Bool} {ipStr : Option Bytes} {tr : Trace} {ok : Bool}
    (hfd : 0 ≤ fd) (hlen : (ackText success ipStr).length ≤ 255)
    (h : Prog.Run (wfrAckSend fd success ipStr) tr ok) :
    AllWritten tr ∧ written tr = passFrames 0 (ackText success ipStr) ∨
    ¬ AllWritten tr ∧ (written tr = [] ∨ ∃ k, written tr =
      (frameAddress wfrFrameTypeStart 0, UInt8.ofNat (ackText success ipStr).length) ::
        ((ackText success ipStr).take k).map (fun b => (frameAddress wfrFrameTypeData 0, b))) := by
  have hne := List.length_pos_iff.mpr (ackText_ne_nil success ipStr)
  unfold wfrAckSend at h
  generalize ackText success ipStr = text at hlen hne h ⊢
  have hpay : snprintf (wfrMaxTotalPayload + 1) text = text :=
    snprintf_of_lt (by simp only [wfrMaxTotalPayload]; omega)
  rw [if_neg (by omega)] at h
  simp only [if_neg (by omega : ¬ (text.length = 0 ∨ text.length > 255)), hpay, List.take_length] at h
  rcases Prog.run_bind.mp h with ⟨t₁, started, t₂, rfl, h₁, h₂⟩
  rcases run_sendRc6 h₁ with ⟨hw₁, ha₁⟩
  rw [written_append, allWritten_append, hw₁, ha₁]
  cases started with
  | false =>
    rcases Prog.run_pure.mp h₂ with ⟨rfl, rfl⟩
    exact .inr ⟨by simp, .inl (by simp)⟩
  | true =>
    rcases Prog.run_bind.mp h₂ with ⟨t₃, u, t₄, rfl, h₃, h₄⟩
    rcases run_delay h₃ with ⟨hw₃, ha₃⟩
    rcases Prog.run_bind.mp h₄ with ⟨t₅, sent, t₆, rfl, h₅, h₆⟩
    rcases run_sendAckData h₅ with ⟨ha₅, k, hk, hw₅⟩
    rw [written_append, allWritten_append, hw₃, written_append, allWritten_append, hw₅, ha₅]
    cases sent with
    | false =>
      rcases Prog.run_pure.mp h₆ with ⟨rfl, rfl⟩
      exact .inr ⟨by simp, .inr ⟨k, by simp⟩⟩
    | true =>
      rw [List.take_of_length_le (hk rfl)]
      rcases Prog.run_bind.mp h₆ with ⟨t₇, ended, t₈, rfl, h₇, h₈⟩
      rcases run_sendRc6 h₇ with ⟨hw₇, ha₇⟩
      rw [written_append, allWritten_append, hw₇, ha₇]
      cases ended with
      | false =>
        rcases Prog.run_pure.mp h₈ with ⟨rfl, rfl⟩
        exact .inr ⟨by simp, .inr ⟨text.length, by simp⟩⟩
      | true =>
        rcases Prog.run_pure.mp h₈ with ⟨rfl, rfl⟩
        exact .inl ⟨by simp [ha₃], by simp [passFrames]⟩

end InfraFi.Daemon
