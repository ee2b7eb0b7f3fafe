import InfraFi.Base.Reassembly
import InfraFi.Protocol.Crc
import InfraFi.Protocol.Defs

/-! # Scancodes as frames of the reassembly protocol

Both decoders take an address and a command byte apart with the same masks.
-/
namespace InfraFi.Protocol
open Base Reassembly

/-- An InfraFi address byte of the given frame type, whatever its pass number. -/
def AddressIs (type address : UInt8) : Prop :=
  address &&& wfrFrameMagicMask = wfrFrameMagic ∧ address &&& wfrFrameTypeMask = type

instance (type address : UInt8) : Decidable (AddressIs type address) :=
  inferInstanceAs (Decidable (_ ∧ _))

/-- No START, DATA or END frame: a wrong high nibble, or frame type 11. -/
def IsForeign (address : UInt8) : Prop :=
  address &&& wfrFrameMagicMask ≠ wfrFrameMagic ∨ address &&& wfrFrameTypeMask = wfrFrameTypeAck

instance (address : UInt8) : Decidable (IsForeign address) := inferInstanceAs (Decidable (_ ∨ _))

/-- The frame a scancode stands for. -/
def frameOf (address command : UInt8) : Frame UInt8 UInt8 :=
  if AddressIs wfrFrameTypeStart address then .start command.toNat
  else if AddressIs wfrFrameTypeData address then .data command
  else if AddressIs wfrFrameTypeEnd address then .finish command
  else .other

variable {address command : UInt8}

/-- An address has at most one frame type. -/
theorem AddressIs.type_eq {s t : UInt8} (hs : AddressIs s address) (ht : AddressIs t address) :
    s = t := hs.2.symm.trans ht.2

theorem frameOf_start (h : AddressIs wfrFrameTypeStart address) :
    frameOf address command = .start command.toNat := if_pos h

theorem frameOf_data (h : AddressIs wfrFrameTypeData address) :
    frameOf address command = .data command := by
  have hs : ¬ AddressIs wfrFrameTypeStart address := fun hs => absurd (hs.type_eq h) (by decide)
  rw [frameOf, if_neg hs, if_pos h]

theorem frameOf_end (h : AddressIs wfrFrameTypeEnd address) :
    frameOf address command = .finish command := by
  have hs : ¬ AddressIs wfrFrameTypeStart address := fun hs => absurd (hs.type_eq h) (by decide)
  have hd : ¬ AddressIs wfrFrameTypeData address := fun hd => absurd (hd.type_eq h) (by decide)
  rw [frameOf, if_neg hs, if_neg hd, if_pos h]

theorem frameOf_foreign (h : IsForeign address) : frameOf address command = .other := by
  have hnot (t : UInt8) (ht : t ≠ wfrFrameTypeAck) : ¬ AddressIs t address := by
    rintro ⟨hm, hty⟩
    rcases h with h | h
    · exact h hm
    · exact ht (hty.symm.trans h)
  rw [frameOf, if_neg (hnot _ (by decide)), if_neg (hnot _ (by decide)), if_neg (hnot _ (by decide))]

theorem frameOf_eq_start {n : ℕ} (h : frameOf address command = .start n) :
    AddressIs wfrFrameTypeStart address ∧ command.toNat = n := by
  unfold frameOf at h
  split_ifs at h with hs
  exact ⟨hs, by simpa using h⟩

theorem frameOf_eq_data {b : UInt8} (h : frameOf address command = .data b) :
    AddressIs wfrFrameTypeData address ∧ command = b := by
  unfold frameOf at h
  split_ifs at h with _ hd
  exact ⟨hd, by simpa using h⟩

theorem frameOf_eq_finish {c : UInt8} (h : frameOf address command = .finish c) :
    AddressIs wfrFrameTypeEnd address ∧ command = c := by
  unfold frameOf at h
  split_ifs at h with _ _ he
  exact ⟨he, by simpa using h⟩

/-- The address byte a sender puts together. -/
def frameAddress (type pass : UInt8) : UInt8 := wfrFrameMagic ||| type ||| pass

theorem addressIs_frameAddress {pass : UInt8} (h : pass ≤ wfrFramePassMask) :
    AddressIs wfrFrameTypeStart (frameAddress wfrFrameTypeStart pass) ∧
      AddressIs wfrFrameTypeData (frameAddress wfrFrameTypeData pass) ∧
      AddressIs wfrFrameTypeEnd (frameAddress wfrFrameTypeEnd pass) := by
  have hle : pass.toNat ≤ 3 := UInt8.le_iff_toNat_le.mp h
  have hpass : pass = 0 ∨ pass = 1 ∨ pass = 2 ∨ pass = 3 := by
    simp only [← UInt8.toNat_inj, UInt8.reduceToNat]
    omega
  rcases hpass with rfl | rfl | rfl | rfl <;> decide

/-- The address and command bytes of one pass of a transmission. -/
def passFrames (pass : UInt8) (payload : Bytes) : List (UInt8 × UInt8) :=
  (frameAddress wfrFrameTypeStart pass, UInt8.ofNat payload.length) ::
    payload.map (fun b => (frameAddress wfrFrameTypeData pass, b)) ++
    [(frameAddress wfrFrameTypeEnd pass, wfrCrc8 payload)]

theorem frameOf_passFrames {pass : UInt8} (h : pass ≤ wfrFramePassMask) {payload : Bytes}
    (hlen : payload.length ≤ 255) :
    (passFrames pass payload).map (fun f => frameOf f.1 f.2) =
      .start payload.length :: payload.map .data ++ [.finish (wfrCrc8 payload)] := by
  obtain ⟨hstart, hdata, hend⟩ := addressIs_frameAddress h
  rw [passFrames, List.map_append, List.map_cons, List.map_map, List.map_singleton, frameOf_start hstart,
    frameOf_end hend, UInt8.toNat_ofNat_of_lt' (by simp only [UInt8.size]; omega)]
  congr 3
  funext b
  exact frameOf_data hdata

end InfraFi.Protocol
