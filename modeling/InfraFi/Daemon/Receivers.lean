import InfraFi.Daemon.Decode
import Mathlib.Algebra.Group.Nat.Even

/-! # The two infrared receivers

LIRC hands over decoded scancodes. An evdev receiver hands over raw NEC frames
whose bytes are in FAB4 bit order and are validated here. Both readers skip
what they do not accept and never look at the running flag while they skip.
-/
namespace InfraFi.Daemon
open Base Protocol

/-! ## Raw NEC frames over evdev -/

def evMsc : UInt16 := 4
def mscRaw : UInt16 := 3

/-- `struct input_event` without its time stamp. -/
structure InputEvent where
  type : UInt16
  code : UInt16
  value : Int32
deriving DecidableEq

/-- Reverses the bit order within a byte. -/
def reverseBits (b : UInt8) : UInt8 :=
  let b := (b &&& 0xF0) >>> 4 ||| (b &&& 0x0F) <<< 4
  let b := (b &&& 0xCC) >>> 2 ||| (b &&& 0x33) <<< 2
  (b &&& 0xAA) >>> 1 ||| (b &&& 0x55) <<< 1

/-- The scancode in an input event; `none` is an event that the reader skips. -/
def evdevScancode (ev : InputEvent) : Option (UInt8 × UInt8) :=
  if ev.type ≠ evMsc ∨ ev.code ≠ mscRaw then none
  else
    let raw := ev.value.toUInt32
    let addr := reverseBits (raw >>> 24).toUInt8
    let addrInv := reverseBits (raw >>> 16).toUInt8
    let cmd := reverseBits (raw >>> 8).toUInt8
    let cmdInv := reverseBits raw.toUInt8
    if addr ^^^ addrInv ≠ 0xFF then none
    else if cmd ^^^ cmdInv ≠ 0xFF then none
    else some (addr, cmd)

/-! ## Scancodes from LIRC -/

def rcProtoNec : UInt16 := 9
def rcProtoRc60 : UInt16 := 15

/-- The fields of `struct lirc_scancode` that are read. -/
structure LircScancode where
  rcProto : UInt16
  scancode : UInt64
deriving DecidableEq

def lircScancode (sc : LircScancode) : Option (UInt8 × UInt8) :=
  if sc.rcProto ≠ rcProtoRc60 ∧ sc.rcProto ≠ rcProtoNec then none
  else some ((sc.scancode >>> 8).toUInt8, sc.scancode.toUInt8)

/-- What `send_rc6` writes to a LIRC device. -/
def rc6Scancode (address command : UInt8) : LircScancode :=
  ⟨rcProtoRc60, (address.toUInt32 <<< 8 ||| command.toUInt32).toUInt64⟩

/-! ## The readers -/

variable {ε : Type}

/-- One `read` of the device. -/
structure DeviceRead (ε : Type) where
  /-- `none` is an error, an interruption or a short read. -/
  event : Option ε
  /-- The clock when the scancode is fed. -/
  now : Timespec
  /-- What the main loop finds in `running` when it looks next. -/
  running : Bool

/-- How a reader comes back: not at all, since the device has nothing more; with -1; or with a
scancode. What is left to read comes with it. -/
inductive Answer (ε : Type) where
  | blocks
  | failed (last : DeviceRead ε) (rest : List (DeviceRead ε))
  | scancode (address command : UInt8) (last : DeviceRead ε) (rest : List (DeviceRead ε))

def readScancode (scancode? : ε → Option (UInt8 × UInt8)) : List (DeviceRead ε) → Answer ε
  | [] => .blocks
  | r :: rest =>
    match r.event with
    | none => .failed r rest
    | some ev =>
      match scancode? ev with
      | none => readScancode scancode? rest
      | some (address, command) => .scancode address command r rest

def wfrEvdevReadScancode : List (DeviceRead InputEvent) → Answer InputEvent :=
  readScancode evdevScancode

def wfrLircReadScancode : List (DeviceRead LircScancode) → Answer LircScancode :=
  readScancode lircScancode

theorem rc6Scancode_toNat (address command : UInt8) :
    (rc6Scancode address command).scancode.toNat = address.toNat * 256 + command.toNat := by
  have haddr := address.toNat_lt
  have hcmd := command.toNat_lt
  have hhigh : (address.toUInt32 <<< 8).toNat = address.toNat <<< 8 := by
    rw [UInt32.toNat_shiftLeft, UInt8.toNat_toUInt32, Nat.shiftLeft_eq]
    simp only [UInt32.reduceToNat, Nat.reduceMod, Nat.reducePow, Nat.shiftLeft_eq] at *
    exact Nat.mod_eq_of_lt (by omega)
  rw [rc6Scancode, UInt32.toNat_toUInt64, UInt32.toNat_or, hhigh, UInt8.toNat_toUInt32,
    ← Nat.shiftLeft_add_eq_or_of_lt hcmd, Nat.shiftLeft_eq]

/-- A written scancode is read back as it was. -/
theorem lircScancode_rc6Scancode (address command : UInt8) :
    lircScancode (rc6Scancode address command) = some (address, command) := by
  have haddr := address.toNat_lt
  have hcmd := command.toNat_lt
  have hnat := rc6Scancode_toNat address command
  have hproto : (rc6Scancode address command).rcProto = rcProtoRc60 := rfl
  simp only [lircScancode, hproto, ne_eq, not_true_eq_false, false_and, if_false, Option.some.injEq,
    Prod.mk.injEq, ← UInt8.toNat_inj, UInt64.toNat_toUInt8, UInt64.toNat_shiftRight, hnat,
    Nat.shiftRight_eq_div_pow]
  simp only [UInt64.reduceToNat, Nat.reduceMod, Nat.reducePow] at *
  omega

/-! ## Which raw values are accepted -/

theorem reverseBits_toBitVec (b : UInt8) : (reverseBits b).toBitVec = b.toBitVec.reverse := by
  apply BitVec.eq_of_getLsbD_eq
  intro i hi
  rw [BitVec.getLsbD_reverse, BitVec.getMsbD_eq_getLsbD]
  have hbit : i = 0 ∨ i = 1 ∨ i = 2 ∨ i = 3 ∨ i = 4 ∨ i = 5 ∨ i = 6 ∨ i = 7 := by omega
  rcases hbit with rfl | rfl | rfl | rfl | rfl | rfl | rfl | rfl <;> simp [reverseBits]

@[simp] theorem reverseBits_reverseBits (b : UInt8) : reverseBits (reverseBits b) = b := by
  rw [← UInt8.toBitVec_inj, reverseBits_toBitVec, reverseBits_toBitVec, BitVec.reverse_reverse_eq]

theorem reverseBits_xor (a b : UInt8) : reverseBits (a ^^^ b) = reverseBits a ^^^ reverseBits b := by
  rw [← UInt8.toBitVec_inj, UInt8.toBitVec_xor, reverseBits_toBitVec, reverseBits_toBitVec,
    reverseBits_toBitVec, UInt8.toBitVec_xor]
  apply BitVec.eq_of_getLsbD_eq
  intro i hi
  simp only [BitVec.getLsbD_xor, BitVec.getLsbD_reverse, BitVec.getMsbD_xor]

theorem reverseBits_inj {a b : UInt8} : reverseBits a = reverseBits b ↔ a = b := by
  constructor
  · intro h
    rw [← reverseBits_reverseBits a, h, reverseBits_reverseBits]
  · exact congrArg reverseBits

theorem xor_eq_ones_iff {a b : UInt8} : a ^^^ b = 0xFF ↔ b = ~~~a := by
  have hnot : a ^^^ ~~~a = 0xFF := by
    rw [UInt8.xor_not, UInt8.xor_self]
    decide
  constructor
  · intro h
    rw [← hnot] at h
    exact UInt8.xor_right_inj _ |>.mp h
  · rintro rfl
    exact hnot

/-- The word with these bytes, the highest first. -/
def wordOf (b₃ b₂ b₁ b₀ : UInt8) : UInt32 :=
  UInt32.ofNat (((b₃.toNat * 256 + b₂.toNat) * 256 + b₁.toNat) * 256 + b₀.toNat)

theorem eq_wordOf_iff {raw : UInt32} {b₃ b₂ b₁ b₀ : UInt8} : raw = wordOf b₃ b₂ b₁ b₀ ↔
    (raw >>> 24).toUInt8 = b₃ ∧ (raw >>> 16).toUInt8 = b₂ ∧ (raw >>> 8).toUInt8 = b₁ ∧
      raw.toUInt8 = b₀ := by
  have hraw := raw.toNat_lt
  have h₃ := b₃.toNat_lt
  have h₂ := b₂.toNat_lt
  have h₁ := b₁.toNat_lt
  have h₀ := b₀.toNat_lt
  simp only [wordOf, ← UInt32.toNat_inj, ← UInt8.toNat_inj, UInt32.toNat_ofNat', UInt32.toNat_toUInt8,
    UInt32.toNat_shiftRight, Nat.shiftRight_eq_div_pow]
  simp only [UInt32.reduceToNat, Nat.reduceMod, Nat.reducePow] at *
  omega

/-- The raw value of the NEC frame for an address and a command, in FAB4 bit order. -/
def fab4Frame (address command : UInt8) : UInt32 :=
  wordOf (reverseBits address) (reverseBits (~~~address)) (reverseBits command)
    (reverseBits (~~~command))

/-- An event is accepted if and only if it carries the frame of the scancode. -/
theorem evdevScancode_eq_some_iff {ev : InputEvent} {address command : UInt8} :
    evdevScancode ev = some (address, command) ↔
      ev.type = evMsc ∧ ev.code = mscRaw ∧ ev.value.toUInt32 = fab4Frame address command := by
  simp only [evdevScancode, fab4Frame, eq_wordOf_iff, Option.ite_none_left_eq_some, not_or, not_not,
    Option.some.injEq, Prod.mk.injEq, xor_eq_ones_iff]
  constructor
  · rintro ⟨⟨htype, hcode⟩, haddr, hcmd, rfl, rfl⟩
    refine ⟨htype, hcode, ?_⟩
    simp only [← haddr, ← hcmd, reverseBits_reverseBits, and_self]
  · rintro ⟨htype, hcode, h₃, h₂, h₁, h₀⟩
    refine ⟨⟨htype, hcode⟩, ?_⟩
    simp only [h₃, h₂, h₁, h₀, reverseBits_reverseBits, and_self]

/-! ## Flipped bits -/

/-- The same event with the bits of a mask flipped on the way. -/
def InputEvent.flip (ev : InputEvent) (mask : UInt32) : InputEvent :=
  { ev with value := (ev.value.toUInt32 ^^^ mask).toInt32 }

/-- The mask flips the same bits of a byte and of its inverse. -/
def SameFlips (mask : UInt32) : Prop :=
  (mask >>> 24).toUInt8 = (mask >>> 16).toUInt8 ∧ (mask >>> 8).toUInt8 = mask.toUInt8

instance (mask : UInt32) : Decidable (SameFlips mask) := inferInstanceAs (Decidable (_ ∧ _))

def flips (mask : UInt32) : ℕ := (List.range 32).countP mask.toNat.testBit

/-- Flips in a byte and in its inverse show unless they are the same. -/
theorem inverse_flip_iff {a b m n : UInt8} (h : a ^^^ b = 0xFF) :
    (a ^^^ m) ^^^ (b ^^^ n) = 0xFF ↔ m = n := by
  have hswap : (a ^^^ m) ^^^ (b ^^^ n) = (a ^^^ b) ^^^ (m ^^^ n) := by
    rw [UInt8.xor_assoc, UInt8.xor_assoc, ← UInt8.xor_assoc m, UInt8.xor_comm m b, UInt8.xor_assoc]
  rw [hswap, h]
  constructor
  · intro hm
    have hzero : m ^^^ n = 0 := (UInt8.xor_right_inj 0xFF).mp (hm.trans UInt8.xor_zero.symm)
    rw [← UInt8.xor_zero (a := m), ← UInt8.xor_self (a := n), ← UInt8.xor_assoc, hzero, UInt8.zero_xor]
  · rintro rfl
    rw [UInt8.xor_self, UInt8.xor_zero]

/-- Of the frames that arrive with flipped bits, those are accepted whose flips agree. -/
theorem evdevScancode_flip {ev : InputEvent} {address command : UInt8}
    (h : evdevScancode ev = some (address, command)) (mask : UInt32) :
    evdevScancode (ev.flip mask) =
      if SameFlips mask then
        some (address ^^^ reverseBits (mask >>> 24).toUInt8, command ^^^ reverseBits (mask >>> 8).toUInt8)
      else none := by
  simp only [evdevScancode, Option.ite_none_left_eq_some, not_or, not_not, Option.some.injEq,
    Prod.mk.injEq] at h
  obtain ⟨⟨htype, hcode⟩, haddr, hcmd, rfl, rfl⟩ := h
  have hshift (k : UInt32) : (ev.value.toUInt32 ^^^ mask) >>> k =
      (ev.value.toUInt32 >>> k) ^^^ (mask >>> k) := UInt32.shiftRight_xor
  simp only [evdevScancode, InputEvent.flip, htype, hcode, ne_eq, not_true_eq_false, or_self, if_false,
    UInt32.toUInt32_toInt32, hshift, UInt32.toUInt8_xor, reverseBits_xor, inverse_flip_iff haddr,
    inverse_flip_iff hcmd, reverseBits_inj, SameFlips]
  by_cases h₁ : (mask >>> 24).toUInt8 = (mask >>> 16).toUInt8 <;>
    by_cases h₂ : (mask >>> 8).toUInt8 = mask.toUInt8 <;> simp [h₁, h₂]

/-- The bits of a mask are counted byte by byte. -/
theorem countP_byte (mask : UInt32) {k : UInt32} {n : ℕ} (hk : k.toNat % 32 = n) :
    (List.range 8).countP (mask >>> k).toUInt8.toNat.testBit =
      ((List.range 8).map (n + ·)).countP mask.toNat.testBit := by
  rw [List.countP_map]
  apply List.countP_congr
  intro i hi
  have hi8 : i < 8 := List.mem_range.mp hi
  have hbyte : (mask >>> k).toUInt8.toNat = (mask.toNat >>> n) % 2 ^ 8 := by
    rw [UInt32.toNat_toUInt8, UInt32.toNat_shiftRight, hk]
  rw [hbyte, Nat.testBit_mod_two_pow, Nat.testBit_shiftRight, decide_eq_true hi8, Bool.true_and]
  rfl

theorem flips_eq_bytes (mask : UInt32) : flips mask =
    (List.range 8).countP mask.toUInt8.toNat.testBit +
      (List.range 8).countP (mask >>> 8).toUInt8.toNat.testBit +
      (List.range 8).countP (mask >>> 16).toUInt8.toNat.testBit +
      (List.range 8).countP (mask >>> 24).toUInt8.toNat.testBit := by
  have hlow : mask.toUInt8 = (mask >>> 0).toUInt8 := by rw [UInt32.shiftRight_zero]
  have hsplit : List.range 32 = (List.range 8).map (0 + ·) ++ (List.range 8).map (8 + ·) ++
      (List.range 8).map (16 + ·) ++ (List.range 8).map (24 + ·) := by decide
  rw [hlow, @countP_byte mask 0 0 rfl, @countP_byte mask 8 8 rfl, @countP_byte mask 16 16 rfl,
    @countP_byte mask 24 24 rfl, flips, hsplit, List.countP_append, List.countP_append,
    List.countP_append]

/-- An odd number of flips never goes unnoticed. -/
theorem even_flips {mask : UInt32} (h : SameFlips mask) : Even (flips mask) := by
  obtain ⟨hhigh, hlow⟩ := h
  have htwice (n : ℕ) : Even (n + n) := ⟨n, rfl⟩
  rw [flips_eq_bytes, hhigh, hlow, Nat.add_assoc]
  exact (htwice _).add (htwice _)

/-- A frame that is accepted is that of its scancode. With bits flipped on the way it is accepted if and
only if the flips in a byte and in its inverse agree, never under its own scancode, and never if their
number is odd. -/
theorem evdev_flips (ev : InputEvent) (address command : UInt8)
    (h : evdevScancode ev = some (address, command)) (mask : UInt32) :
    ev.value.toUInt32 = fab4Frame address command ∧
      (evdevScancode (ev.flip mask) ≠ none ↔ SameFlips mask) ∧
      (evdevScancode (ev.flip mask) = some (address, command) ↔ mask = 0) ∧
      (¬ Even (flips mask) → evdevScancode (ev.flip mask) = none) := by
  have hflip := evdevScancode_flip h mask
  refine ⟨(evdevScancode_eq_some_iff.mp h).2.2, ?_, ?_, fun hodd => ?_⟩
  · rw [hflip]
    split <;> simp [*]
  · rw [hflip, Option.ite_none_right_eq_some, Option.some.injEq, Prod.mk.injEq]
    have hsame (a b : UInt8) : a ^^^ reverseBits b = a ↔ b = 0 := by
      have hzero : reverseBits 0 = 0 := by decide
      rw [← @reverseBits_inj b 0, hzero]
      constructor
      · intro hx
        exact (UInt8.xor_right_inj a).mp (hx.trans UInt8.xor_zero.symm)
      · intro hx
        rw [hx, UInt8.xor_zero]
    have hword : mask = 0 ↔ mask = wordOf 0 0 0 0 := Iff.rfl
    rw [hsame, hsame, hword, eq_wordOf_iff]
    constructor
    · rintro ⟨⟨hhigh, hlow⟩, h₃, h₁⟩
      exact ⟨h₃, hhigh ▸ h₃, h₁, hlow ▸ h₁⟩
    · rintro ⟨h₃, h₂, h₁, h₀⟩
      exact ⟨⟨h₃.trans h₂.symm, h₁.trans h₀.symm⟩, h₃, h₁⟩
  · rw [hflip, if_neg]
    intro hsame
    exact hodd (even_flips hsame)

/-- A DATA frame, and a flip in its address and in the inverse of its address. -/
theorem evdev_flips_twice :
    let ev : InputEvent := ⟨evMsc, mscRaw, (fab4Frame 0x20 0x41).toInt32⟩
    evdevScancode ev = some (0x20, 0x41) ∧ evdevScancode (ev.flip 0x01010000) = some (0xA0, 0x41) ∧
      (evdevScancode (ev.flip 0x01010000) = some (0x20, 0x41) ↔ (0x01010000 : UInt32) = 0) := by
  intro ev
  have haccepted : evdevScancode ev = some (0x20, 0x41) := by decide +kernel
  exact ⟨haccepted, by decide +kernel, (evdev_flips ev 0x20 0x41 haccepted 0x01010000).2.2.1⟩

end InfraFi.Daemon
