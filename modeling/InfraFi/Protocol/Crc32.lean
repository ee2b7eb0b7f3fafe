import InfraFi.Base.CString
import Mathlib.Algebra.GroupWithZero.Nat
import Mathlib.Data.List.Induction
import Mathlib.Logic.Function.Iterate

/-! # The 32-bit checksum

`wfr_crc32` is meant to be the reflected CRC of Ethernet. Its table starts out
right, but 127 of the 256 entries are not what the polynomial gives: the list of
initialisers is eight entries short, and many of those it has are wrong.
-/
namespace InfraFi.Protocol
open Base

set_option maxRecDepth 4000 in
/-- CRC-32 lookup table. The entries without an initialiser are 0. -/
def crc32Table : List UInt32 := [
    0x00000000, 0x77073096, 0xEE0E612C, 0x990951BA,
    0x076DC419, 0x706AF48F, 0xE963A535, 0x9E6495A3,
    0x0EDB8832, 0x79DCB8A4, 0xE0D5E91B, 0x97D2D98D,
    0x09B64C2B, 0x7EB17CBD, 0xE7B82D09, 0x90BF1D9F,
    0x1DB71064, 0x6AB020F2, 0xF3B97148, 0x84BE41DE,
    0x1ADAD47D, 0x6DDDE4EB, 0xF4D4B551, 0x83D385C7,
    0x136C9856, 0x646BA8C0, 0xFD62F97A, 0x8A65C9EC,
    0x14015C4F, 0x63066CD9, 0xFA0F3D63, 0x8D080DF5,
    0x3B6E20C8, 0x4C69105E, 0xD56041E4, 0xA2677172,
    0x3C03E4D1, 0x4B04D447, 0xD20D85FD, 0xA50AB56B,
    0x35B5A8FA, 0x42B2986C, 0xDBBBE9D6, 0xACBCF940,
    0x32D86CE3, 0x45DF5C75, 0xDCD60DCF, 0xABD13D59,
    0x26D930AC, 0x51DE003A, 0xC8D75180, 0xBFD06116,
    0x21B4F6B5, 0x56B3C423, 0xCFBA9599, 0xB8BDA50F,
    0x2802B89E, 0x5F058808, 0xC60CD9B2, 0xB10BE924,
    0x2F6F7C87, 0x58684C11, 0xC1611DAB, 0xB6662D3D,
    0x76DC4190, 0x01DB7106, 0x98D220BC, 0xEFD5102A,
    0x71B18589, 0x06B6B51F, 0x9FBFE4A5, 0xE8B8D433,
    0x7807C9A2, 0x0F00F934, 0x9609A88E, 0xE10E9818,
    0x7F6A0DBB, 0x086D3D2D, 0x91646C97, 0xE6635C01,
    0x6B6B51F4, 0x1C6C6162, 0x856530D8, 0xF262004E,
    0x6C0695ED, 0x1B01A57B, 0x8208F4C1, 0xF50FC457,
    0x65B0D9C6, 0x12B7E950, 0x8ABEE5FE, 0xFDBE9468,
    0x63CAFF75, 0x14CDCFE3, 0x8DC4BE59, 0xFAC39ECF,
    0x27B70A85, 0x50B0DB13, 0xC9B9A8A9, 0xBEBEC13F,
    0x20D2669C, 0x57D5560A, 0xCED63AB0, 0xB9D10A26,
    0x2968B7B7, 0x5E6FA021, 0xC766F113, 0xB061C187,
    0x2E054524, 0x59027712, 0xC00B26A8, 0xB70C163E,
    0x3A07ACED, 0x4D009C7B, 0xD409CBC1, 0xA30EFB57,
    0x3D6EF5F4, 0x4A69C562, 0xD3609CD8, 0xA467AC4E,
    0x346ED9DF, 0x4369E949, 0xDA60B8F3, 0xAD67D865,
    0x33034AC6, 0x44042D50, 0xDD0D7CEA, 0xAA0A4C5C,
    0xEDB88320, 0x9ABFB3B6, 0x03B6E20C, 0x74B1D29A,
    0xEAD54739, 0x9DD277AF, 0x04DB2615, 0x73DC1683,
    0xE3630B12, 0x94643B84, 0x0D6D6A3E, 0x7A6A5AA8,
    0xE40ECF0B, 0x9309FF9D, 0x0A00AE27, 0x7D079EB1,
    0xF00F9344, 0x8708A3D2, 0x1E01F268, 0x6906C2FE,
    0xF762575D, 0x806567CB, 0x196C3671, 0x6E6B06E7,
    0xFED41B76, 0x89D32BE0, 0x10DA7A5A, 0x67DD4ACC,
    0xF9B9DF6F, 0x8EBEEFF9, 0x17B7BE43, 0x60B08ED5,
    0xD6D6A3E8, 0xA1D1937E, 0x38D8C2C4, 0x4FDFF252,
    0xD1BB67F1, 0xA6BC5767, 0x3FB506DD, 0x48B2364B,
    0xD80D2BDA, 0xAF0A1B4C, 0x36034AF6, 0x41047A60,
    0xDF60EFC3, 0xA8670955, 0x316E5850, 0x466952E7,
    0xD9B9A45A, 0xAEB2A4CC, 0x37BF5576, 0x40B865E0,
    0xDBB2C843, 0xACB5F8D5, 0x35B2096F, 0x42B53FF9,
    0xCFB5FFE8, 0xB8B84B6E, 0x21B11AD4, 0x56B62742,
    0xCEB2F0E1, 0xB9B5C077, 0x200EB1CD, 0x570EF85B,
    0xC7B1ECCA, 0xB0B6DC5C, 0x29BFACE6, 0x5EB8C870,
    0xC0DC5DD3, 0xB7DB6D45, 0x2ED47EFF, 0x59D34E69,
    0xD4D34D04, 0xA3D47D92, 0x3ADD2C28, 0x4DDA1CBE,
    0xD3BE891D, 0xA4B9B98B, 0x3DB0E831, 0x4AB7D8A7,
    0xDA085636, 0xAD0F66A0, 0x340617FA, 0x4301276C,
    0xDD658BCF, 0xAA62BB59, 0x336381E3, 0x44644B75,
    0xA9F6D880, 0xDE91E816, 0x47984FAC, 0x30953B3A,
    0xAEF1AE99, 0xD9F69E0F, 0x40FF0FB5, 0x37F83F23,
    0xA74728B2, 0xD0401824, 0x4949499E, 0x3E4E7908,
    0xA02AECAB, 0xD72DDC3D, 0x4E24CD87, 0x39239D11,
    0xB4A3BCC4, 0xC3A48C52, 0x5AAD3DE8, 0x2DAA0D7E,
    0xB3CE98DD, 0xC4C9A84B, 0x5DC0F9F1, 0x2AC7C967,
    0xBA7874F6, 0xCD7F4460, 0x547815DA, 0x2377254C,
    0xBD13B0EF, 0xCA14A079, 0x533DF1C3, 0x24322055] ++ List.replicate 8 0

set_option maxRecDepth 4000 in
@[simp] theorem crc32Table_length : crc32Table.length = 256 := rfl

/-- One table step of the CRC. -/
def crc32Step (crc : UInt32) (b : UInt8) : UInt32 :=
  crc32Table.get ⟨((crc ^^^ b.toUInt32) &&& 0xFF).toNat, by
    rw [crc32Table_length, UInt32.toNat_and]
    exact Nat.lt_succ_of_le Nat.and_le_right⟩ ^^^ (crc >>> 8)

def wfrCrc32 (data : Bytes) : UInt32 := data.foldl crc32Step 0xFFFFFFFF ^^^ 0xFFFFFFFF

/-! ## The CRC of Ethernet -/

/-- One step of the register with the reflected polynomial 0xEDB88320. -/
def crc32Shift (r : UInt32) : UInt32 :=
  if r.toNat.testBit 0 then (r >>> 1) ^^^ 0xEDB88320 else r >>> 1

/-- The eight steps for a byte, its least significant bit first. -/
def crc32Byte (r : UInt32) (b : UInt8) : UInt32 := crc32Shift^[8] (r ^^^ b.toUInt32)

/-- The register after a message. -/
def crc32Register (data : Bytes) : UInt32 := data.foldl crc32Byte 0xFFFFFFFF

def crc32 (data : Bytes) : UInt32 := crc32Register data ^^^ 0xFFFFFFFF

/-- The check value of the standard CRC-32 test message. -/
example : crc32 (ascii "123456789") = 0xCBF43926 := by decide +kernel

/-! ## The entries of the table -/

/-- The entry that a byte meets when the register is `r`. -/
def entryMet (r : UInt32) (b : UInt8) : UInt8 := (r ^^^ b.toUInt32).toUInt8

/-- In which bits an entry differs from what the polynomial gives. -/
def entryError (i : UInt8) : UInt32 :=
  crc32Table.get ⟨i.toNat, by simpa using i.toNat_lt⟩ ^^^ crc32Shift^[8] i.toUInt32

def wrongEntries : List UInt8 := [
    0x0A, 0x0B, 0x0E, 0x0F, 0x2A, 0x34, 0x5A, 0x5B, 0x5C, 0x5D, 0x5E, 0x5F, 0x60, 0x61,
    0x62, 0x63, 0x64, 0x65, 0x66, 0x67, 0x68, 0x69, 0x6A, 0x6B, 0x6C, 0x6D, 0x6E, 0x6F,
    0x70, 0x71, 0x72, 0x73, 0x74, 0x75, 0x76, 0x77, 0x78, 0x79, 0x7A, 0x7B, 0x7C, 0x7D,
    0x7E, 0x7F, 0xAD, 0xAE, 0xAF, 0xB0, 0xB1, 0xB2, 0xB3, 0xB4, 0xB5, 0xB6, 0xB7, 0xB8,
    0xB9, 0xBA, 0xBB, 0xBC, 0xBD, 0xBE, 0xBF, 0xC0, 0xC1, 0xC2, 0xC3, 0xC4, 0xC5, 0xC6,
    0xC7, 0xC8, 0xC9, 0xCA, 0xCB, 0xCC, 0xCD, 0xCE, 0xCF, 0xD0, 0xD1, 0xD2, 0xD3, 0xD4,
    0xD5, 0xD6, 0xD7, 0xD8, 0xD9, 0xDA, 0xDB, 0xDC, 0xDD, 0xDE, 0xDF, 0xE0, 0xE1, 0xE2,
    0xE3, 0xE4, 0xE5, 0xE6, 0xE7, 0xE8, 0xE9, 0xEA, 0xEB, 0xEC, 0xED, 0xEE, 0xEF, 0xF0,
    0xF1, 0xF2, 0xF3, 0xF4, 0xF5, 0xF6, 0xF7, 0xF8, 0xF9, 0xFA, 0xFB, 0xFC, 0xFD, 0xFE,
    0xFF]

theorem wrongEntries_eq : wrongEntries =
    ((List.range 256).map UInt8.ofNat).filter (fun i => entryError i ≠ 0) := by
  decide +kernel

theorem entryError_eq_zero_iff (i : UInt8) : entryError i = 0 ↔ i ∉ wrongEntries := by
  have hi : i ∈ (List.range 256).map UInt8.ofNat :=
    List.mem_map.mpr ⟨i.toNat, List.mem_range.mpr i.toNat_lt, UInt8.ofNat_toNat⟩
  rw [wrongEntries_eq, List.mem_filter, decide_eq_true_eq, not_and, not_not]
  exact ⟨fun h _ => h, fun h => h hi⟩

/-! ## A table step is eight steps of the register, but for the error of its entry -/

theorem xor_xor_cancel (x y p : UInt32) : x ^^^ p ^^^ (y ^^^ p) = x ^^^ y := by
  rw [UInt32.xor_assoc x p, UInt32.xor_comm y p, ← UInt32.xor_assoc p p, UInt32.xor_self,
    UInt32.zero_xor]

theorem crc32Shift_xor (r e : UInt32) : crc32Shift (r ^^^ e) = crc32Shift r ^^^ crc32Shift e := by
  have hlow : (r ^^^ e).toNat.testBit 0 = xor (r.toNat.testBit 0) (e.toNat.testBit 0) := by
    rw [UInt32.toNat_xor, Nat.testBit_xor]
  have hshift : (r ^^^ e) >>> 1 = r >>> 1 ^^^ e >>> 1 := UInt32.shiftRight_xor
  unfold crc32Shift
  rw [hlow, hshift]
  cases r.toNat.testBit 0 <;> cases e.toNat.testBit 0
  · rfl
  · exact UInt32.xor_assoc ..
  · simp only [Bool.xor_false, if_true, Bool.false_eq_true, if_false]
    ac_rfl
  · exact (xor_xor_cancel ..).symm

theorem crc32Shift_iterate_xor (n : ℕ) (r e : UInt32) :
    crc32Shift^[n] (r ^^^ e) = crc32Shift^[n] r ^^^ crc32Shift^[n] e := by
  induction n with
  | zero => rfl
  | succ n ih => rw [Function.iterate_succ_apply', ih, crc32Shift_xor,
      Function.iterate_succ_apply', Function.iterate_succ_apply']

/-- As long as the low bits are clear, the register only moves down. -/
theorem crc32Shift_iterate_toNat (n : ℕ) {r : UInt32} {high : ℕ} (h : r.toNat = high * 2 ^ n) :
    (crc32Shift^[n] r).toNat = high := by
  induction n generalizing r with
  | zero => simpa using h
  | succ n ih =>
    have hdouble : r.toNat = high * 2 ^ n * 2 := by rw [h, Nat.pow_succ, Nat.mul_assoc]
    have hlow : r.toNat.testBit 0 = false := by
      rw [Nat.testBit_zero, hdouble]
      simp
    have hhalf : (r >>> 1).toNat = high * 2 ^ n := by
      change r.toNat >>> 1 = high * 2 ^ n
      rw [Nat.shiftRight_eq_div_pow, hdouble]
      exact Nat.mul_div_cancel _ (by decide)
    rw [Function.iterate_succ_apply, crc32Shift, hlow]
    exact ih hhalf

/-- Eight steps use up the low byte. The others come down. -/
theorem crc32Shift_eight (x : UInt32) :
    crc32Shift^[8] x = crc32Shift^[8] x.toUInt8.toUInt32 ^^^ x >>> 8 := by
  have hlow : x.toUInt8.toUInt32.toNat = x.toNat % 2 ^ 8 := by
    rw [UInt8.toNat_toUInt32, UInt32.toNat_toUInt8]
  have hcancel (y : UInt32) : y = x.toUInt8.toUInt32 ^^^ (x.toUInt8.toUInt32 ^^^ y) := by
    rw [← UInt32.xor_assoc, UInt32.xor_self, UInt32.zero_xor]
  have hzero : (x.toUInt8.toUInt32 ^^^ x).toNat % 2 ^ 8 = 0 := by
    rw [UInt32.toNat_xor, Nat.xor_mod_two_pow, hlow, Nat.mod_mod, Nat.xor_self]
  have hdiv : (x.toUInt8.toUInt32 ^^^ x).toNat / 2 ^ 8 = x.toNat / 2 ^ 8 := by
    rw [UInt32.toNat_xor, Nat.xor_div_two_pow, hlow, Nat.div_eq_of_lt (Nat.mod_lt _ (by decide)),
      Nat.zero_xor]
  have hhigh : crc32Shift^[8] (x.toUInt8.toUInt32 ^^^ x) = x >>> 8 := by
    apply UInt32.toNat_inj.mp
    apply crc32Shift_iterate_toNat
    change _ = x.toNat >>> 8 * 2 ^ 8
    rw [Nat.shiftRight_eq_div_pow, ← hdiv]
    exact (Nat.div_mul_cancel (Nat.dvd_of_mod_eq_zero hzero)).symm
  rw [← hhigh, ← crc32Shift_iterate_xor, ← hcancel]

theorem byte_shiftRight (b : UInt8) : b.toUInt32 >>> 8 = 0 := by
  apply UInt32.toNat_inj.mp
  have hb := b.toNat_lt
  change b.toNat >>> 8 = 0
  rw [Nat.shiftRight_eq_div_pow]
  exact Nat.div_eq_of_lt hb

theorem crc32Step_eq (r : UInt32) (b : UInt8) :
    crc32Step r b = crc32Byte r b ^^^ entryError (entryMet r b) := by
  have hindex : ((r ^^^ b.toUInt32) &&& 0xFF).toNat = (entryMet r b).toNat := by
    rw [entryMet, UInt32.toNat_toUInt8, UInt32.toNat_and]
    exact Nat.and_two_pow_sub_one_eq_mod _ 8
  have hdown : (r ^^^ b.toUInt32) >>> 8 = r >>> 8 := by
    rw [UInt32.shiftRight_xor, byte_shiftRight, UInt32.xor_zero]
  unfold crc32Step
  simp only [hindex]
  rw [crc32Byte, crc32Shift_eight, hdown, ← entryMet, entryError,
    UInt32.xor_comm (crc32Shift^[8] _) (r >>> 8), xor_xor_cancel, UInt32.xor_comm]

/-! ## What the wrong entries add up to -/

/-- An error is shifted on with the next byte, and joined by that of the entry which the byte meets. -/
def carry (e d : UInt32) : UInt32 := crc32Shift^[8] e ^^^ d

/-- The errors of the entries that the bytes meet, where `r` is the register as it should be and `e`
the bits in which it differs. -/
def errorsFrom : UInt32 → UInt32 → Bytes → List UInt32
  | _, _, [] => []
  | r, e, b :: data =>
    let d := entryError (entryMet (r ^^^ e) b)
    d :: errorsFrom (crc32Byte r b) (carry e d) data

def errorsMet (data : Bytes) : List UInt32 := errorsFrom 0xFFFFFFFF 0 data

/-- The sum of errors, each shifted on by the bytes behind it. -/
def carried (ds : List UInt32) : UInt32 := ds.foldl carry 0

theorem crc32Step_error (r e : UInt32) (b : UInt8) :
    crc32Step (r ^^^ e) b = crc32Byte r b ^^^ carry e (entryError (entryMet (r ^^^ e) b)) := by
  have hbyte : crc32Byte (r ^^^ e) b = crc32Byte r b ^^^ crc32Shift^[8] e := by
    unfold crc32Byte
    rw [← crc32Shift_iterate_xor]
    ac_rfl
  rw [crc32Step_eq, hbyte, carry, UInt32.xor_assoc]

theorem foldl_crc32Step (r e : UInt32) (data : Bytes) :
    data.foldl crc32Step (r ^^^ e) = data.foldl crc32Byte r ^^^ (errorsFrom r e data).foldl carry e := by
  induction data generalizing r e with
  | nil => rfl
  | cons b data ih =>
    rw [List.foldl_cons, crc32Step_error, ih]
    rfl

theorem errorsFrom_append (r e : UInt32) (p q : Bytes) : errorsFrom r e (p ++ q) =
    errorsFrom r e p ++ errorsFrom (p.foldl crc32Byte r) ((errorsFrom r e p).foldl carry e) q := by
  induction p generalizing r e with
  | nil => rfl
  | cons b p ih =>
    rw [List.cons_append, errorsFrom, errorsFrom, ih]
    rfl

theorem wfrCrc32_eq_crc32_iff (data : Bytes) :
    wfrCrc32 data = crc32 data ↔ carried (errorsMet data) = 0 := by
  have hfold := foldl_crc32Step 0xFFFFFFFF 0 data
  rw [UInt32.xor_zero] at hfold
  rw [wfrCrc32, crc32, UInt32.xor_left_inj, hfold]
  change crc32Register data ^^^ carried (errorsMet data) = crc32Register data ↔ _
  constructor
  · intro h
    rw [← UInt32.xor_right_inj (crc32Register data), h, UInt32.xor_zero]
  · intro h
    rw [h, UInt32.xor_zero]

theorem carry_zero (d : UInt32) : carry 0 d = d := by
  have hzero : crc32Shift^[8] 0 = 0 := by decide +kernel
  rw [carry, hzero, UInt32.zero_xor]

/-- As long as the register is right, the next byte meets the entry that it should. -/
theorem errorsMet_concat {data : Bytes} (h : carried (errorsMet data) = 0) (b : UInt8) :
    errorsMet (data ++ [b]) = errorsMet data ++ [entryError (entryMet (crc32Register data) b)] := by
  change (errorsMet data).foldl carry 0 = 0 at h
  rw [errorsMet, errorsFrom_append, ← errorsMet, h]
  change _ ++ [entryError (entryMet (crc32Register data ^^^ 0) b)] = _
  rw [UInt32.xor_zero]

/-- It leaves the register right exactly if it meets a right entry. -/
theorem carried_concat {data : Bytes} (h : carried (errorsMet data) = 0) (b : UInt8) :
    carried (errorsMet (data ++ [b])) = 0 ↔ entryMet (crc32Register data) b ∉ wrongEntries := by
  have hlast : carried (errorsMet (data ++ [b])) = entryError (entryMet (crc32Register data) b) := by
    rw [errorsMet_concat h, carried, List.foldl_append, ← carried, h]
    exact carry_zero _
  rw [hlast, entryError_eq_zero_iff]

/-! ## A single error -/

theorem crc32Shift_eq_zero {r : UInt32} (h : crc32Shift r = 0) : r = 0 := by
  have hlt := r.toNat_lt
  have hhalf : (r >>> 1).toNat = r.toNat / 2 := Nat.shiftRight_eq_div_pow r.toNat 1
  unfold crc32Shift at h
  split at h
  · -- the top bit of the polynomial is set, that of a shifted register is not
    rw [UInt32.xor_eq_zero_iff] at h
    rw [h] at hhalf
    change 0xEDB88320 = r.toNat / 2 at hhalf
    omega
  · next hlow =>
    rw [Nat.testBit_zero, decide_eq_true_eq] at hlow
    rw [h] at hhalf
    change 0 = r.toNat / 2 at hhalf
    apply UInt32.toNat_inj.mp
    change r.toNat = 0
    omega

theorem crc32Shift_iterate_ne_zero (n : ℕ) {r : UInt32} (h : r ≠ 0) : crc32Shift^[n] r ≠ 0 := by
  induction n with
  | zero => exact h
  | succ n ih =>
    rw [Function.iterate_succ_apply']
    exact fun hzero => ih (crc32Shift_eq_zero hzero)

theorem foldl_carry_zeros {ds : List UInt32} (h : ∀ d ∈ ds, d = 0) {e : UInt32} (he : e ≠ 0) :
    ds.foldl carry e ≠ 0 := by
  induction ds generalizing e with
  | nil => exact he
  | cons d ds ih =>
    rw [List.forall_mem_cons] at h
    rw [List.foldl_cons]
    apply ih h.2
    rw [carry, h.1, UInt32.xor_zero]
    exact crc32Shift_iterate_ne_zero 8 he

/-- How many of the bytes meet a wrong entry. -/
def wrongMet (data : Bytes) : ℕ := (errorsMet data).countP (· ≠ 0)

theorem foldl_carry_of_none {ds : List UInt32} (h : ds.countP (· ≠ 0) = 0) : ds.foldl carry 0 = 0 := by
  induction ds with
  | nil => rfl
  | cons d ds ih =>
    rw [List.countP_eq_zero, List.forall_mem_cons, decide_eq_true_eq, not_not] at h
    rw [List.foldl_cons, carry_zero, h.1]
    exact ih (List.countP_eq_zero.mpr h.2)

theorem wrongMet_concat (data : Bytes) (b : UInt8) : wrongMet (data ++ [b]) = 0 ↔
    wrongMet data = 0 ∧ entryMet (crc32Register data) b ∉ wrongEntries := by
  by_cases h : wrongMet data = 0
  · rw [wrongMet, errorsMet_concat (foldl_carry_of_none h), List.countP_append, ← wrongMet, h,
      ← entryError_eq_zero_iff]
    simp
  · refine iff_of_false (fun hall => h ?_) fun hboth => h hboth.1
    rw [wrongMet, errorsMet, errorsFrom_append, List.countP_append, Nat.add_eq_zero_iff] at hall
    exact hall.1

/-- No byte meets a wrong entry exactly if none should, with the register as it should be. -/
theorem wrongMet_eq_zero_iff (data : Bytes) : wrongMet data = 0 ↔
    ∀ p b, p ++ [b] <+: data → entryMet (crc32Register p) b ∉ wrongEntries := by
  induction data using List.reverseRecOn with
  | nil => simp [wrongMet, errorsMet, errorsFrom]
  | append_singleton data b ih =>
    rw [wrongMet_concat, ih]
    simp only [List.prefix_concat_iff]
    constructor
    · rintro ⟨hall, hlast⟩ p c (heq | hp)
      · obtain ⟨rfl, hc⟩ := List.append_inj' heq rfl
        obtain rfl := List.singleton_inj.mp hc
        exact hlast
      · exact hall p c hp
    · exact fun hall => ⟨fun p c hp => hall p c (.inr hp), hall data b (.inl rfl)⟩

/-- Nothing cancels a single error. -/
theorem foldl_carry_of_single {ds : List UInt32} (h : ds.countP (· ≠ 0) = 1) :
    ds.foldl carry 0 ≠ 0 := by
  induction ds with
  | nil => cases h
  | cons d ds ih =>
    rw [List.foldl_cons, carry_zero]
    by_cases hd : d = 0
    · rw [hd]
      apply ih
      rwa [List.countP_cons_of_neg (by simpa using hd)] at h
    · have hrest : ds.countP (· ≠ 0) = 0 := by
        rw [List.countP_cons_of_pos (by simpa using hd)] at h
        exact Nat.succ.inj h
      exact foldl_carry_zeros (fun x hx => by simpa using List.countP_eq_zero.mp hrest x hx) hd

/-- Five of these six bytes meet wrong entries, the errors of which cancel. -/
example : wrongMet [0x21, 0x23, 0x13, 0x46, 0x3D, 0x4A] = 5 ∧
    carried (errorsMet [0x21, 0x23, 0x13, 0x46, 0x3D, 0x4A]) = 0 := by
  decide +kernel

end InfraFi.Protocol
