import InfraFi.Base.CyclicCode
import InfraFi.Protocol.Crc
import Mathlib.Tactic.ComputeDegree

/-! # The checksum as a cyclic code

A payload followed by its checksum is a multiple of x^8 + x^2 + x + 1. A table
step is eight steps of a shift register, and a step of the register multiplies
by x.
-/
namespace InfraFi.Protocol
open Base Base.CyclicCode Polynomial

/-- The bits of a byte, most significant first. -/
def byteBits (b : UInt8) : List Bool := [7, 6, 5, 4, 3, 2, 1, 0].map b.toNat.testBit

def bitsOf (bs : Bytes) : List Bool := bs.flatMap byteBits

@[simp] theorem byteBits_length (b : UInt8) : (byteBits b).length = 8 := rfl

theorem bitsOf_append (as bs : Bytes) : bitsOf (as ++ bs) = bitsOf as ++ bitsOf bs :=
  List.flatMap_append

@[simp] theorem bitsOf_singleton (b : UInt8) : bitsOf [b] = byteBits b := by simp [bitsOf]

theorem bitsOf_length (bs : Bytes) : (bitsOf bs).length = 8 * bs.length := by
  induction bs with
  | nil => rfl
  | cons b bs ih =>
    rw [← List.singleton_append, bitsOf_append, List.length_append, ih, bitsOf_singleton,
      byteBits_length, List.length_append, List.length_singleton]
    omega

theorem byteBits_injective {a b : UInt8} (h : byteBits a = byteBits b) : a = b := by
  apply UInt8.toNat_inj.mp
  apply Nat.eq_of_testBit_eq
  intro i
  rcases Nat.lt_or_ge i 8 with hi | hi
  · exact List.map_inj_left.mp h i (by simp; omega)
  · have hbig : 2 ^ 8 ≤ 2 ^ i := Nat.pow_le_pow_right (by decide) hi
    rw [Nat.testBit_lt_two_pow (Nat.lt_of_lt_of_le a.toNat_lt hbig),
      Nat.testBit_lt_two_pow (Nat.lt_of_lt_of_le b.toNat_lt hbig)]

theorem byteBits_xor (a b : UInt8) : byteBits (a ^^^ b) = errors (byteBits a) (byteBits b) := by
  rw [errors, byteBits, byteBits, byteBits, List.zipWith_map, List.zipWith_self, UInt8.toNat_xor]
  exact List.map_congr_left fun i _ => Nat.testBit_xor ..

/-! ## The shift register -/

/-- One step of the register with the polynomial 0x07. -/
def crcShift (r : UInt8) : UInt8 := if r.toNat.testBit 7 then (r <<< 1) ^^^ 0x07 else r <<< 1

/-- One step of long division: the next bit of the message enters at the top. -/
def crcBit (r : UInt8) (b : Bool) : UInt8 := crcShift (r ^^^ if b then 0x80 else 0)

/-- The register after the bits of a message, one at a time. -/
def crc8Bits (bs : List Bool) : UInt8 := bs.foldl crcBit 0x00

example : crc8Bits (bitsOf (ascii "123456789")) = 0xF4 := by decide +kernel

/-- Every entry of the table is eight steps of the register. -/
theorem crc8Table_get : ∀ i : Fin crc8Table.length,
    crc8Table.get i = crcShift^[8] (UInt8.ofNat i.val) := by
  decide +kernel

theorem crc8Step_eq (crc b : UInt8) : crc8Step crc b = crcShift^[8] (crc ^^^ b) := by
  rw [crc8Step, crc8Table_get, UInt8.ofNat_toNat]

theorem byteBits_shiftLeft (r : UInt8) :
    byteBits r ++ [false] = r.toNat.testBit 7 :: byteBits (r <<< 1) := by
  have hbit (i : ℕ) : (r <<< 1).toNat.testBit i = (i < 8 && (1 ≤ i && r.toNat.testBit (i - 1))) := by
    rw [UInt8.toNat_shiftLeft, Nat.testBit_mod_two_pow]
    exact congrArg _ (Nat.testBit_shiftLeft ..)
  simp only [byteBits, List.map_cons, List.map_nil, hbit]
  rfl

noncomputable section

/-- x^8 + x^2 + x + 1. -/
def crcPoly : (ZMod 2)[X] := X ^ 8 + X ^ 2 + X + 1

theorem crcPoly_degree : crcPoly.degree = 8 := by
  unfold crcPoly
  compute_degree!

theorem crcPoly_coeff_zero : crcPoly.coeff 0 ≠ 0 := by
  simp [crcPoly]

theorem crcPoly_eval_one : crcPoly.eval 1 = 0 := by
  simp [crcPoly]
  decide

theorem toPoly_shiftLeft (r : UInt8) :
    toPoly (byteBits r) * X = C (bit (r.toNat.testBit 7)) * X ^ 8 + toPoly (byteBits (r <<< 1)) := by
  have hbits := congrArg toPoly (byteBits_shiftLeft r)
  rwa [toPoly_concat, toPoly_cons, bit_false, C_0, add_zero, byteBits_length] at hbits

theorem toPoly_seven : toPoly (byteBits 0x07) = X ^ 2 + X + 1 := by
  have hbits : byteBits 0x07 = List.replicate 5 false ++ [true, true, true] := by decide
  rw [hbits, toPoly_append, toPoly_zeros]
  simp [toPoly_cons, ← add_assoc]

/-- A step of the register multiplies by x, up to a multiple of the polynomial. -/
theorem crcShift_dvd (r : UInt8) :
    crcPoly ∣ toPoly (byteBits r) * X + toPoly (byteBits (crcShift r)) := by
  rw [toPoly_shiftLeft, crcShift]
  split
  · rename_i htop
    have hxor : toPoly (byteBits ((r <<< 1) ^^^ 0x07)) =
        toPoly (byteBits (r <<< 1)) + toPoly (byteBits 0x07) := by
      rw [byteBits_xor]
      exact toPoly_errors (byteBits_length _)
    rw [htop, hxor, toPoly_seven, bit_true, C_1, one_mul, cancel_middle, crcPoly]
    apply dvd_of_eq
    ring
  · rename_i htop
    rw [Bool.not_eq_true] at htop
    rw [htop, bit_false, C_0, zero_mul, zero_add, add_self]
    exact dvd_zero crcPoly

/-- So do `n` steps, by x^n. -/
theorem crcShift_iterate_dvd (n : ℕ) (r : UInt8) :
    crcPoly ∣ toPoly (byteBits r) * X ^ n + toPoly (byteBits (crcShift^[n] r)) := by
  induction n with
  | zero =>
    rw [pow_zero, mul_one, Function.iterate_zero_apply, add_self]
    exact dvd_zero crcPoly
  | succ n ih =>
    rw [Function.iterate_succ_apply']
    have hnext := dvd_add (dvd_mul_of_dvd_left ih X) (crcShift_dvd (crcShift^[n] r))
    rwa [add_mul, cancel_middle, mul_assoc, ← pow_succ] at hnext

theorem crc8Step_dvd (crc b : UInt8) : crcPoly ∣
    (toPoly (byteBits crc) + toPoly (byteBits b)) * X ^ 8 + toPoly (byteBits (crc8Step crc b)) := by
  have hlen : (byteBits crc).length = (byteBits b).length := byteBits_length crc
  have hstep := crcShift_iterate_dvd 8 (crc ^^^ b)
  rwa [byteBits_xor, toPoly_errors hlen, ← crc8Step_eq] at hstep

theorem wfrCrc8_concat (p : Bytes) (b : UInt8) : wfrCrc8 (p ++ [b]) = crc8Step (wfrCrc8 p) b :=
  List.foldl_concat ..

/-- A payload with its checksum is a codeword. -/
theorem wfrCrc8_dvd (p : Bytes) :
    crcPoly ∣ toPoly (bitsOf p) * X ^ 8 + toPoly (byteBits (wfrCrc8 p)) := by
  induction p using List.reverseRecOn with
  | nil =>
    have hzero : toPoly (byteBits (wfrCrc8 [])) = 0 := toPoly_zeros 8
    rw [hzero]
    simp [bitsOf]
  | append_singleton p b ih =>
    rw [bitsOf_append, bitsOf_singleton, toPoly_append, byteBits_length, wfrCrc8_concat]
    have hstep := crc8Step_dvd (wfrCrc8 p) b
    rw [add_mul] at hstep
    exact dvd_extend ih hstep

/-! ## The remainder -/

theorem crcPoly_monic : crcPoly.Monic := by
  unfold crcPoly
  monicity!

theorem toPoly_topBit (b : Bool) : toPoly (byteBits (if b then 0x80 else 0)) = C (bit b) * X ^ 7 := by
  cases b with
  | false => exact (toPoly_zeros 8).trans (by simp)
  | true =>
    have hbits : byteBits 0x80 = true :: List.replicate 7 false := by decide
    rw [if_pos rfl, hbits, toPoly_cons, toPoly_zeros, List.length_replicate, add_zero]

/-- A bit of the message joins the register in the place that the next shift divides. -/
theorem crcBit_dvd (r : UInt8) (b : Bool) :
    crcPoly ∣ toPoly (byteBits r) * X + C (bit b) * X ^ 8 + toPoly (byteBits (crcBit r b)) := by
  have hshift := crcShift_dvd (r ^^^ if b then 0x80 else 0)
  have hlen : (byteBits r).length = (byteBits (if b then 0x80 else 0)).length := byteBits_length r
  rwa [byteBits_xor, toPoly_errors hlen, toPoly_topBit, add_mul, mul_assoc, ← pow_succ] at hshift

theorem crc8Bits_dvd (bs : List Bool) :
    crcPoly ∣ toPoly bs * X ^ 8 + toPoly (byteBits (crc8Bits bs)) := by
  induction bs using List.reverseRecOn with
  | nil =>
    have hzero : toPoly (byteBits (crc8Bits [])) = 0 := toPoly_zeros 8
    rw [hzero]
    simp
  | append_singleton bs b ih =>
    have hlast : crc8Bits (bs ++ [b]) = crcBit (crc8Bits bs) b := List.foldl_concat ..
    have hstep : crcPoly ∣ toPoly (byteBits (crc8Bits bs)) * X ^ 1 + C (bit b) * X ^ 8 +
        toPoly (byteBits (crcBit (crc8Bits bs) b)) := by
      rw [pow_one]
      exact crcBit_dvd (crc8Bits bs) b
    have hnext := dvd_extend ih hstep
    rw [pow_one] at hnext
    rwa [toPoly_concat, hlast]

theorem toPoly_eq_remainder {p : (ZMod 2)[X]} {r : UInt8} (h : crcPoly ∣ p + toPoly (byteBits r)) :
    toPoly (byteBits r) = p %ₘ crcPoly := by
  apply toPoly_eq_modByMonic crcPoly_monic h
  rw [crcPoly_degree, byteBits_length]
  exact le_refl _

/-- The checksum is the remainder of the message times x^8, which the register computes bit by bit. -/
theorem wfrCrc8_remainder (data : Bytes) :
    wfrCrc8 data = crc8Bits (bitsOf data) ∧
      toPoly (byteBits (wfrCrc8 data)) = (toPoly (bitsOf data) * X ^ 8) %ₘ crcPoly := by
  have htable := toPoly_eq_remainder (wfrCrc8_dvd data)
  have hbits := toPoly_eq_remainder (crc8Bits_dvd (bitsOf data))
  have hlen : (byteBits (wfrCrc8 data)).length = (byteBits (crc8Bits (bitsOf data))).length :=
    byteBits_length _
  constructor
  · exact byteBits_injective (eq_of_toPoly_eq hlen (htable.trans hbits.symm))
  · exact htable

/-! ## Codewords -/

/-- The checksum is the only byte that completes a codeword. -/
theorem codeword_iff_wfrCrc8 (q : Bytes) (c : UInt8) :
    crcPoly ∣ toPoly (bitsOf (q ++ [c])) ↔ wfrCrc8 q = c := by
  have hdeg : ((byteBits (wfrCrc8 q)).length : WithBot ℕ) ≤ crcPoly.degree := by
    rw [crcPoly_degree, byteBits_length]
    exact le_refl _
  have hlen : (byteBits c).length = (byteBits (wfrCrc8 q)).length := byteBits_length c
  have hdvd : crcPoly ∣ toPoly (bitsOf q) * X ^ (byteBits (wfrCrc8 q)).length +
      toPoly (byteBits (wfrCrc8 q)) := by
    rw [byteBits_length]
    exact wfrCrc8_dvd q
  rw [bitsOf_append, bitsOf_singleton, codeword_iff hdvd hlen hdeg]
  exact ⟨fun h => (byteBits_injective h).symm, fun h => by rw [h]⟩

end
end InfraFi.Protocol
