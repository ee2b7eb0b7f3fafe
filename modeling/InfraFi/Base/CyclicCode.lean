import Mathlib.Algebra.CharP.Two
import Mathlib.Algebra.Field.ZMod
import Mathlib.Algebra.Polynomial.FieldDivision
import Mathlib.RingTheory.PrincipalIdealDomain

/-! # Cyclic codes

A bit string is a polynomial over the field with two elements, its first bit
the highest coefficient. The codewords are the multiples of a generator, so a
change of a codeword goes unnoticed exactly when it is such a multiple itself.
-/
noncomputable section
namespace InfraFi.Base.CyclicCode
open Polynomial

def bit (b : Bool) : ZMod 2 := if b then 1 else 0

@[simp] theorem bit_false : bit false = 0 := rfl

@[simp] theorem bit_true : bit true = 1 := rfl

theorem bit_xor (a b : Bool) : bit (xor a b) = bit a + bit b := by
  cases a <;> cases b <;> decide

theorem bit_eq_zero_iff {b : Bool} : bit b = 0 ↔ b = false := by
  cases b <;> decide

/-- The polynomial of a bit string, by Horner's rule. -/
def toPoly (bs : List Bool) : (ZMod 2)[X] := bs.foldl (fun p b => p * X + C (bit b)) 0

@[simp] theorem toPoly_nil : toPoly [] = 0 := rfl

theorem toPoly_concat (bs : List Bool) (b : Bool) :
    toPoly (bs ++ [b]) = toPoly bs * X + C (bit b) := List.foldl_concat ..

theorem toPoly_append (as bs : List Bool) :
    toPoly (as ++ bs) = toPoly as * X ^ bs.length + toPoly bs := by
  induction bs using List.reverseRecOn with
  | nil => simp
  | append_singleton bs b ih =>
    rw [← List.append_assoc, toPoly_concat, toPoly_concat, ih, List.length_append,
      List.length_singleton, pow_succ]
    ring

theorem toPoly_cons (b : Bool) (bs : List Bool) :
    toPoly (b :: bs) = C (bit b) * X ^ bs.length + toPoly bs := by
  have hone : toPoly [b] = C (bit b) := by simp [toPoly]
  rw [← List.singleton_append, toPoly_append, hone]

/-- The bits in which two strings differ. -/
def errors (as bs : List Bool) : List Bool := List.zipWith xor as bs

theorem errors_length {as bs : List Bool} (h : as.length = bs.length) :
    (errors as bs).length = as.length := by simp [errors, h]

theorem toPoly_errors {as bs : List Bool} (h : as.length = bs.length) :
    toPoly (errors as bs) = toPoly as + toPoly bs := by
  induction as generalizing bs with
  | nil =>
    obtain rfl : bs = [] := List.length_eq_zero_iff.mp h.symm
    simp [errors]
  | cons a as ih =>
    cases bs with
    | nil => simp at h
    | cons b bs =>
      have hrest : as.length = bs.length := by simpa using h
      have hlen := errors_length hrest
      have herr : errors (a :: as) (b :: bs) = xor a b :: errors as bs := rfl
      rw [herr, toPoly_cons, toPoly_cons, toPoly_cons, ih hrest, hlen, bit_xor, C_add, hrest]
      ring

theorem degree_toPoly_lt (bs : List Bool) : (toPoly bs).degree < bs.length := by
  induction bs with
  | nil => simp
  | cons b bs ih =>
    have hlt : (bs.length : WithBot ℕ) < (b :: bs).length := by
      exact_mod_cast Nat.lt_succ_self bs.length
    rw [toPoly_cons]
    apply (degree_add_le _ _).trans_lt
    exact max_lt ((degree_C_mul_X_pow_le _ _).trans_lt hlt) (ih.trans hlt)

theorem toPoly_eq_zero_iff {bs : List Bool} : toPoly bs = 0 ↔ ∀ b ∈ bs, b = false := by
  induction bs using List.reverseRecOn with
  | nil => simp
  | append_singleton bs b ih =>
    rw [toPoly_concat, List.forall_mem_append, List.forall_mem_singleton, ← ih, ← bit_eq_zero_iff]
    constructor
    · intro h
      have hlow : bit b = 0 := by simpa using congrArg (coeff · 0) h
      rw [hlow, C_0, add_zero] at h
      exact ⟨(mul_eq_zero.mp h).resolve_right X_ne_zero, hlow⟩
    · rintro ⟨hhigh, hlow⟩
      simp [hhigh, hlow]

theorem errors_eq_false_iff {as bs : List Bool} (h : as.length = bs.length) :
    (∀ b ∈ errors as bs, b = false) ↔ as = bs := by
  induction as generalizing bs with
  | nil =>
    obtain rfl : bs = [] := List.length_eq_zero_iff.mp h.symm
    simp [errors]
  | cons a as ih =>
    cases bs with
    | nil => simp at h
    | cons b bs =>
      have hrest : as.length = bs.length := by simpa using h
      have herr : errors (a :: as) (b :: bs) = xor a b :: errors as bs := rfl
      rw [herr, List.forall_mem_cons, ih hrest, List.cons.injEq, Bool.bne_eq_xor.symm, bne_eq_false_iff_eq]

/-- The number of ones, modulo 2. -/
theorem eval_one_toPoly (bs : List Bool) : (toPoly bs).eval 1 = (bs.count true : ZMod 2) := by
  induction bs with
  | nil => simp
  | cons b bs ih => cases b <;> simp [toPoly_cons, ih, add_comm]

/-! ## Codewords -/

section Codewords
variable {g : (ZMod 2)[X]} {as bs r c e : List Bool}

/-- Adding a codeword to itself gives nothing. -/
theorem add_self (p : (ZMod 2)[X]) : p + p = 0 := CharTwo.add_self_eq_zero p

/-- In a sum of two sums, the summand they share cancels. -/
theorem cancel_middle (a s b : (ZMod 2)[X]) : a + s + (s + b) = a + b := by
  rw [add_assoc, ← add_assoc s, add_self, zero_add]

/-- What two codewords differ in is a codeword. -/
theorem dvd_errors (h : as.length = bs.length) (ha : g ∣ toPoly as) (hb : g ∣ toPoly bs) :
    g ∣ toPoly (errors as bs) := toPoly_errors h ▸ dvd_add ha hb

/-- Exactly one string of the length of the generator's degree completes a codeword. -/
theorem codeword_iff (hr : g ∣ toPoly as * X ^ r.length + toPoly r) (hlen : c.length = r.length)
    (hdeg : (r.length : WithBot ℕ) ≤ g.degree) : g ∣ toPoly (as ++ c) ↔ c = r := by
  rw [toPoly_append, hlen]
  constructor
  · intro hc
    have hsum := dvd_add hr hc
    have hcancel : toPoly as * X ^ r.length + toPoly r + (toPoly as * X ^ r.length + toPoly c) =
        toPoly (errors c r) := by
      rw [toPoly_errors hlen, add_add_add_comm, add_self, zero_add, add_comm]
    rw [hcancel] at hsum
    have hshort : (toPoly (errors c r)).degree < g.degree := by
      have hlt := degree_toPoly_lt (errors c r)
      rw [errors_length hlen, hlen] at hlt
      exact hlt.trans_le hdeg
    exact (errors_eq_false_iff hlen).mp (toPoly_eq_zero_iff.mp (eq_zero_of_dvd_of_degree_lt hsum hshort))
  · rintro rfl
    exact hr

/-- A string that completes a codeword, and a step that takes it `k` places on. -/
theorem dvd_extend {a b p q : (ZMod 2)[X]} {k n : ℕ} (h : g ∣ a * X ^ n + p)
    (hstep : g ∣ p * X ^ k + b * X ^ n + q) : g ∣ (a * X ^ k + b) * X ^ n + q := by
  have hsum : (a * X ^ n + p) * X ^ k + (p * X ^ k + b * X ^ n + q) =
      (a * X ^ k + b) * X ^ n + q := by
    rw [add_mul, add_assoc (p * X ^ k), cancel_middle]
    ring
  rw [← hsum]
  exact dvd_add (dvd_mul_of_dvd_left h (X ^ k)) hstep

/-- A string that is short enough and completes a codeword is the remainder. -/
theorem toPoly_eq_modByMonic (hg : g.Monic) {p : (ZMod 2)[X]} (h : g ∣ p + toPoly r)
    (hdeg : (r.length : WithBot ℕ) ≤ g.degree) : toPoly r = p %ₘ g := by
  rcases h with ⟨q, hq⟩
  have hsum : toPoly r + g * q = p := by
    rw [← hq, add_comm p, ← add_assoc, add_self, zero_add]
  have hdiv := div_modByMonic_unique q (toPoly r) hg ⟨hsum, (degree_toPoly_lt r).trans_le hdeg⟩
  exact hdiv.2.symm

theorem eq_of_toPoly_eq (hlen : as.length = bs.length) (h : toPoly as = toPoly bs) : as = bs := by
  apply (errors_eq_false_iff hlen).mp
  apply toPoly_eq_zero_iff.mp
  rw [toPoly_errors hlen, h, add_self]

/-! ## Detected errors -/

theorem toPoly_zeros (n : ℕ) : toPoly (List.replicate n false) = 0 :=
  toPoly_eq_zero_iff.mpr fun _ hb => List.eq_of_mem_replicate hb

/-- A burst of errors that is no longer than the degree of the generator is no codeword. -/
theorem burst_eq_zero (hg : g.coeff 0 ≠ 0) (hlen : (e.length : WithBot ℕ) ≤ g.degree) {i k : ℕ}
    (h : g ∣ toPoly (List.replicate i false ++ e ++ List.replicate k false)) :
    ∀ b ∈ e, b = false := by
  rw [toPoly_append, toPoly_append, toPoly_zeros, toPoly_zeros, zero_mul, zero_add, add_zero] at h
  have hprime : Prime (X : (ZMod 2)[X]) := prime_X
  have hcoprime : IsCoprime g (X ^ (List.replicate k false).length) := by
    apply IsCoprime.pow_right
    exact (hprime.coprime_iff_not_dvd.mpr fun hx => hg (X_dvd_iff.mp hx)).symm
  have hdvd := hcoprime.dvd_of_dvd_mul_right h
  exact toPoly_eq_zero_iff.mp (eq_zero_of_dvd_of_degree_lt hdvd ((degree_toPoly_lt e).trans_le hlen))

/-- If 1 is a root of the generator, a codeword has an even number of ones. -/
theorem even_count (hg : g.eval 1 = 0) (h : g ∣ toPoly e) : Even (e.count true) := by
  rcases h with ⟨p, hp⟩
  have heval := congrArg (eval 1) hp
  rw [eval_one_toPoly, eval_mul, hg, zero_mul] at heval
  exact ZMod.natCast_eq_zero_iff_even.mp heval

/-- There are ones, and all of them within `k` consecutive places. -/
def WithinWindow (k : ℕ) (e : List Bool) : Prop :=
  true ∈ e ∧ ∃ i, ∀ j, e[j]? = some true → i ≤ j ∧ j < i + k

theorem eq_replicate_false {l : List Bool} (h : true ∉ l) : l = List.replicate l.length false := by
  rw [List.eq_replicate_iff]
  refine ⟨rfl, fun b hb => ?_⟩
  cases b with
  | false => rfl
  | true => exact absurd hb h

theorem WithinWindow.split {k : ℕ} (h : WithinWindow k e) :
    ∃ i j burst, e = List.replicate i false ++ burst ++ List.replicate j false ∧
      burst.length ≤ k ∧ true ∈ burst := by
  obtain ⟨hone, i, hin⟩ := h
  have hsplit : e = e.take i ++ (e.drop i).take k ++ (e.drop i).drop k := by
    rw [List.append_assoc, List.take_append_drop, List.take_append_drop]
  have hbefore : true ∉ e.take i := by
    intro hmem
    obtain ⟨j, hj⟩ := List.mem_iff_getElem?.mp hmem
    rw [List.getElem?_take, Option.ite_none_right_eq_some] at hj
    have hle := (hin j hj.2).1
    omega
  have hafter : true ∉ (e.drop i).drop k := by
    intro hmem
    obtain ⟨j, hj⟩ := List.mem_iff_getElem?.mp hmem
    rw [List.drop_drop, List.getElem?_drop] at hj
    have hlt := (hin _ hj).2
    omega
  refine ⟨(e.take i).length, ((e.drop i).drop k).length, (e.drop i).take k, ?_,
    List.length_take_le _ _, ?_⟩
  · rw [← eq_replicate_false hbefore, ← eq_replicate_false hafter]
    exact hsplit
  · rw [hsplit, List.mem_append, List.mem_append] at hone
    exact (hone.resolve_right hafter).resolve_left hbefore

theorem withinWindow_burst {k i j : ℕ} {burst : List Bool} (hlen : burst.length ≤ k)
    (hone : true ∈ burst) :
    WithinWindow k (List.replicate i false ++ burst ++ List.replicate j false) := by
  refine ⟨by simp [hone], i, fun m hm => ?_⟩
  rw [List.append_assoc, List.getElem?_append, List.length_replicate] at hm
  split at hm
  · rw [List.getElem?_replicate] at hm
    split at hm <;> simp at hm
  · rw [List.getElem?_append] at hm
    split at hm
    · omega
    · rw [List.getElem?_replicate] at hm
      split at hm <;> simp at hm

/-- Short bursts, and an odd number of errors, do not turn one codeword into another. -/
theorem not_codeword (hzero : g.coeff 0 ≠ 0) (hone : g.eval 1 = 0) {k : ℕ}
    (hk : (k : WithBot ℕ) ≤ g.degree) (hlen : as.length = bs.length) (ha : g ∣ toPoly as)
    (herr : WithinWindow k (errors as bs) ∨ Odd ((errors as bs).count true)) : ¬ g ∣ toPoly bs := by
  intro hb
  have hdvd := dvd_errors hlen ha hb
  rcases herr with hwindow | hodd
  · obtain ⟨i, j, burst, hsplit, hshort, hmem⟩ := hwindow.split
    rw [hsplit] at hdvd
    have hcast : (burst.length : WithBot ℕ) ≤ k := by exact_mod_cast hshort
    exact Bool.noConfusion (burst_eq_zero hzero (hcast.trans hk) hdvd true hmem)
  · exact Nat.not_even_iff_odd.mpr hodd (even_count hone hdvd)

end Codewords
end InfraFi.Base.CyclicCode
end
