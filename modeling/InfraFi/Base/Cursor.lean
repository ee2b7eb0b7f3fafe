import Mathlib.Algebra.BigOperators.Group.List.Basic
import Mathlib.Data.Int.ModEq
import Mathlib.Tactic.Common

/-! # A cursor on a list

A cursor is on one of `n` items. It moves by steps that wrap around at the ends,
and a window of a few rows follows it.
-/
namespace InfraFi.Base

/-! ## Steps around the ends -/

/-- The item `step` away from item `s` of `n`. -/
def wrapStep (n s : ℕ) (step : ℤ) : ℕ := ((s + n + step) % n).toNat

section Wrap
variable {n s : ℕ}

theorem wrapStep_lt (hn : 0 < n) (step : ℤ) : wrapStep n s step < n := by
  have hpos : (0 : ℤ) < n := by omega
  have hlt := Int.emod_lt_of_pos (s + n + step) hpos
  rw [wrapStep]
  omega

theorem wrapStep_modEq (hn : 0 < n) (step : ℤ) : (wrapStep n s step : ℤ) ≡ s + step [ZMOD n] := by
  have hpos : (0 : ℤ) < n := by omega
  have hcast : (wrapStep n s step : ℤ) = (s + n + step) % n :=
    Int.toNat_of_nonneg (Int.emod_nonneg _ hpos.ne')
  rw [hcast, Int.ModEq, Int.emod_emod_of_dvd _ (dvd_refl _), add_right_comm]
  exact Int.add_emod_right _ _

theorem wrapStep_zero (hs : s < n) : wrapStep n s 0 = s := by
  have hmod : ((s : ℤ) + n + 0) % n = s := by
    rw [add_zero, Int.add_emod_right]
    exact Int.emod_eq_of_lt (by omega) (by omega)
  rw [wrapStep, hmod, Int.toNat_natCast]

/-- Behind any steps, the cursor is as far away as the steps add up to. -/
theorem foldl_wrapStep_modEq (hn : 0 < n) (s : ℕ) (steps : List ℤ) :
    ((steps.foldl (wrapStep n) s : ℕ) : ℤ) ≡ s + steps.sum [ZMOD n] := by
  induction steps generalizing s with
  | nil => simp
  | cons step steps ih =>
    rw [List.foldl_cons, List.sum_cons, ← add_assoc]
    exact (ih _).trans ((wrapStep_modEq hn step).add_right _)

theorem foldl_wrapStep_lt (hs : s < n) (steps : List ℤ) : steps.foldl (wrapStep n) s < n := by
  induction steps generalizing s with
  | nil => exact hs
  | cons step steps ih => exact ih (wrapStep_lt (by omega) step)

/-- Every item is some steps forward away. -/
theorem exists_wrapStep (hs : s < n) {t : ℕ} (ht : t < n) :
    ∃ k, (List.replicate k (1 : ℤ)).foldl (wrapStep n) s = t := by
  refine ⟨t + n - s, ?_⟩
  have hmod := foldl_wrapStep_modEq (by omega : 0 < n) s (List.replicate (t + n - s) 1)
  have hlt := foldl_wrapStep_lt hs (List.replicate (t + n - s) 1)
  generalize (List.replicate (t + n - s) (1 : ℤ)).foldl (wrapStep n) s = u at hmod hlt
  have hsum : (s : ℤ) + (List.replicate (t + n - s) (1 : ℤ)).sum = t + n := by
    rw [List.sum_replicate, nsmul_eq_mul, mul_one]
    omega
  rw [hsum, Int.ModEq, Int.add_emod_right, Int.emod_eq_of_lt (by omega) (by omega),
    Int.emod_eq_of_lt (by omega) (by omega)] at hmod
  omega

end Wrap

/-! ## The window -/

structure Cursor where
  selected : ℕ
  offset : ℕ
deriving DecidableEq

namespace Cursor

/-- The window follows a cursor that moves to `s`. -/
def moveTo (rows : ℕ) (c : Cursor) (s : ℕ) : Cursor where
  selected := s
  offset := if s < c.offset then s else if c.offset + rows ≤ s then s - rows + 1 else c.offset

/-- The cursor is put on `s`, and the window starts as far up as it can. -/
def put (rows s : ℕ) : Cursor where
  selected := s
  offset := if rows ≤ s then s - rows + 1 else 0

/-- The part of a list that is in the window. -/
def window {α : Type*} (rows : ℕ) (c : Cursor) (l : List α) : List α := (l.drop c.offset).take rows

/-- The cursor is on an item and in the window, which has no free rows below the last item unless there
are none above. -/
structure Fits (rows n : ℕ) (c : Cursor) : Prop where
  inside : c.selected < n ∨ c.selected = 0
  top : c.offset ≤ c.selected
  bottom : c.selected < c.offset + rows
  full : c.offset + rows ≤ n ∨ c.offset = 0

variable {rows n s : ℕ} {c : Cursor}

theorem fits_start (hrows : 0 < rows) (n : ℕ) : (Cursor.mk 0 0).Fits rows n :=
  ⟨.inr rfl, Nat.le_refl 0, by simpa using hrows, .inr rfl⟩

theorem Fits.moveTo (h : c.Fits rows n) (hrows : 0 < rows) (hs : s < n) :
    (c.moveTo rows s).Fits rows n := by
  obtain ⟨-, htop, hbottom, hfull⟩ := h
  constructor <;> simp only [Cursor.moveTo]
  · exact .inl hs
  · split <;> [skip; split] <;> omega
  · split <;> [skip; split] <;> omega
  · split <;> [skip; split] <;> omega

theorem fits_put (hrows : 0 < rows) (hs : s < n) : (put rows s).Fits rows n := by
  constructor <;> simp only [put]
  · exact .inl hs
  · split <;> omega
  · split <;> omega
  · split <;> omega

section Window
variable {α : Type*} {l : List α}

/-- No row is free that could show an item. -/
theorem Fits.window_length (h : c.Fits rows l.length) :
    (c.window rows l).length = min rows l.length := by
  rw [window, List.length_take, List.length_drop]
  have hfull := h.full
  omega

theorem window_getElem? (c : Cursor) {r : ℕ} (hr : r < rows) :
    (c.window rows l)[r]? = l[c.offset + r]? := by
  rw [window, List.getElem?_take_of_lt hr, List.getElem?_drop]

end Window
end Cursor
end InfraFi.Base
