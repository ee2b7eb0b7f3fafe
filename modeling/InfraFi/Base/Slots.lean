import Mathlib.Logic.Function.Basic
import Mathlib.Tactic.Common

/-! # Values in slots computed from their keys

Two keys may share a slot. A put overwrites the slot of its key; a removal is
made in the name of a key. The store remembers, for the statements only, with
which value every key was put last.
-/
namespace InfraFi.Base

structure Slots (K P V : Type) where
  cells : P → Option V
  /-- The last value put under a key that was not removed since. -/
  latest : K → Option V

namespace Slots
variable {K P V : Type}

section Store
variable [DecidableEq K] [DecidableEq P] (slot : K → P) (key : V → K)

def put (s : Slots K P V) (v : V) : Slots K P V where
  cells := Function.update s.cells (slot (key v)) (some v)
  latest := Function.update s.latest (key v) (some v)

/-- Removes what is in `p` in the name of `k`. -/
def remove (s : Slots K P V) (p : P) (k : K) : Slots K P V where
  cells := Function.update s.cells p none
  latest := Function.update s.latest k none

/-- A removal without effect. -/
def forget (s : Slots K P V) (k : K) : Slots K P V where
  cells := s.cells
  latest := Function.update s.latest k none

/-- A step, and the value that it puts. -/
inductive Step (s : Slots K P V) : Option V → Slots K P V → Prop
  | put (v : V) : Step s (some v) (s.put slot key v)
  | remove (p : P) (k : K) (h : ∀ v, s.cells p = some v → key v = k ∨ ∀ k', slot k' ≠ p) :
      Step s none (s.remove p k)
  | forget (k : K) : Step s none (s.forget k)

/-- A run with the values put and the states reached. -/
inductive Run : Slots K P V → List (Option V × Slots K P V) → Prop
  | nil (s : Slots K P V) : Run s []
  | cons {s t : Slots K P V} {a : Option V} {rest : List (Option V × Slots K P V)}
      (h : Step slot key s a t) (hrest : Run t rest) : Run s ((a, t) :: rest)

end Store

section Invariant
variable (slot : K → P) (key : V → K)

/-- Every key has its last value in its slot. -/
def Independent (s : Slots K P V) : Prop := ∀ k v, s.latest k = some v → s.cells (slot k) = some v

def Keyed (s : Slots K P V) : Prop := ∀ k v, s.latest k = some v → key v = k

/-- Another key in use has the slot of `v`. -/
def Clash (s : Slots K P V) (v : V) : Prop :=
  ∃ k, k ≠ key v ∧ slot k = slot (key v) ∧ s.latest k ≠ none

/-- No put of the run clashes in the state before it. -/
def Clean (s : Slots K P V) : List (Option V × Slots K P V) → Prop
  | [] => True
  | (a, t) :: rest => (∀ v, a = some v → ¬ Clash slot key s v) ∧ Clean t rest

end Invariant

section Steps
variable [DecidableEq K] [DecidableEq P] {slot : K → P} {key : V → K} {s t : Slots K P V}

section Fields
variable (v : V) (p q : P) (k k' : K)

@[simp] theorem put_latest :
    (s.put slot key v).latest k = if k = key v then some v else s.latest k :=
  Function.update_apply ..

@[simp] theorem put_cells :
    (s.put slot key v).cells p = if p = slot (key v) then some v else s.cells p :=
  Function.update_apply ..

@[simp] theorem remove_latest : (s.remove p k).latest k' = if k' = k then none else s.latest k' :=
  Function.update_apply ..

@[simp] theorem remove_cells : (s.remove p k).cells q = if q = p then none else s.cells q :=
  Function.update_apply ..

omit [DecidableEq P] in
@[simp] theorem forget_latest : (s.forget k).latest k' = if k' = k then none else s.latest k' :=
  Function.update_apply ..

end Fields

theorem Keyed.step (h : Keyed key s) {a : Option V} (hstep : Step slot key s a t) : Keyed key t := by
  intro k v hv
  cases hstep with
  | put w =>
    rw [put_latest] at hv
    split at hv
    · next hk =>
      cases hv
      exact hk.symm
    · exact h k v hv
  | remove p k' =>
    rw [remove_latest, Option.ite_none_left_eq_some] at hv
    exact h k v hv.2
  | forget k' =>
    rw [forget_latest, Option.ite_none_left_eq_some] at hv
    exact h k v hv.2

/-- A put leaves the keys independent if and only if it does not clash. -/
theorem independent_put_iff (hind : Independent slot s) (hkey : Keyed key s) (v : V) :
    Independent slot (s.put slot key v) ↔ ¬ Clash slot key s v := by
  constructor
  · rintro h ⟨k, hk, hslot, hused⟩
    rcases Option.ne_none_iff_exists'.mp hused with ⟨w, hw⟩
    have hcell := h k w (by rw [put_latest, if_neg hk, hw])
    rw [put_cells, if_pos hslot] at hcell
    cases hcell
    exact hk (hkey k v hw).symm
  · intro hclash k w hw
    rw [put_latest] at hw
    rw [put_cells]
    split at hw
    · next hk => rw [hk, if_pos rfl, hw]
    · next hk =>
      have hslot : slot k ≠ slot (key v) := fun hslot => hclash ⟨k, hk, hslot, by simp [hw]⟩
      rw [if_neg hslot]
      exact hind k w hw

/-- A removal touches no other key. -/
theorem Independent.remove (hind : Independent slot s) (hkey : Keyed key s) {p : P} {k : K}
    (h : ∀ v, s.cells p = some v → key v = k ∨ ∀ k', slot k' ≠ p) :
    Independent slot (s.remove p k) := by
  intro k' w hw
  rw [remove_latest, Option.ite_none_left_eq_some] at hw
  rcases hw with ⟨hk, hw⟩
  have hcell := hind k' w hw
  have hslot : slot k' ≠ p := by
    intro hslot
    rw [hslot] at hcell
    rcases h w hcell with hsame | hno
    · exact hk ((hkey k' w hw).symm.trans hsame)
    · exact hno k' hslot
  rw [remove_cells, if_neg hslot]
  exact hcell

omit [DecidableEq P] in
theorem Independent.forget (hind : Independent slot s) (k : K) : Independent slot (s.forget k) := by
  intro k' w hw
  rw [forget_latest, Option.ite_none_left_eq_some] at hw
  exact hind k' w hw.2

theorem independent_step_iff (hind : Independent slot s) (hkey : Keyed key s) {a : Option V}
    (hstep : Step slot key s a t) :
    Independent slot t ↔ ∀ v, a = some v → ¬ Clash slot key s v := by
  cases hstep with
  | put v =>
    rw [independent_put_iff hind hkey]
    simp
  | remove p k h => exact iff_of_true (hind.remove hkey h) (by simp)
  | forget k => exact iff_of_true (hind.forget k) (by simp)

/-- The keys stay independent throughout a run if and only if no put of it clashes. -/
theorem run_independent_iff {run : List (Option V × Slots K P V)} (h : Run slot key s run)
    (hind : Independent slot s) (hkey : Keyed key s) :
    (∀ x ∈ run, Independent slot x.2) ↔ Clean slot key s run := by
  induction h with
  | nil s => simp [Clean]
  | cons hstep _ ih =>
    have hone := independent_step_iff hind hkey hstep
    rw [List.forall_mem_cons, Clean, ← hone]
    apply and_congr_right
    intro ht
    exact ih ht (hkey.step hstep)

end Steps
end Slots
end InfraFi.Base
