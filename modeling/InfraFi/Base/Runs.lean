import Mathlib.Logic.Relation

/-! # Runs of a labelled system

A step takes a state and an input to the next state, or is not possible. A
guard singles out the steps whose state before meets a condition.
-/
namespace InfraFi.Base

variable {σ ι : Type*} (step : σ → ι → Option σ)

/-- The states that a run from `s₀` reaches by steps that meet the guard. -/
inductive Reach (guard : σ → ι → Prop) (s₀ : σ) : σ → Prop
  | start : Reach guard s₀ s₀
  | next {s s' : σ} {i : ι} (h : Reach guard s₀ s) (hguard : guard s i) (hstep : step s i = some s') :
      Reach guard s₀ s'

def runAll (s : σ) : List ι → Option σ
  | [] => some s
  | i :: is =>
    match step s i with
    | some s' => runAll s' is
    | none => none

namespace Reach
variable {step} {guard : σ → ι → Prop} {s₀ s : σ}

/-- What the first state has and every guarded step keeps, every state reached has. -/
theorem invariant {Inv : σ → Prop} (h : Reach step guard s₀ s) (h₀ : Inv s₀)
    (hkeep : ∀ s i s', Inv s → guard s i → step s i = some s' → Inv s') : Inv s := by
  induction h with
  | start => exact h₀
  | next _ hguard hstep ih => exact hkeep _ _ _ ih hguard hstep

theorem trans {t : σ} (h : Reach step guard s₀ s) (ht : Reach step guard s t) :
    Reach step guard s₀ t := by
  induction ht with
  | start => exact h
  | next _ hguard hstep ih => exact ih.next hguard hstep

/-- A system that remembers more runs like one that remembers less. -/
theorem map {τ κ : Type*} {step' : τ → κ → Option τ} {guard' : τ → κ → Prop} {f : σ → τ} {g : ι → κ}
    (hsim : ∀ s i s', guard s i → step s i = some s' → guard' (f s) (g i) ∧ step' (f s) (g i) = some (f s'))
    (h : Reach step guard s₀ s) : Reach step' guard' (f s₀) (f s) := by
  induction h with
  | start => exact .start
  | next _ hguard hstep ih =>
    obtain ⟨hguard', hstep'⟩ := hsim _ _ _ hguard hstep
    exact ih.next hguard' hstep'

/-- An evaluated run whose steps are checked against the guard. -/
theorem of_runAll [∀ s i, Decidable (guard s i)] {is : List ι}
    (h : runAll (fun s i => if guard s i then step s i else none) s₀ is = some s) :
    Reach step guard s₀ s := by
  induction is generalizing s₀ with
  | nil =>
    cases h
    exact .start
  | cons i is ih =>
    rw [runAll] at h
    split at h
    · rename_i s' hs'
      split at hs'
      · rename_i hguard
        exact (Reach.start.next hguard hs').trans (ih h)
      · cases hs'
    · cases h

end Reach
end InfraFi.Base
