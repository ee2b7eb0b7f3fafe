import InfraFi.Base.Memory
import Mathlib.Order.Filter.AtTopBot.Basic

/-! # Loops with a bound on their passes

The body of a loop ends it or gives the state of the next pass. A bound that is
too small stops the loop for lack of fuel. What a loop does in the end is what
it does for all large bounds.
-/
namespace InfraFi.Base
open Filter

variable {σ ρ τ : Type}

/-- What one pass through the body of a loop leads to. -/
inductive Pass (σ ρ : Type) where
  | done (r : ρ)
  | next (s : σ)

/-- What holds of the result if the pass ends the loop, else of the next state. -/
def Pass.Meets (Inv : σ → Prop) (P : ρ → Prop) : Pass σ ρ → Prop
  | .done r => P r
  | .next t => Inv t

/-- At most `n` passes of a loop. -/
def loop (body : σ → Exec (Pass σ ρ)) : ℕ → σ → Exec ρ
  | 0, _ => .error .fuel
  | n + 1, s => do
    match ← body s with
    | .done r => return r
    | .next t => loop body n t

section Passes
variable {body : σ → Exec (Pass σ ρ)} {s t : σ}

theorem loop_of_done {r : ρ} (h : body s = .ok (.done r)) (n : ℕ) :
    loop body (n + 1) s = .ok r := by
  simp only [loop, h, Exec.ok_bind]
  rfl

theorem loop_of_next (h : body s = .ok (.next t)) (n : ℕ) :
    loop body (n + 1) s = loop body n t := by
  simp only [loop, h, Exec.ok_bind]

theorem loop_of_error {e : Stop} (h : body s = .error e) (n : ℕ) :
    loop body (n + 1) s = .error e := by
  simp only [loop, h, Exec.error_bind]

/-- A pass that leads back to its own state is repeated for ever. -/
theorem loop_of_cycle (h : body s = .ok (.next s)) (n : ℕ) : loop body n s = .error .fuel := by
  induction n with
  | zero => rfl
  | succ n ih => rw [loop_of_next h, ih]

/-- What holds of the start of every pass, and of every way to end, holds of the result. -/
theorem loop_rule (Inv : σ → Prop) (Post : Exec ρ → Prop) (hfuel : Post (.error .fuel))
    (herror : ∀ s e, Inv s → body s = .error e → Post (.error e))
    (hdone : ∀ s r, Inv s → body s = .ok (.done r) → Post (.ok r))
    (hnext : ∀ s t, Inv s → body s = .ok (.next t) → Inv t) (n : ℕ) (h : Inv s) :
    Post (loop body n s) := by
  induction n generalizing s with
  | zero => exact hfuel
  | succ n ih =>
    rcases hbody : body s with e | r | t
    · rw [loop_of_error hbody]
      exact herror s e h hbody
    · rw [loop_of_done hbody]
      exact hdone s r h hbody
    · rw [loop_of_next hbody]
      exact ih (hnext s t h hbody)

/-- What every pass keeps for the next one and ends with, the loop returns. -/
theorem loop_yields (Inv : σ → Prop) (P : ρ → Prop)
    (hbody : ∀ s, Inv s → Yields (body s) (Pass.Meets Inv P)) (n : ℕ) (h : Inv s) :
    Yields (loop body n s) P := by
  apply loop_rule Inv (Yields · P) .error
  · exact fun _ _ _ _ => .error
  · exact fun s r hs hr => .ok (hbody s hs _ hr)
  · exact fun s t hs ht => hbody s hs _ ht
  · exact h

/-- A loop whose passes decrease a measure does not run out of fuel. -/
theorem loop_total (Inv : σ → Prop) (μ : σ → ℕ) (Post : Exec ρ → Prop)
    (herror : ∀ s e, Inv s → body s = .error e → Post (.error e))
    (hdone : ∀ s r, Inv s → body s = .ok (.done r) → Post (.ok r))
    (hnext : ∀ s t, Inv s → body s = .ok (.next t) → Inv t ∧ μ t < μ s) (n : ℕ) (h : Inv s)
    (hn : μ s < n) : Post (loop body n s) := by
  induction n generalizing s with
  | zero => exact absurd hn (Nat.not_lt_zero _)
  | succ n ih =>
    rcases hbody : body s with e | r | t
    · rw [loop_of_error hbody]
      exact herror s e h hbody
    · rw [loop_of_done hbody]
      exact hdone s r h hbody
    · rw [loop_of_next hbody]
      rcases hnext s t h hbody with ⟨ht, hlt⟩
      exact ih ht (by omega)

end Passes

/-- `k` passes that go on lead from one state to another. -/
inductive Passes (body : σ → Exec (Pass σ ρ)) : ℕ → σ → σ → Prop
  | refl (s : σ) : Passes body 0 s s
  | step {k : ℕ} {s t u : σ} (h : body s = .ok (.next t)) (hrest : Passes body k t u) :
      Passes body (k + 1) s u

theorem Passes.loop_eq {body : σ → Exec (Pass σ ρ)} {k : ℕ} {s t : σ} (h : Passes body k s t)
    (n : ℕ) : loop body (n + k) s = loop body n t := by
  induction h with
  | refl s => rfl
  | step h _ ih => rw [← Nat.add_assoc, loop_of_next h, ih]

theorem Passes.invariant {body : σ → Exec (Pass σ ρ)} (Inv : σ → Prop)
    (hnext : ∀ s t, Inv s → body s = .ok (.next t) → Inv t) {k : ℕ} {s t : σ}
    (h : Passes body k s t) (hs : Inv s) : Inv t := by
  induction h with
  | refl s => exact hs
  | step h _ ih => exact ih (hnext _ _ hs h)

/-- Every pass that goes on, of those that the loop gets to, increases `μ`. -/
def Advances (body : σ → Exec (Pass σ ρ)) (μ : σ → ℕ) (s : σ) : Prop :=
  ∀ k t u, Passes body k s t → body t = .ok (.next u) → μ t < μ u

/-! ## Loops whose body has a bound too

`π` forgets the part of the state that has no influence on the way the loop
takes. The way is a relation between what is left.
-/

section Follow
variable {body : ℕ → σ → Exec (Pass σ ρ)} {π : σ → τ} {next : τ → τ → Prop} {p q : τ}

/-- With enough fuel a loop takes the way of its relation. -/
theorem eventually_passes
    (hstep : ∀ p q, next p q →
      ∀ᶠ n in atTop, ∀ s, π s = p → ∃ t, body n s = .ok (.next t) ∧ π t = q)
    (hpq : Relation.ReflTransGen next p q) :
    ∃ k, ∀ᶠ n in atTop, ∀ s, π s = p → ∃ t, π t = q ∧ Passes (body n) k s t := by
  induction hpq using Relation.ReflTransGen.head_induction_on with
  | refl => exact ⟨0, Eventually.of_forall fun n s hs => ⟨s, hs, .refl s⟩⟩
  | head hnext _ ih =>
    rcases ih with ⟨k, hk⟩
    refine ⟨k + 1, ?_⟩
    filter_upwards [hstep _ _ hnext, hk] with n hfirst hrest s hs
    rcases hfirst s hs with ⟨t, hbody, ht⟩
    rcases hrest t ht with ⟨u, hu, hpasses⟩
    exact ⟨u, hu, .step hbody hpasses⟩

/-- With enough fuel a loop ends as its body does at the end of the way. -/
theorem eventually_loop (Post : Exec ρ → Prop)
    (hstep : ∀ p q, next p q →
      ∀ᶠ n in atTop, ∀ s, π s = p → ∃ t, body n s = .ok (.next t) ∧ π t = q)
    (hpq : Relation.ReflTransGen next p q)
    (hlast : ∀ᶠ n in atTop, ∀ s, π s = q → ∀ j, Post (loop (body n) (j + 1) s)) :
    ∀ᶠ n in atTop, ∀ s, π s = p → Post (loop (body n) n s) := by
  rcases eventually_passes hstep hpq with ⟨k, hk⟩
  filter_upwards [hk, hlast, eventually_ge_atTop (k + 1)] with n hway hend hn s hs
  rcases hway s hs with ⟨t, ht, hpasses⟩
  have hsplit : n = (n - (k + 1) + 1) + k := by omega
  have hloop := hpasses.loop_eq (n - (k + 1) + 1)
  rw [← hsplit] at hloop
  rw [hloop]
  exact hend t ht _

end Follow
end InfraFi.Base
