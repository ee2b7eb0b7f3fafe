import Mathlib.Data.List.Basic
import Mathlib.Tactic.Common

/-! # Programs that talk to an environment

A program is a tree of requests; each request branches on the answer of the
environment. A run records every request with its answer, so a statement over
all answers is a statement over all runs.
-/
namespace InfraFi.Base

variable {E : Type} {A : E → Type} {α β : Type}

inductive Prog (E : Type) (A : E → Type) (α : Type) : Type where
  | ret (a : α)
  | ask (e : E) (next : A e → Prog E A α)

/-- A request together with the answer it got. -/
abbrev Event (E : Type) (A : E → Type) := (e : E) × A e

namespace Prog

def bind : Prog E A α → (α → Prog E A β) → Prog E A β
  | .ret a, f => f a
  | .ask e next, f => .ask e (fun x => (next x).bind f)

instance : Monad (Prog E A) where
  pure := .ret
  bind := Prog.bind

theorem bind_ret (p : Prog E A α) : p.bind .ret = p := by
  induction p with
  | ret a => rfl
  | ask e next ih => exact congrArg (Prog.ask e) (funext ih)

theorem bind_bind {γ : Type} (p : Prog E A α) (f : α → Prog E A β) (g : β → Prog E A γ) :
    (p.bind f).bind g = p.bind fun a => (f a).bind g := by
  induction p with
  | ret a => rfl
  | ask e next ih => exact congrArg (Prog.ask e) (funext ih)

instance : LawfulMonad (Prog E A) := LawfulMonad.mk' _ bind_ret (fun _ _ => rfl) bind_bind

/-- Send one request and return its answer. -/
def request (e : E) : Prog E A (A e) := .ask e .ret

/-- The runs of a program: the events, in order, and the value returned. -/
inductive Run : Prog E A α → List (Event E A) → α → Prop
  | ret (a : α) : Run (.ret a) [] a
  | ask {e : E} {next : A e → Prog E A α} {tr : List (Event E A)} {a : α} (x : A e)
      (h : Run (next x) tr a) : Run (.ask e next) (⟨e, x⟩ :: tr) a

theorem run_ret {a b : α} {tr : List (Event E A)} :
    Run (.ret a : Prog E A α) tr b ↔ tr = [] ∧ a = b := by
  constructor
  · intro h
    cases h
    exact ⟨rfl, rfl⟩
  · rintro ⟨rfl, rfl⟩
    exact .ret a

theorem run_pure {a b : α} {tr : List (Event E A)} :
    Run (pure a : Prog E A α) tr b ↔ tr = [] ∧ a = b := run_ret

theorem run_ask {e : E} {next : A e → Prog E A α} {tr : List (Event E A)} {b : α} :
    Run (.ask e next) tr b ↔ ∃ x rest, tr = ⟨e, x⟩ :: rest ∧ Run (next x) rest b := by
  constructor
  · intro h
    cases h with
    | ask x h => exact ⟨x, _, rfl, h⟩
  · rintro ⟨x, rest, rfl, h⟩
    exact .ask x h

theorem run_request {e : E} {tr : List (Event E A)} {x : A e} :
    Run (request e) tr x ↔ tr = [⟨e, x⟩] := by
  constructor
  · intro h
    obtain ⟨y, rest, rfl, hy⟩ := run_ask.mp h
    obtain ⟨rfl, rfl⟩ := run_ret.mp hy
    rfl
  · rintro rfl
    exact .ask x (.ret x)

/-- A run of a sequence is a run of its first part followed by one of the rest. -/
theorem run_bind {p : Prog E A α} {f : α → Prog E A β} {tr : List (Event E A)} {b : β} :
    Run (p >>= f) tr b ↔ ∃ t₁ a t₂, tr = t₁ ++ t₂ ∧ Run p t₁ a ∧ Run (f a) t₂ b := by
  change Run (p.bind f) tr b ↔ _
  induction p generalizing tr with
  | ret a =>
    constructor
    · intro h
      exact ⟨[], a, tr, rfl, .ret a, h⟩
    · rintro ⟨t₁, a', t₂, rfl, h₁, h₂⟩
      obtain ⟨rfl, rfl⟩ := run_ret.mp h₁
      exact h₂
  | ask e next ih =>
    constructor
    · intro h
      obtain ⟨x, rest, rfl, hx⟩ := run_ask.mp h
      obtain ⟨t₁, a, t₂, rfl, h₁, h₂⟩ := (ih x).mp hx
      exact ⟨⟨e, x⟩ :: t₁, a, t₂, rfl, .ask x h₁, h₂⟩
    · rintro ⟨t₁, a, t₂, rfl, h₁, h₂⟩
      obtain ⟨x, rest, rfl, hx⟩ := run_ask.mp h₁
      exact .ask x ((ih x).mpr ⟨rest, a, t₂, rfl, hx, h₂⟩)

/-- The events decide how far a run goes and what it returns. -/
theorem Run.unique {p : Prog E A α} {t₁ t₂ r₁ r₂ : List (Event E A)} {a b : α} (h₁ : Run p t₁ a)
    (h₂ : Run p t₂ b) (ht : t₁ ++ r₁ = t₂ ++ r₂) : t₁ = t₂ ∧ a = b ∧ r₁ = r₂ := by
  induction h₁ generalizing t₂ with
  | ret a =>
    rcases run_ret.mp h₂ with ⟨rfl, rfl⟩
    exact ⟨rfl, rfl, ht⟩
  | ask x h ih =>
    rcases run_ask.mp h₂ with ⟨y, rest, rfl, hy⟩
    simp only [List.cons_append, List.cons.injEq, Sigma.mk.injEq, heq_eq_eq, true_and] at ht
    rcases ht with ⟨rfl, ht⟩
    rcases ih hy ht with ⟨rfl, hab, hr⟩
    exact ⟨rfl, hab, hr⟩

/-- Where every request has an answer, a program runs to its end. -/
theorem exists_run [∀ e, Nonempty (A e)] (p : Prog E A α) :
    ∃ (tr : List (Event E A)) (a : α), Run p tr a := by
  induction p with
  | ret a => exact ⟨[], a, .ret a⟩
  | ask e next ih =>
    rcases ‹∀ e, Nonempty (A e)› e with ⟨x⟩
    rcases ih x with ⟨tr, a, h⟩
    exact ⟨_, a, .ask x h⟩

/-- What is left of a run of a sequence after the run of its first part. -/
theorem Run.of_bind {p : Prog E A α} {f : α → Prog E A β} {t₁ t₂ : List (Event E A)} {a : α} {b : β}
    (h : Run (p >>= f) (t₁ ++ t₂) b) (hp : Run p t₁ a) : Run (f a) t₂ b := by
  rcases run_bind.mp h with ⟨t₁', a', t₂', ht, hp', hf⟩
  rcases hp.unique hp' ht with ⟨-, rfl, rfl⟩
  exact hf

/-- A run over a list is a run of each of its elements, one after the other. -/
theorem run_forM {f : β → Prog E A PUnit} {xs : List β} {tr : List (Event E A)} {u : PUnit} :
    Run (forM xs f) tr u ↔
      ∃ ts, tr = ts.flatten ∧ List.Forall₂ (fun x t => Run (f x) t ()) xs ts := by
  induction xs generalizing tr with
  | nil =>
    rw [List.forM_nil, run_pure]
    constructor
    · rintro ⟨rfl, -⟩
      exact ⟨[], rfl, .nil⟩
    · rintro ⟨ts, rfl, h⟩
      cases h
      exact ⟨rfl, rfl⟩
  | cons x xs ih =>
    rw [List.forM_cons, run_bind]
    constructor
    · rintro ⟨t₁, v, t₂, rfl, h₁, h₂⟩
      obtain ⟨ts, rfl, hts⟩ := ih.mp h₂
      exact ⟨t₁ :: ts, rfl, .cons h₁ hts⟩
    · rintro ⟨ts, rfl, h⟩
      cases h with
      | cons h₁ hts => exact ⟨_, (), _, rfl, h₁, ih.mpr ⟨_, rfl, hts⟩⟩

/-- All requests that the program can make satisfy `P`. -/
def Only (P : E → Prop) : Prog E A α → Prop
  | .ret _ => True
  | .ask e next => P e ∧ ∀ x, (next x).Only P

theorem only_pure {P : E → Prop} (a : α) : (pure a : Prog E A α).Only P := trivial

theorem only_request {P : E → Prop} {e : E} (h : P e) : (request e : Prog E A (A e)).Only P :=
  ⟨h, fun _ => trivial⟩

theorem Only.mono {P Q : E → Prop} (h : ∀ e, P e → Q e) {p : Prog E A α} (hp : p.Only P) :
    p.Only Q := by
  induction p with
  | ret a => trivial
  | ask e next ih => exact ⟨h e hp.1, fun x => ih x (hp.2 x)⟩

/-- Only the values that the first part can return matter for the second. -/
theorem Only.bind_of_run {P : E → Prop} {p : Prog E A α} {f : α → Prog E A β} (hp : p.Only P)
    (hf : ∀ tr a, Run p tr a → (f a).Only P) : (p >>= f).Only P := by
  change (p.bind f).Only P
  induction p with
  | ret a => exact hf [] a (.ret a)
  | ask e next ih => exact ⟨hp.1, fun x => ih x (hp.2 x) fun tr a h => hf _ a (.ask x h)⟩

theorem Only.bind {P : E → Prop} {p : Prog E A α} {f : α → Prog E A β} (hp : p.Only P)
    (hf : ∀ a, (f a).Only P) : (p >>= f).Only P := hp.bind_of_run fun _ a _ => hf a

theorem Only.ite {P : E → Prop} {c : Prop} [Decidable c] {p q : Prog E A α} (hp : p.Only P)
    (hq : q.Only P) : (if c then p else q).Only P := by
  split
  · exact hp
  · exact hq

theorem Run.only {P : E → Prop} {p : Prog E A α} {tr : List (Event E A)} {a : α} (h : Run p tr a)
    (hp : p.Only P) : ∀ e ∈ tr, P e.1 := by
  induction h with
  | ret a => simp
  | ask x h ih => exact List.forall_mem_cons.mpr ⟨hp.1, ih (hp.2 x)⟩

/-- The first answer that a run got to a request. -/
def firstAnswer [DecidableEq E] (e : E) : List (Event E A) → Option (A e)
  | [] => none
  | ⟨f, x⟩ :: tr => if h : f = e then some (h ▸ x) else firstAnswer e tr

@[simp] theorem firstAnswer_self [DecidableEq E] {e : E} (x : A e) (tr : List (Event E A)) :
    firstAnswer e (⟨e, x⟩ :: tr) = some x := dif_pos rfl

theorem firstAnswer_of_ne [DecidableEq E] {e f : E} (h : f ≠ e) (x : A f) (tr : List (Event E A)) :
    firstAnswer e (⟨f, x⟩ :: tr) = firstAnswer e tr := dif_neg h

theorem firstAnswer_append [DecidableEq E] {e : E} {s : List (Event E A)} (h : ∀ d ∈ s, d.1 ≠ e)
    (tr : List (Event E A)) : firstAnswer e (s ++ tr) = firstAnswer e tr := by
  induction s with
  | nil => rfl
  | cons d s ih =>
    rcases List.forall_mem_cons.mp h with ⟨hd, hs⟩
    rw [List.cons_append, firstAnswer_of_ne hd, ih hs]

/-- The run in which the `i`-th request is answered by `answer i`. -/
def runWith (answer : ℕ → (e : E) → A e) : ℕ → Prog E A α → List (Event E A) × α
  | _, .ret a => ([], a)
  | i, .ask e next =>
    let r := runWith answer (i + 1) (next (answer i e))
    (⟨e, answer i e⟩ :: r.1, r.2)

theorem run_runWith (answer : ℕ → (e : E) → A e) (p : Prog E A α) (i : ℕ) :
    Run p (runWith answer i p).1 (runWith answer i p).2 := by
  induction p generalizing i with
  | ret a => exact .ret a
  | ask e next ih => exact .ask _ (ih _ _)

end Prog
end InfraFi.Base
