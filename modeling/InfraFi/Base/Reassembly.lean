import Mathlib.Data.List.Induction
import Mathlib.Tactic.Common

/-! # Reassembly of framed messages under a session timeout

A message travels as a START frame with its length, one DATA frame per item
and an END frame with a check value. The receiver keeps at most one session.
Times, items and check values are arbitrary; the policy says when a session
has expired, which check value a message has and how much room its reader has.
-/
namespace InfraFi.Base.Reassembly

variable {τ β κ : Type*}

structure Session (τ β : Type*) where
  size : ℕ
  opened : τ
  received : List β
  size_ne : size ≠ 0
  fits : received.length ≤ size
deriving DecidableEq

inductive Frame (β κ : Type*) where
  | start (size : ℕ)
  | data (item : β)
  | finish (check : κ)
  | other
deriving DecidableEq

inductive Outcome (β : Type*) where
  | quiet
  | rejected
  | delivered (message : List β)
deriving DecidableEq

structure Policy (τ β κ : Type*) where
  /-- Whether a session opened at the first time has expired at the second. -/
  expired : τ → τ → Bool
  check : List β → κ
  room : ℕ → Bool

/-- A START that opens a session. -/
def Frame.Opens : Frame β κ → Prop
  | .start size => size ≠ 0
  | _ => False

def Frame.item? : Frame β κ → Option β
  | .data item => some item
  | _ => none

def Outcome.message? : Outcome β → Option (List β)
  | .delivered message => some message
  | _ => none

/-- The items a stretch of frames carries. -/
def items (fs : List (τ × Frame β κ)) : List β := fs.filterMap (fun f => f.2.item?)

@[simp] theorem items_nil : items ([] : List (τ × Frame β κ)) = [] := rfl

theorem items_cons (t : τ) (f : Frame β κ) (fs : List (τ × Frame β κ)) :
    items ((t,f) :: fs) = f.item?.toList ++ items fs := by
  cases f <;> rfl

theorem items_append (fs gs : List (τ × Frame β κ)) : items (fs ++ gs) = items fs ++ items gs :=
  List.filterMap_append

theorem items_of_data {fs : List (τ × Frame β κ)} {ms : List β}
    (h : fs.map Prod.snd = ms.map .data) : items fs = ms := by
  induction fs generalizing ms with
  | nil => simpa using h.symm
  | cons f fs ih =>
    cases ms with
    | nil => simp at h
    | cons b ms =>
      rw [List.map_cons, List.map_cons, List.cons.injEq] at h
      rw [items_cons, h.1, ih h.2]
      rfl

/-- The messages among a list of outcomes, in order. -/
def messages (os : List (Outcome β)) : List (List β) := os.filterMap Outcome.message?

theorem messages_append (os qs : List (Outcome β)) :
    messages (os ++ qs) = messages os ++ messages qs := List.filterMap_append

theorem messages_cons (o : Outcome β) (os : List (Outcome β)) :
    messages (o :: os) = o.message?.toList ++ messages os := by
  rw [messages, List.filterMap_cons]
  cases o.message? <;> rfl

@[simp] theorem messages_quiet (n : ℕ) :
    messages (List.replicate n (.quiet : Outcome β)) = [] := by
  simp [messages, Outcome.message?]

variable [DecidableEq κ] (P : Policy τ β κ)

/-- The same session at its first item. -/
def Session.rewind (s : Session τ β) : Session τ β :=
  { s with received := [], fits := Nat.zero_le _ }

/-- What a frame does to a session that has not expired. -/
def onFrame (t : τ) : Option (Session τ β) → Frame β κ → Option (Session τ β) × Outcome β
  | s, .other => (s, .quiet)
  | s, .start 0 => (s, .rejected)
  | _, .start (n + 1) => (some ⟨n + 1, t, [], n.succ_ne_zero, Nat.zero_le _⟩, .quiet)
  | none, .data _ => (none, .quiet)
  | some s, .data item =>
    if h : s.received.length < s.size then
      (some { s with received := s.received ++ [item], fits := by simp; omega }, .quiet)
    else (some s, .quiet)
  | none, .finish _ => (none, .quiet)
  | some s, .finish c =>
    if s.received.length ≠ s.size then (some s, .quiet)
    else if P.check s.received ≠ c then (some s.rewind, .quiet)
    else if P.room s.size then (none, .delivered s.received)
    else (none, .rejected)

def timedOut (t : τ) : Option (Session τ β) → Bool
  | none => false
  | some s => P.expired s.opened t

/-- One received frame. An expired session is dropped, and the frame with it. -/
def step (t : τ) (s : Option (Session τ β)) (f : Frame β κ) :
    Option (Session τ β) × Outcome β :=
  if timedOut P t s then (none, .rejected) else onFrame P t s f

theorem step_of_not_timedOut {t : τ} {s : Option (Session τ β)} {f : Frame β κ}
    (h : timedOut P t s = false) : step P t s f = onFrame P t s f := by
  rw [step, h]
  rfl

def run (s : Option (Session τ β)) :
    List (τ × Frame β κ) → Option (Session τ β) × List (Outcome β)
  | [] => (s, [])
  | (t,f) :: fs =>
    let r := step P t s f
    let q := run r.1 fs
    (q.1, r.2 :: q.2)

@[simp] theorem run_nil (s : Option (Session τ β)) : run P s [] = (s, []) := rfl

theorem run_cons (s : Option (Session τ β)) (t : τ) (f : Frame β κ) (fs : List (τ × Frame β κ)) :
    run P s ((t,f) :: fs) =
      ((run P (step P t s f).1 fs).1, (step P t s f).2 :: (run P (step P t s f).1 fs).2) := rfl

theorem run_append (s : Option (Session τ β)) (fs gs : List (τ × Frame β κ)) :
    run P s (fs ++ gs) =
      ((run P (run P s fs).1 gs).1, (run P s fs).2 ++ (run P (run P s fs).1 gs).2) := by
  induction fs generalizing s with
  | nil => rfl
  | cons f fs ih =>
    obtain ⟨t, f⟩ := f
    rw [List.cons_append, run_cons, ih, run_cons]
    rfl

theorem run_concat (s : Option (Session τ β)) (fs : List (τ × Frame β κ)) (t : τ)
    (f : Frame β κ) :
    (run P s (fs ++ [(t,f)])).1 = (step P t (run P s fs).1 f).1 := by
  rw [run_append]
  rfl

/-! ## Runs under different clocks

Real times are read through a clock. A run does not depend on the clock beyond
the answers it gives on whether sessions have expired.
-/

section Clocks
variable {θ : Type*}

/-- The session as a clock shows it. -/
def Session.read (clock : θ → τ) (s : Session θ β) : Session τ β :=
  ⟨s.size, clock s.opened, s.received, s.size_ne, s.fits⟩

/-- The policy of a receiver that reads real times through a clock. -/
def Policy.comap (clock : θ → τ) : Policy θ β κ where
  expired s t := P.expired (clock s) (clock t)
  check := P.check
  room := P.room

theorem onFrame_comap (clock : θ → τ) (t : θ) (s : Option (Session θ β)) (f : Frame β κ) :
    onFrame P (clock t) (s.map (Session.read clock)) f =
      ((onFrame (P.comap clock) t s f).1.map (Session.read clock),
        (onFrame (P.comap clock) t s f).2) := by
  cases s with
  | none => rcases f with (_ | n) | item | c | _ <;> rfl
  | some s =>
    rcases f with (_ | n) | item | c | _
    · rfl
    · rfl
    · simp only [onFrame, Option.map_some, Session.read]
      split <;> rfl
    · by_cases hlen : s.received.length = s.size
      · by_cases hcheck : P.check s.received = c
        · cases hroom : P.room s.size <;>
            simp [onFrame, Session.read, Policy.comap, hlen, hcheck, hroom]
        · simp [onFrame, Session.read, Policy.comap, Session.rewind, hlen, hcheck]
      · simp [onFrame, Session.read, hlen]
    · rfl

/-- A run on what the clock shows is a run in real time. -/
theorem run_comap (clock : θ → τ) (s : Option (Session θ β)) (fs : List (θ × Frame β κ)) :
    run P (s.map (Session.read clock)) (fs.map (Prod.map clock id)) =
      ((run (P.comap clock) s fs).1.map (Session.read clock), (run (P.comap clock) s fs).2) := by
  induction fs generalizing s with
  | nil => rfl
  | cons f fs ih =>
    rcases f with ⟨t, f⟩
    have htime : timedOut P (clock t) (s.map (Session.read clock)) = timedOut (P.comap clock) t s := by
      cases s <;> rfl
    have hstep : step P (clock t) (s.map (Session.read clock)) f =
        ((step (P.comap clock) t s f).1.map (Session.read clock), (step (P.comap clock) t s f).2) := by
      unfold step
      rw [htime]
      split
      · rfl
      · exact onFrame_comap P clock t s f
    rw [List.map_cons, Prod.map_apply, id, run_cons, run_cons, hstep, ih]

omit [DecidableEq κ] in
variable {P} in
theorem timedOut_congr {Q : Policy τ β κ} {t : τ} {s : Option (Session τ β)}
    (h : ∀ u ∈ s, P.expired u.opened t = Q.expired u.opened t) : timedOut P t s = timedOut Q t s := by
  cases s with
  | none => rfl
  | some u => exact h u rfl

/-- A session is opened by its START, or it is the one from before. -/
theorem step_opened {t : τ} {s : Option (Session τ β)} {f : Frame β κ} {u : Session τ β}
    (h : (step P t s f).1 = some u) : u.opened = t ∨ ∃ v ∈ s, u.opened = v.opened := by
  unfold step at h
  split at h
  · cases h
  cases s with
  | none =>
    rcases f with (_ | n) | item | c | _ <;> cases h
    exact .inl rfl
  | some v =>
    rcases f with (_ | n) | item | c | _
    · cases h
      exact .inr ⟨u, rfl, rfl⟩
    · cases h
      exact .inl rfl
    · simp only [onFrame] at h
      split at h <;> cases h <;> exact .inr ⟨_, rfl, rfl⟩
    · simp only [onFrame] at h
      split at h
      · cases h
        exact .inr ⟨_, rfl, rfl⟩
      split at h
      · cases h
        exact .inr ⟨_, rfl, rfl⟩
      split at h <;> cases h
    · cases h
      exact .inr ⟨u, rfl, rfl⟩

variable {P} in
/-- Policies that agree on the pairs of times that a run can compare have the same run. -/
theorem run_congr {Q : Policy τ β κ} (hcheck : P.check = Q.check) (hroom : P.room = Q.room)
    {s : Option (Session τ β)} {fs : List (τ × Frame β κ)}
    (hs : ∀ u ∈ s, ∀ f ∈ fs, P.expired u.opened f.1 = Q.expired u.opened f.1)
    (hfs : fs.Pairwise (fun f g => P.expired f.1 g.1 = Q.expired f.1 g.1)) : run P s fs = run Q s fs := by
  induction fs generalizing s with
  | nil => rfl
  | cons f fs ih =>
    rcases f with ⟨t, f⟩
    have hframe : onFrame P t s f = onFrame Q t s f := by
      rcases s with _ | s <;> rcases f with (_ | n) | item | c | _ <;>
        simp only [onFrame, hcheck, hroom]
    have hstep : step P t s f = step Q t s f := by
      rw [step, step, hframe, timedOut_congr fun u hu => hs u hu (t,f) List.mem_cons_self]
    rw [List.pairwise_cons] at hfs
    rw [run_cons, run_cons, hstep]
    have hrest : run P (step Q t s f).1 fs = run Q (step Q t s f).1 fs := by
      apply ih _ hfs.2
      intro u hu g hg
      rcases step_opened Q hu with hopened | ⟨v, hv, hopened⟩
      · rw [hopened]
        exact hfs.1 g hg
      · rw [hopened]
        exact hs v hv g (List.mem_cons_of_mem _ hg)
    rw [hrest]

end Clocks

/-! ## Sessions collect the items sent to them -/

/-- A stretch of DATA and foreign frames, none of them after the session has expired. -/
def Body (opened : τ) (fs : List (τ × Frame β κ)) : Prop :=
  ∀ f ∈ fs, P.expired opened f.1 = false ∧ (f.2 = .other ∨ ∃ item, f.2 = .data item)

theorem run_body (s : Session τ β) (fs : List (τ × Frame β κ)) (hb : Body P s.opened fs)
    (hsize : (s.received ++ items fs).length ≤ s.size) :
    run P (some s) fs =
      (some { s with received := s.received ++ items fs, fits := hsize },
        List.replicate fs.length .quiet) := by
  induction fs generalizing s with
  | nil => simp
  | cons f fs ih =>
    obtain ⟨t, f⟩ := f
    obtain ⟨hlive, hkind⟩ := hb (t,f) (by simp)
    have hrest : Body P s.opened fs := fun g hg => hb g (by simp [hg])
    have hstep : step P t (some s) f = onFrame P t (some s) f := step_of_not_timedOut P hlive
    rw [run_cons, hstep]
    rcases hkind with rfl | ⟨item, rfl⟩
    · have hs := ih s hrest (by simpa [items_cons, Frame.item?] using hsize)
      simp [onFrame, items_cons, Frame.item?, hs, List.replicate_succ]
    · have hroom : s.received.length < s.size := by
        simp only [items_cons, Frame.item?, Option.toList_some, List.length_append,
          List.length_cons, List.length_nil] at hsize
        omega
      have hs := ih { s with received := s.received ++ [item], fits := by simp; omega } hrest
        (by simpa [items_cons, Frame.item?] using hsize)
      simp [onFrame, hroom, items_cons, Frame.item?, hs, List.replicate_succ]

/-- Frames of no kind the receiver knows leave it idle. -/
theorem run_foreign (fs : List (τ × Frame β κ)) (h : ∀ f ∈ fs, f.2 = .other) :
    run P none fs = (none, List.replicate fs.length .quiet) := by
  induction fs with
  | nil => rfl
  | cons f fs ih =>
    obtain ⟨t, f⟩ := f
    obtain rfl : f = .other := h (t,f) (by simp)
    have hs := ih (fun g hg => h g (by simp [hg]))
    rw [run_cons]
    simp [step, timedOut, onFrame, hs, List.replicate_succ]

/-- Without a session only a START has an effect. -/
theorem run_idle (fs : List (τ × Frame β κ)) (h : ∀ f ∈ fs, ¬ f.2.Opens) :
    (run P none fs).1 = none ∧ messages (run P none fs).2 = [] := by
  induction fs with
  | nil => exact ⟨rfl, rfl⟩
  | cons f fs ih =>
    obtain ⟨t, f⟩ := f
    have hf := h (t,f) (by simp)
    have hs := ih (fun g hg => h g (by simp [hg]))
    have hstep : ∃ o : Outcome β, step P t none f = (none, o) ∧ o.message? = none := by
      cases f with
      | start size =>
        have h0 : size = 0 := by simpa [Frame.Opens] using hf
        subst h0
        exact ⟨.rejected, rfl, rfl⟩
      | data item => exact ⟨.quiet, rfl, rfl⟩
      | finish c => exact ⟨.quiet, rfl, rfl⟩
      | other => exact ⟨.quiet, rfl, rfl⟩
    obtain ⟨o, ho, hm⟩ := hstep
    rw [run_cons, ho]
    refine ⟨hs.1, ?_⟩
    simpa [messages, hm] using hs.2

/-- A START that meets no expired session opens one of its own. -/
theorem step_start {t : τ} {s : Option (Session τ β)} {n : ℕ} (hs : timedOut P t s = false)
    (hn : n ≠ 0) :
    step P t s (.start n) = (some ⟨n, t, [], hn, Nat.zero_le _⟩, .quiet) := by
  obtain ⟨m, rfl⟩ := Nat.exists_eq_succ_of_ne_zero hn
  rw [step_of_not_timedOut P hs]
  cases s <;> rfl

/-- A whole transmission, with foreign frames anywhere inside it, is delivered at its END. -/
theorem run_transmission {s : Option (Session τ β)} {t₀ t₁ : τ} {p : List β}
    {body : List (τ × Frame β κ)} (hs : timedOut P t₀ s = false) (hp : p ≠ [])
    (hb : Body P t₀ body) (hitems : items body = p) (ht₁ : P.expired t₀ t₁ = false)
    (hroom : P.room p.length = true) :
    run P s ((t₀, .start p.length) :: body ++ [(t₁, .finish (P.check p))]) =
      (none, List.replicate (body.length + 1) .quiet ++ [.delivered p]) := by
  subst hitems
  have hlen : (items body).length ≠ 0 := by simpa using hp
  have hbody := run_body P ⟨(items body).length, t₀, [], hlen, Nat.zero_le _⟩ body hb (by simp)
  have hend : step P t₁ (some ⟨(items body).length, t₀, items body, hlen, Nat.le_refl _⟩)
      (.finish (P.check (items body))) = (none, .delivered (items body)) := by
    rw [step_of_not_timedOut P (by exact ht₁)]
    simp [onFrame, hroom]
  rw [List.cons_append, run_cons, step_start P hs hlen, run_append, hbody]
  simp [run_cons, hend, List.replicate_succ]

/-! ## Deliveries answer to the frames that came before -/

/-- An END behind at least `size` items whose first `size` items do not match its check value. -/
def Rewinds (size : ℕ) (received : List β) : Frame β κ → Prop
  | .finish c => size ≤ received.length ∧ P.check (received.take size) ≠ c
  | _ => False

instance (size : ℕ) (received : List β) (f : Frame β κ) : Decidable (Rewinds P size received f) := by
  unfold Rewinds
  split <;> infer_instance

/-- The frames after the last rewinding END, or all of them if there is none. -/
def window (size : ℕ) (fs : List (τ × Frame β κ)) : List (τ × Frame β κ) :=
  fs.foldl (fun w f => if Rewinds P size (items w) f.2 then [] else w ++ [f]) []

@[simp] theorem window_nil (size : ℕ) : window P size ([] : List (τ × Frame β κ)) = [] := rfl

theorem window_concat (size : ℕ) (fs : List (τ × Frame β κ)) (f : τ × Frame β κ) :
    window P size (fs ++ [f]) =
      if Rewinds P size (items (window P size fs)) f.2 then [] else window P size fs ++ [f] := by
  rw [window, List.foldl_append]
  rfl

private theorem concat_split {α : Type*} {l fs gs : List α} {x y : α}
    (h : l ++ [x] = fs ++ y :: gs) :
    (l = fs ∧ x = y) ∨ ∃ gs', l = fs ++ y :: gs' := by
  rcases List.eq_nil_or_concat gs with rfl | ⟨gs', z, rfl⟩
  · obtain ⟨hl, hx⟩ := List.append_inj' h rfl
    exact .inl ⟨hl, by simpa using hx⟩
  · have h' : l ++ [x] = (fs ++ y :: gs') ++ [z] := by simpa using h
    exact .inr ⟨gs', (List.append_inj' h' rfl).1⟩

/-- The window starts behind a rewinding END, if there is one, and holds none. -/
theorem window_split (size : ℕ) (fs : List (τ × Frame β κ)) :
    ∃ skipped, fs = skipped ++ window P size fs ∧
      (skipped = [] ∨ ∃ es e, skipped = es ++ [e] ∧ Rewinds P size (items (window P size es)) e.2) ∧
      ∀ es e gs, window P size fs = es ++ e :: gs → ¬ Rewinds P size (items es) e.2 := by
  induction fs using List.reverseRecOn with
  | nil => exact ⟨[], rfl, .inl rfl, by simp⟩
  | append_singleton fs f ih =>
    obtain ⟨skipped, hsplit, hmark, hnone⟩ := ih
    rw [window_concat]
    by_cases hr : Rewinds P size (items (window P size fs)) f.2
    · rw [if_pos hr]
      exact ⟨fs ++ [f], by simp, .inr ⟨fs, f, rfl, hr⟩, by simp⟩
    · rw [if_neg hr]
      refine ⟨skipped, by rw [← List.append_assoc, ← hsplit], hmark, fun es e gs he => ?_⟩
      rcases concat_split he with ⟨rfl, rfl⟩ | ⟨gs', he'⟩
      · exact hr
      · exact hnone es e gs' he'

/-- Every way a step can leave a session behind: its START, a rewinding END, or a frame
that at most adds its item. -/
theorem step_session {t : τ} {s : Option (Session τ β)} {f : Frame β κ} {u : Session τ β}
    (h : (step P t s f).1 = some u) :
    (f = .start u.size ∧ u.opened = t ∧ u.received = []) ∨
    ∃ v, s = some v ∧ ¬ f.Opens ∧ u.size = v.size ∧ u.opened = v.opened ∧
      (Rewinds P v.size v.received f ∧ u.received = [] ∨
        ¬ Rewinds P v.size v.received f ∧
          u.received = (v.received ++ f.item?.toList).take v.size) := by
  unfold step at h
  split at h
  · cases h
  rename_i hlive
  cases s with
  | none =>
    rcases f with (_ | n) | item | c | _ <;> cases h
    exact .inl ⟨rfl, rfl, rfl⟩
  | some v =>
    have hfull : v.received.take v.size = v.received := List.take_of_length_le v.fits
    rcases f with (_ | n) | item | c | _
    · cases h
      exact .inr ⟨u, rfl, by simp [Frame.Opens], rfl, rfl, .inr ⟨not_false, by simp [Frame.item?, hfull]⟩⟩
    · cases h
      exact .inl ⟨rfl, rfl, rfl⟩
    · refine .inr ⟨v, rfl, by simp [Frame.Opens], ?_⟩
      simp only [onFrame] at h
      split at h
      · rename_i hroom
        cases h
        refine ⟨rfl, rfl, .inr ⟨not_false, ?_⟩⟩
        exact (List.take_of_length_le (by simp; omega)).symm
      · rename_i hroom
        cases h
        refine ⟨rfl, rfl, .inr ⟨not_false, ?_⟩⟩
        rw [List.take_append_of_le_length (by omega), hfull]
    · refine .inr ⟨v, rfl, by simp [Frame.Opens], ?_⟩
      simp only [onFrame] at h
      split at h
      · rename_i hshort
        cases h
        refine ⟨rfl, rfl, .inr ⟨fun hr => hshort (Nat.le_antisymm u.fits hr.1), ?_⟩⟩
        simp [Frame.item?, hfull]
      · rename_i hlen
        split at h
        · rename_i hcheck
          cases h
          rw [not_not] at hlen
          refine ⟨rfl, rfl, .inl ⟨⟨Nat.le_of_eq hlen.symm, ?_⟩, rfl⟩⟩
          rwa [hfull]
        · split at h <;> cases h
    · cases h
      exact .inr ⟨u, rfl, by simp [Frame.Opens], rfl, rfl, .inr ⟨not_false, by simp [Frame.item?, hfull]⟩⟩

/-- A delivery is the END of a full live session whose check value it carries. -/
theorem step_delivered {t : τ} {s : Option (Session τ β)} {f : Frame β κ} {p : List β}
    (h : (step P t s f).2 = .delivered p) :
    ∃ v, s = some v ∧ P.expired v.opened t = false ∧ v.received = p ∧ v.received.length = v.size ∧
      f = .finish (P.check p) ∧ P.room v.size = true ∧ (step P t s f).1 = none := by
  unfold step at h ⊢
  split at h
  · cases h
  rename_i hlive
  cases s with
  | none => rcases f with (_ | n) | item | c | _ <;> cases h
  | some v =>
    have hv : P.expired v.opened t = false := by simpa [timedOut] using hlive
    rcases f with (_ | n) | item | c | _
    · cases h
    · cases h
    · simp only [onFrame] at h
      split at h <;> cases h
    · simp only [onFrame] at h ⊢
      split at h
      · cases h
      rename_i hlen
      split at h
      · cases h
      rename_i hcheck
      split at h
      · rename_i hroom
        cases h
        rw [not_not] at hlen hcheck
        exact ⟨v, rfl, hv, rfl, hlen, by rw [hcheck], hroom, by simp [hlive, hlen, hcheck, hroom]⟩
      · cases h
    · cases h

/-- What a session goes back to: its START, no START or delivery after that, and the items
received since the last rewinding END, or since the START. -/
structure History (h : List (τ × Frame β κ)) (s : Session τ β)
    (before after : List (τ × Frame β κ)) : Prop where
  split : h = before ++ (s.opened, .start s.size) :: after
  no_start : ∀ f ∈ after, ¬ f.2.Opens
  no_delivery : ∀ fs f gs, after = fs ++ f :: gs →
    (step P f.1 (run P none (before ++ (s.opened, .start s.size) :: fs)).1 f.2).2.message? = none
  received : s.received = (items (window P s.size after)).take s.size

theorem message?_of_session {t : τ} {s : Option (Session τ β)} {f : Frame β κ} {u : Session τ β}
    (h : (step P t s f).1 = some u) : (step P t s f).2.message? = none := by
  cases ho : (step P t s f).2 with
  | quiet => rfl
  | rejected => rfl
  | delivered p =>
    obtain ⟨_, _, _, _, _, _, _, hnone⟩ := step_delivered P ho
    rw [hnone] at h
    cases h

/-- Adding items to a truncated list and truncating it again. -/
theorem take_take_append (n : ℕ) (l m : List β) : (l.take n ++ m).take n = (l ++ m).take n := by
  rw [List.take_append, List.take_append, List.take_take, List.length_take, Nat.min_self]
  congr 2
  omega

omit [DecidableEq κ] in
theorem rewinds_take (size : ℕ) (received : List β) (f : Frame β κ) :
    Rewinds P size (received.take size) f ↔ Rewinds P size received f := by
  cases f with
  | finish c =>
    have hlen : size ≤ (received.take size).length ↔ size ≤ received.length := by
      rw [List.length_take]
      omega
    simp only [Rewinds, hlen, List.take_take, Nat.min_self]
  | _ => exact Iff.rfl

/-- A frame that keeps the session extends its history. -/
theorem History.concat {h before after : List (τ × Frame β κ)} {v u : Session τ β} {t : τ}
    {f : Frame β κ} (hist : History P h v before after) (hrun : (run P none h).1 = some v)
    (hstep : (step P t (some v) f).1 = some u) (hsize : u.size = v.size)
    (hopened : u.opened = v.opened) (hf : ¬ f.Opens)
    (hkind : Rewinds P v.size v.received f ∧ u.received = [] ∨
      ¬ Rewinds P v.size v.received f ∧ u.received = (v.received ++ f.item?.toList).take v.size) :
    History P (h ++ [(t,f)]) u before (after ++ [(t,f)]) where
  split := by simp [hist.split, hsize, hopened]
  no_start := by
    intro g hg
    rcases List.mem_append.mp hg with hg | hg
    · exact hist.no_start g hg
    · obtain rfl : g = (t,f) := by simpa using hg
      exact hf
  no_delivery := by
    intro fs g gs hsplit
    rw [hsize, hopened]
    rcases concat_split hsplit with ⟨rfl, rfl⟩ | ⟨gs', hold⟩
    · rw [← hist.split, hrun]
      exact message?_of_session P hstep
    · exact hist.no_delivery fs g gs' hold
  received := by
    rw [hist.received, rewinds_take] at hkind
    rw [hsize, window_concat]
    rcases hkind with ⟨hr, hu⟩ | ⟨hr, hu⟩
    · rw [if_pos hr, hu, items_nil, List.take_nil]
    · rw [if_neg hr, hu, take_take_append, items_append, items_cons, items_nil, List.append_nil]

/-- Every open session answers to a stretch of the frames that were fed. -/
theorem run_history {h : List (τ × Frame β κ)} {s : Session τ β} (hrun : (run P none h).1 = some s) :
    ∃ before after, History P h s before after := by
  induction h using List.reverseRecOn generalizing s with
  | nil => cases hrun
  | append_singleton h f ih =>
    obtain ⟨t, f⟩ := f
    rw [run_concat] at hrun
    rcases step_session P hrun with ⟨rfl, rfl, hr⟩ | ⟨v, hv, hf, hsize, hopened, hkind⟩
    · exact ⟨h, [], rfl, by simp, by simp, by simp [hr]⟩
    · obtain ⟨before, after, hist⟩ := ih hv
      rw [hv] at hrun
      exact ⟨before, after ++ [(t,f)], hist.concat P hv hrun hsize hopened hf hkind⟩

/-! ## What a session has collected by a given frame -/

/-- A frame that closes a live session is its END with the right check value. -/
theorem step_closed {t : τ} {v : Session τ β} {f : Frame β κ} (hlive : P.expired v.opened t = false)
    (h : (step P t (some v) f).1 = none) :
    f = .finish (P.check v.received) ∧ v.received.length = v.size ∧
      (P.room v.size = true → (step P t (some v) f).2 = .delivered v.received) := by
  rw [step_of_not_timedOut P (by exact hlive)] at h ⊢
  rcases f with (_ | n) | item | c | _
  · cases h
  · cases h
  · simp only [onFrame] at h
    split at h <;> cases h
  · simp only [onFrame] at h ⊢
    split at h
    · cases h
    rename_i hlen
    split at h
    · cases h
    rename_i hcheck
    rw [not_not] at hlen hcheck
    rw [hcheck]
    refine ⟨rfl, hlen, fun hroom => ?_⟩
    simp [hlen, hroom]
  · cases h

theorem mem_messages_iff {s : Option (Session τ β)} {h : List (τ × Frame β κ)} {p : List β} :
    p ∈ messages (run P s h).2 ↔
      ∃ fs f gs, h = fs ++ f :: gs ∧ (step P f.1 (run P s fs).1 f.2).2 = .delivered p := by
  constructor
  · intro hp
    induction h generalizing s with
    | nil => simp [messages] at hp
    | cons f h ih =>
      rcases f with ⟨t, f⟩
      rw [run_cons, messages, List.filterMap_cons] at hp
      cases hm : (step P t s f).2.message? with
      | none =>
        rw [hm] at hp
        obtain ⟨fs, g, gs, rfl, hg⟩ := ih hp
        exact ⟨(t, f) :: fs, g, gs, rfl, hg⟩
      | some q =>
        rw [hm] at hp
        rcases List.mem_cons.mp hp with rfl | hp
        · refine ⟨[], (t, f), h, rfl, ?_⟩
          cases ho : (step P t s f).2 with
          | delivered q =>
            rw [ho] at hm
            cases hm
            exact ho
          | _ =>
            rw [ho] at hm
            cases hm
        · obtain ⟨fs, g, gs, rfl, hg⟩ := ih hp
          exact ⟨(t, f) :: fs, g, gs, rfl, hg⟩
  · rintro ⟨fs, ⟨t, f⟩, gs, rfl, hf⟩
    rw [run_append, messages_append, run_cons, messages, messages, List.filterMap_cons]
    apply List.mem_append_right
    rw [hf]
    exact List.mem_cons_self

/-- Until the next START, a session holds the first items of its window, or an END among the
frames has closed it with the items of its window there. -/
theorem run_window {n : ℕ} (hn : n ≠ 0) {t : τ} {fs : List (τ × Frame β κ)}
    (hno : ∀ f ∈ fs, ¬ f.2.Opens) (hlive : ∀ f ∈ fs, P.expired t f.1 = false) :
    (∃ u, (run P (some ⟨n, t, [], hn, Nat.zero_le _⟩) fs).1 = some u ∧ u.size = n ∧ u.opened = t ∧
      u.received = (items (window P n fs)).take n) ∨
    ∃ es e gs, fs = es ++ e :: gs ∧ n ≤ (items (window P n es)).length ∧
      e.2 = .finish (P.check ((items (window P n es)).take n)) ∧
      (P.room n = true → (step P e.1 (run P (some ⟨n, t, [], hn, Nat.zero_le _⟩) es).1 e.2).2 =
        .delivered ((items (window P n es)).take n)) := by
  induction fs using List.reverseRecOn with
  | nil => exact .inl ⟨_, rfl, rfl, rfl, by simp⟩
  | append_singleton fs f ih =>
    rcases f with ⟨r, f⟩
    have hno' : ∀ g ∈ fs, ¬ g.2.Opens := fun g hg => hno g (List.mem_append_left _ hg)
    have hlive' : ∀ g ∈ fs, P.expired t g.1 = false := fun g hg => hlive g (List.mem_append_left _ hg)
    rcases ih hno' hlive' with ⟨u, hu, hsize, hopened, hrecv⟩ | ⟨es, e, gs, rfl, hlen, he, hdone⟩
    · rw [run_concat, hu]
      cases hs : (step P r (some u) f).1 with
      | some w =>
        rcases step_session P hs with ⟨rfl, -, -⟩ | ⟨v, hv, -, hw, hwo, hkind⟩
        · exact absurd w.size_ne (hno (r, .start w.size) (by simp))
        · cases hv
          refine .inl ⟨w, rfl, hw.trans hsize, hwo.trans hopened, ?_⟩
          rw [hrecv, hsize, rewinds_take] at hkind
          rw [window_concat]
          rcases hkind with ⟨hr, hw⟩ | ⟨hr, hw⟩
          · rw [if_pos hr, hw, items_nil, List.take_nil]
          · rw [if_neg hr, hw, take_take_append, items_append, items_cons, items_nil, List.append_nil]
      | none =>
        have hnow : P.expired u.opened r = false := by
          rw [hopened]
          exact hlive (r, f) (by simp)
        obtain ⟨hf, hfull, hroom⟩ := step_closed P hnow hs
        rw [hrecv, hsize, List.length_take] at hfull
        refine .inr ⟨fs, (r, f), [], rfl, by omega, ?_, ?_⟩
        · rw [← hrecv]
          exact hf
        · rw [hu, ← hrecv, ← hsize]
          exact hroom
    · exact .inr ⟨es, e, gs ++ [(r, f)], by simp, hlen, he, hdone⟩

/-- Without a START or an END a session keeps adding up to its size, or expires. -/
theorem run_data {v : Session τ β} {fs : List (τ × Frame β κ)} (hno : ∀ f ∈ fs, ¬ f.2.Opens)
    (hend : ∀ f ∈ fs, ∀ c, f.2 ≠ .finish c) {u : Session τ β} (hu : (run P (some v) fs).1 = some u) :
    u.size = v.size ∧ u.received = (v.received ++ items fs).take v.size := by
  induction fs using List.reverseRecOn generalizing u with
  | nil =>
    cases hu
    rw [items_nil, List.append_nil, List.take_of_length_le v.fits]
    exact ⟨rfl, rfl⟩
  | append_singleton fs f ih =>
    rcases f with ⟨t, f⟩
    rw [run_concat] at hu
    rcases step_session P hu with ⟨rfl, -, -⟩ | ⟨w, hw, -, hsize, -, hkind⟩
    · exact absurd u.size_ne (hno (t, .start u.size) (by simp))
    · obtain ⟨hwsize, hwrecv⟩ := ih (fun g hg => hno g (List.mem_append_left _ hg))
        (fun g hg => hend g (List.mem_append_left _ hg)) hw
      refine ⟨hsize.trans hwsize, ?_⟩
      rcases hkind with ⟨hr, -⟩ | ⟨-, hrecv⟩
      · cases f with
        | finish c => exact absurd rfl (hend (t, .finish c) (by simp) c)
        | _ => exact hr.elim
      · rw [hrecv, hwrecv, hwsize, take_take_append, items_append, items_cons, items_nil,
          List.append_nil, List.append_assoc]

/-- What can be delivered behind a START and DATA frames is the items of those frames. -/
theorem delivered_items {h body : List (τ × Frame β κ)} {t r : τ} {n : ℕ} {f : Frame β κ} {p : List β}
    (hn : n ≠ 0) (hno : ∀ g ∈ body, ¬ g.2.Opens) (hend : ∀ g ∈ body, ∀ c, g.2 ≠ .finish c)
    (hp : (step P r (run P none (h ++ (t, .start n) :: body)).1 f).2 = .delivered p) :
    p = (items body).take n := by
  obtain ⟨v, hv, -, rfl, -⟩ := step_delivered P hp
  rw [run_append, run_cons] at hv
  by_cases hlive : timedOut P t (run P none h).1 = true
  · have hdrop : (step P t (run P none h).1 (.start n)).1 = none := by rw [step, if_pos hlive]
    rw [hdrop, (run_idle P body hno).1] at hv
    cases hv
  · rw [step_start P (Bool.eq_false_iff.mpr hlive) hn] at hv
    exact (run_data P hno hend hv).2

/-- Once its first items match, ENDs with their check value leave a window alone. -/
theorem window_append_of_match {n : ℕ} {es gs : List (τ × Frame β κ)}
    (hlen : n ≤ (items (window P n es)).length)
    (hgs : ∀ f ∈ gs, ∀ c, f.2 = .finish c → c = P.check ((items (window P n es)).take n)) :
    window P n (es ++ gs) = window P n es ++ gs := by
  induction gs using List.reverseRecOn with
  | nil => simp
  | append_singleton gs f ih =>
    have hrest := ih fun g hg => hgs g (List.mem_append_left _ hg)
    have hnot : ¬ Rewinds P n (items (window P n es ++ gs)) f.2 := by
      rcases f with ⟨r, f⟩
      cases f with
      | finish c =>
        rintro ⟨-, hbad⟩
        rw [items_append, List.take_append_of_le_length hlen] at hbad
        exact hbad (hgs (r, .finish c) (by simp) c rfl).symm
      | _ => exact not_false
    rw [← List.append_assoc, window_concat, hrest, if_neg hnot, List.append_assoc]

/-- Where every END carries the check value of the first items of the window, these items are
delivered, at the last END or at one before it. -/
theorem run_delivers {n : ℕ} (hn : n ≠ 0) {t r : τ} {fs : List (τ × Frame β κ)} {c : κ}
    (hno : ∀ f ∈ fs, ¬ f.2.Opens) (hlive : ∀ f ∈ fs, P.expired t f.1 = false)
    (hr : P.expired t r = false) (hends : ∀ f ∈ fs, ∀ d, f.2 = .finish d → d = c)
    (hlen : n ≤ (items (window P n fs)).length)
    (hcheck : P.check ((items (window P n fs)).take n) = c) (hroom : P.room n = true) :
    (items (window P n fs)).take n ∈
      messages (run P (some ⟨n, t, [], hn, Nat.zero_le _⟩) (fs ++ [(r, .finish c)])).2 := by
  rw [mem_messages_iff]
  rcases run_window P hn hno hlive with ⟨u, hu, rfl, rfl, hrecv⟩ | ⟨es, e, gs, rfl, hes, he, hdone⟩
  · refine ⟨fs, (r, .finish c), [], rfl, ?_⟩
    have hfull : u.received.length = u.size := by
      rw [hrecv, List.length_take, Nat.min_eq_left hlen]
    rw [← hrecv] at hcheck ⊢
    rw [hu, step_of_not_timedOut P (by exact hr)]
    simp [onFrame, hfull, hcheck, hroom]
  · have hsame : ∀ f ∈ e :: gs, ∀ d, f.2 = .finish d →
        d = P.check ((items (window P n es)).take n) := by
      intro f hf d hd
      rw [hends f (List.mem_append_right _ hf) d hd]
      exact (hends e (by simp) _ he).symm
    rw [window_append_of_match P hes hsame, items_append, List.take_append_of_le_length hes]
    exact ⟨es, e, gs ++ [(r, .finish c)], by simp, hdone hroom⟩

/-- Between two STARTs at most one message is delivered. -/
theorem messages_length_le_one (s : Option (Session τ β)) {fs : List (τ × Frame β κ)}
    (hno : ∀ f ∈ fs, ¬ f.2.Opens) : (messages (run P s fs).2).length ≤ 1 := by
  induction fs generalizing s with
  | nil => exact Nat.zero_le _
  | cons f fs ih =>
    rcases f with ⟨t, f⟩
    have hrest : ∀ g ∈ fs, ¬ g.2.Opens := fun g hg => hno g (List.mem_cons_of_mem _ hg)
    rw [run_cons, messages, List.filterMap_cons]
    cases ho : (step P t s f).2 with
    | delivered q =>
      rcases step_delivered P ho with ⟨v, -, -, -, -, -, -, hclosed⟩
      have hidle := (run_idle P fs hrest).2
      rw [messages] at hidle
      simp [hclosed, Outcome.message?, hidle]
    | quiet => exact ih _ hrest
    | rejected => exact ih _ hrest

/-- A fresh session delivers before the next START if and only if an END finds the first items of
its window complete and with its check value. -/
theorem delivers_iff {n : ℕ} (hn : n ≠ 0) {t : τ} {fs : List (τ × Frame β κ)} {c : κ}
    (hno : ∀ f ∈ fs, ¬ f.2.Opens) (hlive : ∀ f ∈ fs, P.expired t f.1 = false)
    (hends : ∀ f ∈ fs, ∀ d, f.2 = .finish d → d = c) (hroom : P.room n = true) :
    messages (run P (some ⟨n, t, [], hn, Nat.zero_le _⟩) fs).2 ≠ [] ↔
      ∃ es e gs, fs = es ++ e :: gs ∧ e.2 = .finish c ∧ n ≤ (items (window P n es)).length ∧
        P.check ((items (window P n es)).take n) = c := by
  constructor
  · intro hne
    rcases List.exists_mem_of_ne_nil _ hne with ⟨q, hq⟩
    rcases (mem_messages_iff P).mp hq with ⟨fs, f, gs, rfl, hdel⟩
    have hno' : ∀ g ∈ fs, ¬ g.2.Opens := fun g hg => hno g (List.mem_append_left _ hg)
    have hlive' : ∀ g ∈ fs, P.expired t g.1 = false := fun g hg => hlive g (List.mem_append_left _ hg)
    rcases run_window P hn hno' hlive' with ⟨u, hu, rfl, -, hrecv⟩ | ⟨es, e, gs', rfl, hlen, he, -⟩
    · rcases step_delivered P hdel with ⟨v, hv, -, rfl, hfull, hf, -, -⟩
      cases hu.symm.trans hv
      have hc := hends f (by simp) _ hf
      rw [hrecv, List.length_take] at hfull
      exact ⟨fs, f, gs, rfl, hc ▸ hf, by omega, hrecv ▸ hc⟩
    · have hc := hends e (by simp) _ he
      exact ⟨es, e, gs' ++ f :: gs, by simp, hc ▸ he, hlen, hc⟩
  · rintro ⟨es, ⟨r, e⟩, gs, rfl, rfl, hlen, hcheck⟩ hnil
    have hdel := run_delivers P hn (fun f hf => hno f (List.mem_append_left _ hf))
      (fun f hf => hlive f (List.mem_append_left _ hf)) (hlive (r, .finish c) (by simp))
      (fun f hf => hends f (List.mem_append_left _ hf)) hlen hcheck hroom
    rw [← List.singleton_append, ← List.append_assoc, run_append, messages_append,
      List.append_eq_nil_iff] at hnil
    rw [hnil.1] at hdel
    cases hdel

/-! ## A single transmission, whatever came before -/

/-- The session behind a START and DATA frames, if there is one, is theirs. -/
theorem run_start_data {s : Option (Session τ β)} {t : τ} {n : ℕ} (hn : n ≠ 0)
    {body : List (τ × Frame β κ)} (hno : ∀ f ∈ body, ¬ f.2.Opens)
    (hend : ∀ f ∈ body, ∀ c, f.2 ≠ .finish c) {v : Session τ β}
    (hv : (run P s ((t, .start n) :: body)).1 = some v) :
    v.size = n ∧ v.received = (items body).take n := by
  rw [run_cons] at hv
  by_cases hlive : timedOut P t s = true
  · have hdrop : (step P t s (.start n)).1 = none := by rw [step, if_pos hlive]
    rw [hdrop, (run_idle P body hno).1] at hv
    cases hv
  · rw [step_start P (Bool.eq_false_iff.mpr hlive) hn] at hv
    exact run_data P hno hend hv

/-- What a single transmission can deliver is the items behind its START. -/
theorem mem_messages_single {s : Option (Session τ β)} {t : τ} {n : ℕ} (hn : n ≠ 0)
    {body last : List (τ × Frame β κ)} (hno : ∀ f ∈ body, ¬ f.2.Opens)
    (hend : ∀ f ∈ body, ∀ c, f.2 ≠ .finish c) (hlast : last.length ≤ 1) {p : List β}
    (hp : p ∈ messages (run P s ((t, .start n) :: body ++ last)).2) :
    p = (items body).take n ∧ p.length = n := by
  obtain ⟨fs, f, gs, hsplit, hdel⟩ := (mem_messages_iff P).mp hp
  obtain ⟨v, hv, -, rfl, hfull, hf, -⟩ := step_delivered P hdel
  -- only the last frame can be an END
  have hmem : f ∉ (t, .start n) :: body := by
    intro hin
    rcases List.mem_cons.mp hin with rfl | hin
    · cases hf
    · exact hend f hin _ hf
  have hfs : fs = (t, .start n) :: body := by
    rcases List.append_eq_append_iff.mp hsplit with ⟨as, rfl, hlast'⟩ | ⟨cs, hcs, hgs⟩
    · have has : as = [] := by
        rw [hlast', List.length_append, List.length_cons] at hlast
        exact List.length_eq_zero_iff.mp (by omega)
      rw [has, List.append_nil]
    · cases cs with
      | nil => simpa using hcs.symm
      | cons c cs =>
        obtain rfl : f = c := (List.cons.inj hgs).1
        exact absurd (by rw [hcs]; simp) hmem
  rw [hfs] at hv
  obtain ⟨hsize, hrecv⟩ := run_start_data P hn hno hend hv
  exact ⟨hrecv, hfull.trans hsize⟩

/-- From any state a START, DATA frames and at most one more frame deliver nothing, or once the items
of the DATA frames, as many as the START has announced. -/
theorem messages_single (s : Option (Session τ β)) {t : τ} {n : ℕ} (hn : n ≠ 0)
    {body last : List (τ × Frame β κ)} (hno : ∀ f ∈ body ++ last, ¬ f.2.Opens)
    (hend : ∀ f ∈ body, ∀ c, f.2 ≠ .finish c) (hlast : last.length ≤ 1) :
    messages (run P s ((t, .start n) :: body ++ last)).2 = [] ∨
      ((items body).take n).length = n ∧
        messages (run P s ((t, .start n) :: body ++ last)).2 = [(items body).take n] := by
  have hmem (p : List β) (hp : p ∈ messages (run P s ((t, .start n) :: body ++ last)).2) :=
    mem_messages_single P hn (fun f hf => hno f (List.mem_append_left _ hf)) hend hlast hp
  have hone : (messages (run P s ((t, .start n) :: body ++ last)).2).length ≤ 1 := by
    have hquiet : (step P t s (.start n)).2.message? = none := by
      cases ho : (step P t s (.start n)).2 with
      | delivered p =>
        obtain ⟨v, -, -, -, -, hf, -⟩ := step_delivered P ho
        cases hf
      | _ => rfl
    rw [List.cons_append, run_cons, messages_cons, hquiet]
    exact messages_length_le_one P _ hno
  cases hms : messages (run P s ((t, .start n) :: body ++ last)).2 with
  | nil => exact .inl rfl
  | cons p ms =>
    rw [hms] at hmem hone
    obtain ⟨hp, hlen⟩ := hmem p (by simp)
    have hnil : ms = [] := List.length_eq_zero_iff.mp (by simpa using hone)
    exact .inr ⟨hp ▸ hlen, by rw [hnil, hp]⟩

/-- Of the frames of one transmission, any of which may be lost, an idle reassembler makes nothing or
the message. -/
theorem messages_of_sublist {ms : List β} (hms : ms ≠ []) {c : κ} {fs : List (τ × Frame β κ)}
    (hsub : (fs.map Prod.snd).Sublist (.start ms.length :: ms.map .data ++ [.finish c])) :
    messages (run P none fs).2 = [] ∨ messages (run P none fs).2 = [ms] := by
  have hrest (f : Frame β κ) (hf : f ∈ ms.map Frame.data ++ [.finish c]) : ¬ f.Opens := by
    rcases List.mem_append.mp hf with hf | hf
    · obtain ⟨b, -, rfl⟩ := List.mem_map.mp hf
      exact not_false
    · obtain rfl := List.mem_singleton.mp hf
      exact not_false
  rw [List.cons_append, List.sublist_cons_iff] at hsub
  rcases hsub with hlost | ⟨gs, hgs, htail⟩
  · exact .inl (run_idle P fs fun f hf => hrest f.2 (hlost.subset (List.mem_map_of_mem hf))).2
  obtain ⟨⟨t, start⟩, rest, rfl, rfl, rfl⟩ := List.map_eq_cons_iff.mp hgs
  obtain ⟨bs, es, hsplit, hbs, hes⟩ := List.sublist_append_iff.mp htail
  obtain ⟨body, last, rfl, rfl, rfl⟩ := List.map_eq_append_iff.mp hsplit
  have hbody (f : τ × Frame β κ) (hf : f ∈ body) : ∃ b, f.2 = .data b := by
    obtain ⟨b, -, hb⟩ := List.mem_map.mp (hbs.subset (List.mem_map_of_mem hf))
    exact ⟨b, hb.symm⟩
  have hitems : (items body).Sublist ms := by
    obtain ⟨l, hl, hmap⟩ := List.sublist_map_iff.mp hbs
    rwa [items_of_data hmap]
  have hno : ∀ f ∈ body ++ last, ¬ f.2.Opens := by
    refine List.forall_mem_append.mpr ⟨fun f hf => ?_, fun f hf => ?_⟩
    · obtain ⟨b, hb⟩ := hbody f hf
      rw [hb]
      exact not_false
    · exact hrest f.2 (List.mem_append_right _ (hes.subset (List.mem_map_of_mem hf)))
  have hend : ∀ f ∈ body, ∀ d, f.2 ≠ .finish d := by
    intro f hf d hd
    obtain ⟨b, hb⟩ := hbody f hf
    rw [hb] at hd
    cases hd
  have hone : last.length ≤ 1 := by simpa using hes.length_le
  rcases messages_single P none (t := t) (mt List.length_eq_zero_iff.mp hms) hno hend hone with
    hnone | ⟨hfull, hgot⟩
  · exact .inl hnone
  · rw [List.length_take] at hfull
    have hall := hitems.eq_of_length_le (by omega)
    rw [hall, List.take_length] at hgot
    exact .inr hgot

end InfraFi.Base.Reassembly
