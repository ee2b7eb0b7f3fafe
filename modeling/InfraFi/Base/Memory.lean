import InfraFi.Base.CString

/-! # Checked access to byte objects

Reading or writing outside an object has no result: the computation stops with
a fault. A loop that has not finished within the fuel it was given stops too,
for a different reason.
-/
namespace InfraFi.Base

inductive Stop where
  | fault
  | fuel
deriving DecidableEq

abbrev Exec := Except Stop

@[simp] theorem Exec.pure_eq {α : Type} (a : α) : (pure a : Exec α) = .ok a := rfl

@[simp] theorem Exec.ok_bind {α β : Type} (a : α) (f : α → Exec β) :
    ((.ok a : Exec α) >>= f) = f a := rfl

@[simp] theorem Exec.error_bind {α β : Type} (e : Stop) (f : α → Exec β) :
    ((.error e : Exec α) >>= f) = .error e := rfl

theorem Exec.map_ne_error {α β : Type} {x : Exec α} {f : α → β} {e : Stop} (h : x ≠ .error e) :
    (do return f (← x)) ≠ .error e := by
  cases x with
  | error e' => exact fun he => h (by injection he with he; rw [he])
  | ok a => simp

/-- Every value that is returned has the property. -/
def Yields {α : Type} (x : Exec α) (P : α → Prop) : Prop := ∀ a, x = .ok a → P a

section Yields
variable {α β : Type} {P : α → Prop} {Q : β → Prop} {x : Exec α} {f : α → Exec β}

theorem Yields.ok {a : α} (h : P a) : Yields (.ok a) P := by
  rintro _ ⟨⟩
  exact h

theorem Yields.error {e : Stop} : Yields (.error e) P := by
  rintro _ ⟨⟩

theorem Yields.bind (hx : Yields x P) (hf : ∀ a, P a → Yields (f a) Q) : Yields (x >>= f) Q := by
  cases hv : x with
  | error e => exact .error
  | ok a => exact hf a (hx a hv)

/-- A value that only decides how to go on. -/
theorem Yields.bind_any (hf : ∀ a, Yields (f a) Q) : Yields (x >>= f) Q := by
  cases x with
  | error e => exact .error
  | ok a => exact hf a

theorem Yields.ite {c : Prop} [Decidable c] {y : Exec α} (hx : Yields x P) (hy : Yields y P) :
    Yields (if c then x else y) P := by
  split
  · exact hx
  · exact hy

end Yields

def load (buf : Bytes) (i : ℕ) : Exec UInt8 :=
  match buf[i]? with
  | some b => .ok b
  | none => .error .fault

/-- The `n` bytes from offset `i` on, as `memcpy` and `memcmp` read them. -/
def loadBytes (buf : Bytes) (i n : ℕ) : Exec Bytes :=
  if i + n ≤ buf.length then .ok ((buf.drop i).take n) else .error .fault

def store (buf : Bytes) (i : ℕ) (b : UInt8) : Exec Bytes :=
  if i < buf.length then .ok (buf.set i b) else .error .fault

def storeBytes (buf : Bytes) (i : ℕ) (src : Bytes) : Exec Bytes :=
  if i + src.length ≤ buf.length then .ok (buf.take i ++ src ++ buf.drop (i + src.length))
  else .error .fault

theorem load_of_le {buf : Bytes} {i : ℕ} (h : buf.length ≤ i) : load buf i = .error .fault := by
  simp [load, List.getElem?_eq_none h]

/-- Writing at the border between what is written and what is not. -/
theorem store_append (done rest : Bytes) (r b : UInt8) :
    store (done ++ r :: rest) done.length b = .ok (done ++ b :: rest) := by
  simp [store]

theorem storeBytes_append (done rest src : Bytes) (pos : ℕ) (hpos : done.length = pos)
    (h : src.length ≤ rest.length) :
    storeBytes (done ++ rest) pos src = .ok (done ++ src ++ rest.drop src.length) := by
  subst hpos
  simp [storeBytes, h, List.drop_append]

theorem store_of_lt (buf : Bytes) {i : ℕ} (b : UInt8) (h : i < buf.length) :
    store buf i b = .ok (buf.set i b) := if_pos h

theorem storeBytes_of_le (buf : Bytes) (i : ℕ) (src : Bytes) (h : i + src.length ≤ buf.length) :
    ∃ buf', storeBytes buf i src = .ok buf' ∧ buf'.length = buf.length := by
  refine ⟨_, if_pos h, ?_⟩
  simp only [List.length_append, List.length_take, List.length_drop]
  omega

/-! ## Segments -/

/-- `bs` lies at offset `i` of `buf`. -/
def LiesAt (buf : Bytes) (i : ℕ) (bs : Bytes) : Prop :=
  ∃ before after : Bytes, buf = before ++ (bs ++ after) ∧ before.length = i

namespace LiesAt
variable {buf : Bytes} {i : ℕ} {b : UInt8} {bs cs : Bytes}

theorem end_le (h : LiesAt buf i bs) : i + bs.length ≤ buf.length := by
  rcases h with ⟨before, rest, rfl, rfl⟩
  simp

theorem take (h : LiesAt buf i bs) : (buf.drop i).take bs.length = bs := by
  rcases h with ⟨before, rest, rfl, rfl⟩
  simp

theorem getD (h : LiesAt buf i (b :: bs)) : buf.getD i 0 = b := by
  rcases h with ⟨before, rest, rfl, rfl⟩
  simp

theorem left (h : LiesAt buf i (bs ++ cs)) : LiesAt buf i bs := by
  rcases h with ⟨before, rest, rfl, rfl⟩
  exact ⟨before, cs ++ rest, by simp, rfl⟩

theorem right (h : LiesAt buf i (bs ++ cs)) : LiesAt buf (i + bs.length) cs := by
  rcases h with ⟨before, rest, rfl, rfl⟩
  exact ⟨before ++ bs, rest, by simp, List.length_append⟩

theorem tail (h : LiesAt buf i (b :: bs)) : LiesAt buf (i + 1) bs := by
  rcases h with ⟨before, rest, rfl, rfl⟩
  exact ⟨before ++ [b], rest, by simp, by simp⟩

end LiesAt
end InfraFi.Base
