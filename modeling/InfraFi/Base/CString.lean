import Mathlib.Data.List.Basic
import Mathlib.Data.List.TakeWhile
import Mathlib.Tactic.Common

/-! # Byte strings as a C program sees them

A C string is the part of a byte buffer before its first NUL. `CString n` is a
string that fits, with its terminator, in a `char` array of `n + 1` bytes. The
bounded library calls (`snprintf`, `fgets`) are given by what they leave in
the destination buffer.
-/
namespace InfraFi.Base

abbrev Bytes := List UInt8

/-- The bytes of an ASCII source literal. -/
def ascii (s : String) : Bytes := s.toList.map (fun c => UInt8.ofNat c.toNat)

/-- What a C function reads from a buffer: the bytes before the first NUL. -/
def cstr (b : Bytes) : Bytes := b.takeWhile (· ≠ 0)

theorem zero_notMem_cstr (b : Bytes) : 0 ∉ cstr b := by
  intro h
  simpa using List.mem_takeWhile_imp h

theorem cstr_length_le (b : Bytes) : (cstr b).length ≤ b.length :=
  (List.takeWhile_prefix _).length_le

theorem cstr_of_notMem {b : Bytes} (h : 0 ∉ b) : cstr b = b := by
  refine List.takeWhile_eq_self_iff.mpr fun x hx => ?_
  have hx0 : x ≠ 0 := fun he => h (he ▸ hx)
  simpa using hx0

theorem cstr_eq_self_iff {b : Bytes} : cstr b = b ↔ 0 ∉ b := by
  constructor
  · intro h
    rw [← h]
    exact zero_notMem_cstr b
  · exact cstr_of_notMem

theorem cstr_terminated {b : Bytes} (h : 0 ∉ b) (rest : Bytes) : cstr (b ++ 0 :: rest) = b := by
  have hall : ∀ x ∈ b, decide (x ≠ 0) = true := by
    intro x hx
    have hx0 : x ≠ 0 := fun he => h (he ▸ hx)
    simpa using hx0
  rw [cstr, List.takeWhile_append_of_pos hall]
  simp

/-- A terminator at index `n` hides what is behind it. -/
theorem cstr_take {b : Bytes} {n : ℕ} (h : b[n]? = some 0) : cstr (b.take n) = cstr b := by
  induction b generalizing n with
  | nil => rw [List.take_nil]
  | cons c b ih =>
    cases n with
    | zero =>
      obtain rfl : c = 0 := by simpa using h
      rfl
    | succ n =>
      have hrest := ih (n := n) (by simpa using h)
      simp only [cstr] at hrest
      simp only [cstr, List.take_succ_cons, List.takeWhile_cons, hrest]

/-- A text without a NUL at the start of a buffer is read whole. -/
theorem prefix_cstr_iff {text b : Bytes} (h : 0 ∉ text) : text <+: cstr b ↔ text <+: b := by
  constructor
  · exact fun hp => hp.trans (List.takeWhile_prefix _)
  · rintro ⟨rest, rfl⟩
    have hall : ∀ x ∈ text, decide (x ≠ 0) = true := by
      intro x hx
      have hx0 : x ≠ 0 := fun he => h (he ▸ hx)
      simpa using hx0
    rw [cstr, List.takeWhile_append_of_pos hall]
    exact List.prefix_append _ _

/-- Such a text does not reach beyond a NUL. -/
theorem prefix_append_zero_iff {text p : Bytes} (h : 0 ∉ text) (rest : Bytes) :
    text <+: p ++ 0 :: rest ↔ text <+: p := by
  constructor
  · intro hp
    have hnul : p ++ [0] <+: p ++ 0 :: rest := ⟨rest, by simp⟩
    rcases List.prefix_or_prefix_of_prefix hp hnul with hshort | hlong
    · rcases List.prefix_concat_iff.mp hshort with rfl | hin
      · exact absurd (by simp) h
      · exact hin
    · exact absurd (hlong.subset (by simp)) h
  · exact fun hp => hp.trans (List.prefix_append _ _)

/-- A NUL-terminated string in an array of `n + 1` bytes. -/
structure CString (n : ℕ) where
  bytes : Bytes
  nulFree : 0 ∉ bytes
  length_le : bytes.length ≤ n
deriving DecidableEq

namespace CString

@[ext] theorem ext {n : ℕ} {s t : CString n} (h : s.bytes = t.bytes) : s = t := by
  cases s
  cases t
  simp_all

/-- `memset(dst, 0, n + 1)`. -/
def empty (n : ℕ) : CString n := ⟨[], by simp, by simp⟩

/-- Bytes copied into the array and then terminated, at most `n` of them. -/
def ofBytes (n : ℕ) (b : Bytes) : CString n where
  bytes := cstr (b.take n)
  nulFree := zero_notMem_cstr _
  length_le := (cstr_length_le _).trans (List.length_take_le _ _)

theorem ofBytes_bytes {n : ℕ} {b : Bytes} (h0 : 0 ∉ b) (hn : b.length ≤ n) :
    (ofBytes n b).bytes = b := by
  simp only [ofBytes, List.take_of_length_le hn, cstr_of_notMem h0]

end CString

/-- The text `snprintf` leaves in a buffer of `size` bytes. -/
def snprintf (size : ℕ) (text : Bytes) : Bytes := text.take (size - 1)

theorem snprintf_of_lt {size : ℕ} {text : Bytes} (h : text.length < size) :
    snprintf size text = text :=
  List.take_of_length_le (by omega)

/-- The bytes up to and including the first newline. -/
def throughNewline : Bytes → Bytes
  | [] => []
  | c :: cs => if c = 10 then [c] else c :: throughNewline cs

theorem throughNewline_prefix_self (b : Bytes) : throughNewline b <+: b := by
  induction b with
  | nil => exact List.prefix_rfl
  | cons c cs ih =>
    rw [throughNewline]
    split
    · exact ⟨cs, rfl⟩
    · exact List.cons_prefix_cons.mpr ⟨rfl, ih⟩

theorem throughNewline_of_notMem {b : Bytes} (h : 10 ∉ b) : throughNewline b = b := by
  induction b with
  | nil => rfl
  | cons c b ih =>
    rw [List.mem_cons, not_or] at h
    rw [throughNewline, if_neg (Ne.symm h.1), ih h.2]

theorem throughNewline_append_cons {b : Bytes} (h : 10 ∉ b) (rest : Bytes) :
    throughNewline (b ++ 10 :: rest) = b ++ [10] := by
  induction b with
  | nil => rfl
  | cons c b ih =>
    rw [List.mem_cons, not_or] at h
    rw [List.cons_append, throughNewline, if_neg (Ne.symm h.1), ih h.2]
    rfl

/-- One `fgets` from a stream into a buffer of `size` bytes; `none` is its NULL result. -/
def fgets (size : ℕ) (stream : Bytes) : Option Bytes :=
  match throughNewline (stream.take (size - 1)) with
  | [] => none
  | line => some line

/-- `if(len > 0 && s[len - 1] == '\n') s[len - 1] = '\0'`. -/
def chomp (s : Bytes) : Bytes := if s.getLast? = some 10 then s.dropLast else s

theorem chomp_prefix_self (s : Bytes) : chomp s <+: s := by
  unfold chomp
  split
  · exact List.dropLast_prefix s
  · exact List.prefix_rfl

theorem chomp_of_notMem {s : Bytes} (h : 10 ∉ s) : chomp s = s :=
  if_neg fun hlast => h (List.mem_of_getLast? hlast)

theorem chomp_append (s : Bytes) : chomp (s ++ [10]) = s := by
  rw [chomp, if_pos (by simp), List.dropLast_concat]

theorem fgets_length_le {size : ℕ} {stream line : Bytes} (h : fgets size stream = some line) :
    line.length ≤ size - 1 := by
  unfold fgets at h
  split at h
  · cases h
  · cases h
    exact (throughNewline_prefix_self _).length_le.trans (List.length_take_le _ _)

end InfraFi.Base
