import InfraFi.Base.CString
import Mathlib.Data.List.Count
import Mathlib.Data.List.Flatten

/-! # Text as lines, `grep` and `cut`

The filters keep a line or a field of every line. Their output ends every line
with a newline.
-/
namespace InfraFi.Base.Lines

def lineFeed : UInt8 := 0x0A

/-- The lines of a text; the last one may lack its newline. -/
def lines (text : Bytes) : List Bytes :=
  let ls := text.splitOn lineFeed
  if ls.getLast? = some [] then ls.dropLast else ls

/-- Every line with its newline. -/
def unlines (ls : List Bytes) : Bytes := ls.flatMap (· ++ [lineFeed])

/-- `grep '^pattern'` for a pattern without special characters. -/
def grepStart (pattern text : Bytes) : Bytes := unlines ((lines text).filter pattern.isPrefixOf)

/-- A line without the delimiter is printed whole, an absent field as an empty one. -/
def cutLine (delim : UInt8) (n : ℕ) (line : Bytes) : Bytes :=
  if delim ∈ line then (line.splitOn delim).getD (n - 1) [] else line

/-- `cut -d<delim> -f<n>`. -/
def cutField (delim : UInt8) (n : ℕ) (text : Bytes) : Bytes :=
  unlines ((lines text).map (cutLine delim n))

@[simp] theorem lines_nil : lines [] = [] := rfl

@[simp] theorem unlines_nil : unlines [] = [] := rfl

@[simp] theorem unlines_cons (l : Bytes) (ls : List Bytes) :
    unlines (l :: ls) = l ++ lineFeed :: unlines ls := by
  simp [unlines]

theorem lines_append_cons (l rest : Bytes) :
    lines (l ++ lineFeed :: rest) = l.splitOn lineFeed ++ lines rest := by
  have hne := List.splitOn_ne_nil lineFeed rest
  have hlast : (l.splitOn lineFeed ++ rest.splitOn lineFeed).getLast? =
      (rest.splitOn lineFeed).getLast? := List.getLast?_append_of_ne_nil _ hne
  unfold lines
  rw [List.splitOn_append_cons_self]
  dsimp only
  rw [hlast]
  split
  · rw [List.dropLast_append_of_ne_nil hne]
  · rfl

theorem lines_cons {l : Bytes} (h : lineFeed ∉ l) (rest : Bytes) :
    lines (l ++ lineFeed :: rest) = l :: lines rest := by
  rw [lines_append_cons, List.splitOn_eq_singleton h]
  rfl

theorem lines_unlines {ls : List Bytes} (h : ∀ l ∈ ls, lineFeed ∉ l) : lines (unlines ls) = ls := by
  induction ls with
  | nil => rfl
  | cons l ls ih =>
    rw [List.forall_mem_cons] at h
    rw [unlines_cons, lines_cons h.1, ih h.2]

theorem length_splitOn (l : Bytes) : (l.splitOn lineFeed).length = l.count lineFeed + 1 := by
  induction l with
  | nil => rfl
  | cons b l ih =>
    rw [List.splitOn_cons_eq_if_modifyHead, List.count_cons]
    split
    · rw [List.length_cons, ih]
    · rw [List.length_modifyHead, ih]

/-- Only newlines inside the lines make more lines of them. -/
theorem length_lines_unlines (ls : List Bytes) :
    ls.length ≤ (lines (unlines ls)).length ∧
      ((lines (unlines ls)).length = ls.length ↔ ∀ l ∈ ls, lineFeed ∉ l) := by
  induction ls with
  | nil => simp
  | cons l ls ih =>
    rw [unlines_cons, lines_append_cons, List.length_append, length_splitOn, List.length_cons,
      List.forall_mem_cons, ← ih.2, ← List.count_eq_zero]
    omega

end InfraFi.Base.Lines
