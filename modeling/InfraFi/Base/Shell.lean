import InfraFi.Base.CString
import Mathlib.Algebra.GroupWithZero.Nat

/-! # Quoting and token recognition of the POSIX shell

A command line is read byte by byte. Single quotes, double quotes and the
backslash quote bytes of a word; operators, blanks and comments delimit words.
Expansions are not parsed: `$` and the backquote stay bare bytes of their word,
also between double quotes.
-/
namespace InfraFi.Base.Shell

def newline : UInt8 := 0x0A
def dquote : UInt8 := 0x22
def squote : UInt8 := 0x27
def backslash : UInt8 := 0x5C

def isBlank (b : UInt8) : Bool := b = 0x20 || b = 0x09

/-- `&`, `|`, `;`, `<`, `>`, `(`, `)` and the newline. -/
def startsOperator (b : UInt8) : Bool := b ∈ ascii "&|;<>()\n"

/-- The operators of more than one byte. -/
def longOperators : List Bytes :=
  [ascii "&&", ascii "||", ascii ";;", ascii "<<", ascii ">>", ascii "<&", ascii ">&", ascii "<>",
    ascii "<<-", ascii ">|"]

/-- A byte of a word. Only bare bytes can have a special meaning to the shell. -/
inductive Glyph where
  | quoted (b : UInt8)
  | bare (b : UInt8)
deriving DecidableEq

inductive Token where
  | word (gs : List Glyph)
  | ioNumber (gs : List Glyph)
  | op (bs : Bytes)
deriving DecidableEq

/-- Where in a command line the reader is. -/
inductive Mode where
  | plain
  | comment
  | operator (bs : Bytes)
  | word (gs : List Glyph)
  | single (gs : List Glyph)
  | double (gs : List Glyph)
  | doubleEscape (gs : List Glyph)
  | escape (m : Mode)
deriving DecidableEq

def isDigit : Glyph → Bool
  | .bare b => 0x30 ≤ b && b ≤ 0x39
  | .quoted _ => false

/-- The token of a word that `b` delimits: digits before a redirection are its number. -/
def delimited (gs : List Glyph) (b : UInt8) : Token :=
  if gs ≠ [] ∧ gs.all isDigit ∧ b ∈ ascii "<>" then .ioNumber gs else .word gs

/-- One byte of a word, outside quotes. -/
def inWord (gs : List Glyph) (b : UInt8) : Mode :=
  if b = backslash then .escape (.word gs)
  else if b = squote then .single gs
  else if b = dquote then .double gs
  else .word (gs ++ [.bare b])

/-- The first byte after a token. -/
def start (b : UInt8) : Mode :=
  if isBlank b then .plain
  else if startsOperator b then .operator [b]
  else if b ∈ ascii "#" then .comment
  else if b = backslash then .escape .plain
  else inWord [] b

/-- The bytes of the word that is being read. -/
def Mode.glyphs : Mode → List Glyph
  | .word gs => gs
  | .single gs => gs
  | .double gs => gs
  | .doubleEscape gs => gs
  | .escape m => m.glyphs
  | _ => []

/-- The token that an escaped byte ends, and the word that it joins. -/
def joined : Mode → List Token × List Glyph
  | .operator bs => ([.op bs], [])
  | m => ([], m.glyphs)

/-- The tokens that end before the byte, and the mode after it. An escaped newline is left out. -/
def step : Mode → UInt8 → List Token × Mode
  | .plain, b => ([], start b)
  | .comment, b => if b = newline then ([], start b) else ([], .comment)
  | .operator bs, b =>
    if bs ++ [b] ∈ longOperators then ([], .operator (bs ++ [b]))
    else if b = backslash then ([], .escape (.operator bs))
    else ([.op bs], start b)
  | .word gs, b =>
    if isBlank b then ([.word gs], .plain)
    else if startsOperator b then ([delimited gs b], .operator [b])
    else ([], inWord gs b)
  | .single gs, b => if b = squote then ([], .word gs) else ([], .single (gs ++ [.quoted b]))
  | .double gs, b =>
    if b = dquote then ([], .word gs)
    else if b = backslash then ([], .doubleEscape gs)
    else if b ∈ ascii "$`" then ([], .double (gs ++ [.bare b]))
    else ([], .double (gs ++ [.quoted b]))
  | .doubleEscape gs, b =>
    if b = newline then ([], .double gs)
    else if b ∈ ascii "$`\"\\" then ([], .double (gs ++ [.quoted b]))
    else ([], .double (gs ++ [.quoted backslash, .quoted b]))
  | .escape m, b =>
    if b = newline then ([], m) else ((joined m).1, .word ((joined m).2 ++ [.quoted b]))

def run : Mode → Bytes → List Token × Mode
  | m, [] => ([], m)
  | m, b :: bs => ((step m b).1 ++ (run (step m b).2 bs).1, (run (step m b).2 bs).2)

/-- The last token; `none` inside quotes or after a backslash, where the line is not complete. -/
def finish : Mode → Option (List Token)
  | .plain => some []
  | .comment => some []
  | .operator bs => some [.op bs]
  | .word gs => some [.word gs]
  | _ => none

def tokenise (line : Bytes) : Option (List Token) :=
  (finish (run .plain line).2).map ((run .plain line).1 ++ ·)

example : tokenise (ascii "ls 'a b'\\'\"$x\" 2>/dev/null # no") =
    some [.word [.bare 0x6C, .bare 0x73],
      .word [.quoted 0x61, .quoted 0x20, .quoted 0x62, .quoted 0x27, .bare 0x24, .quoted 0x78],
      .ioNumber [.bare 0x32], .op (ascii ">"),
      .word ((ascii "/dev/null").map .bare)] := by decide +kernel

/-! ## Reading in parts -/

theorem run_append (m : Mode) (xs ys : Bytes) :
    run m (xs ++ ys) = ((run m xs).1 ++ (run (run m xs).2 ys).1, (run (run m xs).2 ys).2) := by
  induction xs generalizing m with
  | nil => rfl
  | cons x xs ih => simp only [List.cons_append, run, ih, List.append_assoc]

theorem run_append_snd (m : Mode) (xs ys : Bytes) :
    (run m (xs ++ ys)).2 = (run (run m xs).2 ys).2 := by rw [run_append]

/-- Inside single quotes every byte but the quote stands for itself. -/
theorem run_single {v : Bytes} (h : squote ∉ v) (gs : List Glyph) :
    run (.single gs) v = ([], .single (gs ++ v.map .quoted)) := by
  induction v generalizing gs with
  | nil => simp [run]
  | cons b v ih =>
    simp only [List.mem_cons, not_or] at h
    simp [run, step, Ne.symm h.1, ih h.2]

/-- A word between two parts of a command line, the second of which starts with a blank. -/
theorem run_word_between {pre text : Bytes} {gs : List Glyph} (hpre : (run .plain pre).2 = .plain)
    (htext : run .plain text = ([], .word gs)) (rest : Bytes) :
    run .plain (pre ++ text ++ 0x20 :: rest) =
      ((run .plain pre).1 ++ .word gs :: (run .plain rest).1, (run .plain rest).2) := by
  rw [List.append_assoc, run_append, hpre, run_append, htext]
  rfl

theorem tokenise_word {text : Bytes} {gs : List Glyph} (h : run .plain text = ([], .word gs)) :
    tokenise text = some [.word gs] := by
  rw [tokenise, h]
  rfl

theorem tokenise_word_append {text : Bytes} {gs : List Glyph} (h : run .plain text = ([], .word gs))
    (rest : Bytes) : tokenise (text ++ 0x20 :: rest) = (tokenise rest).map (.word gs :: ·) := by
  have hrun := @run_word_between [] text gs rfl h rest
  rw [List.nil_append] at hrun
  rw [tokenise, hrun, tokenise, Option.map_map]
  rfl

/-- A line that ends between single quotes is not complete. -/
theorem finish_single {t : Bytes} (h : squote ∉ t) (gs : List Glyph) :
    finish (run (.single gs) t).2 = none := by
  rw [run_single h]
  rfl

theorem finish_double {t : Bytes} (h : dquote ∉ t) (gs : List Glyph) :
    finish (run (.double gs) t).2 = none ∧ finish (run (.doubleEscape gs) t).2 = none := by
  induction t generalizing gs with
  | nil => exact ⟨rfl, rfl⟩
  | cons b t ih =>
    simp only [List.mem_cons, not_or] at h
    have hrest := ih h.2
    constructor
    · rw [run, step, if_neg (Ne.symm h.1)]
      split
      · exact (hrest _).2
      split <;> exact (hrest _).1
    · rw [run, step]
      split
      · exact (hrest _).1
      split <;> exact (hrest _).1

theorem run_comment {t : Bytes} (h : newline ∉ t) : run .comment t = ([], .comment) := by
  induction t with
  | nil => rfl
  | cons b t ih =>
    simp only [List.mem_cons, not_or] at h
    simp [run, step, Ne.symm h.1, ih h.2]

theorem last_longOperator {bs : Bytes} {b : UInt8} (h : bs ++ [b] ∈ longOperators) :
    b ∈ ascii "&|;<>" ∨ b = 0x2D := by
  have hall : (longOperators.all fun op => (ascii "&|;<>").contains (op.getLast?.getD 0) ||
      op.getLast?.getD 0 == 0x2D) = true := by decide
  have hlast := List.all_eq_true.mp hall _ h
  simpa using hlast

/-! ## Letters -/

def isLetter (b : UInt8) : Bool := (0x41 ≤ b && b ≤ 0x5A) || (0x61 ≤ b && b ≤ 0x7A)

/-- No byte that the shell treats in a special way is a letter. -/
theorem notMem_of_isLetter {b : UInt8} (h : isLetter b = true) :
    b ∉ ascii "&|;<>()\n#\\'\"$` \t" := by
  intro hb
  have hnone : ((ascii "&|;<>()\n#\\'\"$` \t").any isLetter) = false := by decide
  exact absurd h (List.any_eq_false.mp hnone b hb)

/-- Between words, in quotes or in a comment, as after a letter and a blank. -/
def Resting (m : Mode) : Prop :=
  m = .plain ∨ m = .comment ∨ (∃ gs, m = .single gs) ∨ ∃ gs, m = .double gs

section Letter
variable {b : UInt8} (h : isLetter b = true)
include h

theorem not_special_of_isLetter : isBlank b = false ∧ startsOperator b = false ∧ b ≠ newline ∧
    b ≠ backslash ∧ b ≠ squote ∧ b ≠ dquote ∧ b ∉ ascii "#" ∧ b ∉ ascii "$`" ∧
      b ∉ ascii "$`\"\\" := by
  have hspecial := notMem_of_isLetter h
  have hne (x : UInt8) (hx : x ∈ ascii "&|;<>()\n#\\'\"$` \t") : b ≠ x := by
    rintro rfl
    exact hspecial hx
  have hsub (s : Bytes) (hs : s ⊆ ascii "&|;<>()\n#\\'\"$` \t") : b ∉ s := fun hb => hspecial (hs hb)
  have hblank : isBlank b = false := by
    simp [isBlank, hne 0x20 (by decide), hne 0x09 (by decide)]
  have hop : startsOperator b = false := by
    simpa [startsOperator] using hsub (ascii "&|;<>()\n") (by decide)
  exact ⟨hblank, hop, hne _ (by decide), hne _ (by decide), hne _ (by decide), hne _ (by decide),
    hsub _ (by decide), hsub _ (by decide), hsub _ (by decide)⟩

theorem inWord_letter (gs : List Glyph) : inWord gs b = .word (gs ++ [.bare b]) := by
  rcases not_special_of_isLetter h with ⟨-, -, -, hback, hs, hd, -⟩
  rw [inWord, if_neg hback, if_neg hs, if_neg hd]

theorem start_letter : start b = .word [.bare b] := by
  rcases not_special_of_isLetter h with ⟨hblank, hop, -, hback, -, -, hhash, -⟩
  simp [start, hblank, hop, hback, hhash, inWord_letter h]

theorem step_word_letter (gs : List Glyph) : step (.word gs) b = ([], .word (gs ++ [.bare b])) := by
  rcases not_special_of_isLetter h with ⟨hblank, hop, -⟩
  simp [step, hblank, hop, inWord_letter h]

theorem step_double_letter (gs : List Glyph) :
    step (.double gs) b = ([], .double (gs ++ [.quoted b])) := by
  rcases not_special_of_isLetter h with ⟨-, -, -, hback, -, hd, -, hdollar, -⟩
  rw [step, if_neg hd, if_neg hback, if_neg hdollar]

theorem resting_letter_blank (m : Mode) : Resting (run m [b, 0x20]).2 := by
  rcases not_special_of_isLetter h with ⟨-, -, hnl, hback, hs, hd, -, -, hesc⟩
  have hword (gs : List Glyph) : (step (.word gs) 0x20).2 = .plain := rfl
  have hdouble (gs : List Glyph) : (step (.double gs) 0x20).2 = .double (gs ++ [.quoted 0x20]) := rfl
  simp only [run]
  cases m with
  | plain =>
    rw [step, start_letter h]
    exact .inl (hword _)
  | comment => exact .inr (.inl (by rw [step, if_neg hnl]; rfl))
  | operator bs =>
    have hshort : bs ++ [b] ∉ longOperators := by
      intro hlong
      rcases last_longOperator hlong with hop | rfl
      · have hsub : ascii "&|;<>" ⊆ ascii "&|;<>()\n#\\'\"$` \t" := by decide
        exact notMem_of_isLetter h (hsub hop)
      · exact absurd h (by decide)
    rw [step, if_neg hshort, if_neg hback, start_letter h]
    exact .inl (hword _)
  | word gs => exact .inl (by rw [step_word_letter h, hword])
  | single gs => exact .inr (.inr (.inl ⟨_, by rw [step, if_neg hs]; rfl⟩))
  | double gs => exact .inr (.inr (.inr ⟨_, by rw [step_double_letter h, hdouble]⟩))
  | doubleEscape gs => exact .inr (.inr (.inr ⟨_, by rw [step, if_neg hnl, if_neg hesc, hdouble]⟩))
  | escape m => exact .inl (by rw [step, if_neg hnl, hword])

end Letter

section Letters
variable {v : Bytes} (h : ∀ b ∈ v, isLetter b = true)
include h

theorem letters_notMem {x : UInt8} (hx : isLetter x = false) : x ∉ v :=
  fun hmem => Bool.false_ne_true (hx.symm.trans (h x hmem))

theorem run_word_letters (gs : List Glyph) : run (.word gs) v = ([], .word (gs ++ v.map .bare)) := by
  induction v generalizing gs with
  | nil => simp [run]
  | cons b v ih =>
    rw [run, step_word_letter (h b (List.mem_cons_self ..)),
      ih (fun x hx => h x (List.mem_cons_of_mem _ hx))]
    simp

theorem run_double_letters (gs : List Glyph) :
    run (.double gs) v = ([], .double (gs ++ v.map .quoted)) := by
  induction v generalizing gs with
  | nil => simp [run]
  | cons b v ih =>
    rw [run, step_double_letter (h b (List.mem_cons_self ..)),
      ih (fun x hx => h x (List.mem_cons_of_mem _ hx))]
    simp

end Letters

/-! ## What is read so far -/

def Token.glyphs : Token → List Glyph
  | .word gs => gs
  | .ioNumber gs => gs
  | .op _ => []

/-- The bytes of all words, with the one that is being read. -/
def glyphs (r : List Token × Mode) : List Glyph := r.1.flatMap Token.glyphs ++ r.2.glyphs

/-- 1 in the middle of a token. -/
def Mode.pending : Mode → ℕ
  | .plain => 0
  | .comment => 0
  | .escape m => m.pending
  | _ => 1

theorem delimited_glyphs (gs : List Glyph) (b : UInt8) : (delimited gs b).glyphs = gs := by
  unfold delimited
  split <;> rfl

theorem joined_glyphs (m : Mode) : (joined m).1.flatMap Token.glyphs ++ (joined m).2 = m.glyphs := by
  cases m <;> simp [joined, Token.glyphs, Mode.glyphs]

theorem inWord_glyphs (gs : List Glyph) (b : UInt8) :
    (inWord gs b).glyphs = gs ∨ (inWord gs b).glyphs = gs ++ [.bare b] := by
  unfold inWord
  split
  · exact .inl rfl
  split
  · exact .inl rfl
  split
  · exact .inl rfl
  · exact .inr rfl

theorem start_glyphs (b : UInt8) : (start b).glyphs = [] ∨ (start b).glyphs = [.bare b] := by
  unfold start
  split
  · exact .inl rfl
  split
  · exact .inl rfl
  split
  · exact .inl rfl
  split
  · exact .inl rfl
  · exact inWord_glyphs [] b

/-- A byte adds at most itself to the words, and a quote only as a quoted byte. -/
theorem step_glyphs (m : Mode) (b : UInt8) :
    ∃ new, glyphs (step m b) = m.glyphs ++ new ∧
      new.count (.quoted squote) ≤ List.count squote [b] := by
  have hnone : List.count (Glyph.quoted squote) [] ≤ List.count squote [b] := by simp
  have hbare : List.count (Glyph.quoted squote) [.bare b] ≤ List.count squote [b] := by simp
  have hquoted : List.count (Glyph.quoted squote) [.quoted b] ≤ List.count squote [b] := by
    by_cases hb : b = squote <;> simp [hb]
  have hstart (ts : List Token) (hts : ts.flatMap Token.glyphs = []) :
      ∃ new, glyphs (ts, start b) = [] ++ new ∧
        new.count (.quoted squote) ≤ List.count squote [b] := by
    rcases start_glyphs b with h | h
    · exact ⟨[], by simp [glyphs, hts, h], hnone⟩
    · exact ⟨[.bare b], by simp [glyphs, hts, h], hbare⟩
  cases m with
  | plain => exact hstart [] rfl
  | comment =>
    by_cases hb : b = newline
    · rw [step, if_pos hb]
      exact hstart [] rfl
    · exact ⟨[], by simp [step, hb, glyphs, Mode.glyphs], hnone⟩
  | operator bs =>
    rw [step]
    split
    · exact ⟨[], rfl, hnone⟩
    split
    · exact ⟨[], rfl, hnone⟩
    · exact hstart [.op bs] rfl
  | word gs =>
    rw [step]
    split
    · exact ⟨[], by simp [glyphs, Token.glyphs, Mode.glyphs], hnone⟩
    split
    · exact ⟨[], by simp [glyphs, delimited_glyphs, Mode.glyphs], hnone⟩
    · rcases inWord_glyphs gs b with h | h
      · exact ⟨[], by simp [glyphs, Mode.glyphs, h], hnone⟩
      · exact ⟨[.bare b], by simp [glyphs, Mode.glyphs, h], hbare⟩
  | single gs =>
    rw [step]
    split
    · exact ⟨[], by simp [glyphs, Mode.glyphs], hnone⟩
    · exact ⟨[.quoted b], by simp [glyphs, Mode.glyphs], hquoted⟩
  | double gs =>
    rw [step]
    split
    · exact ⟨[], by simp [glyphs, Mode.glyphs], hnone⟩
    split
    · exact ⟨[], by simp [glyphs, Mode.glyphs], hnone⟩
    split
    · exact ⟨[.bare b], by simp [glyphs, Mode.glyphs], hbare⟩
    · exact ⟨[.quoted b], by simp [glyphs, Mode.glyphs], hquoted⟩
  | doubleEscape gs =>
    rw [step]
    split
    · exact ⟨[], by simp [glyphs, Mode.glyphs], hnone⟩
    split
    · exact ⟨[.quoted b], by simp [glyphs, Mode.glyphs], hquoted⟩
    · refine ⟨[.quoted backslash, .quoted b], by simp [glyphs, Mode.glyphs], ?_⟩
      rwa [List.count_cons_of_ne (by decide)]
  | escape m =>
    rw [step]
    split
    · exact ⟨[], by simp [glyphs, Mode.glyphs], hnone⟩
    · refine ⟨[.quoted b], ?_, hquoted⟩
      change (joined m).1.flatMap Token.glyphs ++ ((joined m).2 ++ [.quoted b]) = _
      rw [← List.append_assoc, joined_glyphs]
      rfl

theorem glyphs_append (m : Mode) (xs ys : Bytes) :
    glyphs (run m (xs ++ ys)) =
      (run m xs).1.flatMap Token.glyphs ++ glyphs (run (run m xs).2 ys) := by
  rw [run_append, glyphs, glyphs, List.flatMap_append, List.append_assoc]

theorem run_glyphs (m : Mode) (bs : Bytes) :
    ∃ new, glyphs (run m bs) = m.glyphs ++ new ∧
      new.count (.quoted squote) ≤ bs.count squote := by
  induction bs generalizing m with
  | nil => exact ⟨[], by simp [run, glyphs], by simp⟩
  | cons b bs ih =>
    rcases step_glyphs m b with ⟨new, hnew, hcount⟩
    rcases ih (step m b).2 with ⟨more, hmore, hcount'⟩
    have hone : run m [b] = step m b := by simp [run]
    refine ⟨new ++ more, ?_, ?_⟩
    · rw [← List.singleton_append, glyphs_append, hone, hmore, ← List.append_assoc, ← List.append_assoc,
        ← hnew, glyphs]
    · rw [List.count_append, ← List.singleton_append, List.count_append]
      omega

theorem step_pending (m : Mode) (b : UInt8) :
    m.pending ≤ (step m b).1.length + (step m b).2.pending := by
  cases m with
  | plain => exact Nat.zero_le _
  | comment => exact Nat.zero_le _
  | operator bs =>
    rw [step]
    split
    · exact Nat.le_refl 1
    split
    · exact Nat.le_refl 1
    · exact Nat.le_add_right 1 _
  | word gs =>
    rw [step]
    split
    · exact Nat.le_refl 1
    split
    · exact Nat.le_add_right 1 _
    · unfold inWord
      split
      · exact Nat.le_refl 1
      split
      · exact Nat.le_refl 1
      split <;> exact Nat.le_refl 1
  | single gs =>
    rw [step]
    split <;> exact Nat.le_refl 1
  | double gs =>
    rw [step]
    split
    · exact Nat.le_refl 1
    split
    · exact Nat.le_refl 1
    split <;> exact Nat.le_refl 1
  | doubleEscape gs =>
    rw [step]
    split
    · exact Nat.le_refl 1
    split <;> exact Nat.le_refl 1
  | escape m =>
    rw [step]
    split
    · simp [Mode.pending]
    · have hpending : m.pending ≤ 1 := by
        induction m with
        | escape m ih => exact ih
        | _ => simp [Mode.pending]
      change m.pending ≤ _ + 1
      omega

theorem run_pending (m : Mode) (bs : Bytes) :
    m.pending ≤ (run m bs).1.length + (run m bs).2.pending := by
  induction bs generalizing m with
  | nil => simp [run]
  | cons b bs ih =>
    have hstep := step_pending m b
    have hrest := ih (step m b).2
    simp only [run, List.length_append]
    omega

theorem finish_eq_some {m : Mode} {ts : List Token} (h : finish m = some ts) :
    ts.flatMap Token.glyphs = m.glyphs ∧ ts.length = m.pending := by
  cases m <;> simp [finish] at h <;> subst h <;> simp [Token.glyphs, Mode.glyphs, Mode.pending]

theorem tokenise_eq_some {line : Bytes} {ts : List Token} (h : tokenise line = some ts) :
    ts.flatMap Token.glyphs = glyphs (run .plain line) ∧
      ts.length = (run .plain line).1.length + (run .plain line).2.pending := by
  rw [tokenise, Option.map_eq_some_iff] at h
  rcases h with ⟨last, hlast, rfl⟩
  rcases finish_eq_some hlast with ⟨hglyphs, hlen⟩
  rw [List.flatMap_append, hglyphs, List.length_append, hlen]
  exact ⟨rfl, rfl⟩

/-! ## Lines that differ in the values they carry -/

/-- Every pair of values sits, quoted, in a word of its own, in this order. All else is equal. -/
inductive Carried : List (Bytes × Bytes) → List Token → List Token → Prop
  | nil (ts : List Token) : Carried [] ts ts
  | cons {vs : List (Bytes × Bytes)} {b b' : List Token} (a : List Token) (w₁ w₂ : List Glyph)
      (v v' : Bytes) (h : Carried vs b b') :
      Carried ((v, v') :: vs) (a ++ .word (w₁ ++ v.map .quoted ++ w₂) :: b)
        (a ++ .word (w₁ ++ v'.map .quoted ++ w₂) :: b')

/-- Both lines are complete and are the same but for the values. -/
def SameShape (vs : List (Bytes × Bytes)) (line line' : Bytes) : Prop :=
  ∃ ts ts', tokenise line = some ts ∧ tokenise line' = some ts' ∧ Carried vs ts ts'

theorem Carried.length_eq {vs : List (Bytes × Bytes)} {ts ts' : List Token} (h : Carried vs ts ts') :
    ts.length = ts'.length := by
  induction h with
  | nil ts => rfl
  | cons a w₁ w₂ v v' h ih => simp [ih]

theorem SameShape.refl {line : Bytes} (h : (tokenise line).isSome) : SameShape [] line line := by
  rcases Option.isSome_iff_exists.mp h with ⟨ts, hts⟩
  exact ⟨ts, ts, hts, hts, .nil ts⟩

theorem tokenise_word_between {pre text : Bytes} {gs : List Glyph} (hpre : (run .plain pre).2 = .plain)
    (htext : run .plain text = ([], .word gs)) (rest : Bytes) :
    tokenise (pre ++ text ++ 0x20 :: rest) =
      (tokenise rest).map ((run .plain pre).1 ++ .word gs :: ·) := by
  rw [tokenise, run_word_between hpre htext, tokenise, Option.map_map]
  simp [Function.comp_def]

/-- A word with one more value in front of the rest of a line. -/
theorem SameShape.cons {pre text text' v v' rest rest' : Bytes} (w₁ w₂ : List Glyph)
    {vs : List (Bytes × Bytes)} (hpre : (run .plain pre).2 = .plain)
    (htext : run .plain text = ([], .word (w₁ ++ v.map .quoted ++ w₂)))
    (htext' : run .plain text' = ([], .word (w₁ ++ v'.map .quoted ++ w₂)))
    (h : SameShape vs rest rest') :
    SameShape ((v, v') :: vs) (pre ++ text ++ 0x20 :: rest) (pre ++ text' ++ 0x20 :: rest') := by
  rcases h with ⟨ts, ts', hts, hts', hcarried⟩
  refine ⟨_, _, ?_, ?_, .cons (run .plain pre).1 w₁ w₂ v v' hcarried⟩
  · rw [tokenise_word_between hpre htext, hts]
    rfl
  · rw [tokenise_word_between hpre htext', hts']
    rfl

/-- The words differ by what the values have of a kind of byte. -/
theorem Carried.countP_eq {vs : List (Bytes × Bytes)} {ts ts' : List Token} (h : Carried vs ts ts')
    (p : Glyph → Bool) :
    (ts.flatMap Token.glyphs).countP p + (vs.map fun v => (v.2.map Glyph.quoted).countP p).sum =
      (ts'.flatMap Token.glyphs).countP p + (vs.map fun v => (v.1.map Glyph.quoted).countP p).sum := by
  induction h with
  | nil ts => rfl
  | cons a w₁ w₂ v v' h ih =>
    simp only [List.flatMap_append, List.flatMap_cons, Token.glyphs, List.countP_append, List.map_cons,
      List.sum_cons]
    omega

theorem Carried.eq_of_same {v v' : Bytes} {vs : List (Bytes × Bytes)} {ts ts' : List Token}
    (h : Carried ((v, v') :: vs) ts ts') (hts : ts = ts') : v = v' := by
  cases h with
  | cons a w₁ w₂ _ _ h =>
    have hwords := (List.cons.inj (List.append_cancel_left hts)).1
    simp only [Token.word.injEq, List.append_assoc, List.append_cancel_left_eq,
      List.append_cancel_right_eq] at hwords
    exact List.map_injective_iff.mpr (fun _ _ hq => Glyph.quoted.inj hq) hwords

end InfraFi.Base.Shell
