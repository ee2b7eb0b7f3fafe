import InfraFi.Base.Shell

/-! # What a program is given

A simple command is made of words and redirections. As long as nothing in its
words is expanded, the program gets the words as they are.
-/
namespace InfraFi.Base.Shell

/-- The bare bytes that can start an expansion, a pattern or an assignment. -/
def expands (b : UInt8) : Bool := b ∈ ascii "$`*?[~="

def Glyph.byte : Glyph → UInt8
  | .quoted b => b
  | .bare b => b

def Glyph.isLiteral : Glyph → Bool
  | .quoted _ => true
  | .bare b => !expands b

/-- A word that stands for its own bytes. -/
def literal (gs : List Glyph) : Option Bytes :=
  if gs.all Glyph.isLiteral then some (gs.map Glyph.byte) else none

/-- Here-documents are left out. -/
def redirects (bs : Bytes) : Bool :=
  [ascii "<", ascii ">", ascii ">>", ascii "<&", ascii ">&", ascii "<>", ascii ">|"].contains bs

/-- The words of a command without its redirections. -/
def wordsOf : List Token → Option (List Bytes)
  | [] => some []
  | .word gs :: ts => (literal gs).bind fun w => (wordsOf ts).map (w :: ·)
  | .ioNumber _ :: ts => wordsOf ts
  | .op bs :: .word _ :: ts => if redirects bs then wordsOf ts else none
  | .op _ :: _ => none

def reserved : List Bytes :=
  [ascii "if", ascii "then", ascii "else", ascii "elif", ascii "fi", ascii "do", ascii "done",
    ascii "case", ascii "esac", ascii "while", ascii "until", ascii "for", ascii "in",
    ascii "\x7b", ascii "\x7d", ascii "!"]

def startsReserved : List Token → Bool
  | .word gs :: _ => gs ∈ reserved.map (·.map .bare)
  | _ => false

/-- The name and the arguments that a line gives to the one program that it runs; `none` for any
other line. -/
def arguments (line : Bytes) : Option (List Bytes) :=
  (tokenise line).bind fun ts => if startsReserved ts then none else wordsOf ts

example : arguments (ascii "nmcli con up 'a b' 2>&1") =
    some [ascii "nmcli", ascii "con", ascii "up", ascii "a b"] := by decide +kernel

example : arguments (ascii "nmcli con up a; reboot") = none := by decide +kernel

theorem literal_quoted (v : Bytes) : literal (v.map .quoted) = some v := by
  have hall : (v.map Glyph.quoted).all Glyph.isLiteral = true := by simp [Glyph.isLiteral]
  have hbytes : (v.map Glyph.quoted).map Glyph.byte = v := by
    rw [List.map_map]
    exact List.map_id v
  rw [literal, if_pos hall, hbytes]

theorem wordsOf_word {gs : List Glyph} {w : Bytes} (h : literal gs = some w) (ts : List Token) :
    wordsOf (.word gs :: ts) = (wordsOf ts).map (w :: ·) := by
  rw [wordsOf, h]
  rfl

/-- Words in front of a command are words of it. -/
theorem wordsOf_append {words : List (List Glyph)} {ws : List Bytes}
    (h : words.map literal = ws.map some) (ts : List Token) :
    wordsOf (words.map .word ++ ts) = (wordsOf ts).map (ws ++ ·) := by
  induction words generalizing ws with
  | nil =>
    obtain rfl := List.map_eq_nil_iff.mp h.symm
    simp
  | cons gs words ih =>
    cases ws with
    | nil => cases h
    | cons w ws =>
      obtain ⟨hw, hws⟩ := List.cons.inj h
      rw [List.map_cons, List.cons_append, wordsOf_word hw, ih hws, Option.map_map]
      rfl

/-- The words of a line, whatever its first word is. -/
def words (line : Bytes) : Option (List Bytes) := (tokenise line).bind wordsOf

/-- A word between two parts of a line is a word of it. -/
theorem words_between {pre text rest : Bytes} {front : List (List Glyph)} {gs : List Glyph} {w : Bytes}
    {ws us : List Bytes} (hpre : run .plain pre = (front.map .word, .plain))
    (hfront : front.map literal = ws.map some) (htext : run .plain text = ([], .word gs))
    (hw : literal gs = some w) (hrest : words rest = some us) :
    words (pre ++ text ++ 0x20 :: rest) = some (ws ++ w :: us) := by
  have hplain : (run .plain pre).2 = .plain := by rw [hpre]
  obtain ⟨ts, hts, hus⟩ := Option.bind_eq_some_iff.mp hrest
  rw [words, tokenise_word_between hplain htext, hts, Option.map_some, Option.bind_some, hpre,
    wordsOf_append hfront, wordsOf_word hw, hus]
  rfl

/-- A line whose first word is not reserved is a simple command. -/
theorem arguments_of_words {line w : Bytes} {ws : List Bytes} (h : words line = some (w :: ws))
    (hw : w ∉ reserved) : arguments line = some (w :: ws) := by
  obtain ⟨ts, hline, hwords⟩ := Option.bind_eq_some_iff.mp h
  have hstart : startsReserved ts = false := by
    rw [Bool.eq_false_iff]
    intro hres
    unfold startsReserved at hres
    split at hres
    · rename_i gs rest
      obtain ⟨r, hr, rfl⟩ := List.mem_map.mp (of_decide_eq_true hres)
      have hlit : ∀ r ∈ reserved, literal (r.map .bare) = some r := by decide +kernel
      rw [wordsOf_word (hlit r hr), Option.map_eq_some_iff] at hwords
      obtain ⟨ws', -, hcons⟩ := hwords
      obtain ⟨rfl, -⟩ := List.cons.inj hcons
      exact hw hr
    · cases hres
  rw [arguments, hline, Option.bind_some, hstart]
  exact hwords

end InfraFi.Base.Shell
