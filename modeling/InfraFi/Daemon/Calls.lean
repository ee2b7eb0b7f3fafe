import InfraFi.Base.Interaction
import InfraFi.Protocol.Defs

/-! # What the daemon asks of the system

Commands, files, name lookup, pauses and infrared output. The environment may
give any answer to any call.
-/
namespace InfraFi.Daemon
open Base

inductive Call where
  | system (cmd : Bytes)
  | popen (cmd : Bytes)
  | sleep (sec : ℕ)
  | delayMs (ms : ℕ)
  | getaddrinfo (node service : Bytes)
  /-- `fopen(path, "w")`, the text printed to it, `fclose`. -/
  | writeFile (path text : Bytes)
  | unlink (path : Bytes)
  | writeScancode (address command : UInt8)
deriving DecidableEq

/-- `none` is a command that could not be run. -/
@[reducible] def Call.Answer : Call → Type
  | .system _ => Option UInt8
  | .popen _ => Option Bytes
  | .sleep _ => Unit
  | .delayMs _ => Unit
  | .getaddrinfo _ _ => Bool
  | .writeFile _ _ => Bool
  | .unlink _ => Bool
  | .writeScancode _ _ => Bool

instance Call.Answer.decidableEq : (c : Call) → DecidableEq c.Answer
  | .system _ => inferInstanceAs (DecidableEq (Option UInt8))
  | .popen _ => inferInstanceAs (DecidableEq (Option Bytes))
  | .sleep _ => inferInstanceAs (DecidableEq Unit)
  | .delayMs _ => inferInstanceAs (DecidableEq Unit)
  | .getaddrinfo _ _ => inferInstanceAs (DecidableEq Bool)
  | .writeFile _ _ => inferInstanceAs (DecidableEq Bool)
  | .unlink _ => inferInstanceAs (DecidableEq Bool)
  | .writeScancode _ _ => inferInstanceAs (DecidableEq Bool)

instance Call.Answer.nonempty (c : Call) : Nonempty c.Answer := by
  cases c <;> infer_instance

abbrev Cmd := Prog Call Call.Answer

abbrev Trace := List (Event Call Call.Answer)

/-- Asks for an exit status, the output of a command, and so on. -/
def call (c : Call) : Cmd c.Answer := Prog.request c

def exitStatus : Option UInt8 → ℤ
  | none => -1
  | some status => status.toNat

def runCmd (cmd : Bytes) : Cmd ℤ := do
  return exitStatus (← call (.system cmd))

/-- The first line of the output without its newline, as far as it fits the buffer. -/
def firstLine (size : ℕ) (stream : Bytes) : Option Bytes :=
  (fgets size stream).map (fun line => chomp (cstr line))

/-- The output starts with `OK`. -/
def saysOk : Option Bytes → Bool
  | none => false
  | some stream => ((firstLine 64 stream).getD []).take 2 = ascii "OK"

/-- Runs a `wpa_cli` command; true on success. -/
def runWpaCmd (cmd : Bytes) : Cmd Bool := do
  return saysOk (← call (.popen cmd))

/-- Whether a line was read, and the buffer, which keeps its text when none was. -/
def lineInto (out : Bytes) (outSize : ℕ) (answer : Option Bytes) : Bool × Bytes :=
  match answer.bind (firstLine outSize) with
  | some line => (true, line)
  | none => (false, out)

def runCmdOutput (cmd : Bytes) (out : Bytes) (outSize : ℕ) : Cmd (Bool × Bytes) := do
  return lineInto out outSize (← call (.popen cmd))

/-- The line that a command prints, if it prints one that is not empty. -/
def answerLine (outSize : ℕ) (answer : Option Bytes) : Option Bytes :=
  let r := lineInto [] outSize answer
  if r.1 ∧ r.2 ≠ [] then some r.2 else none

/-- `run_cmd_output(cmd, out, out_size) && out[0]`. -/
def runCmdLine (cmd : Bytes) (outSize : ℕ) : Cmd (Option Bytes) := do
  return answerLine outSize (← call (.popen cmd))

theorem firstLine_length_le {size : ℕ} {stream line : Bytes} (h : firstLine size stream = some line) :
    line.length ≤ size - 1 := by
  rw [firstLine, Option.map_eq_some_iff] at h
  rcases h with ⟨text, htext, rfl⟩
  calc (chomp (cstr text)).length ≤ (cstr text).length := (chomp_prefix_self _).length_le
    _ ≤ text.length := cstr_length_le _
    _ ≤ size - 1 := fgets_length_le htext

theorem zero_notMem_firstLine {size : ℕ} {stream line : Bytes} (h : firstLine size stream = some line) :
    0 ∉ line := by
  rw [firstLine, Option.map_eq_some_iff] at h
  rcases h with ⟨text, -, rfl⟩
  intro h0
  exact zero_notMem_cstr text ((chomp_prefix_self _).subset h0)

theorem lineInto_text (size : ℕ) (answer : Option Bytes) :
    0 ∉ (lineInto [] size answer).2 ∧ (lineInto [] size answer).2.length ≤ size - 1 := by
  unfold lineInto
  cases hline : answer.bind (firstLine size) with
  | none => simp
  | some text =>
    rcases Option.bind_eq_some_iff.mp hline with ⟨stream, -, hfirst⟩
    exact ⟨zero_notMem_firstLine hfirst, firstLine_length_le hfirst⟩

theorem answerLine_eq_some {size : ℕ} {answer : Option Bytes} {line : Bytes}
    (h : answerLine size answer = some line) :
    line ≠ [] ∧ 0 ∉ line ∧ line.length ≤ size - 1 := by
  simp only [answerLine, Option.ite_none_right_eq_some, Option.some.injEq] at h
  rcases h with ⟨⟨-, hne⟩, rfl⟩
  exact ⟨hne, lineInto_text size answer⟩

theorem answerLine_of_line {size : ℕ} {stream line bs : Bytes} (hline : fgets size stream = some line)
    (h0 : 0 ∉ line) (hchomp : chomp line = bs) (hne : bs ≠ []) :
    answerLine size (some stream) = some bs := by
  have hfirst : firstLine size stream = some bs := by
    rw [firstLine, hline, Option.map_some, cstr_of_notMem h0, hchomp]
  simp [answerLine, lineInto, hfirst, hne]

theorem fgets_eq_some {size : ℕ} {stream line : Bytes}
    (h : throughNewline (stream.take (size - 1)) = line) (hne : line ≠ []) :
    fgets size stream = some line := by
  rw [fgets, h]
  cases line with
  | nil => exact absurd rfl hne
  | cons b line => rfl

/-- A line without a newline is read as it is. -/
theorem answerLine_of_notMem {bs : Bytes} {size : ℕ} (hne : bs ≠ []) (h0 : 0 ∉ bs)
    (hnl : 10 ∉ bs) (hlen : bs.length ≤ size - 1) : answerLine size (some bs) = some bs := by
  apply answerLine_of_line (fgets_eq_some ?_ hne) h0 (chomp_of_notMem hnl) hne
  rw [List.take_of_length_le hlen, throughNewline_of_notMem hnl]

/-- So is the first of several lines, also one that fills the buffer. -/
theorem answerLine_append_cons {bs : Bytes} {size : ℕ} (hne : bs ≠ []) (h0 : 0 ∉ bs)
    (hnl : 10 ∉ bs) (hlen : bs.length ≤ size - 1) (rest : Bytes) :
    answerLine size (some (bs ++ 10 :: rest)) = some bs := by
  rcases Nat.lt_or_eq_of_le hlen with hlt | heq
  · have hline : throughNewline ((bs ++ 10 :: rest).take (size - 1)) = bs ++ [10] := by
      obtain ⟨n, hn⟩ : ∃ n, size - 1 = bs.length + (n + 1) := ⟨size - 1 - bs.length - 1, by omega⟩
      rw [hn, List.take_length_add_append, List.take_succ_cons, throughNewline_append_cons hnl]
    apply answerLine_of_line (fgets_eq_some hline (by simp)) _ (chomp_append bs) hne
    simp [h0]
  · apply answerLine_of_line (fgets_eq_some ?_ hne) h0 (chomp_of_notMem hnl) hne
    rw [← heq, List.take_left, throughNewline_of_notMem hnl]

/-! ## Runs of one call -/

section Runs
open Prog
variable {tr : Trace}

theorem run_call {c : Call} {x : c.Answer} : Run (call c) tr x ↔ tr = [⟨c, x⟩] := run_request

/-- A program that makes one call and returns a value read off the answer. -/
theorem run_read {α : Type} {c : Call} {f : c.Answer → α} {a : α} :
    Run (do return f (← call c)) tr a ↔ ∃ x, tr = [⟨c, x⟩] ∧ a = f x := by
  constructor
  · intro h
    rcases run_bind.mp h with ⟨t₁, x, t₂, rfl, hx, hret⟩
    rcases run_pure.mp hret with ⟨rfl, rfl⟩
    exact ⟨x, by rw [run_call.mp hx, List.append_nil], rfl⟩
  · rintro ⟨x, rfl, rfl⟩
    exact run_bind.mpr ⟨_, x, [], rfl, run_call.mpr rfl, run_pure.mpr ⟨rfl, rfl⟩⟩

theorem run_runCmd {cmd : Bytes} {status : ℤ} :
    Run (runCmd cmd) tr status ↔ ∃ x, tr = [⟨.system cmd, x⟩] ∧ status = exitStatus x := run_read

theorem run_runWpaCmd {cmd : Bytes} {ok : Bool} :
    Run (runWpaCmd cmd) tr ok ↔ ∃ x, tr = [⟨.popen cmd, x⟩] ∧ ok = saysOk x := run_read

theorem run_runCmdOutput {cmd out : Bytes} {size : ℕ} {r : Bool × Bytes} :
    Run (runCmdOutput cmd out size) tr r ↔ ∃ x, tr = [⟨.popen cmd, x⟩] ∧ r = lineInto out size x :=
  run_read

theorem run_runCmdLine {cmd : Bytes} {size : ℕ} {r : Option Bytes} :
    Run (runCmdLine cmd size) tr r ↔ ∃ x, tr = [⟨.popen cmd, x⟩] ∧ r = answerLine size x := run_read

/-- `if(!p) return false;` either ends the run or lets it go on. -/
theorem run_guard {p f : Cmd Bool} {b : Bool}
    (h : Run (p >>= fun ok => if ¬ ok = true then pure false else f) tr b) :
    b = false ∧ Run p tr false ∨ ∃ t₁ t₂, tr = t₁ ++ t₂ ∧ Run p t₁ true ∧ Run f t₂ b := by
  rcases run_bind.mp h with ⟨t₁, ok, t₂, rfl, h₁, h₂⟩
  cases ok with
  | true => exact .inr ⟨t₁, t₂, rfl, h₁, h₂⟩
  | false =>
    rcases run_pure.mp h₂ with ⟨rfl, rfl⟩
    exact .inl ⟨rfl, by rwa [List.append_nil]⟩

theorem run_guard_true {p f : Cmd Bool}
    (h : Run (p >>= fun ok => if ¬ ok = true then pure false else f) tr true) :
    ∃ t₁ t₂, tr = t₁ ++ t₂ ∧ Run p t₁ true ∧ Run f t₂ true :=
  (run_guard h).resolve_left (fun hf => Bool.false_ne_true hf.1.symm)

end Runs
end InfraFi.Daemon
