import InfraFi.Base.Memory
import InfraFi.Daemon.Quoting

/-! # The buffer that `shell_escape` fills

`shell_escape` writes byte by byte and checks its room before each of its three
kinds of step. What it leaves in the buffer is the escaped string and a NUL, or
it returns 0 with the buffer partly overwritten.
-/
namespace InfraFi.Daemon
open Base Protocol Shell

/-- The loop of `shell_escape` at its position in `dst`, which has room for `dstSize` bytes.
`src` is what is left of the object that holds the string, which has to have a NUL. -/
def shellEscapeLoop (dstSize : ℕ) : Bytes → Bytes → ℕ → Exec (ℕ × Bytes)
  | [], _, _ => .error .fault
  | c :: src, dst, pos =>
    if c = 0 then do
      if pos + 1 ≥ dstSize then return (0, dst)
      let dst ← store dst pos quote
      let dst ← store dst (pos + 1) 0
      return (pos + 1, dst)
    else if c = quote then do
      if pos + 4 ≥ dstSize then return (0, dst)
      let dst ← store dst pos quote
      let dst ← store dst (pos + 1) Shell.backslash
      let dst ← store dst (pos + 2) quote
      let dst ← store dst (pos + 3) quote
      shellEscapeLoop dstSize src dst (pos + 4)
    else do
      if pos + 1 ≥ dstSize then return (0, dst)
      let dst ← store dst pos c
      shellEscapeLoop dstSize src dst (pos + 1)

/-- `shell_escape` with its buffer: the bytes written, excluding the NUL, or 0 on overflow, and the
buffer as it is left. -/
def shellEscapeInto (src dst : Bytes) (dstSize : ℕ) : Exec (ℕ × Bytes) := do
  if 0 ≥ dstSize then return (0, dst)
  let dst ← store dst 0 quote
  shellEscapeLoop dstSize src dst 1

/-! ## What is left in the buffer -/

/-- A buffer that holds a text and its NUL, and the length of the text; without a text it is 0. -/
def HoldsText (dst : Bytes) (n : ℕ) : Option Bytes → Prop
  | some text => n = text.length ∧ ∃ left, dst = text ++ 0 :: left
  | none => n = 0

/-- A call ends with a text, or none, in the buffer, and `beyond` unchanged behind the buffer. -/
def Leaves (dstSize : ℕ) (beyond : Bytes) (x : Exec (ℕ × Bytes)) (text : Option Bytes) : Prop :=
  ∃ n dst, x = .ok (n, dst ++ beyond) ∧ dst.length = dstSize ∧ HoldsText dst n text

section Buffer
variable {dstSize pos : ℕ} {written room : Bytes}

/-- The next byte of the room is overwritten. -/
theorem store_room (hpos : written.length = pos) (hroom : 0 < room.length) (beyond : Bytes)
    (b : UInt8) : store (written ++ (room ++ beyond)) pos b =
      .ok ((written ++ [b]) ++ (room.tail ++ beyond)) := by
  cases room with
  | nil => cases hroom
  | cons r room =>
    rw [← hpos, List.cons_append, store_append, List.append_assoc]
    rfl

theorem store_room_four (hpos : written.length = pos) (hroom : 4 ≤ room.length) (beyond : Bytes)
    (b₁ b₂ b₃ b₄ : UInt8) {ρ : Type} (k : Bytes → Exec ρ) :
    (do
      let dst ← store (written ++ (room ++ beyond)) pos b₁
      let dst ← store dst (pos + 1) b₂
      let dst ← store dst (pos + 2) b₃
      let dst ← store dst (pos + 3) b₄
      k dst) = k ((written ++ [b₁, b₂, b₃, b₄]) ++ (room.drop 4 ++ beyond)) := by
  have h₁ : (written ++ [b₁]).length = pos + 1 := by simp [hpos]
  have h₂ : (written ++ [b₁] ++ [b₂]).length = pos + 2 := by simp [hpos]
  have h₃ : (written ++ [b₁] ++ [b₂] ++ [b₃]).length = pos + 3 := by simp [hpos]
  have hdrop : room.drop 4 = room.tail.tail.tail.tail := by
    simp only [← List.drop_one, List.drop_drop]
  have hlen : room.tail.length = room.length - 1 ∧ room.tail.tail.length = room.length - 2 ∧
      room.tail.tail.tail.length = room.length - 3 := by simp [Nat.sub_sub]
  rw [store_room hpos (by omega), Exec.ok_bind, store_room h₁ (by omega), Exec.ok_bind,
    store_room h₂ (by omega), Exec.ok_bind, store_room h₃ (by omega), Exec.ok_bind, hdrop]
  simp only [List.append_assoc]
  rfl

theorem leaves_overflow (beyond : Bytes) (hsize : written.length + room.length = dstSize) :
    Leaves dstSize beyond (.ok (0, written ++ (room ++ beyond))) none := by
  refine ⟨0, written ++ room, by rw [List.append_assoc], ?_, rfl⟩
  rw [List.length_append, hsize]

/-- At the end of the string, the closing quote and the NUL still have to fit. -/
theorem leaves_end (rest beyond : Bytes) (hpos : written.length = pos)
    (hsize : pos + room.length = dstSize) :
    Leaves dstSize beyond (shellEscapeLoop dstSize (0 :: rest) (written ++ (room ++ beyond)) pos)
      ((shellEscapeFrom dstSize [] pos).map (written ++ ·)) := by
  rw [shellEscapeLoop, shellEscapeFrom, if_pos rfl]
  by_cases hfull : pos + 1 ≥ dstSize
  · rw [if_pos hfull, if_pos hfull]
    exact leaves_overflow beyond (hpos.symm ▸ hsize)
  · have hnext : (written ++ [quote]).length = pos + 1 := by simp [hpos]
    have htail : 0 < room.tail.length := by
      rw [List.length_tail]
      omega
    rw [if_neg hfull, if_neg hfull, store_room hpos (by omega), Exec.ok_bind,
      store_room hnext htail, Exec.ok_bind, ← List.append_assoc _ _ beyond]
    refine ⟨pos + 1, written ++ [quote] ++ [0] ++ room.tail.tail, rfl, ?_, ?_⟩
    · simp only [List.length_append, List.length_tail, List.length_singleton, hpos]
      omega
    · exact ⟨hnext.symm, room.tail.tail, List.append_assoc ..⟩

/-- The loop writes what `shellEscapeFrom` gives, or stops in the middle of it. -/
theorem leaves_loop {s : Bytes} (hs : 0 ∉ s) (rest beyond : Bytes) (hpos : written.length = pos)
    (hsize : pos + room.length = dstSize) :
    Leaves dstSize beyond
      (shellEscapeLoop dstSize (s ++ 0 :: rest) (written ++ (room ++ beyond)) pos)
      ((shellEscapeFrom dstSize s pos).map (written ++ ·)) := by
  induction s generalizing written room pos with
  | nil => exact leaves_end rest beyond hpos hsize
  | cons c s ih =>
    rw [List.mem_cons, not_or] at hs
    -- the rest of the loop, behind the bytes that are written for `c`
    have hnext (new : Bytes) (hfits : pos + new.length < dstSize) :
        Leaves dstSize beyond (shellEscapeLoop dstSize (s ++ 0 :: rest)
            ((written ++ new) ++ (room.drop new.length ++ beyond)) (pos + new.length))
          (((shellEscapeFrom dstSize s (pos + new.length)).map (new ++ ·)).map (written ++ ·)) := by
      have hassoc : (written ++ ·) ∘ (new ++ ·) = ((written ++ new) ++ ·) := by
        funext text
        exact (List.append_assoc ..).symm
      rw [Option.map_map, hassoc]
      apply ih hs.2
      · rw [List.length_append, hpos]
      · rw [List.length_drop]
        omega
    have hstop := leaves_overflow beyond (hpos.symm ▸ hsize)
    rw [List.cons_append, shellEscapeLoop, shellEscapeFrom, if_neg (Ne.symm hs.1)]
    by_cases hc : c = quote
    · rw [if_pos hc, if_pos hc]
      by_cases hfull : pos + 4 ≥ dstSize
      · rw [if_pos hfull, if_pos hfull]
        exact hstop
      · rw [if_neg hfull, if_neg hfull, store_room_four hpos (by omega)]
        exact hnext (ascii "'\\''") (Nat.lt_of_not_le hfull)
    · rw [if_neg hc, if_neg hc]
      by_cases hfull : pos + 1 ≥ dstSize
      · rw [if_pos hfull, if_pos hfull]
        exact hstop
      · rw [if_neg hfull, if_neg hfull, store_room hpos (by omega), Exec.ok_bind, ← List.drop_one]
        exact hnext [c] (Nat.lt_of_not_le hfull)

end Buffer

/-- `shell_escape` writes nothing behind its buffer, and leaves in it what `shellEscape` gives. -/
theorem leaves_shellEscapeInto {s : Bytes} (hs : 0 ∉ s) (rest dst beyond : Bytes) :
    Leaves dst.length beyond (shellEscapeInto (s ++ 0 :: rest) (dst ++ beyond) dst.length)
      (shellEscape s dst.length) := by
  unfold shellEscapeInto shellEscape
  by_cases hempty : 0 ≥ dst.length
  · rw [if_pos hempty, if_pos hempty]
    exact ⟨0, dst, rfl, rfl, rfl⟩
  · have hstore : store (dst ++ beyond) 0 quote = .ok ([quote] ++ (dst.tail ++ beyond)) :=
      @store_room 0 [] dst rfl (Nat.lt_of_not_le hempty) beyond quote
    rw [if_neg hempty, if_neg hempty, hstore, Exec.ok_bind]
    apply leaves_loop hs rest beyond (List.length_singleton ..)
    rw [List.length_tail]
    omega

/-! ## What the shell makes of it -/

theorem escapedText_nulFree {s : Bytes} (hs : 0 ∉ s) : 0 ∉ escapedText s := by
  have hbytes : 0 ∉ escapedBytes s := by
    intro hmem
    rcases List.mem_flatMap.mp hmem with ⟨c, hc, hzero⟩
    split at hzero
    · exact absurd hzero (by decide)
    · rw [List.mem_singleton.mp hzero] at hs
      exact hs hc
  have hquote : 0 ≠ quote := by decide
  simp [escapedText, hbytes, hquote]

/-- `shell_escape` is exact: it stays inside its buffer, and unless it returns 0 the buffer holds one
word of the shell with the string as its value. The buffers for the credentials and the command lines
built from them are large enough. -/
theorem shellEscape_exact :
    (∀ s rest dst beyond : Bytes, 0 ∉ s → ∃ n dst',
      shellEscapeInto (s ++ 0 :: rest) (dst ++ beyond) dst.length = .ok (n, dst' ++ beyond) ∧
      dst'.length = dst.length ∧
      (n ≠ 0 → n < dst.length ∧ dst'[n]? = some 0 ∧ (cstr dst').length = n ∧
        tokenise (cstr dst') = some [.word (s.map .quoted)] ∧
        ∀ more, tokenise (cstr dst' ++ 0x20 :: more) =
          (tokenise more).map (.word (s.map .quoted) :: ·)) ∧
      (s.length ≤ 63 → dst.length = 256 → n ≠ 0) ∧
      shellEscape s dst.length = if n = 0 then none else some (cstr dst')) ∧
    (∀ creds : WfrWifiCreds, ∃ ssid pass, shellEscape creds.ssid.bytes 256 = some ssid ∧
      shellEscape creds.password.bytes 256 = some pass ∧
      nmcliConnectCmd creds ssid pass = nmcliConnectText creds ssid pass) ∧
    (∀ ssid escaped : Bytes, shellEscape ssid 256 = some escaped → rollbackNmcli ssid = do
      let status ← runCmd (ascii "nmcli con up " ++ escaped ++ ascii " 2>&1")
      return status = 0) := by
  refine ⟨fun s rest dst beyond hs => ?_, fun creds => ?_, fun ssid escaped hescaped => ?_⟩
  · rcases leaves_shellEscapeInto hs rest dst beyond with ⟨n, dst', hrun, hlen, hholds⟩
    refine ⟨n, dst', hrun, hlen, ?_⟩
    cases hres : shellEscape s dst.length with
    | none =>
      rw [hres] at hholds
      have hn : n = 0 := hholds
      refine ⟨fun hne => absurd hn hne, fun hs63 h256 => ?_, (if_pos hn).symm⟩
      rcases shellEscape_eq_some hs63 with ⟨text, htext, -⟩
      rw [h256, htext] at hres
      cases hres
    | some text =>
      rw [hres] at hholds
      rcases hholds with ⟨rfl, left, rfl⟩
      rcases escapedText_of_shellEscape hres with ⟨rfl, hlt⟩
      have hcstr : cstr (escapedText s ++ 0 :: left) = escapedText s :=
        cstr_terminated (escapedText_nulFree hs) left
      have hpos : (escapedText s).length ≠ 0 := Nat.succ_ne_zero _
      rw [hcstr, if_neg hpos]
      refine ⟨fun _ => ⟨hlt, ?_, rfl, ?_, ?_⟩, fun _ _ => hpos, rfl⟩
      · simp
      · exact tokenise_word (run_escapedText s)
      · exact tokenise_word_append (run_escapedText s)
  · have hssid : creds.ssid.bytes.length ≤ 63 := creds.ssid.length_le.trans (by decide)
    rcases shellEscape_eq_some hssid with ⟨ssid, hs, hslen, -⟩
    rcases shellEscape_eq_some creds.password.length_le with ⟨pass, hp, hplen, -⟩
    exact ⟨ssid, pass, hs, hp, nmcliConnectCmd_eq creds hslen (fun _ => hplen)⟩
  · have hlt := (escapedText_of_shellEscape hescaped).2
    have hlens : (ascii "nmcli con up ").length = 13 ∧ (ascii " 2>&1").length = 5 := by decide
    have hfits : snprintf 512 (ascii "nmcli con up " ++ escaped ++ ascii " 2>&1") =
        ascii "nmcli con up " ++ escaped ++ ascii " 2>&1" := by
      apply snprintf_of_lt
      simp only [List.length_append, hlens]
      omega
    rw [rollbackNmcli, hescaped]
    simp only [hfits]

/-- The longest text that a password leads to: 63 single quotes fill 254 of the 256 bytes. -/
theorem shellEscape_exact_quotes : ∃ dst',
    shellEscapeInto (List.replicate 63 quote ++ [0]) (List.replicate 256 0) 256 = .ok (254, dst') ∧
    tokenise (cstr dst') = some [.word (List.replicate 63 (.quoted quote))] := by
  have hfull : (shellEscape (List.replicate 63 quote) 256).map List.length = some 254 := by
    decide +kernel
  rcases shellEscape_exact.1 (List.replicate 63 quote) [] (List.replicate 256 0) [] (by decide) with
    ⟨n, dst', hrun, -, hword, hfits, hres⟩
  have hn : n ≠ 0 := hfits (le_of_eq List.length_replicate) List.length_replicate
  rcases hword hn with ⟨-, -, hlen, hone, -⟩
  rw [List.length_replicate, if_neg hn] at hres
  rw [hres, Option.map_some, hlen] at hfull
  cases hfull
  rw [List.length_replicate, List.append_nil, List.append_nil] at hrun
  exact ⟨dst', hrun, hone⟩

end InfraFi.Daemon
