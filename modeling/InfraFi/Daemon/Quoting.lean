import InfraFi.Base.Shell
import InfraFi.Daemon.Network
import Mathlib.Data.List.Count

/-! # How the credentials are quoted in command lines

`shell_escape` makes one word of any string. The `wpa_cli` commands paste the
string between single quotes, which makes one word of it as long as it has no
single quote and the text before it leaves the quote where it is meant to be.
-/
namespace InfraFi.Daemon
open Base Protocol Shell

/-! ## Escaped strings -/

/-- A string with `'\''` for each of its single quotes. -/
def escapedBytes (src : Bytes) : Bytes :=
  src.flatMap fun c => if c = quote then ascii "'\\''" else [c]

def escapedText (src : Bytes) : Bytes := quote :: (escapedBytes src ++ [quote])

section Escape
variable {src text : Bytes} {dstSize : ℕ}

theorem escapedBytes_cons (c : UInt8) (src : Bytes) :
    escapedBytes (c :: src) = (if c = quote then ascii "'\\''" else [c]) ++ escapedBytes src := rfl

theorem escapedBytes_length_le (src : Bytes) : (escapedBytes src).length ≤ 4 * src.length := by
  induction src with
  | nil => rfl
  | cons c src ih =>
    have hc : (if c = quote then ascii "'\\''" else [c]).length ≤ 4 := by
      split
      · exact le_refl 4
      · exact Nat.le_of_ble_eq_true rfl
    rw [escapedBytes_cons, List.length_append, List.length_cons]
    omega

/-- The three checks of the room together are one check of the whole text. -/
theorem shellEscapeFrom_eq (dstSize : ℕ) (src : Bytes) (pos : ℕ) :
    shellEscapeFrom dstSize src pos =
      if pos + (escapedBytes src).length + 1 < dstSize then some (escapedBytes src ++ [quote])
      else none := by
  induction src generalizing pos with
  | nil =>
    rw [shellEscapeFrom, ← ite_not]
    simp only [escapedBytes, List.flatMap_nil, List.length_nil, ge_iff_le, not_le, add_zero]
    rfl
  | cons c src ih =>
    have hstep (new : Bytes) : (if pos + new.length ≥ dstSize then none
        else (shellEscapeFrom dstSize src (pos + new.length)).map (new ++ ·)) =
        if pos + (new ++ escapedBytes src).length + 1 < dstSize then
          some (new ++ escapedBytes src ++ [quote]) else none := by
      rw [ih, List.length_append, ← Nat.add_assoc pos]
      by_cases hfits : pos + new.length + (escapedBytes src).length + 1 < dstSize
      · rw [if_neg (by omega), if_pos hfits, if_pos hfits, Option.map_some, List.append_assoc]
      · rw [if_neg hfits, if_neg hfits, Option.map_none, ite_self]
    rw [shellEscapeFrom, escapedBytes_cons]
    split
    · exact hstep (ascii "'\\''")
    · exact hstep [c]

/-- A string is escaped if the whole text fits into the buffer with its NUL. -/
theorem shellEscape_eq (src : Bytes) (dstSize : ℕ) : shellEscape src dstSize =
    if (escapedText src).length < dstSize then some (escapedText src) else none := by
  have hlen : (escapedText src).length = 1 + (escapedBytes src).length + 1 := by
    simp [escapedText, Nat.add_comm]
  rw [shellEscape, shellEscapeFrom_eq, hlen]
  by_cases hfits : 1 + (escapedBytes src).length + 1 < dstSize
  · rw [if_neg (by omega), if_pos hfits, if_pos hfits]
    rfl
  · rw [if_neg hfits, if_neg hfits, Option.map_none, ite_self]

theorem run_escapedBytes (src : Bytes) (gs : List Glyph) :
    run (.single gs) (escapedBytes src) = ([], .single (gs ++ src.map .quoted)) := by
  induction src generalizing gs with
  | nil => simp [escapedBytes, run]
  | cons c src ih =>
    have hstep : run (.single gs) (if c = quote then ascii "'\\''" else [c]) =
        ([], .single (gs ++ [.quoted c])) := by
      split
      · next hc =>
        rw [hc]
        rfl
      · next hc =>
        have hne : ¬ c = squote := hc
        simp [run, step, hne]
    rw [escapedBytes_cons, run_append, hstep, ih]
    simp

/-- An escaped string is one word, which carries the string. -/
theorem run_escapedText (src : Bytes) :
    run .plain (escapedText src) = ([], .word (src.map .quoted)) := by
  have hopen : step .plain quote = ([], .single []) := rfl
  rw [escapedText, run, hopen, run_append, run_escapedBytes]
  rfl

theorem escapedText_of_shellEscape (h : shellEscape src dstSize = some text) :
    text = escapedText src ∧ text.length < dstSize := by
  rw [shellEscape_eq] at h
  split at h
  · next hfits =>
    cases h
    exact ⟨rfl, hfits⟩
  · cases h

/-- The buffers hold every SSID and every password. -/
theorem shellEscape_eq_some (h : src.length ≤ 63) :
    ∃ text, shellEscape src 256 = some text ∧ text.length < 256 ∧
      run .plain text = ([], .word (src.map .quoted)) := by
  have hfits : (escapedText src).length < 256 := by
    have hle := escapedBytes_length_le src
    simp only [escapedText, List.length_cons, List.length_append, List.length_nil]
    omega
  exact ⟨escapedText src, by rw [shellEscape_eq, if_pos hfits], hfits, run_escapedText src⟩

end Escape

/-! ## NetworkManager -/

/-- The text of the `nmcli` command of `wfr_net_connect_nmcli`, before it is put into its buffer. -/
def nmcliConnectText (creds : WfrWifiCreds) (escapedSsid escapedPass : Bytes) : Bytes :=
  let hidden := if creds.hidden then ascii " hidden yes" else []
  if creds.security = wfrSecOpen then
    ascii "nmcli dev wifi connect " ++ escapedSsid ++ hidden ++ ascii " 2>&1"
  else
    ascii "nmcli dev wifi connect " ++ escapedSsid ++ ascii " password " ++ escapedPass ++ hidden ++
      ascii " 2>&1"

/-- The buffer is large enough. An open network has no password in its command. -/
theorem nmcliConnectCmd_eq (creds : WfrWifiCreds) {ssid pass : Bytes} (hssid : ssid.length < 256)
    (hpass : creds.security ≠ wfrSecOpen → pass.length < 256) :
    nmcliConnectCmd creds ssid pass = nmcliConnectText creds ssid pass := by
  have hhidden : (if creds.hidden then ascii " hidden yes" else []).length ≤ 11 := by
    cases creds.hidden <;> decide
  have hlens : (ascii "nmcli dev wifi connect ").length = 23 ∧ (ascii " password ").length = 10 ∧
      (ascii " 2>&1").length = 5 := by decide
  by_cases hopen : creds.security = wfrSecOpen
  · rw [nmcliConnectCmd, nmcliConnectText, if_pos hopen, if_pos hopen]
    apply snprintf_of_lt
    simp only [List.length_append, hlens]
    omega
  · have hplen := hpass hopen
    rw [nmcliConnectCmd, nmcliConnectText, if_neg hopen, if_neg hopen]
    apply snprintf_of_lt
    simp only [List.length_append, hlens]
    omega

/-- What follows the credentials in the `nmcli` command. -/
def nmcliTail (hidden : Bool) : Bytes :=
  if hidden then ascii "hidden yes 2>&1" else ascii "2>&1"

theorem append_nmcliTail (hidden : Bool) :
    (if hidden then ascii " hidden yes" else []) ++ ascii " 2>&1" = 0x20 :: nmcliTail hidden := by
  cases hidden <;> rfl

section Nmcli
variable {creds : WfrWifiCreds} {escapedSsid escapedPass : Bytes}

theorem nmcliConnectCmd_open (hopen : creds.security = wfrSecOpen) (hssid : escapedSsid.length < 256) :
    nmcliConnectCmd creds escapedSsid escapedPass =
      ascii "nmcli dev wifi connect " ++ escapedSsid ++ 0x20 :: nmcliTail creds.hidden := by
  rw [nmcliConnectCmd_eq creds hssid (absurd hopen), nmcliConnectText, if_pos hopen, List.append_assoc,
    append_nmcliTail]

theorem nmcliConnectCmd_password (hopen : creds.security ≠ wfrSecOpen)
    (hssid : escapedSsid.length < 256) (hpass : escapedPass.length < 256) :
    nmcliConnectCmd creds escapedSsid escapedPass =
      ascii "nmcli dev wifi connect " ++ escapedSsid ++ 0x20 ::
        (ascii "password " ++ escapedPass ++ 0x20 :: nmcliTail creds.hidden) := by
  have hkey : ascii " password " = 0x20 :: ascii "password " := rfl
  rw [nmcliConnectCmd_eq creds hssid (fun _ => hpass), nmcliConnectText, if_neg hopen,
    List.append_assoc _ _ (ascii " 2>&1"), append_nmcliTail, hkey]
  simp only [List.append_assoc, List.cons_append]

end Nmcli

theorem tokenise_nmcliTail (hidden : Bool) : (tokenise (nmcliTail hidden)).isSome := by
  cases hidden <;> decide +kernel

/-! ## Values pasted between single quotes -/

/-- `'"value"'`. -/
def pasted (value : Bytes) : Bytes := ascii "'\"" ++ value ++ ascii "\"'"

/-- The text of a `set_network` command before its value. -/
def beforeValue (iface netId key : Bytes) : Bytes :=
  ascii "wpa_cli -i " ++ iface ++ ascii " set_network " ++ netId ++ ascii " " ++ key ++ ascii " "

/-- A `set_network` command from its value on. -/
def valueLine (pre value : Bytes) : Bytes := pre ++ pasted value ++ 0x20 :: ascii "2>/dev/null"

section Pasted
variable {iface netId value pre : Bytes}

theorem setNetworkCmd_eq (key : Bytes) (hiface : iface.length ≤ 31) (hid : netId.length ≤ 7)
    (hkey : key.length ≤ 4) (hvalue : value.length ≤ 63) :
    setNetworkCmd iface netId (key ++ ascii " '\"" ++ value ++ ascii "\"'") =
      valueLine (beforeValue iface netId key) value := by
  have hset : ascii " set_network " = ascii " " ++ ascii "set_network " := rfl
  have hopen : ascii " '\"" = ascii " " ++ ascii "'\"" := rfl
  have hend : ascii " 2>/dev/null" = 0x20 :: ascii "2>/dev/null" := rfl
  have heq : ascii "wpa_cli -i " ++ iface ++ ascii " " ++ (ascii "set_network " ++ netId ++ ascii " " ++
      (key ++ ascii " '\"" ++ value ++ ascii "\"'")) ++ ascii " 2>/dev/null" =
      valueLine (beforeValue iface netId key) value := by
    rw [valueLine, beforeValue, pasted, hset, hopen, hend]
    simp only [List.append_assoc]
  have hlens : (ascii "wpa_cli -i ").length = 11 ∧ (ascii " set_network ").length = 13 ∧
      (ascii " ").length = 1 ∧ (ascii "'\"").length = 2 ∧ (ascii "\"'").length = 2 ∧
      (ascii "2>/dev/null").length = 11 := by decide
  rw [setNetworkCmd, wpaCliCmd, heq]
  apply snprintf_of_lt
  simp only [valueLine, beforeValue, pasted, List.length_append, List.length_cons, hlens]
  omega

theorem setSsidCmd_eq (hiface : iface.length ≤ 31) (hid : netId.length ≤ 7) (hvalue : value.length ≤ 63) :
    setSsidCmd iface netId value = valueLine (beforeValue iface netId (ascii "ssid")) value :=
  setNetworkCmd_eq (ascii "ssid") hiface hid (by decide) hvalue

theorem setPskCmd_eq (hiface : iface.length ≤ 31) (hid : netId.length ≤ 7) (hvalue : value.length ≤ 63) :
    setPskCmd iface netId value = valueLine (beforeValue iface netId (ascii "psk")) value :=
  setNetworkCmd_eq (ascii "psk") hiface hid (by decide) hvalue

/-- A value without a single quote stays between the quotes. -/
theorem run_pasted (h : squote ∉ value) :
    run .plain (pasted value) =
      ([], .word ([.quoted dquote] ++ value.map .quoted ++ [.quoted dquote])) := by
  have hopen : run .plain (ascii "'\"") = ([], .single [.quoted dquote]) := rfl
  have hclose (gs : List Glyph) :
      run (.single gs) (ascii "\"'") = ([], .word (gs ++ [.quoted dquote])) := rfl
  rw [pasted, run_append, run_append, hopen, run_single h, hclose]
  rfl

end Pasted

/-! ## What a line of the right shape says about its quotes

The line is compared with the line for a value of letters. The part after the
value opens a quote again unless the value ends inside single quotes.
-/

/-- A `set_network` command after its value. -/
def afterValue : Bytes := ascii "\"' 2>/dev/null"

theorem valueLine_eq (pre value : Bytes) :
    valueLine pre value = pre ++ (ascii "'\"" ++ (value ++ afterValue)) := by
  have hend : ascii "\"'" ++ 0x20 :: ascii "2>/dev/null" = afterValue := rfl
  simp only [valueLine, pasted, List.append_assoc, hend]

/-- After the double quote and the single quote. -/
def afterQuotes : Bytes := ascii " 2>/dev/null"

theorem afterQuotes_notMem : squote ∉ afterQuotes ∧ dquote ∉ afterQuotes ∧ newline ∉ afterQuotes := by
  decide

theorem run_afterValue (m : Mode) :
    run m afterValue = ((step m dquote).1 ++ ((step (step m dquote).2 squote).1 ++
        (run (step (step m dquote).2 squote).2 afterQuotes).1),
      (run (step (step m dquote).2 squote).2 afterQuotes).2) := rfl

/-- A line that ends after the value was in single quotes there, or in a comment. -/
theorem mode_of_finish_afterValue (m : Mode) (h : (finish (run m afterValue).2).isSome) :
    m = .comment ∨ ∃ gs, m = .single gs := by
  rcases afterQuotes_notMem with ⟨hs, hd, -⟩
  rw [run_afterValue] at h
  have hdouble {gs : List Glyph} (hm : (step (step m dquote).2 squote).2 = .double gs) : False := by
    rw [hm, (finish_double hd gs).1] at h
    cases h
  have hsingle {gs : List Glyph} (hm : (step (step m dquote).2 squote).2 = .single gs) : False := by
    rw [hm, finish_single hs gs] at h
    cases h
  cases m with
  | plain => exact (hdouble rfl).elim
  | comment => exact .inl rfl
  | operator bs =>
    have hshort : bs ++ [dquote] ∉ longOperators := by
      intro hlong
      rcases last_longOperator hlong with hop | hop <;> revert hop <;> decide
    have hstep : step (.operator bs) dquote = ([.op bs], .double []) := by
      rw [step, if_neg hshort]
      rfl
    exact (hdouble (by rw [hstep]; rfl)).elim
  | word gs => exact (hdouble rfl).elim
  | single gs => exact .inr ⟨gs, rfl⟩
  | double gs => exact (hsingle rfl).elim
  | doubleEscape gs => exact (hdouble rfl).elim
  | escape m => exact (hsingle rfl).elim

/-- Where a line ends after the value, the rest adds no quote to its words. -/
theorem count_afterValue (m : Mode) (h : (finish (run m afterValue).2).isSome) :
    (glyphs (run m afterValue)).count (.quoted squote) ≤ m.glyphs.count (.quoted squote) := by
  rcases mode_of_finish_afterValue m h with rfl | ⟨gs, rfl⟩
  · rw [run_comment (by decide)]
    exact Nat.zero_le _
  · rcases run_glyphs (.word (gs ++ [.quoted dquote])) afterQuotes with ⟨new, hnew, hcount⟩
    have hrun : run (.single gs) afterValue = run (.word (gs ++ [.quoted dquote])) afterQuotes := by
      rw [run_afterValue]
      rfl
    have hzero : afterQuotes.count squote = 0 := List.count_eq_zero_of_not_mem afterQuotes_notMem.1
    have hdquote : List.count (Glyph.quoted squote) [.quoted dquote] = 0 := by decide
    rw [hrun, hnew, List.count_append]
    simp only [Mode.glyphs, List.count_append]
    omega

section Converse
variable {pre v lv : Bytes} {vs : List (Bytes × Bytes)}

theorem resting_beforeValue (iface netId key : Bytes) {b : UInt8} (hb : isLetter b = true) :
    Resting (run .plain (beforeValue iface netId (key ++ [b]))).2 := by
  have heq : beforeValue iface netId (key ++ [b]) =
      ascii "wpa_cli -i " ++ iface ++ ascii " set_network " ++ netId ++ ascii " " ++ key ++ [b, 0x20] := by
    simp only [beforeValue, List.append_assoc]
    rfl
  rw [heq, run_append_snd]
  exact resting_letter_blank hb _

theorem finish_of_tokenise {line : Bytes} {ts : List Token} (h : tokenise line = some ts) :
    (finish (run .plain line).2).isSome := by
  rw [tokenise] at h
  rw [← Option.isSome_map, h]
  rfl

/-- In a complete line the value ends in single quotes or in a comment. -/
theorem mode_of_tokenise {ts : List Token} (h : tokenise (valueLine pre v) = some ts) :
    (run (run .plain pre).2 (ascii "'\"" ++ v)).2 = .comment ∨
      ∃ gs, (run (run .plain pre).2 (ascii "'\"" ++ v)).2 = .single gs := by
  have hsome := finish_of_tokenise h
  rw [valueLine_eq, run_append_snd, ← List.append_assoc, run_append_snd] at hsome
  exact mode_of_finish_afterValue _ hsome

/-- A comment takes in the value and all that follows. -/
theorem tokenise_comment (hpre : (run .plain pre).2 = .comment) (hv : newline ∉ v) :
    tokenise (valueLine pre v) = some (run .plain pre).1 := by
  have hrest : newline ∉ ascii "'\"" ++ (v ++ afterValue) := by
    simp only [List.mem_append, not_or]
    exact ⟨by decide, hv, by decide⟩
  rw [tokenise, valueLine_eq, run_append, hpre, run_comment hrest]
  simp [finish]

/-- A newline in the value ends the comment and is a token. -/
theorem length_comment (hpre : (run .plain pre).2 = .comment) (hv : newline ∈ v) {ts : List Token}
    (h : tokenise (valueLine pre v) = some ts) : (run .plain pre).1.length < ts.length := by
  rcases List.eq_append_cons_of_mem hv with ⟨v₁, v₂, rfl, hv₁⟩
  have hfirst : newline ∉ ascii "'\"" ++ v₁ := by
    simp only [List.mem_append, not_or]
    exact ⟨by decide, hv₁⟩
  have hline : valueLine pre (v₁ ++ newline :: v₂) =
      pre ++ ((ascii "'\"" ++ v₁) ++ newline :: (v₂ ++ afterValue)) := by
    rw [valueLine_eq]
    simp only [List.append_assoc, List.cons_append]
  have hpending := run_pending (.operator [newline]) (v₂ ++ afterValue)
  have hop : (Mode.operator [newline]).pending = 1 := rfl
  rw [(tokenise_eq_some h).2, hline, run_append, hpre, run_append, run_comment hfirst]
  have hnl : run .comment (newline :: (v₂ ++ afterValue)) =
      run (.operator [newline]) (v₂ ++ afterValue) := rfl
  simp only [hnl, List.nil_append, List.length_append]
  omega

/-- The opening quote is read outside quotes and comments. -/
theorem plain_of_sameShape (hrest : Resting (run .plain pre).2) (hlv : ∀ b ∈ lv, isLetter b = true)
    (hvs : vs ≠ []) (hne : ∀ q ∈ vs, q.1 ≠ q.2)
    (h : SameShape vs (valueLine pre v) (valueLine pre lv)) : (run .plain pre).2 = .plain := by
  rcases h with ⟨ts, ts', hts, hts', hcarried⟩
  rcases hrest with hplain | hcomment | ⟨gs, hgs⟩ | ⟨gs, hgs⟩
  · exact hplain
  · have hts'' := tokenise_comment hcomment (letters_notMem hlv (by decide))
    cases hts''.symm.trans hts'
    by_cases hv : newline ∈ v
    · have hlen := length_comment hcomment hv hts
      have heq := hcarried.length_eq
      omega
    · cases (tokenise_comment hcomment hv).symm.trans hts
      cases vs with
      | nil => exact absurd rfl hvs
      | cons q vs => exact absurd (hcarried.eq_of_same rfl) (hne q (List.mem_cons_self ..))
  · have hopen : run (.single gs) (ascii "'\"") = ([], .double gs) := rfl
    have hmode := mode_of_tokenise hts'
    rw [hgs, run_append_snd, hopen, run_double_letters hlv] at hmode
    rcases hmode with hm | ⟨gs', hm⟩ <;> cases hm
  · have hopen : run (.double gs) (ascii "'\"") = ([], .word (gs ++ [.quoted squote])) := rfl
    have hmode := mode_of_tokenise hts'
    rw [hgs, run_append_snd, hopen, run_word_letters hlv] at hmode
    rcases hmode with hm | ⟨gs', hm⟩ <;> cases hm

theorem count_map_quoted (v : Bytes) :
    (v.map Glyph.quoted).count (.quoted squote) = v.count squote :=
  List.count_map_of_injective v Glyph.quoted (fun _ _ h => Glyph.quoted.inj h) squote

/-- A quote in the value closes the quotes around it and is itself in no word. -/
theorem count_glyphs_lt (hpre : (run .plain pre).2 = .plain) (hv : squote ∈ v) {ts : List Token}
    (h : tokenise (valueLine pre v) = some ts) :
    (ts.flatMap Token.glyphs).count (.quoted squote) <
      ((run .plain pre).1.flatMap Token.glyphs).count (.quoted squote) + v.count squote := by
  have hfinish := finish_of_tokenise h
  rcases List.eq_append_cons_of_mem hv with ⟨v₁, v₂, rfl, hv₁⟩
  have hopen : run .plain (ascii "'\"") = ([], .single [.quoted dquote]) := rfl
  -- the word as it is when the first quote in the value has closed it
  have hword (rest : Bytes) : run (.single ([.quoted dquote] ++ v₁.map .quoted)) (squote :: rest) =
      run (.word ([.quoted dquote] ++ v₁.map .quoted)) rest := rfl
  have hline : run .plain (valueLine pre (v₁ ++ squote :: v₂)) =
      ((run .plain pre).1 ++
        (run (.word ([.quoted dquote] ++ v₁.map .quoted)) (v₂ ++ afterValue)).1,
        (run (.word ([.quoted dquote] ++ v₁.map .quoted)) (v₂ ++ afterValue)).2) := by
    rw [valueLine_eq, List.append_assoc, List.cons_append, run_append, hpre, run_append, hopen,
      run_append, run_single hv₁, hword]
    rfl
  rw [hline, run_append_snd] at hfinish
  rcases run_glyphs (.word ([.quoted dquote] ++ v₁.map .quoted)) v₂ with ⟨new, hnew, hcount⟩
  have hafter := count_afterValue _ hfinish
  have hrest := glyphs_append (.word ([.quoted dquote] ++ v₁.map .quoted)) v₂ afterValue
  have hzero : List.count (Glyph.quoted squote) ([.quoted dquote] ++ v₁.map .quoted) = 0 := by
    rw [List.count_append, count_map_quoted, List.count_eq_zero_of_not_mem hv₁]
    rfl
  have hvalue : (v₁ ++ squote :: v₂).count squote = v₂.count squote + 1 := by
    rw [List.count_append, List.count_eq_zero_of_not_mem hv₁, List.count_cons_self]
    omega
  have hbound := congrArg (List.count (Glyph.quoted squote)) hnew
  rw [List.count_append, Mode.glyphs, hzero, glyphs, List.count_append] at hbound
  rw [(tokenise_eq_some h).1, hline, hvalue, glyphs, List.flatMap_append, List.append_assoc, ← glyphs,
    hrest, List.count_append, List.count_append]
  omega

theorem notMem_of_sameShape (hpre : (run .plain pre).2 = .plain) (hv : (v, lv) ∈ vs)
    (hvs : ∀ q ∈ vs, ∀ b ∈ q.2, isLetter b = true)
    (h : SameShape vs (valueLine pre v) (valueLine pre lv)) : squote ∉ v := by
  rcases h with ⟨ts, ts', hts, hts', hcarried⟩
  intro hquote
  have hlt := count_glyphs_lt hpre hquote hts
  have hcount := hcarried.countP_eq (· == Glyph.quoted squote)
  have hletters : (vs.map fun q => (q.2.map Glyph.quoted).countP (· == Glyph.quoted squote)).sum = 0 := by
    rw [List.sum_eq_zero_iff_forall_eq_nat]
    intro n hn
    rcases List.mem_map.mp hn with ⟨q, hq, rfl⟩
    change (q.2.map Glyph.quoted).count (.quoted squote) = 0
    rw [count_map_quoted]
    exact List.count_eq_zero_of_not_mem (letters_notMem (hvs q hq) (by decide))
  have hvalue : v.count squote ≤
      (vs.map fun q => (q.1.map Glyph.quoted).countP (· == Glyph.quoted squote)).sum := by
    rcases List.append_of_mem hv with ⟨a, b, rfl⟩
    rw [List.map_append, List.map_cons, List.sum_append, List.sum_cons]
    change _ ≤ _ + ((v.map Glyph.quoted).count (.quoted squote) + _)
    rw [count_map_quoted]
    omega
  have hpref : ((run .plain pre).1.flatMap Token.glyphs).count (.quoted squote) ≤
      (ts'.flatMap Token.glyphs).count (.quoted squote) := by
    rw [(tokenise_eq_some hts').1, valueLine_eq, glyphs_append, List.count_append]
    exact Nat.le_add_right _ _
  simp only [List.count] at hlt hpref hvalue
  omega

/-- A shape that leaves room for one other value fixes the length of that value. -/
theorem length_of_sameShape {line line' p lp lp' : Bytes} (h : SameShape [(p, lp)] line line')
    (h' : SameShape [(p, lp')] line line') : lp.length = lp'.length := by
  rcases h with ⟨ts, us, hts, hus, hc⟩
  rcases h' with ⟨ts', us', hts', hus', hc'⟩
  cases hts.symm.trans hts'
  cases hus.symm.trans hus'
  have hlen := hc.countP_eq (fun _ => true)
  have hlen' := hc'.countP_eq (fun _ => true)
  simp only [List.map_cons, List.map_nil, List.sum_cons, List.sum_nil, List.countP_true,
    List.length_map] at hlen hlen'
  omega

end Converse
end InfraFi.Daemon
