import InfraFi.Daemon.Decode

/-! # What the decoder delivers, and when

Soundness accounts for every delivery by the frames fed before it. Completeness
says that a transmission is delivered whatever the decoder went through
earlier and whatever foreign scancodes arrive in between.
-/
namespace InfraFi.Daemon
open Base Protocol Reassembly

/-- Nanoseconds on the monotonic clock. -/
def Timespec.nanos (t : Timespec) : ℕ := t.tvSec * 1000000000 + t.tvNsec

/-- The borrow makes `elapsed >= 30` exact to the nanosecond. -/
theorem elapsedSec_lt_iff (now start : Timespec) :
    elapsedSec now start < wfrTimeoutSec ↔ now.nanos < start.nanos + 30 * 1000000000 := by
  have h1 := now.nsec_lt
  have h2 := start.nsec_lt
  simp only [elapsedSec, wfrTimeoutSec, Timespec.nanos]
  split <;> omega

theorem policy_expired_eq_false_iff {n : ℕ} {now start : Timespec} :
    (policy n).expired start now = false ↔ now.nanos < start.nanos + 30 * 1000000000 := by
  rw [← elapsedSec_lt_iff]
  simp [wfrDecoderConfig]

/-- The commands of the DATA frames, in order. -/
def dataBytes (fs : List Scancode) : Bytes :=
  (fs.filter (fun f => AddressIs wfrFrameTypeData f.address)).map Scancode.command

/-- An END that comes after at least `n` DATA frames and does not match the first `n`. -/
def FullBadEnd (n : ℕ) (fs : List Scancode) (e : Scancode) : Prop :=
  AddressIs wfrFrameTypeEnd e.address ∧ n ≤ (dataBytes fs).length ∧
    wfrCrc8 ((dataBytes fs).take n) ≠ e.command

instance (n : ℕ) (fs : List Scancode) (e : Scancode) : Decidable (FullBadEnd n fs e) :=
  inferInstanceAs (Decidable (_ ∧ _ ∧ _))

/-- The frames after the last full-length END that did not match, or all if there is none. -/
def sinceMark (n : ℕ) (fs : List Scancode) : List Scancode :=
  fs.foldl (fun w f => if FullBadEnd n w f then [] else w ++ [f]) []

/-- The call that feeds `s` after the scancodes `h` went into a fresh decoder. -/
def feedAfter (out : Bytes) (h : List Scancode) (s : Scancode) : Fed :=
  wfrDecodeFeedScancode s.now (feedState wfrDecodeInit out h).1 s.address s.command
    (feedState wfrDecodeInit out h).2

/-- The account of the delivery that feeding `s` after `h` made: its START, and the frames
since then, cut at the last full-length END that did not match. -/
structure Account (out : Bytes) (h : List Scancode) (s : Scancode) (before : List Scancode)
    (start : Scancode) (skipped rest : List Scancode) : Prop where
  split : h = before ++ start :: (skipped ++ rest)
  opening : AddressIs wfrFrameTypeStart start.address
  length : (start.command.toNat : ℤ) = (feedAfter out h s).result
  recent : s.now.nanos < start.now.nanos + 30 * 1000000000
  no_start : ∀ f ∈ skipped ++ rest, ¬ (AddressIs wfrFrameTypeStart f.address ∧ f.command ≠ 0)
  no_delivery : ∀ fs f gs, skipped ++ rest = fs ++ f :: gs →
    (feedAfter out (before ++ start :: fs) f).result ≤ 0
  mark : skipped = [] ∨ ∃ es e, skipped = es ++ [e] ∧
    FullBadEnd start.command.toNat (sinceMark start.command.toNat es) e
  no_mark : ∀ es e gs, rest = es ++ e :: gs → ¬ FullBadEnd start.command.toNat es e
  enough : start.command.toNat ≤ (dataBytes rest).length
  payload : (feedAfter out h s).out.take start.command.toNat =
    (dataBytes rest).take start.command.toNat
  terminated : (feedAfter out h s).out[start.command.toNat]? = some 0
  room : start.command.toNat < out.length
  closing : AddressIs wfrFrameTypeEnd s.address
  crc : s.command = wfrCrc8 ((dataBytes rest).take start.command.toNat)

theorem items_frames (fs : List Scancode) : items (fs.map Scancode.frame) = dataBytes fs := by
  induction fs with
  | nil => rfl
  | cons f fs ih =>
    rw [List.map_cons, Scancode.frame, items_cons, ih, dataBytes, dataBytes, List.filter_cons]
    by_cases hd : AddressIs wfrFrameTypeData f.address
    · simp [hd, frameOf_data, Frame.item?]
    · have hnone : (frameOf f.address f.command).item? = none := by
        cases hf : frameOf f.address f.command with
        | data b => exact absurd (frameOf_eq_data hf).1 hd
        | _ => rfl
      simp [hd, hnone]

theorem rewinds_iff (outSize n : ℕ) (fs : List Scancode) (e : Scancode) :
    Rewinds (policy outSize) n (dataBytes fs) e.frame.2 ↔ FullBadEnd n fs e := by
  unfold FullBadEnd
  by_cases he : AddressIs wfrFrameTypeEnd e.address
  · simp [Scancode.frame, frameOf_end he, Rewinds, he]
  · have hnot : ¬ Rewinds (policy outSize) n (dataBytes fs) e.frame.2 := by
      cases hf : e.frame.2 with
      | finish c => exact absurd (frameOf_eq_finish hf).1 he
      | _ => exact not_false
    simp [he, hnot]

theorem sinceMark_concat (n : ℕ) (fs : List Scancode) (f : Scancode) :
    sinceMark n (fs ++ [f]) =
      if FullBadEnd n (sinceMark n fs) f then [] else sinceMark n fs ++ [f] := by
  rw [sinceMark, List.foldl_append]
  rfl

theorem sinceMark_sublist (n : ℕ) (fs : List Scancode) : (sinceMark n fs).Sublist fs := by
  induction fs using List.reverseRecOn with
  | nil => exact List.Sublist.refl _
  | append_singleton fs f ih =>
    rw [sinceMark_concat]
    split
    · exact List.nil_sublist _
    · exact ih.append_right _

theorem sinceMark_of_not_end (n : ℕ) {fs : List Scancode}
    (h : ∀ f ∈ fs, ¬ AddressIs wfrFrameTypeEnd f.address) : sinceMark n fs = fs := by
  induction fs using List.reverseRecOn with
  | nil => rfl
  | append_singleton fs f ih =>
    rw [sinceMark_concat, ih fun g hg => h g (List.mem_append_left _ hg)]
    exact if_neg fun hbad => h f (by simp) hbad.1

theorem window_frames (outSize n : ℕ) (fs : List Scancode) :
    window (policy outSize) n (fs.map Scancode.frame) = (sinceMark n fs).map Scancode.frame := by
  induction fs using List.reverseRecOn with
  | nil => rfl
  | append_singleton fs f ih =>
    rw [List.map_append, List.map_singleton, window_concat, ih, items_frames, sinceMark_concat]
    simp only [rewinds_iff]
    split <;> simp

/-- What a call after `h` reports is what the reassembler does there. -/
theorem feedAfter_agrees (out : Bytes) (h : List Scancode) (s : Scancode) :
    Agrees wfrDecoderConfig out (feedAfter out h s)
      (step (policy out.length) s.now (run (policy out.length) none (h.map Scancode.frame)).1
        s.frame.2) := by
  obtain ⟨hrep, hlen, -⟩ := feedAll_refines out holds_init h
  obtain ⟨h1, h2, h3⟩ :=
    decodeFeed_refines wfrDecoderConfig s.now s.address s.command (feedState wfrDecodeInit out h).2 hrep
  rw [hlen] at h1 h2 h3
  exact ⟨h1, h2, h3⟩

/-- The session behind a delivery, as a stretch of the scancodes fed so far. -/
theorem split_of_history {n : ℕ} {h : List Scancode} {v : Session Timespec UInt8}
    {before' after' : List (Timespec × Frame UInt8 UInt8)}
    (hist : History (policy n) (h.map Scancode.frame) v before' after') :
    ∃ before start skipped rest, h = before ++ start :: (skipped ++ rest) ∧
      before.map Scancode.frame = before' ∧ start.frame = (v.opened, .start v.size) ∧
      (skipped ++ rest).map Scancode.frame = after' ∧
      v.received = (dataBytes rest).take v.size ∧
      (skipped = [] ∨ ∃ es e, skipped = es ++ [e] ∧ FullBadEnd v.size (sinceMark v.size es) e) ∧
      ∀ es e gs, rest = es ++ e :: gs → ¬ FullBadEnd v.size es e := by
  obtain ⟨before, tail, rfl, hbefore, htail⟩ := List.map_eq_append_iff.mp hist.split
  obtain ⟨start, after, rfl, hstart, rfl⟩ := List.map_eq_cons_iff.mp htail
  obtain ⟨skipped', hsplit, hmark, hnone⟩ := window_split (policy n) v.size (after.map Scancode.frame)
  obtain ⟨skipped, rest, rfl, rfl, hrest⟩ := List.map_eq_append_iff.mp hsplit
  refine ⟨before, start, skipped, rest, rfl, hbefore, hstart, rfl, ?_, ?_, ?_⟩
  · rw [hist.received, ← hrest, items_frames]
  · refine hmark.imp (fun hnil => by simpa using hnil) ?_
    rintro ⟨es', e', hes, hr⟩
    obtain ⟨es, l, rfl, rfl, hl⟩ := List.map_eq_append_iff.mp hes
    obtain ⟨e, rfl, rfl⟩ := List.map_eq_singleton_iff.mp hl
    rw [window_frames, items_frames, rewinds_iff] at hr
    exact ⟨es, e, rfl, hr⟩
  · intro es e gs he hbad
    have hmap : window (policy n) v.size ((skipped ++ rest).map Scancode.frame) =
        es.map Scancode.frame ++ e.frame :: gs.map Scancode.frame := by
      rw [← hrest, he, List.map_append, List.map_cons]
    refine hnone _ _ _ hmap ?_
    rw [items_frames, rewinds_iff]
    exact hbad

/-- Every positive return value is accounted for by the frames fed before it. -/
theorem wfrDecodeFeed_sound (out : Bytes) (h : List Scancode) (s : Scancode)
    (hpos : 0 < (feedAfter out h s).result) :
    ∃ before start skipped rest, Account out h s before start skipped rest := by
  obtain ⟨-, hreport, hlen⟩ := feedAfter_agrees out h s
  obtain ⟨p, hp⟩ := hreport.delivered hpos
  rw [hp] at hreport
  obtain ⟨hres, -, hroom, hout, hnul⟩ := hreport
  obtain ⟨v, hrun, hlive, rfl, hfull, hend, -, -⟩ := step_delivered _ hp
  obtain ⟨before', after', hist⟩ := run_history _ hrun
  obtain ⟨before, start, skipped, rest, hsplit, rfl, hstart, rfl, hrecv, hmark, hnone⟩ :=
    split_of_history hist
  have hnow : start.now = v.opened := congrArg Prod.fst hstart
  obtain ⟨hopening, hsize⟩ := frameOf_eq_start (congrArg Prod.snd hstart)
  obtain ⟨hclosing, hcrc⟩ := frameOf_eq_finish hend
  rw [hfull, ← hsize] at hroom hout hnul hres
  refine ⟨before, start, skipped, rest, hsplit, hopening, hres.symm, ?_, ?_, ?_, ?_, ?_, ?_, ?_,
    hnul, by omega, hclosing, ?_⟩
  · rw [hnow]
    exact policy_expired_eq_false_iff.mp hlive
  · rintro f hf ⟨haddr, hcmd⟩
    refine hist.no_start f.frame (List.mem_map_of_mem hf) ?_
    rw [Scancode.frame, frameOf_start haddr]
    exact fun h0 => hcmd (UInt8.toNat_inj.mp h0)
  · intro fs f gs hfs
    obtain ⟨-, hrep, -⟩ := feedAfter_agrees out (before ++ start :: fs) f
    refine hrep.result_le_zero ?_
    have hno := hist.no_delivery (fs.map Scancode.frame) f.frame (gs.map Scancode.frame)
      (by rw [hfs, List.map_append, List.map_cons])
    rwa [← hstart, ← List.map_cons, ← List.map_append] at hno
  · rwa [hsize]
  · rwa [hsize]
  · have hlen' := congrArg List.length hrecv
    rw [List.length_take, hfull] at hlen'
    omega
  · rw [hout, hsize, hrecv]
  · rw [hcrc, hsize, ← hrecv]
    rfl

/-- A delivery out of a transmission whose first pass was garbled. -/
private def garbledThenGood : List Scancode :=
  [(0xA0, 2), (0xA4, 0x68), (0xA4, 0x6A), (0xA8, 0x00), (0xA4, 0x68), (0xA4, 0x69)].map
    (fun f => ⟨⟨1, 4, by decide⟩, f.1, f.2⟩)

theorem wfrDecodeFeed_sound_garbled :
    ∃ before start skipped rest, Account (List.replicate 8 0) garbledThenGood
      ⟨⟨2, 0, by decide⟩, 0xA9, wfrCrc8 (ascii "hi")⟩ before start skipped rest :=
  wfrDecodeFeed_sound _ _ _ (by decide +kernel)

/-! ## Completeness -/

/-- The DATA frames of `p`, with foreign scancodes anywhere between them. -/
def CarriesData (pass : UInt8) (p : Bytes) (body : List Scancode) : Prop :=
  (body.filter (fun s => ¬ IsForeign s.address)).map (fun s => (s.address, s.command)) =
    p.map (fun b => (frameAddress wfrFrameTypeData pass, b))

instance (pass : UInt8) (p : Bytes) (body : List Scancode) : Decidable (CarriesData pass p body) :=
  inferInstanceAs (Decidable (_ = _))

theorem CarriesData.body {pass : UInt8} (hpass : pass ≤ wfrFramePassMask) (n : ℕ) (start : Timespec)
    {p : Bytes} {body : List Scancode} (hb : CarriesData pass p body)
    (hin : ∀ s ∈ body, s.now.nanos < start.nanos + 30 * 1000000000) :
    Body (policy n) start (body.map Scancode.frame) ∧ items (body.map Scancode.frame) = p := by
  induction body generalizing p with
  | nil =>
    obtain rfl : p = [] := by simpa [CarriesData] using hb.symm
    exact ⟨by simp [Body], rfl⟩
  | cons s body ih =>
    have hlive : (policy n).expired start s.now = false :=
      policy_expired_eq_false_iff.mpr (hin s (by simp))
    have htail : ∀ t ∈ body, t.now.nanos < start.nanos + 30 * 1000000000 :=
      fun t ht => hin t (by simp [ht])
    by_cases hf : IsForeign s.address
    · have hrest : CarriesData pass p body := by
        simpa [CarriesData, hf] using hb
      obtain ⟨hbody, hitems⟩ := ih hrest htail
      have hother : s.frame = (s.now, .other) := by rw [Scancode.frame, frameOf_foreign hf]
      rw [List.map_cons, hother]
      refine ⟨List.forall_mem_cons.mpr ⟨⟨hlive, .inl rfl⟩, hbody⟩, ?_⟩
      rw [items_cons, hitems]
      rfl
    · cases p with
      | nil => simp [CarriesData, hf] at hb
      | cons b p =>
        simp only [CarriesData, List.filter_cons, hf, not_false_eq_true, decide_true, if_true,
          List.map_cons, List.cons.injEq, Prod.mk.injEq] at hb
        obtain ⟨⟨haddr, rfl⟩, hrest⟩ := hb
        obtain ⟨hbody, hitems⟩ := ih hrest htail
        have hdata : s.frame = (s.now, .data s.command) := by
          rw [Scancode.frame, frameOf_data (haddr ▸ (addressIs_frameAddress hpass).2.1)]
        rw [List.map_cons, hdata]
        refine ⟨List.forall_mem_cons.mpr ⟨⟨hlive, .inr ⟨_, rfl⟩⟩, hbody⟩, ?_⟩
        rw [items_cons, hitems]
        rfl

/-- The reports of a run that is quiet but for one delivery. -/
theorem reports_single {rs : List Fed} {m n : ℕ} {p : Bytes}
    (h : List.Forall₂ FeedResult.Reports rs
      (List.replicate m .quiet ++ [.delivered p] ++ List.replicate n .quiet)) :
    ∃ (before : List Fed) (r : Fed) (after : List Fed), rs = before ++ r :: after ∧
      before.length = m ∧ (∀ q ∈ before, q.result = 0) ∧ r.Reports (.delivered p) ∧
      ∀ q ∈ after, q.result = 0 := by
  have hquiet {k : ℕ} {qs : List Fed}
      (hqs : List.Forall₂ FeedResult.Reports qs (List.replicate k .quiet)) : ∀ q ∈ qs, q.result = 0 := by
    intro q hq
    obtain ⟨i, hi, rfl⟩ := List.getElem_of_mem hq
    simpa [FeedResult.Reports] using hqs.get hi (by rwa [← hqs.length_eq])
  rw [List.append_assoc] at h
  have hbefore := List.forall₂_take_append _ _ _ h
  have hrest := List.forall₂_drop_append _ _ _ h
  rw [List.length_replicate] at hbefore hrest
  rw [← List.take_append_drop m rs]
  obtain ⟨r, after, hr, hafter, hdrop⟩ := List.forall₂_cons_right_iff.mp hrest
  exact ⟨rs.take m, r, after, by rw [hdrop], by simpa using hbefore.length_eq, hquiet hbefore, hr,
    hquiet hafter⟩

/-- A transmission that finds the decoder idle, or holding one opened less than 30 s before,
is delivered at its END and nowhere else, and leaves the decoder as it was initialised. -/
theorem wfrDecodeFeed_complete (out : Bytes) (hout : out.length = wfrMaxTotalPayload + 1)
    (history : List Scancode) (pass : UInt8) (hpass : pass ≤ wfrFramePassMask)
    (p : Bytes) (hp : 1 ≤ p.length) (hp255 : p.length ≤ 255)
    (start fin : Scancode) (body tail : List Scancode)
    (hstart : start.address = frameAddress wfrFrameTypeStart pass ∧ start.command.toNat = p.length)
    (hbody : CarriesData pass p body)
    (hfin : fin.address = frameAddress wfrFrameTypeEnd pass ∧ fin.command = wfrCrc8 p)
    (htail : ∀ s ∈ tail, IsForeign s.address)
    (hopen : (feedState wfrDecodeInit out history).1.inTransmission = true →
      start.now.nanos < (feedState wfrDecodeInit out history).1.startTime.nanos + 30 * 1000000000)
    (hin : ∀ s ∈ body ++ [fin], s.now.nanos < start.now.nanos + 30 * 1000000000) :
    let st := feedState wfrDecodeInit out history
    let ss := start :: body ++ fin :: tail
    (feedState st.1 st.2 ss).1 = wfrDecodeInit ∧
      ∃ (before : List Fed) (r : Fed) (after : List Fed),
        feedAll st.1 st.2 ss = before ++ r :: after ∧
        before.length = body.length + 1 ∧ (∀ q ∈ before, q.result = 0) ∧
        r.result = p.length ∧ r.out.take p.length = p ∧ r.out[p.length]? = some 0 ∧
        ∀ q ∈ after, q.result = 0 := by
  intro st ss
  obtain ⟨hrep, hlen, -⟩ := feedAll_refines out holds_init history
  have hlive : timedOut (policy st.2.length) start.now
      (run (policy out.length) none (history.map Scancode.frame)).1 = false := by
    rw [← decodeCheckTimeout_eq wfrDecoderConfig _ hrep]
    by_cases hopened : st.1.inTransmission = true
    · have hnot := (elapsedSec_lt_iff start.now st.1.startTime).mpr (hopen hopened)
      simp only [decodeCheckTimeout, wfrDecoderConfig, Bool.and_eq_false_iff, decide_eq_false_iff_not]
      exact .inr (Int.not_le.mpr hnot)
    · simp [decodeCheckTimeout, st, hopened]
  obtain ⟨hbody', hitems⟩ := hbody.body hpass st.2.length start.now
    (fun s hs => hin s (by simp [hs]))
  have hlast : (policy st.2.length).expired start.now fin.now = false :=
    policy_expired_eq_false_iff.mpr (hin fin (by simp))
  have hroom : (policy st.2.length).room p.length = true := by
    simp [st, hlen, hout, wfrMaxTotalPayload]
    omega
  have hp0 : p ≠ [] := by
    rintro rfl
    simp at hp
  have hrun := run_transmission _ hlive hp0 hbody' hitems hlast hroom
  have hforeign := run_foreign (policy st.2.length) (tail.map Scancode.frame) (by
    intro f hf
    obtain ⟨s, hs, rfl⟩ := List.mem_map.mp hf
    exact frameOf_foreign (htail s hs))
  have hframes : ss.map Scancode.frame = (start.now, .start p.length) :: body.map Scancode.frame ++
      [(fin.now, .finish ((policy st.2.length).check p))] ++ tail.map Scancode.frame := by
    have hs : start.frame = (start.now, .start p.length) := by
      rw [Scancode.frame, frameOf_start (hstart.1 ▸ (addressIs_frameAddress hpass).1), hstart.2]
    have hf : fin.frame = (fin.now, .finish (wfrCrc8 p)) := by
      rw [Scancode.frame, frameOf_end (hfin.1 ▸ (addressIs_frameAddress hpass).2.2), hfin.2]
    simp [ss, hs, hf]
  obtain ⟨hend, -, hreports⟩ := feedAll_refines st.2 hrep ss
  rw [hframes, run_append, hrun, hforeign] at hend hreports
  obtain ⟨before, r, after, hall, hbefore, hzero, hr, hafter⟩ := reports_single hreports
  exact ⟨hend, before, r, after, hall, by simpa using hbefore, hzero, hr.1, hr.2.2.2.1,
    hr.2.2.2.2, hafter⟩

/-- A stale START of the same length with half its data, 29 s old. -/
private def halfSent : List Scancode :=
  [⟨⟨1, 5, by decide⟩, 0xA0, 2⟩, ⟨⟨1, 6, by decide⟩, 0xA4, 0x78⟩]

private def noisyBody : List Scancode :=
  [⟨⟨30, 6, by decide⟩, 0xAC, 9⟩, ⟨⟨30, 7, by decide⟩, 0xA5, 0x68⟩, ⟨⟨30, 8, by decide⟩, 0x17, 0x41⟩,
    ⟨⟨31, 9, by decide⟩, 0xA5, 0x69⟩]

theorem wfrDecodeFeed_complete_noisy :
    let st := feedState wfrDecodeInit (List.replicate 256 0) halfSent
    let start : Scancode := ⟨⟨30, 5, by decide⟩, 0xA1, 2⟩
    let fin : Scancode := ⟨⟨60, 4, by decide⟩, 0xA9, wfrCrc8 (ascii "hi")⟩
    let ss := start :: noisyBody ++ fin :: [⟨⟨61, 0, by decide⟩, 0xB0, 4⟩]
    (feedState st.1 st.2 ss).1 = wfrDecodeInit ∧
      ∃ (before : List Fed) (r : Fed) (after : List Fed),
        feedAll st.1 st.2 ss = before ++ r :: after ∧
        before.length = noisyBody.length + 1 ∧ (∀ q ∈ before, q.result = 0) ∧
        r.result = (ascii "hi").length ∧ r.out.take (ascii "hi").length = ascii "hi" ∧
        r.out[(ascii "hi").length]? = some 0 ∧ ∀ q ∈ after, q.result = 0 :=
  wfrDecodeFeed_complete _ (by decide +kernel) halfSent 1 (by decide) (ascii "hi") (by decide)
    (by decide) _ _ noisyBody _ (by decide) (by decide +kernel) (by decide +kernel)
    (by decide) (by decide +kernel) (by decide +kernel)

end InfraFi.Daemon
