import InfraFi.System.Passes

/-! # How often one send is delivered

After a delivery the decoder keeps nothing of the transmission. The START of a
later pass opens a new one, with the same payload behind it.
-/
namespace InfraFi.System
open Base Protocol Reassembly Daemon Flipper

/-- An END behind a START and frames that hold no other START. Since that START (or since the last
full END that did not match) enough DATA bytes have come to fill the payload, and the bytes that
fill it have the CRC-8 of `p`. -/
structure Closes (p : Bytes) (since : List Scancode) (e : Scancode) : Prop where
  no_start : ∀ f ∈ since, ¬ AddressIs wfrFrameTypeStart f.address
  closing : AddressIs wfrFrameTypeEnd e.address
  full : p.length ≤ (dataBytes (sinceMark p.length since)).length
  check : wfrCrc8 ((dataBytes (sinceMark p.length since)).take p.length) = wfrCrc8 p

instance (p : Bytes) (since : List Scancode) (e : Scancode) : Decidable (Closes p since e) :=
  decidable_of_iff (_ ∧ _ ∧ _ ∧ _)
    ⟨fun h => ⟨h.1, h.2.1, h.2.2.1, h.2.2.2⟩, fun h => ⟨h.1, h.2, h.3, h.4⟩⟩

/-- Some END among the frames closes a transmission whose START is just before them. -/
def Closed (p : Bytes) (fs : List Scancode) : Prop :=
  ∃ since e later, fs = since ++ e :: later ∧ Closes p since e

theorem closed_iff {p : Bytes} {fs : List Scancode} :
    Closed p fs ↔ ∃ k ∈ List.range fs.length, ∃ e ∈ fs[k]?, Closes p (fs.take k) e := by
  constructor
  · rintro ⟨since, e, later, rfl, h⟩
    exact ⟨since.length, by simp, e, by simp, by simpa using h⟩
  · rintro ⟨k, hk, e, he, h⟩
    have hlt : k < fs.length := List.mem_range.mp hk
    obtain rfl : fs[k] = e := by simpa [hlt] using he
    exact ⟨fs.take k, fs[k], fs.drop (k + 1), by simp, h⟩

instance (p : Bytes) (fs : List Scancode) : Decidable (Closed p fs) := decidable_of_iff _ closed_iff.symm

/-- The frames begin with a START that an END closes before the next START. -/
def Completes (p : Bytes) : List Scancode → Prop
  | [] => False
  | start :: rest => AddressIs wfrFrameTypeStart start.address ∧ Closed p rest

instance decidableCompletes (p : Bytes) : ∀ fs, Decidable (Completes p fs)
  | [] => isFalse not_false
  | _ :: _ => inferInstanceAs (Decidable (_ ∧ _))

/-- The number of STARTs that are closed before the next START. -/
def completions (p : Bytes) (fs : List Scancode) : ℕ := fs.tails.countP (fun ss => Completes p ss)

/-! ## Counting -/

@[simp] theorem completions_nil (p : Bytes) : completions p [] = 0 := rfl

theorem completions_cons (p : Bytes) (f : Scancode) (fs : List Scancode) :
    completions p (f :: fs) = completions p fs + if Completes p (f :: fs) then 1 else 0 := by
  rw [completions, List.tails, List.countP_cons]
  simp [completions]

theorem completions_cons_of_not_start {p : Bytes} {f : Scancode} {fs : List Scancode}
    (hf : ¬ AddressIs wfrFrameTypeStart f.address) : completions p (f :: fs) = completions p fs := by
  rw [completions_cons, if_neg fun h => hf h.1]
  rfl

theorem completions_le_append (p : Bytes) (fs gs : List Scancode) :
    completions p gs ≤ completions p (fs ++ gs) := by
  induction fs with
  | nil => exact Nat.le_refl _
  | cons f fs ih =>
    rw [List.cons_append, completions_cons]
    omega

/-- A START ends the frames that can close an earlier one. -/
theorem closed_append_start {p : Bytes} {fs : List Scancode} {start : Scancode} {rest : List Scancode}
    (hstart : AddressIs wfrFrameTypeStart start.address) :
    Closed p (fs ++ start :: rest) ↔ Closed p fs := by
  constructor
  · rintro ⟨since, e, later, hsplit, hcloses⟩
    rcases List.append_eq_append_iff.mp hsplit with ⟨l, hl, htail⟩ | ⟨l, hl, htail⟩
    · cases l with
      | nil =>
        rw [List.nil_append, List.cons.injEq] at htail
        exact absurd (hstart.type_eq (htail.1 ▸ hcloses.closing)) (by decide)
      | cons g l =>
        rw [List.cons_append, List.cons.injEq] at htail
        obtain rfl := htail.1
        exact absurd hstart (hcloses.no_start start (by simp [hl]))
    · cases l with
      | nil =>
        rw [List.nil_append, List.cons.injEq] at htail
        exact absurd (hstart.type_eq (htail.1 ▸ hcloses.closing)) (by decide)
      | cons g l =>
        rw [List.cons_append, List.cons.injEq] at htail
        exact ⟨since, e, l, by rw [hl, htail.1], hcloses⟩
  · rintro ⟨since, e, later, rfl, hcloses⟩
    exact ⟨since, e, later ++ start :: rest, by simp, hcloses⟩

/-! ## Deliveries are completed STARTs -/

section Deliveries
variable {protocol : WfrIrProtocol} {passes : ℕ} {p : Bytes} {fs : List Scancode}

/-- Until the next START, a START is delivered once if it is closed and not at all if not. -/
theorem messages_until_start (hp : 1 ≤ p.length) (hp255 : p.length ≤ 255) {before since rest : List Scancode}
    {start : Scancode}
    (hsub : ((before ++ start :: (since ++ rest)).map pairOf).Sublist (sentFrames protocol passes p))
    (htime : InTime none (before ++ start :: (since ++ rest)))
    (hstart : AddressIs wfrFrameTypeStart start.address)
    (hno : ∀ f ∈ since, ¬ AddressIs wfrFrameTypeStart f.address) {n : ℕ} (hroom : p.length < n) :
    (Reassembly.messages (run (policy n)
        (some ⟨p.length, start.now, [], Nat.ne_of_gt hp, Nat.zero_le _⟩)
        (since.map Scancode.frame)).2).length = if Closed p since then 1 else 0 := by
  have hsince : since ⊆ before ++ start :: (since ++ rest) := by
    intro f hf
    simp [hf]
  have hopens := sent_not_opens hsub hp hp255 hsince hno
  have hwindow (es : List Scancode) :
      items (window (policy n) p.length (es.map Scancode.frame)) = dataBytes (sinceMark p.length es) := by
    rw [window_frames, items_frames]
  have hiff := delivers_iff (policy n) (Nat.ne_of_gt hp) hopens (sent_live htime hstart hno n)
    (sent_ends hsub hsince) (by simpa using hroom)
  have hclosed : Closed p since ↔ ∃ es e gs, since.map Scancode.frame = es ++ e :: gs ∧
      e.2 = .finish (wfrCrc8 p) ∧ p.length ≤ (items (window (policy n) p.length es)).length ∧
      (policy n).check ((items (window (policy n) p.length es)).take p.length) = wfrCrc8 p := by
    constructor
    · rintro ⟨es, e, gs, rfl, hcloses⟩
      refine ⟨es.map Scancode.frame, e.frame, gs.map Scancode.frame, by simp, ?_, ?_, ?_⟩
      · rw [Scancode.frame, frameOf_end hcloses.closing, sent_end hsub (hsince (by simp)) hcloses.closing]
      · rw [hwindow]
        exact hcloses.full
      · rw [hwindow]
        exact hcloses.check
    · rintro ⟨es', e', gs', hsplit, hend, hfull, hcheck⟩
      obtain ⟨es, tail, rfl, rfl, htail⟩ := List.map_eq_append_iff.mp hsplit
      obtain ⟨e, gs, rfl, rfl, rfl⟩ := List.map_eq_cons_iff.mp htail
      rw [hwindow] at hfull hcheck
      exact ⟨es, e, gs, rfl, fun f hf => hno f (List.mem_append_left _ hf), (frameOf_eq_finish hend).1,
        hfull, hcheck⟩
  have hle := messages_length_le_one (policy n)
    (some ⟨p.length, start.now, [], Nat.ne_of_gt hp, Nat.zero_le _⟩) hopens
  rw [← hclosed] at hiff
  split
  · rename_i hc
    have hpos := List.length_pos_iff.mpr (hiff.mpr hc)
    omega
  · rename_i hc
    exact List.length_eq_zero_iff.mpr (not_not.mp fun hne => hc (hiff.mp hne))

/-- From a START on, each START is delivered once if it is closed. -/
theorem messages_from_start (hp : 1 ≤ p.length) (hp255 : p.length ≤ 255) {n : ℕ} (hroom : p.length < n)
    {before since rest : List Scancode} {start : Scancode}
    (hsub : ((before ++ start :: (since ++ rest)).map pairOf).Sublist (sentFrames protocol passes p))
    (htime : InTime none (before ++ start :: (since ++ rest)))
    (hstart : AddressIs wfrFrameTypeStart start.address)
    (hno : ∀ f ∈ since, ¬ AddressIs wfrFrameTypeStart f.address) :
    (Reassembly.messages (run (policy n)
        (some ⟨p.length, start.now, [], Nat.ne_of_gt hp, Nat.zero_le _⟩)
        ((since ++ rest).map Scancode.frame)).2).length =
      completions p rest + if Closed p (since ++ rest) then 1 else 0 := by
  induction rest generalizing before start since with
  | nil =>
    rw [completions_nil, Nat.zero_add, List.append_nil]
    exact messages_until_start hp hp255 hsub htime hstart hno hroom
  | cons f rest ih =>
    by_cases hf : AddressIs wfrFrameTypeStart f.address
    · have hsplit : before ++ start :: (since ++ f :: rest) =
          (before ++ start :: since) ++ f :: ([] ++ rest) := by simp
      have hstate : (run (policy n) none ((before ++ start :: since).map Scancode.frame)).1 =
          (run (policy n) (some ⟨p.length, start.now, [], Nat.ne_of_gt hp, Nat.zero_le _⟩)
            (since.map Scancode.frame)).1 := by
        rw [List.map_append, List.map_cons, run_append, Scancode.frame, run_cons]
        exact congrArg (fun r => (run (policy n) r.1 (since.map Scancode.frame)).1)
          (step_sent_start hp hp255 hsub htime hstart n)
      have hlater := ih (hsplit ▸ hsub) (hsplit ▸ htime) hf (by simp)
      have hfirst := messages_until_start hp hp255 hsub htime hstart hno hroom
      have hopen := step_sent_start hp hp255 (hsplit ▸ hsub) (hsplit ▸ htime) hf n
      rw [hstate] at hopen
      have hcompletes : Completes p (f :: rest) ↔ Closed p rest := and_iff_right hf
      have hopened : Reassembly.messages (run (policy n) (run (policy n)
          (some ⟨p.length, start.now, [], Nat.ne_of_gt hp, Nat.zero_le _⟩)
            (since.map Scancode.frame)).1 ((f.now, f.frame.2) :: rest.map Scancode.frame)).2 =
          Reassembly.messages (run (policy n)
            (some ⟨p.length, f.now, [], Nat.ne_of_gt hp, Nat.zero_le _⟩) (rest.map Scancode.frame)).2 := by
        rw [run_cons, hopen]
        rfl
      rw [List.map_append, List.map_cons, run_append, messages_append, List.length_append, hfirst,
        completions_cons]
      change _ + (Reassembly.messages (run (policy n) _ ((f.now, f.frame.2) :: _)).2).length = _
      rw [hopened]
      simp only [List.nil_append] at hlater
      simp only [hlater, hcompletes, closed_append_start hf]
      omega
    · have hsplit : before ++ start :: (since ++ f :: rest) =
          before ++ start :: ((since ++ [f]) ++ rest) := by simp
      have hno' : ∀ g ∈ since ++ [f], ¬ AddressIs wfrFrameTypeStart g.address := by
        simpa [or_imp, forall_and] using ⟨hno, hf⟩
      have hlater := ih (hsplit ▸ hsub) (hsplit ▸ htime) hstart hno'
      rw [completions_cons_of_not_start hf]
      simpa using hlater

/-- Before the first START nothing is delivered. -/
theorem messages_from_idle (hp : 1 ≤ p.length) (hp255 : p.length ≤ 255) {n : ℕ} (hroom : p.length < n)
    {before rest : List Scancode}
    (hsub : ((before ++ rest).map pairOf).Sublist (sentFrames protocol passes p))
    (htime : InTime none (before ++ rest))
    (hno : ∀ f ∈ before, ¬ AddressIs wfrFrameTypeStart f.address) :
    (Reassembly.messages (run (policy n) none (rest.map Scancode.frame)).2).length =
      completions p rest := by
  induction rest generalizing before with
  | nil => rfl
  | cons f rest ih =>
    have hsplit : before ++ f :: rest = (before ++ [f]) ++ rest := by simp
    by_cases hf : AddressIs wfrFrameTypeStart f.address
    · have hbefore := sent_not_opens hsub hp hp255 (List.subset_append_left before _) hno
      have hidle : (run (policy n) none (before.map Scancode.frame)).1 = none :=
        (run_idle _ _ hbefore).1
      have hopen := step_sent_start hp hp255 hsub htime hf n
      rw [hidle] at hopen
      have hlater : (Reassembly.messages (run (policy n)
          (some ⟨p.length, f.now, [], Nat.ne_of_gt hp, Nat.zero_le _⟩)
          (([] ++ rest).map Scancode.frame)).2).length = _ :=
        messages_from_start hp hp255 hroom hsub htime hf (by simp)
      have hcompletes : Completes p (f :: rest) ↔ Closed p rest := and_iff_right hf
      rw [completions_cons, List.map_cons]
      change (Reassembly.messages (run (policy n) none ((f.now, f.frame.2) :: _)).2).length = _
      rw [run_cons, hopen]
      simp only [hcompletes]
      exact hlater
    · have hno' : ∀ g ∈ before ++ [f], ¬ AddressIs wfrFrameTypeStart g.address := by
        simpa [or_imp, forall_and] using ⟨hno, hf⟩
      have hone : ∀ g ∈ [f].map Scancode.frame, ¬ g.2.Opens :=
        sent_not_opens hsub hp hp255 (by simp) (by simpa using hf)
      have hidle := run_idle (policy n) _ hone
      rw [completions_cons_of_not_start hf, List.map_cons, ← List.singleton_append, run_append,
        messages_append]
      rw [List.map_singleton] at hidle
      rw [hidle.1, hidle.2, List.nil_append]
      exact ih (hsplit ▸ hsub) (hsplit ▸ htime) hno'

/-- A pass that arrives in full is closed. -/
theorem completions_pos {i : ℕ} (hfull : passFrames (label i) p <:+: fs.map pairOf) :
    1 ≤ completions p fs := by
  obtain ⟨hstart, hdata, hend⟩ := addressIs_frameAddress (label_le i)
  obtain ⟨before', rest', hsplit⟩ := hfull
  obtain ⟨tail, rest, rfl, htail, -⟩ := List.map_eq_append_iff.mp hsplit.symm
  obtain ⟨before, pass, rfl, -, hpass⟩ := List.map_eq_append_iff.mp htail
  rw [passFrames, List.cons_append] at hpass
  obtain ⟨start, more, rfl, hopen, hmore⟩ := List.map_eq_cons_iff.mp hpass
  obtain ⟨body, last, rfl, hbody, hlast⟩ := List.map_eq_append_iff.mp hmore
  obtain ⟨e, rfl, hclose⟩ := List.map_eq_singleton_iff.mp hlast
  have hall : ∀ f ∈ body, AddressIs wfrFrameTypeData f.address := by
    intro f hf
    have hmem := List.mem_map_of_mem (f := pairOf) hf
    rw [hbody] at hmem
    obtain ⟨b, -, hb⟩ := List.mem_map.mp hmem
    have haddr : frameAddress wfrFrameTypeData (label i) = f.address := congrArg Prod.fst hb
    exact haddr ▸ hdata
  have hbytes : dataBytes (sinceMark p.length body) = p := by
    rw [sinceMark_of_not_end _ fun f hf he => absurd ((hall f hf).type_eq he) (by decide), dataBytes_eq,
      hbody, pairBytes_data]
  have hopening : start.address = frameAddress wfrFrameTypeStart (label i) := congrArg Prod.fst hopen
  have hclosing : e.address = frameAddress wfrFrameTypeEnd (label i) := congrArg Prod.fst hclose
  have hcompletes : Completes p (start :: (body ++ [e] ++ rest)) := by
    refine ⟨hopening ▸ hstart, body, e, rest, by simp, ?_⟩
    refine ⟨fun f hf hs => absurd ((hall f hf).type_eq hs) (by decide), hclosing ▸ hend, ?_, ?_⟩
    · rw [hbytes]
    · rw [hbytes, List.take_length]
  have hone : 1 ≤ completions p (start :: (body ++ [e] ++ rest)) := by
    rw [completions_cons, if_pos hcompletes]
    omega
  rw [List.append_assoc]
  exact hone.trans (completions_le_append p before _)

end Deliveries

/-- Where one pass arrives in full, the send is delivered exactly once if and only if no second START
of what arrives is closed before the next one. -/
theorem delivered_once_iff (protocol : WfrIrProtocol) (passes : ℕ) (p : Bytes) (hp : 1 ≤ p.length)
    (hp255 : p.length ≤ 255) (out : Bytes) (hout : out.length = wfrMaxTotalPayload + 1)
    (fs : List Scancode) (hsub : (fs.map pairOf).Sublist (sentFrames protocol passes p))
    (htime : InTime none fs) (hfull : ∃ i < passes, passFrames (label i) p <:+: fs.map pairOf) :
    (deliveries (feedAll wfrDecodeInit out fs)).length = 1 ↔ completions p fs ≤ 1 := by
  obtain ⟨-, -, hreports⟩ := feedAll_refines out holds_init fs
  have hroom : p.length < out.length := by
    rw [hout, wfrMaxTotalPayload]
    omega
  obtain ⟨i, -, hpass⟩ := hfull
  have hpos := completions_pos hpass
  have hcount : (Reassembly.messages (run (policy out.length) none (fs.map Scancode.frame)).2).length =
      completions p fs := by
    apply messages_from_idle hp hp255 hroom
    · exact (List.nil_append fs).symm ▸ hsub
    · exact (List.nil_append fs).symm ▸ htime
    · simp
  rw [deliveries_eq_messages hreports, hcount]
  omega

/-- Two passes without a loss. -/
private def bothPasses : List Scancode :=
  (sentFrames .rc6 2 (ascii "WIFI:T:nopass;S:A;P:;H:false;;")).map
    (fun x => ⟨⟨1, 13, by decide⟩, x.1, x.2⟩)

private theorem bothPasses_pairs :
    bothPasses.map pairOf = sentFrames .rc6 2 (ascii "WIFI:T:nopass;S:A;P:;H:false;;") := by
  rw [bothPasses, List.map_map]
  exact List.map_id _

private theorem bothPasses_full :
    ∃ i < 2, passFrames (label i) (ascii "WIFI:T:nopass;S:A;P:;H:false;;") <:+: bothPasses.map pairOf := by
  rw [bothPasses_pairs, sentFrames_eq]
  exact ⟨0, by decide, [], passFrames (label 1) (ascii "WIFI:T:nopass;S:A;P:;H:false;;"), by
    simp [List.range'_succ]⟩

theorem delivered_once_iff_bothPasses :
    (deliveries (feedAll wfrDecodeInit (List.replicate 256 0) bothPasses)).length = 1 ↔
      completions (ascii "WIFI:T:nopass;S:A;P:;H:false;;") bothPasses ≤ 1 :=
  delivered_once_iff .rc6 2 _ (by decide) (by decide) _ (by decide +kernel) bothPasses
    (bothPasses_pairs ▸ List.Sublist.refl _) (by decide +kernel) bothPasses_full

/-- The daemon acts on one send twice. -/
theorem passes_delivered_twice :
    (bothPasses.map pairOf).Sublist (sentFrames .rc6 2 (ascii "WIFI:T:nopass;S:A;P:;H:false;;")) ∧
      InTime none bothPasses ∧
      (∃ i < 2, passFrames (label i) (ascii "WIFI:T:nopass;S:A;P:;H:false;;") <:+:
        bothPasses.map pairOf) ∧
      deliveries (feedAll wfrDecodeInit (List.replicate 256 0) bothPasses) =
        [ascii "WIFI:T:nopass;S:A;P:;H:false;;", ascii "WIFI:T:nopass;S:A;P:;H:false;;"] :=
  ⟨bothPasses_pairs ▸ List.Sublist.refl _, by decide +kernel, bothPasses_full, by decide +kernel⟩

theorem completions_le_starts (p : Bytes) (fs : List Scancode) :
    completions p fs ≤ fs.countP (fun f => AddressIs wfrFrameTypeStart f.address) := by
  induction fs with
  | nil => exact Nat.le_refl _
  | cons f fs ih =>
    rw [completions_cons, List.countP_cons]
    by_cases hf : AddressIs wfrFrameTypeStart f.address
    · simp only [hf, decide_true, if_true]
      split <;> omega
    · rw [if_neg fun h => hf h.1]
      omega

/-- A single pass, which is what the sender makes, has one START to close. -/
theorem completions_single {protocol : WfrIrProtocol} {p : Bytes} {fs : List Scancode}
    (hsub : (fs.map pairOf).Sublist (sentFrames protocol wfrRetransmitCount p)) :
    completions p fs ≤ 1 := by
  obtain ⟨hstart, hdata, hend⟩ := addressIs_frameAddress (label_le 0)
  have hd : ¬ AddressIs wfrFrameTypeStart (frameAddress wfrFrameTypeData (label 0)) :=
    fun h => absurd (hdata.type_eq h) (by decide)
  have he : ¬ AddressIs wfrFrameTypeStart (frameAddress wfrFrameTypeEnd (label 0)) :=
    fun h => absurd (hend.type_eq h) (by decide)
  have hone : (sentFrames protocol wfrRetransmitCount p).countP
      (fun x => AddressIs wfrFrameTypeStart x.1) = 1 := by
    rw [sentFrames_eq]
    simp [wfrRetransmitCount, List.range'_succ, passFrames, List.countP_append,
      hstart, hd, he]
  calc completions p fs ≤ fs.countP (fun f => AddressIs wfrFrameTypeStart f.address) :=
        completions_le_starts p fs
    _ = (fs.map pairOf).countP (fun x => AddressIs wfrFrameTypeStart x.1) := by
        rw [List.countP_map]
        rfl
    _ ≤ 1 := hone ▸ hsub.countP_le

end InfraFi.System
