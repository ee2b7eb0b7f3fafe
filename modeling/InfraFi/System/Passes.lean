import InfraFi.System.Sends

/-! # Retransmission passes over a lossy channel

The sender labels every frame with its pass, and the decoder keeps the label of
the last START, but it never compares the two. A pass whose START is lost goes
on where the one before it stopped.
-/
namespace InfraFi.System
open Base Protocol Reassembly Daemon Flipper

/-- The address and command bytes of a send of `passes` passes that nothing cancels. -/
def sentFrames (protocol : WfrIrProtocol) (passes : ℕ) (p : Bytes) : List (UInt8 × UInt8) :=
  (sendPasses protocol (interMsgMs protocol) (retransmitGapMs protocol) (fun _ => false) p passes
    0).1.map (fun m => (m.address, m.command))

def pairOf (s : Scancode) : UInt8 × UInt8 := (s.address, s.command)

def passLabel (address : UInt8) : UInt8 := address &&& wfrFramePassMask

/-- Every scancode comes less than 30 s after the last START before it. -/
def InTime : Option Timespec → List Scancode → Prop
  | _, [] => True
  | opened, s :: ss => ¬ Stale opened s ∧
    InTime (if AddressIs wfrFrameTypeStart s.address then some s.now else opened) ss

instance decidableInTime : ∀ opened ss, Decidable (InTime opened ss)
  | _, [] => isTrue trivial
  | opened, s :: ss =>
    have := decidableInTime (if AddressIs wfrFrameTypeStart s.address then some s.now else opened) ss
    inferInstanceAs (Decidable (_ ∧ _))

/-- An END of another pass than the last START, behind enough DATA bytes since that START (or
since the last full END that did not match) to fill the payload, where the bytes that fill it are
not `p` and have the CRC-8 of `p`. -/
structure MixedEnd (p : Bytes) (start : Scancode) (since : List Scancode) (e : Scancode) : Prop where
  opening : AddressIs wfrFrameTypeStart start.address
  no_start : ∀ f ∈ since, ¬ AddressIs wfrFrameTypeStart f.address
  closing : AddressIs wfrFrameTypeEnd e.address
  other_pass : passLabel start.address ≠ passLabel e.address
  full : p.length ≤ (dataBytes (sinceMark p.length since)).length
  differs : (dataBytes (sinceMark p.length since)).take p.length ≠ p
  collides : wfrCrc8 ((dataBytes (sinceMark p.length since)).take p.length) = wfrCrc8 p

def Mixes (p : Bytes) (fs : List Scancode) : Prop :=
  ∃ before start since e rest, fs = before ++ start :: since ++ e :: rest ∧ MixedEnd p start since e

/-! ## The frames of a send -/

/-- The label of the `i`-th pass. -/
def label (i : ℕ) : UInt8 := UInt8.ofNat i &&& wfrFramePassMask

theorem sendData_uncancelled (protocol : WfrIrProtocol) (pass : UInt8) (gap i : ℕ) (bs : Bytes) :
    (sendData protocol pass gap (fun _ => false) i bs).2 = true ∧
      (sendData protocol pass gap (fun _ => false) i bs).1.map (fun m => (m.address, m.command)) =
        bs.map (fun b => (frameAddress wfrFrameTypeData pass, b)) := by
  induction bs generalizing i with
  | nil => exact ⟨rfl, rfl⟩
  | cons b bs ih => simp [sendData, ih]

theorem sendPasses_uncancelled (protocol : WfrIrProtocol) (gap retransmitGap : ℕ) (p : Bytes)
    (left attempt : ℕ) :
    (sendPasses protocol gap retransmitGap (fun _ => false) p left attempt).1.map
        (fun m => (m.address, m.command)) =
      (List.range' attempt left).flatMap
        (fun i => passFrames (label i) p) := by
  induction left generalizing attempt with
  | zero => rfl
  | succ left ih =>
    obtain ⟨hall, hdata⟩ := sendData_uncancelled protocol (label attempt)
      gap 0 p
    have hlabel : UInt8.ofNat attempt &&& wfrFramePassMask = label attempt := rfl
    simp [sendPasses, hlabel, hall, hdata, ih, List.range'_succ, passFrames]

theorem label_facts {i : ℕ} (hi : i < 4) :
    (label i).toNat = i ∧ passLabel (frameAddress wfrFrameTypeStart (label i)) = label i ∧
      passLabel (frameAddress wfrFrameTypeData (label i)) = label i ∧
      passLabel (frameAddress wfrFrameTypeEnd (label i)) = label i := by
  have h4 : i = 0 ∨ i = 1 ∨ i = 2 ∨ i = 3 := by omega
  rcases h4 with rfl | rfl | rfl | rfl <;> decide

theorem label_le (i : ℕ) : label i ≤ wfrFramePassMask := by
  rw [UInt8.le_iff_toNat_le, label, UInt8.toNat_and]
  exact Nat.and_le_right

/-- What the frames of a pass are, by their type. -/
theorem passFrames_cases {i : ℕ} {p : Bytes} {x : UInt8 × UInt8} (hx : x ∈ passFrames (label i) p) :
    (AddressIs wfrFrameTypeStart x.1 ∧ x.2 = UInt8.ofNat p.length) ∨
      (AddressIs wfrFrameTypeData x.1) ∨ (AddressIs wfrFrameTypeEnd x.1 ∧ x.2 = wfrCrc8 p) := by
  obtain ⟨hstart, hdata, hend⟩ := addressIs_frameAddress (label_le i)
  simp only [passFrames, List.cons_append, List.mem_cons, List.mem_append, List.mem_map,
    List.not_mem_nil, or_false] at hx
  rcases hx with rfl | ⟨b, -, rfl⟩ | rfl
  · exact .inl ⟨hstart, rfl⟩
  · exact .inr (.inl hdata)
  · exact .inr (.inr ⟨hend, rfl⟩)

theorem passLabel_of_mem {i : ℕ} (hi : i < 4) {p : Bytes} {x : UInt8 × UInt8}
    (hx : x ∈ passFrames (label i) p) : passLabel x.1 = label i := by
  obtain ⟨-, hstart, hdata, hend⟩ := label_facts hi
  simp only [passFrames, List.cons_append, List.mem_cons, List.mem_append, List.mem_map,
    List.not_mem_nil, or_false] at hx
  rcases hx with rfl | ⟨b, -, rfl⟩ | rfl
  · exact hstart
  · exact hdata
  · exact hend

/-- The DATA bytes of a list of address and command bytes. -/
def pairBytes (l : List (UInt8 × UInt8)) : Bytes :=
  (l.filter (fun x => AddressIs wfrFrameTypeData x.1)).map Prod.snd

theorem dataBytes_eq (fs : List Scancode) : dataBytes fs = pairBytes (fs.map pairOf) := by
  rw [dataBytes, pairBytes, List.filter_map, List.map_map]
  rfl

theorem pairBytes_data (i : ℕ) (p : Bytes) :
    pairBytes (p.map (fun b => (frameAddress wfrFrameTypeData (label i), b))) = p := by
  have hdata := (addressIs_frameAddress (label_le i)).2.1
  have hsnd : Prod.snd ∘ (fun b => (frameAddress wfrFrameTypeData (label i), b)) = (id : UInt8 → UInt8) := rfl
  rw [pairBytes, List.filter_eq_self.mpr (by simp [hdata]), List.map_map, hsnd, List.map_id]

theorem pairBytes_passFrames (i : ℕ) (p : Bytes) : pairBytes (passFrames (label i) p) = p := by
  obtain ⟨hstart, -, hend⟩ := addressIs_frameAddress (label_le i)
  have hs : ¬ AddressIs wfrFrameTypeData (frameAddress wfrFrameTypeStart (label i)) :=
    fun h => absurd (hstart.type_eq h) (by decide)
  have he : ¬ AddressIs wfrFrameTypeData (frameAddress wfrFrameTypeEnd (label i)) :=
    fun h => absurd (hend.type_eq h) (by decide)
  have hall := pairBytes_data i p
  rw [pairBytes] at hall
  simp [pairBytes, passFrames, hs, he, hall]

/-- Frames that all carry one label were sent in one pass. -/
theorem sublist_pass {is : List ℕ} {p : Bytes} {l : List (UInt8 × UInt8)} {k : UInt8}
    (his : ∀ i ∈ is, i < 4) (hdistinct : is.Nodup)
    (hl : l.Sublist (is.flatMap (fun i => passFrames (label i) p)))
    (hk : ∀ x ∈ l, passLabel x.1 = k) : ∃ i, l.Sublist (passFrames (label i) p) := by
  induction is generalizing l with
  | nil => exact ⟨0, (List.sublist_nil.mp hl) ▸ List.nil_sublist _⟩
  | cons i is ih =>
    rw [List.flatMap_cons] at hl
    obtain ⟨l₁, l₂, rfl, h₁, h₂⟩ := List.sublist_append_iff.mp hl
    rw [List.nodup_cons] at hdistinct
    have hi := his i List.mem_cons_self
    have his' : ∀ j ∈ is, j < 4 := fun j hj => his j (List.mem_cons_of_mem _ hj)
    by_cases hlabel : label i = k
    · have hnil : l₂ = [] := by
        rw [List.eq_nil_iff_forall_not_mem]
        intro x hx
        obtain ⟨j, hj, hxj⟩ := List.mem_flatMap.mp (h₂.subset hx)
        have hsame : label j = label i := by
          rw [← passLabel_of_mem (his' j hj) hxj, hlabel]
          exact hk x (List.mem_append_right _ hx)
        have hji : j = i := by
          rw [← (label_facts (his' j hj)).1, hsame, (label_facts hi).1]
        exact hdistinct.1 (hji ▸ hj)
      exact ⟨i, by rwa [hnil, List.append_nil]⟩
    · have hnil : l₁ = [] := by
        rw [List.eq_nil_iff_forall_not_mem]
        intro x hx
        apply hlabel
        rw [← passLabel_of_mem hi (h₁.subset hx)]
        exact hk x (List.mem_append_left _ hx)
      subst hnil
      exact ih his' hdistinct.2 h₂ hk

/-! ## What arrives of a send -/

section Arrivals
variable {protocol : WfrIrProtocol} {passes : ℕ} {p : Bytes} {fs : List Scancode}

theorem sentFrames_eq : sentFrames protocol passes p =
    (List.range' 0 passes).flatMap (fun i => passFrames (label i) p) := sendPasses_uncancelled ..

theorem sent_cases (hsub : (fs.map pairOf).Sublist (sentFrames protocol passes p)) {f : Scancode}
    (hf : f ∈ fs) :
    (AddressIs wfrFrameTypeStart f.address ∧ f.command = UInt8.ofNat p.length) ∨
      (AddressIs wfrFrameTypeData f.address) ∨
      (AddressIs wfrFrameTypeEnd f.address ∧ f.command = wfrCrc8 p) := by
  rw [sentFrames_eq] at hsub
  obtain ⟨i, -, hi⟩ := List.mem_flatMap.mp (hsub.subset (List.mem_map_of_mem hf))
  exact passFrames_cases hi

theorem sent_start (hsub : (fs.map pairOf).Sublist (sentFrames protocol passes p))
    (hp255 : p.length ≤ 255) {f : Scancode} (hf : f ∈ fs)
    (hstart : AddressIs wfrFrameTypeStart f.address) : f.frame = (f.now, .start p.length) := by
  rcases sent_cases hsub hf with ⟨-, hcmd⟩ | hdata | ⟨hend, -⟩
  · rw [Scancode.frame, frameOf_start hstart, hcmd, UInt8.toNat_ofNat', Nat.mod_eq_of_lt (by omega)]
  · exact absurd (hstart.type_eq hdata) (by decide)
  · exact absurd (hstart.type_eq hend) (by decide)

theorem sent_end (hsub : (fs.map pairOf).Sublist (sentFrames protocol passes p)) {f : Scancode}
    (hf : f ∈ fs) (hend : AddressIs wfrFrameTypeEnd f.address) : f.command = wfrCrc8 p := by
  rcases sent_cases hsub hf with ⟨hstart, -⟩ | hdata | ⟨-, hcmd⟩
  · exact absurd (hend.type_eq hstart) (by decide)
  · exact absurd (hend.type_eq hdata) (by decide)
  · exact hcmd

/-- Only a START opens, and every START that arrives does. -/
theorem sent_opens_iff (hsub : (fs.map pairOf).Sublist (sentFrames protocol passes p))
    (hp : 1 ≤ p.length) (hp255 : p.length ≤ 255) {f : Scancode} (hf : f ∈ fs) :
    f.frame.2.Opens ↔ AddressIs wfrFrameTypeStart f.address := by
  constructor
  · intro hopen
    cases hk : f.frame.2 with
    | start n => exact (frameOf_eq_start hk).1
    | _ =>
      rw [hk] at hopen
      exact hopen.elim
  · intro hstart
    rw [sent_start hsub hp255 hf hstart]
    exact Nat.ne_of_gt hp

/-- The labels of what arrives do not go down. -/
theorem sent_sorted (hpasses : passes ≤ 4)
    (hsub : (fs.map pairOf).Sublist (sentFrames protocol passes p)) :
    fs.Pairwise (fun f g => (passLabel f.address).toNat ≤ (passLabel g.address).toNat) := by
  have hlt : ∀ i ∈ List.range' 0 passes, i < 4 := by
    intro i hi
    rw [List.mem_range'_1] at hi
    omega
  have hall : (sentFrames protocol passes p).Pairwise
      (fun x y => (passLabel x.1).toNat ≤ (passLabel y.1).toNat) := by
    rw [sentFrames_eq, List.pairwise_flatMap]
    constructor
    · intro i hi
      apply List.pairwise_of_forall_mem_list
      intro x hx y hy
      rw [passLabel_of_mem (hlt i hi) hx, passLabel_of_mem (hlt i hi) hy]
    · apply List.Pairwise.imp_of_mem _ List.pairwise_lt_range'
      intro i j hi hj hij x hx y hy
      rw [passLabel_of_mem (hlt i hi) hx, passLabel_of_mem (hlt j hj) hy,
        (label_facts (hlt i hi)).1, (label_facts (hlt j hj)).1]
      exact Nat.le_of_lt hij
  have hmap := hall.sublist hsub
  rwa [List.pairwise_map] at hmap

/-- Between a START and an END of one pass only bytes of that pass arrive. -/
theorem data_of_pass (hpasses : passes ≤ 4) {before since rest : List Scancode} {start e : Scancode}
    (hsub : ((before ++ start :: since ++ e :: rest).map pairOf).Sublist
      (sentFrames protocol passes p))
    (hsame : passLabel start.address = passLabel e.address) : (dataBytes since).Sublist p := by
  have hsorted := sent_sorted hpasses hsub
  rw [List.append_assoc, List.cons_append, List.pairwise_append, List.pairwise_cons] at hsorted
  obtain ⟨-, ⟨hfrom, htail⟩, -⟩ := hsorted
  rw [List.pairwise_append] at htail
  have hlabels : ∀ x ∈ since.map pairOf, passLabel x.1 = passLabel e.address := by
    intro x hx
    obtain ⟨f, hf, rfl⟩ := List.mem_map.mp hx
    have hlow := hfrom f (List.mem_append_left _ hf)
    have hhigh := htail.2.2 f hf e List.mem_cons_self
    rw [hsame] at hlow
    exact UInt8.toNat_inj.mp (Nat.le_antisymm hhigh hlow)
  have hsince : (since.map pairOf).Sublist (sentFrames protocol passes p) := by
    apply List.Sublist.trans _ hsub
    apply List.Sublist.map
    simp only [List.append_assoc, List.cons_append]
    exact ((List.sublist_append_left since _).cons start).trans (List.sublist_append_right _ _)
  rw [sentFrames_eq] at hsince
  have hlt : ∀ i ∈ List.range' 0 passes, i < 4 := by
    intro i hi
    rw [List.mem_range'_1] at hi
    omega
  obtain ⟨i, hi⟩ := sublist_pass hlt List.nodup_range' hsince hlabels
  rw [dataBytes_eq, ← pairBytes_passFrames i p]
  exact (hi.filter _).map _

theorem InTime.drop {opened : Option Timespec} {ss ts : List Scancode} (h : InTime opened (ss ++ ts)) :
    ∃ t, InTime t ts := by
  induction ss generalizing opened with
  | nil => exact ⟨opened, h⟩
  | cons s ss ih => exact ih h.2

theorem InTime.nanos_lt {t : Timespec} {since rest : List Scancode} {f : Scancode}
    (h : InTime (some t) (since ++ f :: rest))
    (hno : ∀ g ∈ since, ¬ AddressIs wfrFrameTypeStart g.address) :
    f.now.nanos < t.nanos + 30 * 1000000000 := by
  induction since with
  | nil =>
    have hstale := h.1
    simp only [Stale, Option.mem_def, Option.some.injEq, exists_eq_left', Nat.not_le] at hstale
    exact hstale
  | cons g since ih =>
    rw [List.forall_mem_cons] at hno
    rw [List.cons_append, InTime, if_neg hno.1] at h
    exact ih h.2 hno.2

/-- An open session goes back to the last START that arrived. -/
theorem session_of_sent (hp : 1 ≤ p.length) (hp255 : p.length ≤ 255) {h rest : List Scancode}
    (hsub : ((h ++ rest).map pairOf).Sublist (sentFrames protocol passes p)) {n : ℕ}
    {v : Session Timespec UInt8} (hrun : (run (policy n) none (h.map Scancode.frame)).1 = some v) :
    ∃ before start since, h = before ++ start :: since ∧ AddressIs wfrFrameTypeStart start.address ∧
      start.now = v.opened ∧ v.size = p.length ∧
      (∀ f ∈ since, ¬ AddressIs wfrFrameTypeStart f.address) ∧
      v.received = (dataBytes (sinceMark p.length since)).take p.length := by
  obtain ⟨before', after', hist⟩ := run_history _ hrun
  obtain ⟨before, tail, rfl, hbefore, htail⟩ := List.map_eq_append_iff.mp hist.split
  obtain ⟨start, since, rfl, hstart, rfl⟩ := List.map_eq_cons_iff.mp htail
  have hopening := (frameOf_eq_start (congrArg Prod.snd hstart)).1
  have hmem : start ∈ before ++ start :: since ++ rest := by simp
  have hsent := (sent_start hsub hp255 hmem hopening).symm.trans hstart
  have hsize : p.length = v.size := Frame.start.inj (congrArg Prod.snd hsent)
  refine ⟨before, start, since, rfl, hopening, congrArg Prod.fst hstart, hsize.symm, ?_, ?_⟩
  · intro f hf haddr
    have hmemf : f ∈ before ++ start :: since ++ rest := by simp [hf]
    exact hist.no_start f.frame (List.mem_map_of_mem hf)
      ((sent_opens_iff hsub hp hp255 hmemf).mpr haddr)
  · rw [hist.received, ← hsize, window_frames, items_frames]

theorem not_timedOut_of_sent (hp : 1 ≤ p.length) (hp255 : p.length ≤ 255) {h rest : List Scancode}
    {s : Scancode} (hsub : ((h ++ s :: rest).map pairOf).Sublist (sentFrames protocol passes p))
    (htime : InTime none (h ++ s :: rest)) (n : ℕ) :
    timedOut (policy n) s.now (run (policy n) none (h.map Scancode.frame)).1 = false := by
  cases hrun : (run (policy n) none (h.map Scancode.frame)).1 with
  | none => rfl
  | some v =>
    obtain ⟨before, start, since, rfl, hopening, hnow, -, hno, -⟩ := session_of_sent hp hp255 hsub hrun
    rw [List.append_assoc] at htime
    obtain ⟨t, hfrom⟩ := htime.drop
    rw [List.cons_append, InTime, if_pos hopening, hnow] at hfrom
    exact policy_expired_eq_false_iff.mpr (hfrom.2.nanos_lt hno)

/-- What an END delivers is the payload, or the END is a mixed one. -/
theorem delivered_cases (hpasses : passes ≤ 4) (hp : 1 ≤ p.length) (hp255 : p.length ≤ 255)
    {h rest : List Scancode} {e : Scancode}
    (hsub : ((h ++ e :: rest).map pairOf).Sublist (sentFrames protocol passes p)) {n : ℕ} {q : Bytes}
    (hq : (step (policy n) e.now (run (policy n) none (h.map Scancode.frame)).1 e.frame.2).2 =
      .delivered q) :
    q = p ∨ p.length < n ∧ Mixes p (h ++ e :: rest) := by
  obtain ⟨v, hrun, -, rfl, hfull, hend, hroom, -⟩ := step_delivered _ hq
  obtain ⟨before, start, since, rfl, hopening, -, hsize, hno, hrecv⟩ :=
    session_of_sent hp hp255 hsub hrun
  obtain ⟨hclosing, hcrc⟩ := frameOf_eq_finish hend
  rw [hsize] at hfull hroom
  have hlen : p.length ≤ (dataBytes (sinceMark p.length since)).length := by
    have hlen' := congrArg List.length hrecv
    rw [List.length_take, hfull] at hlen'
    omega
  have hsent : e.command = wfrCrc8 p := sent_end hsub (by simp) hclosing
  by_cases hkept : v.received = p
  · exact .inl hkept
  refine .inr ⟨by simpa using hroom, before, start, since, e, rest, rfl, ?_⟩
  refine ⟨hopening, hno, hclosing, fun hsame => hkept ?_, hlen, hrecv ▸ hkept, ?_⟩
  · have hdata := data_of_pass hpasses hsub hsame
    have hmark : (dataBytes (sinceMark p.length since)).Sublist (dataBytes since) :=
      ((sinceMark_sublist p.length since).filter _).map _
    have htake : v.received.Sublist p := by
      rw [hrecv]
      exact (List.take_sublist _ _).trans (hmark.trans hdata)
    exact htake.eq_of_length hfull
  · rw [← hrecv, ← hsent, hcrc]
    rfl

/-! ### The frames between a START and the next one -/

theorem sent_live {before since rest : List Scancode} {start : Scancode}
    (htime : InTime none (before ++ start :: (since ++ rest)))
    (hstart : AddressIs wfrFrameTypeStart start.address)
    (hno : ∀ f ∈ since, ¬ AddressIs wfrFrameTypeStart f.address) (n : ℕ) :
    ∀ f ∈ since.map Scancode.frame, (policy n).expired start.now f.1 = false := by
  intro f hf
  obtain ⟨g, hg, rfl⟩ := List.mem_map.mp hf
  obtain ⟨xs, ys, rfl⟩ := List.append_of_mem hg
  obtain ⟨t, hfrom⟩ := htime.drop
  rw [InTime, if_pos hstart, List.append_assoc] at hfrom
  apply policy_expired_eq_false_iff.mpr
  exact hfrom.2.nanos_lt fun a ha => hno a (List.mem_append_left _ ha)

theorem sent_ends (hsub : (fs.map pairOf).Sublist (sentFrames protocol passes p)) {since : List Scancode}
    (hmem : since ⊆ fs) :
    ∀ f ∈ since.map Scancode.frame, ∀ d, f.2 = .finish d → d = wfrCrc8 p := by
  intro f hf d hd
  obtain ⟨g, hg, rfl⟩ := List.mem_map.mp hf
  obtain ⟨haddr, hcmd⟩ := frameOf_eq_finish hd
  rw [← hcmd]
  exact sent_end hsub (hmem hg) haddr

theorem sent_not_opens (hsub : (fs.map pairOf).Sublist (sentFrames protocol passes p))
    (hp : 1 ≤ p.length) (hp255 : p.length ≤ 255) {since : List Scancode} (hmem : since ⊆ fs)
    (hno : ∀ f ∈ since, ¬ AddressIs wfrFrameTypeStart f.address) :
    ∀ f ∈ since.map Scancode.frame, ¬ f.2.Opens := by
  intro f hf
  obtain ⟨g, hg, rfl⟩ := List.mem_map.mp hf
  rw [sent_opens_iff hsub hp hp255 (hmem hg)]
  exact hno g hg

/-- A START that arrives opens a session of its own. -/
theorem step_sent_start (hp : 1 ≤ p.length) (hp255 : p.length ≤ 255) {h rest : List Scancode}
    {start : Scancode} (hsub : ((h ++ start :: rest).map pairOf).Sublist (sentFrames protocol passes p))
    (htime : InTime none (h ++ start :: rest)) (hstart : AddressIs wfrFrameTypeStart start.address)
    (n : ℕ) :
    step (policy n) start.now (run (policy n) none (h.map Scancode.frame)).1 start.frame.2 =
      (some ⟨p.length, start.now, [], Nat.ne_of_gt hp, Nat.zero_le _⟩, .quiet) := by
  rw [sent_start hsub hp255 (by simp) hstart]
  exact step_start _ (not_timedOut_of_sent hp hp255 hsub htime n) (Nat.ne_of_gt hp)

/-- A mixed END, or one before it, delivers another payload. -/
theorem mixes_delivers (hp : 1 ≤ p.length) (hp255 : p.length ≤ 255)
    (hsub : (fs.map pairOf).Sublist (sentFrames protocol passes p)) (htime : InTime none fs) {n : ℕ}
    (hroom : p.length < n) (hmix : Mixes p fs) :
    ∃ q ∈ messages (run (policy n) none (fs.map Scancode.frame)).2, q ≠ p := by
  obtain ⟨before, start, since, e, rest, rfl, hopening, hno, hclosing, -, hfull, hdiffers, hcollides⟩ :=
    hmix
  have hsplit : before ++ start :: since ++ e :: rest = before ++ start :: (since ++ e :: rest) := by simp
  rw [hsplit] at hsub htime ⊢
  have hsince : since ⊆ before ++ start :: (since ++ e :: rest) := by
    intro f hf
    simp [hf]
  have hsent : e.command = wfrCrc8 p := sent_end hsub (by simp) hclosing
  have hlast : (policy n).expired start.now e.now = false := by
    obtain ⟨t, hfrom⟩ := htime.drop
    rw [InTime, if_pos hopening] at hfrom
    exact policy_expired_eq_false_iff.mpr (hfrom.2.nanos_lt hno)
  have hwindow : items (window (policy n) p.length (since.map Scancode.frame)) =
      dataBytes (sinceMark p.length since) := by
    rw [window_frames, items_frames]
  have hdel := run_delivers (policy n) (Nat.ne_of_gt hp) (sent_not_opens hsub hp hp255 hsince hno)
    (sent_live htime hopening hno n) hlast (sent_ends hsub hsince) (by rwa [hwindow])
    (by rw [hwindow]; exact hcollides) (by simpa using hroom)
  rw [hwindow] at hdel
  refine ⟨_, ?_, hdiffers⟩
  have hend : e.frame = (e.now, .finish (wfrCrc8 p)) := by
    rw [Scancode.frame, frameOf_end hclosing, hsent]
  have hframes : (before ++ start :: (since ++ e :: rest)).map Scancode.frame =
      before.map Scancode.frame ++ (start.now, start.frame.2) ::
        (since.map Scancode.frame ++ [(e.now, .finish (wfrCrc8 p))] ++ rest.map Scancode.frame) := by
    rw [List.map_append, List.map_cons, List.map_append, List.map_cons, hend, List.append_assoc]
    rfl
  rw [hframes, run_append, run_cons, step_sent_start hp hp255 hsub htime hopening, run_append,
    messages_append]
  apply List.mem_append_right
  rw [messages, List.filterMap_cons]
  simp only [Outcome.message?, List.filterMap_append]
  exact List.mem_append_left _ hdel

end Arrivals

/-- Every delivery is the payload that was sent unless there is room for it and an END is mixed. -/
theorem passes_kept_iff (protocol : WfrIrProtocol) (passes : ℕ) (hpasses : passes ≤ 4) (p : Bytes)
    (hp : 1 ≤ p.length) (hp255 : p.length ≤ 255) (out : Bytes) (fs : List Scancode)
    (hsub : (fs.map pairOf).Sublist (sentFrames protocol passes p)) (htime : InTime none fs) :
    (∀ q ∈ deliveries (feedAll wfrDecodeInit out fs), q = p) ↔
      ¬ (p.length < out.length ∧ Mixes p fs) := by
  obtain ⟨-, -, hreports⟩ := feedAll_refines out holds_init fs
  rw [deliveries_eq_messages hreports]
  constructor
  · rintro hall ⟨hroom, hmix⟩
    obtain ⟨q, hq, hne⟩ := mixes_delivers hp hp255 hsub htime hroom hmix
    exact hne (hall q hq)
  · intro hnot q hq
    obtain ⟨h', f, gs, hsplit, hdel⟩ := mem_messages_iff _ |>.mp hq
    obtain ⟨h, tail, rfl, rfl, htail⟩ := List.map_eq_append_iff.mp hsplit
    obtain ⟨e, rest, rfl, rfl, rfl⟩ := List.map_eq_cons_iff.mp htail
    exact (delivered_cases hpasses hp hp255 hsub hdel).resolve_right hnot

private def dock : Bytes := ascii "WIFI:T:WPA;S:dock;P:letmein1;H:false;;"

/-- Two passes that lose the seventeenth DATA frame of the first one and the START of the second. -/
private def twoLost : List Scancode :=
  (((sentFrames .rc6 2 dock).eraseIdx 40).eraseIdx 17).map (fun x => ⟨⟨1, 12, by decide⟩, x.1, x.2⟩)

private theorem twoLost_sublist : (twoLost.map pairOf).Sublist (sentFrames .rc6 2 dock) := by
  have hpairs : twoLost.map pairOf = ((sentFrames .rc6 2 dock).eraseIdx 40).eraseIdx 17 := by
    rw [twoLost, List.map_map]
    exact List.map_id _
  rw [hpairs]
  exact (List.eraseIdx_sublist _ _).trans (List.eraseIdx_sublist _ _)

theorem passes_kept_iff_twoLost :
    (∀ q ∈ deliveries (feedAll wfrDecodeInit (List.replicate 256 0) twoLost), q = dock) ↔
      ¬ (dock.length < (List.replicate 256 (0 : UInt8)).length ∧ Mixes dock twoLost) :=
  passes_kept_iff .rc6 2 (by decide) dock (by decide) (by decide +kernel) _ twoLost twoLost_sublist
    (by decide +kernel)

/-- The daemon takes over a payload that was never sent: the first byte of the second pass fills
the gap that the first one left, and the CRC-8 happens to match. -/
theorem passes_mixed :
    (twoLost.map pairOf).Sublist (sentFrames .rc6 2 dock) ∧ InTime none twoLost ∧
      deliveries (feedAll wfrDecodeInit (List.replicate 256 0) twoLost) =
        [ascii "WIFI:T:WPA;S:doc;P:letmein1;H:false;;W"] ∧
      ¬ ∀ q ∈ deliveries (feedAll wfrDecodeInit (List.replicate 256 0) twoLost), q = dock :=
  ⟨twoLost_sublist, by decide +kernel, by decide +kernel, by decide +kernel⟩

/-- A single pass, which is what the sender makes, cannot be mixed. -/
theorem not_mixes_single {protocol : WfrIrProtocol} {p : Bytes} {fs : List Scancode}
    (hsub : (fs.map pairOf).Sublist (sentFrames protocol wfrRetransmitCount p)) : ¬ Mixes p fs := by
  rintro ⟨before, start, since, e, rest, rfl, hmixed⟩
  have hlabel : ∀ f ∈ before ++ start :: since ++ e :: rest, passLabel f.address = label 0 := by
    intro f hf
    rw [sentFrames_eq] at hsub
    obtain ⟨i, hi, hmem⟩ := List.mem_flatMap.mp (hsub.subset (List.mem_map_of_mem hf))
    obtain rfl : i = 0 := by simpa [wfrRetransmitCount] using hi
    exact passLabel_of_mem (by decide) hmem
  apply hmixed.other_pass
  rw [hlabel start (by simp), hlabel e (by simp)]

end InfraFi.System
