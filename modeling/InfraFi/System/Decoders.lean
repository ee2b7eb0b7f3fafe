import InfraFi.Daemon.Delivery
import InfraFi.Flipper.AckDecode
import Mathlib.Algebra.Group.Nat.Defs

/-! # The two decoders are the same protocol

Both are fed the same scancodes at the same moments. The daemon reads the time
off its monotonic clock, the Flipper off a 32-bit tick counter that wraps.
-/
namespace InfraFi.System
open Base Protocol Reassembly Daemon Flipper

/-- A scancode, and the milliseconds since the start of the run. -/
structure Signal where
  ms : ℕ
  address : UInt8
  command : UInt8
deriving DecidableEq

/-- The reading of the monotonic clock some milliseconds after `base`. -/
def monotonicAfter (base : Timespec) (ms : ℕ) : Timespec where
  tvSec := (base.nanos + ms * 1000000) / 1000000000
  tvNsec := (base.nanos + ms * 1000000) % 1000000000
  nsec_lt := Nat.mod_lt _ (by decide)

/-- The tick counter some milliseconds after it stood at `base`. -/
def ticksAfter (base : UInt32) (ms : ℕ) : UInt32 := base + UInt32.ofNat ms

/-- What every call of the daemon's decoder returns and leaves behind. -/
def daemonFeeds (base : Timespec) (out : Bytes) (ss : List Signal) : List Fed :=
  feedAll wfrDecodeInit out (ss.map fun s => ⟨monotonicAfter base s.ms, s.address, s.command⟩)

def ackFeedAll (timeoutTicks : UInt32) (dec : WfrAckDecoder) (out : Bytes) :
    List (UInt32 × UInt8 × UInt8) → List (FeedResult UInt32)
  | [] => []
  | (tick, address, command) :: rest =>
    let r := wfrAckDecodeFeed timeoutTicks tick dec address command out
    r :: ackFeedAll timeoutTicks r.dec r.out rest

/-- What every call of the Flipper's decoder returns and leaves behind. -/
def flipperFeeds (base : UInt32) (out : Bytes) (ss : List Signal) : List (FeedResult UInt32) :=
  ackFeedAll ackTimeoutTicks (wfrAckDecodeInit ackTimeoutTicks) out
    (ss.map fun s => (ticksAfter base s.ms, s.address, s.command))

/-- The same return value, and the same text with its NUL when the value is positive. -/
def SameAnswer (r : Fed) (q : FeedResult UInt32) : Prop :=
  r.result = q.result ∧
    (0 < r.result → r.out.take (r.result.toNat + 1) = q.out.take (q.result.toNat + 1))

/-! ## The clocks -/

theorem nanos_monotonicAfter (base : Timespec) (ms : ℕ) :
    (monotonicAfter base ms).nanos = base.nanos + ms * 1000000 := by
  simp only [monotonicAfter, Timespec.nanos]
  omega

/-- The daemon's clock drops a session after exactly 30 s. -/
theorem expired_monotonicAfter (base : Timespec) (s t : ℕ) :
    wfrDecoderConfig.expired (monotonicAfter base s) (monotonicAfter base t) =
      decide (s + 30000 ≤ t) := by
  have hlive : (policy 0).expired (monotonicAfter base s) (monotonicAfter base t) = false ↔
      (monotonicAfter base t).nanos < (monotonicAfter base s).nanos + 30 * 1000000000 :=
    policy_expired_eq_false_iff
  rw [nanos_monotonicAfter, nanos_monotonicAfter, DecoderConfig.policy_expired] at hlive
  cases hexp : wfrDecoderConfig.expired (monotonicAfter base s) (monotonicAfter base t) with
  | false =>
    rw [hexp] at hlive
    symm
    rw [decide_eq_false_iff_not]
    have hlt := hlive.mp rfl
    omega
  | true =>
    rw [hexp] at hlive
    symm
    rw [decide_eq_true_iff]
    by_contra hlt
    have hfalse := hlive.mpr (by omega)
    cases hfalse

/-- So do the ticks, across a wrap of the counter. -/
theorem expired_ticksAfter (base : UInt32) {s t : ℕ} (hst : s ≤ t) (ht : t < 2 ^ 32) :
    (wfrAckDecoderConfig ackTimeoutTicks).expired (ticksAfter base s) (ticksAfter base t) =
      decide (s + 30000 ≤ t) := by
  have hsub : (ticksAfter base t - ticksAfter base s).toNat = t - s := by
    have hbase := base.toNat_lt
    simp only [ticksAfter, UInt32.toNat_sub, UInt32.toNat_add, UInt32.toNat_ofNat']
    omega
  have htimeout : ackTimeoutTicks.toNat = 30000 := by decide
  simp only [wfrAckDecoderConfig]
  rw [decide_eq_decide, UInt32.le_iff_toNat_le, hsub, htimeout]
  omega

/-! ## Both runs in real time -/

def Signal.frame (s : Signal) : ℕ × Frame UInt8 UInt8 := (s.ms, frameOf s.address s.command)

/-- The policy of both sides over milliseconds. -/
def realPolicy (outSize : ℕ) : Policy ℕ UInt8 UInt8 where
  expired s t := decide (s + 30000 ≤ t)
  check := wfrCrc8
  room n := n < outSize

theorem ackFeedAll_refines (timeoutTicks : UInt32) {dec : WfrAckDecoder}
    {s : Option (Session UInt32 UInt8)} (out : Bytes) (h : HoldsAck timeoutTicks dec s)
    (ss : List (UInt32 × UInt8 × UInt8)) :
    List.Forall₂ FeedResult.Reports (ackFeedAll timeoutTicks dec out ss)
      (run ((wfrAckDecoderConfig timeoutTicks).policy out.length) s
        (ss.map fun x => (x.1, frameOf x.2.1 x.2.2))).2 := by
  induction ss generalizing dec out s with
  | nil => exact .nil
  | cons x ss ih =>
    rcases x with ⟨tick, address, command⟩
    rcases decodeFeed_refines (wfrAckDecoderConfig timeoutTicks) tick address command out h with
      ⟨hrep, hreports, hlen⟩
    have hrest := ih (wfrAckDecodeFeed timeoutTicks tick dec address command out).out hrep
    simp only [wfrAckDecodeFeed, hlen] at hrest
    exact .cons hreports hrest

section Runs
variable (base : Timespec) (ticks : UInt32) {ss : List Signal} (out : Bytes)

variable (ss) in
theorem daemonFeeds_reports :
    List.Forall₂ FeedResult.Reports (daemonFeeds base out ss)
      (run (realPolicy out.length) none (ss.map Signal.frame)).2 := by
  have hfeeds := (feedAll_refines out holds_init
    (ss.map fun s => ⟨monotonicAfter base s.ms, s.address, s.command⟩)).2.2
  have hcomap := run_comap (policy out.length) (monotonicAfter base) none (ss.map Signal.frame)
  have hframes : (ss.map fun s => (⟨monotonicAfter base s.ms, s.address, s.command⟩ : Scancode)).map
      Scancode.frame = (ss.map Signal.frame).map (Prod.map (monotonicAfter base) id) := by
    rw [List.map_map, List.map_map]
    rfl
  have hpolicy : (policy out.length).comap (monotonicAfter base) = realPolicy out.length := by
    unfold Policy.comap realPolicy
    congr 1
    funext s t
    exact expired_monotonicAfter base s t
  rw [Option.map_none, hpolicy] at hcomap
  rw [hframes, hcomap] at hfeeds
  exact hfeeds

theorem flipperFeeds_reports (hsorted : ss.Pairwise (fun s t => s.ms ≤ t.ms))
    (hlen : ∀ s ∈ ss, s.ms < 2 ^ 32) :
    List.Forall₂ FeedResult.Reports (flipperFeeds ticks out ss)
      (run (realPolicy out.length) none (ss.map Signal.frame)).2 := by
  have hfeeds := ackFeedAll_refines ackTimeoutTicks out (represents_init _)
    (ss.map fun s => (ticksAfter ticks s.ms, s.address, s.command))
  have hlocal : run (((wfrAckDecoderConfig ackTimeoutTicks).policy out.length).comap (ticksAfter ticks))
      none (ss.map Signal.frame) = run (realPolicy out.length) none (ss.map Signal.frame) := by
    apply run_congr
    · rfl
    · rfl
    · intro u hu
      cases hu
    · rw [List.pairwise_map]
      apply hsorted.imp_of_mem
      intro s t _ ht hst
      exact expired_ticksAfter ticks hst (hlen t ht)
  have hcomap := run_comap ((wfrAckDecoderConfig ackTimeoutTicks).policy out.length)
    (ticksAfter ticks) none (ss.map Signal.frame)
  have hframes : (ss.map fun s => (ticksAfter ticks s.ms, s.address, s.command)).map
      (fun x => (x.1, frameOf x.2.1 x.2.2)) =
      (ss.map Signal.frame).map (Prod.map (ticksAfter ticks) id) := by
    rw [List.map_map, List.map_map]
    rfl
  rw [Option.map_none, hlocal] at hcomap
  rw [hframes, hcomap] at hfeeds
  exact hfeeds

/-- Two calls that report the same outcome answer alike. -/
theorem sameAnswer_of_reports {r : Fed} {q : FeedResult UInt32} {o : Outcome UInt8}
    (hr : r.Reports o) (hq : q.Reports o) : SameAnswer r q := by
  cases o with
  | quiet => exact ⟨hr.trans hq.symm, fun hpos => absurd (hr ▸ hpos) (by decide)⟩
  | rejected => exact ⟨hr.trans hq.symm, fun hpos => absurd (hr ▸ hpos) (by decide)⟩
  | delivered p =>
    have hres : r.result = p.length := hr.1
    have hres' : q.result = p.length := hq.1
    refine ⟨hres.trans hres'.symm, fun _ => ?_⟩
    rw [hres, hres', Int.toNat_natCast, List.take_add_one, List.take_add_one]
    rw [hr.2.2.2.1, hr.2.2.2.2, hq.2.2.2.1, hq.2.2.2.2]

end Runs

theorem forall₂_of_common {α β γ : Type} {R : α → γ → Prop} {S : β → γ → Prop} {T : α → β → Prop}
    {as : List α} {bs : List β} {cs : List γ} (h : List.Forall₂ R as cs) (h' : List.Forall₂ S bs cs)
    (hT : ∀ a b c, R a c → S b c → T a b) : List.Forall₂ T as bs := by
  induction h generalizing bs with
  | nil =>
    cases h'
    exact .nil
  | cons hac h ih =>
    cases h' with
    | cons hbc h' => exact .cons (hT _ _ _ hac hbc) (ih h')

/-- On the same scancodes the decoders agree at every call. -/
theorem decoders_agree (base : Timespec) (ticks : UInt32) (ss : List Signal)
    (hsorted : ss.Pairwise (fun s t => s.ms ≤ t.ms)) (hlen : ∀ s ∈ ss, s.ms < 2 ^ 32)
    (out out' : Bytes) (hsize : out.length = out'.length) :
    List.Forall₂ SameAnswer (daemonFeeds base out ss) (flipperFeeds ticks out' ss) := by
  have hdaemon := daemonFeeds_reports base ss out
  have hflipper := flipperFeeds_reports ticks out' hsorted hlen
  rw [hsize] at hdaemon
  exact forall₂_of_common hdaemon hflipper fun _ _ _ => sameAnswer_of_reports

/-- A delivery at the last moment, as the tick counter wraps, and a timeout. -/
private def wrapSignals : List Signal :=
  [⟨0, 0xA0, 1⟩, ⟨29998, 0xA4, 0x41⟩, ⟨29999, 0xA8, wfrCrc8 [0x41]⟩, ⟨30001, 0xA0, 1⟩,
    ⟨60001, 0xA4, 0x41⟩]

theorem decoders_agree_wrap :
    List.Forall₂ SameAnswer (daemonFeeds ⟨7, 999999999, by decide⟩ [0, 0] wrapSignals)
      (flipperFeeds 0xFFFFFF00 [1, 1] wrapSignals) :=
  decoders_agree _ _ _ (by decide) (by decide) _ _ rfl

end InfraFi.System
