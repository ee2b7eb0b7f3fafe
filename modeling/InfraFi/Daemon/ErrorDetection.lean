import InfraFi.Protocol.CrcCode
import InfraFi.Daemon.Delivery

/-! # Transmission errors the checksum detects -/
namespace InfraFi.Daemon
open Base Base.CyclicCode Protocol Reassembly

/-- The bits that differ between a payload with its checksum and what was received. -/
def bitErrors (p q : Bytes) (c : UInt8) : List Bool :=
  errors (bitsOf (p ++ [wfrCrc8 p])) (bitsOf (q ++ [c]))

/-- The bits in error are within 8 consecutive places, or odd in number. -/
def Detectable (e : List Bool) : Prop := WithinWindow 8 e ∨ Odd (e.count true)

/-- The payload sent is a codeword, so what is received is none. -/
theorem wfrCrc8_ne {p q : Bytes} {c : UInt8} (hlen : q.length = p.length)
    (herr : Detectable (bitErrors p q c)) : wfrCrc8 q ≠ c := by
  have hbits : (bitsOf (p ++ [wfrCrc8 p])).length = (bitsOf (q ++ [c])).length := by
    rw [bitsOf_length, bitsOf_length, List.length_append, List.length_append, hlen]
    rfl
  have hk : ((8 : ℕ) : WithBot ℕ) ≤ crcPoly.degree := crcPoly_degree.ge
  have hsent := (codeword_iff_wfrCrc8 p (wfrCrc8 p)).mpr rfl
  have hreceived := not_codeword crcPoly_coeff_zero crcPoly_eval_one hk hbits hsent herr
  exact fun heq => hreceived ((codeword_iff_wfrCrc8 q c).mpr heq)

/-- An END whose checksum is not that of the DATA frames behind the last START delivers nothing. -/
theorem undelivered_of_ne {out : Bytes} {history body : List Scancode} {start fin : Scancode}
    (hstart : AddressIs wfrFrameTypeStart start.address)
    (hlen : start.command.toNat = (dataBytes body).length) (hne : dataBytes body ≠ [])
    (hbody : ∀ s ∈ body, ¬ AddressIs wfrFrameTypeStart s.address ∧ ¬ AddressIs wfrFrameTypeEnd s.address)
    (hcrc : wfrCrc8 (dataBytes body) ≠ fin.command) :
    (feedAfter out (history ++ start :: body) fin).result ≤ 0 := by
  apply le_of_not_gt
  intro hpos
  obtain ⟨-, hreport, -⟩ := feedAfter_agrees out (history ++ start :: body) fin
  obtain ⟨m, hm⟩ := hreport.delivered hpos
  obtain ⟨-, -, -, -, -, hfin, -⟩ := step_delivered _ hm
  have hframe : start.frame = (start.now, .start start.command.toNat) := by
    rw [Scancode.frame, frameOf_start hstart]
  rw [List.map_append, List.map_cons, hframe] at hm
  have hm' : m = dataBytes body := by
    rw [delivered_items _ _ _ _ hm, items_frames, hlen, List.take_length]
    · rw [hlen]
      exact fun h0 => hne (List.length_eq_zero_iff.mp h0)
    · intro g hg
      obtain ⟨s, hs, rfl⟩ := List.mem_map.mp hg
      cases hf : s.frame.2 with
      | start n => exact absurd (frameOf_eq_start hf).1 (hbody s hs).1
      | _ => exact not_false
    · intro g hg c hc
      obtain ⟨s, hs, rfl⟩ := List.mem_map.mp hg
      exact (hbody s hs).2 (frameOf_eq_finish hc).1
  rw [hm'] at hfin
  exact hcrc (frameOf_eq_finish hfin).2.symm

/-- Every short burst of errors and every odd number of them is noticed: the checksum of what
was received differs, and the decoder, in whatever state it was before, delivers nothing at the END. -/
theorem errors_detected {p q : Bytes} {c : UInt8} (hp : 1 ≤ p.length) (hlen : q.length = p.length)
    (herr : Detectable (bitErrors p q c)) :
    wfrCrc8 q ≠ c ∧
      ∀ (out : Bytes) (history body : List Scancode) (start fin : Scancode),
        AddressIs wfrFrameTypeStart start.address → start.command.toNat = q.length →
        (∀ s ∈ body, ¬ AddressIs wfrFrameTypeStart s.address ∧ ¬ AddressIs wfrFrameTypeEnd s.address) →
        dataBytes body = q → AddressIs wfrFrameTypeEnd fin.address → fin.command = c →
        (feedAfter out (history ++ start :: body) fin).result ≤ 0 := by
  have hcrc := wfrCrc8_ne hlen herr
  refine ⟨hcrc, ?_⟩
  rintro out history body start fin hstart hsize hbody rfl - rfl
  apply undelivered_of_ne hstart hsize _ hbody hcrc
  rintro hnil
  rw [hnil, List.length_nil] at hlen
  omega

/-- A burst across the last byte of the payload and the checksum. -/
private theorem acrossChecksum :
    Detectable (bitErrors (ascii "hi") (ascii "hj") (wfrCrc8 (ascii "hi") ^^^ 0xC0)) := by
  have hbits : bitErrors (ascii "hi") (ascii "hj") (wfrCrc8 (ascii "hi") ^^^ 0xC0) =
      List.replicate 14 false ++ List.replicate 4 true ++ List.replicate 6 false := by
    decide +kernel
  rw [hbits]
  exact .inl (withinWindow_burst (by decide) (by decide))

theorem errors_detected_burst :
    wfrCrc8 (ascii "hj") ≠ wfrCrc8 (ascii "hi") ^^^ 0xC0 ∧
      ∀ (out : Bytes) (history body : List Scancode) (start fin : Scancode),
        AddressIs wfrFrameTypeStart start.address → start.command.toNat = (ascii "hj").length →
        (∀ s ∈ body, ¬ AddressIs wfrFrameTypeStart s.address ∧ ¬ AddressIs wfrFrameTypeEnd s.address) →
        dataBytes body = ascii "hj" → AddressIs wfrFrameTypeEnd fin.address →
        fin.command = wfrCrc8 (ascii "hi") ^^^ 0xC0 →
        (feedAfter out (history ++ start :: body) fin).result ≤ 0 :=
  errors_detected (p := ascii "hi") (by decide) (by decide) acrossChecksum

end InfraFi.Daemon
