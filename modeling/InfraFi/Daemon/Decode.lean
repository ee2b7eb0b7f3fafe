import InfraFi.Protocol.Decoder
import Mathlib.Data.List.Forall2

/-! # The daemon's scancode decoder

Reassembles the messages of a transmission into the credential payload. Every
timestamp is one reading of the monotonic clock.
-/
namespace InfraFi.Daemon
open Base Protocol Reassembly

structure Timespec where
  tvSec : ℕ
  tvNsec : ℕ
  nsec_lt : tvNsec < 1000000000
deriving DecidableEq

def wfrTimeoutSec : ℤ := 30

/-- Whole seconds between two readings, one less when the nanoseconds borrow. -/
def elapsedSec (now start : Timespec) : ℤ :=
  let elapsed := (now.tvSec : ℤ) - start.tvSec
  if now.tvNsec < start.tvNsec then elapsed - 1 else elapsed

def wfrDecoderConfig : DecoderConfig Timespec where
  zero := ⟨0, 0, by decide⟩
  expired start now := wfrTimeoutSec ≤ elapsedSec now start
  pass := id

abbrev WfrDecoder := Decoder Timespec

abbrev Fed := FeedResult Timespec

def wfrDecodeInit : WfrDecoder := decodeInit wfrDecoderConfig

/-- Feeds one scancode; `out` is the caller's buffer, of any size. -/
def wfrDecodeFeedScancode (now : Timespec) (dec : WfrDecoder) (address command : UInt8)
    (out : Bytes) : Fed :=
  decodeFeed wfrDecoderConfig now dec address command out

/-- A scancode with the time at which it is fed. -/
structure Scancode where
  now : Timespec
  address : UInt8
  command : UInt8
deriving DecidableEq

/-- The decoder and the output buffer after a sequence of scancodes. -/
def feedState (dec : WfrDecoder) (out : Bytes) : List Scancode → WfrDecoder × Bytes
  | [] => (dec, out)
  | s :: rest =>
    let r := wfrDecodeFeedScancode s.now dec s.address s.command out
    feedState r.dec r.out rest

/-- What every call on a sequence of scancodes returns and leaves behind. -/
def feedAll (dec : WfrDecoder) (out : Bytes) : List Scancode → List Fed
  | [] => []
  | s :: rest =>
    let r := wfrDecodeFeedScancode s.now dec s.address s.command out
    r :: feedAll r.dec r.out rest

/-! ## Runs of the decoder are runs of the reassembler -/

def Scancode.frame (s : Scancode) : Timespec × Frame UInt8 UInt8 :=
  (s.now, frameOf s.address s.command)

abbrev policy (outSize : ℕ) : Policy Timespec UInt8 UInt8 := wfrDecoderConfig.policy outSize

abbrev Holds (dec : WfrDecoder) (s : Option (Session Timespec UInt8)) : Prop :=
  Represents wfrDecoderConfig dec s

theorem holds_init : Holds wfrDecodeInit none := rfl

/-- A sequence of calls is a run of the reassembler. -/
theorem feedAll_refines {dec : WfrDecoder} {s : Option (Session Timespec UInt8)} (out : Bytes)
    (h : Holds dec s) (ss : List Scancode) :
    Holds (feedState dec out ss).1 (run (policy out.length) s (ss.map Scancode.frame)).1 ∧
      (feedState dec out ss).2.length = out.length ∧
      List.Forall₂ FeedResult.Reports (feedAll dec out ss)
        (run (policy out.length) s (ss.map Scancode.frame)).2 := by
  induction ss generalizing dec out s with
  | nil => exact ⟨h, rfl, .nil⟩
  | cons c ss ih =>
    obtain ⟨hrep, hres, hlen⟩ :=
      decodeFeed_refines wfrDecoderConfig c.now c.address c.command out h
    obtain ⟨hrep', hlen', hres'⟩ :=
      ih (wfrDecodeFeedScancode c.now dec c.address c.command out).out hrep
    simp only [wfrDecodeFeedScancode, hlen] at hrep' hlen' hres'
    exact ⟨hrep', hlen', .cons hres hres'⟩

end InfraFi.Daemon
