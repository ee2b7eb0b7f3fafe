import InfraFi.System.Acks
import InfraFi.System.Listening
import InfraFi.System.Passes
import Mathlib.Algebra.Ring.Parity

/-! # What the air does to a single transmission

An ACK that a daemon hears, its own or that of another one, and a send whose
frames arrive with flipped bits.
-/
namespace InfraFi.System
open Base Protocol Reassembly Daemon Flipper

variable {ε : Type}

/-- A START, DATA and at most one more frame add at most one delivery: the DATA bytes, as many as
the START has announced. -/
theorem deliveries_single (out : Bytes) (before : List Scancode) {start : Scancode}
    {body last : List Scancode} (hstart : AddressIs wfrFrameTypeStart start.address)
    (hn : start.command ≠ 0) (hbody : ∀ s ∈ body, AddressIs wfrFrameTypeData s.address)
    (hno : ∀ s ∈ last, ¬ AddressIs wfrFrameTypeStart s.address) (hlast : last.length ≤ 1) :
    ∃ ps, deliveries (feedAll wfrDecodeInit out (before ++ (start :: body ++ last))) =
        deliveries (feedAll wfrDecodeInit out before) ++ ps ∧
      (ps = [] ∨ ((body.map Scancode.command).take start.command.toNat).length = start.command.toNat ∧
        ps = [(body.map Scancode.command).take start.command.toNat]) := by
  obtain ⟨-, -, hreports⟩ := feedAll_refines out holds_init (before ++ (start :: body ++ last))
  obtain ⟨-, -, hbefore⟩ := feedAll_refines out holds_init before
  have hsize : start.command.toNat ≠ 0 := fun h0 => hn (UInt8.toNat_inj.mp h0)
  have hdata (f : Timespec × Frame UInt8 UInt8) (hf : f ∈ body.map Scancode.frame) :
      ∃ b, f.2 = .data b := by
    obtain ⟨s, hs, rfl⟩ := List.mem_map.mp hf
    exact ⟨s.command, frameOf_data (hbody s hs)⟩
  have hopens : ∀ f ∈ body.map Scancode.frame ++ last.map Scancode.frame, ¬ f.2.Opens := by
    refine List.forall_mem_append.mpr ⟨fun f hf ho => ?_, fun f hf ho => ?_⟩
    · obtain ⟨b, hb⟩ := hdata f hf
      rw [hb] at ho
      exact ho
    · obtain ⟨s, hs, rfl⟩ := List.mem_map.mp hf
      cases hframe : frameOf s.address s.command with
      | start n => exact hno s hs (frameOf_eq_start hframe).1
      | _ =>
        rw [Scancode.frame, hframe] at ho
        exact ho
  have hitems : items (body.map Scancode.frame) = body.map Scancode.command := by
    rw [items_frames, dataBytes, List.filter_eq_self.mpr (by simpa using hbody)]
  have hsingle := messages_single (policy out.length)
    (run (policy out.length) none (before.map Scancode.frame)).1 (t := start.now) hsize hopens
    (fun f hf c hc => by
      obtain ⟨b, hb⟩ := hdata f hf
      rw [hb] at hc
      cases hc) (by simpa using hlast)
  rw [hitems] at hsingle
  refine ⟨_, ?_, hsingle⟩
  rw [deliveries_eq_messages hreports, deliveries_eq_messages hbefore, List.map_append, run_append,
    messages_append, List.map_append, List.map_cons, Scancode.frame, frameOf_start hstart]

/-! ## Echoes -/

theorem handleCredentials_foreign (ackFd : ℤ) {p : Bytes}
    (hp : (ascii "WIFI:").isPrefixOf (cstr p) = false) : handleCredentials ackFd p = pure () := by
  have hnone : wfrParseWifiString (cstr p) = none := by
    rw [wfrParseWifiString, if_pos (by simp [hp])]
    rfl
  rw [handleCredentials, hnone]

theorem ackText_foreign (success : Bool) (ipStr : Option Bytes) :
    (ascii "WIFI:").isPrefixOf (cstr (ackText success ipStr)) = false := by
  have hne (c : UInt8) (rest : Bytes) (h0 : c ≠ 0) (hc : c ≠ 0x57) :
      (ascii "WIFI:").isPrefixOf (cstr (c :: rest)) = false := by
    have hhead : ascii "WIFI:" = 0x57 :: ascii "IFI:" := rfl
    rw [cstr, List.takeWhile_cons, if_pos (by simpa using h0), hhead, List.isPrefixOf_cons_cons]
    simp [Ne.symm hc]
  unfold ackText
  split
  · exact hne 0x4F _ (by decide) (by decide)
  · exact hne 0x46 _ (by decide) (by decide)

/-- What `send_ack` writes: nothing, or a START, DATA frames and perhaps the END of one text. -/
theorem written_sendAck {ackFd : ℤ} {success : Bool} {tr : Trace}
    (h : Prog.Run (sendAck ackFd success) tr ()) :
    written tr = [] ∨ ∃ ipStr k, ∃ last : List (UInt8 × UInt8), last.length ≤ 1 ∧
      (∀ f ∈ last, ¬ AddressIs wfrFrameTypeStart f.1) ∧
      (ackText success ipStr).length ≤ 255 ∧
      written tr = (frameAddress wfrFrameTypeStart 0, UInt8.ofNat (ackText success ipStr).length) ::
        ((ackText success ipStr).take k).map (fun b => (frameAddress wfrFrameTypeData 0, b)) ++ last := by
  by_cases hfd : ackFd < 0
  · rw [sendAck, if_pos hfd] at h
    rw [(Prog.run_pure.mp h).1]
    exact .inl rfl
  rw [sendAck, if_neg hfd] at h
  rcases Prog.run_bind.mp h with ⟨t₁, ⟨found, ip⟩, t₂, rfl, hlookup, hsend⟩
  rcases run_sendIp hsend with ⟨t, ok, hack, hw, -⟩
  rcases lookupIp_text hlookup with ⟨h0, hlen, -⟩
  rw [written_append, (lookupIp_writes hlookup).1, hw, List.nil_append]
  generalize hipStr : (if (found, ip).2 ≠ [] then some (found, ip).2 else none) = ipStr at hack
  have htext := (ackText_valid success h0 hlen hipStr).2
  rcases run_wfrAckSend (by omega) htext hack with ⟨-, hwhole⟩ | ⟨-, hnil | ⟨k, hpart⟩⟩
  · refine .inr ⟨ipStr, (ackText success ipStr).length,
      [(frameAddress wfrFrameTypeEnd 0, wfrCrc8 (ackText success ipStr))], Nat.le_refl _, ?_, htext, ?_⟩
    · have hend : ¬ AddressIs wfrFrameTypeStart (frameAddress wfrFrameTypeEnd 0) := by decide
      simpa using hend
    · rw [hwhole, List.take_length, passFrames]
  · exact .inl hnil
  · exact .inr ⟨ipStr, k, [], Nat.zero_le _, by simp, htext, by rw [hpart, List.append_nil]⟩

/-- No ACK, whole or cut short, makes a daemon act that hears it, whatever it has heard before. -/
theorem echo_ignored (scancode? : ε → Option (UInt8 × UInt8)) (ackFd txFd : ℤ) (success : Bool)
    (tr : Trace) (hsend : Prog.Run (sendAck txFd success) tr ()) (out : Bytes)
    (before echo : List Scancode) (hecho : echo.map pairOf = written tr)
    (reads : List (DeviceRead ε)) (hheard : heard scancode? reads = before ++ echo) :
    mainLoop (readScancode scancode?) ackFd reads.length reads wfrDecodeInit out = do
      forM (deliveries (feedAll wfrDecodeInit out before)) (handleCredentials ackFd)
      return stopped scancode? reads := by
  rw [mainLoop_eq scancode? ackFd holds_init out (Nat.le_refl _), hheard]
  rcases written_sendAck hsend with hnil | ⟨ipStr, k, last, hlast, hno, hlen, hw⟩
  · rw [hnil, List.map_eq_nil_iff] at hecho
    rw [hecho, List.append_nil]
  rw [hw, List.cons_append] at hecho
  obtain ⟨start, rest, rfl, hstart, hrest⟩ := List.map_eq_cons_iff.mp hecho
  obtain ⟨body, fin, rfl, hbody, hfin⟩ := List.map_eq_append_iff.mp hrest
  have haddr : start.address = frameAddress wfrFrameTypeStart 0 := congrArg Prod.fst hstart
  have hcmd : start.command = UInt8.ofNat (ackText success ipStr).length := congrArg Prod.snd hstart
  have hsize : start.command.toNat = (ackText success ipStr).length := by
    rw [hcmd, UInt8.toNat_ofNat_of_lt' (by simp only [UInt8.size]; omega)]
  have hpos := List.length_pos_iff.mpr (ackText_ne_nil success ipStr)
  have hdata (s : Scancode) (hs : s ∈ body) : AddressIs wfrFrameTypeData s.address := by
    have hmem := List.mem_map_of_mem (f := pairOf) hs
    rw [hbody] at hmem
    obtain ⟨b, -, hb⟩ := List.mem_map.mp hmem
    have hlabel : AddressIs wfrFrameTypeData (frameAddress wfrFrameTypeData 0) := by decide
    rwa [← show frameAddress wfrFrameTypeData 0 = s.address from congrArg Prod.fst hb]
  have hclosing (s : Scancode) (hs : s ∈ fin) : ¬ AddressIs wfrFrameTypeStart s.address :=
    hno (pairOf s) (hfin ▸ List.mem_map_of_mem hs)
  have hcount : fin.length ≤ 1 := by
    rw [← hfin, List.length_map] at hlast
    exact hlast
  have htext : body.map Scancode.command = (ackText success ipStr).take k := by
    have hsnd := congrArg (List.map Prod.snd) hbody
    rw [List.map_map, List.map_map] at hsnd
    simpa [Function.comp_def, pairOf] using hsnd
  obtain ⟨ps, hps, hcase⟩ := @deliveries_single out before start body fin (by rw [haddr]; decide)
    (fun h0 => by rw [h0] at hsize; simp at hsize; omega) hdata hclosing hcount
  have hquiet : forM ps (handleCredentials ackFd) = pure () := by
    rcases hcase with rfl | ⟨hfull, rfl⟩
    · rfl
    · rw [htext, hsize, List.take_take] at hfull ⊢
      have hall : (ackText success ipStr).length ≤ min (ackText success ipStr).length k := by
        rw [← hfull, List.length_take]
        omega
      rw [List.take_of_length_le hall, List.forM_cons, List.forM_nil,
        handleCredentials_foreign ackFd (ackText_foreign success ipStr)]
      rfl
  rw [← List.cons_append, hps, List.forM_append, hquiet, bind_pure_unit]

/-- A daemon hears its own FAIL. -/
private def agreeing : (c : Call) → c.Answer
  | .system _ => some 0
  | .popen _ => none
  | .sleep _ => ()
  | .delayMs _ => ()
  | .getaddrinfo _ _ => true
  | .writeFile _ _ => true
  | .unlink _ => true
  | .writeScancode _ _ => true

private def failTrace : Trace := (Prog.runWith (fun _ => agreeing) 0 (sendAck 3 false)).1

private def failEcho : List Scancode :=
  (written failTrace).map (fun f => ⟨wfrDecoderConfig.zero, f.1, f.2⟩)

private def echoReads : List (DeviceRead LircScancode) :=
  failEcho.map (fun s => ⟨some (rc6Scancode s.address s.command), s.now, true⟩)

theorem echo_ignored_fail :
    written failTrace = passFrames 0 (ascii "FAIL") ∧
    mainLoop (readScancode lircScancode) 3 echoReads.length echoReads wfrDecodeInit
        (List.replicate 256 0) = do
      forM (deliveries (feedAll wfrDecodeInit (List.replicate 256 0) [])) (handleCredentials 3)
      return stopped lircScancode echoReads :=
  ⟨by decide +kernel, echo_ignored lircScancode 3 3 false failTrace
    (Prog.run_runWith (fun _ => agreeing) (sendAck 3 false) 0) (List.replicate 256 0) [] failEcho
    (by decide +kernel) echoReads (by decide +kernel)⟩

/-! ## Garbled frames -/

/-- A read that comes through, or one of a frame in which an odd number of bits is flipped. -/
structure Garbled (r r' : DeviceRead InputEvent) : Prop where
  now : r'.now = r.now
  running : r'.running = r.running
  event : r'.event = r.event ∨ ∃ ev mask, r.event = some ev ∧ (∃ s, evdevScancode ev = some s) ∧
    Odd (flips mask) ∧ r'.event = some (ev.flip mask)

/-- A garbled frame is a lost frame. -/
theorem heard_garbled {reads reads' : List (DeviceRead InputEvent)}
    (h : List.Forall₂ Garbled reads reads') (hrun : ∀ r ∈ reads, r.running = true) :
    (heard evdevScancode reads').Sublist (heard evdevScancode reads) := by
  induction h with
  | nil => exact .refl _
  | @cons r r' reads reads' hr _ ih =>
    have hrest := ih fun q hq => hrun q (by simp [hq])
    have hon := hrun r (by simp)
    have hon' : r'.running = true := hr.running.trans hon
    rcases hr.event with hsame | ⟨ev, mask, hev, ⟨⟨address, command⟩, hsc⟩, hodd, hev'⟩
    · rw [heard, heard, hsame, hr.now]
      cases r.event with
      | none => simpa [hon, hon'] using hrest
      | some ev =>
        cases hsc : evdevScancode ev with
        | none => simpa [hsc] using hrest
        | some s => simpa [hsc, hon, hon'] using hrest
    · have hflip := evdevScancode_flip hsc mask
      rw [if_neg fun hm => Nat.not_even_iff_odd.mpr hodd (even_flips hm)] at hflip
      simp only [heard, hev, hev', hsc, hflip, hon, if_true]
      exact hrest.cons _

/-- Of the frames of one pass, any of which may be lost, an idle decoder makes nothing or the
payload. -/
theorem deliveries_of_sublist (out : Bytes) {p : Bytes} (hp : 1 ≤ p.length) (hp255 : p.length ≤ 255)
    {ss : List Scancode} (hsub : (ss.map pairOf).Sublist (passFrames 0 p)) :
    deliveries (feedAll wfrDecodeInit out ss) = [] ∨ deliveries (feedAll wfrDecodeInit out ss) = [p] := by
  obtain ⟨-, -, hreports⟩ := feedAll_refines out holds_init ss
  have hframes := hsub.map (fun f => frameOf f.1 f.2)
  rw [frameOf_passFrames (by decide) hp255, List.map_map] at hframes
  rw [deliveries_eq_messages hreports]
  apply messages_of_sublist (policy out.length) (List.length_pos_iff.mp hp) (c := wfrCrc8 p)
  rw [List.map_map]
  exact hframes

/-- Flipped bits, an odd number of them in any frames, never change what a send delivers: the daemon
handles its payload or nothing. -/
theorem garbled_kept (ackFd : ℤ) (out : Bytes) (p : Bytes) (hp : 1 ≤ p.length)
    (hp255 : p.length ≤ 255) (reads reads' : List (DeviceRead InputEvent))
    (hsent : (heard evdevScancode reads).map pairOf = passFrames 0 p)
    (hrun : ∀ r ∈ reads, r.running = true) (hgarbled : List.Forall₂ Garbled reads reads') :
    ∃ ps, (ps = [] ∨ ps = [p]) ∧
      mainLoop (readScancode evdevScancode) ackFd reads'.length reads' wfrDecodeInit out = do
        forM ps (handleCredentials ackFd)
        return stopped evdevScancode reads' := by
  have hsub := (heard_garbled hgarbled hrun).map pairOf
  rw [hsent] at hsub
  exact ⟨_, deliveries_of_sublist out hp hp255 hsub,
    mainLoop_eq evdevScancode ackFd holds_init out (Nat.le_refl _)⟩

/-- The frames of one byte, the second with a flipped bit. -/
private def frameRead (address command : UInt8) (mask : UInt32) : DeviceRead InputEvent :=
  ⟨some (InputEvent.flip ⟨evMsc, mscRaw, (fab4Frame address command).toInt32⟩ mask),
    wfrDecoderConfig.zero, true⟩

private def byteReads (mask : UInt32) : List (DeviceRead InputEvent) :=
  [frameRead 0xA0 1 0, frameRead 0xA4 0x57 mask, frameRead 0xA8 (wfrCrc8 [0x57]) 0]

private theorem garbled_frameRead (address command : UInt8) (mask : UInt32)
    (hodd : Odd (flips mask)) : Garbled (frameRead address command 0) (frameRead address command mask) := by
  have hzero : InputEvent.flip ⟨evMsc, mscRaw, (fab4Frame address command).toInt32⟩ 0 =
      ⟨evMsc, mscRaw, (fab4Frame address command).toInt32⟩ := by
    simp [InputEvent.flip]
  have hsc : evdevScancode ⟨evMsc, mscRaw, (fab4Frame address command).toInt32⟩ =
      some (address, command) := evdevScancode_eq_some_iff.mpr ⟨rfl, rfl, rfl⟩
  exact ⟨rfl, rfl, .inr ⟨_, mask, congrArg some hzero, ⟨_, hsc⟩, hodd, rfl⟩⟩

theorem garbled_kept_byte :
    ∃ ps, (ps = [] ∨ ps = [[0x57]]) ∧
      mainLoop (readScancode evdevScancode) 3 (byteReads 0x00010000).length (byteReads 0x00010000)
          wfrDecodeInit (List.replicate 256 0) = do
        forM ps (handleCredentials 3)
        return stopped evdevScancode (byteReads 0x00010000) :=
  garbled_kept 3 _ [0x57] (by decide) (by decide) (byteReads 0) (byteReads 0x00010000)
    (by decide +kernel) (by simp [byteReads, frameRead])
    (.cons ⟨rfl, rfl, .inl rfl⟩ (.cons (garbled_frameRead _ _ _ (by decide +kernel))
      (.cons ⟨rfl, rfl, .inl rfl⟩ .nil)))

end InfraFi.System
