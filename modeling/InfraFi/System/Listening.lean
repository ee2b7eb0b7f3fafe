import InfraFi.Daemon.MainLoop
import InfraFi.System.Sends

/-! # What the main loop does with what it hears

A run of the daemon is the handling of the payloads that its decoder delivers,
one after the other, and nothing else. This holds of the programs themselves,
so it holds for all answers of the system.
-/
namespace InfraFi.System
open Base Protocol Reassembly Daemon Flipper

variable {ε : Type} {scancode? : ε → Option (UInt8 × UInt8)}

theorem handleCredentials_congr (ackFd : ℤ) {p q : Bytes} (h : cstr p = cstr q) :
    handleCredentials ackFd p = handleCredentials ackFd q := by
  rw [handleCredentials, h, ← handleCredentials]

/-- Only the delivered bytes of the buffer are looked at. -/
theorem handleCredentials_delivered (ackFd : ℤ) {r : Fed} {p : Bytes} (h : r.Reports (.delivered p)) :
    handleCredentials ackFd r.out = handleCredentials ackFd p := by
  obtain ⟨-, -, -, hout, hnul⟩ := h
  apply handleCredentials_congr
  rw [← hout, cstr_take hnul]

theorem deliveries_append (fs gs : List Fed) : deliveries (fs ++ gs) = deliveries fs ++ deliveries gs :=
  List.filterMap_append

/-- One call of the decoder and what the loop does with its result. -/
theorem handle_fed {α : Type} (ackFd : ℤ) {r : Fed} {o : Outcome UInt8} (h : r.Reports o)
    (next : Unit → Cmd α) :
    (if r.result > 0 then handleCredentials ackFd r.out >>= next else next ()) =
      forM (deliveries [r]) (handleCredentials ackFd) >>= next := by
  rw [deliveries, List.filterMap_cons]
  by_cases hpos : 0 < r.result
  · obtain ⟨p, rfl⟩ := h.delivered hpos
    have hp : r.out.take r.result.toNat = p := by
      obtain ⟨hres, -, -, hout, -⟩ := h
      rw [hres, Int.toNat_natCast, hout]
    have hone : forM [p] (handleCredentials ackFd) = handleCredentials ackFd p := by
      rw [List.forM_cons, List.forM_nil, bind_pure_unit]
    rw [if_pos hpos, if_pos hpos, handleCredentials_delivered ackFd h, hp]
    exact congrArg (· >>= next) hone.symm
  · rw [if_neg hpos, if_neg hpos]
    rfl

/-- The loop of the main program is the handling of what the decoder delivers. -/
theorem mainLoop_eq (scancode? : ε → Option (UInt8 × UInt8)) (ackFd : ℤ) {dec : WfrDecoder}
    {σ : Option (Session Timespec UInt8)} (h : Holds dec σ) (out : Bytes) {n : ℕ}
    {reads : List (DeviceRead ε)} (hn : reads.length ≤ n) :
    mainLoop (readScancode scancode?) ackFd n reads dec out = do
      forM (deliveries (feedAll dec out (heard scancode? reads))) (handleCredentials ackFd)
      return stopped scancode? reads := by
  induction n generalizing dec σ out reads with
  | zero =>
    obtain rfl : reads = [] := List.length_eq_zero_iff.mp (Nat.le_zero.mp hn)
    rfl
  | succ n ih =>
    obtain ⟨hblocks, hfailed, hgets⟩ := heard_of_readScancode scancode? reads
    cases hread : readScancode scancode? reads with
    | blocks =>
      obtain ⟨hnone, hon⟩ := hblocks hread
      rw [hnone, hon, mainLoop, hread]
      rfl
    | failed r rest =>
      obtain ⟨hlt, hsame, hon⟩ := hfailed r rest hread
      rw [hsame, hon, mainLoop, hread]
      simp only
      split
      · exact ih h out (by omega)
      · rfl
    | scancode address command r rest =>
      obtain ⟨hlt, hsame, hon⟩ := hgets address command r rest hread
      obtain ⟨hrep, hres, -⟩ := decodeFeed_refines wfrDecoderConfig r.now address command out h
      have hfed : FeedResult.Reports (wfrDecodeFeedScancode r.now dec address command out) _ := hres
      have hcons (ss : List Scancode) :
          deliveries (feedAll dec out (⟨r.now, address, command⟩ :: ss)) =
            deliveries [wfrDecodeFeedScancode r.now dec address command out] ++
              deliveries (feedAll _ _ ss) := deliveries_append [_] _
      rw [hsame, hon, mainLoop, hread]
      refine (handle_fed ackFd hfed _).trans ?_
      rw [hcons, List.forM_append, bind_assoc]
      congr 1
      funext _
      split
      · exact ih hrep _ (by omega)
      · rfl

/-! ## The whole program -/

/-- What a started program works with. -/
structure Listening where
  ackFd : ℤ
  scancodes : List Scancode
  stopped : Bool

/-- What it has on a device, if that can be opened. -/
def listeningOn (scancode? : ε → Option (UInt8 × UInt8)) (ackFd : ℤ) :
    Option (List (DeviceRead ε)) → Except ℕ Listening
  | none => .error 1
  | some reads => .ok ⟨ackFd, heard scancode? reads, stopped scancode? reads⟩

def listening (devices : Devices) (opts : List Opt) : Except ℕ Listening :=
  match readOptions defaultOptions opts with
  | .error status => .error status
  | .ok o =>
    let ackFd := devices.ack (o.ackDevice.getD o.device)
    match o.evdevDevice with
    | some path => listeningOn evdevScancode ackFd (devices.evdev path)
    | none => listeningOn lircScancode ackFd (devices.lirc o.device)

/-- What a daemon is for: the payloads in the scancodes it hears are handled one after the other. -/
def handleHeard (payload : Bytes) : Except ℕ Listening → Cmd (Option ℕ)
  | .error status => return some status
  | .ok l => do
    forM (deliveries (feedAll wfrDecodeInit payload l.scancodes)) (handleCredentials l.ackFd)
    return if l.stopped then some 0 else none

theorem runLoop_eq (scancode? : ε → Option (UInt8 × UInt8)) (ackFd : ℤ)
    (reads : List (DeviceRead ε)) (payload : Bytes) :
    runLoop (readScancode scancode?) ackFd reads payload =
      handleHeard payload (listeningOn scancode? ackFd (some reads)) := by
  rw [runLoop, mainLoop_eq scancode? ackFd holds_init payload (Nat.le_refl _), bind_assoc,
    listeningOn, handleHeard]
  congr 1
  funext _
  cases stopped scancode? reads <;> rfl

/-- Whatever the options, the devices and the answers of the system: the program is the handling of
the payloads that the decoder delivers from the accepted scancodes, or exits before it listens. -/
theorem main_handles (devices : Devices) (opts : List Opt) (payload : Bytes) :
    main devices opts payload = handleHeard payload (listening devices opts) := by
  unfold main listening
  cases readOptions defaultOptions opts with
  | error status => rfl
  | ok o =>
    cases hev : o.evdevDevice with
    | some path =>
      simp only [hev]
      cases devices.evdev path with
      | none => rfl
      | some reads => exact runLoop_eq evdevScancode _ reads payload
    | none =>
      simp only [hev]
      cases devices.lirc o.device with
      | none => rfl
      | some reads => exact runLoop_eq lircScancode _ reads payload

/-! ## Credentials over the air -/

/-- What the daemon does for credentials, however it got them. -/
def serve (ackFd : ℤ) (creds : WfrWifiCreds) : Cmd Unit := do
  let prevSsid ← wfrNetGetCurrent (wfrSsidMaxLen + 1)
  let connected ← wfrNetConnect creds
  reportOutcome ackFd (prevSsid.getD []) connected

/-- The string of credentials does for them what handing them over would do. -/
theorem handleCredentials_wifiString (ackFd : ℤ) {creds : WfrWifiCreds}
    (hssid : creds.ssid.bytes ≠ []) (hsec : IsWfrSec creds.security) :
    handleCredentials ackFd (fullWifiString creds) = serve ackFd creds := by
  rw [handleCredentials, cstr_of_notMem (zero_notMem_fullWifiString creds),
    wfrParseWifiString_fullWifiString creds hssid hsec]
  rfl

theorem Send.completed_iff (s : Send) : s.completed = true ↔ Uncancelled s.creds s.progress := by
  rcases wfrTransmitCredentials_cases s.creds s.protocol s.progress s.wifiStr with
    ⟨hcancel, hsent | ⟨k, hsent⟩⟩ | ⟨hkeep, hsent⟩
  · simp [(Send.transmit_ok hsent).2, hcancel]
  · simp [(Send.transmit_ok hsent).2, hcancel]
  · simp [(Send.transmit_ok hsent).2, hkeep]

theorem forM_completedStrings (ackFd : ℤ) {sends : List Send}
    (hsec : ∀ s ∈ sends, IsWfrSec s.creds.security) :
    forM (completedStrings sends) (handleCredentials ackFd) =
      forM ((sends.filter Send.completed).map Send.creds) (serve ackFd) := by
  induction sends with
  | nil => rfl
  | cons s sends ih =>
    have hrest := ih fun t ht => hsec t (by simp [ht])
    rw [completedStrings] at hrest ⊢
    rw [List.filter_cons]
    split
    · rename_i hdone
      have hssid := ((s.completed_iff).mp hdone).1
      rw [List.map_cons, List.map_cons, List.forM_cons, List.forM_cons, hrest, s.wifiString_eq,
        handleCredentials_wifiString ackFd hssid (hsec s (by simp))]
    · exact hrest

theorem timely_of_completed {sends : List Send} (hdone : ∀ s ∈ sends, s.completed = true) :
    Timely none sends := by
  induction sends with
  | nil => trivial
  | cons s sends ih =>
    have hrest := ih fun t ht => hdone t (by simp [ht])
    cases harr : s.arrivals with
    | nil =>
      rw [Timely, harr]
      exact hrest
    | cons start rest =>
      have hfresh : ¬ Stale none start := by simp [Stale]
      rw [timely_cons harr, if_neg hfresh, if_pos (s.completed_iff.mp (hdone s (by simp)))]
      exact hrest

/-- An open network is sent, from the given second on. -/
@[irreducible] private def openSend (sec : ℕ) : Send :=
  let s : Send := {
    creds := { ssid := CString.ofBytes wfrSsidMaxLen (ascii "A"),
               password := CString.empty wfrPassMaxLen, security := wfrSecOpen, hidden := false },
    protocol := .nec, progress := none, wifiStr := Vector.replicate _ 0, arrivals := [] }
  { s with arrivals := s.messages.zipIdx.map (fun m =>
      ⟨⟨sec + m.2 / 10, m.2 % 10 * 100000000, by omega⟩, m.1.address, m.1.command⟩) }

/-- Every frame is followed by an event of another type. -/
private def evdevReads : List (DeviceRead InputEvent) :=
  (openSend 0).arrivals.flatMap (fun s => [⟨some ⟨evMsc, mscRaw,
    (fab4Frame s.address s.command).toInt32⟩, s.now, true⟩, ⟨some ⟨0, 0, 0⟩, s.now, true⟩])

/-- A completed send leaves no session behind, so only the first one can meet an old one. -/
theorem run_completed {n : ℕ} (hn : 219 < n) {sends : List Send} (h : ∀ s ∈ sends, s.Received)
    (hdone : ∀ s ∈ sends, s.completed = true) (σ : Option (Session Timespec UInt8)) :
    ∃ lost ≤ 1, Reassembly.messages
      (run (policy n) σ ((sends.flatMap Send.arrivals).map Scancode.frame)).2 =
        completedStrings (sends.drop lost) := by
  cases sends with
  | nil => exact ⟨0, Nat.zero_le 1, rfl⟩
  | cons s sends =>
    have hkeep := s.completed_iff.mp (hdone s (by simp))
    have hstrings : completedStrings (s :: sends) = s.wifiString :: completedStrings sends := by
      rw [completedStrings, List.filter_cons, if_pos (hdone s (by simp))]
      rfl
    have hrest := (run_sends hn sends (fun t ht => h t (by simp [ht])) none).2.mpr
      (timely_of_completed fun t ht => hdone t (by simp [ht]))
    rw [List.flatMap_cons, List.map_append, run_append, messages_append]
    rcases (run_send hn (h s (by simp)) σ).2 with ⟨-, hnot⟩ | ⟨start, rest, -, hstale, hfresh⟩
    · exact absurd (hdone s (by simp)) (by simp [hnot])
    · by_cases hs : Stale (σ.map Session.opened) start
      · obtain ⟨hidle, hnone⟩ := hstale hs
        refine ⟨1, Nat.le_refl 1, ?_⟩
        rw [hidle, hnone, hrest]
        rfl
      · obtain ⟨hclosed, hgot⟩ := hfresh hs
        rw [if_pos hkeep, Option.map_eq_none_iff] at hclosed
        refine ⟨0, Nat.zero_le 1, ?_⟩
        rw [hclosed, hgot, if_pos (hdone s (by simp)), hrest, List.drop_zero, hstrings]
        rfl

/-- A START that nothing follows, and two sends later on. -/
private def lonelyStart : Scancode := ⟨wfrDecoderConfig.zero, frameAddress wfrFrameTypeStart 0, 9⟩

private def lircReads : List (DeviceRead LircScancode) :=
  (lonelyStart :: [openSend 40, openSend 60].flatMap Send.arrivals).map (fun s =>
    ⟨some (rc6Scancode s.address s.command), s.now, true⟩)

end InfraFi.System
