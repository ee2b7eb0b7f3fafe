import InfraFi.Daemon.Main
import InfraFi.Daemon.Receivers

/-! # The main program of the daemon

The loop reads scancodes, feeds the decoder and hands every payload over. The
reads that the device gives are an argument, so every list of them is a run so
far; the loop is waiting for the device when they are used up.
-/
namespace InfraFi.Daemon
open Base Protocol

variable {ε : Type}

/-- The first iterations of the loop, and whether the loop has ended within them. -/
def mainLoop (receive : List (DeviceRead ε) → Answer ε) (ackFd : ℤ) :
    ℕ → List (DeviceRead ε) → WfrDecoder → Bytes → Cmd Bool
  | 0, _, _, _ => return false
  | n + 1, reads, dec, payload =>
    match receive reads with
    | .blocks => return false
    | .failed r rest =>
      if r.running then mainLoop receive ackFd n rest dec payload else return true
    | .scancode address command r rest => do
      let fed := wfrDecodeFeedScancode r.now dec address command payload
      if fed.result > 0 then handleCredentials ackFd fed.out
      if r.running then mainLoop receive ackFd n rest fed.dec fed.out else return true

/-! ## Options -/

/-- What `getopt_long` returns. -/
inductive Opt where
  | device (path : Bytes)
  | evdev (path : Bytes)
  | ackDevice (path : Bytes)
  | foreground
  | verbose
  | version
  | help
  | unknown
deriving DecidableEq

structure Options where
  device : Bytes
  evdevDevice : Option Bytes
  ackDevice : Option Bytes
deriving DecidableEq

def defaultOptions : Options := ⟨ascii "/dev/lirc0", none, none⟩

/-- An error is the exit status of a program that goes no further. -/
def readOptions : Options → List Opt → Except ℕ Options
  | o, [] => .ok o
  | o, .device path :: opts => readOptions { o with device := path } opts
  | o, .evdev path :: opts => readOptions { o with evdevDevice := some path } opts
  | o, .ackDevice path :: opts => readOptions { o with ackDevice := some path } opts
  | o, .foreground :: opts => readOptions o opts
  | o, .verbose :: opts => readOptions o opts
  | _, .version :: _ => .error 0
  | _, .help :: _ => .error 0
  | _, .unknown :: _ => .error 1

/-! ## The program -/

/-- What opening a device comes to: its reads, or for the ACK its descriptor. -/
structure Devices where
  evdev : Bytes → Option (List (DeviceRead InputEvent))
  lirc : Bytes → Option (List (DeviceRead LircScancode))
  ack : Bytes → ℤ

/-- The loop on an open device; `payload` is the buffer of the main program. -/
def runLoop (receive : List (DeviceRead ε) → Answer ε) (ackFd : ℤ) (reads : List (DeviceRead ε))
    (payload : Bytes) : Cmd (Option ℕ) := do
  if ← mainLoop receive ackFd reads.length reads wfrDecodeInit payload then return some 0
  else return none

/-- The exit status, or none while the program is still reading. -/
def main (devices : Devices) (opts : List Opt) (payload : Bytes) : Cmd (Option ℕ) :=
  match readOptions defaultOptions opts with
  | .error status => return some status
  | .ok o =>
    let ackFd := devices.ack (o.ackDevice.getD o.device)
    match o.evdevDevice with
    | some path =>
      match devices.evdev path with
      | none => return some 1
      | some reads => runLoop wfrEvdevReadScancode ackFd reads payload
    | none =>
      match devices.lirc o.device with
      | none => return some 1
      | some reads => runLoop wfrLircReadScancode ackFd reads payload

/-! ## What is heard -/

/-- The scancodes that the loop feeds to its decoder. -/
def heard (scancode? : ε → Option (UInt8 × UInt8)) : List (DeviceRead ε) → List Scancode
  | [] => []
  | r :: rest =>
    match r.event with
    | none => if r.running then heard scancode? rest else []
    | some ev =>
      match scancode? ev with
      | none => heard scancode? rest
      | some (address, command) =>
        ⟨r.now, address, command⟩ :: if r.running then heard scancode? rest else []

/-- Whether a signal ends the loop. -/
def stopped (scancode? : ε → Option (UInt8 × UInt8)) : List (DeviceRead ε) → Bool
  | [] => false
  | r :: rest =>
    match r.event with
    | none => if r.running then stopped scancode? rest else true
    | some ev =>
      match scancode? ev with
      | none => stopped scancode? rest
      | some _ => if r.running then stopped scancode? rest else true

/-- What is heard before a reader comes back, and what is left for the next call. -/
theorem heard_of_readScancode (scancode? : ε → Option (UInt8 × UInt8)) (reads : List (DeviceRead ε)) :
    (readScancode scancode? reads = .blocks →
      heard scancode? reads = [] ∧ stopped scancode? reads = false) ∧
    (∀ r rest, readScancode scancode? reads = .failed r rest → rest.length < reads.length ∧
      heard scancode? reads = (if r.running then heard scancode? rest else []) ∧
      stopped scancode? reads = if r.running then stopped scancode? rest else true) ∧
    ∀ address command r rest, readScancode scancode? reads = .scancode address command r rest →
      rest.length < reads.length ∧
      heard scancode? reads =
        ⟨r.now, address, command⟩ :: (if r.running then heard scancode? rest else []) ∧
      stopped scancode? reads = if r.running then stopped scancode? rest else true := by
  induction reads with
  | nil =>
    refine ⟨fun _ => ⟨rfl, rfl⟩, ?_, ?_⟩
    · intro r rest h
      cases h
    · intro address command r rest h
      cases h
  | cons q reads ih =>
    cases hev : q.event with
    | none =>
      simp only [readScancode, heard, stopped, hev]
      refine ⟨fun h => (by cases h), ?_, fun _ _ _ _ h => (by cases h)⟩
      rintro r rest h
      cases h
      exact ⟨Nat.lt_succ_self _, rfl, rfl⟩
    | some ev =>
      cases hsc : scancode? ev with
      | none =>
        simp only [readScancode, heard, stopped, hev, hsc]
        refine ⟨ih.1, fun r rest h => ?_, fun address command r rest h => ?_⟩
        · exact ⟨Nat.lt_succ_of_lt (ih.2.1 r rest h).1, (ih.2.1 r rest h).2⟩
        · have hnext := ih.2.2 address command r rest h
          exact ⟨Nat.lt_succ_of_lt hnext.1, hnext.2⟩
      | some s =>
        simp only [readScancode, heard, stopped, hev, hsc]
        refine ⟨fun h => (by cases h), fun _ _ h => (by cases h), ?_⟩
        rintro address command r rest h
        cases h
        exact ⟨Nat.lt_succ_self _, rfl, rfl⟩

end InfraFi.Daemon
