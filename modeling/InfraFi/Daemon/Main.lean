import InfraFi.Daemon.Ack
import InfraFi.Daemon.Network

/-! # Handling a received payload -/
namespace InfraFi.Daemon
open Base Protocol

/-- The lookup of `send_ack` and its buffer `ip[32]`, which starts out empty. -/
def lookupIp (success : Bool) : Cmd (Bool × Bytes) :=
  if success then wfrNetGetIp [] 32 else return (false, [])

/-- The result of the lookup is not looked at, only the text in its buffer. -/
def sendIp (ackFd : ℤ) (success : Bool) (lookup : Bool × Bytes) : Cmd Unit := do
  call (.sleep 1)
  let _ ← wfrAckSend ackFd success (if lookup.2 ≠ [] then some lookup.2 else none)

def sendAck (ackFd : ℤ) (success : Bool) : Cmd Unit := do
  if ackFd < 0 then return
  sendIp ackFd success (← lookupIp success)

/-- What is done with the outcome of the connection attempt. -/
def reportOutcome (ackFd : ℤ) (prevSsid : Bytes) (connected : Bool) : Cmd Unit := do
  if connected then sendAck ackFd true
  else
    sendAck ackFd false
    if prevSsid ≠ [] then
      let _ ← wfrNetRollback prevSsid

def handleCredentials (ackFd : ℤ) (payload : Bytes) : Cmd Unit := do
  match wfrParseWifiString (cstr payload) with
  | none => return
  | some creds =>
    let prevSsid ← wfrNetGetCurrent (wfrSsidMaxLen + 1)
    let connected ← wfrNetConnect creds
    reportOutcome ackFd (prevSsid.getD []) connected

end InfraFi.Daemon
