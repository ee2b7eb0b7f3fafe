import InfraFi.Base.CString

/-! # Frames and credentials shared by the Flipper and the daemon

One infrared message carries an address byte (magic, frame type, pass) and a
command byte. A transmission is START with the payload length, one DATA
message per payload byte and END with the CRC-8 of the payload.
-/
namespace InfraFi.Protocol
open Base

/-- IR transport protocol selection. -/
inductive WfrIrProtocol where
  | rc6
  | nec
deriving DecidableEq

def wfrFrameMagic : UInt8 := 0xA0
def wfrFrameMagicMask : UInt8 := 0xF0
def wfrFrameTypeMask : UInt8 := 0x0C
def wfrFramePassMask : UInt8 := 0x03

def wfrFrameTypeStart : UInt8 := 0x00
def wfrFrameTypeData : UInt8 := 0x04
def wfrFrameTypeEnd : UInt8 := 0x08

/-- Reserved for ACK responses; neither side sends it. -/
def wfrFrameTypeAck : UInt8 := 0x0C

def wfrRc6InterMsgMs : ℕ := 20
def wfrRc6RetransmitGapMs : ℕ := 200
def wfrRetransmitCount : ℕ := 1
def wfrNecInterMsgMs : ℕ := 50
def wfrNecRetransmitGapMs : ℕ := 200

/-- How long the Flipper waits for a response, in seconds. -/
def wfrAckTimeoutSec : ℕ := 30

def wfrAckPrefixOk : Bytes := ascii "OK:"
def wfrAckPrefixFail : Bytes := ascii "FAIL"

def wfrMaxTotalPayload : ℕ := 255
abbrev wfrSsidMaxLen : ℕ := 32
abbrev wfrPassMaxLen : ℕ := 63

def wfrSecOpen : UInt8 := 0
def wfrSecWpa : UInt8 := 1
def wfrSecWep : UInt8 := 2
def wfrSecSae : UInt8 := 3

/-- The four security types the protocol names. -/
def IsWfrSec (security : UInt8) : Prop :=
  security = wfrSecOpen ∨ security = wfrSecWpa ∨ security = wfrSecWep ∨ security = wfrSecSae

instance (security : UInt8) : Decidable (IsWfrSec security) :=
  inferInstanceAs (Decidable (_ ∨ _))

structure WfrWifiCreds where
  ssid : CString wfrSsidMaxLen
  password : CString wfrPassMaxLen
  security : UInt8
  hidden : Bool
deriving DecidableEq

/-- `memset(creds, 0, sizeof(WfrWifiCreds))`. -/
def clearedCreds : WfrWifiCreds := ⟨.empty _, .empty _, 0, false⟩

end InfraFi.Protocol
