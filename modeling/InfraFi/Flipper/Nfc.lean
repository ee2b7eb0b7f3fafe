import InfraFi.Base.Loop
import InfraFi.Protocol.Defs
import Mathlib.Algebra.Group.Nat.Defs

/-! # WiFi credentials on an NFC tag

The parser of the raw pages of a Type 2 tag: TLV blocks, NDEF records in an
NDEF message, WSC attributes in a record. A pointer into the tag is an offset;
`size_t` has 32 bits. `fuel` bounds the passes of every loop and the depth of
the recursion.
-/
namespace InfraFi.Flipper.Nfc
open Base Protocol

def wscAttrCredential : ℕ := 0x100E
def wscAttrSsid : ℕ := 0x1045
def wscAttrAuthType : ℕ := 0x1003
def wscAttrNetKey : ℕ := 0x1027

def wscAuthOpen : ℕ := 0x0001
def wscAuthShared : ℕ := 0x0004

def ndefTlvNull : UInt8 := 0x00
def ndefTlvNdefMsg : UInt8 := 0x03
def ndefTlvTerminator : UInt8 := 0xFE

def ndefTnfMediaType : UInt8 := 0x02

def ndefCcMagic : UInt8 := 0xE1

def wifiNdefType : Bytes := ascii "application/vnd.wfa.wsc"
abbrev wifiNdefTypeLen : ℕ := 23

/-- The value that a `size_t` computation leaves. -/
def sizeT (n : ℕ) : ℕ := n % 2 ^ 32

/-- `pages_read` pages of four bytes each. -/
structure TagImage where
  pagesRead : UInt16
  bytes : Bytes
  length_eq : bytes.length = 4 * pagesRead.toNat

def be16 (hi lo : UInt8) : ℕ := hi.toNat * 2 ^ 8 + lo.toNat

def be32 (b₃ b₂ b₁ b₀ : UInt8) : ℕ := be16 b₃ b₂ * 2 ^ 16 + be16 b₁ b₀

def load16 (tag : Bytes) (i : ℕ) : Exec ℕ := do
  return be16 (← load tag i) (← load tag (i + 1))

def load32 (tag : Bytes) (i : ℕ) : Exec ℕ := do
  return be32 (← load tag i) (← load tag (i + 1)) (← load tag (i + 2)) (← load tag (i + 3))

/-! ## WSC attributes -/

/-- What `parse_wsc_attributes` changes through its pointers. -/
structure WscOut where
  creds : WfrWifiCreds
  foundSsid : Bool

/-- The value of one attribute, `attr_len` bytes from `value` on. -/
def wscAttribute (tag : Bytes) (recurse : ℕ → ℕ → WscOut → Exec WscOut) (attrId attrLen value : ℕ)
    (out : WscOut) : Exec WscOut :=
  if attrId = wscAttrCredential then recurse value attrLen out
  else if attrId = wscAttrSsid then
    if 0 < attrLen ∧ attrLen ≤ wfrSsidMaxLen then do
      let ssid ← loadBytes tag value attrLen
      return ⟨{ out.creds with ssid := .ofBytes _ ssid }, true⟩
    else return out
  else if attrId = wscAttrAuthType then
    if attrLen = 2 then do
      let auth ← load16 tag value
      let security :=
        if auth = wscAuthOpen then wfrSecOpen
        else if auth = wscAuthShared then wfrSecWep
        else wfrSecWpa
      return ⟨{ out.creds with security := security }, out.foundSsid⟩
    else return out
  else if attrId = wscAttrNetKey then
    if 0 < attrLen ∧ attrLen ≤ wfrPassMaxLen then do
      let password ← loadBytes tag value attrLen
      return ⟨{ out.creds with password := .ofBytes _ password }, out.foundSsid⟩
    else return out
  else return out

/-- One pass of the attribute loop at position `pos` of the `len` bytes from `data` on. -/
def wscPass (tag : Bytes) (recurse : ℕ → ℕ → WscOut → Exec WscOut) (data len : ℕ) :
    ℕ × WscOut → Exec (Pass (ℕ × WscOut) WscOut)
  | (pos, out) =>
    if sizeT (pos + 4) ≤ len then do
      let attrId ← load16 tag (data + pos)
      let attrLen ← load16 tag (data + (pos + 2))
      let pos := sizeT (pos + 4)
      if sizeT (pos + attrLen) > len then return .done out
      let out ← wscAttribute tag recurse attrId attrLen (data + pos) out
      return .next (sizeT (pos + attrLen), out)
    else return .done out

/-- A Credential attribute is a container: its value is parsed by the same function. -/
def parseWscAttributes (tag : Bytes) : ℕ → ℕ → ℕ → WscOut → Exec WscOut
  | 0, _, _, _ => .error .fuel
  | fuel + 1, data, len, out =>
    loop (wscPass tag (parseWscAttributes tag fuel) data len) (fuel + 1) (0, out)

/-! ## NDEF records -/

def tnf (flags : UInt8) : UInt8 := flags &&& 0x07
def srFlag (flags : UInt8) : Prop := (flags >>> 4) &&& 1 = 1
def ilFlag (flags : UInt8) : Prop := (flags >>> 3) &&& 1 = 1
def meFlag (flags : UInt8) : Prop := (flags >>> 6) &&& 1 = 1

instance srFlag.decidable (flags : UInt8) : Decidable (srFlag flags) :=
  inferInstanceAs (Decidable (_ = _))

instance ilFlag.decidable (flags : UInt8) : Decidable (ilFlag flags) :=
  inferInstanceAs (Decidable (_ = _))

instance meFlag.decidable (flags : UInt8) : Decidable (meFlag flags) :=
  inferInstanceAs (Decidable (_ = _))

section Record
variable (fuel : ℕ) (tag : Bytes) (data len : ℕ) (creds : WfrWifiCreds)

/-- The type field at `pos`, then the payload behind the type and the ID. -/
def recordType (typeLen payloadLen idLen pos : ℕ) : Exec (Bool × WfrWifiCreds) := do
  if sizeT (pos + typeLen) > len then return (false, creds)
  if typeLen ≠ wifiNdefTypeLen then return (false, creds)
  if (← loadBytes tag (data + pos) typeLen) ≠ wifiNdefType then return (false, creds)
  let pos := sizeT (sizeT (pos + typeLen) + idLen)
  if sizeT (pos + payloadLen) > len then return (false, creds)
  let out ← parseWscAttributes tag fuel (data + pos) payloadLen ⟨clearedCreds, false⟩
  return (out.foundSsid, out.creds)

/-- The ID length at `pos`, if the record has one. -/
def recordId (flags : UInt8) (typeLen payloadLen pos : ℕ) : Exec (Bool × WfrWifiCreds) := do
  if ilFlag flags then
    if pos ≥ len then return (false, creds)
    let idLen ← load tag (data + pos)
    recordType fuel tag data len creds typeLen payloadLen idLen.toNat (sizeT (pos + 1))
  else recordType fuel tag data len creds typeLen payloadLen 0 pos

/-- The result, and the credentials, which only a media-type record of the right type changes. -/
def parseNdefRecord : Exec (Bool × WfrWifiCreds) := do
  if len < 3 then return (false, creds)
  let flags ← load tag data
  if tnf flags ≠ ndefTnfMediaType then return (false, creds)
  let typeLen ← load tag (data + 1)
  if srFlag flags then
    if 2 ≥ len then return (false, creds)
    let payloadLen ← load tag (data + 2)
    recordId fuel tag data len creds flags typeLen.toNat payloadLen.toNat 3
  else
    if sizeT (2 + 4) > len then return (false, creds)
    let payloadLen ← load32 tag (data + 2)
    recordId fuel tag data len creds flags typeLen.toNat payloadLen 6

end Record

/-! ## NDEF messages -/

section Message
variable (fuel : ℕ) (tag : Bytes) (data len : ℕ)

/-- The record at `pos`, once its header is known. -/
def ndefRecordAt (flags : UInt8) (hdrSize typeLen idLen payloadLen : ℕ) :
    ℕ × WfrWifiCreds → Exec (Pass (ℕ × WfrWifiCreds) (Bool × WfrWifiCreds))
  | (pos, creds) => do
    let recordTotal := sizeT (hdrSize + typeLen + idLen + payloadLen)
    if sizeT (pos + recordTotal) > len then return .done (false, creds)
    let (found, creds) ← parseNdefRecord fuel tag (data + pos) recordTotal creds
    if found then return .done (true, creds)
    if meFlag flags then return .done (false, creds)
    return .next (sizeT (pos + recordTotal), creds)

/-- The ID length of the record at `pos`, which comes after `hdrSize` bytes. -/
def ndefIdAt (flags : UInt8) (hdrSize typeLen payloadLen : ℕ) :
    ℕ × WfrWifiCreds → Exec (Pass (ℕ × WfrWifiCreds) (Bool × WfrWifiCreds))
  | (pos, creds) => do
    if ilFlag flags then
      if sizeT (pos + hdrSize) ≥ len then return .done (false, creds)
      let idLen ← load tag (data + (pos + hdrSize))
      ndefRecordAt fuel tag data len flags (sizeT (hdrSize + 1)) typeLen idLen.toNat payloadLen
        (pos, creds)
    else ndefRecordAt fuel tag data len flags hdrSize typeLen 0 payloadLen (pos, creds)

/-- One pass of the record loop at position `pos` of the message. -/
def ndefPass : ℕ × WfrWifiCreds → Exec (Pass (ℕ × WfrWifiCreds) (Bool × WfrWifiCreds))
  | (pos, creds) => do
    if ¬ pos < len then return .done (false, creds)
    if sizeT (pos + 3) > len then return .done (false, creds)
    let flags ← load tag (data + pos)
    let typeLen ← load tag (data + (pos + 1))
    if srFlag flags then
      if sizeT (pos + 3) > len then return .done (false, creds)
      let payloadLen ← load tag (data + (pos + 2))
      ndefIdAt fuel tag data len flags (2 + 1) typeLen.toNat payloadLen.toNat (pos, creds)
    else
      if sizeT (pos + 6) > len then return .done (false, creds)
      let payloadLen ← load32 tag (data + (pos + 2))
      ndefIdAt fuel tag data len flags (2 + 4) typeLen.toNat payloadLen (pos, creds)

def parseNdefMessage (creds : WfrWifiCreds) : Exec (Bool × WfrWifiCreds) :=
  loop (ndefPass fuel tag data len) fuel (0, creds)

end Message

/-! ## The tag -/

section Tag
variable (fuel : ℕ) (tag : TagImage)

/-- Where the NDEF data starts. -/
def ndefArea : ℕ := 4 * 4

def ndefAreaLen : ℕ := (tag.pagesRead.toNat - 4) * 4

/-- The value of a TLV, `tlvLen` bytes from `pos` on. -/
def tlvValue (tlvType : UInt8) (tlvLen : ℕ) :
    ℕ × WfrWifiCreds → Exec (Pass (ℕ × WfrWifiCreds) (Bool × WfrWifiCreds))
  | (pos, creds) => do
    if sizeT (pos + tlvLen) > ndefAreaLen tag then return .done (false, creds)
    if tlvType = ndefTlvNdefMsg then
      let (found, creds) ← parseNdefMessage fuel tag.bytes (ndefArea + pos) tlvLen creds
      if found then return .done (true, creds)
      return .next (sizeT (pos + tlvLen), creds)
    else return .next (sizeT (pos + tlvLen), creds)

/-- One pass of the TLV loop at position `pos` of the NDEF area. -/
def tlvPass : ℕ × WfrWifiCreds → Exec (Pass (ℕ × WfrWifiCreds) (Bool × WfrWifiCreds))
  | (pos, creds) => do
    if ¬ pos < ndefAreaLen tag then return .done (false, creds)
    let tlvType ← load tag.bytes (ndefArea + pos)
    let pos := sizeT (pos + 1)
    if tlvType = ndefTlvNull then return .next (pos, creds)
    if tlvType = ndefTlvTerminator then return .done (false, creds)
    if pos ≥ ndefAreaLen tag then return .done (false, creds)
    let lenByte ← load tag.bytes (ndefArea + pos)
    if lenByte = 0xFF then
      if sizeT (pos + 3) > ndefAreaLen tag then return .done (false, creds)
      let tlvLen ← load16 tag.bytes (ndefArea + (pos + 1))
      tlvValue fuel tag tlvType tlvLen (sizeT (pos + 3), creds)
    else tlvValue fuel tag tlvType lenByte.toNat (sizeT (pos + 1), creds)

/-- The result, and the credentials left in `out_creds`. The pointers are not null. -/
def wfrNfcParseWifiTag (outCreds : WfrWifiCreds) : Exec (Bool × WfrWifiCreds) := do
  if tag.pagesRead < 5 then return (false, outCreds)
  if (← load tag.bytes (3 * 4)) ≠ ndefCcMagic then return (false, outCreds)
  loop (tlvPass fuel tag) fuel (0, outCreds)

end Tag
end InfraFi.Flipper.Nfc
