import InfraFi.Flipper.NfcAttributes

/-! # The tag format

A Type 2 tag with one WSC record, as a writer of such tags lays it out: WSC
attributes and Credential containers, NDEF records, TLV blocks, pages.
-/
namespace InfraFi.Flipper.Nfc
open Base Protocol

/-- Two bytes, the high one first. -/
def word (n : ℕ) : Bytes := [UInt8.ofNat (n / 2 ^ 8), UInt8.ofNat n]

def dword (n : ℕ) : Bytes := word (n / 2 ^ 16) ++ word n

/-! ## WSC attributes -/

structure Attribute where
  id : ℕ
  value : Bytes
  id_lt : id < 2 ^ 16
  fits : value.length < 2 ^ 16

def Attribute.encode (a : Attribute) : Bytes := word a.id ++ (word a.value.length ++ a.value)

def encodeAttributes (as : List Attribute) : Bytes := as.flatMap Attribute.encode

/-- A container of attributes, none of which is a container. -/
structure Credential where
  attributes : List Attribute
  flat : ∀ a ∈ attributes, a.id ≠ wscAttrCredential
  fits : (encodeAttributes attributes).length < 2 ^ 16

def Credential.attribute (c : Credential) : Attribute where
  id := wscAttrCredential
  value := encodeAttributes c.attributes
  id_lt := by decide
  fits := c.fits

/-- What a WSC payload is made of. -/
inductive WscItem where
  | plain (a : Attribute) (h : a.id ≠ wscAttrCredential)
  | credential (c : Credential)

def WscItem.attribute : WscItem → Attribute
  | .plain a _ => a
  | .credential c => c.attribute

/-- The attributes, without the containers around them. -/
def WscItem.leaves : WscItem → List Attribute
  | .plain a _ => [a]
  | .credential c => c.attributes

def WscItem.credential? : WscItem → Option Credential
  | .plain _ _ => none
  | .credential c => some c

def encodeItems (items : List WscItem) : Bytes := encodeAttributes (items.map WscItem.attribute)

/-- The values of the attributes with a given ID. -/
def valuesOf (id : ℕ) (as : List Attribute) : List Bytes :=
  (as.filter (fun a => a.id = id)).map Attribute.value

/-! ## NDEF records -/

/-- The flags say which length form the payload has and whether there is an ID. -/
structure NdefRecord where
  flags : UInt8
  type : Bytes
  id : Bytes
  payload : Bytes
  type_fits : type.length < 256
  id_fits : id.length < 256
  no_id : ¬ ilFlag flags → id = []
  payload_fits : payload.length < if srFlag flags then 256 else 2 ^ 32

namespace NdefRecord

def payloadLength (r : NdefRecord) : Bytes :=
  if srFlag r.flags then [UInt8.ofNat r.payload.length] else dword r.payload.length

def idLength (r : NdefRecord) : Bytes := if ilFlag r.flags then [UInt8.ofNat r.id.length] else []

def encode (r : NdefRecord) : Bytes :=
  r.flags :: UInt8.ofNat r.type.length ::
    (r.payloadLength ++ (r.idLength ++ (r.type ++ (r.id ++ r.payload))))

/-- A media-type record with the WSC type. -/
def IsWsc (r : NdefRecord) : Prop := tnf r.flags = ndefTnfMediaType ∧ r.type = wifiNdefType

end NdefRecord

/-! ## TLV blocks -/

structure TlvBlock where
  type : UInt8
  long : Bool
  value : Bytes
  type_ne : type ≠ ndefTlvNull ∧ type ≠ ndefTlvTerminator
  fits : value.length < if long then 2 ^ 16 else 255

def TlvBlock.encode (b : TlvBlock) : Bytes :=
  b.type :: ((if b.long then 0xFF :: word b.value.length else [UInt8.ofNat b.value.length]) ++ b.value)

inductive Tlv where
  | null
  | block (b : TlvBlock) (h : b.type ≠ ndefTlvNdefMsg)

def Tlv.encode : Tlv → Bytes
  | .null => [ndefTlvNull]
  | .block b _ => b.encode

/-! ## Tags -/

/-- The bytes before and in the capability container, TLVs without a message, the message with
the WSC record at its end, and anything behind it. -/
structure WscTag where
  lead : Bytes
  cc : Bytes
  tlvs : List Tlv
  long : Bool
  records : List NdefRecord
  wsc : NdefRecord
  items : List WscItem
  rest : Bytes
  lead_length : lead.length = 3 * 4
  cc_length : cc.length = 3
  records_other : ∀ r ∈ records, ¬ r.IsWsc ∧ ¬ meFlag r.flags
  isWsc : wsc.IsWsc
  payload_eq : wsc.payload = encodeItems items
  message_fits : (records.flatMap NdefRecord.encode ++ wsc.encode).length < if long then 2 ^ 16 else 255

namespace WscTag

def message (t : WscTag) : TlvBlock where
  type := ndefTlvNdefMsg
  long := t.long
  value := t.records.flatMap NdefRecord.encode ++ t.wsc.encode
  type_ne := by decide
  fits := t.message_fits

def encode (t : WscTag) : Bytes :=
  t.lead ++ (ndefCcMagic :: t.cc ++ (t.tlvs.flatMap Tlv.encode ++ (t.message.encode ++ t.rest)))

/-- All attributes of the WSC record, in order. -/
def attributes (t : WscTag) : List Attribute := t.items.flatMap WscItem.leaves

def credentials (t : WscTag) : List Credential := t.items.filterMap WscItem.credential?

end WscTag

/-- No TLV but null ones up to the end of the area or a terminator. -/
def Padding (rest : Bytes) : Prop :=
  ∃ n post, rest = List.replicate n ndefTlvNull ++ post ∧
    (post = [] ∨ ∃ more, post = ndefTlvTerminator :: more)

end InfraFi.Flipper.Nfc
