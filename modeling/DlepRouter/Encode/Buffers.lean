import DlepRouter.Check.Messages
import DlepRouter.Encode
import DlepRouter.Tlv.Fill

/-!
# Messages written into buffers (`session.c`, `discovery.c`)

The `send_` functions at the level of pointers: where each octet goes in the buffer, and how many
octets are then handed to the socket. Addresses count from the start of the buffer.
-/

namespace DlepRouter

open Tlv Fill Interaction

/-- Fills of an octet buffer. -/
abbrev Writer (α : Type) := Fill UInt8 α

/-! ### Writers -/

def writeUint16At (v : UInt16) (p : ℕ) : Writer ℕ := do
  store p (v >>> 8).toUInt8
  store (p + 1) (v &&& 0xFF).toUInt8
  pure (p + 2)

def writeUint32At (v : UInt32) (p : ℕ) : Writer ℕ := do
  store p (v >>> 24).toUInt8
  store (p + 1) (v >>> 16).toUInt8
  store (p + 2) (v >>> 8).toUInt8
  store (p + 3) (v &&& 0xFF).toUInt8
  pure (p + 4)

/-- `*p++ = octet`. -/
def writeOctetAt (octet : UInt8) (p : ℕ) : Writer ℕ := do
  store p octet
  pure (p + 1)

/-- `memcpy` to the pointer, which is then moved on. -/
def writeRangeAt (octets : List UInt8) (p : ℕ) : Writer ℕ := do
  storeRange p octets
  pure (p + octets.length)

def writeMessageHeaderAt (p : ℕ) (msgType : MessageType) : Writer ℕ := do
  let p ← writeUint16At msgType.code p
  writeUint16At 0 p

def writeDataItemAt (p : ℕ) (type : DataItemType) (length : UInt16) : Writer ℕ := do
  let p ← writeUint16At type.code p
  writeUint16At length p

/-- `write_status_code`. Any code fits the octet, registered or not. -/
def writeStatusCodeAt (p : ℕ) (sc : UInt8) : Writer ℕ := do
  let p ← writeDataItemAt p .status 1
  writeOctetAt sc p

/-- Octets 2 and 3 are filled in with the length of the message without its header. -/
def finishMessage (p : ℕ) : Writer UInt16 := do
  let msgLen := UInt16.ofNat p
  let _ ← writeUint16At (msgLen - 4) 2
  pure msgLen

/-! ### Messages -/

/-- The buffer of `send_session_init_message`, of 300 octets. -/
def fillSessionInit (peerType : List UInt8) (routerHeartbeatInterval : UInt32) :
    Writer UInt16 := do
  let p ← writeMessageHeaderAt 0 .sessionInit
  let p ← writeDataItemAt p .heartbeatInterval 4
  let p ← writeUint32At routerHeartbeatInterval p
  let peerTypeLen := peerType.length
  let peerTypeLen := if peerTypeLen > 300 - 17 then 300 - 17 else peerTypeLen
  let p ← writeDataItemAt p .peerType (UInt16.ofNat (1 + peerTypeLen))
  let p ← writeOctetAt 0x00 p
  let p ← writeRangeAt (peerType.take peerTypeLen) p
  finishMessage p

/-- The buffer of `send_heartbeat`, of 30 octets. -/
def fillHeartbeat : Writer UInt16 := do
  let p ← writeMessageHeaderAt 0 .peerHeartbeat
  finishMessage p

/-- The buffer of `send_session_term`, of 9 octets. -/
def fillSessionTerm (sc : UInt8) : Writer UInt16 := do
  let p ← writeMessageHeaderAt 0 .sessionTerm
  let p ← writeStatusCodeAt p sc
  finishMessage p

/-- The buffer of `send_session_term_resp`, of 30 octets. -/
def fillSessionTermResp : Writer UInt16 := do
  let p ← writeMessageHeaderAt 0 .sessionTermResp
  finishMessage p

/-- The buffers of the responses to a destination, of 30 octets. -/
def fillDestinationResp (msgType : MessageType) (mac : Vector UInt8 6) (sc : UInt8) :
    Writer UInt16 := do
  let p ← writeMessageHeaderAt 0 msgType
  let p ← writeDataItemAt p .macAddress 6
  let p ← writeRangeAt mac.toList p
  let p ← writeStatusCodeAt p sc
  finishMessage p

/-- The buffer of `send_destination_up_resp`. -/
def fillDestinationUpResp : Vector UInt8 6 → UInt8 → Writer UInt16 :=
  fillDestinationResp .destUpResp

/-- The buffer of `send_destination_down_resp`. -/
def fillDestinationDownResp : Vector UInt8 6 → UInt8 → Writer UInt16 :=
  fillDestinationResp .destDownResp

/-- The buffer of `send_peer_discovery_signal`, of 100 octets. The header of a signal is 8 octets
long, and its length is in octets 6 and 7. -/
def fillPeerDiscovery (peerType : List UInt8) : Writer UInt16 := do
  storeRange 0 signalMagic
  let p ← writeUint16At Signal.peerDiscovery.code 4
  let p ← writeUint16At 0 p
  let peerTypeLen := peerType.length
  let peerTypeLen := if peerTypeLen > 100 - 13 then 100 - 13 else peerTypeLen
  let p ← writeUint16At DataItemType.peerType.code p
  let p ← writeUint16At (UInt16.ofNat (1 + peerTypeLen)) p
  let p ← writeOctetAt 0x00 p
  let p ← writeRangeAt (peerType.take peerTypeLen) p
  let msgLen := UInt16.ofNat p
  let _ ← writeUint16At (msgLen - 8) 6
  pure msgLen

/-- The octets handed to the socket: as many as the value says, from the start of the buffer. -/
def sent (w : Writer UInt16) (buffer : Memory UInt8) : List UInt8 :=
  (buffer.after w.stores).slice 0 w.value.toNat

end DlepRouter
