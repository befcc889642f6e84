import DlepRouter.Util

/-!
# The messages the router sends (`session.c`)

The octets each `send_` function hands to the socket. A message is written with length 0 first;
the length is filled in when its end is known.
-/

namespace DlepRouter

def writeMessageHeader (msgType : MessageType) : List UInt8 :=
  writeUint16 msgType.code ++ writeUint16 0

def writeDataItem (type : DataItemType) (length : UInt16) : List UInt8 :=
  writeUint16 type.code ++ writeUint16 length

def writeStatusCode (sc : StatusCode) : List UInt8 :=
  writeDataItem .status 1 ++ [sc.code]

/-- Fill in octets 2 and 3, the length of the message without its header. -/
def fillMessageLength (msg : List UInt8) : List UInt8 :=
  msg.take 2 ++ (writeUint16 (UInt16.ofNat msg.length - 4) ++ msg.drop 4)

/-- The message of `send_session_init_message`. The peer type is cut to what the buffer of 300
octets holds. -/
def sessionInitMessage (peerType : List UInt8) (routerHeartbeatInterval : UInt32) : List UInt8 :=
  fillMessageLength
    (writeMessageHeader .sessionInit ++ writeDataItem .heartbeatInterval 4 ++
      writeUint32 routerHeartbeatInterval ++
      writeDataItem .peerType (UInt16.ofNat (1 + (peerType.take (300 - 17)).length)) ++ [0x00] ++
      peerType.take (300 - 17))

/-- The message of `send_heartbeat`. -/
def heartbeatMessage : List UInt8 :=
  fillMessageLength (writeMessageHeader .peerHeartbeat)

/-- The message of `send_session_term`. -/
def sessionTermMessage (sc : StatusCode) : List UInt8 :=
  fillMessageLength (writeMessageHeader .sessionTerm ++ writeStatusCode sc)

/-- The message of `send_session_term_resp`. -/
def sessionTermRespMessage : List UInt8 :=
  fillMessageLength (writeMessageHeader .sessionTermResp)

/-- The responses to a destination, which echo its MAC address. -/
def destinationRespMessage (msgType : MessageType) (mac : List UInt8) (sc : StatusCode) :
    List UInt8 :=
  fillMessageLength
    (writeMessageHeader msgType ++ writeDataItem .macAddress 6 ++ mac ++ writeStatusCode sc)

/-- The message of `send_destination_up_resp`. -/
def destinationUpRespMessage : List UInt8 → StatusCode → List UInt8 :=
  destinationRespMessage .destUpResp

/-- The message of `send_destination_down_resp`. -/
def destinationDownRespMessage : List UInt8 → StatusCode → List UInt8 :=
  destinationRespMessage .destDownResp

/-- The MAC address can be read off a response. -/
lemma mac_of_destinationRespMessage (msgType : MessageType) (sc : StatusCode) {mac : List UInt8}
    (h : mac.length = 6) : ((destinationRespMessage msgType mac sc).drop 8).take 6 = mac := by
  match mac, h with
  | [a, b, c, d, e, f], _ => rfl

/-- The length does not depend on the MAC address. -/
lemma length_destinationRespMessage (msgType : MessageType) (sc : StatusCode) {mac : List UInt8}
    (h : mac.length = 6) : (destinationRespMessage msgType mac sc).length = 19 := by
  match mac, h with
  | [a, b, c, d, e, f], _ => rfl

example : sessionTermMessage .invalidData = [0, 5, 0, 5, 0, 1, 0, 1, 130] := by decide

end DlepRouter
