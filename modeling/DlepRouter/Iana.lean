import Mathlib.Data.Nat.Notation
import Mathlib.Tactic.Lemma

/-!
# The registries of `dlep_iana.h`

Message numbers, data item numbers and status codes, with the octets they have on the wire. The
numbers a peer sends need not be registered, so reading a number back is partial.
-/

namespace DlepRouter

/-- `enum dlep_message`. -/
inductive MessageType where
  | sessionInit
  | sessionInitResp
  | sessionUpdate
  | sessionUpdateResp
  | sessionTerm
  | sessionTermResp
  | destUp
  | destUpResp
  | destAnnounce
  | destAnnounceResp
  | destDown
  | destDownResp
  | destUpdate
  | linkCharReq
  | linkCharResp
  | peerHeartbeat
  deriving DecidableEq

namespace MessageType

def code : MessageType → UInt16
  | sessionInit => 1
  | sessionInitResp => 2
  | sessionUpdate => 3
  | sessionUpdateResp => 4
  | sessionTerm => 5
  | sessionTermResp => 6
  | destUp => 7
  | destUpResp => 8
  | destAnnounce => 9
  | destAnnounceResp => 10
  | destDown => 11
  | destDownResp => 12
  | destUpdate => 13
  | linkCharReq => 14
  | linkCharResp => 15
  | peerHeartbeat => 16

def all : List MessageType :=
  [sessionInit, sessionInitResp, sessionUpdate, sessionUpdateResp, sessionTerm, sessionTermResp,
    destUp, destUpResp, destAnnounce, destAnnounceResp, destDown, destDownResp, destUpdate,
    linkCharReq, linkCharResp, peerHeartbeat]

/-- The registered message with a number, if there is one. -/
def ofCode (c : UInt16) : Option MessageType :=
  all.find? fun t => t.code = c

@[simp] lemma ofCode_code (t : MessageType) : ofCode t.code = some t := by
  cases t <;> rfl

lemma ofCode_eq_some_iff {c : UInt16} {t : MessageType} : ofCode c = some t ↔ t.code = c := by
  constructor
  · intro h
    simpa using List.find?_some h
  · rintro rfl
    exact ofCode_code t

end MessageType

/-- `enum dlep_signal`. -/
inductive Signal where
  | peerDiscovery
  | peerOffer
  deriving DecidableEq

def Signal.code : Signal → UInt16
  | peerDiscovery => 1
  | peerOffer => 2

/-- `enum dlep_data_item`. -/
inductive DataItemType where
  | status
  | ipv4ConnPoint
  | ipv6ConnPoint
  | peerType
  | heartbeatInterval
  | extsSupp
  | macAddress
  | ipv4Address
  | ipv6Address
  | ipv4AttSubnet
  | ipv6AttSubnet
  | mdrr
  | mdrt
  | cdrr
  | cdrt
  | latency
  | resources
  | rlqr
  | rlqt
  | mtu
  deriving DecidableEq

namespace DataItemType

def code : DataItemType → UInt16
  | status => 1
  | ipv4ConnPoint => 2
  | ipv6ConnPoint => 3
  | peerType => 4
  | heartbeatInterval => 5
  | extsSupp => 6
  | macAddress => 7
  | ipv4Address => 8
  | ipv6Address => 9
  | ipv4AttSubnet => 10
  | ipv6AttSubnet => 11
  | mdrr => 12
  | mdrt => 13
  | cdrr => 14
  | cdrt => 15
  | latency => 16
  | resources => 17
  | rlqr => 18
  | rlqt => 19
  | mtu => 20

def all : List DataItemType :=
  [status, ipv4ConnPoint, ipv6ConnPoint, peerType, heartbeatInterval, extsSupp, macAddress,
    ipv4Address, ipv6Address, ipv4AttSubnet, ipv6AttSubnet, mdrr, mdrt, cdrr, cdrt, latency,
    resources, rlqr, rlqt, mtu]

/-- The registered data item with a number, if there is one. -/
def ofCode (c : UInt16) : Option DataItemType :=
  all.find? fun t => t.code = c

@[simp] lemma ofCode_code (t : DataItemType) : ofCode t.code = some t := by
  cases t <;> rfl

lemma ofCode_eq_some_iff {c : UInt16} {t : DataItemType} : ofCode c = some t ↔ t.code = c := by
  constructor
  · intro h
    simpa using List.find?_some h
  · rintro rfl
    exact ofCode_code t

end DataItemType

/-- `enum dlep_status_code`. -/
inductive StatusCode where
  | success
  | notInterested
  | requestDenied
  | inconsistent
  | unknownMessage
  | unexpectedMessage
  | invalidData
  | invalidDest
  | timedOut
  | shutdown
  deriving DecidableEq

def StatusCode.code : StatusCode → UInt8
  | success => 0
  | notInterested => 1
  | requestDenied => 2
  | inconsistent => 3
  | unknownMessage => 128
  | unexpectedMessage => 129
  | invalidData => 130
  | invalidDest => 131
  | timedOut => 132
  | shutdown => 255

/-- `DLEP_WELL_KNOWN_PORT`. -/
def wellKnownPort : UInt16 := 854

/-- The characters of `PEER_TYPE`. -/
def peerType : List UInt8 :=
  "dlep_router: Simple example DLEP router".toList.map fun c => UInt8.ofNat c.toNat

end DlepRouter
