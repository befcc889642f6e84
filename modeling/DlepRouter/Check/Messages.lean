import DlepRouter.Check.Items
import DlepRouter.Tlv.Recognise

/-!
# The validators of messages (`check.c`)

All validators run the same loop over the data items behind a header, with a flag for each type
that may not be repeated. What differs between the messages is how their `switch` treats each type
and which flags must be set in the end, so both are parameters. The Peer Offer signal has a header,
a loop body and a final test of its own.

Addresses count from the start of the message buffer.
-/

namespace DlepRouter

open Tlv Scan

/-! ### Messages -/

/-- `check_message`. -/
def checkMessage (len : ℕ) (id : MessageType) : Reader StatusCode :=
  if len < 4 then pure .invalidData else do
    let msgId ← readUint16 0
    if msgId ≠ id.code then pure .unexpectedMessage else do
      let reportedLen ← readUint16 2
      if reportedLen.toNat ≠ len - 4 then pure .invalidData else pure .success

/-- How the `switch` of a validator treats the items of one type. -/
inductive Rule where
  | once : (check : ℕ → ℕ → Reader StatusCode) → Rule
  | many : (check : ℕ → ℕ → Reader StatusCode) → Rule
  | skip : Rule
  | reject : Rule

/-- The state of a validator's loop: the verdict so far and the types whose flag is set. -/
structure Checked where
  sc : StatusCode
  seen : List (Option DataItemType)
  deriving DecidableEq

/-- The body of a validator's loop. -/
def checkItem (rules : Option DataItemType → Rule) (v : Visit UInt16) (st : Checked) :
    Reader Checked :=
  match rules (DataItemType.ofCode v.tag) with
  | .once check =>
    if DataItemType.ofCode v.tag ∈ st.seen then pure { st with sc := .invalidData }
    else do
      let sc ← check (v.off + 4) v.len
      pure ⟨sc, DataItemType.ofCode v.tag :: st.seen⟩
  | .many check => do
    let sc ← check (v.off + 4) v.len
    pure { st with sc := sc }
  | .skip => pure st
  | .reject => pure { st with sc := .invalidData }

/-- The loop of a validator over the items behind the message header. -/
def checkItems (rules : Option DataItemType → Rule) (len : ℕ) : Reader (ℕ × Checked) :=
  dataItems.loop (fun st => st.sc = .success) (checkItem rules) len 4 ⟨.success, []⟩

/-- A validator with its `switch` and its mandatory data items. -/
def checkMessageItems (id : MessageType) (rules : Option DataItemType → Rule)
    (mandatory : List DataItemType) (len : ℕ) : Reader StatusCode := do
  let sc ← checkMessage len id
  if sc = .success then do
    let (_, st) ← checkItems rules len
    if st.sc = .success ∧ ¬ ∀ t ∈ mandatory, some t ∈ st.seen then pure .invalidData
    else pure st.sc
  else pure sc

/-- The cases that the update and destination messages share. The flag `seen_address` of
Destination Up only leads to a warning. -/
def metricRule (addOnly : Bool) : Option DataItemType → Rule
  | some .ipv4Address => .many (checkIpv4Address · · addOnly)
  | some .ipv6Address => .many (checkIpv6Address · · addOnly)
  | some .ipv4AttSubnet => .many (checkIpv4AttachedSubnet · · addOnly)
  | some .ipv6AttSubnet => .many (checkIpv6AttachedSubnet · · addOnly)
  | some .mdrr => .once checkMdrr
  | some .mdrt => .once checkMdrt
  | some .cdrr => .once checkCdrr
  | some .cdrt => .once checkCdrt
  | some .latency => .once checkLatency
  | some .resources => .once checkResources
  | some .rlqr => .once checkRlqr
  | some .rlqt => .once checkRlqt
  | some .mtu => .once checkMtu
  | _ => .reject

/-- The `switch` of `check_session_init_resp_message`. Its default does not report an error, as an
extension may be under negotiation. -/
def sessionInitRespRule : Option DataItemType → Rule
  | some .status => .once checkStatus
  | some .peerType => .once checkPeerType
  | some .heartbeatInterval => .once checkHeartbeatInterval
  | some .mdrr => .once checkMdrr
  | some .mdrt => .once checkMdrt
  | some .cdrr => .once checkCdrr
  | some .cdrt => .once checkCdrt
  | some .latency => .once checkLatency
  | some .resources => .once checkResources
  | some .rlqr => .once checkRlqr
  | some .rlqt => .once checkRlqt
  | some .mtu => .once checkMtu
  | some .extsSupp => .once checkExtensionsSupported
  | some .ipv4Address => .many (checkIpv4Address · · true)
  | some .ipv6Address => .many (checkIpv6Address · · true)
  | some .ipv4AttSubnet => .many (checkIpv4AttachedSubnet · · true)
  | some .ipv6AttSubnet => .many (checkIpv6AttachedSubnet · · true)
  | _ => .skip

/-- The `switch` of `check_heartbeat_message`. -/
def heartbeatRule : Option DataItemType → Rule
  | _ => .reject

/-- The `switch` of `check_session_term_message`. -/
def sessionTermRule : Option DataItemType → Rule
  | some .status => .once checkStatus
  | _ => .reject

/-- The `switch` of `check_session_update_message`. -/
def sessionUpdateRule : Option DataItemType → Rule := metricRule false

/-- The `switch` of `check_destination_up_message`. -/
def destinationUpRule : Option DataItemType → Rule
  | some .macAddress => .once checkMacAddress
  | t => metricRule true t

/-- The `switch` of `check_destination_update_message`. -/
def destinationUpdateRule : Option DataItemType → Rule
  | some .macAddress => .once checkMacAddress
  | t => metricRule false t

/-- The `switch` of `check_destination_down_message`. -/
def destinationDownRule : Option DataItemType → Rule
  | some .macAddress => .once checkMacAddress
  | _ => .reject

def checkSessionInitRespMessage : ℕ → Reader StatusCode :=
  checkMessageItems .sessionInitResp sessionInitRespRule
    [.status, .peerType, .heartbeatInterval, .mdrr, .mdrt, .cdrr, .cdrt, .latency]

def checkHeartbeatMessage : ℕ → Reader StatusCode :=
  checkMessageItems .peerHeartbeat heartbeatRule []

def checkSessionTermMessage : ℕ → Reader StatusCode :=
  checkMessageItems .sessionTerm sessionTermRule [.status]

def checkSessionUpdateMessage : ℕ → Reader StatusCode :=
  checkMessageItems .sessionUpdate sessionUpdateRule []

def checkDestinationUpMessage : ℕ → Reader StatusCode :=
  checkMessageItems .destUp destinationUpRule [.macAddress]

def checkDestinationUpdateMessage : ℕ → Reader StatusCode :=
  checkMessageItems .destUpdate destinationUpdateRule [.macAddress]

def checkDestinationDownMessage : ℕ → Reader StatusCode :=
  checkMessageItems .destDown destinationDownRule [.macAddress]

/-! ### The Peer Offer signal -/

/-- The four octets every signal starts with. -/
def signalMagic : List UInt8 := "DLEP".toList.map fun c => UInt8.ofNat c.toNat

/-- The header tests of `check_peer_offer_signal`. -/
def checkPeerOfferHeader (len : ℕ) : Reader StatusCode :=
  if len < 8 then pure .invalidData else do
    let magic ← loadRange 0 4
    if magic ≠ signalMagic then pure .invalidData else do
      let id ← readUint16 4
      if id ≠ Signal.peerOffer.code then pure .invalidData else do
        let reportedLen ← readUint16 6
        if reportedLen.toNat + 8 ≠ len then pure .invalidData else pure .success

/-- The state of the Peer Offer loop. -/
structure OfferChecked where
  sc : StatusCode
  seenPeerType : Bool
  seenIpConnPt : Bool
  deriving DecidableEq

/-- The body of the Peer Offer loop. -/
def checkPeerOfferItem (v : Visit UInt16) (st : OfferChecked) : Reader OfferChecked :=
  match DataItemType.ofCode v.tag with
  | some .peerType =>
    if st.seenPeerType then pure { st with sc := .invalidData }
    else do
      let sc ← checkPeerType (v.off + 4) v.len
      pure { st with sc := sc, seenPeerType := true }
  | some .ipv4ConnPoint => do
    let sc ← checkIpv4ConnectionPoint (v.off + 4) v.len
    pure { st with sc := sc, seenIpConnPt := true }
  | some .ipv6ConnPoint => do
    let sc ← checkIpv6ConnectionPoint (v.off + 4) v.len
    pure { st with sc := sc, seenIpConnPt := true }
  | _ => pure { st with sc := .invalidData }

/-- The loop over the items behind the signal header. -/
def checkPeerOfferItems (len : ℕ) : Reader (ℕ × OfferChecked) :=
  dataItems.loop (fun st => st.sc = .success) checkPeerOfferItem len 8 ⟨.success, false, false⟩

def checkPeerOfferSignal (len : ℕ) : Reader StatusCode := do
  let sc ← checkPeerOfferHeader len
  if sc = .success then do
    let (dataItem, st) ← checkPeerOfferItems len
    if st.sc = .success then
      -- The test the message validators lack.
      if dataItem ≠ len then pure .invalidData
      else if ¬ st.seenIpConnPt then pure .invalidData
      else pure .success
    else pure st.sc
  else pure sc

end DlepRouter
