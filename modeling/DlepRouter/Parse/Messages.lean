import DlepRouter.Encode

/-!
# The parsers of messages (`session.c`)

After validation, a second loop scans the data items and prints them. The cases for metrics and
addresses are the same in four of the five parsers, up to labels and to whether an address may be
dropped; the Destination Up and Down parsers also answer the MAC address.
-/

namespace DlepRouter

open Tlv Scan

/-! ### Data items -/

/-- Print a line. -/
def print (r : Report) : Reader Unit := emit (.report r)

/-- The Add or Drop in front of an address that can change. -/
def parseAction (p : ℕ) (changeable : Bool) : Reader (Option Action) :=
  if changeable then do
    let flags ← load p
    pure (some (if flags = 1 then .add else .drop))
  else pure none

def parseAddress (p itemLen : ℕ) (changeable : Bool) : Reader Unit := do
  let action ← parseAction p changeable
  if itemLen = 5 then do
    let address ← loadRange (p + 1) 4
    print (.address action .inet address)
  else do
    let address ← loadRange (p + 1) 16
    print (.address action .inet6 address)

def parseAttachedSubnet (p itemLen : ℕ) (changeable : Bool) : Reader Unit := do
  let action ← parseAction p changeable
  if itemLen = 6 then do
    let address ← loadRange (p + 1) 4
    let prefixLen ← load (p + 5)
    print (.attachedSubnet action .inet address prefixLen)
  else do
    let address ← loadRange (p + 1) 16
    let prefixLen ← load (p + 17)
    print (.attachedSubnet action .inet6 address prefixLen)

/-- `printf("%.*s")`: the text ends at a NUL or after `n` octets. -/
def loadText (p : ℕ) : ℕ → Reader (List UInt8)
  | 0 => pure []
  | n + 1 => do
    let c ← load p
    if c = 0 then pure [] else do
      let text ← loadText (p + 1) n
      pure (c :: text)

/-- A validated Peer Type item has at least the octet of flags. -/
def parsePeerType (p itemLen : ℕ) : Reader Unit := do
  let flags ← load p
  let text ← loadText (p + 1) (itemLen - 1)
  print (.peerType text (flags ≠ 0))

/-- The loop over `n` extension ids. -/
def parseExtensions (p : ℕ) : ℕ → Reader Unit
  | 0 => pure ()
  | n + 1 => do
    let extId ← readUint16 p
    print (.extension extId)
    parseExtensions (p + 2) n

def parseMacAddress (p : ℕ) : Reader Unit := do
  let mac ← loadRange p 6
  print (.macAddress mac)

/-- The numeric cases. The MTU is read as four octets. -/
def parseNumber (t : DataItemType) (p : ℕ) : Reader Unit :=
  match t with
  | .mdrr | .mdrt | .cdrr | .cdrt | .latency => do
    let v ← readUint64 p
    print (.number t v.toNat)
  | .resources | .rlqr | .rlqt => do
    let v ← load p
    print (.number t v.toNat)
  | .mtu => do
    let v ← readUint32 p
    print (.number t v.toNat)
  | _ => pure ()

/-- The cases for addresses and metrics. -/
def parseMetricItem (changeable : Bool) (t : DataItemType) (p itemLen : ℕ) : Reader Unit :=
  match t with
  | .ipv4Address | .ipv6Address => parseAddress p itemLen changeable
  | .ipv4AttSubnet | .ipv6AttSubnet => parseAttachedSubnet p itemLen changeable
  | t => parseNumber t p

/-! ### Messages -/

/-- What the Session Initialization Response is scanned for. -/
structure InitResp where
  heartbeatInterval : UInt32
  sc : UInt8
  deriving DecidableEq

/-- The loop of every parser: as long as the pointer stands before the end. -/
def parseItems {S : Type} (body : Visit UInt16 → S → Reader S) (items len : ℕ) (st : S) :
    Reader S := do
  let (_, st) ← dataItems.loop (fun _ => true) body (items + len) items st
  pure st

/-- The `switch` of `parse_session_init_resp_message`. -/
def parseSessionInitRespItem (v : Visit UInt16) (st : InitResp) : Reader InitResp :=
  match DataItemType.ofCode v.tag with
  | some .heartbeatInterval => do
    let interval ← readUint32 (v.off + 4)
    print (.number .heartbeatInterval interval.toNat)
    pure { st with heartbeatInterval := interval }
  | some .peerType => do
    parsePeerType (v.off + 4) v.len
    pure st
  | some .status => do
    let sc ← load (v.off + 4)
    print (.status sc)
    pure { st with sc := sc }
  | some .extsSupp => do
    parseExtensions (v.off + 4) ((v.len + 1) / 2)
    pure st
  | some t => do
    parseMetricItem false t (v.off + 4) v.len
    pure st
  | none => pure st

/-- The values that `session` initialises for the parser to overwrite. -/
def InitResp.initial : InitResp := ⟨60000, 0⟩

/-- `parse_session_init_resp_message`, with the values it is to overwrite. -/
def parseSessionInitRespMessage (items len : ℕ) (st : InitResp) :
    Reader (StatusCode × InitResp) := do
  print (.received .sessionInitResp)
  let st ← parseItems parseSessionInitRespItem items len st
  pure (.success, st)

/-- The `switch` of `parse_session_update_message`. -/
def parseSessionUpdateItem (v : Visit UInt16) : Reader Unit :=
  match DataItemType.ofCode v.tag with
  | some t => parseMetricItem true t (v.off + 4) v.len
  | none => pure ()

def parseSessionUpdateMessage (items len : ℕ) : Reader Unit := do
  print (.received .sessionUpdate)
  parseItems (fun v _ => parseSessionUpdateItem v) items len ()

/-- The `switch` of `parse_destination_up_message`. -/
def parseDestinationUpItem (v : Visit UInt16) : Reader Unit :=
  match DataItemType.ofCode v.tag with
  | some .macAddress => do
    parseMacAddress (v.off + 4)
    let mac ← loadRange (v.off + 4) 6
    emit (.respond (destinationUpRespMessage mac .success))
  | some t => parseMetricItem false t (v.off + 4) v.len
  | none => pure ()

def parseDestinationUpMessage (items len : ℕ) : Reader Unit := do
  print (.received .destUp)
  parseItems (fun v _ => parseDestinationUpItem v) items len ()

/-- The `switch` of `parse_destination_update_message`. -/
def parseDestinationUpdateItem (v : Visit UInt16) : Reader Unit :=
  match DataItemType.ofCode v.tag with
  | some .macAddress => parseMacAddress (v.off + 4)
  | some t => parseMetricItem true t (v.off + 4) v.len
  | none => pure ()

def parseDestinationUpdateMessage (items len : ℕ) : Reader Unit := do
  print (.received .destUpdate)
  parseItems (fun v _ => parseDestinationUpdateItem v) items len ()

/-- The `switch` of `parse_destination_down_message`. -/
def parseDestinationDownItem (v : Visit UInt16) : Reader Unit :=
  match DataItemType.ofCode v.tag with
  | some .macAddress => do
    parseMacAddress (v.off + 4)
    let mac ← loadRange (v.off + 4) 6
    emit (.respond (destinationDownRespMessage mac .success))
  | _ => pure ()

def parseDestinationDownMessage (items len : ℕ) : Reader Unit := do
  print (.received .destDown)
  parseItems (fun v _ => parseDestinationDownItem v) items len ()

end DlepRouter
