import DlepRouter.Encode.Buffers
import DlepRouter.Parse.Offer

/-!
# Discovery (`discovery.c`)

The router announces itself and waits for a Peer Offer, again and again until one is valid. The
buffer that datagrams are received into is on the stack and used for every round, so what lies
behind a datagram in it is left over from before.
-/

namespace DlepRouter

open Interaction Tlv Scan

/-! ### Calls -/

/-- The calls of discovery, on its one socket. -/
inductive NetCall where
  | socket : Family → NetCall
  | geteuid : NetCall
  | bindToDevice : (iface : List UInt8) → NetCall
  | bind : (address : List UInt8) → NetCall
  | multicastLoop : Family → NetCall
  | ifNametoindex : (iface : List UInt8) → NetCall
  | sendto : (address msg : List UInt8) → NetCall
  | select : (secs : ℕ) → NetCall
  | recvfrom : ℕ → NetCall
  | close : NetCall

/-- The answers to each call; `false` and `none` stand for an error. A `select` says whether the
socket is readable, and a `recvfrom` yields a datagram, cut to the octets asked for. -/
abbrev NetCall.Answer : NetCall → Type
  | socket _ | bindToDevice _ | bind _ | multicastLoop _ => Bool
  | geteuid => ℕ
  | ifNametoindex _ => UInt32
  | sendto _ msg => Option (Fin (msg.length + 1))
  | select _ => Option Bool
  | recvfrom n => Option { bs : List UInt8 // bs.length ≤ n }
  | close => Unit

abbrev netSig : Signature where
  Op := NetCall
  Ans := NetCall.Answer

/-- Programs that make the calls of discovery. -/
abbrev Net (α : Type) := Program netSig α

/-- Make a call. -/
def Net.call (c : NetCall) : Net c.Answer := Program.perform (σ := netSig) c

/-! ### Waiting for an offer -/

/-- `DEFAULT_DISCOVERY_RETRY`, in seconds. -/
def defaultDiscoveryRetry : ℕ := 3

/-- `send_peer_discovery_signal`. What its buffer holds before is not sent. -/
def sendPeerDiscoverySignal (address : List UInt8) : Net Bool := do
  let msg := sent (fillPeerDiscovery peerType) fun _ => 0
  let taken ← Net.call (.sendto address msg)
  pure (taken.map Fin.val = some msg.length)

/-- `recv_peer_offer`: the value it returns, `none` for -1, and the buffer it leaves behind. -/
def recvPeerOffer (secs : ℕ) (msg : Memory UInt8) : Net (Option ℕ × Memory UInt8) := do
  match ← Net.call (.select secs) with
  | none => pure (none, msg)
  | some false => pure (some 0, msg)
  | some true =>
    match ← Net.call (.recvfrom 1500) with
    | none => pure (none, msg)
    | some received => pure (some received.val.length, msg.patch 0 received.val)

/-- How the waiting loop of `get_peer_offer` ends: with an error, or with a valid offer of some
length in the buffer. A loop that is cut off has not ended. -/
inductive Waited where
  | unfinished
  | failed
  | offer : ℕ → Memory UInt8 → Waited

/-- One round of the waiting loop. -/
def offerRound (destAddr : List UInt8) (msg : Memory UInt8) : Net (Memory UInt8 ⊕ Waited) := do
  if ← sendPeerDiscoverySignal destAddr then do
    let (received, msg) ← recvPeerOffer defaultDiscoveryRetry msg
    match received with
    | none => pure (.inr .failed)
    | some len =>
      -- A datagram that is not valid is treated like a timeout.
      let len := if len ≠ 0 ∧ (checkPeerOfferSignal len).value msg ≠ .success then 0 else len
      if len = 0 then pure (.inl msg) else pure (.inr (.offer len msg))
  else pure (.inr .failed)

/-- What `get_peer_offer` does behind its scan: an address without a family or a port is not used,
and the port is stored once more, where both structures have it. -/
def settleAddress (found : ModemAddress) : Bool × ModemAddress :=
  if found.storage 0 = 0 ∧ found.storage 1 = 0 then (false, found)
  else if found.port = 0 then (false, found)
  else (true, { found with storage := found.storage.patch 2 (writeUint16 found.port) })

/-- `get_peer_offer`: whether it returns 1, and what it leaves behind `modem_address` and
`modem_address_length`; or `none` if `n` rounds were not enough. The buffer starts with whatever is
on the stack. -/
def getPeerOffer (n : ℕ) (destAddr : List UInt8) (msg storage : Memory UInt8) (length : ℕ) :
    Net (Option (Bool × ModemAddress)) := do
  match ← Program.forever (offerRound destAddr) (fun _ => .unfinished) n msg with
  | .unfinished => pure none
  | .failed => pure (some (false, ⟨storage, length, 0⟩))
  | .offer len msg =>
    pure (some (settleAddress ((scanPeerOffer len ⟨storage, length, 0⟩).value msg)))

/-! ### Setting up -/

/-- The octets of a number in host order. -/
def hostUint32 (v : UInt32) : List UInt8 :=
  [v.toUInt8, (v >>> 8).toUInt8, (v >>> 16).toUInt8, (v >>> 24).toUInt8]

/-- A `struct sockaddr_in` that was cleared before. -/
def sockaddrIn (port : UInt16) (address : List UInt8) : List UInt8 :=
  Family.inet.octets ++ writeUint16 port ++ address ++ List.replicate 8 0

/-- A `struct sockaddr_in6` that was cleared before. -/
def sockaddrIn6 (port : UInt16) (address : List UInt8) (scopeId : UInt32) : List UInt8 :=
  Family.inet6.octets ++ writeUint16 port ++ List.replicate 4 0 ++ address ++ hostUint32 scopeId

/-- `DLEP_WELL_KNOWN_MULTICAST_ADDRESS`. -/
def wellKnownMulticastAddress : List UInt8 := [224, 0, 0, 117]

/-- `DLEP_WELL_KNOWN_MULTICAST_ADDRESS_6`. -/
def wellKnownMulticastAddress6 : List UInt8 :=
  [0xFF, 0x02, 0, 0, 0, 0, 0, 0, 0, 0, 0, 0, 0, 0x01, 0, 0x07]

/-- `discover_ipv4`. -/
def discoverIpv4 (n : ℕ) (msg storage : Memory UInt8) (length : ℕ) :
    Net (Option (Bool × ModemAddress)) := do
  if ← Net.call (.bind (sockaddrIn 0 [0, 0, 0, 0])) then
    if ← Net.call (.multicastLoop .inet) then
      getPeerOffer n (sockaddrIn wellKnownPort wellKnownMulticastAddress) msg storage length
    else pure (some (false, ⟨storage, length, 0⟩))
  else pure (some (false, ⟨storage, length, 0⟩))

/-- `discover_ipv6`. The scope id of the discovery address becomes that of the modem's. -/
def discoverIpv6 (n : ℕ) (iface : Option (List UInt8)) (msg storage : Memory UInt8)
    (length : ℕ) : Net (Option (Bool × ModemAddress)) := do
  if ← Net.call (.bind (sockaddrIn6 0 (List.replicate 16 0) 0)) then
    if ← Net.call (.multicastLoop .inet6) then do
      let scopeId ← match iface with
        | some iface => Net.call (.ifNametoindex iface)
        | none => pure 0
      let destAddr := sockaddrIn6 wellKnownPort wellKnownMulticastAddress6 scopeId
      match ← getPeerOffer n destAddr msg storage length with
      | some (true, found) =>
        pure (some (true, { found with storage := found.storage.patch 24 (hostUint32 scopeId) }))
      | r => pure r
    else pure (some (false, ⟨storage, length, 0⟩))
  else pure (some (false, ⟨storage, length, 0⟩))

/-- `discover`. -/
def discover (n : ℕ) (useIpv6 : Bool) (iface : Option (List UInt8)) (msg storage : Memory UInt8)
    (length : ℕ) : Net (Option (Bool × ModemAddress)) := do
  if ← Net.call (.socket (if useIpv6 then .inet6 else .inet)) then do
    let bound ← match iface with
      | none => pure true
      | some iface => do
        -- Only root can bind to an interface; for others the interface is not used here.
        let uid ← Net.call .geteuid
        if uid ≠ 0 then pure true else Net.call (.bindToDevice iface)
    let r ←
      if bound then
        if useIpv6 then discoverIpv6 n iface msg storage length
        else discoverIpv4 n msg storage length
      else pure (some (false, ⟨storage, length, 0⟩))
    match r with
    | none => pure none
    | some r => do
      Net.call .close
      pure (some r)
  else pure (some (false, ⟨storage, length, 0⟩))

end DlepRouter
