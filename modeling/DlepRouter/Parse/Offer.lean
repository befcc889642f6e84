import DlepRouter.Check.Messages
import DlepRouter.Parse.Messages

/-!
# The scan of a Peer Offer (`discovery.c`)

After validation `get_peer_offer` scans the signal for connection points and stores the address it
finds in a `struct sockaddr_storage`, which both `struct sockaddr_in` and `struct sockaddr_in6`
overlay: the family stands in octets 0 and 1, the port in octets 2 and 3, an IPv4 address in
octets 4 to 7 and an IPv6 address in octets 8 to 23.
-/

namespace DlepRouter

open Tlv Scan

/-- The octets of a family number, `AF_INET` or `AF_INET6`, in host order. -/
def Family.octets : Family → List UInt8
  | .inet => [2, 0]
  | .inet6 => [10, 0]

/-- `sizeof(struct sockaddr_in)` and `sizeof(struct sockaddr_in6)`. -/
def Family.addressLength : Family → ℕ
  | .inet => 16
  | .inet6 => 28

/-- What the scan keeps: the storage behind `modem_address`, `*modem_address_length`, and the
port. -/
structure ModemAddress where
  storage : Memory UInt8
  length : ℕ
  port : UInt16

/-- A connection point case: an address of `n` octets that goes to octet `storeAt` of the storage,
and a port if the item is longer than that. The port is stored through `struct sockaddr_in` for both
families. -/
def scanConnectionPoint (family : Family) (n storeAt : ℕ) (v : Visit UInt16) (st : ModemAddress) :
    Reader ModemAddress := do
  let address ← loadRange (v.off + 5) n
  let flags ← load (v.off + 4)
  let shown ← loadRange (v.off + 5) n
  print (.connectionPoint family (flags ≠ 0) shown)
  let port ← if v.len = n + 3 then readUint16 (v.off + 5 + n) else pure wellKnownPort
  pure
    { storage := ((st.storage.patch 0 family.octets).patch storeAt address).patch 2
        (writeUint16 port)
      length := family.addressLength
      port := port }

/-- The `switch` of the scan. -/
def scanPeerOfferItem (v : Visit UInt16) (st : ModemAddress) : Reader ModemAddress :=
  match DataItemType.ofCode v.tag with
  | some .peerType => do
    parsePeerType (v.off + 4) v.len
    pure st
  | some .ipv4ConnPoint => scanConnectionPoint .inet 4 4 v st
  | some .ipv6ConnPoint => scanConnectionPoint .inet6 16 8 v st
  | _ => pure st

/-- The scan of `get_peer_offer`: the family is cleared and the items behind the signal header are
gone through. -/
def scanPeerOffer (len : ℕ) (st : ModemAddress) : Reader ModemAddress :=
  parseItems scanPeerOfferItem 8 (len - 8) { st with storage := st.storage.patch 0 [0, 0] }

end DlepRouter
