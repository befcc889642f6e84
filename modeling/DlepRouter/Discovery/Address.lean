import DlepRouter.Check.PeerOffer
import DlepRouter.Discovery.Machine
import DlepRouter.Parse.Walks

/-!
# The address that a Peer Offer leaves

On an accepted Peer Offer the scan of `get_peer_offer` goes from one connection point to the next
and writes the address of each over what is there, so the last one decides the octets that it
writes. What it does not write is left from before.
-/

namespace DlepRouter

open Tlv Scan

/-! ### Connection points -/

namespace Family

/-- Where the address of a family stands in the storage. -/
def addressAt : Family → ℕ
  | inet => 4
  | inet6 => 8

/-- The type of a connection point. -/
def itemType : Family → DataItemType
  | inet => .ipv4ConnPoint
  | inet6 => .ipv6ConnPoint

end Family

/-- The item is a connection point of the family. -/
def IsConnPoint (f : Family) (i : DataItem) : Prop :=
  i.tag = f.itemType.code

instance (f : Family) : DecidablePred (IsConnPoint f) :=
  fun _ => inferInstanceAs (Decidable (_ = _))

/-- The connection points among the items, in their order. -/
def connPoints (is : List DataItem) : List DataItem :=
  is.filter fun i => IsConnPoint .inet i ∨ IsConnPoint .inet6 i

/-- The family of a connection point. -/
def connFamily (i : DataItem) : Family :=
  if IsConnPoint .inet i then .inet else .inet6

/-- The address in a connection point, behind the octet of flags. -/
def connAddress (i : DataItem) : List UInt8 :=
  (i.body.drop 1).take (connFamily i).addressSize

/-- The port of a connection point: its last two octets, if it is long enough to have one. -/
def connPort (i : DataItem) : UInt16 :=
  if i.body.length = (connFamily i).addressSize + 3 then
    UInt16.ofNat (bigEndian (i.body.drop ((connFamily i).addressSize + 1)))
  else wellKnownPort

/-- What a connection point makes of the address found so far. -/
def ModemAddress.meet (st : ModemAddress) (i : DataItem) : ModemAddress where
  storage := ((st.storage.patch 0 (connFamily i).octets).patch (connFamily i).addressAt
    (connAddress i)).patch 2 (writeUint16 (connPort i))
  length := (connFamily i).addressLength
  port := connPort i

/-! ### The scan -/

section Scan

variable {m : Memory UInt8} {v : Visit UInt16}

/-- A connection point case of the scan, at an item of the family that is long enough. -/
lemma value_scanConnectionPoint {f : Family} {i : DataItem}
    (hi : i = ⟨v.tag, m.slice (v.off + 4) v.len⟩) (hf : connFamily i = f)
    (hlen : f.addressSize + 1 ≤ v.len) (st : ModemAddress) :
    (scanConnectionPoint f f.addressSize f.addressAt v st).value m = st.meet i := by
  have hlength : i.body.length = v.len := by simp [hi]
  have haddress : connAddress i = m.slice (v.off + 5) f.addressSize := by
    rw [connAddress, hf, hi]
    change ((m.slice (v.off + 4) v.len).drop 1).take f.addressSize = _
    rw [Memory.drop_slice m _ (by omega), Memory.take_slice m _ (by omega)]
  have hport : connPort i =
      if v.len = f.addressSize + 3 then (readUint16 (v.off + 5 + f.addressSize)).value m
      else wellKnownPort := by
    rw [connPort, hf, hlength]
    split_ifs with h
    · have hdrop : i.body.drop (f.addressSize + 1) = m.slice (v.off + 5 + f.addressSize) 2 := by
        rw [hi]
        change (m.slice (v.off + 4) v.len).drop _ = _
        rw [Memory.drop_slice m _ hlen, h]
        congr 1 <;> omega
      rw [hdrop, ← toNat_readUint16, UInt16.ofNat_toNat]
    · rfl
  rw [ModemAddress.meet, hf, haddress, hport]
  by_cases h : v.len = f.addressSize + 3 <;> simp [scanConnectionPoint, h]

/-- An item of a Peer Offer is met if it is a connection point, and passed over otherwise. -/
lemma value_scanPeerOfferItem {i : DataItem} (hi : i = ⟨v.tag, m.slice (v.off + 4) v.len⟩)
    (h : OfferItem i) (st : ModemAddress) :
    (scanPeerOfferItem v st).value m =
      if IsConnPoint .inet i ∨ IsConnPoint .inet6 i then st.meet i else st := by
  obtain ⟨t, ht, htag, hwf⟩ := h
  have hlength : i.body.length = v.len := by simp [hi]
  have hcode : DataItemType.ofCode v.tag = some t := by
    rw [DataItemType.ofCode_eq_some_iff, ← htag, hi]
  simp only [offerTypes, List.mem_cons, List.not_mem_nil, or_false] at ht
  rcases ht with rfl | rfl | rfl
  · have hno : ¬ (IsConnPoint .inet i ∨ IsConnPoint .inet6 i) := by
      rw [IsConnPoint, IsConnPoint, htag]
      decide
    rw [if_neg hno]
    simp [scanPeerOfferItem, hcode]
  · have hlen : Family.inet.addressSize + 1 ≤ v.len := by
      rw [← hlength]
      rcases hwf.1 with h | h <;> rw [h] <;> decide
    have hf : connFamily i = .inet := if_pos htag
    rw [if_pos (.inl htag), ← value_scanConnectionPoint hi hf hlen]
    simp only [scanPeerOfferItem, hcode]
    rfl
  · have hlen : Family.inet6.addressSize + 1 ≤ v.len := by
      rw [← hlength]
      rcases hwf.1 with h | h <;> rw [h] <;> decide
    have hf : connFamily i = .inet6 := by
      apply if_neg
      rw [IsConnPoint, htag]
      decide
    rw [if_pos (.inr htag), ← value_scanConnectionPoint hi hf hlen]
    simp only [scanPeerOfferItem, hcode]
    rfl

/-- The scan of an accepted Peer Offer meets its connection points, one after the other. -/
lemma value_scanPeerOffer {len : ℕ} (h : (checkPeerOfferSignal len).value m = .success)
    (st : ModemAddress) :
    (scanPeerOffer len st).value m =
      (connPoints (offerItems m len)).foldl .meet
        { st with storage := st.storage.patch 0 [0, 0] } := by
  rw [value_checkPeerOfferSignal, verdict_eq_success] at h
  obtain ⟨hhead, his, -⟩ := h
  have hlen : 8 + (len - 8) = len := Nat.add_sub_cancel' hhead.1
  simp only [scanPeerOffer, parseItems, hlen, value_bind]
  rw [Walker.value_loop]
  simp only [Interaction.Program.pure_eq_ret, value_ret, connPoints, List.foldl_filter,
    decide_eq_true_eq, offerItems, Format.items, List.foldl_map]
  apply List.foldl_ext
  intro st v hv
  exact value_scanPeerOfferItem (Format.itemAt_of_mem_walk hv)
    (his.1 _ (Format.itemAt_mem_items hv)) st

end Scan

/-! ### What a connection point writes -/

section Meet

variable {i : DataItem}

/-- The address of a connection point is complete, and a port follows it or nothing. -/
lemma length_of_connPoint (h : OfferItem i) (hi : IsConnPoint .inet i ∨ IsConnPoint .inet6 i) :
    i.body.length = (connFamily i).addressSize + 1 ∨
      i.body.length = (connFamily i).addressSize + 3 := by
  obtain ⟨t, ht, htag, hwf⟩ := h
  simp only [offerTypes, List.mem_cons, List.not_mem_nil, or_false] at ht
  rcases ht with rfl | rfl | rfl
  · rw [IsConnPoint, IsConnPoint, htag] at hi
    exact absurd hi (by decide)
  · have hf : connFamily i = .inet := if_pos htag
    rw [hf]
    exact hwf.1
  · have hf : connFamily i = .inet6 := by
      apply if_neg
      rw [IsConnPoint, htag]
      decide
    rw [hf]
    exact hwf.1

/-- So its address has as many octets as one of its family. -/
lemma length_connAddress (h : OfferItem i) (hi : IsConnPoint .inet i ∨ IsConnPoint .inet6 i) :
    (connAddress i).length = (connFamily i).addressSize := by
  rw [connAddress, List.length_take, List.length_drop]
  rcases length_of_connPoint h hi with hlen | hlen <;> omega

variable (st : ModemAddress)

/-- The octets that a connection point writes: family, port and address. -/
structure ModemAddress.Shows (found : ModemAddress) (i : DataItem) : Prop where
  family : found.storage.slice 0 2 = (connFamily i).octets
  port : found.storage.slice 2 2 = writeUint16 (connPort i)
  address : found.storage.slice (connFamily i).addressAt (connFamily i).addressSize = connAddress i
  length : found.length = (connFamily i).addressLength

/-- They are written whatever was there before. -/
lemma shows_meet (haddress : (connAddress i).length = (connFamily i).addressSize) :
    (st.meet i).Shows i where
  family := by
    have hat : 4 ≤ (connFamily i).addressAt := by cases connFamily i <;> decide
    rw [ModemAddress.meet, Memory.slice_patch_of_le _ _ (Nat.le_refl 2),
      Memory.slice_patch_of_le _ _ (by omega)]
    cases connFamily i <;> exact Memory.slice_patch _ _ _
  port := Memory.slice_patch _ 2 (writeUint16 (connPort i))
  address := by
    have hat : 4 ≤ (connFamily i).addressAt := by cases connFamily i <;> decide
    rw [ModemAddress.meet, Memory.slice_patch_of_ge _ _ (by simpa using hat), ← haddress]
    exact Memory.slice_patch _ _ _
  length := rfl

/-- Other octets are left as they are. -/
lemma storage_meet_of_outside (haddress : (connAddress i).length = (connFamily i).addressSize)
    {a : ℕ} (ha : 4 ≤ a)
    (hout : a < (connFamily i).addressAt ∨
      (connFamily i).addressAt + (connFamily i).addressSize ≤ a) :
    (st.meet i).storage a = st.storage a := by
  have hfamily : (connFamily i).octets.length = 2 := by cases connFamily i <;> rfl
  simp only [ModemAddress.meet]
  rw [Memory.patch_of_le _ _ (by simpa using ha)]
  rcases hout with hlt | hge
  · rw [Memory.patch_of_lt _ _ hlt, Memory.patch_of_le _ _ (by omega)]
  · rw [Memory.patch_of_le _ _ (by omega), Memory.patch_of_le _ _ (by omega)]

/-- Behind a connection point there is a family, and storing the port once more changes nothing. -/
lemma settleAddress_meet (haddress : (connAddress i).length = (connFamily i).addressSize) :
    settleAddress (st.meet i) = (decide (connPort i ≠ 0), st.meet i) := by
  have hfamily : ¬ ((st.meet i).storage 0 = 0 ∧ (st.meet i).storage 1 = 0) := by
    rintro ⟨h0, -⟩
    have hslice := (shows_meet st haddress).family
    rw [Memory.slice_succ, h0] at hslice
    cases hf : connFamily i <;> rw [hf] at hslice <;> cases hslice
  rw [settleAddress, if_neg hfamily]
  by_cases hport : connPort i = 0
  · have hzero : (st.meet i).port = 0 := hport
    rw [if_pos hzero]
    simp [hport]
  · have hne : (st.meet i).port ≠ 0 := hport
    rw [if_neg hne]
    simp only [ModemAddress.meet, Memory.patch_patch, hport, ne_eq, not_false_eq_true, decide_true]

end Meet

end DlepRouter
