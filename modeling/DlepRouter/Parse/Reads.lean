import DlepRouter.Check.Reads
import DlepRouter.Parse.Log

/-!
# Which octets the parsers read

A parser reads the payload of an item as far as the item's type calls for, whatever its declared
length. At most items that is the whole payload; of a Status only the code is read, of a Peer Type
only the text up to a NUL, and of an MTU two octets more than there are.
-/

namespace DlepRouter

open Tlv Scan

/-- How many octets a parser reads from the start of a payload that is declared to have `n` octets
and begins with `l`. -/
def parsedOctets (n : ℕ) (l : List UInt8) : DataItemType → ℕ
  | .status => 1
  | .peerType => 1 + min (n - 1) ((textOf l).length + 1)
  | .mtu => 4
  | .ipv4ConnPoint | .ipv6ConnPoint => 0
  | _ => n

/-! ### Payloads -/

section Payload

variable (m : Memory UInt8) (p n : ℕ)

lemma reads_loadText :
    (loadText p n).reads m =
      List.range' p (min n (((m.slice p n).takeWhile (· ≠ 0)).length + 1)) := by
  induction n generalizing p with
  | zero => rfl
  | succ n ih =>
    by_cases h : m p = 0
    · simp [loadText, Memory.slice_succ, h]
    · simp [loadText, Memory.slice_succ, h, ih, List.range'_succ]

lemma reads_parsePeerType (hn : 1 ≤ n) :
    (parsePeerType p n).reads m = List.range' p (parsedOctets n (m.slice p n) .peerType) := by
  rw [parsedOctets, textOf, Memory.drop_slice m p hn, Nat.add_comm 1, List.range'_succ,
    ← reads_loadText]
  simp [parsePeerType, print]

lemma reads_parseExtensions (k : ℕ) :
    (parseExtensions p k).reads m = List.range' p (2 * k) := by
  induction k generalizing p with
  | zero => rfl
  | succ k ih =>
    rw [parseExtensions, reads_bind, reads_bind, ih, reads_readUint16, Nat.mul_succ,
      Nat.add_comm (2 * k), ← List.range'_append_1]
    rfl

variable {p n} {addOnly : Bool} {t : DataItemType}

/-- An address or a subnet is read to its last octet. -/
lemma last_mem_reads_address (ht : t ∈ MessageKind.addresses)
    (h : WellFormed addOnly t (m.slice p n)) (changeable : Bool) :
    ∃ a ∈ (parseMetricItem changeable t p n).reads m, a + 1 = p + n := by
  have hlen := Memory.length_slice m p n
  cases t with
  | ipv4Address =>
    obtain rfl : n = 5 := hlen.symm.trans h.1
    refine ⟨p + 4, ?_, rfl⟩
    simp [parseMetricItem, parseAddress, print]
  | ipv6Address =>
    obtain rfl : n = 17 := hlen.symm.trans h.1
    refine ⟨p + 16, ?_, rfl⟩
    simp [parseMetricItem, parseAddress, print]
  | ipv4AttSubnet =>
    obtain rfl : n = 6 := hlen.symm.trans h.1
    refine ⟨p + 5, ?_, rfl⟩
    simp [parseMetricItem, parseAttachedSubnet, print]
  | ipv6AttSubnet =>
    obtain rfl : n = 18 := hlen.symm.trans h.1
    refine ⟨p + 17, ?_, rfl⟩
    simp [parseMetricItem, parseAttachedSubnet, print]
  | _ => simp [MessageKind.addresses] at ht

end Payload

/-! ### Items -/

namespace ParsedMessage

variable (k : ParsedMessage) (m : Memory UInt8) (st : InitResp) {v : Visit UInt16}
  {t : DataItemType}

/-- How far a parser reads at a well-formed item of a listed type. -/
lemma reads_item_lt_iff (hv : DataItemType.ofCode v.tag = some t)
    (hlisted : t ∈ k.kind.contents.single ∨ t ∈ k.kind.contents.anyNumber)
    (hwf : WellFormed k.kind.contents.addOnly t (m.slice (v.off + 4) v.len)) {e : ℕ}
    (he : v.off + 4 ≤ e) :
    (∀ a ∈ (item st k v).reads m, a < e) ↔
      v.off + 4 + parsedOctets v.len (m.slice (v.off + 4) v.len) t ≤ e := by
  have hnumber : t ∈ numericTypes →
      ((∀ a ∈ (item st k v).reads m, a < e) ↔ v.off + 4 + readWidth t ≤ e) := by
    intro ht
    rw [(k.item_numeric m st hv ht hlisted).2, forall_range'_lt_iff he]
  have hwidth : t ∈ numericTypes → v.len = if t = .mtu then 2 else readWidth t := by
    intro ht
    simpa using length_of_wellFormed ht hwf
  have haddress : t ∈ MessageKind.addresses →
      ((∀ a ∈ (item st k v).reads m, a < e) ↔ v.off + 4 + v.len ≤ e) := by
    intro ht
    obtain ⟨a, ha, hlast⟩ := last_mem_reads_address m ht hwf !k.kind.contents.addOnly
    have hwithin := (parseMetricItem_address m ht hwf).2
    rw [Scan.reads, k.trace_item_metric m st hv (.inr ht) hlisted, ← Scan.reads]
    constructor
    · intro h
      rw [← hlast]
      exact h a ha
    · intro hle b hb
      exact Nat.lt_of_lt_of_le (hwithin b hb).2 hle
  cases t with
  | mtu => exact hnumber (by decide)
  | heartbeatInterval | mdrr | mdrt | cdrr | cdrt | latency | resources | rlqr | rlqt =>
    have hlen := (hwidth (by decide)).trans (if_neg (by decide))
    rw [hnumber (by decide), ← hlen]
    rfl
  | ipv4Address | ipv6Address | ipv4AttSubnet | ipv6AttSubnet => exact haddress (by decide)
  | ipv4ConnPoint | ipv6ConnPoint => cases k <;> exact absurd hlisted (by decide)
  | macAddress =>
    have hlen : v.len = 6 := by simpa [WellFormed] using hwf
    have hreads : ∀ a, a ∈ (item st k v).reads m ↔ a ∈ List.range' (v.off + 4) v.len := by
      intro a
      rw [hlen]
      cases k with
      | sessionInitResp => exact absurd hlisted (by decide)
      | sessionUpdate => exact absurd hlisted (by decide)
      | destinationUp => simp [item, parseDestinationUpItem, hv, parseMacAddress, print]
      | destinationUpdate => simp [item, parseDestinationUpdateItem, hv, parseMacAddress, print]
      | destinationDown => simp [item, parseDestinationDownItem, hv, parseMacAddress, print]
    simp only [hreads]
    exact forall_range'_lt_iff he _
  | status =>
    cases k with
    | sessionInitResp =>
      have hreads : (item st sessionInitResp v).reads m = List.range' (v.off + 4) 1 := by
        simp [item, parseSessionInitRespItem, hv, print]
      rw [hreads, forall_range'_lt_iff he]
      rfl
    | _ => exact absurd hlisted (by decide)
  | peerType =>
    have hlen : 1 ≤ v.len := by simpa using hwf.1
    cases k with
    | sessionInitResp =>
      rw [← forall_range'_lt_iff he, ← reads_parsePeerType m _ _ hlen]
      simp [item, parseSessionInitRespItem, hv]
    | _ => exact absurd hlisted (by decide)
  | extsSupp =>
    have hlen : v.len % 2 = 0 := by simpa using hwf.1
    cases k with
    | sessionInitResp =>
      have hreads : (item st sessionInitResp v).reads m = List.range' (v.off + 4) v.len := by
        simp [item, parseSessionInitRespItem, hv, reads_parseExtensions,
          show 2 * ((v.len + 1) / 2) = v.len by omega]
      rw [hreads, forall_range'_lt_iff he]
      rfl
    | _ => exact absurd hlisted (by decide)

/-- At an item of another type nothing is read. -/
lemma reads_item_of_not_listed
    (h : ∀ t, DataItemType.ofCode v.tag = some t →
      ¬ (t ∈ k.kind.contents.single ∨ t ∈ k.kind.contents.anyNumber)) :
    (item st k v).reads m = [] := by
  rw [Scan.reads, k.trace_item_of_not_listed m st h]
  rfl

/-- Behind a right header, a parser reads only before `e` if it does so in every round of the walk
of its validator. -/
lemma reads_parse_lt_iff_walk {len e : ℕ} (h : Headed m len k.kind.messageType) (he : 4 ≤ e) :
    (∀ a ∈ (k.parse len).reads m, a < e) ↔
      ∀ v ∈ dataItemFormat.walk m len 4,
        ∀ a ∈ List.range' v.off 4 ++ (item st k v).reads m, a < e := by
  have hopening : ∀ a ∈ loads k.opening, a < e := by
    intro a ha
    have hfield : a = 2 ∨ a = 3 := by
      cases k with
      | sessionInitResp => cases ha
      | _ => simpa [opening, loads] using ha
    omega
  rw [Scan.reads, k.trace_parse m len st h, loads_append, loads_flatMap_roundCalls,
    List.forall_mem_append, and_iff_right hopening, List.forall_mem_flatMap]

/-! ### Messages -/

/-- How many octets a parser reads of the payload at an item. -/
def parsedAt (v : Visit UInt16) : ℕ :=
  match DataItemType.ofCode v.tag with
  | some t =>
    if t ∈ k.kind.contents.single ∨ t ∈ k.kind.contents.anyNumber then
      parsedOctets v.len (m.slice (v.off + 4) v.len) t
    else 0
  | none => 0

/-- At some item, the octets that the parser reads do not end with the message. -/
def RunsPast (len : ℕ) : Prop :=
  ∃ v ∈ dataItemFormat.walk m len 4, len < v.off + 4 + k.parsedAt m v

section Accepted

variable {k m} {len : ℕ} (hacc : k.kind.contents.Accepts (MessageKind.items m len))
  (hv : v ∈ dataItemFormat.walk m len 4)
include hacc hv

/-- How far a parser reads in a round over an accepted message. -/
lemma reads_round_lt_iff {e : ℕ} (he : v.off ≤ e) :
    (∀ a ∈ List.range' v.off 4 ++ (item .initial k v).reads m, a < e) ↔
      v.off + 4 + k.parsedAt m v ≤ e := by
  have hadm := hacc.1 _ (Format.itemAt_mem_items hv)
  rw [Format.itemAt_of_mem_walk hv] at hadm
  rw [List.forall_mem_append, forall_range'_lt_iff he, parsedAt]
  have hnone : (∀ t, DataItemType.ofCode v.tag = some t →
      ¬ (t ∈ k.kind.contents.single ∨ t ∈ k.kind.contents.anyNumber)) →
      (v.off + 4 ≤ e ∧ (∀ a ∈ (item .initial k v).reads m, a < e) ↔ v.off + 4 + 0 ≤ e) := by
    intro h
    rw [k.reads_item_of_not_listed m .initial h]
    exact and_iff_left (List.forall_mem_nil _)
  cases hk : DataItemType.ofCode v.tag with
  | none => exact hnone (by simp [hk])
  | some t =>
    by_cases hlisted : t ∈ k.kind.contents.single ∨ t ∈ k.kind.contents.anyNumber
    · have hwf := Contents.wellFormed_of_admits hadm hk hlisted
      dsimp only
      rw [if_pos hlisted]
      constructor
      · rintro ⟨hhead, hbody⟩
        exact (k.reads_item_lt_iff m .initial hk hlisted hwf hhead).mp hbody
      · intro hle
        have hhead : v.off + 4 ≤ e := Nat.le_trans (Nat.le_add_right _ _) hle
        exact ⟨hhead, (k.reads_item_lt_iff m .initial hk hlisted hwf hhead).mpr hle⟩
    · dsimp only
      rw [if_neg hlisted]
      exact hnone (by simpa [hk] using hlisted)

/-- At an item of an accepted message a parser reads no more than the payload, or the item is an
MTU, and then it reads four octets instead of two. -/
lemma parsedAt_cases :
    v.tag ≠ DataItemType.mtu.code ∧ k.parsedAt m v ≤ v.len ∨
      v.tag = DataItemType.mtu.code ∧ v.len = 2 ∧ k.parsedAt m v = 4 := by
  by_cases hmtu : v.tag = DataItemType.mtu.code
  · have hk : DataItemType.ofCode v.tag = some .mtu :=
      DataItemType.ofCode_eq_some_iff.mpr hmtu.symm
    obtain ⟨hlisted, hlen⟩ := numeric_of_accepts hacc hv hk (by decide)
    refine .inr ⟨hmtu, hlen, ?_⟩
    simp only [parsedAt, hk, if_pos hlisted]
    rfl
  · refine .inl ⟨hmtu, ?_⟩
    have hadm := hacc.1 _ (Format.itemAt_mem_items hv)
    rw [Format.itemAt_of_mem_walk hv] at hadm
    unfold parsedAt
    cases hk : DataItemType.ofCode v.tag with
    | none => exact Nat.zero_le _
    | some t =>
      dsimp only
      split_ifs with hlisted
      · have hwf := Contents.wellFormed_of_admits hadm hk hlisted
        cases t with
        | mtu => exact absurd (DataItemType.ofCode_eq_some_iff.mp hk).symm hmtu
        | status =>
          have hlen : 1 ≤ v.len := by simpa [WellFormed] using hwf
          exact hlen
        | peerType =>
          have hlen : 1 ≤ v.len := by simpa using hwf.1
          simp only [parsedOctets]
          omega
        | ipv4ConnPoint | ipv6ConnPoint => exact Nat.zero_le _
        | _ => exact Nat.le_refl _
      · exact Nat.zero_le _

end Accepted

/-- The parser of an accepted message reads only the message, unless it runs past the end. -/
lemma reads_parse_lt_iff {len : ℕ} (h : (k.kind.check len).value m = .success) :
    (∀ a ∈ (k.parse len).reads m, a < len) ↔ ¬ k.RunsPast m len := by
  obtain ⟨hhead, hacc⟩ := (k.kind.check_eq_success_iff m len).mp h
  rw [k.reads_parse_lt_iff_walk m .initial hhead hhead.1, RunsPast]
  push Not
  apply forall₂_congr
  intro v hv
  exact reads_round_lt_iff hacc hv (Nat.le_of_lt (Format.eq_visitAt_of_mem_walk hv).2)

/-- Where at every item but an MTU no more than the payload is read, an MTU at the end is all that
makes a parser run past the end of tiled octets. -/
lemma exists_past_iff_of_tiles {off stop : ℕ} (htiles : dataItemFormat.Tiles m off stop)
    (hcases : ∀ v ∈ dataItemFormat.walk m stop off,
      v.tag ≠ DataItemType.mtu.code ∧ k.parsedAt m v ≤ v.len ∨
        v.tag = DataItemType.mtu.code ∧ v.len = 2 ∧ k.parsedAt m v = 4) :
    (∃ v ∈ dataItemFormat.walk m stop off, stop < v.off + 4 + k.parsedAt m v) ↔
      ∃ i, (dataItemFormat.items m stop off).getLast? = some i ∧
        i.tag = DataItemType.mtu.code := by
  induction htiles with
  | done off =>
    rw [Format.walk_of_le (Nat.le_refl off), Format.items_of_le (Nat.le_refl off)]
    simp
  | @item off stop hle hrest ih =>
    have hlt : off < stop := Nat.lt_of_lt_of_le (dataItemFormat.lt_next m off) hle
    have hnext : dataItemFormat.next m off =
        (dataItemFormat.visitAt m off).off + 4 + (dataItemFormat.visitAt m off).len := rfl
    rw [Format.walk_of_lt hlt] at hcases
    have hfirst := hcases _ List.mem_cons_self
    have ih := ih fun v hv => hcases v (List.mem_cons_of_mem _ hv)
    rw [Format.walk_of_lt hlt, Format.items_of_lt hlt, List.exists_mem_cons_iff]
    cases hrest with
    | done =>
      rw [Format.walk_of_le (Nat.le_refl _), Format.items_of_le (Nat.le_refl _),
        List.getLast?_singleton]
      have htag : (dataItemFormat.itemAt m off).tag = (dataItemFormat.visitAt m off).tag := rfl
      rcases hfirst with ⟨hne, hread⟩ | ⟨heq, hlen, hread⟩
      · simp [htag, hne]
        omega
      · simp [htag, heq]
        omega
    | item hle' _ =>
      -- The header of the next item lies behind the two octets of an MTU.
      have hheader := Nat.le_trans (Nat.le_add_right _ _) hle'
      have hwithin : ¬ stop < (dataItemFormat.visitAt m off).off + 4 +
          k.parsedAt m (dataItemFormat.visitAt m off) := by
        have hwidth : dataItemFormat.width = 4 := rfl
        rcases hfirst with ⟨-, hread⟩ | ⟨-, hlen, hread⟩
        · omega
        · omega
      have hlt' : dataItemFormat.next m off < stop :=
        Nat.lt_of_lt_of_le (dataItemFormat.lt_next m _) hle'
      rw [or_iff_right hwithin, ih, Format.items_of_lt hlt', List.getLast?_cons_cons]

/-- The parser of an accepted message whose items tile it runs past the end only if the last item is
an MTU. -/
lemma runsPast_iff_of_tiles {len : ℕ} (hacc : k.kind.contents.Accepts (MessageKind.items m len))
    (htiles : dataItemFormat.Tiles m 4 len) :
    k.RunsPast m len ↔
      ∃ i, (MessageKind.items m len).getLast? = some i ∧ i.tag = DataItemType.mtu.code :=
  k.exists_past_iff_of_tiles m htiles fun _ hv => parsedAt_cases hacc hv

end ParsedMessage

/-! ### The Peer Offer -/

/-- The lines that an item of a Peer Offer stands for. -/
def offerLines (i : DataItem) : List Report :=
  match DataItemType.ofCode i.tag with
  | some .peerType => [.peerType (textOf i.body) (i.body.getD 0 0 ≠ 0)]
  | some .ipv4ConnPoint =>
    [.connectionPoint .inet (i.body.getD 0 0 ≠ 0) ((i.body.drop 1).take 4)]
  | some .ipv6ConnPoint =>
    [.connectionPoint .inet6 (i.body.getD 0 0 ≠ 0) ((i.body.drop 1).take 16)]
  | _ => []

section Offer

variable (m : Memory UInt8)

/-- A connection point is shown from its payload, and read in it. -/
lemma scanConnectionPoint_spec (family : Family) {n : ℕ} (storeAt : ℕ) {v : Visit UInt16}
    (hlen : v.len = n + 1 ∨ v.len = n + 3) (st : ModemAddress) :
    reports ((scanConnectionPoint family n storeAt v st).outputs m) =
        [.connectionPoint family ((m.slice (v.off + 4) v.len).getD 0 0 ≠ 0)
          (((m.slice (v.off + 4) v.len).drop 1).take n)] ∧
      ∀ a ∈ (scanConnectionPoint family n storeAt v st).reads m, a < v.off + 4 + v.len := by
  constructor
  · rw [Memory.drop_slice m _ (by omega), Memory.take_slice m _ (by omega),
      getD_slice m _ _ (by omega)]
    simp [scanConnectionPoint]
  · intro a ha
    by_cases h3 : v.len = n + 3
    · simp [scanConnectionPoint, h3, print] at ha
      omega
    · simp [scanConnectionPoint, h3, print] at ha
      omega

/-- At an item of a Peer Offer, the scan prints what the item stands for and reads no octet behind
it. -/
lemma scanPeerOfferItem_spec {v : Visit UInt16}
    (h : OfferItem ⟨v.tag, m.slice (v.off + 4) v.len⟩) (st : ModemAddress) :
    reports ((scanPeerOfferItem v st).outputs m) =
        offerLines ⟨v.tag, m.slice (v.off + 4) v.len⟩ ∧
      ∀ a ∈ (scanPeerOfferItem v st).reads m, a < v.off + 4 + v.len := by
  obtain ⟨t, ht, hk, hwf⟩ := offerItem_iff.mp h
  have hlen := Memory.length_slice m (v.off + 4) v.len
  simp only [scanPeerOfferItem, offerLines, hk]
  cases t with
  | peerType =>
    have hone : 1 ≤ v.len := by simpa using hwf.1
    refine ⟨?_, ?_⟩
    · rw [← reports_parsePeerType m _ _ hone]
      simp
    · intro a ha
      simp only [reads_bind, reads_parsePeerType m _ _ hone, Interaction.Program.pure_eq_ret,
        reads_ret, List.append_nil, List.mem_range'_1, parsedOctets] at ha
      omega
  | ipv4ConnPoint => exact scanConnectionPoint_spec m .inet 4 (hlen ▸ hwf.1) st
  | ipv6ConnPoint => exact scanConnectionPoint_spec m .inet6 8 (hlen ▸ hwf.1) st
  | _ => simp [offerTypes] at ht

/-- The scan of an accepted Peer Offer reads nothing behind the datagram. -/
lemma reads_scanPeerOffer_lt {m : Memory UInt8} {len : ℕ}
    (h : (checkPeerOfferSignal len).value m = .success) (st : ModemAddress) :
    ∀ a ∈ (scanPeerOffer len st).reads m, a < len := by
  have hitem := fun v (hv : v ∈ dataItemFormat.walk m len 8) =>
    (scanPeerOfferItem_spec m (offerItem_of_walk m len h hv) st).2
  rw [value_checkPeerOfferSignal, verdict_eq_success] at h
  obtain ⟨hhead, -, hend⟩ := h
  have htiles : dataItemFormat.Tiles m 8 len := Format.tiles_iff_walkEnd.mpr ⟨hhead.1, hend⟩
  rw [Scan.reads, trace_scanPeerOffer m len hhead.1 st st, loads_flatMap_roundCalls,
    List.forall_mem_flatMap]
  intro v hv
  have hle : v.off + 4 + v.len ≤ len := Format.end_le_of_tiles htiles hv
  rw [List.forall_mem_append]
  constructor
  · intro a ha
    have hlt := (List.mem_range'_1.mp ha).2
    omega
  · intro a ha
    exact Nat.lt_of_lt_of_le (hitem v hv a ha) hle

/-- The scan of an accepted Peer Offer prints, in the order of its items, what they stand for, and
reads nothing behind the datagram. -/
theorem scanPeerOffer_spec (len : ℕ) (h : (checkPeerOfferSignal len).value m = .success)
    (st : ModemAddress) :
    reports ((scanPeerOffer len st).outputs m) = (offerItems m len).flatMap offerLines ∧
      ∀ a ∈ (scanPeerOffer len st).reads m, a < len := by
  have hitem := fun v (hv : v ∈ dataItemFormat.walk m len 8) =>
    (scanPeerOfferItem_spec m (offerItem_of_walk m len h hv) st).1
  refine ⟨?_, reads_scanPeerOffer_lt h st⟩
  rw [value_checkPeerOfferSignal, verdict_eq_success] at h
  rw [outputs_scanPeerOffer m len h.1.1, offerItems, Format.items, List.flatMap_map, reports,
    List.filterMap_flatMap]
  apply List.flatMap_congr
  intro v hv
  rw [Format.itemAt_of_mem_walk hv]
  exact hitem v hv

/-- A Peer Offer with a connection point that asks for TLS. -/
def securedOffer : List UInt8 :=
  [0x44, 0x4C, 0x45, 0x50, 0x00, 0x02, 0x00, 0x09, 0x00, 0x02, 0x00, 0x05, 1, 192, 0, 2, 1]

theorem scanPeerOffer_securedOffer :
    reports ((scanPeerOffer 17 ⟨fun _ => 0, 0, 0⟩).outputs (.overlay securedOffer fun _ => 0)) =
        [.connectionPoint .inet true [192, 0, 2, 1]] ∧
      ∀ a ∈ (scanPeerOffer 17 ⟨fun _ => 0, 0, 0⟩).reads (.overlay securedOffer fun _ => 0),
        a < 17 := by
  obtain ⟨hlog, hreads⟩ := scanPeerOffer_spec (.overlay securedOffer fun _ => 0) 17 (by decide)
    ⟨fun _ => 0, 0, 0⟩
  refine ⟨?_, hreads⟩
  rw [hlog, offerItems, Format.items_of_lt (by decide), Format.items_of_le (by decide)]
  decide

end Offer

end DlepRouter
