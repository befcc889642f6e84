import DlepRouter.Parse.Addresses
import DlepRouter.Parse.Numbers
import DlepRouter.Tlv.Overrun

/-!
# The log of an accepted message

What is printed for a message that was accepted is decided by its data items: every item of a listed
type stands for certain lines, and these are printed in the order of the items. Only an MTU is
printed with octets that are not its own, the two that follow.
-/

namespace DlepRouter

open Tlv Scan

/-! ### Lines and items -/

/-- The text behind the flags of a Peer Type, up to a NUL. -/
def textOf (l : List UInt8) : List UInt8 :=
  (l.drop 1).takeWhile (· ≠ 0)

/-- The lines that the payload `l` of an item of type `t` stands for, if the octets `behind` follow
it. -/
def linesOf (addOnly : Bool) (t : DataItemType) (l behind : List UInt8) : List Report :=
  match t with
  | .status => [.status (l.getD 0 0)]
  | .peerType => [.peerType (textOf l) (l.getD 0 0 ≠ 0)]
  | .extsSupp => (extensionIds l).map fun id => .extension (UInt16.ofNat id)
  | .macAddress => [.macAddress l]
  | .mtu => [.number .mtu (bigEndian (l ++ behind.take 2))]
  | .ipv4Address | .ipv6Address | .ipv4AttSubnet | .ipv6AttSubnet => (addressIn addOnly t l).toList
  | .ipv4ConnPoint | .ipv6ConnPoint => []
  | t => [.number t (bigEndian l)]

namespace Contents

variable (c : Contents)

/-- The lines that an item stands for: none, if its type is not listed. -/
def lines (i : DataItem) (behind : List UInt8) : List Report :=
  match DataItemType.ofCode i.tag with
  | some t => if t ∈ c.single ∨ t ∈ c.anyNumber then linesOf c.addOnly t i.body behind else []
  | none => []

/-- The lines that the items stand for, where the octets `rest` follow the last of them. -/
def log (rest : List UInt8) : List DataItem → List Report
  | [] => []
  | i :: is => c.lines i (dataItemFormat.encodeAll is ++ rest) ++ log rest is

variable {c} in
/-- Only the first two octets behind an item matter. -/
lemma lines_congr {i : DataItem} {behind behind' : List UInt8}
    (h : behind.take 2 = behind'.take 2) : c.lines i behind = c.lines i behind' := by
  unfold lines
  cases DataItemType.ofCode i.tag with
  | none => rfl
  | some t => cases t <;> simp only [linesOf, h]

variable (m : Memory UInt8)

/-- The lines that stand for the items of a walk, one item after the other. -/
lemma flatMap_lines_walk (stop off : ℕ) :
    ((dataItemFormat.walk m stop off).flatMap fun v =>
        c.lines (dataItemFormat.itemAt m v.off) (m.slice (dataItemFormat.next m v.off) 2)) =
      c.log (m.slice (dataItemFormat.walkEnd m stop off) 2) (dataItemFormat.items m stop off) := by
  induction off using Format.walk_induction dataItemFormat m stop with
  | round off h ih =>
    have hle := Format.le_walkEnd (F := dataItemFormat) (m := m) stop (dataItemFormat.next m off)
    rw [Format.walk_of_lt h, Format.walkEnd_of_lt h, Format.items_of_lt h, List.flatMap_cons, ih,
      log, Format.encodeAll_items]
    congr 1
    apply lines_congr
    obtain ⟨d, hd⟩ := Nat.exists_eq_add_of_le hle
    rw [hd, Nat.add_sub_cancel_left, ← Memory.slice_add,
      Memory.take_slice m _ (Nat.le_add_left 2 d), Memory.take_slice m _ (Nat.le_refl 2)]
    rfl
  | done off h =>
    rw [Format.walk_of_le h, Format.items_of_le h]
    rfl

end Contents

/-! ### What is printed at an item -/

section Items

variable (m : Memory UInt8) (p n : ℕ)

/-- The text ends at a NUL. -/
lemma value_loadText : (loadText p n).value m = (m.slice p n).takeWhile (· ≠ 0) := by
  induction n generalizing p with
  | zero => rfl
  | succ n ih =>
    by_cases h : m p = 0
    · simp [loadText, Memory.slice_succ, h]
    · simp [loadText, Memory.slice_succ, h, ih]

lemma reports_parsePeerType (hn : 1 ≤ n) :
    reports ((parsePeerType p n).outputs m) =
      [.peerType (textOf (m.slice p n)) ((m.slice p n).getD 0 0 ≠ 0)] := by
  rw [textOf, Memory.drop_slice m p hn, getD_slice m p n hn]
  simp [parsePeerType, value_loadText]

lemma reports_parseExtensions (k : ℕ) :
    reports ((parseExtensions p k).outputs m) = (List.range k).map fun i =>
      .extension (UInt16.ofNat (bigEndian (m.slice (p + 2 * i) 2))) := by
  induction k generalizing p with
  | zero => rfl
  | succ k ih =>
    have hstep : ∀ i, p + 2 * (i + 1) = p + 2 + 2 * i := fun i => by ring
    rw [List.range_succ_eq_map, List.map_cons, List.map_map]
    simp [parseExtensions, ih, hstep, ← toNat_readUint16]

/-- The ids that are printed are those that the check has looked at. -/
lemma reports_parseExtensions_payload (hn : n % 2 = 0) :
    reports ((parseExtensions p ((n + 1) / 2)).outputs m) =
      (extensionIds (m.slice p n)).map fun id => .extension (UInt16.ofNat id) := by
  rw [reports_parseExtensions, extensionIds, Memory.length_slice, List.map_map,
    show (n + 1) / 2 = n / 2 by omega]
  apply List.map_congr_left
  intro i hi
  have hlt := List.mem_range.mp hi
  rw [Function.comp_apply, Memory.drop_slice m p (by omega), Memory.take_slice m _ (by omega)]

end Items

namespace ParsedMessage

variable (k : ParsedMessage) (m : Memory UInt8) (st : InitResp) {v : Visit UInt16}
  {t : DataItemType}

/-- At a well-formed item of a listed type, a parser prints the lines that the item stands for. -/
lemma reports_item (hv : DataItemType.ofCode v.tag = some t)
    (hlisted : t ∈ k.kind.contents.single ∨ t ∈ k.kind.contents.anyNumber)
    (hwf : WellFormed k.kind.contents.addOnly t (m.slice (v.off + 4) v.len)) :
    reports ((item st k v).outputs m) =
      linesOf k.kind.contents.addOnly t (m.slice (v.off + 4) v.len)
        (m.slice (v.off + 4 + v.len) 2) := by
  have hnumber : t ∈ numericTypes → reports ((item st k v).outputs m) =
      [.number t (bigEndian (m.slice (v.off + 4) (readWidth t)))] := by
    intro ht
    rw [(k.item_numeric m st hv ht hlisted).1]
    rfl
  have hwidth : t ∈ numericTypes → v.len = if t = .mtu then 2 else readWidth t := by
    intro ht
    simpa using length_of_wellFormed ht hwf
  have haddress : t ∈ MessageKind.addresses → reports ((item st k v).outputs m) =
      (addressIn k.kind.contents.addOnly t (m.slice (v.off + 4) v.len)).toList := by
    intro ht
    obtain ⟨⟨r, hr, -, hout⟩, -⟩ := parseMetricItem_address m ht hwf
    rw [Scan.outputs, k.trace_item_metric m st hv (.inr ht) hlisted, ← Scan.outputs, hout, hr]
    rfl
  cases t with
  | mtu =>
    have hlen := hwidth (by decide)
    rw [hnumber (by decide), linesOf, Memory.take_slice m _ (Nat.le_refl 2), ← Memory.slice_add,
      hlen]
    rfl
  | heartbeatInterval | mdrr | mdrt | cdrr | cdrt | latency | resources | rlqr | rlqt =>
    have hlen := (hwidth (by decide)).trans (if_neg (by decide))
    rw [hnumber (by decide), ← hlen]
    rfl
  | ipv4Address | ipv6Address | ipv4AttSubnet | ipv6AttSubnet => exact haddress (by decide)
  | ipv4ConnPoint | ipv6ConnPoint => cases k <;> exact absurd hlisted (by decide)
  | macAddress =>
    have hlen : v.len = 6 := by simpa [WellFormed] using hwf
    cases k with
    | sessionInitResp => exact absurd hlisted (by decide)
    | sessionUpdate => exact absurd hlisted (by decide)
    | destinationUp | destinationUpdate | destinationDown =>
      simp [item, parseDestinationUpItem, parseDestinationUpdateItem, parseDestinationDownItem, hv,
        parseMacAddress, linesOf, hlen]
  | status =>
    have hlen : 1 ≤ v.len := by simpa [WellFormed] using hwf
    cases k with
    | sessionInitResp =>
      rw [linesOf, getD_slice m _ _ hlen]
      simp [item, parseSessionInitRespItem, hv]
    | _ => exact absurd hlisted (by decide)
  | peerType =>
    have hlen : 1 ≤ v.len := by simpa using hwf.1
    cases k with
    | sessionInitResp =>
      rw [linesOf, ← reports_parsePeerType m _ _ hlen]
      simp [item, parseSessionInitRespItem, hv]
    | _ => exact absurd hlisted (by decide)
  | extsSupp =>
    have hlen : v.len % 2 = 0 := by simpa using hwf.1
    cases k with
    | sessionInitResp =>
      rw [linesOf, ← reports_parseExtensions_payload m _ _ hlen]
      simp [item, parseSessionInitRespItem, hv]
    | _ => exact absurd hlisted (by decide)

/-- At an item of another type nothing is printed. -/
lemma trace_item_of_not_listed
    (h : ∀ t, DataItemType.ofCode v.tag = some t →
      ¬ (t ∈ k.kind.contents.single ∨ t ∈ k.kind.contents.anyNumber)) :
    (item st k v).trace m = [] := by
  by_contra hact
  obtain ⟨t, hv, hlisted⟩ := k.listed_of_trace_item m st hact
  exact h t hv hlisted

end ParsedMessage

/-! ### Accepted messages -/

section Accepted

variable (k : ParsedMessage) (m : Memory UInt8) (len : ℕ)

/-- What is printed at an item of an accepted message. -/
lemma reports_item_of_accepts (hacc : k.kind.contents.Accepts (MessageKind.items m len))
    {v : Visit UInt16} (hv : v ∈ dataItemFormat.walk m len 4) :
    reports ((k.item .initial v).outputs m) =
      k.kind.contents.lines (dataItemFormat.itemAt m v.off)
        (m.slice (dataItemFormat.next m v.off) 2) := by
  have hadm := hacc.1 _ (Format.itemAt_mem_items hv)
  have hnext : dataItemFormat.next m v.off = v.off + 4 + v.len := by
    conv_rhs => rw [(Format.eq_visitAt_of_mem_walk hv).1]
    rfl
  rw [Format.itemAt_of_mem_walk hv] at hadm ⊢
  rw [hnext, Contents.lines]
  cases hk : DataItemType.ofCode v.tag with
  | none =>
    have hnone := k.trace_item_of_not_listed m .initial (v := v) (by simp [hk])
    simp [Scan.outputs, hnone]
  | some t =>
    by_cases hlisted : t ∈ k.kind.contents.single ∨ t ∈ k.kind.contents.anyNumber
    · dsimp only
      rw [if_pos hlisted]
      exact k.reports_item m .initial hk hlisted (Contents.wellFormed_of_admits hadm hk hlisted)
    · have hnone := k.trace_item_of_not_listed m .initial (v := v) (by simpa [hk] using hlisted)
      simp [hlisted, Scan.outputs, hnone]

/-- The log of an accepted message is the line that announces it and, in the order of its items, the
lines that these stand for. -/
theorem reports_parse_eq_log (h : (k.kind.check len).value m = .success) :
    reports ((k.parse len).outputs m) =
      .received k.kind.messageType ::
        k.kind.contents.log (m.slice (dataItemFormat.walkEnd m len 4) 2)
          (MessageKind.items m len) := by
  obtain ⟨hhead, hacc⟩ := (k.kind.check_eq_success_iff m len).mp h
  rw [k.outputs_parse m len .initial hhead, reports_cons_report, ← Contents.flatMap_lines_walk,
    reports, List.filterMap_flatMap]
  congr 1
  apply List.flatMap_congr
  intro v hv
  exact reports_item_of_accepts k m len hacc hv

/-- A Destination Up with a MAC address and, at the end, an MTU of 1500. -/
def mtuDestination : List UInt8 :=
  [0x00, 0x07, 0x00, 0x10, 0x00, 0x07, 0x00, 0x06, 2, 0, 0, 0, 0, 1, 0x00, 0x14, 0x00, 0x02, 0x05,
    0xDC]

/-- The MTU is printed as 1500 times 65536 if zeros lie behind the message. -/
theorem reports_parse_mtuDestination :
    reports ((ParsedMessage.destinationUp.parse 20).outputs (.overlay mtuDestination fun _ => 0)) =
      [.received .destUp, .macAddress [2, 0, 0, 0, 0, 1], .number .mtu 98304000] := by
  have htiles : dataItemFormat.Tiles (.overlay mtuDestination fun _ => 0) 4 20 :=
    .item (by decide) (.item (by decide) (.done 20))
  rw [reports_parse_eq_log .destinationUp _ 20 (by decide), (Format.tiles_iff_walkEnd.mp htiles).2,
    MessageKind.items, Format.items_of_lt (by decide), Format.items_of_lt (by decide),
    Format.items_of_le (by decide)]
  decide

end Accepted

end DlepRouter
