import DlepRouter.Parse.Walks
import DlepRouter.Tlv.Overwrite

/-!
# What the parsers answer

Two of the parsers hand a message to `send` where they meet the MAC address of a destination. Behind
a validator that has accepted the message, what they send is a function of the data items alone, and
so is the status that the parser of a Session Initialization Response keeps.
-/

namespace DlepRouter

open Tlv Scan

namespace ParsedMessage

/-- The message that a parser sends at a data item, if any. -/
def answerTo (k : ParsedMessage) (i : DataItem) : List (List UInt8) :=
  match k, DataItemType.ofCode i.tag with
  | destinationUp, some .macAddress => [destinationUpRespMessage i.body .success]
  | destinationDown, some .macAddress => [destinationDownRespMessage i.body .success]
  | _, _ => []

/-- The messages that a parser sends for a list of data items. -/
def answers (k : ParsedMessage) (is : List DataItem) : List (List UInt8) :=
  is.flatMap k.answerTo

variable (k : ParsedMessage) (m : Memory UInt8) (len : ℕ) (st : InitResp)

/-- At an item whose MAC address, if it is one, has six octets, a parser answers the item. -/
lemma responses_item {v : Visit UInt16}
    (hmac : .macAddress ∈ k.kind.contents.single →
      DataItemType.ofCode v.tag = some .macAddress → v.len = 6) :
    responses ((item st k v).outputs m) = k.answerTo ⟨v.tag, m.slice (v.off + 4) v.len⟩ := by
  cases ht : DataItemType.ofCode v.tag with
  | none =>
    cases k <;> simp [item, answerTo, parseSessionInitRespItem, parseSessionUpdateItem,
      parseDestinationUpItem, parseDestinationUpdateItem, parseDestinationDownItem, ht]
  | some t =>
    cases k with
    | sessionInitResp =>
      simp only [item, answerTo, parseSessionInitRespItem, ht]
      cases t <;> simp
    | sessionUpdate => simp [item, answerTo, parseSessionUpdateItem, ht]
    | destinationUp =>
      simp only [item, answerTo, parseDestinationUpItem, ht]
      cases t with
      | macAddress => simp [hmac (by decide) ht]
      | _ => simp
    | destinationUpdate =>
      simp only [item, answerTo, parseDestinationUpdateItem, ht]
      cases t <;> simp
    | destinationDown =>
      simp only [item, answerTo, parseDestinationDownItem, ht]
      cases t with
      | macAddress => simp [hmac (by decide) ht]
      | _ => simp

/-- Where a message has a MAC address at all, those that are accepted have six octets. -/
lemma length_of_macAddress (h : (k.kind.check len).value m = .success) {v : Visit UInt16}
    (hv : v ∈ dataItemFormat.walk m len 4) (hlisted : .macAddress ∈ k.kind.contents.single)
    (hmac : DataItemType.ofCode v.tag = some .macAddress) : v.len = 6 := by
  have hadm := ((k.kind.check_eq_success_iff m len).mp h).2.1 _ (Format.itemAt_mem_items hv)
  rw [Format.itemAt_of_mem_walk hv] at hadm
  simpa [WellFormed] using Contents.wellFormed_of_admits hadm hmac (.inl hlisted)

/-- What a parser sends for a message that was accepted. -/
theorem responses_parse (h : (k.kind.check len).value m = .success) :
    responses ((k.parse len).outputs m) = k.answers (dataItemFormat.items m len 4) := by
  have hhead := ((k.kind.check_eq_success_iff m len).mp h).1
  have hitem : ∀ v ∈ dataItemFormat.walk m len 4,
      responses (.visit v :: (item .initial k v).outputs m) =
        k.answerTo (dataItemFormat.itemAt m v.off) := by
    intro v hv
    rw [responses_cons_visit, Format.itemAt_of_mem_walk hv]
    exact k.responses_item m _ (k.length_of_macAddress m len h hv)
  rw [k.outputs_parse m len .initial hhead, responses_cons_report, answers, Format.items,
    List.flatMap_map, responses, List.filterMap_flatMap]
  exact List.flatMap_congr hitem

/-- The parser of a Session Initialization Response sends nothing. -/
lemma responses_parseSessionInitResp (h : (checkSessionInitRespMessage len).value m = .success) :
    responses ((parseSessionInitRespMessage 4 (len - 4) .initial).outputs m) = [] := by
  have hparse := responses_parse sessionInitResp m len h
  have hnone : answers sessionInitResp (dataItemFormat.items m len 4) = [] := by
    apply List.flatMap_eq_nil_iff.mpr
    intro _ _
    rfl
  rw [hnone] at hparse
  simpa [parse] using hparse

end ParsedMessage

/-! ### What is kept of a response -/

/-- `sc` is the code in the Status data item. -/
def HasStatus (is : List DataItem) (sc : UInt8) : Prop :=
  ∃ i ∈ is, DataItemType.ofCode i.tag = some .status ∧ i.body.head? = some sc

/-- The only Heartbeat Interval and the only Status among the items say what `resp` holds. -/
structure InitResp.Holds (is : List DataItem) (resp : InitResp) : Prop where
  interval : ∃ l, Contents.payloads .heartbeatInterval is = [l] ∧ l.length = 4 ∧
    bigEndian l = resp.heartbeatInterval.toNat
  status : ∃ text, Contents.payloads .status is = [resp.sc :: text]

lemma InitResp.Holds.hasStatus {is : List DataItem} {resp : InitResp} (h : resp.Holds is) :
    HasStatus is resp.sc := by
  obtain ⟨text, hstatus⟩ := h.status
  obtain ⟨i, hi, hbody⟩ := List.mem_map.mp (hstatus ▸ List.mem_singleton_self (resp.sc :: text))
  obtain ⟨hmem, ht⟩ := List.mem_filter.mp hi
  exact ⟨i, hmem, by simpa using ht, by rw [hbody]; rfl⟩

/-- The items leave no choice. -/
lemma InitResp.Holds.unique {is : List DataItem} {resp resp' : InitResp} (h : resp.Holds is)
    (h' : resp'.Holds is) : resp = resp' := by
  obtain ⟨⟨l, hl, -, hnum⟩, text, htext⟩ := h
  obtain ⟨⟨l', hl', -, hnum'⟩, text', htext'⟩ := h'
  have hinterval : l = l' := List.singleton_inj.mp (hl.symm.trans hl')
  have hstatus : resp.sc :: text = resp'.sc :: text' :=
    List.singleton_inj.mp (htext.symm.trans htext')
  subst hinterval
  obtain ⟨interval, sc⟩ := resp
  obtain ⟨interval', sc'⟩ := resp'
  congr 1
  · exact UInt32.toNat_inj.mp (hnum.symm.trans hnum')
  · exact (List.cons.inj hstatus).1

section InitResp

variable {m : Memory UInt8} {len : ℕ}

lemma sc_parseSessionInitRespItem (st : InitResp) (v : Visit UInt16) :
    ((parseSessionInitRespItem v st).value m).sc =
      if DataItemType.ofCode v.tag = some .status then m (v.off + 4) else st.sc := by
  cases ht : DataItemType.ofCode v.tag with
  | none => simp [parseSessionInitRespItem, ht]
  | some t =>
    simp only [parseSessionInitRespItem, ht]
    cases t <;> simp

lemma heartbeatInterval_parseSessionInitRespItem (st : InitResp) (v : Visit UInt16) :
    ((parseSessionInitRespItem v st).value m).heartbeatInterval =
      if DataItemType.ofCode v.tag = some .heartbeatInterval then
        (readUint32 (v.off + 4)).value m
      else st.heartbeatInterval := by
  cases ht : DataItemType.ofCode v.tag with
  | none => simp [parseSessionInitRespItem, ht]
  | some t =>
    simp only [parseSessionInitRespItem, ht]
    cases t <;> simp

/-- The parser of an accepted Session Initialization Response overwrites both values it is given, by
those of the items that occur once. -/
lemma parseSessionInitResp_holds (h : (checkSessionInitRespMessage len).value m = .success)
    (st : InitResp) :
    ∃ resp, (parseSessionInitRespMessage 4 (len - 4) st).value m = (.success, resp) ∧
      resp.Holds (dataItemFormat.items m len 4) ∧ resp.heartbeatInterval ≠ 0 := by
  obtain ⟨hhead, hacc⟩ := (MessageKind.check_eq_success_iff .sessionInitResp m len).mp h
  have hvalue : (parseSessionInitRespMessage 4 (len - 4) st).value m =
      (.success, (dataItemFormat.walk m len 4).foldl
        (fun st v => (parseSessionInitRespItem v st).value m) st) := by
    simp only [parseSessionInitRespMessage, parseItems, value_bind,
      Nat.add_sub_cancel' hhead.1]
    rw [Walker.value_loop]
    rfl
  obtain ⟨vi, hvi, hinterval, hwfi⟩ := exists_only_visit hacc (t := .heartbeatInterval) (by decide)
  obtain ⟨vs, hvs, hstatus, hwfs⟩ := exists_only_visit hacc (t := .status) (by decide)
  have hlast := foldl_overwrite_of_only (heartbeatInterval_parseSessionInitRespItem (m := m)) hvi st
  have hlast' := foldl_overwrite_of_only (sc_parseSessionInitRespItem (m := m)) hvs st
  obtain ⟨hlen, hpos⟩ := hwfi
  rw [Memory.length_slice] at hlen
  rw [hlen] at hinterval hpos
  have hone : 1 ≤ (m.slice (vs.off + 4) vs.len).length := hwfs
  rw [Memory.length_slice] at hone
  refine ⟨_, hvalue, ⟨⟨_, hinterval, Memory.length_slice .., ?_⟩, ?_⟩, ?_⟩
  · rw [hlast, toNat_readUint32]
  · obtain ⟨n, hn⟩ : ∃ n, vs.len = n + 1 := Nat.exists_eq_add_of_le' hone
    rw [hn, Memory.slice_succ] at hstatus
    exact ⟨_, by rw [hlast', hstatus]⟩
  · rw [hlast]
    intro hzero
    apply hpos
    rw [← toNat_readUint32, hzero]
    rfl

/-- The parser of an accepted Session Initialization Response succeeds and keeps the status. -/
lemma hasStatus_parseSessionInitResp (h : (checkSessionInitRespMessage len).value m = .success) :
    ((parseSessionInitRespMessage 4 (len - 4) .initial).value m).1 = .success ∧
      HasStatus (dataItemFormat.items m len 4)
        ((parseSessionInitRespMessage 4 (len - 4) .initial).value m).2.sc := by
  obtain ⟨resp, hvalue, hholds, -⟩ := parseSessionInitResp_holds h .initial
  rw [hvalue]
  exact ⟨rfl, hholds.hasStatus⟩

end InitResp

end DlepRouter
