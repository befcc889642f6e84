import DlepRouter.Parse.Reported

/-!
# Numbers reported by the parsers

The width of a numeric item is fixed twice: by the validator's length check, and by the function
with which the parser reads it. Where the two agree the number reported is the big-endian value of
the payload. They differ for the MTU, which is checked to be two octets long and read as four.
-/

namespace DlepRouter

open Tlv Scan

/-! ### Numeric items -/

/-- The numbers among the lines printed, with their types. -/
def numbers (rs : List Report) : List (DataItemType × ℕ) :=
  rs.filterMap fun | .number t v => some (t, v) | _ => none

/-- The number that an item stands for, if its type is numeric. -/
def numberOf (i : DataItem) : Option (DataItemType × ℕ) :=
  match DataItemType.ofCode i.tag with
  | some t => if t ∈ numericTypes then some (t, bigEndian i.body) else none
  | none => none

/-- How many octets the parsers read for a number. -/
def readWidth : DataItemType → ℕ
  | .mdrr | .mdrt | .cdrr | .cdrt | .latency => 8
  | .resources | .rlqr | .rlqt => 1
  | .mtu | .heartbeatInterval => 4
  | _ => 0

/-- Every numeric item of a message is reported as the number its whole payload stands for, in
order. All that the parser does behind its opening are its rounds at the items, and in that of a
numeric item it reads no octet outside the payload. -/
structure ReportsNumbers (k : ParsedMessage) (m : Memory UInt8) (len : ℕ) : Prop where
  reported : numbers (reports ((k.parse len).outputs m)) =
    (MessageKind.items m len).filterMap numberOf
  rounds : ∀ st, (k.parse len).trace m =
    k.opening ++ (dataItemFormat.walk m len 4).flatMap (roundCalls m (k.item st))
  within : ∀ st, ∀ v ∈ dataItemFormat.walk m len 4, ∀ t ∈ numericTypes,
    DataItemType.ofCode v.tag = some t →
      ∀ a ∈ (k.item st v).reads m, v.off + 4 ≤ a ∧ a < v.off + 4 + v.len

section Numbers

variable (m : Memory UInt8)

lemma parseNumber_spec {t : DataItemType} (ht : t ∈ MessageKind.metrics) (p : ℕ) :
    (parseNumber t p).outputs m = [.report (.number t (bigEndian (m.slice p (readWidth t))))] ∧
      (parseNumber t p).reads m = List.range' p (readWidth t) := by
  cases t with
  | mdrr | mdrt | cdrr | cdrt | latency =>
    simp [parseNumber, readWidth, toNat_readUint64, print]
  | mtu => simp [parseNumber, readWidth, toNat_readUint32, print]
  | resources | rlqr | rlqt => simp [parseNumber, readWidth, print, Memory.slice_succ]
  | _ => simp [MessageKind.metrics] at ht

/-- The width that the checks demand of a number. -/
lemma length_of_wellFormed {addOnly : Bool} {t : DataItemType} {l : List UInt8}
    (ht : t ∈ numericTypes) (h : WellFormed addOnly t l) :
    l.length = if t = .mtu then 2 else readWidth t := by
  cases t with
  | heartbeatInterval | resources | rlqr | rlqt => exact h.1
  | mdrr | mdrt | cdrr | cdrt | latency | mtu => exact h
  | _ => simp [numericTypes, MessageKind.metrics] at ht

end Numbers

/-! ### The parsers at numeric items -/

namespace ParsedMessage

variable (k : ParsedMessage) (m : Memory UInt8) (st : InitResp) {v : Visit UInt16}
  {t : DataItemType}

/-- At a numeric item, a parser reads and reports so many octets as its read function takes. -/
lemma item_numeric (hv : DataItemType.ofCode v.tag = some t) (ht : t ∈ numericTypes)
    (hlisted : t ∈ k.kind.contents.single ∨ t ∈ k.kind.contents.anyNumber) :
    (item st k v).outputs m =
        [.report (.number t (bigEndian (m.slice (v.off + 4) (readWidth t))))] ∧
      (item st k v).reads m = List.range' (v.off + 4) (readWidth t) := by
  rcases List.mem_cons.mp ht with rfl | hmetric
  · cases k with
    | sessionInitResp =>
      simp [item, parseSessionInitRespItem, hv, readWidth, toNat_readUint32, print]
    | _ => exact absurd hlisted (by decide)
  · have hitem : (parseMetricItem (!k.kind.contents.addOnly) t (v.off + 4) v.len) =
        parseNumber t (v.off + 4) := by
      cases t with
      | ipv4Address | ipv6Address | ipv4AttSubnet | ipv6AttSubnet =>
        exact absurd hmetric (by decide)
      | _ => rfl
    rw [outputs, reads, k.trace_item_metric m st hv (.inl hmetric) hlisted, hitem]
    exact parseNumber_spec m hmetric (v.off + 4)

/-- At other items no number is reported. -/
lemma item_not_numeric (h : ∀ t ∈ numericTypes, DataItemType.ofCode v.tag ≠ some t) :
    numbers (reports ((item st k v).outputs m)) = [] := by
  apply k.filterMap_reports_item m st
  intro t hv r hr
  cases r with
  | number t' n =>
    obtain ⟨ht, -⟩ := List.mem_filter.mp hr
    exact absurd hv (h t ht)
  | _ => rfl

end ParsedMessage

/-! ### Accepted messages -/

section Accepted

variable {k : ParsedMessage} {m : Memory UInt8} {len : ℕ}

/-- A numeric item of an accepted message is listed and has the width its check demands. -/
lemma numeric_of_accepts (hacc : k.kind.contents.Accepts (MessageKind.items m len))
    {v : Visit UInt16} (hv : v ∈ dataItemFormat.walk m len 4) {t : DataItemType}
    (hk : DataItemType.ofCode v.tag = some t) (ht : t ∈ numericTypes) :
    (t ∈ k.kind.contents.single ∨ t ∈ k.kind.contents.anyNumber) ∧
      v.len = if t = .mtu then 2 else readWidth t := by
  have hadm := hacc.1 _ (Format.itemAt_mem_items hv)
  simp only [Format.itemAt_of_mem_walk hv, Contents.Admits, hk] at hadm
  have hlisted : t ∈ k.kind.contents.single ∨ t ∈ k.kind.contents.anyNumber := by
    by_contra hnot
    rw [if_neg hnot] at hadm
    cases k with
    | sessionInitResp =>
      have hall : ∀ t ∈ numericTypes, t ∈ (MessageKind.contents .sessionInitResp).single := by
        decide
      exact hnot (.inl (hall t ht))
    | _ => exact absurd hadm (by decide)
  rw [if_pos hlisted] at hadm
  exact ⟨hlisted, by simpa using length_of_wellFormed ht hadm⟩

/-- What is reported at an item, if the parser reads a number of the right width there or none. -/
lemma numbers_item {v : Visit UInt16}
    (h : ∀ t ∈ numericTypes, DataItemType.ofCode v.tag = some t →
      (t ∈ k.kind.contents.single ∨ t ∈ k.kind.contents.anyNumber) ∧ v.len = readWidth t) :
    numbers (reports ((k.item .initial v).outputs m)) =
      (numberOf ⟨v.tag, m.slice (v.off + 4) v.len⟩).toList := by
  by_cases hnum : ∃ t ∈ numericTypes, DataItemType.ofCode v.tag = some t
  · obtain ⟨t, ht, hk⟩ := hnum
    obtain ⟨hlisted, hlen⟩ := h t ht hk
    simp [(k.item_numeric m .initial hk ht hlisted).1, numbers, numberOf, hk, ht, hlen]
  · have hnone : numberOf ⟨v.tag, m.slice (v.off + 4) v.len⟩ = none := by
      unfold numberOf
      cases hk : DataItemType.ofCode v.tag with
      | none => rfl
      | some t =>
        apply if_neg
        intro ht
        exact hnum ⟨t, ht, hk⟩
    rw [k.item_not_numeric m .initial fun t ht hk => hnum ⟨t, ht, hk⟩]
    exact (congrArg Option.toList hnone).symm

/-- Numbers are reported right exactly in messages without an MTU item. -/
theorem reportsNumbers_iff (hacc : (k.kind.check len).value m = .success) :
    ReportsNumbers k m len ↔
      ∀ i ∈ MessageKind.items m len, i.tag ≠ DataItemType.mtu.code := by
  obtain ⟨hhead, hacc⟩ := (k.kind.check_eq_success_iff m len).mp hacc
  constructor
  · intro h i hi htag
    obtain ⟨v, hv, rfl⟩ := List.mem_map.mp hi
    rw [Format.itemAt_of_mem_walk hv] at htag
    have hk : DataItemType.ofCode v.tag = some .mtu := DataItemType.ofCode_eq_some_iff.mpr htag.symm
    obtain ⟨hlisted, hlen⟩ := numeric_of_accepts hacc hv hk (by decide)
    have hreads := (k.item_numeric m .initial hk (by decide) hlisted).2
    -- The fourth octet of the read lies behind the two of the payload.
    have hlast := h.within .initial v hv .mtu (by decide) hk (v.off + 4 + 3) (by
      rw [hreads]
      simp [readWidth])
    rw [if_pos rfl] at hlen
    omega
  · intro hno
    have hwidth : ∀ v ∈ dataItemFormat.walk m len 4, ∀ t ∈ numericTypes,
        DataItemType.ofCode v.tag = some t →
          (t ∈ k.kind.contents.single ∨ t ∈ k.kind.contents.anyNumber) ∧ v.len = readWidth t := by
      intro v hv t ht hk
      obtain ⟨hlisted, hlen⟩ := numeric_of_accepts hacc hv hk ht
      have hmtu : t ≠ .mtu := by
        rintro rfl
        apply hno _ (Format.itemAt_mem_items hv)
        rw [Format.itemAt_of_mem_walk hv]
        exact (DataItemType.ofCode_eq_some_iff.mp hk).symm
      rw [if_neg hmtu] at hlen
      exact ⟨hlisted, hlen⟩
    refine ⟨?_, fun st => k.trace_parse m len st hhead, ?_⟩
    · exact k.filterMap_reports_parse m rfl hhead fun v hv => numbers_item (hwidth v hv)
    · intro st v hv t ht hk a ha
      obtain ⟨hlisted, hlen⟩ := hwidth v hv t ht hk
      rw [(k.item_numeric m st hk ht hlisted).2, List.mem_range'_1] at ha
      omega

/-- A Session Update with a data rate. -/
def dataRateUpdate : List UInt8 :=
  [0x00, 0x03, 0x00, 0x0C, 0x00, 0x0C, 0x00, 0x08, 0, 0, 0, 0, 0, 0, 0x03, 0xE8]

theorem reportsNumbers_dataRateUpdate :
    ReportsNumbers .sessionUpdate (.overlay dataRateUpdate fun _ => 0) 16 := by
  apply (reportsNumbers_iff (by decide)).mpr
  rw [MessageKind.items, Format.items_of_lt (by decide), Format.items_of_le (by decide)]
  decide

/-- A Session Update with an MTU of 1500. -/
def mtuUpdate : List UInt8 := [0x00, 0x03, 0x00, 0x06, 0x00, 0x14, 0x00, 0x02, 0x05, 0xDC]

/-- The parser of a Session Update reads past an MTU item, whatever lies there. -/
theorem not_reportsNumbers_mtuUpdate :
    ¬ ∀ (k : ParsedMessage) (m : Memory UInt8) (len : ℕ),
      (k.kind.check len).value m = .success → dataItemFormat.Tiles m 4 len →
        ReportsNumbers k m len := by
  intro h
  have hreports := h .sessionUpdate (.overlay mtuUpdate fun _ => 0) 10 (by decide)
    (.item (by decide) (.done 10))
  have hv : (⟨4, 20, 2⟩ : Visit UInt16) ∈
      dataItemFormat.walk (.overlay mtuUpdate fun _ => 0) 10 4 := by
    rw [Format.walk_of_lt (by decide)]
    exact List.mem_cons_self
  exact absurd (hreports.within .initial _ hv .mtu (by decide) (by decide) 11 (by decide))
    (by decide)

end Accepted

end DlepRouter
