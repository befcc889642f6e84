import DlepRouter.Parse.Walks

/-!
# The lines printed at an item

Every line that a parser prints at a data item is one of those that belong to the type of the item.
What a parser prints of one kind can therefore be found item by item.
-/

namespace DlepRouter

open Tlv Scan

/-- The types whose payload is a number. -/
def numericTypes : List DataItemType := .heartbeatInterval :: MessageKind.metrics

/-- The types of data item at which a line can be printed. -/
def Report.itemTypes : Report → List DataItemType
  | .received _ => []
  | .number t _ => numericTypes.filter (· = t)
  | .peerType .. => [.peerType]
  | .status _ => [.status]
  | .extension _ => [.extsSupp]
  | .macAddress _ => [.macAddress]
  | .address .. => [.ipv4Address, .ipv6Address]
  | .attachedSubnet .. => [.ipv4AttSubnet, .ipv6AttSubnet]
  | .connectionPoint .. => [.ipv4ConnPoint, .ipv6ConnPoint]

section Items

variable (m : Memory UInt8)

lemma itemTypes_parseExtensions (p n : ℕ) :
    ∀ r ∈ reports ((parseExtensions p n).outputs m), .extsSupp ∈ r.itemTypes := by
  induction n generalizing p with
  | zero => simp [parseExtensions]
  | succ n ih => simpa [parseExtensions, Report.itemTypes] using ih (p + 2)

lemma itemTypes_parseMetricItem (changeable : Bool) (t : DataItemType) (p n : ℕ) :
    ∀ r ∈ reports ((parseMetricItem changeable t p n).outputs m), t ∈ r.itemTypes := by
  cases t with
  | ipv4Address | ipv6Address =>
    simp only [parseMetricItem, parseAddress, outputs_bind, outputs_parseAction, outputs_ite]
    split_ifs <;> simp [Report.itemTypes]
  | ipv4AttSubnet | ipv6AttSubnet =>
    simp only [parseMetricItem, parseAttachedSubnet, outputs_bind, outputs_parseAction,
      outputs_ite]
    split_ifs <;> simp [Report.itemTypes]
  | _ =>
    simp [parseMetricItem, parseNumber, Report.itemTypes, numericTypes, MessageKind.metrics]

/-- The lines of a kind, where at every item visited there is at most one. -/
lemma filterMap_reports_flatMap {γ : Type} {pick : Report → Option γ}
    {out : Visit UInt16 → List Output} {f : Visit UInt16 → Option γ} {vs : List (Visit UInt16)}
    (h : ∀ v ∈ vs, (reports (out v)).filterMap pick = (f v).toList) :
    (reports (vs.flatMap fun v => .visit v :: out v)).filterMap pick = vs.filterMap f := by
  induction vs with
  | nil => rfl
  | cons v vs ih =>
    rw [List.flatMap_cons, List.cons_append, reports_cons_visit, reports_append,
      List.filterMap_append, h v List.mem_cons_self,
      ih fun v hv => h v (List.mem_cons_of_mem _ hv), List.filterMap_cons]
    cases f v <;> rfl

end Items

namespace ParsedMessage

variable (k : ParsedMessage) (m : Memory UInt8) {len : ℕ}

/-- What a parser prints at an item belongs to the item's type. -/
lemma itemTypes_item (st : InitResp) (v : Visit UInt16) :
    ∀ r ∈ reports ((item st k v).outputs m),
      ∃ t, DataItemType.ofCode v.tag = some t ∧ t ∈ r.itemTypes := by
  cases hv : DataItemType.ofCode v.tag with
  | none =>
    cases k <;> simp [item, parseSessionInitRespItem, parseSessionUpdateItem,
      parseDestinationUpItem, parseDestinationUpdateItem, parseDestinationDownItem, hv]
  | some t =>
    suffices ∀ r ∈ reports ((item st k v).outputs m), t ∈ r.itemTypes by simpa using this
    have hmetric := itemTypes_parseMetricItem m
    cases k with
    | sessionInitResp =>
      cases t with
      | extsSupp =>
        simpa [item, parseSessionInitRespItem, hv] using
          itemTypes_parseExtensions m (v.off + 4) ((v.len + 1) / 2)
      | heartbeatInterval | peerType | status =>
        simp [item, parseSessionInitRespItem, hv, parsePeerType, Report.itemTypes, numericTypes]
      | _ => simpa [item, parseSessionInitRespItem, hv] using hmetric false _ _ _
    | sessionUpdate => simpa [item, parseSessionUpdateItem, hv] using hmetric true _ _ _
    | destinationUp =>
      cases t with
      | macAddress => simp [item, parseDestinationUpItem, hv, parseMacAddress, Report.itemTypes]
      | _ => simpa [item, parseDestinationUpItem, hv] using hmetric false _ _ _
    | destinationUpdate =>
      cases t with
      | macAddress =>
        simp [item, parseDestinationUpdateItem, hv, parseMacAddress, Report.itemTypes]
      | _ => simpa [item, parseDestinationUpdateItem, hv] using hmetric true _ _ _
    | destinationDown =>
      cases t with
      | macAddress =>
        simp [item, parseDestinationDownItem, hv, parseMacAddress, Report.itemTypes]
      | _ => simp [item, parseDestinationDownItem, hv]

variable {γ : Type} {pick : Report → Option γ}

/-- No line of a kind is printed at an item to whose type the kind does not belong. -/
lemma filterMap_reports_item (st : InitResp) {v : Visit UInt16}
    (h : ∀ t, DataItemType.ofCode v.tag = some t → ∀ r : Report, t ∈ r.itemTypes → pick r = none) :
    (reports ((item st k v).outputs m)).filterMap pick = [] := by
  apply List.filterMap_eq_nil_iff.mpr
  intro r hr
  obtain ⟨t, hv, ht⟩ := k.itemTypes_item m st v r hr
  exact h t hv r ht

/-- If a parser prints one line of a kind at every item that stands for something, then the lines
of that kind are those that the items stand for, in order. -/
lemma filterMap_reports_parse {f : DataItem → Option γ}
    (hreceived : pick (.received k.kind.messageType) = none)
    (hhead : Headed m len k.kind.messageType)
    (hitem : ∀ v ∈ dataItemFormat.walk m len 4,
      (reports ((item .initial k v).outputs m)).filterMap pick =
        (f ⟨v.tag, m.slice (v.off + 4) v.len⟩).toList) :
    (reports ((k.parse len).outputs m)).filterMap pick =
      (MessageKind.items m len).filterMap f := by
  have hall : ∀ v ∈ dataItemFormat.walk m len 4,
      (reports ((item .initial k v).outputs m)).filterMap pick =
        (f (dataItemFormat.itemAt m v.off)).toList := by
    intro v hv
    rw [Format.itemAt_of_mem_walk hv]
    exact hitem v hv
  rw [k.outputs_parse m len .initial hhead, reports_cons_report, List.filterMap_cons, hreceived,
    MessageKind.items, Format.items, List.filterMap_map]
  exact filterMap_reports_flatMap hall

end ParsedMessage

end DlepRouter
