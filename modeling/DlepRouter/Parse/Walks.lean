import DlepRouter.Check.PeerOffer
import DlepRouter.Check.Validators
import DlepRouter.Parse.Offer

/-!
# Parsers follow their validators

A parser has no test of its own: it relies on the walk that the validator made over the same
message. Both walks are `Format.walk`, although they state their start and end differently, and a
parser does something at an item only if the item's type has a check and that check succeeded.
-/

namespace DlepRouter

open Tlv Scan

/-! ### What a parser does at an item -/

section Items

variable {m : Memory UInt8} {α : Type}

/-- Nothing but printed lines is emitted. -/
def Prints (m : Memory UInt8) (p : Reader α) : Prop :=
  ∀ o ∈ p.outputs m, ∃ r, o = .report r

@[simp] lemma Prints.visits {p : Reader α} (h : Prints m p) : visits (p.outputs m) = [] := by
  apply List.filterMap_eq_nil_iff.mpr
  intro o ho
  obtain ⟨r, rfl⟩ := h o ho
  rfl

@[simp] lemma Prints.responses {p : Reader α} (h : Prints m p) : responses (p.outputs m) = [] := by
  apply List.filterMap_eq_nil_iff.mpr
  intro o ho
  obtain ⟨r, rfl⟩ := h o ho
  rfl

@[simp] lemma outputs_print (r : Report) : (print r).outputs m = [.report r] := rfl

@[simp] lemma outputs_loadText (p n : ℕ) : (loadText p n).outputs m = [] := by
  induction n generalizing p with
  | zero => rfl
  | succ n ih => simp [loadText, ih]

@[simp] lemma prints_parsePeerType (p n : ℕ) : Prints m (parsePeerType p n) := by
  simp [Prints, parsePeerType]

@[simp] lemma prints_parseExtensions (p n : ℕ) : Prints m (parseExtensions p n) := by
  induction n generalizing p with
  | zero => simp [Prints, parseExtensions]
  | succ n ih => simpa [Prints, parseExtensions] using ih (p + 2)

@[simp] lemma prints_parseMacAddress (p : ℕ) : Prints m (parseMacAddress p) := by
  simp [Prints, parseMacAddress]

@[simp] lemma outputs_parseAction (p : ℕ) (changeable : Bool) :
    (parseAction p changeable).outputs m = [] := by
  simp [parseAction]

@[simp] lemma prints_parseMetricItem (changeable : Bool) (t : DataItemType) (p n : ℕ) :
    Prints m (parseMetricItem changeable t p n) := by
  cases t with
  | ipv4Address | ipv6Address =>
    simp only [Prints, parseMetricItem, parseAddress, outputs_bind, outputs_parseAction,
      outputs_ite]
    split_ifs <;> simp
  | ipv4AttSubnet | ipv6AttSubnet =>
    simp only [Prints, parseMetricItem, parseAttachedSubnet, outputs_bind, outputs_parseAction,
      outputs_ite]
    split_ifs <;> simp
  | _ => simp [Prints, parseMetricItem, parseNumber]

variable (m)

/-- The calls of a round of a parser: the header of the item is read, its visit is marked, and then
comes what the parser does there. -/
def roundCalls (item : Visit UInt16 → Reader α) (v : Visit UInt16) : List (ScanOp Output) :=
  (List.range' v.off 4).map .load ++ .emit (.visit v) :: (item v).trace m

lemma emitted_flatMap_roundCalls (item : Visit UInt16 → Reader α) (vs : List (Visit UInt16)) :
    emitted (vs.flatMap (roundCalls m item)) =
      vs.flatMap fun v => .visit v :: (item v).outputs m := by
  rw [emitted, List.filterMap_flatMap]
  apply List.flatMap_congr
  intro v _
  exact (emitted_append ..).trans (congrArg (· ++ _) (emitted_map_load _))

lemma loads_flatMap_roundCalls (item : Visit UInt16 → Reader α) (vs : List (Visit UInt16)) :
    loads (vs.flatMap (roundCalls m item)) =
      vs.flatMap fun v => List.range' v.off 4 ++ (item v).reads m := by
  rw [loads, List.filterMap_flatMap]
  apply List.flatMap_congr
  intro v _
  exact (loads_append ..).trans (congrArg (· ++ _) (loads_map_load _))

/-- A parser's loop goes over the walk, and does in each round what its body does at the item. -/
lemma trace_parseItems {S : Type} {body : Visit UInt16 → S → Reader S}
    {item : Visit UInt16 → Reader α} (hbody : ∀ v st, (body v st).trace m = (item v).trace m)
    (items len : ℕ) (st : S) :
    (parseItems body items len st).trace m =
      (dataItemFormat.walk m (items + len) items).flatMap (roundCalls m item) := by
  simp only [parseItems, trace_bind, Interaction.Program.pure_eq_ret, trace_ret, List.append_nil]
  exact Walker.trace_loop m hbody (items + len) items st

lemma visits_flatMap {out : Visit UInt16 → List Output} (hout : ∀ v, visits (out v) = [])
    (vs : List (Visit UInt16)) : visits (vs.flatMap fun v => .visit v :: out v) = vs := by
  induction vs with
  | nil => rfl
  | cons v vs ih => simp [hout, ih]

end Items

/-! ### The five parsers -/

/-- The messages that have a parser. -/
inductive ParsedMessage where
  | sessionInitResp
  | sessionUpdate
  | destinationUp
  | destinationUpdate
  | destinationDown
  deriving DecidableEq

namespace ParsedMessage

def kind : ParsedMessage → MessageKind
  | sessionInitResp => .sessionInitResp
  | sessionUpdate => .sessionUpdate
  | destinationUp => .destinationUp
  | destinationUpdate => .destinationUpdate
  | destinationDown => .destinationDown

/-- What the parser of a message does at an item, having kept the values `st` so far. -/
def item (st : InitResp) : ParsedMessage → Visit UInt16 → Reader Unit
  | sessionInitResp, v => parseSessionInitRespItem v st >>= fun _ => pure ()
  | sessionUpdate, v => parseSessionUpdateItem v
  | destinationUp, v => parseDestinationUpItem v
  | destinationUpdate, v => parseDestinationUpdateItem v
  | destinationDown, v => parseDestinationDownItem v

/-- The parser of a message of `len` octets as its caller runs it: `session` passes the length
received, `handle_message` the length field. -/
def parse : ParsedMessage → ℕ → Reader Unit
  | sessionInitResp, len => parseSessionInitRespMessage 4 (len - 4) .initial >>= fun _ => pure ()
  | sessionUpdate, _ => do
    let msgLen ← readUint16 2
    parseSessionUpdateMessage 4 msgLen.toNat
  | destinationUp, _ => do
    let msgLen ← readUint16 2
    parseDestinationUpMessage 4 msgLen.toNat
  | destinationUpdate, _ => do
    let msgLen ← readUint16 2
    parseDestinationUpdateMessage 4 msgLen.toNat
  | destinationDown, _ => do
    let msgLen ← readUint16 2
    parseDestinationDownMessage 4 msgLen.toNat

/-- What a parser does before its loop: the length field is read, unless the caller knows the length
from elsewhere, and the message is announced. -/
def opening (k : ParsedMessage) : List (ScanOp Output) :=
  (if k = sessionInitResp then [] else [.load 2, .load 3]) ++
    [.emit (.report (.received k.kind.messageType))]

variable (k : ParsedMessage) (m : Memory UInt8) (len : ℕ) (st : InitResp)

lemma visits_item (v : Visit UInt16) : visits ((item st k v).outputs m) = [] := by
  cases k with
  | sessionInitResp =>
    simp only [item, parseSessionInitRespItem]
    split <;> simp
  | sessionUpdate =>
    simp only [item, parseSessionUpdateItem]
    split <;> simp
  | destinationUp =>
    simp only [item, parseDestinationUpItem]
    split <;> simp
  | destinationUpdate =>
    simp only [item, parseDestinationUpdateItem]
    split <;> simp
  | destinationDown =>
    simp only [item, parseDestinationDownItem]
    split <;> simp

/-- What the first parser does at an item does not depend on the values it has kept. -/
lemma trace_parseSessionInitRespItem (v : Visit UInt16) (st' : InitResp) :
    (parseSessionInitRespItem v st').trace m = (item st sessionInitResp v).trace m := by
  simp only [item, parseSessionInitRespItem]
  split <;> simp

/-- Behind a right header, every parser goes over the walk of its validator. -/
lemma trace_parse (h : Headed m len k.kind.messageType) :
    (k.parse len).trace m =
      k.opening ++ (dataItemFormat.walk m len 4).flatMap (roundCalls m (item st k)) := by
  obtain ⟨hle, -, hn⟩ := h
  rw [← toNat_readUint16] at hn
  have hlen : 4 + (len - 4) = len := by omega
  have hread : ∀ (message : MessageType) (body : Visit UInt16 → Reader Unit),
      (readUint16 2 >>= fun msgLen => print (.received message) >>= fun _ =>
        parseItems (fun v _ => body v) 4 msgLen.toNat ()).trace m =
      [.load 2, .load 3, .emit (.report (.received message))] ++
        (dataItemFormat.walk m len 4).flatMap (roundCalls m body) := by
    intro message body
    have hitems := trace_parseItems m (fun v (_ : Unit) => (rfl : (body v).trace m = _)) 4
      (len - 4) ()
    rw [trace_bind, hn, trace_bind, hitems, hlen]
    rfl
  cases k with
  | sessionInitResp =>
    have hitems := trace_parseItems m (trace_parseSessionInitRespItem m st) 4 (len - 4) .initial
    rw [hlen] at hitems
    simp [parse, parseSessionInitRespMessage, hitems, opening, kind, MessageKind.messageType, print]
  | sessionUpdate => exact hread .sessionUpdate parseSessionUpdateItem
  | destinationUp => exact hread .destUp parseDestinationUpItem
  | destinationUpdate => exact hread .destUpdate parseDestinationUpdateItem
  | destinationDown => exact hread .destDown parseDestinationDownItem

lemma outputs_parse (h : Headed m len k.kind.messageType) :
    (k.parse len).outputs m =
      .report (.received k.kind.messageType) ::
        (dataItemFormat.walk m len 4).flatMap fun v => .visit v :: (item st k v).outputs m := by
  have hopening : emitted k.opening = [.report (.received k.kind.messageType)] := by
    cases k <;> rfl
  rw [outputs, k.trace_parse m len st h, emitted_append, hopening, emitted_flatMap_roundCalls]
  rfl

lemma visits_parse (h : Headed m len k.kind.messageType) :
    visits ((k.parse len).outputs m) = dataItemFormat.walk m len 4 := by
  rw [k.outputs_parse m len .initial h, visits_cons_report,
    visits_flatMap (k.visits_item m .initial)]

/-- A parser does nothing at items of types that the contents of the message do not list. -/
lemma listed_of_trace_item {v : Visit UInt16} (h : (item st k v).trace m ≠ []) :
    ∃ t, DataItemType.ofCode v.tag = some t ∧
      (t ∈ k.kind.contents.single ∨ t ∈ k.kind.contents.anyNumber) := by
  cases hk : DataItemType.ofCode v.tag with
  | none =>
    apply absurd _ h
    cases k <;> simp [item, parseSessionInitRespItem, parseSessionUpdateItem,
      parseDestinationUpItem, parseDestinationUpdateItem, parseDestinationDownItem, hk]
  | some t =>
    refine ⟨t, rfl, ?_⟩
    cases k with
    | sessionInitResp =>
      simp only [item, parseSessionInitRespItem, hk] at h
      cases t <;> first | decide | exact absurd rfl h
    | sessionUpdate =>
      simp only [item, parseSessionUpdateItem, hk] at h
      cases t <;> first | decide | exact absurd rfl h
    | destinationUp =>
      simp only [item, parseDestinationUpItem, hk] at h
      cases t <;> first | decide | exact absurd rfl h
    | destinationUpdate =>
      simp only [item, parseDestinationUpdateItem, hk] at h
      cases t <;> first | decide | exact absurd rfl h
    | destinationDown =>
      simp only [item, parseDestinationDownItem, hk] at h
      cases t <;> first | decide | exact absurd rfl h

/-- At a metric or an address, a parser does what all of them do, with a choice of action where its
validator leaves one. -/
lemma trace_item_metric {v : Visit UInt16} {t : DataItemType}
    (hv : DataItemType.ofCode v.tag = some t)
    (ht : t ∈ MessageKind.metrics ∨ t ∈ MessageKind.addresses)
    (hlisted : t ∈ k.kind.contents.single ∨ t ∈ k.kind.contents.anyNumber) :
    (item st k v).trace m =
      (parseMetricItem (!k.kind.contents.addOnly) t (v.off + 4) v.len).trace m := by
  cases k with
  | sessionInitResp =>
    cases t with
    | heartbeatInterval | peerType | status | extsSupp => exact absurd ht (by decide)
    | _ => simp [item, parseSessionInitRespItem, hv, kind, MessageKind.contents]
  | sessionUpdate => simp [item, parseSessionUpdateItem, hv, kind, MessageKind.contents]
  | destinationUp =>
    cases t with
    | macAddress => exact absurd ht (by decide)
    | _ => simp [item, parseDestinationUpItem, hv, kind, MessageKind.contents]
  | destinationUpdate =>
    cases t with
    | macAddress => exact absurd ht (by decide)
    | _ => simp [item, parseDestinationUpdateItem, hv, kind, MessageKind.contents]
  | destinationDown =>
    cases t with
    | macAddress => exact absurd ht (by decide)
    | _ => exact absurd hlisted (by decide)

end ParsedMessage

/-! ### Parsers against validators -/

/-- The visits of a scan are those of the validator before it; behind its opening, all that the scan
does are its rounds at these visits; wherever it does anything at an item, the check of the item's
type has succeeded; and there are finitely many visits. -/
structure Follows {α : Type} (m : Memory UInt8) (len : ℕ) (addOnly : Bool) (check : List Output)
    (opening : List (ScanOp Output)) (parse : Reader α) (item : Visit UInt16 → Reader Unit) :
    Prop where
  visits_eq : visits (parse.outputs m) = visits check
  rounds : parse.trace m = opening ++ (visits (parse.outputs m)).flatMap (roundCalls m item)
  checked : ∀ v ∈ visits (parse.outputs m), (item v).trace m ≠ [] →
    ∃ t, DataItemType.ofCode v.tag = some t ∧
      (checkDataItem addOnly t (v.off + 4) v.len).value m = .success
  bounded : 4 * (visits (parse.outputs m)).length ≤ len

section Follows

variable (m : Memory UInt8) (len : ℕ)

lemma visits_map_visit (vs : List (Visit UInt16)) : visits (vs.map .visit) = vs := by
  induction vs with
  | nil => rfl
  | cons v vs ih => simp [ih]

/-- An item whose payload is well formed has passed its check. -/
lemma check_of_wellFormed {v : Visit UInt16} {addOnly : Bool} {t : DataItemType}
    (h : WellFormed addOnly t (m.slice (v.off + 4) v.len)) :
    (checkDataItem addOnly t (v.off + 4) v.len).value m = .success := by
  rw [(decides_checkDataItem addOnly t).value, verdict_eq_success]
  exact h

/-- Every parser follows its validator. -/
lemma ParsedMessage.follows (k : ParsedMessage) (st : InitResp)
    (h : (k.kind.check len).value m = .success) :
    Follows m len k.kind.contents.addOnly ((k.kind.check len).outputs m) k.opening
      (k.parse len) (item st k) := by
  obtain ⟨hhead, hacc⟩ := (k.kind.check_eq_success_iff m len).mp h
  have hparse := k.visits_parse m len hhead
  refine ⟨?_, ?_, ?_, ?_⟩
  · rw [hparse, k.kind.outputs_check m len h, visits_map_visit]
  · rw [hparse]
    exact k.trace_parse m len st hhead
  · intro v hv hact
    rw [hparse] at hv
    obtain ⟨t, hk, ht⟩ := k.listed_of_trace_item m st hact
    have hadm := hacc.1 _ (Format.itemAt_mem_items hv)
    rw [Format.itemAt_of_mem_walk hv] at hadm
    exact ⟨t, hk, check_of_wellFormed m (Contents.wellFormed_of_admits hadm hk ht)⟩
  · have hle := Format.length_walk_le (F := dataItemFormat) (m := m) len 4
    have hlen := hhead.1
    rw [hparse]
    change 4 * _ ≤ len - 4 + (4 - 1) at hle
    omega

/-- The scan of a Peer Offer does nothing at items of other types. -/
lemma listed_of_trace_scanPeerOfferItem {v : Visit UInt16} {st : ModemAddress}
    (h : (scanPeerOfferItem v st).trace m ≠ []) :
    ∃ t ∈ offerTypes, DataItemType.ofCode v.tag = some t := by
  cases hk : DataItemType.ofCode v.tag with
  | none => simp [scanPeerOfferItem, hk] at h
  | some t =>
    refine ⟨t, ?_, rfl⟩
    simp only [scanPeerOfferItem, hk] at h
    cases t <;> first | decide | exact absurd rfl h

lemma trace_scanPeerOfferItem (st : ModemAddress) (v : Visit UInt16) (st' : ModemAddress) :
    (scanPeerOfferItem v st').trace m = (scanPeerOfferItem v st).trace m := by
  unfold scanPeerOfferItem
  split <;> simp [scanConnectionPoint]

/-- The scan of a Peer Offer goes over the walk of the validator. -/
lemma trace_scanPeerOffer (h : 8 ≤ len) (st st' : ModemAddress) :
    (scanPeerOffer len st).trace m =
      (dataItemFormat.walk m len 8).flatMap (roundCalls m (scanPeerOfferItem · st')) := by
  have hlen : 8 + (len - 8) = len := Nat.add_sub_cancel' h
  rw [scanPeerOffer, trace_parseItems m (trace_scanPeerOfferItem m st'), hlen]

lemma outputs_scanPeerOffer (h : 8 ≤ len) (st : ModemAddress) :
    (scanPeerOffer len st).outputs m =
      (dataItemFormat.walk m len 8).flatMap fun v =>
        .visit v :: (scanPeerOfferItem v st).outputs m := by
  rw [outputs, trace_scanPeerOffer m len h st st, emitted_flatMap_roundCalls]

lemma visits_scanPeerOffer (h : 8 ≤ len) (st : ModemAddress) :
    visits ((scanPeerOffer len st).outputs m) = dataItemFormat.walk m len 8 := by
  have hquiet : ∀ v, visits ((scanPeerOfferItem v st).outputs m) = [] := by
    intro v
    unfold scanPeerOfferItem
    split <;> simp [scanConnectionPoint]
  rw [outputs_scanPeerOffer m len h, visits_flatMap hquiet]

/-- The items that the scan meets in an accepted Peer Offer are those of an offer. -/
lemma offerItem_of_walk (h : (checkPeerOfferSignal len).value m = .success) {v : Visit UInt16}
    (hv : v ∈ dataItemFormat.walk m len 8) : OfferItem ⟨v.tag, m.slice (v.off + 4) v.len⟩ := by
  rw [value_checkPeerOfferSignal, verdict_eq_success] at h
  have hitem := h.2.1.1 _ (Format.itemAt_mem_items hv)
  rwa [Format.itemAt_of_mem_walk hv] at hitem

/-- The scan of a Peer Offer follows its validator. -/
lemma follows_scanPeerOffer (st st' : ModemAddress)
    (h : (checkPeerOfferSignal len).value m = .success) :
    Follows m len false ((checkPeerOfferSignal len).outputs m) [] (scanPeerOffer len st)
      (fun v => scanPeerOfferItem v st' >>= fun _ => pure ()) := by
  have hout := outputs_checkPeerOfferSignal m len h
  have hoffer := fun v (hv : v ∈ dataItemFormat.walk m len 8) => offerItem_of_walk m len h hv
  rw [value_checkPeerOfferSignal, verdict_eq_success] at h
  obtain ⟨hhead, -, -⟩ := h
  have hscan := visits_scanPeerOffer m len hhead.1 st
  have hitem : roundCalls m (fun v => scanPeerOfferItem v st' >>= fun _ => pure ()) =
      roundCalls m (scanPeerOfferItem · st') := by
    funext v
    simp [roundCalls]
  refine ⟨?_, ?_, ?_, ?_⟩
  · rw [hscan, hout, visits_map_visit]
  · rw [hscan, hitem]
    exact trace_scanPeerOffer m len hhead.1 st st'
  · intro v hv hact
    rw [hscan] at hv
    have hact' : (scanPeerOfferItem v st').trace m ≠ [] := by
      simpa using hact
    obtain ⟨t, -, hk⟩ := listed_of_trace_scanPeerOfferItem m hact'
    have hitem := hoffer v hv
    simp only [offerItem_iff, hk] at hitem
    obtain ⟨t', -, ht, hwf⟩ := hitem
    obtain rfl : t = t' := Option.some.inj ht
    exact ⟨t, hk, check_of_wellFormed m hwf⟩
  · have hle := Format.length_walk_le (F := dataItemFormat) (m := m) len 8
    have hlen := hhead.1
    rw [hscan]
    change 4 * _ ≤ len - 8 + (4 - 1) at hle
    omega

/-- Every parser, and the scan of a Peer Offer, visits exactly the items that the validator before
it visited, does nothing but its rounds there, and acts only on items whose check succeeded. -/
theorem parsers_follow_validators :
    (∀ (k : ParsedMessage) (st : InitResp) (m : Memory UInt8) (len : ℕ),
      (k.kind.check len).value m = .success →
        Follows m len k.kind.contents.addOnly ((k.kind.check len).outputs m) k.opening
          (k.parse len) (k.item st)) ∧
    ∀ (st st' : ModemAddress) (m : Memory UInt8) (len : ℕ),
      (checkPeerOfferSignal len).value m = .success →
        Follows m len false ((checkPeerOfferSignal len).outputs m) [] (scanPeerOffer len st)
          (fun v => scanPeerOfferItem v st' >>= fun _ => pure ()) :=
  ⟨fun k st m len h => k.follows m len st h,
    fun st st' m len h => follows_scanPeerOffer m len st st' h⟩

end Follows

end DlepRouter
