import DlepRouter.Check.Contents

/-!
# The Peer Offer signal

What a datagram must be to count as a Peer Offer, and that `check_peer_offer_signal` accepts
exactly those datagrams. The loop may read past the datagram, but then the pointer ends past it
too, and the comparison behind the loop refuses.
-/

namespace DlepRouter

open Tlv Scan

/-! ### What a Peer Offer is -/

/-- The types of data item a Peer Offer may hold. -/
def offerTypes : List DataItemType := [.peerType, .ipv4ConnPoint, .ipv6ConnPoint]

/-- The item is a well-formed one of a Peer Offer. -/
def OfferItem (i : DataItem) : Prop :=
  ∃ t ∈ offerTypes, i.tag = t.code ∧ WellFormed false t i.body

/-- Items of a Peer Offer, with at most one Peer Type and at least one connection point. -/
def OfferItems (is : List DataItem) : Prop :=
  (∀ i ∈ is, OfferItem i) ∧
    (is.countP fun i => i.tag = DataItemType.peerType.code) ≤ 1 ∧
    ∃ i ∈ is, i.tag = DataItemType.ipv4ConnPoint.code ∨ i.tag = DataItemType.ipv6ConnPoint.code

/-- The datagram is a signal header and the encoding of the items of a Peer Offer. -/
def IsPeerOffer (bs : List UInt8) : Prop :=
  8 ≤ bs.length ∧ bs.take 4 = signalMagic ∧
    bigEndian ((bs.drop 4).take 2) = Signal.peerOffer.code.toNat ∧
    bigEndian ((bs.drop 6).take 2) + 8 = bs.length ∧
    ∃ is, dataItemFormat.encodeAll is = bs.drop 8 ∧ OfferItems is

/-! ### The grammar of the items -/

/-- What the flags of the Peer Offer loop tell apart. -/
inductive OfferKey where
  | peerType
  | connPoint
  | other
  deriving DecidableEq

/-- The flag that an item sets. -/
def OfferKey.of (i : DataItem) : OfferKey :=
  match DataItemType.ofCode i.tag with
  | some .peerType => .peerType
  | some .ipv4ConnPoint | some .ipv6ConnPoint => .connPoint
  | _ => .other

instance (i : DataItem) : Decidable (OfferItem i) :=
  inferInstanceAs (Decidable (∃ t ∈ offerTypes, _))

/-- The items of a Peer Offer as a grammar. -/
def offerGrammar : Grammar DataItem OfferKey where
  key := OfferKey.of
  Admits := OfferItem
  single k := k = .peerType
  tracked k := k = .peerType || k = .connPoint
  required := [.connPoint]
  tracked_of_single k h := by simp_all
  tracked_of_required k h := by simp_all

instance : DecidablePred offerGrammar.Admits := inferInstanceAs (DecidablePred OfferItem)

lemma OfferKey.of_eq_peerType_iff (i : DataItem) :
    OfferKey.of i = .peerType ↔ i.tag = DataItemType.peerType.code := by
  rw [eq_comm (a := i.tag), ← DataItemType.ofCode_eq_some_iff]
  unfold OfferKey.of
  split <;> simp_all

lemma OfferKey.of_eq_connPoint_iff (i : DataItem) :
    OfferKey.of i = .connPoint ↔
      i.tag = DataItemType.ipv4ConnPoint.code ∨ i.tag = DataItemType.ipv6ConnPoint.code := by
  rw [eq_comm (a := i.tag), ← DataItemType.ofCode_eq_some_iff, eq_comm (a := i.tag),
    ← DataItemType.ofCode_eq_some_iff]
  unfold OfferKey.of
  split <;> simp_all

/-- The grammar allows well-formed items of a Peer Offer with at most one Peer Type. -/
lemma allows_offerGrammar_iff {is : List DataItem} :
    offerGrammar.Allows is ↔ (∀ i ∈ is, OfferItem i) ∧
      (is.countP fun i => i.tag = DataItemType.peerType.code) ≤ 1 := by
  have hcount : offerGrammar.count .peerType is =
      is.countP fun i => i.tag = DataItemType.peerType.code := by
    simp only [Grammar.count, List.count_eq_countP, List.countP_map]
    apply List.countP_congr
    intro i _
    simpa [offerGrammar] using OfferKey.of_eq_peerType_iff i
  apply and_congr Iff.rfl
  constructor
  · intro h
    rw [← hcount]
    by_contra hlt
    have hpos : 0 < offerGrammar.count .peerType is := by omega
    obtain ⟨i, hi, hkey⟩ := List.mem_map.mp (Grammar.count_pos_iff.mp hpos)
    have hle := h i hi (by rw [hkey]; rfl)
    rw [hkey] at hle
    exact hlt hle
  · intro h i _ hs
    have hkey : offerGrammar.key i = .peerType := by simpa [offerGrammar] using hs
    rwa [hkey, hcount]

/-- The grammar accepts the items of a Peer Offer. -/
lemma accepts_offerGrammar_iff {is : List DataItem} : offerGrammar.Accepts is ↔ OfferItems is := by
  have hreq : (∀ k ∈ offerGrammar.required, k ∈ is.map offerGrammar.key) ↔
      ∃ i ∈ is, i.tag = DataItemType.ipv4ConnPoint.code ∨
        i.tag = DataItemType.ipv6ConnPoint.code := by
    simp [offerGrammar, OfferKey.of_eq_connPoint_iff]
  rw [Grammar.Accepts, allows_offerGrammar_iff, hreq, OfferItems, and_assoc]

/-! ### The loop -/

/-- The flags of the Peer Offer loop stand for the keys a run of the grammar has seen. -/
def OfferChecked.Stands (st : OfferChecked) : Option (List OfferKey) → Prop
  | some seen =>
    st.sc = .success ∧ (st.seenPeerType ↔ OfferKey.peerType ∈ seen) ∧
      (st.seenIpConnPt ↔ OfferKey.connPoint ∈ seen)
  | none => st.sc = .invalidData

section Loop

variable (m : Memory UInt8)

lemma offerItem_iff {i : DataItem} :
    OfferItem i ↔
      ∃ t ∈ offerTypes, DataItemType.ofCode i.tag = some t ∧ WellFormed false t i.body := by
  simp only [OfferItem, DataItemType.ofCode_eq_some_iff, eq_comm (a := i.tag)]

/-- A check that decides `P` sets its flag and keeps the other. -/
lemma stands_offer_check {check : ℕ → ℕ → Reader StatusCode} {P : List UInt8 → Prop}
    [DecidablePred P] (hcheck : Decides check P) (p n : ℕ) {a b : Bool} {seen : List OfferKey}
    (ha : a ↔ OfferKey.peerType ∈ seen) (hb : b ↔ OfferKey.connPoint ∈ seen) :
    OfferChecked.Stands ⟨(check p n).value m, a, b⟩
      (if P (m.slice p n) then some seen else none) := by
  rw [hcheck.value]
  by_cases hP : P (m.slice p n)
  · simpa [hP, verdict, OfferChecked.Stands] using ⟨ha, hb⟩
  · simp [hP, verdict, OfferChecked.Stands]

/-- The `switch` of the loop checks the item at the pointer as the grammar does. -/
lemma stands_checkPeerOfferItem (off : ℕ) {st : OfferChecked} {seen : List OfferKey}
    (h : st.Stands (some seen)) :
    OfferChecked.Stands ((checkPeerOfferItem (dataItemFormat.visitAt m off) st).value m)
      (offerGrammar.step seen (dataItemFormat.itemAt m off)) := by
  obtain ⟨-, hpeer, hconn⟩ := h
  have htag : (dataItemFormat.itemAt m off).tag = (dataItemFormat.visitAt m off).tag := rfl
  have hbody : (dataItemFormat.itemAt m off).body =
    m.slice (off + 4) (dataItemFormat.visitAt m off).len := rfl
  have hoff : (dataItemFormat.visitAt m off).off = off := rfl
  have hadm : offerGrammar.Admits (dataItemFormat.itemAt m off) ↔
    OfferItem (dataItemFormat.itemAt m off) := Iff.rfl
  have hkey : offerGrammar.key = OfferKey.of := rfl
  have hsingle : offerGrammar.single = fun k => decide (k = .peerType) := rfl
  have htracked : offerGrammar.tracked =
    fun k => decide (k = .peerType) || decide (k = .connPoint) := rfl
  have hipv4 : Decides checkIpv4ConnectionPoint (WellFormed false .ipv4ConnPoint) :=
    decides_checkDataItem false .ipv4ConnPoint
  have hipv6 : Decides checkIpv6ConnectionPoint (WellFormed false .ipv6ConnPoint) :=
    decides_checkDataItem false .ipv6ConnPoint
  cases hk : DataItemType.ofCode (dataItemFormat.visitAt m off).tag with
  | none =>
    simp [Grammar.step, checkPeerOfferItem, hk, hadm, offerItem_iff, htag, OfferChecked.Stands]
  | some t =>
    cases t with
    | peerType =>
      by_cases hseen : OfferKey.peerType ∈ seen
      · simp [Grammar.step, checkPeerOfferItem, hk, htag, hkey, hsingle, OfferKey.of,
          hpeer.mpr hseen, hseen, OfferChecked.Stands]
      · have hnot : st.seenPeerType = false := by simpa [hseen] using hpeer
        have hstep := stands_offer_check m (decides_checkPeerType false) (off + 4)
          (dataItemFormat.visitAt m off).len (a := true) (b := st.seenIpConnPt)
          (by simp : _ ↔ OfferKey.peerType ∈ .peerType :: seen) (by simpa using hconn)
        simpa [Grammar.step, checkPeerOfferItem, hk, htag, hkey, hsingle, htracked, OfferKey.of,
          hnot, hseen, hadm, offerItem_iff, offerTypes, hbody, hoff] using hstep
    | ipv4ConnPoint =>
      have hstep := stands_offer_check m hipv4 (off + 4) (dataItemFormat.visitAt m off).len
        (a := st.seenPeerType) (b := true)
        (by simpa using hpeer : _ ↔ OfferKey.peerType ∈ .connPoint :: seen) (by simp)
      simpa [Grammar.step, checkPeerOfferItem, hk, htag, hkey, hsingle, htracked, OfferKey.of,
        hadm, offerItem_iff, offerTypes, hbody, hoff] using hstep
    | ipv6ConnPoint =>
      have hstep := stands_offer_check m hipv6 (off + 4) (dataItemFormat.visitAt m off).len
        (a := st.seenPeerType) (b := true)
        (by simpa using hpeer : _ ↔ OfferKey.peerType ∈ .connPoint :: seen) (by simp)
      simpa [Grammar.step, checkPeerOfferItem, hk, htag, hkey, hsingle, htracked, OfferKey.of,
        hadm, offerItem_iff, offerTypes, hbody, hoff] using hstep
    | _ =>
      simp [Grammar.step, checkPeerOfferItem, hk, hadm, offerItem_iff, htag, offerTypes,
        OfferChecked.Stands]

/-- The loop of `check_peer_offer_signal` runs the grammar of a Peer Offer. -/
lemma recognises_checkPeerOfferItem :
    Recognises dataItems offerGrammar m (fun st => st.sc = .success) checkPeerOfferItem
      OfferChecked.Stands where
  go_eq st r h := by
    cases r with
    | none => simp [show st.sc = .invalidData from h]
    | some seen => simp [h.1]
  step off st seen h := stands_checkPeerOfferItem m off h
  silent v st := by
    have hpeer : (checkPeerType (v.off + 4) v.len).outputs m = [] :=
      (decides_checkDataItem false .peerType).silent ..
    have hipv4 : (checkIpv4ConnectionPoint (v.off + 4) v.len).outputs m = [] :=
      (decides_checkDataItem false .ipv4ConnPoint).silent ..
    have hipv6 : (checkIpv6ConnectionPoint (v.off + 4) v.len).outputs m = [] :=
      (decides_checkDataItem false .ipv6ConnPoint).silent ..
    unfold checkPeerOfferItem
    split <;> simp [hpeer, hipv4, hipv6]

end Loop

/-! ### The signal -/

section Signal

variable (m : Memory UInt8) (len : ℕ)

/-- The `len` octets in `m` start with the header of a Peer Offer of that length. -/
def OfferHeaded : Prop :=
  8 ≤ len ∧ m.slice 0 4 = signalMagic ∧
    bigEndian (m.slice 4 2) = Signal.peerOffer.code.toNat ∧ bigEndian (m.slice 6 2) + 8 = len

instance : Decidable (OfferHeaded m len) := inferInstanceAs (Decidable (_ ∧ _ ∧ _ ∧ _))

lemma value_checkPeerOfferHeader :
    (checkPeerOfferHeader len).value m = verdict (OfferHeaded m len) := by
  have hid : (readUint16 4).value m = Signal.peerOffer.code ↔
      bigEndian (m.slice 4 2) = Signal.peerOffer.code.toNat := by
    rw [← toNat_readUint16, UInt16.toNat_inj]
  by_cases hlen : len < 8
  · have hno : ¬ OfferHeaded m len := fun h => by have := h.1; omega
    simp [checkPeerOfferHeader, hlen, verdict, hno]
  · by_cases hmagic : m.slice 0 4 = signalMagic
    · by_cases ht : bigEndian (m.slice 4 2) = Signal.peerOffer.code.toNat
      · simp only [checkPeerOfferHeader, hlen, if_false, hid, ht, hmagic, value_bind, value_ite,
          value_loadRange, ne_eq, not_true, toNat_readUint16]
        by_cases hn : bigEndian (m.slice 6 2) + 8 = len
        · simp [hn, verdict, OfferHeaded, hmagic, ht]
          omega
        · simp [hn, verdict, OfferHeaded]
      · simp [checkPeerOfferHeader, hlen, hmagic, hid, ht, verdict, OfferHeaded]
    · simp [checkPeerOfferHeader, hlen, hmagic, verdict, OfferHeaded]

lemma outputs_checkPeerOfferHeader : (checkPeerOfferHeader len).outputs m = [] := by
  simp [checkPeerOfferHeader]

/-- The items that the loop of `check_peer_offer_signal` visits on a memory. -/
abbrev offerItems : List DataItem := dataItemFormat.items m len 8

instance : DecidablePred OfferItems := fun _ => inferInstanceAs (Decidable (_ ∧ _ ∧ _))

/-- What `check_peer_offer_signal` answers, for any contents of the memory. -/
lemma value_checkPeerOfferSignal :
    (checkPeerOfferSignal len).value m =
      verdict (OfferHeaded m len ∧ OfferItems (offerItems m len) ∧
        dataItemFormat.walkEnd m len 8 = len) := by
  simp only [checkPeerOfferSignal, value_bind, value_checkPeerOfferHeader, verdict_eq_success]
  by_cases hhead : OfferHeaded m len
  · have hrec := recognises_checkPeerOfferItem m
    have hinit : OfferChecked.Stands ⟨.success, false, false⟩ (some []) := by
      simp [OfferChecked.Stands]
    have hst : OfferChecked.Stands ((checkPeerOfferItems len).value m).2
      (offerGrammar.run [] (offerItems m len)) := hrec.value len 8 hinit
    have hacc : offerGrammar.Accepts (offerItems m len) ↔ OfferItems (offerItems m len) :=
      accepts_offerGrammar_iff
    rw [← Grammar.exists_run_iff] at hacc
    cases hrun : offerGrammar.run [] (offerItems m len) with
    | none =>
      rw [hrun] at hst hacc
      have hno : ¬ OfferItems (offerItems m len) := fun ha => by simpa using hacc.mpr ha
      simp [hhead, show ((checkPeerOfferItems len).value m).2.sc = .invalidData from hst, hno,
        verdict]
    | some seen =>
      have hend : ((checkPeerOfferItems len).value m).1 = dataItemFormat.walkEnd m len 8 :=
        hrec.pointer len 8 hinit (Option.isSome_iff_exists.mpr ⟨seen, hrun⟩)
      rw [hrun] at hst hacc
      obtain ⟨hsc, -, hconn⟩ := hst
      have hyes : ((checkPeerOfferItems len).value m).2.seenIpConnPt ↔
          OfferItems (offerItems m len) := by
        rw [hconn]
        simpa [offerGrammar] using hacc
      by_cases hlen : dataItemFormat.walkEnd m len 8 = len <;>
        by_cases ha : OfferItems (offerItems m len) <;>
        simp [hhead, hsc, hend, hlen, hyes, ha, verdict]
  · simp [hhead, verdict]

/-- The loop of a validation that succeeds has visited the whole walk. -/
lemma outputs_checkPeerOfferSignal (h : (checkPeerOfferSignal len).value m = .success) :
    (checkPeerOfferSignal len).outputs m = (dataItemFormat.walk m len 8).map .visit := by
  rw [value_checkPeerOfferSignal, verdict_eq_success] at h
  obtain ⟨hhead, his, -⟩ := h
  obtain ⟨seen, hrun, -⟩ := Grammar.exists_run_iff.mpr (accepts_offerGrammar_iff.mpr his)
  have hinit : OfferChecked.Stands ⟨.success, false, false⟩ (some []) := by
    simp [OfferChecked.Stands]
  have hout := (recognises_checkPeerOfferItem m).outputs len 8 hinit
    (Option.isSome_iff_exists.mpr ⟨seen, hrun⟩)
  simp only [checkPeerOfferSignal, outputs_bind, outputs_checkPeerOfferHeader, List.nil_append,
    value_checkPeerOfferHeader, verdict_eq_success, hhead, if_true, outputs_ite,
    Interaction.Program.pure_eq_ret, outputs_ret, ite_self, List.append_nil]
  exact hout

/-- A datagram is a Peer Offer if its header is right and its items tile the rest of it and are
those of a Peer Offer. -/
lemma isPeerOffer_iff (bs : List UInt8) (rest : Memory UInt8) :
    IsPeerOffer bs ↔
      OfferHeaded (.overlay bs rest) bs.length ∧
        OfferItems (offerItems (.overlay bs rest) bs.length) ∧
        dataItemFormat.walkEnd (.overlay bs rest) bs.length 8 = bs.length := by
  by_cases hlen : 8 ≤ bs.length
  · have hpay : (Memory.overlay bs rest).slice 8 (bs.length - 8) = bs.drop 8 := by
      rw [Memory.slice_overlay (by omega), List.take_of_length_le (by simp)]
    have htiles : dataItemFormat.Tiles (.overlay bs rest) 8 bs.length ↔
        8 ≤ bs.length ∧ dataItemFormat.walkEnd (.overlay bs rest) bs.length 8 = bs.length :=
      Format.tiles_iff_walkEnd
    rw [IsPeerOffer, OfferHeaded, Memory.slice_overlay (by omega), Memory.slice_overlay (by omega),
      Memory.slice_overlay (by omega), List.drop_zero]
    constructor
    · rintro ⟨-, hmagic, hid, hn, is, henc, his⟩
      have hbound : ∀ i ∈ is, i.body.length < dataItemFormat.bound := by
        intro i hi
        have hle := dataItemFormat.length_le_encodeAll hi
        have hlt := bigEndian_lt ((bs.drop 6).take 2)
        simp only [henc, List.length_drop, List.length_take] at hle hlt
        rw [show min 2 (bs.length - 6) = 2 by omega] at hlt
        change _ < 256 ^ 2
        omega
      have hdec : dataItemFormat.decode (bs.drop 8) = (is, []) := by
        rw [← henc, Format.decode_encodeAll hbound]
      have ht : dataItemFormat.Tiles (.overlay bs rest) 8 bs.length := by
        rw [Format.tiles_iff_decode hlen, hpay, hdec]
      refine ⟨⟨hlen, hmagic, hid, hn⟩, ?_, (htiles.mp ht).2⟩
      rwa [offerItems, Format.items_eq_of_tiles ht, hpay, hdec]
    · rintro ⟨⟨-, hmagic, hid, hn⟩, his, hend⟩
      have ht := htiles.mpr ⟨hlen, hend⟩
      refine ⟨hlen, hmagic, hid, hn, offerItems (.overlay bs rest) bs.length, ?_, his⟩
      have hfrag := (Format.tiles_iff_decode hlen).mp ht
      have hall := Format.encodeAll_decode (F := dataItemFormat) (bs.drop 8)
      rw [hpay] at hfrag
      rw [offerItems, Format.items_eq_of_tiles ht, hpay]
      simpa [hfrag] using hall
  · constructor
    · rintro ⟨h, -⟩
      exact absurd h hlen
    · rintro ⟨⟨h, -⟩, -⟩
      exact absurd h hlen

/-- `check_peer_offer_signal` accepts exactly the Peer Offers, whatever lies behind the datagram,
and answers Invalid Data to everything else. -/
theorem checkPeerOfferSignal_iff (bs : List UInt8) (rest : Memory UInt8) :
    ((checkPeerOfferSignal bs.length).value (.overlay bs rest) = .success ↔ IsPeerOffer bs) ∧
      (¬ IsPeerOffer bs →
        (checkPeerOfferSignal bs.length).value (.overlay bs rest) = .invalidData) := by
  rw [value_checkPeerOfferSignal, isPeerOffer_iff bs rest]
  refine ⟨verdict_eq_success, ?_⟩
  intro h
  rw [verdict, if_neg h]

end Signal

end DlepRouter
