import DlepRouter.Discovery.Offers
import DlepRouter.Tlv.Overwrite

/-!
# What is left behind an address

`get_peer_offer` clears the family before it scans an offer and nothing else. An address structure
has octets that are neither family nor port nor address, and those keep what an address of the other
family wrote there before.
-/

namespace DlepRouter

open Interaction Tlv Scan

/-! ### Offers for given items -/

/-- The Peer Offer that holds the items. -/
def offerOf (is : List DataItem) : List UInt8 :=
  signalMagic ++ (writeUint16 Signal.peerOffer.code ++
    (writeUint16 (UInt16.ofNat (dataItemFormat.encodeAll is).length) ++
      dataItemFormat.encodeAll is))

section OfferOf

variable {is : List DataItem}

lemma length_offerOf : (offerOf is).length = (dataItemFormat.encodeAll is).length + 8 := by
  simp only [offerOf, List.length_append, length_writeUint16]
  change 4 + (2 + (2 + _)) = _
  omega

lemma isPeerOffer_offerOf (hfits : (dataItemFormat.encodeAll is).length < 2 ^ 16)
    (his : OfferItems is) : IsPeerOffer (offerOf is) := by
  have hid : bigEndian (((offerOf is).drop 4).take 2) = Signal.peerOffer.code.toNat :=
    bigEndian_writeUint16 _
  have hlen : bigEndian (((offerOf is).drop 6).take 2) = (dataItemFormat.encodeAll is).length := by
    change bigEndian (writeUint16 _) = _
    rw [bigEndian_writeUint16, UInt16.toNat_ofNat', Nat.mod_eq_of_lt hfits]
  refine ⟨?_, rfl, hid, ?_, is, rfl, his⟩
  · rw [length_offerOf]
    exact Nat.le_add_left ..
  · rw [hlen, length_offerOf]

/-- The Peer Offer with the items arrives at once. -/
def Hearing.ofItems (is : List DataItem) (hfits : (dataItemFormat.encodeAll is).length ≤ 1492)
    (his : OfferItems is) : Hearing where
  before := []
  offer := ⟨offerOf is, by rw [length_offerOf]; omega⟩
  refused _ := nofun
  accepted := accepted_iff.mpr (isPeerOffer_offerOf (by omega) his)

lemma Hearing.items_ofItems (hfits : (dataItemFormat.encodeAll is).length ≤ 1492)
    (his : OfferItems is) : (Hearing.ofItems is hfits his).items = is := by
  have hbound : ∀ i ∈ is, i.body.length < dataItemFormat.bound := by
    intro i hi
    have hle := dataItemFormat.length_le_encodeAll hi
    change _ < 256 ^ 2
    omega
  change (dataItemFormat.decode (dataItemFormat.encodeAll is)).1 = is
  rw [Format.decode_encodeAll hbound]

end OfferOf

/-! ### The offer with the last connection point only -/

namespace Hearing

variable (h : Hearing)

lemma offerItems_last : OfferItems [h.last] := by
  refine ⟨?_, List.countP_le_length .., h.last, List.mem_singleton_self _,
    isConnPoint_of_mem h.last_mem⟩
  intro i hi
  rw [List.mem_singleton.mp hi]
  exact offerItem_of_mem h.last_mem

lemma length_encodeAll_last_le : (dataItemFormat.encodeAll [h.last]).length ≤ 1492 := by
  have hlen := length_of_connPoint (offerItem_of_mem h.last_mem) (isConnPoint_of_mem h.last_mem)
  have hsize : (connFamily h.last).addressSize ≤ 16 := by cases connFamily h.last <;> decide
  have hwidth : dataItemFormat.width = 4 := rfl
  rw [Format.encodeAll_cons, Format.encodeAll_nil, List.append_nil, Format.length_encode, hwidth]
  omega

/-- The offer with the last connection point only. -/
def alone : Hearing :=
  .ofItems [h.last] h.length_encodeAll_last_le h.offerItems_last

lemma connPoints_alone : connPoints h.alone.items = [h.last] := by
  have hconn := isConnPoint_of_mem h.last_mem
  rw [alone, items_ofItems, connPoints]
  simpa using hconn

lemma last_alone : h.alone.last = h.last :=
  last_eq [] h.connPoints_alone

end Hearing

/-! ### Octets that an address does not write -/

namespace Family

/-- The family that an address is not of. -/
def other : Family → Family
  | inet => inet6
  | inet6 => inet

/-- The octets of `sin_zero` and of `sin6_flowinfo`. They stand where an address of the other family
starts. -/
def restSize : Family → ℕ
  | inet => 8
  | inet6 => 4

end Family

/-- What is left in `sin_zero` or `sin6_flowinfo`: the front of the last address of the other family
in the offer, or what was in the storage before. -/
def residue (storage : Memory UInt8) (is : List DataItem) (f : Family) : List UInt8 :=
  ((is.filter (IsConnPoint f.other)).getLast?.map fun i => (connAddress i).take f.restSize).getD
    (storage.slice f.other.addressAt f.restSize)

section Residue

lemma Family.ne_other_iff {f g : Family} : g ≠ f.other ↔ g = f := by
  cases f <;> cases g <;> decide

lemma isConnPoint_iff {i : DataItem} (hi : IsConnPoint .inet i ∨ IsConnPoint .inet6 i)
    (f : Family) : IsConnPoint f i ↔ connFamily i = f := by
  rw [connFamily]
  by_cases h4 : IsConnPoint .inet i
  · have h6 : ¬ IsConnPoint .inet6 i := by
      rw [IsConnPoint, h4]
      decide
    cases f <;> simp [h4, h6]
  · have h6 := hi.resolve_left h4
    cases f <;> simp [h4, h6]

/-- A connection point of the other family writes there, and one of the family itself does not. -/
lemma slice_rest_meet {i : DataItem} {f : Family} (hi : IsConnPoint .inet i ∨ IsConnPoint .inet6 i)
    (haddress : (connAddress i).length = (connFamily i).addressSize) (st : ModemAddress) :
    (st.meet i).storage.slice f.other.addressAt f.restSize =
      if IsConnPoint f.other i then (connAddress i).take f.restSize
      else st.storage.slice f.other.addressAt f.restSize := by
  have hrest : f.restSize ≤ f.other.addressSize := by cases f <;> decide
  by_cases hother : IsConnPoint f.other i
  · have hf := (isConnPoint_iff hi _).mp hother
    rw [if_pos hother, ← (shows_meet st haddress).address, hf, Memory.take_slice _ _ hrest]
  · have hf := Family.ne_other_iff.mp (mt (isConnPoint_iff hi _).mpr hother)
    rw [if_neg hother]
    apply Memory.slice_congr
    intro a ha
    have hat : 4 ≤ f.other.addressAt + a := by
      cases f
      · exact Nat.le_add_right_of_le (by decide)
      · exact Nat.le_add_right 4 a
    apply storage_meet_of_outside st haddress hat
    rw [hf]
    cases f
    · exact .inr (Nat.le_add_right 8 a)
    · exact .inl (Nat.add_lt_add_left ha 4)

variable (h : Hearing) (storage : Memory UInt8) (length : ℕ)

lemma Hearing.slice_rest_found (f : Family) :
    (h.found storage length).storage.slice f.other.addressAt f.restSize =
      residue storage h.items f := by
  have hlast := foldl_overwrite
    (f := fun st : ModemAddress => st.storage.slice f.other.addressAt f.restSize)
    (l := connPoints h.items)
    fun st _ hi => slice_rest_meet (isConnPoint_of_mem hi) (length_connAddress_of_mem hi) st
  have hfilter : (connPoints h.items).filter (IsConnPoint f.other) =
      h.items.filter (IsConnPoint f.other) := by
    rw [connPoints, List.filter_filter]
    apply List.filter_congr
    intro i _
    by_cases hother : IsConnPoint f.other i
    · have hany : IsConnPoint .inet i ∨ IsConnPoint .inet6 i := by
        cases f
        · exact .inr hother
        · exact .inl hother
      simp [hother, hany]
    · simp [hother]
  have hcleared : (storage.patch 0 [0, 0]).slice f.other.addressAt f.restSize =
      storage.slice f.other.addressAt f.restSize := by
    apply Memory.slice_patch_of_ge
    cases f <;> decide
  rw [found, hlast, hfilter, hcleared]
  rfl

/-- Nothing but the storage decides what is in `sin6_scope_id`. -/
lemma Hearing.slice_scopeId_found :
    (h.found storage length).storage.slice 24 4 = storage.slice 24 4 := by
  have hscope : ∀ st, ∀ i ∈ connPoints h.items,
      (ModemAddress.meet st i).storage.slice 24 4 = st.storage.slice 24 4 := by
    intro st i hi
    apply Memory.slice_congr
    intro a ha
    apply storage_meet_of_outside st (length_connAddress_of_mem hi) (by omega)
    have hend : (connFamily i).addressAt + (connFamily i).addressSize ≤ 24 := by
      cases connFamily i <;> decide
    exact .inr (Nat.le_add_right_of_le hend)
  have hcleared : (storage.patch 0 [0, 0]).slice 24 4 = storage.slice 24 4 :=
    Memory.slice_patch_of_ge storage [0, 0] (by decide)
  rw [found, foldl_unchanged (f := fun st : ModemAddress => st.storage.slice 24 4) hscope, hcleared]

end Residue

/-! ### Comparing addresses -/

/-- The octet is one of `sin6_scope_id`, which `discover_ipv6` sets behind `get_peer_offer`. -/
def IsScopeId (a : ℕ) : Prop :=
  24 ≤ a ∧ a < 28

/-- The addresses are the same, but perhaps for the scope id. -/
structure SameAddress (found alone : ModemAddress) : Prop where
  length : found.length = alone.length
  octets : ∀ a < found.length, ¬ IsScopeId a → found.storage a = alone.storage a

/-- Every other octet is of family and port, of the address, or of the rest. -/
lemma Family.octet_cases {f : Family} {a : ℕ} (ha : a < f.addressLength) (hscope : ¬ IsScopeId a) :
    a < 4 ∨ (f.addressAt ≤ a ∧ a < f.addressAt + f.addressSize) ∨
      (f.other.addressAt ≤ a ∧ a < f.other.addressAt + f.restSize) := by
  cases f <;> simp only [IsScopeId, other, addressAt, addressSize, addressLength, restSize] at * <;>
    omega

section Compare

variable {found alone : ModemAddress} {i : DataItem}

/-- Two addresses that show the same connection point can only differ in the rest. -/
lemma sameAddress_iff_rest (hfound : found.Shows i) (halone : alone.Shows i) :
    SameAddress found alone ↔
      found.storage.slice (connFamily i).other.addressAt (connFamily i).restSize =
        alone.storage.slice (connFamily i).other.addressAt (connFamily i).restSize := by
  constructor
  · intro h
    apply Memory.slice_congr
    intro a ha
    have hend : (connFamily i).other.addressAt + (connFamily i).restSize ≤
        min (connFamily i).addressLength 24 := by cases connFamily i <;> decide
    apply h.octets
    · rw [hfound.length]
      omega
    · rintro ⟨hscope, -⟩
      omega
  · intro hrest
    refine ⟨by rw [hfound.length, halone.length], ?_⟩
    intro a ha hscope
    rw [hfound.length] at ha
    rcases Family.octet_cases ha hscope with hfront | ⟨hat, hend⟩ | ⟨hat, hend⟩
    · rcases Nat.lt_or_ge a 2 with hfamily | hport
      · exact Memory.eq_of_slice_eq (hfound.family.trans halone.family.symm) a.zero_le (by omega)
      · exact Memory.eq_of_slice_eq (hfound.port.trans halone.port.symm) hport hfront
    · exact Memory.eq_of_slice_eq (hfound.address.trans halone.address.symm) hat hend
    · exact Memory.eq_of_slice_eq hrest hat hend

/-- With the scope id, all octets are compared. An IPv4 address has none. -/
lemma octets_eq_iff (hfound : found.Shows i) :
    (found.length = alone.length ∧ ∀ a < found.length, found.storage a = alone.storage a) ↔
      SameAddress found alone ∧ (connFamily i = .inet6 →
        found.storage.slice 24 4 = alone.storage.slice 24 4) := by
  constructor
  · rintro ⟨hlength, hall⟩
    refine ⟨⟨hlength, fun a ha _ => hall a ha⟩, ?_⟩
    intro hf
    apply Memory.slice_congr
    intro a ha
    apply hall
    rw [hfound.length, hf]
    exact Nat.add_lt_add_left ha 24
  · rintro ⟨hsame, hid⟩
    refine ⟨hsame.length, ?_⟩
    intro a ha
    by_cases hscope : IsScopeId a
    · have hf : connFamily i = .inet6 := by
        rw [hfound.length] at ha
        cases hf : connFamily i with
        | inet =>
          rw [hf] at ha
          exact absurd (Nat.lt_of_le_of_lt hscope.1 ha) (by decide)
        | inet6 => rfl
      exact Memory.eq_of_slice_eq (hid hf) hscope.1 hscope.2
    · exact hsame.octets a ha hscope

end Compare

/-! ### The result -/

section Result

variable (h : Hearing)

lemma slice_const_zero (p n : ℕ) :
    Memory.slice (fun _ => (0 : UInt8)) p n = List.replicate n 0 := by
  simp [Memory.slice]

/-- The rest of a cleared storage stays clear for an offer with one connection point. -/
lemma Hearing.residue_alone :
    residue (fun _ => 0) h.alone.items (connFamily h.last) =
      List.replicate (connFamily h.last).restSize 0 := by
  have hother : ¬ IsConnPoint (connFamily h.last).other h.last := by
    rw [isConnPoint_iff (isConnPoint_of_mem h.last_mem)]
    cases connFamily h.last <;> decide
  rw [residue, alone, items_ofItems, List.filter_singleton, decide_eq_false hother, cond_false]
  exact slice_const_zero _ _

lemma Hearing.sameAddress_iff (storage : Memory UInt8) (length : ℕ) :
    SameAddress (h.found storage length) (h.alone.found (fun _ => 0) 0) ↔
      ∀ o ∈ residue storage h.items (connFamily h.last), o = 0 := by
  have halone := h.alone.shows_found (fun _ => 0) 0
  rw [last_alone] at halone
  rw [sameAddress_iff_rest (h.shows_found storage length) halone, slice_rest_found,
    slice_rest_found, residue_alone, List.eq_replicate_iff, ← slice_rest_found h storage length,
    Memory.length_slice]
  simp

end Result

/-- What `get_peer_offer` leaves for an offer is what it leaves, in a cleared storage, for the offer
with the last connection point only, exactly if the octets are 0 that the last connection point does
not write. Another connection point of the offer or an earlier discovery left them there. -/
theorem getPeerOffer_sameAddress_iff (h : Hearing) (k k' : ℕ) (destAddr : List UInt8)
    (msg msg' storage : Memory UInt8) (length : ℕ) (rest rest' : List Arrival) :
    ∃ ret found ret' alone,
      h.outcome k destAddr msg storage length rest = some (ret, found) ∧
      h.alone.outcome k' destAddr msg' (fun _ => 0) 0 rest' = some (ret', alone) ∧
      (SameAddress found alone ↔ ∀ o ∈ residue storage h.items (connFamily h.last), o = 0) ∧
      ((found.length = alone.length ∧ ∀ a < found.length, found.storage a = alone.storage a) ↔
        (∀ o ∈ residue storage h.items (connFamily h.last), o = 0) ∧
          (connFamily h.last = .inet6 → ∀ o ∈ storage.slice 24 4, o = 0)) := by
  have hscope : (h.found storage length).storage.slice 24 4 =
      (h.alone.found (fun _ => 0) 0).storage.slice 24 4 ↔ ∀ o ∈ storage.slice 24 4, o = 0 := by
    rw [h.slice_scopeId_found, h.alone.slice_scopeId_found, slice_const_zero,
      List.eq_replicate_iff, Memory.length_slice]
    simp
  refine ⟨_, _, _, _, h.outcome_eq .., h.alone.outcome_eq .., h.sameAddress_iff .., ?_⟩
  rw [octets_eq_iff (h.shows_found storage length), h.sameAddress_iff, hscope]

/-- The IPv4 connection point 192.0.2.1 and then the IPv6 connection point 2001:db8::1. -/
def mixedItems : List DataItem :=
  [⟨DataItemType.ipv4ConnPoint.code, [0, 192, 0, 2, 1]⟩,
    ⟨DataItemType.ipv6ConnPoint.code,
      [0, 0x20, 0x01, 0x0d, 0xb8, 0, 0, 0, 0, 0, 0, 0, 0, 0, 0, 0, 1]⟩]

/-- The offer with these connection points. -/
def mixedOffer : Hearing :=
  .ofItems mixedItems (by decide) (by decide)

/-- Behind it the IPv4 address stands in `sin6_flowinfo`. -/
theorem not_sameAddress :
    ¬ ∀ (h : Hearing) (k : ℕ) (destAddr : List UInt8) (msg storage : Memory UInt8) (length : ℕ)
      (rest : List Arrival), ∃ ret found ret' alone,
        h.outcome k destAddr msg storage length rest = some (ret, found) ∧
        h.alone.outcome k destAddr msg (fun _ => 0) 0 rest = some (ret', alone) ∧
        SameAddress found alone := by
  intro hall
  obtain ⟨ret, found, ret', alone, hfound, halone, hsame⟩ :=
    hall mixedOffer 0 [] (fun _ => 0) (fun _ => 0) 0 []
  rw [Hearing.outcome_eq] at hfound halone
  cases hfound
  cases halone
  have hzero := (mixedOffer.sameAddress_iff _ _).mp hsame
  have hitems : mixedOffer.items = mixedItems := Hearing.items_ofItems ..
  have hlast : mixedOffer.last = mixedItems[1] := by
    apply Hearing.last_eq [mixedItems[0]]
    rw [hitems]
    rfl
  rw [hitems, hlast] at hzero
  exact absurd (hzero 192 (by decide)) (by decide)

end DlepRouter
