import DlepRouter.Check.Accept
import DlepRouter.Parse.Reported

/-!
# Addresses reported by the parsers

The family of an address is fixed twice as well: the validator takes it from the type of the item,
the parser from its length. `addressOf` decodes an item by its type alone. The length that each
type is checked for makes both agree, and leaves the parser nothing to read behind the payload.
-/

namespace DlepRouter

open Tlv Scan

/-! ### Address items -/

/-- The addresses and attached subnets among the lines printed. -/
def addresses (rs : List Report) : List Report :=
  rs.filterMap fun
    | .address action family octets => some (.address action family octets)
    | .attachedSubnet action family octets length =>
      some (.attachedSubnet action family octets length)
    | _ => none

/-- What a flag octet says: 1 is Add and 0 is Drop. -/
def Action.ofFlag : UInt8 → Option Action
  | 0 => some .drop
  | 1 => some .add
  | _ => none

/-- The action of an address item, in a message where there is a choice. -/
def actionOf (addOnly : Bool) (l : List UInt8) : Option Action :=
  if addOnly then none else Action.ofFlag (l.getD 0 0)

/-- The address or subnet in the payload of an item of type `t`. -/
def addressIn (addOnly : Bool) (t : DataItemType) (l : List UInt8) : Option Report :=
  match t with
  | .ipv4Address => some (.address (actionOf addOnly l) .inet ((l.drop 1).take 4))
  | .ipv6Address => some (.address (actionOf addOnly l) .inet6 ((l.drop 1).take 16))
  | .ipv4AttSubnet =>
    some (.attachedSubnet (actionOf addOnly l) .inet ((l.drop 1).take 4) (l.getD 5 0))
  | .ipv6AttSubnet =>
    some (.attachedSubnet (actionOf addOnly l) .inet6 ((l.drop 1).take 16) (l.getD 17 0))
  | _ => none

/-- The address or subnet that an item stands for. -/
def addressOf (addOnly : Bool) (i : DataItem) : Option Report :=
  (DataItemType.ofCode i.tag).bind fun t => addressIn addOnly t i.body

/-- The addresses reported are those that the items of the message stand for, in order; their items
are as long as their types demand, with a flag that the message allows and a prefix length that the
family allows. All that the parser does behind its opening are its rounds at the items, and in that
of an address it reads no octet outside the payload. -/
structure ReportsAddresses (k : ParsedMessage) (m : Memory UInt8) (len : ℕ) : Prop where
  reported : addresses (reports ((k.parse len).outputs m)) =
    (splitPayload m len).1.filterMap (addressOf k.kind.contents.addOnly)
  wellFormed : ∀ i ∈ (splitPayload m len).1, ∀ t ∈ MessageKind.addresses,
    DataItemType.ofCode i.tag = some t → WellFormed k.kind.contents.addOnly t i.body
  rounds : ∀ st, (k.parse len).trace m =
    k.opening ++ (dataItemFormat.walk m len 4).flatMap (roundCalls m (k.item st))
  within : ∀ st, ∀ v ∈ dataItemFormat.walk m len 4, ∀ t ∈ MessageKind.addresses,
    DataItemType.ofCode v.tag = some t →
      ∀ a ∈ (k.item st v).reads m, v.off + 4 ≤ a ∧ a < v.off + 4 + v.len

section Payload

variable (m : Memory UInt8) {addOnly : Bool} {p : ℕ}

/-- On the flags that are allowed, testing for Add is enough. -/
lemma value_parseAction {n : ℕ} (hn : 0 < n) (h : ActionFlag addOnly (m.slice p n)) :
    (parseAction p !addOnly).value m = actionOf addOnly (m.slice p n) := by
  obtain ⟨n, rfl⟩ := Nat.exists_eq_add_one.mpr hn
  rw [ActionFlag, Memory.slice_succ, List.getD_cons_zero] at h
  rw [actionOf, Memory.slice_succ, List.getD_cons_zero]
  rcases h with hadd | ⟨rfl, hdrop⟩
  · cases addOnly <;> simp [parseAction, hadd, Action.ofFlag]
  · simp [parseAction, hdrop, Action.ofFlag]

lemma reads_parseAction (changeable : Bool) :
    ∀ a ∈ (parseAction p changeable).reads m, a = p := by
  cases changeable <;> simp [parseAction]

lemma take_drop_slice {n k : ℕ} (h : k < n) :
    ((m.slice p n).drop 1).take k = m.slice (p + 1) k := by
  rw [Memory.drop_slice m p (Nat.lt_of_le_of_lt (Nat.zero_le k) h),
    Memory.take_slice m (p + 1) (Nat.le_sub_one_of_lt h)]

/-- An address of a family is the flag octet and the octets of the address. -/
lemma parseAddress_spec (family : Family)
    (hflag : ActionFlag addOnly (m.slice p (family.addressSize + 1))) :
    (parseAddress p (family.addressSize + 1) !addOnly).outputs m =
        [.report (.address (actionOf addOnly (m.slice p (family.addressSize + 1))) family
          (((m.slice p (family.addressSize + 1)).drop 1).take family.addressSize))] ∧
      ∀ a ∈ (parseAddress p (family.addressSize + 1) !addOnly).reads m,
        p ≤ a ∧ a < p + (family.addressSize + 1) := by
  have hreads := reads_parseAction m (p := p) !addOnly
  rw [← value_parseAction m (Nat.succ_pos _) hflag, take_drop_slice m (Nat.lt_succ_self _)]
  cases family with
  | inet | inet6 =>
    refine ⟨by simp [parseAddress, Family.addressSize], ?_⟩
    intro a ha
    simp only [parseAddress, reads_bind, reads_ite, List.mem_append] at ha
    rcases ha with ha | ha
    · have hat := hreads a ha
      omega
    · simp [print, Family.addressSize] at ha ⊢
      omega

/-- A subnet also has the prefix length behind them. -/
lemma parseAttachedSubnet_spec (family : Family)
    (hflag : ActionFlag addOnly (m.slice p (family.addressSize + 2))) :
    (parseAttachedSubnet p (family.addressSize + 2) !addOnly).outputs m =
        [.report (.attachedSubnet (actionOf addOnly (m.slice p (family.addressSize + 2))) family
          (((m.slice p (family.addressSize + 2)).drop 1).take family.addressSize)
          ((m.slice p (family.addressSize + 2)).getD (family.addressSize + 1) 0))] ∧
      ∀ a ∈ (parseAttachedSubnet p (family.addressSize + 2) !addOnly).reads m,
        p ≤ a ∧ a < p + (family.addressSize + 2) := by
  have hreads := reads_parseAction m (p := p) !addOnly
  rw [← value_parseAction m (Nat.succ_pos _) hflag, take_drop_slice m (by omega),
    getD_slice m p _ (Nat.lt_succ_self _)]
  cases family with
  | inet | inet6 =>
    refine ⟨by simp [parseAttachedSubnet, Family.addressSize], ?_⟩
    intro a ha
    simp only [parseAttachedSubnet, reads_bind, reads_ite, List.mem_append] at ha
    rcases ha with ha | ha
    · have hat := hreads a ha
      omega
    · simp [print, Family.addressSize] at ha ⊢
      omega

/-- At a well-formed address item, one line is printed, from the payload alone. -/
lemma parseMetricItem_address {t : DataItemType} (ht : t ∈ MessageKind.addresses) {n : ℕ}
    (h : WellFormed addOnly t (m.slice p n)) :
    (∃ r, addressIn addOnly t (m.slice p n) = some r ∧ addresses [r] = [r] ∧
      (parseMetricItem (!addOnly) t p n).outputs m = [.report r]) ∧
      ∀ a ∈ (parseMetricItem (!addOnly) t p n).reads m, p ≤ a ∧ a < p + n := by
  have hlen := Memory.length_slice m p n
  cases t with
  | ipv4Address =>
    obtain rfl : n = 5 := hlen.symm.trans h.1
    have hspec := parseAddress_spec m .inet h.2
    exact ⟨⟨_, rfl, rfl, hspec.1⟩, hspec.2⟩
  | ipv6Address =>
    obtain rfl : n = 17 := hlen.symm.trans h.1
    have hspec := parseAddress_spec m .inet6 h.2
    exact ⟨⟨_, rfl, rfl, hspec.1⟩, hspec.2⟩
  | ipv4AttSubnet =>
    obtain rfl : n = 6 := hlen.symm.trans h.1
    have hspec := parseAttachedSubnet_spec m .inet h.2.1
    exact ⟨⟨_, rfl, rfl, hspec.1⟩, hspec.2⟩
  | ipv6AttSubnet =>
    obtain rfl : n = 18 := hlen.symm.trans h.1
    have hspec := parseAttachedSubnet_spec m .inet6 h.2.1
    exact ⟨⟨_, rfl, rfl, hspec.1⟩, hspec.2⟩
  | _ => simp [MessageKind.addresses] at ht

end Payload

/-! ### The parsers at address items -/

namespace ParsedMessage

variable (k : ParsedMessage) (m : Memory UInt8) (st : InitResp) {v : Visit UInt16}

/-- At other items no address is reported. -/
lemma item_not_address (h : ∀ t ∈ MessageKind.addresses, DataItemType.ofCode v.tag ≠ some t) :
    addresses (reports ((item st k v).outputs m)) = [] := by
  apply k.filterMap_reports_item m st
  intro t hv r hr
  cases r with
  | address | attachedSubnet =>
    apply absurd hv (h t _)
    simp [Report.itemTypes, MessageKind.addresses] at hr ⊢
    tauto
  | _ => rfl

end ParsedMessage

/-! ### Accepted messages -/

section Accepted

variable {k : ParsedMessage} {m : Memory UInt8} {len : ℕ}

/-- An address item of an accepted message is listed and well formed. -/
lemma address_of_accepts {is : List DataItem} (hacc : k.kind.contents.Accepts is) {i : DataItem}
    (hi : i ∈ is) {t : DataItemType} (hk : DataItemType.ofCode i.tag = some t)
    (ht : t ∈ MessageKind.addresses) :
    (t ∈ k.kind.contents.single ∨ t ∈ k.kind.contents.anyNumber) ∧
      WellFormed k.kind.contents.addOnly t i.body := by
  have hlisted : t ∈ k.kind.contents.single ∨ t ∈ k.kind.contents.anyNumber := by
    by_contra hnot
    have hadm := hacc.1 i hi
    simp only [Contents.Admits, hk, if_neg hnot] at hadm
    cases k with
    | sessionInitResp => exact hnot (.inr ht)
    | _ => exact absurd hadm (by decide)
  exact ⟨hlisted, Contents.wellFormed_of_admits (hacc.1 i hi) hk hlisted⟩

lemma address_of_walk (hacc : k.kind.contents.Accepts (MessageKind.items m len)) {v : Visit UInt16}
    (hv : v ∈ dataItemFormat.walk m len 4) {t : DataItemType}
    (hk : DataItemType.ofCode v.tag = some t) (ht : t ∈ MessageKind.addresses) :
    (t ∈ k.kind.contents.single ∨ t ∈ k.kind.contents.anyNumber) ∧
      WellFormed k.kind.contents.addOnly t (m.slice (v.off + 4) v.len) := by
  have hi := Format.itemAt_mem_items hv
  rw [Format.itemAt_of_mem_walk hv] at hi
  exact address_of_accepts hacc hi hk ht

/-- What is reported at an item of an accepted message. -/
lemma addresses_item (hacc : k.kind.contents.Accepts (MessageKind.items m len))
    {v : Visit UInt16} (hv : v ∈ dataItemFormat.walk m len 4) :
    addresses (reports ((k.item .initial v).outputs m)) =
      (addressOf k.kind.contents.addOnly ⟨v.tag, m.slice (v.off + 4) v.len⟩).toList := by
  by_cases haddr : ∃ t ∈ MessageKind.addresses, DataItemType.ofCode v.tag = some t
  · obtain ⟨t, ht, hk⟩ := haddr
    obtain ⟨hlisted, hwf⟩ := address_of_walk hacc hv hk ht
    obtain ⟨⟨r, hin, hr, hout⟩, -⟩ := parseMetricItem_address m ht hwf
    rw [Scan.outputs, k.trace_item_metric m .initial hk (.inr ht) hlisted, ← Scan.outputs, hout]
    simpa [addressOf, hk, hin] using hr
  · have hnone : addressOf k.kind.contents.addOnly ⟨v.tag, m.slice (v.off + 4) v.len⟩ = none := by
      cases hk : DataItemType.ofCode v.tag with
      | none => simp [addressOf, hk]
      | some t =>
        have ht : t ∉ MessageKind.addresses := fun ht => haddr ⟨t, ht, hk⟩
        cases t with
        | ipv4Address | ipv6Address | ipv4AttSubnet | ipv6AttSubnet =>
          exact absurd (by decide) ht
        | _ => simp [addressOf, hk, addressIn]
    rw [k.item_not_address m .initial fun t ht hk => haddr ⟨t, ht, hk⟩, hnone]
    rfl

/-- In accepted messages whose items tile the payload, addresses are reported right. -/
theorem check_success_reportsAddresses (k : ParsedMessage) (m : Memory UInt8) (len : ℕ)
    (hacc : (k.kind.check len).value m = .success) (htiles : dataItemFormat.Tiles m 4 len) :
    ReportsAddresses k m len := by
  obtain ⟨hhead, hacc⟩ := (k.kind.check_eq_success_iff m len).mp hacc
  have hitems : MessageKind.items m len = (splitPayload m len).1 := Format.items_eq_of_tiles htiles
  refine ⟨?_, ?_, fun st => k.trace_parse m len st hhead, ?_⟩
  · rw [← hitems]
    exact k.filterMap_reports_parse m rfl hhead fun v hv => addresses_item hacc hv
  · intro i hi t ht hk
    exact (address_of_accepts hacc (hitems ▸ hi) hk ht).2
  · intro st v hv t ht hk
    obtain ⟨hlisted, hwf⟩ := address_of_walk hacc hv hk ht
    rw [Scan.reads, k.trace_item_metric m st hk (.inr ht) hlisted, ← Scan.reads]
    exact (parseMetricItem_address m ht hwf).2

/-- A Session Update that adds an address and drops a subnet. -/
def addressUpdate : List UInt8 :=
  [0x00, 0x03, 0x00, 0x13, 0x00, 0x08, 0x00, 0x05, 1, 192, 0, 2, 1, 0x00, 0x0A, 0x00, 0x06, 0, 198,
    51, 100, 0, 24]

theorem reportsAddresses_addressUpdate :
    ReportsAddresses .sessionUpdate (.overlay addressUpdate fun _ => 0) 23 :=
  check_success_reportsAddresses .sessionUpdate _ 23 (by decide)
    (.item (by decide) (.item (by decide) (.done 23)))

end Accepted

end DlepRouter
