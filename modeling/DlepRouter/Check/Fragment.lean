import DlepRouter.Check.Validators
import DlepRouter.Tlv.Overrun

/-!
# Messages that end inside a data item

A validator takes the item at which a message ends from memory, so it answers for an item of which
it knows a beginning only. `Contents.Open` says which type that item may have. Where items of the
type have a fixed shape, the beginning leaves open how the item ends, and perhaps how it starts.
-/

namespace DlepRouter

open Tlv Scan

/-! ### Items of a fixed shape -/

/-- The payload of items with a fixed length: whether they start with an action flag, and the bound
on their last octet. -/
structure Shape where
  width : ℕ
  flagged : Bool
  limit : UInt8
  deriving DecidableEq

/-- The shape of the types whose items all have one length. -/
def DataItemType.shape : DataItemType → Option Shape
  | macAddress => some ⟨6, false, 255⟩
  | ipv4Address => some ⟨5, true, 255⟩
  | ipv6Address => some ⟨17, true, 255⟩
  | ipv4AttSubnet => some ⟨6, true, 32⟩
  | ipv6AttSubnet => some ⟨18, true, 128⟩
  | mdrr | mdrt | cdrr | cdrt | latency => some ⟨8, false, 255⟩
  | resources | rlqr | rlqt => some ⟨1, false, 100⟩
  | mtu => some ⟨2, false, 255⟩
  | _ => none

section Shape

variable {addOnly : Bool} {t : DataItemType} {s : Shape}

lemma le_max (x : UInt8) : x ≤ 255 := by
  have := x.toNat_lt
  rw [UInt8.le_iff_toNat_le]
  change x.toNat ≤ 255
  omega

/-- The octets of a fixed shape that a check looks at are the flag and the last one. -/
lemma wellFormed_iff_of_shape (h : t.shape = some s) (l : List UInt8) :
    WellFormed addOnly t l ↔ l.length = s.width ∧ (s.flagged → ActionFlag addOnly l) ∧
      l.getD (s.width - 1) 0 ≤ s.limit := by
  cases t with
  | status | ipv4ConnPoint | ipv6ConnPoint | peerType | heartbeatInterval | extsSupp => cases h
  | macAddress | mdrr | mdrt | cdrr | cdrt | latency | mtu =>
    obtain rfl := Option.some.inj h
    simp [WellFormed, le_max]
  | ipv4Address | ipv6Address =>
    obtain rfl := Option.some.inj h
    simp [WellFormed, le_max]
  | ipv4AttSubnet | ipv6AttSubnet =>
    obtain rfl := Option.some.inj h
    simp [WellFormed]
  | resources | rlqr | rlqt =>
    obtain rfl := Option.some.inj h
    simp [WellFormed]

lemma width_of_shape (h : t.shape = some s) :
    0 < s.width ∧ s.width < 255 ∧ (s.flagged → 1 < s.width) := by
  cases t <;> first | cases h; done | (obtain rfl := Option.some.inj h; decide)

end Shape

/-! ### Payloads with a given beginning and end -/

/-- `n` octets that begin with `f`, or with `first` if `f` is empty, and end with `last`. -/
def payload (n : ℕ) (f : List UInt8) (first last : UInt8) : List UInt8 :=
  (f ++ first :: List.replicate n 0).take (n - 1) ++ [last]

section Payload

variable {n : ℕ} {f : List UInt8} {first last : UInt8}

lemma length_payload (hn : 0 < n) : (payload n f first last).length = n := by
  simp only [payload, List.length_append, List.length_take, List.length_cons,
    List.length_replicate, List.length_nil]
  omega

lemma prefix_payload (hf : f.length < n) : f <+: payload n f first last := by
  rw [payload, List.take_append, List.take_of_length_le (by omega), List.append_assoc]
  exact List.prefix_append ..

lemma getD_last_payload (hn : 0 < n) : (payload n f first last).getD (n - 1) 0 = last := by
  have hlen : ((f ++ first :: List.replicate n 0).take (n - 1)).length = n - 1 := by
    simp only [List.length_take, List.length_append, List.length_cons, List.length_replicate]
    omega
  rw [payload, List.getD_append_right _ _ _ _ (by omega), hlen, Nat.sub_self]
  rfl

lemma getD_zero_payload (hn : 1 < n) : (payload n f first last).getD 0 0 = f.getD 0 first := by
  obtain ⟨n, rfl⟩ : ∃ k, n = k + 2 := Nat.exists_eq_add_of_le' hn
  cases f with
  | nil => rfl
  | cons a f => rfl

end Payload

section Complete

variable {addOnly : Bool} {t : DataItemType} {s : Shape} {f l : List UInt8}

lemma actionFlag_iff_of_begins (hf : f ≠ []) (h : f <+: l) :
    ActionFlag addOnly f ↔ ActionFlag addOnly l := by
  obtain ⟨r, rfl⟩ := h
  cases f with
  | nil => exact absurd rfl hf
  | cons a f => rfl

/-- A beginning whose flag is not wrong has a well-formed end. -/
lemma wellFormed_payload (h : t.shape = some s) (hf : f.length < s.width)
    (hflag : s.flagged → f = [] ∨ ActionFlag addOnly f) :
    WellFormed addOnly t (payload s.width f 1 0) := by
  obtain ⟨hpos, -, hflagged⟩ := width_of_shape h
  rw [wellFormed_iff_of_shape h, getD_last_payload hpos]
  refine ⟨length_payload hpos, ?_, UInt8.zero_le⟩
  intro hs
  by_cases hnil : f = []
  · rw [hnil]
    exact .inl (getD_zero_payload (hflagged hs))
  · exact (actionFlag_iff_of_begins hnil (prefix_payload hf)).mp ((hflag hs).resolve_left hnil)

/-- Up to its last octet, the header of an item does not tell an item of fixed shape from a longer
one. -/
lemma prefix_write_succ (h : t.shape = some s) (hf : f.length < 4)
    (hpre : f <+: dataItemFormat.write t.code s.width) :
    f <+: dataItemFormat.write t.code (s.width + 1) := by
  have htake : (dataItemFormat.write t.code s.width).take 3 =
      (dataItemFormat.write t.code (s.width + 1)).take 3 := by
    cases t <;> first | (cases h; done) | (obtain rfl := Option.some.inj h; decide)
  rw [List.prefix_iff_eq_take] at hpre ⊢
  have htake' := congrArg (List.take f.length) htake
  rw [List.take_take, List.take_take, Nat.min_eq_left (by omega)] at htake'
  rw [← htake']
  exact hpre

end Complete

/-! ### Items that complete a message -/

namespace Contents

variable (c : Contents)

/-- Behind the items `is`, one of type `t` makes up the contents, if it is well formed. -/
def Open (is : List DataItem) (t : DataItemType) : Prop :=
  (t ∈ c.single ∨ t ∈ c.anyNumber) ∧ (∀ i ∈ is, c.Admits i) ∧
    (∀ u ∈ c.exactlyOnce, occurrences u is + (if t = u then 1 else 0) = 1) ∧
    ∀ u ∈ c.atMostOnce, occurrences u is + (if t = u then 1 else 0) ≤ 1

variable {c}

lemma occurrences_concat (u : DataItemType) (is : List DataItem) (i : DataItem) :
    occurrences u (is ++ [i]) =
      occurrences u is + if DataItemType.ofCode i.tag = some u then 1 else 0 := by
  simp [occurrences, List.countP_append, List.countP_singleton]

/-- Where other types are refused, the last item must be of an open type and well formed. -/
lemma accepts_concat_iff (hothers : c.othersIgnored = false) {is : List DataItem} {i : DataItem} :
    c.Accepts (is ++ [i]) ↔ ∃ t, DataItemType.ofCode i.tag = some t ∧ c.Open is t ∧
      WellFormed c.addOnly t i.body := by
  simp only [Accepts, occurrences_concat, List.forall_mem_append, List.forall_mem_singleton]
  cases ht : DataItemType.ofCode i.tag with
  | none => simp [Admits, ht, hothers]
  | some t =>
    simp only [Option.some.injEq]
    constructor
    · rintro ⟨⟨hadm, hi⟩, hone, hopt⟩
      have hlisted : t ∈ c.single ∨ t ∈ c.anyNumber := by
        by_contra h
        simp [Admits, ht, h, hothers] at hi
      exact ⟨t, rfl, ⟨hlisted, hadm, hone, hopt⟩, wellFormed_of_admits hi ht hlisted⟩
    · rintro ⟨t, rfl, ⟨hlisted, hadm, hone, hopt⟩, hwf⟩
      have hi : c.Admits i := by
        simp only [Admits, ht, if_pos hlisted]
        exact hwf
      exact ⟨⟨hadm, hi⟩, hone, hopt⟩

end Contents

end DlepRouter
