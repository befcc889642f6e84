import DlepRouter.Check.Contents

/-!
# What the message validators accept

The contents of the seven messages with a validator. On any memory, a validator accepts exactly if
the header is right and the items of the walk over the payload, including one that runs past the
message, make up the contents; and then its loop has visited the whole walk.
-/

namespace DlepRouter

open Tlv Scan

/-! ### The seven messages -/

/-- The messages that have a validator. -/
inductive MessageKind where
  | sessionInitResp
  | heartbeat
  | sessionTerm
  | sessionUpdate
  | destinationUp
  | destinationUpdate
  | destinationDown
  deriving DecidableEq

namespace MessageKind

def messageType : MessageKind → MessageType
  | sessionInitResp => .sessionInitResp
  | heartbeat => .peerHeartbeat
  | sessionTerm => .sessionTerm
  | sessionUpdate => .sessionUpdate
  | destinationUp => .destUp
  | destinationUpdate => .destUpdate
  | destinationDown => .destDown

/-- The validator of a message. -/
def check : MessageKind → ℕ → Reader StatusCode
  | sessionInitResp => checkSessionInitRespMessage
  | heartbeat => checkHeartbeatMessage
  | sessionTerm => checkSessionTermMessage
  | sessionUpdate => checkSessionUpdateMessage
  | destinationUp => checkDestinationUpMessage
  | destinationUpdate => checkDestinationUpdateMessage
  | destinationDown => checkDestinationDownMessage

/-- The number of a message tells its kind. -/
lemma code_injective {k k' : MessageKind}
    (h : k.messageType.code.toNat = k'.messageType.code.toNat) : k = k' := by
  cases k <;> cases k' <;> first | rfl | exact absurd h (by decide)

/-- The metrics that an update may carry. -/
def metrics : List DataItemType :=
  [.mdrr, .mdrt, .cdrr, .cdrt, .latency, .resources, .rlqr, .rlqt, .mtu]

/-- The addresses and subnets of a modem or a destination. -/
def addresses : List DataItemType :=
  [.ipv4Address, .ipv6Address, .ipv4AttSubnet, .ipv6AttSubnet]

/-- What the payload of each message is meant to hold. -/
def contents : MessageKind → Contents
  | sessionInitResp =>
    { exactlyOnce := [.status, .peerType, .heartbeatInterval, .mdrr, .mdrt, .cdrr, .cdrt, .latency]
      atMostOnce := [.resources, .rlqr, .rlqt, .mtu, .extsSupp]
      anyNumber := addresses
      addOnly := true
      othersIgnored := true }
  | heartbeat => .nothing
  | sessionTerm => .only .status
  | sessionUpdate =>
    { exactlyOnce := [], atMostOnce := metrics, anyNumber := addresses, addOnly := false
      othersIgnored := false }
  | destinationUp =>
    { exactlyOnce := [.macAddress], atMostOnce := metrics, anyNumber := addresses, addOnly := true
      othersIgnored := false }
  | destinationUpdate =>
    { exactlyOnce := [.macAddress], atMostOnce := metrics, anyNumber := addresses, addOnly := false
      othersIgnored := false }
  | destinationDown => .only .macAddress

/-- The `switch` of each validator. -/
def rules : MessageKind → Option DataItemType → Rule
  | sessionInitResp => sessionInitRespRule
  | heartbeat => heartbeatRule
  | sessionTerm => sessionTermRule
  | sessionUpdate => sessionUpdateRule
  | destinationUp => destinationUpRule
  | destinationUpdate => destinationUpdateRule
  | destinationDown => destinationDownRule

/-- Every `switch` treats every type as the contents of the message call for. -/
lemma rules_eq (k : MessageKind) : k.rules = k.contents.rule := by
  funext t
  cases t with
  | none => cases k <;> rfl
  | some t => cases k <;> cases t <;> rfl

/-- Every validator has the `switch` and the mandatory items of its contents. -/
theorem check_eq (k : MessageKind) :
    k.check = checkMessageItems k.messageType k.contents.rule k.contents.exactlyOnce := by
  rw [← rules_eq]
  cases k <;> rfl

end MessageKind

/-! ### The header -/

/-- The `len` octets in `m` start with the header of a message of type `t` whose length field says
that the message is `len` octets long. -/
def Headed (m : Memory UInt8) (len : ℕ) (t : MessageType) : Prop :=
  4 ≤ len ∧ bigEndian (m.slice 0 2) = t.code.toNat ∧ bigEndian (m.slice 2 2) = len - 4

instance (m : Memory UInt8) (len : ℕ) (t : MessageType) : Decidable (Headed m len t) :=
  inferInstanceAs (Decidable (_ ∧ _ ∧ _))

section Header

variable (m : Memory UInt8) (len : ℕ) (t : MessageType)

/-- The number of the message a header announces is compared first, then its length. -/
lemma value_checkMessage :
    (checkMessage len t).value m =
      if len < 4 then .invalidData
      else if bigEndian (m.slice 0 2) ≠ t.code.toNat then .unexpectedMessage
      else verdict (Headed m len t) := by
  have htype : (readUint16 0).value m = t.code ↔ bigEndian (m.slice 0 2) = t.code.toNat := by
    rw [← toNat_readUint16, UInt16.toNat_inj]
  by_cases hlen : len < 4
  · simp [checkMessage, hlen]
  · by_cases ht : bigEndian (m.slice 0 2) = t.code.toNat
    · by_cases hn : bigEndian (m.slice 2 2) = len - 4 <;>
        simp [checkMessage, hlen, htype, ht, toNat_readUint16, hn, Headed, verdict]
    · simp [checkMessage, hlen, htype, ht]

lemma checkMessage_eq_success_iff : (checkMessage len t).value m = .success ↔ Headed m len t := by
  rw [value_checkMessage]
  split_ifs with hlen ht
  · simp [Headed]
    omega
  · simp [Headed, ht]
  · exact verdict_eq_success

lemma outputs_checkMessage : (checkMessage len t).outputs m = [] := by
  simp [checkMessage]

end Header

/-! ### The items -/

section Items

variable (c : Contents) (m : Memory UInt8) (len : ℕ)

lemma stands_checkItems :
    Checked.Stands ((checkItems c.rule len).value m).2
      (c.grammar.run [] (dataItemFormat.items m len 4)) :=
  (recognises_checkItem c m).value len 4 rfl

/-- Behind a right header, a validator decides whether the items of the walk are accepted. -/
lemma value_checkMessageItems {t : MessageType} (h : Headed m len t) :
    (checkMessageItems t c.rule c.exactlyOnce len).value m =
      verdict (c.Accepts (dataItemFormat.items m len 4)) := by
  have hst := stands_checkItems c m len
  have hacc : c.grammar.Accepts (dataItemFormat.items m len 4) ↔
      c.Accepts (dataItemFormat.items m len 4) := c.accepts_grammar_iff
  rw [← Grammar.exists_run_iff] at hacc
  simp only [checkMessageItems, value_bind, (checkMessage_eq_success_iff m len t).mpr h, if_true]
  cases hrun : c.grammar.run [] (dataItemFormat.items m len 4) with
  | none =>
    rw [hrun] at hst hacc
    have hno : ¬ c.Accepts (dataItemFormat.items m len 4) := by
      intro ha
      simpa using hacc.mpr ha
    simp [show ((checkItems c.rule len).value m).2.sc = .invalidData from hst, verdict, hno]
  | some seen =>
    rw [hrun] at hst hacc
    have hyes : (∀ t ∈ c.exactlyOnce, some t ∈ seen) ↔
        c.Accepts (dataItemFormat.items m len 4) := by
      simpa [Contents.grammar] using hacc
    simp only [show ((checkItems c.rule len).value m).2 = ⟨.success, seen⟩ from hst]
    by_cases ha : c.Accepts (dataItemFormat.items m len 4)
    · simpa [verdict, ha] using hyes.mpr ha
    · have hno := mt hyes.mp ha
      simp [verdict, ha, hno]

variable {c m len} in
/-- The walk over accepted items visits one of each type that must occur. -/
lemma exists_only_visit {t : DataItemType} (ha : c.Accepts (dataItemFormat.items m len 4))
    (ht : t ∈ c.exactlyOnce) :
    ∃ v, (dataItemFormat.walk m len 4).filter (fun v => DataItemType.ofCode v.tag = some t) = [v] ∧
      Contents.payloads t (dataItemFormat.items m len 4) = [m.slice (v.off + 4) v.len] ∧
      WellFormed c.addOnly t (m.slice (v.off + 4) v.len) := by
  obtain ⟨hadm, hone, -⟩ := ha
  have hfilter : (dataItemFormat.items m len 4).filter (DataItemType.ofCode ·.tag = some t) =
      ((dataItemFormat.walk m len 4).filter (DataItemType.ofCode ·.tag = some t)).map
        fun v => dataItemFormat.itemAt m v.off := by
    rw [Format.items, List.filter_map]
    congr 1
    apply List.filter_congr
    intro v hv
    rw [Function.comp_apply, Format.itemAt_of_mem_walk hv]
  have hlen := hone t ht
  rw [← Contents.length_payloads, Contents.payloads, List.length_map, hfilter, List.length_map]
    at hlen
  obtain ⟨v, hv⟩ := List.length_eq_one_iff.mp hlen
  have hmem := List.mem_filter.mp (hv ▸ List.mem_singleton_self v)
  have hitem := Format.itemAt_of_mem_walk hmem.1
  have hwf := Contents.wellFormed_of_admits (hadm _ (Format.itemAt_mem_items hmem.1))
    (by simpa [hitem] using hmem.2) (.inl (List.mem_append_left _ ht))
  refine ⟨v, hv, ?_, ?_⟩
  · rw [Contents.payloads, hfilter, hv, List.map_singleton, List.map_singleton, hitem]
    rfl
  · rw [hitem] at hwf
    exact hwf

/-- The loop of a validator that found nothing wrong has visited the whole walk. -/
lemma outputs_checkMessageItems {t : MessageType} (h : Headed m len t)
    (ha : c.Accepts (dataItemFormat.items m len 4)) :
    (checkMessageItems t c.rule c.exactlyOnce len).outputs m =
      (dataItemFormat.walk m len 4).map .visit := by
  obtain ⟨seen, hrun, -⟩ := Grammar.exists_run_iff.mpr (c.accepts_grammar_iff.mpr ha)
  have hinit : Checked.Stands ⟨.success, []⟩ (some []) := rfl
  have hout := (recognises_checkItem c m).outputs len 4 hinit
    (Option.isSome_iff_exists.mpr ⟨seen, hrun⟩)
  simp only [checkMessageItems, outputs_bind, outputs_checkMessage, List.nil_append,
    (checkMessage_eq_success_iff m len t).mpr h, if_true, outputs_ite,
    Interaction.Program.pure_eq_ret, outputs_ret, ite_self, List.append_nil]
  exact hout

/-- A validator emits nothing but its visits. -/
lemma eq_visit_of_mem_outputs_checkMessageItems {t : MessageType} {mandatory : List DataItemType}
    {o : Output} (ho : o ∈ (checkMessageItems t c.rule mandatory len).outputs m) :
    ∃ v, o = .visit v := by
  simp only [checkMessageItems, outputs_bind, outputs_checkMessage, List.nil_append, outputs_ite,
    Interaction.Program.pure_eq_ret, outputs_ret, ite_self, List.append_nil] at ho
  split_ifs at ho
  · exact Walker.eq_mark_of_mem_outputs_loop m (outputs_checkItem c m) ho
  · cases ho

end Items

/-! ### Each validator -/

namespace MessageKind

variable (k : MessageKind) (m : Memory UInt8) (len : ℕ)

/-- The items that the validator of a message visits on a memory. -/
abbrev items : List DataItem := dataItemFormat.items m len 4

/-- What a validator answers, for any contents of the memory. -/
theorem value_check :
    (k.check len).value m =
      if len < 4 then .invalidData
      else if bigEndian (m.slice 0 2) ≠ k.messageType.code.toNat then .unexpectedMessage
      else verdict (Headed m len k.messageType ∧ k.contents.Accepts (items m len)) := by
  rw [k.check_eq]
  by_cases h : Headed m len k.messageType
  · rw [value_checkMessageItems _ _ _ h, if_neg (Nat.not_lt.mpr h.1), if_neg (by simp [h.2.1])]
    exact verdict_congr (by simp [h])
  · have hsc := mt (checkMessage_eq_success_iff m len k.messageType).mp h
    simp only [checkMessageItems, value_bind, hsc, if_false]
    simp [value_checkMessage, h, verdict]

/-- A validator accepts exactly if the header is right and the items are those of the message. -/
theorem check_eq_success_iff :
    (k.check len).value m = .success ↔
      Headed m len k.messageType ∧ k.contents.Accepts (items m len) := by
  rw [value_check]
  split_ifs with hlen ht
  · simp [Headed]
    omega
  · simp [Headed, ht]
  · exact verdict_eq_success

/-- A validator that is given a message of its own type answers Success or Invalid Data. -/
lemma value_check_of_type (h : bigEndian (m.slice 0 2) = k.messageType.code.toNat) :
    (k.check len).value m =
      verdict (Headed m len k.messageType ∧ k.contents.Accepts (items m len)) := by
  rw [value_check]
  split_ifs with hlen
  · have hshort : ¬ Headed m len k.messageType := by
      intro hhead
      exact Nat.not_le.mpr hlen hhead.1
    simp [verdict, hshort]
  · exact absurd h ‹_›
  · rfl

/-- A validator that accepts has visited the whole walk and emitted nothing else. -/
theorem outputs_check (h : (k.check len).value m = .success) :
    (k.check len).outputs m = (dataItemFormat.walk m len 4).map .visit := by
  obtain ⟨hhead, hacc⟩ := (k.check_eq_success_iff m len).mp h
  rw [k.check_eq]
  exact outputs_checkMessageItems _ m len hhead hacc

/-- A validator prints nothing and sends nothing, whether it accepts or not. -/
lemma silent_check :
    reports ((k.check len).outputs m) = [] ∧ responses ((k.check len).outputs m) = [] := by
  have hvisit : ∀ o ∈ (k.check len).outputs m, ∃ v, o = .visit v := by
    intro o ho
    rw [k.check_eq] at ho
    exact eq_visit_of_mem_outputs_checkMessageItems _ m len ho
  constructor <;>
  · apply List.filterMap_eq_nil_iff.mpr
    intro o ho
    obtain ⟨v, rfl⟩ := hvisit o ho
    rfl

end MessageKind

end DlepRouter
