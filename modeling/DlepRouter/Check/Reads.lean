import DlepRouter.Check.Accept
import DlepRouter.Check.PeerOffer
import DlepRouter.Tlv.Bounds

/-!
# Which octets the validators read

A check reads a number of octets from the start of its payload that depends on the declared length
and on the first octet. None of the loops compares the end of an item with the end of the message
before it checks the item, so a message that ends inside an item may be read past its end.
-/

namespace DlepRouter

open Tlv Scan

/-! ### The octets a check looks at -/

/-- How many octets of a payload that is declared to have `n` octets and begins with `l` are looked
at by the check of its type. -/
def lookedAt (addOnly : Bool) (n : ℕ) (l : List UInt8) : DataItemType → ℕ
  | .status => if 1 ≤ n then max 1 (n - 1) else 0
  | .peerType => if 1 ≤ n then if FlagsClear l then max 1 (n - 1) else 1 else 0
  | .heartbeatInterval => if n = 4 then 4 else 0
  | .extsSupp => if n % 2 = 0 then n else 0
  | .ipv4ConnPoint => if n = 5 ∨ n = 7 then 1 else 0
  | .ipv6ConnPoint => if n = 17 ∨ n = 19 then 1 else 0
  | .ipv4Address => if n = 5 then 1 else 0
  | .ipv6Address => if n = 17 then 1 else 0
  | .ipv4AttSubnet => if n = 6 then if ActionFlag addOnly l then 6 else 1 else 0
  | .ipv6AttSubnet => if n = 18 then if ActionFlag addOnly l then 18 else 1 else 0
  | .latency => if n = 8 then 8 else 0
  | .resources | .rlqr | .rlqt => if n = 1 then 1 else 0
  | .macAddress | .mdrr | .mdrt | .cdrr | .cdrt | .mtu => 0

section Checks

variable (m : Memory UInt8) {p n e : ℕ} (addOnly : Bool)

/-- A check that reads the first `k` octets of a payload, if it reads any. -/
lemma forall_reads_lt_iff {check : Reader StatusCode} {c : Prop} [Decidable c] {k : ℕ}
    (hreads : check.reads m = if c then List.range' p k else []) (hp : p ≤ e) :
    (∀ a ∈ check.reads m, a < e) ↔ p + (if c then k else 0) ≤ e := by
  rw [hreads]
  by_cases hc : c
  · rw [if_pos hc, if_pos hc, forall_range'_lt_iff hp]
  · rw [if_neg hc, if_neg hc]
    exact iff_of_true nofun hp

/-- An octet and those behind it, up to the last but one of `n`. -/
lemma range'_octets (hn : 1 ≤ n) :
    p :: List.range' (p + 1) (n - 2) = List.range' p (max 1 (n - 1)) := by
  rw [show max 1 (n - 1) = (n - 2) + 1 by omega, List.range'_succ]

lemma reads_checkStatus :
    (checkStatus p n).reads m = if 1 ≤ n then List.range' p (max 1 (n - 1)) else [] := by
  by_cases hn : 1 ≤ n
  · rw [if_pos hn, ← range'_octets hn]
    simp [checkStatus, Nat.not_lt.mpr hn]
  · simp [checkStatus, Nat.lt_of_not_le hn, hn]

lemma reads_checkPeerType_lt_iff (hp : p ≤ e) :
    (∀ a ∈ (checkPeerType p n).reads m, a < e) ↔
      p + lookedAt addOnly n (m.slice p n) .peerType ≤ e := by
  by_cases hn : 1 ≤ n
  · have hflags := flagsClear_slice_iff m p n hn
    have hlen := Nat.not_lt.mpr hn
    rw [lookedAt, if_pos hn]
    by_cases hclear : m p &&& 0xFE = 0
    · have hreads : (checkPeerType p n).reads m = List.range' p (max 1 (n - 1)) := by
        rw [← range'_octets hn]
        simp [checkPeerType, hlen, hclear]
      rw [hreads, forall_range'_lt_iff hp, if_pos (hflags.mpr hclear)]
    · have hreads : (checkPeerType p n).reads m = List.range' p 1 := by
        simp [checkPeerType, hlen, hclear]
      rw [hreads, forall_range'_lt_iff hp, if_neg (mt hflags.mp hclear)]
  · simp [checkPeerType, lookedAt, Nat.lt_of_not_le hn, hn, hp]

lemma reads_checkHeartbeatInterval :
    (checkHeartbeatInterval p n).reads m = if n = 4 then List.range' p 4 else [] := by
  simp [checkHeartbeatInterval, checkLength_eq]

lemma reads_checkConnectionPoint (short long : ℕ) :
    (checkConnectionPoint short long p n).reads m =
      if n = short ∨ n = long then List.range' p 1 else [] := by
  by_cases hn : n = short ∨ n = long
  · have hlen : ¬ (n ≠ short ∧ n ≠ long) := by tauto
    simp [checkConnectionPoint, hn, hlen]
  · simp [checkConnectionPoint, not_or.mp hn]

lemma reads_checkAddress (k : ℕ) :
    (checkAddress k p n addOnly).reads m = if n = k then List.range' p 1 else [] := by
  simp [checkAddress, checkLength_eq]

/-- The octet with the prefix length is looked at only behind a flag that is in order. -/
lemma reads_checkAttachedSubnet_lt_iff {k : ℕ} (hk : 1 < k) (maxPrefix : UInt8) (hp : p ≤ e) :
    (∀ a ∈ (checkAttachedSubnet k maxPrefix p n addOnly).reads m, a < e) ↔
      p + (if n = k then if ActionFlag addOnly (m.slice p n) then k else 1 else 0) ≤ e := by
  by_cases hn : n = k
  · subst hn
    have hflag := actionFlag_slice_iff m p n addOnly (Nat.lt_trans Nat.one_pos hk)
    rw [if_pos rfl]
    by_cases hadd : ActionFlag addOnly (m.slice p n)
    · obtain ⟨hclear, hdrop⟩ := hflag.mp hadd
      have hreads : (checkAttachedSubnet n maxPrefix p n addOnly).reads m = [p, p + (n - 1)] := by
        simp [checkAttachedSubnet, checkLength_eq, hclear, hdrop]
      rw [hreads, if_pos hadd, List.forall_mem_cons, List.forall_mem_singleton]
      omega
    · have hreads : (checkAttachedSubnet n maxPrefix p n addOnly).reads m = List.range' p 1 := by
        have hbad := mt hflag.mpr hadd
        by_cases hclear : m p &&& 0xFE = 0
        · have hdrop : addOnly = true ∧ m p = 0 := by tauto
          simp [checkAttachedSubnet, checkLength_eq, hdrop]
        · simp [checkAttachedSubnet, checkLength_eq, hclear]
      rw [hreads, if_neg hadd, forall_range'_lt_iff hp]
  · simp [checkAttachedSubnet, checkLength_eq, hn, hp]

lemma reads_checkLatency :
    (checkLatency p n).reads m = if n = 8 then List.range' p 8 else [] := by
  simp [checkLatency, checkLength_eq]

lemma reads_checkPercentage :
    (checkPercentage p n).reads m = if n = 1 then List.range' p 1 else [] := by
  simp [checkPercentage, checkLength_eq]

lemma reads_checkExtensionsSupported :
    (checkExtensionsSupported p n).reads m = if n % 2 = 0 then List.range' p n else [] := by
  by_cases h0 : n = 0
  · simp [checkExtensionsSupported, h0]
  · rcases Nat.mod_two_eq_zero_or_one n with heven | hodd
    · have hhalf : 2 * (n / 2) = n := Nat.mul_div_cancel' (Nat.dvd_of_mod_eq_zero heven)
      simp [checkExtensionsSupported, h0, heven, reads_checkExtensionIds, hhalf]
    · simp [checkExtensionsSupported, h0, hodd]

/-- The check of an item stays before `e` if the octets it looks at do. -/
lemma reads_checkDataItem_lt_iff (hp : p ≤ e) (t : DataItemType) :
    (∀ a ∈ (checkDataItem addOnly t p n).reads m, a < e) ↔
      p + lookedAt addOnly n (m.slice p n) t ≤ e := by
  cases t with
  | status => exact forall_reads_lt_iff m (reads_checkStatus m) hp
  | peerType => exact reads_checkPeerType_lt_iff m addOnly hp
  | heartbeatInterval => exact forall_reads_lt_iff m (reads_checkHeartbeatInterval m) hp
  | extsSupp => exact forall_reads_lt_iff m (reads_checkExtensionsSupported m) hp
  | ipv4ConnPoint => exact forall_reads_lt_iff m (reads_checkConnectionPoint m 5 7) hp
  | ipv6ConnPoint => exact forall_reads_lt_iff m (reads_checkConnectionPoint m 17 19) hp
  | ipv4Address => exact forall_reads_lt_iff m (reads_checkAddress m addOnly 5) hp
  | ipv6Address => exact forall_reads_lt_iff m (reads_checkAddress m addOnly 17) hp
  | ipv4AttSubnet => exact reads_checkAttachedSubnet_lt_iff m addOnly (by decide) 32 hp
  | ipv6AttSubnet => exact reads_checkAttachedSubnet_lt_iff m addOnly (by decide) 128 hp
  | latency => exact forall_reads_lt_iff m (reads_checkLatency m) hp
  | resources | rlqr | rlqt => exact forall_reads_lt_iff m (reads_checkPercentage m) hp
  | macAddress | mdrr | mdrt | cdrr | cdrt | mtu => exact iff_of_true nofun hp

/-- How far a check looks is decided by the declared length and the octets received. -/
lemma lookedAt_slice_le_iff {k : ℕ} (hk : k < n) (t : DataItemType) :
    lookedAt addOnly n (m.slice p n) t ≤ k ↔ lookedAt addOnly n (m.slice p k) t ≤ k := by
  cases k with
  | zero =>
    cases t <;> simp only [lookedAt] <;> split_ifs <;> omega
  | succ k =>
    have hfirst : (m.slice p n).getD 0 0 = (m.slice p (k + 1)).getD 0 0 := by
      rw [getD_slice m p n (by omega), getD_slice m p (k + 1) (by omega)]
    have hclear : FlagsClear (m.slice p n) ↔ FlagsClear (m.slice p (k + 1)) := by
      rw [FlagsClear, FlagsClear, hfirst]
    have hadd : ActionFlag addOnly (m.slice p n) ↔ ActionFlag addOnly (m.slice p (k + 1)) := by
      rw [ActionFlag, ActionFlag, hfirst]
    cases t <;> simp only [lookedAt, hclear, hadd]

end Checks

/-! ### Items that are cut off -/

/-- The check of an item of type `t` that is cut off looks behind the octets `f` received of it. -/
def LooksBehind (addOnly : Bool) (t : DataItemType) (f : List UInt8) : Prop :=
  f.length < 4 + lookedAt addOnly (dataItemFormat.read (f.take 4)).2 (f.drop 4) t

/-- A message that ends with the fragment `f` of an item makes a loop that checks the items of some
types read behind its end: the header is cut off, or the check looks behind the fragment. -/
def StraysFrom (addOnly : Bool) (checked : DataItemType → Prop) (f : List UInt8) : Prop :=
  f ≠ [] ∧ (f.length < 4 ∨
    ∃ t, DataItemType.ofCode (dataItemFormat.read (f.take 4)).1 = some t ∧ checked t ∧
      LooksBehind addOnly t f)

section Fragment

variable {m : Memory UInt8} {stop : ℕ} {f : List UInt8}

/-- The check of the item at a fragment stays before the end if it does not look behind it. -/
lemma reads_fragment_lt_iff (addOnly : Bool) (t : DataItemType) (hle : f.length ≤ stop)
    (hf : m.slice (stop - f.length) f.length = f) (hwidth : 4 ≤ f.length)
    (hcut : ¬ dataItemFormat.Complete f) :
    (∀ a ∈ (checkDataItem addOnly t (stop - f.length + 4)
        (dataItemFormat.visitAt m (stop - f.length)).len).reads m, a < stop) ↔
      ¬ LooksBehind addOnly t f := by
  obtain ⟨k, hk⟩ := Nat.exists_eq_add_of_le hwidth
  have hhead : f.take 4 = m.slice (stop - f.length) 4 := by
    conv_lhs => rw [← hf]
    exact Memory.take_slice m _ hwidth
  have hlen : (dataItemFormat.visitAt m (stop - f.length)).len =
      (dataItemFormat.read (f.take 4)).2 := by
    rw [hhead]
    rfl
  have hbody : f.drop 4 = m.slice (stop - f.length + 4) k := by
    conv_lhs => rw [← hf]
    rw [Memory.drop_slice m _ hwidth, hk, Nat.add_sub_cancel_left]
  have hlt : k < (dataItemFormat.read (f.take 4)).2 := by
    have h := Nat.lt_of_not_le hcut
    rw [hk] at h
    exact Nat.lt_of_add_lt_add_left h
  have hreach : ∀ d, stop - f.length + 4 + d ≤ stop ↔ d ≤ k := by
    intro d
    omega
  rw [reads_checkDataItem_lt_iff m addOnly (by omega), LooksBehind, Nat.not_lt, hlen, hreach,
    lookedAt_slice_le_iff m addOnly hlt, ← hbody, hk, Nat.add_le_add_iff_left]

/-- A round checks the item at the pointer, if its type is one that `Q` has checked. -/
def Rounds (m : Memory UInt8) (addOnly : Bool) (Q : DataItemType → Prop) (off e : ℕ) : Prop :=
  ∀ t, DataItemType.ofCode (dataItemFormat.visitAt m off).tag = some t → Q t →
    ∀ a ∈ (checkDataItem addOnly t (off + 4) (dataItemFormat.visitAt m off).len).reads m, a < e

lemma rounds_next (m : Memory UInt8) (addOnly : Bool) (Q : DataItemType → Prop) (off : ℕ) :
    Rounds m addOnly Q off (dataItemFormat.next m off) := by
  intro t _ _ a ha
  exact ((decides_checkDataItem addOnly t).within m _ _ a ha).2

/-- The last round stays before the end unless the fragment makes it stray. -/
lemma rounds_fragment_iff (addOnly : Bool) (Q : DataItemType → Prop) (hle : f.length ≤ stop)
    (hf : m.slice (stop - f.length) f.length = f) (hcut : ¬ dataItemFormat.Complete f) :
    (f ≠ [] → 4 ≤ f.length ∧ Rounds m addOnly Q (stop - f.length) stop) ↔
      ¬ StraysFrom addOnly Q f := by
  rw [StraysFrom, not_and, not_or, Nat.not_lt]
  apply forall_congr'
  intro _
  apply and_congr_right
  intro hwidth
  have hhead : f.take 4 = m.slice (stop - f.length) 4 := by
    conv_lhs => rw [← hf]
    exact Memory.take_slice m _ hwidth
  have htag : (dataItemFormat.visitAt m (stop - f.length)).tag =
      (dataItemFormat.read (f.take 4)).1 := by
    rw [hhead]
    rfl
  simp only [Rounds, htag, reads_fragment_lt_iff addOnly _ hle hf hwidth hcut, not_exists, not_and]

/-- A loop over data items reads only before its end unless nothing is wrong with the complete items
and the fragment behind them makes it stray. -/
lemma reads_dataItems_lt_iff {S κ : Type} [DecidableEq κ] {G : Grammar DataItem κ}
    [DecidablePred G.Admits] {go : S → Bool} {body : Visit UInt16 → S → Reader S}
    {R : S → Option (List κ) → Prop} {addOnly : Bool} {Q : List κ → DataItemType → Prop}
    (h : Recognises dataItems G m go body R)
    (hbody : Bounded dataItems m body R fun seen => Rounds m addOnly (Q seen)) {off : ℕ}
    (hle : off ≤ stop) {st : S} (hst : R st (some [])) :
    (∀ a ∈ (dataItems.loop go body stop off st).reads m, a < stop) ↔
      ¬ ∃ seen, G.run [] (dataItemFormat.decode (m.slice off (stop - off))).1 = some seen ∧
        StraysFrom addOnly (Q seen) (dataItemFormat.decode (m.slice off (stop - off))).2 := by
  have hlen := Format.length_fragment_le (F := dataItemFormat) (m.slice off (stop - off))
  rw [Memory.length_slice] at hlen
  rw [h.reads_lt_iff hbody hle hst, not_exists]
  apply forall_congr'
  intro seen
  rw [not_and]
  apply imp_congr_right
  intro _
  by_cases hne : (dataItemFormat.decode (m.slice off (stop - off))).2 = []
  · exact iff_of_true (absurd hne) (fun hs => hs.1 hne)
  · exact rounds_fragment_iff addOnly (Q seen) (Nat.le_trans hlen (Nat.sub_le ..))
      (Format.slice_fragment hle) (Format.decode_fragment_not_complete _ hne)

end Fragment

/-! ### The message validators -/

namespace Contents

variable (c : Contents) (m : Memory UInt8)

/-- The types of data item that a validator checks behind the items `is`. -/
def Checks (is : List DataItem) (t : DataItemType) : Prop :=
  t ∈ c.single ∧ occurrences t is = 0 ∨ t ∉ c.single ∧ t ∈ c.anyNumber

/-- The body of a validator's loop reads what the check of the item reads, if it makes one. -/
lemma reads_checkItem_lt_iff {v : Visit UInt16} {seen : List (Option DataItemType)} {e : ℕ} :
    (∀ a ∈ (checkItem c.rule v ⟨.success, seen⟩).reads m, a < e) ↔
      ∀ t, DataItemType.ofCode v.tag = some t →
        (t ∈ c.single ∧ some t ∉ seen ∨ t ∉ c.single ∧ t ∈ c.anyNumber) →
        ∀ a ∈ (checkDataItem c.addOnly t (v.off + 4) v.len).reads m, a < e := by
  rcases c.rule_cases (DataItemType.ofCode v.tag) with
    ⟨t, hk, hs, hr⟩ | ⟨t, hk, hs, ha, hr⟩ | ⟨hnot, hr⟩
  · by_cases hseen : some t ∈ seen
    · simp [checkItem, hk, hr, hseen, hs]
    · simp [checkItem, hk, hr, hseen, hs]
  · simp [checkItem, hk, hr, hs, ha]
  · have hreads : (checkItem c.rule v ⟨.success, seen⟩).reads m = [] := by
      cases ho : c.othersIgnored <;> simp [checkItem, hr, defaultRule, ho]
    rw [hreads]
    apply iff_of_true (List.forall_mem_nil _)
    rintro t hk (⟨hs, -⟩ | ⟨-, ha⟩)
    · exact absurd hs (hnot t hk).1
    · exact absurd ha (hnot t hk).2

/-- How far a round of a validator's loop reads. -/
lemma bounded_checkItem :
    Bounded dataItems m (checkItem c.rule) Checked.Stands fun seen =>
      Rounds m c.addOnly fun t =>
        t ∈ c.single ∧ some t ∉ seen ∨ t ∉ c.single ∧ t ∈ c.anyNumber where
  reads_lt_iff off st seen e h := by
    obtain rfl : st = ⟨.success, seen⟩ := h
    exact reads_checkItem_lt_iff c m
  within off st seen h := by
    obtain rfl : st = ⟨.success, seen⟩ := h
    exact (reads_checkItem_lt_iff c m).mpr (rounds_next m c.addOnly _ off)

variable {c} in
/-- Behind allowed items, a validator checks the types it has not seen as often as they may
occur. -/
lemma checks_iff {is : List DataItem} {seen : List (Option DataItemType)}
    (hrun : c.grammar.run [] is = some seen) (t : DataItemType) :
    (t ∈ c.single ∧ some t ∉ seen ∨ t ∉ c.single ∧ t ∈ c.anyNumber) ↔ c.Checks is t := by
  apply or_congr_left
  apply and_congr_right
  intro hs
  have htracked : c.grammar.tracked (some t) := (c.single_grammar_some t).mpr hs
  rw [← count_grammar c, not_iff_comm, ← ne_eq, ← Nat.pos_iff_ne_zero, Grammar.count_pos_iff,
    Grammar.mem_of_run hrun]
  simp [htracked]

end Contents

/-- The message ends inside a data item of which the validator reads more than there is. -/
def MessageKind.Strays (k : MessageKind) (m : Memory UInt8) (len : ℕ) : Prop :=
  Headed m len k.messageType ∧ (∀ i ∈ (splitPayload m len).1, k.contents.Admits i) ∧
    (∀ t ∈ k.contents.single, Contents.occurrences t (splitPayload m len).1 ≤ 1) ∧
    StraysFrom k.contents.addOnly (k.contents.Checks (splitPayload m len).1) (splitPayload m len).2

section Messages

variable (m : Memory UInt8) (len : ℕ)

lemma reads_checkMessage_lt (t : MessageType) : ∀ a ∈ (checkMessage len t).reads m, a < len := by
  by_cases hlen : len < 4
  · simp [checkMessage, hlen]
  · have hreads : ∀ a ∈ (checkMessage len t).reads m, a < 4 := by
      simp only [checkMessage, hlen, if_false, reads_bind, reads_readUint16, reads_ite,
        Interaction.Program.pure_eq_ret, reads_ret, ite_self, List.append_nil]
      split_ifs <;> decide
    intro a ha
    exact Nat.lt_of_lt_of_le (hreads a ha) (Nat.le_of_not_lt hlen)

lemma reads_checkItems_lt_iff (c : Contents) (hle : 4 ≤ len) :
    (∀ a ∈ (checkItems c.rule len).reads m, a < len) ↔
      ¬ ((∀ i ∈ (splitPayload m len).1, c.Admits i) ∧
        (∀ t ∈ c.single, Contents.occurrences t (splitPayload m len).1 ≤ 1) ∧
        StraysFrom c.addOnly (c.Checks (splitPayload m len).1) (splitPayload m len).2) := by
  have hinit : Checked.Stands ⟨.success, []⟩ (some []) := rfl
  rw [checkItems, reads_dataItems_lt_iff (recognises_checkItem c m) (c.bounded_checkItem m) hle
    hinit, not_iff_not, ← and_assoc, ← c.allows_grammar_iff]
  apply Grammar.exists_run_and_iff
  intro seen hrun
  simp only [c.checks_iff hrun]

/-- A message validator reads only the message, unless the message strays. -/
lemma MessageKind.reads_check_lt_iff (k : MessageKind) :
    (∀ a ∈ (k.check len).reads m, a < len) ↔ ¬ k.Strays m len := by
  rw [k.check_eq, checkMessageItems, reads_bind, List.forall_mem_append,
    and_iff_right (reads_checkMessage_lt m len k.messageType)]
  by_cases hhead : Headed m len k.messageType
  · simp only [(checkMessage_eq_success_iff m len k.messageType).mpr hhead, if_true, reads_bind,
      reads_ite, Interaction.Program.pure_eq_ret, reads_ret, ite_self, List.append_nil]
    rw [reads_checkItems_lt_iff m len k.contents hhead.1, Strays, and_iff_right hhead]
  · have hsc := mt (checkMessage_eq_success_iff m len k.messageType).mp hhead
    simp only [hsc, if_false, Interaction.Program.pure_eq_ret, reads_ret]
    exact iff_of_true (List.forall_mem_nil _) fun h => hhead h.1

end Messages

/-! ### The Peer Offer validator -/

/-- The complete data items behind a signal header, and the fragment that ends the datagram. -/
abbrev splitOffer (m : Memory UInt8) (len : ℕ) : List DataItem × List UInt8 :=
  dataItemFormat.decode (m.slice 8 (len - 8))

/-- The types of data item that are checked behind the items `is` of a Peer Offer. -/
def OfferChecks (is : List DataItem) (t : DataItemType) : Prop :=
  t ∈ offerTypes ∧ (t = .peerType → ∀ i ∈ is, i.tag ≠ DataItemType.peerType.code)

/-- The datagram ends inside a data item of which the validator reads more than there is. -/
def OfferStrays (m : Memory UInt8) (len : ℕ) : Prop :=
  OfferHeaded m len ∧ (∀ i ∈ (splitOffer m len).1, OfferItem i) ∧
    ((splitOffer m len).1.countP fun i => i.tag = DataItemType.peerType.code) ≤ 1 ∧
    StraysFrom false (OfferChecks (splitOffer m len).1) (splitOffer m len).2

section Offer

variable (m : Memory UInt8) (len : ℕ)

/-- The body of the Peer Offer loop reads what the check of the item reads, if it makes one. -/
lemma reads_checkPeerOfferItem_lt_iff {v : Visit UInt16} {st : OfferChecked} {seen : List OfferKey}
    (h : st.Stands (some seen)) {e : ℕ} :
    (∀ a ∈ (checkPeerOfferItem v st).reads m, a < e) ↔
      ∀ t, DataItemType.ofCode v.tag = some t →
        (t ∈ offerTypes ∧ (t = .peerType → OfferKey.peerType ∉ seen)) →
        ∀ a ∈ (checkDataItem false t (v.off + 4) v.len).reads m, a < e := by
  obtain ⟨-, hpeer, -⟩ := h
  cases hk : DataItemType.ofCode v.tag with
  | none => simp [checkPeerOfferItem, hk]
  | some t =>
    cases t with
    | peerType =>
      by_cases hseen : OfferKey.peerType ∈ seen
      · simp [checkPeerOfferItem, hk, hpeer.mpr hseen, hseen]
      · have hnot : st.seenPeerType = false := by simpa [hseen] using hpeer
        simp [checkPeerOfferItem, hk, hnot, hseen, offerTypes, checkDataItem]
    | ipv4ConnPoint => simp [checkPeerOfferItem, hk, offerTypes, checkDataItem]
    | ipv6ConnPoint => simp [checkPeerOfferItem, hk, offerTypes, checkDataItem]
    | _ => simp [checkPeerOfferItem, hk, offerTypes]

lemma bounded_checkPeerOfferItem :
    Bounded dataItems m checkPeerOfferItem OfferChecked.Stands fun seen =>
      Rounds m false fun t => t ∈ offerTypes ∧ (t = .peerType → OfferKey.peerType ∉ seen) where
  reads_lt_iff _ _ _ _ h := reads_checkPeerOfferItem_lt_iff m h
  within off _ _ h := (reads_checkPeerOfferItem_lt_iff m h).mpr (rounds_next m false _ off)

/-- Behind allowed items, a Peer Type is checked if there was none. -/
lemma offerChecks_iff {is : List DataItem} {seen : List OfferKey}
    (hrun : offerGrammar.run [] is = some seen) (t : DataItemType) :
    (t ∈ offerTypes ∧ (t = .peerType → OfferKey.peerType ∉ seen)) ↔ OfferChecks is t := by
  apply and_congr_right
  intro _
  apply imp_congr_right
  intro _
  rw [Grammar.mem_of_run hrun]
  simp [offerGrammar, OfferKey.of_eq_peerType_iff]

lemma reads_checkPeerOfferHeader_lt : ∀ a ∈ (checkPeerOfferHeader len).reads m, a < len := by
  by_cases hlen : len < 8
  · simp [checkPeerOfferHeader, hlen]
  · have hreads : ∀ a ∈ (checkPeerOfferHeader len).reads m, a < 8 := by
      simp only [checkPeerOfferHeader, hlen, if_false, reads_bind, reads_readUint16, reads_ite,
        reads_loadRange, Interaction.Program.pure_eq_ret, reads_ret, ite_self, List.append_nil]
      split_ifs <;> decide
    intro a ha
    exact Nat.lt_of_lt_of_le (hreads a ha) (Nat.le_of_not_lt hlen)

lemma reads_checkPeerOfferItems_lt_iff (hle : 8 ≤ len) :
    (∀ a ∈ (checkPeerOfferItems len).reads m, a < len) ↔
      ¬ ((∀ i ∈ (splitOffer m len).1, OfferItem i) ∧
        ((splitOffer m len).1.countP fun i => i.tag = DataItemType.peerType.code) ≤ 1 ∧
        StraysFrom false (OfferChecks (splitOffer m len).1) (splitOffer m len).2) := by
  have hinit : OfferChecked.Stands ⟨.success, false, false⟩ (some []) := by
    simp [OfferChecked.Stands]
  rw [checkPeerOfferItems, reads_dataItems_lt_iff (recognises_checkPeerOfferItem m)
    (bounded_checkPeerOfferItem m) hle hinit, not_iff_not, ← and_assoc, ← allows_offerGrammar_iff]
  apply Grammar.exists_run_and_iff
  intro seen hrun
  simp only [offerChecks_iff hrun]

/-- `check_peer_offer_signal` reads only the datagram, unless the datagram strays. -/
lemma reads_checkPeerOfferSignal_lt_iff :
    (∀ a ∈ (checkPeerOfferSignal len).reads m, a < len) ↔ ¬ OfferStrays m len := by
  rw [checkPeerOfferSignal, reads_bind, List.forall_mem_append,
    and_iff_right (reads_checkPeerOfferHeader_lt m len)]
  simp only [value_checkPeerOfferHeader, verdict_eq_success]
  by_cases hhead : OfferHeaded m len
  · simp only [hhead, if_true, reads_bind, reads_ite, Interaction.Program.pure_eq_ret, reads_ret,
      ite_self, List.append_nil]
    rw [reads_checkPeerOfferItems_lt_iff m len hhead.1, OfferStrays, and_iff_right hhead]
  · simp only [hhead, if_false, Interaction.Program.pure_eq_ret, reads_ret]
    exact iff_of_true (List.forall_mem_nil _) fun h => hhead h.1

end Offer

/-! ### What the validators read -/

/-- All octets that a validator reads belong to the buffer it is given. -/
def ReadsWithin (check : ℕ → Reader StatusCode) : Prop :=
  ∀ m len, ∀ a ∈ (check len).reads m, a < len

/-- A validator reads only what it is given, unless nothing is wrong with the header and with the
complete items, and the buffer ends inside an item of which the validator looks at more than there
is. Such a buffer makes it read past the end. -/
theorem reads_validator_lt_iff (m : Memory UInt8) (len : ℕ) :
    (∀ k : MessageKind, (∀ a ∈ (k.check len).reads m, a < len) ↔ ¬ k.Strays m len) ∧
      ((∀ a ∈ (checkPeerOfferSignal len).reads m, a < len) ↔ ¬ OfferStrays m len) :=
  ⟨fun k => k.reads_check_lt_iff m len, reads_checkPeerOfferSignal_lt_iff m len⟩

/-- A Heartbeat that is not empty: one octet where the header of a data item would be. -/
def strayHeartbeat : List UInt8 := [0x00, 0x10, 0x00, 0x01, 0x00]

/-- `check_heartbeat_message` reads a whole item header behind a message header. -/
theorem not_readsWithin :
    ¬ ((∀ k : MessageKind, ReadsWithin k.check) ∧ ReadsWithin checkPeerOfferSignal) := by
  rintro ⟨h, -⟩
  have hlt := h .heartbeat (.overlay strayHeartbeat fun _ => 0) 5 7 (by decide)
  exact absurd hlt (by decide)

end DlepRouter
