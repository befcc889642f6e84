import DlepRouter.Check.Messages

/-!
# What messages may contain

`Contents` states which data items a message of a kind holds and how often. The `switch` of every
validator is the one its contents call for, and the loop runs the grammar of the contents, so each
validator accepts exactly what its contents accept, wherever the items come from.
-/

namespace DlepRouter

open Tlv Scan

/-! ### Contents -/

/-- The data items of a message. Types that are not listed are forbidden or ignored. -/
structure Contents where
  exactlyOnce : List DataItemType
  atMostOnce : List DataItemType
  anyNumber : List DataItemType
  addOnly : Bool
  othersIgnored : Bool

namespace Contents

/-- No data item at all. -/
def nothing : Contents where
  exactlyOnce := []
  atMostOnce := []
  anyNumber := []
  addOnly := false
  othersIgnored := false

/-- A single data item, of type `t`. -/
def only (t : DataItemType) : Contents :=
  { nothing with exactlyOnce := [t] }

variable (c : Contents)

/-- The types that may not be repeated. -/
def single : List DataItemType := c.exactlyOnce ++ c.atMostOnce

/-- The item may stand in the payload: it is well formed, if its type is listed. -/
def Admits (i : DataItem) : Prop :=
  match DataItemType.ofCode i.tag with
  | some t =>
    if t ∈ c.single ∨ t ∈ c.anyNumber then WellFormed c.addOnly t i.body else c.othersIgnored
  | none => c.othersIgnored

variable {c} in
/-- An admitted item of a listed type is well formed. -/
lemma wellFormed_of_admits {i : DataItem} {t : DataItemType} (h : c.Admits i)
    (ht : DataItemType.ofCode i.tag = some t) (hlisted : t ∈ c.single ∨ t ∈ c.anyNumber) :
    WellFormed c.addOnly t i.body := by
  simpa only [Admits, ht, if_pos hlisted] using h

/-- How many items of a type there are. -/
def occurrences (t : DataItemType) (is : List DataItem) : ℕ :=
  is.countP fun i => DataItemType.ofCode i.tag = some t

/-- The payloads of the items of a type, in their order. -/
def payloads (t : DataItemType) (is : List DataItem) : List (List UInt8) :=
  (is.filter fun i => DataItemType.ofCode i.tag = some t).map Item.body

lemma length_payloads (t : DataItemType) (is : List DataItem) :
    (payloads t is).length = occurrences t is := by
  rw [payloads, List.length_map, occurrences, List.countP_eq_length_filter]

/-- The items are those of the contents, in any order. -/
def Accepts (is : List DataItem) : Prop :=
  (∀ i ∈ is, c.Admits i) ∧ (∀ t ∈ c.exactlyOnce, occurrences t is = 1) ∧
    ∀ t ∈ c.atMostOnce, occurrences t is ≤ 1

lemma accepts_nothing_iff {is : List DataItem} : nothing.Accepts is ↔ is = [] := by
  have hadm : ∀ i, ¬ nothing.Admits i := by
    intro i
    unfold Admits
    cases DataItemType.ofCode i.tag <;> simp [nothing, single]
  constructor
  · rintro ⟨h, -, -⟩
    apply List.eq_nil_iff_forall_not_mem.mpr
    intro i hi
    exact hadm i (h i hi)
  · rintro rfl
    simp [Accepts, nothing]

lemma admits_only_iff {t : DataItemType} {i : DataItem} :
    (only t).Admits i ↔ i.tag = t.code ∧ WellFormed false t i.body := by
  rw [eq_comm, ← DataItemType.ofCode_eq_some_iff]
  unfold Admits
  cases DataItemType.ofCode i.tag with
  | none => simp [only, nothing]
  | some t' =>
    by_cases h : t' = t
    · simp [only, nothing, single, h]
    · simp [only, nothing, single, h]

lemma accepts_only_iff {t : DataItemType} {is : List DataItem} :
    (only t).Accepts is ↔ ∃ l, WellFormed false t l ∧ is = [⟨t.code, l⟩] := by
  constructor
  · rintro ⟨hadm, hone, -⟩
    have hcount : occurrences t is = is.length := by
      apply List.countP_eq_length.mpr
      intro i hi
      simp [(admits_only_iff.mp (hadm i hi)).1]
    obtain ⟨i, rfl⟩ := List.length_eq_one_iff.mp (hcount ▸ hone t (by simp [only]))
    obtain ⟨htag, hwf⟩ := admits_only_iff.mp (hadm i (by simp))
    exact ⟨i.body, hwf, by rw [← htag]⟩
  · rintro ⟨l, hwf, rfl⟩
    refine ⟨?_, ?_, by simp [only, nothing]⟩
    · simpa [admits_only_iff] using hwf
    · simp [only, occurrences]

instance : DecidablePred c.Admits := fun i => by
  unfold Admits
  cases DataItemType.ofCode i.tag <;> infer_instance

instance : DecidablePred c.Accepts := fun _ => inferInstanceAs (Decidable (_ ∧ _ ∧ _))

/-- The contents as a grammar. -/
def grammar : Grammar DataItem (Option DataItemType) where
  key i := DataItemType.ofCode i.tag
  Admits := c.Admits
  single k := c.single.any (some · = k)
  tracked k := c.single.any (some · = k)
  required := c.exactlyOnce.map some
  tracked_of_single _ h := h
  tracked_of_required k h := by
    obtain ⟨t, ht, rfl⟩ := List.mem_map.mp h
    simp [single, ht]

instance : DecidablePred c.grammar.Admits := inferInstanceAs (DecidablePred c.Admits)

@[simp] lemma key_grammar (i : DataItem) : c.grammar.key i = DataItemType.ofCode i.tag := rfl

lemma single_grammar_some (t : DataItemType) : c.grammar.single (some t) ↔ t ∈ c.single := by
  simp [grammar]

lemma single_grammar_iff (k : Option DataItemType) :
    c.grammar.single k ↔ ∃ t ∈ c.single, some t = k := by
  simp [grammar]

lemma count_grammar (t : DataItemType) (is : List DataItem) :
    c.grammar.count (some t) is = occurrences t is := by
  simp only [Grammar.count, occurrences, List.count_eq_countP, List.countP_map]
  congr 1

lemma allows_grammar_iff {is : List DataItem} :
    c.grammar.Allows is ↔
      (∀ i ∈ is, c.Admits i) ∧ ∀ t ∈ c.single, occurrences t is ≤ 1 := by
  apply and_congr Iff.rfl
  constructor
  · intro h t ht
    rw [← count_grammar c]
    by_cases hpos : 0 < c.grammar.count (some t) is
    · obtain ⟨i, hi, hkey⟩ := List.mem_map.mp (Grammar.count_pos_iff.mp hpos)
      have hs : c.grammar.single (c.grammar.key i) := by rwa [hkey, single_grammar_some]
      exact hkey ▸ h i hi hs
    · omega
  · intro h i hi hs
    obtain ⟨t, ht, hkey⟩ := (single_grammar_iff c _).mp hs
    rw [← hkey, count_grammar]
    exact h t ht

/-- The grammar of the contents accepts what the contents accept. -/
theorem accepts_grammar_iff {is : List DataItem} : c.grammar.Accepts is ↔ c.Accepts is := by
  have hreq : (∀ k ∈ c.grammar.required, k ∈ is.map c.grammar.key) ↔
      ∀ t ∈ c.exactlyOnce, 0 < occurrences t is := by
    simp only [grammar, List.forall_mem_map, ← count_grammar c, Grammar.count_pos_iff]
  rw [Grammar.Accepts, hreq, allows_grammar_iff, Accepts, single, List.forall_mem_append]
  constructor
  · rintro ⟨⟨hadm, hone, hopt⟩, hpos⟩
    refine ⟨hadm, ?_, hopt⟩
    intro t ht
    exact Nat.le_antisymm (hone t ht) (hpos t ht)
  · rintro ⟨hadm, hone, hopt⟩
    refine ⟨⟨hadm, ?_, hopt⟩, ?_⟩
    · intro t ht
      rw [hone t ht]
    · intro t ht
      rw [hone t ht]
      exact Nat.one_pos

end Contents

/-! ### The rules that contents call for -/

/-- The check of each type of data item. -/
def checkDataItem (addOnly : Bool) : DataItemType → ℕ → ℕ → Reader StatusCode
  | .status => checkStatus
  | .ipv4ConnPoint => checkIpv4ConnectionPoint
  | .ipv6ConnPoint => checkIpv6ConnectionPoint
  | .peerType => checkPeerType
  | .heartbeatInterval => checkHeartbeatInterval
  | .extsSupp => checkExtensionsSupported
  | .macAddress => checkMacAddress
  | .ipv4Address => (checkIpv4Address · · addOnly)
  | .ipv6Address => (checkIpv6Address · · addOnly)
  | .ipv4AttSubnet => (checkIpv4AttachedSubnet · · addOnly)
  | .ipv6AttSubnet => (checkIpv6AttachedSubnet · · addOnly)
  | .mdrr => checkMdrr
  | .mdrt => checkMdrt
  | .cdrr => checkCdrr
  | .cdrt => checkCdrt
  | .latency => checkLatency
  | .resources => checkResources
  | .rlqr => checkRlqr
  | .rlqt => checkRlqt
  | .mtu => checkMtu

lemma Decides.congr {check : ℕ → ℕ → Reader StatusCode} {P Q : List UInt8 → Prop}
    [DecidablePred P] [DecidablePred Q] (h : Decides check P) (hPQ : ∀ l, P l ↔ Q l) :
    Decides check Q where
  value m p n := (h.value m p n).trans (verdict_congr (hPQ _))
  within := h.within
  silent := h.silent

/-- The check of a type of data item decides whether its payload is well formed. -/
theorem decides_checkDataItem (addOnly : Bool) (t : DataItemType) :
    Decides (checkDataItem addOnly t) (WellFormed addOnly t) := by
  cases t with
  | status => exact decides_checkStatus addOnly
  | ipv4ConnPoint =>
    exact (decides_checkConnectionPoint (by decide) (by decide)).congr fun _ => Iff.rfl
  | ipv6ConnPoint =>
    exact (decides_checkConnectionPoint (by decide) (by decide)).congr fun _ => Iff.rfl
  | peerType => exact decides_checkPeerType addOnly
  | heartbeatInterval => exact decides_checkHeartbeatInterval addOnly
  | extsSupp => exact decides_checkExtensionsSupported addOnly
  | ipv4Address => exact (decides_checkAddress addOnly (by decide)).congr fun _ => Iff.rfl
  | ipv6Address => exact (decides_checkAddress addOnly (by decide)).congr fun _ => Iff.rfl
  | ipv4AttSubnet =>
    exact (decides_checkAttachedSubnet addOnly (by decide) 32).congr fun _ => Iff.rfl
  | ipv6AttSubnet =>
    exact (decides_checkAttachedSubnet addOnly (by decide) 128).congr fun _ => Iff.rfl
  | latency => exact decides_checkLatency addOnly
  | resources | rlqr | rlqt => exact decides_checkPercentage.congr fun _ => Iff.rfl
  | macAddress | mdrr | mdrt | cdrr | cdrt | mtu =>
    exact (decides_checkOnlyLength _).congr fun _ => Iff.rfl

namespace Contents

variable (c : Contents)

/-- The case of the `switch` for types that are not listed. -/
def defaultRule : Rule :=
  if c.othersIgnored then .skip else .reject

/-- The `switch` of a validator for these contents. -/
def rule : Option DataItemType → Rule
  | some t =>
    if t ∈ c.single then .once (checkDataItem c.addOnly t)
    else if t ∈ c.anyNumber then .many (checkDataItem c.addOnly t)
    else c.defaultRule
  | none => c.defaultRule

/-- A type is single, may occur in any number, or is not listed. -/
lemma rule_cases (k : Option DataItemType) :
    (∃ t, k = some t ∧ t ∈ c.single ∧ c.rule (some t) = .once (checkDataItem c.addOnly t)) ∨
      (∃ t, k = some t ∧ t ∉ c.single ∧ t ∈ c.anyNumber ∧
        c.rule (some t) = .many (checkDataItem c.addOnly t)) ∨
      (∀ t, k = some t → t ∉ c.single ∧ t ∉ c.anyNumber) ∧ c.rule k = c.defaultRule := by
  cases k with
  | none => exact .inr (.inr ⟨by simp, rfl⟩)
  | some t =>
    by_cases hs : t ∈ c.single
    · exact .inl ⟨t, rfl, hs, if_pos hs⟩
    · by_cases ha : t ∈ c.anyNumber
      · exact .inr (.inl ⟨t, rfl, hs, ha, by simp [rule, hs, ha]⟩)
      · refine .inr (.inr ⟨?_, by simp [rule, hs, ha]⟩)
        intro t' ht
        obtain rfl : t = t' := Option.some.inj ht
        exact ⟨hs, ha⟩

end Contents

/-! ### Validators run the grammar -/

/-- The state of a validator's loop stands for the result of a run of the grammar. -/
def Checked.Stands (st : Checked) : Option (List (Option DataItemType)) → Prop
  | some seen => st = ⟨.success, seen⟩
  | none => st.sc = .invalidData

section Loop

variable (c : Contents) (m : Memory UInt8)

lemma outputs_checkItem (v : Visit UInt16) (st : Checked) :
    (checkItem c.rule v st).outputs m = [] := by
  rcases c.rule_cases (DataItemType.ofCode v.tag) with
    ⟨t, hk, -, hr⟩ | ⟨t, hk, -, -, hr⟩ | ⟨-, hr⟩
  · simp [checkItem, hk, hr, (decides_checkDataItem c.addOnly t).silent]
  · simp [checkItem, hk, hr, (decides_checkDataItem c.addOnly t).silent]
  · cases ho : c.othersIgnored <;> simp [checkItem, hr, Contents.defaultRule, ho]

lemma stands_of_check (t : DataItemType) (p n : ℕ) (seen : List (Option DataItemType)) :
    Checked.Stands ⟨(checkDataItem c.addOnly t p n).value m, seen⟩
      (if WellFormed c.addOnly t (m.slice p n) then some seen else none) := by
  rw [(decides_checkDataItem c.addOnly t).value]
  by_cases h : WellFormed c.addOnly t (m.slice p n) <;> simp [verdict, h, Checked.Stands]

/-- A validator's `switch` checks the item at the pointer as the grammar does. -/
lemma stands_checkItem (off : ℕ) (seen : List (Option DataItemType)) :
    Checked.Stands
      ((checkItem c.rule (dataItemFormat.visitAt m off) ⟨.success, seen⟩).value m)
      (c.grammar.step seen (dataItemFormat.itemAt m off)) := by
  have htag : (dataItemFormat.itemAt m off).tag = (dataItemFormat.visitAt m off).tag := rfl
  have hbody : (dataItemFormat.itemAt m off).body =
    m.slice (off + 4) (dataItemFormat.visitAt m off).len := rfl
  have hoff : (dataItemFormat.visitAt m off).off = off := rfl
  have hadm : c.grammar.Admits (dataItemFormat.itemAt m off) ↔
    c.Admits (dataItemFormat.itemAt m off) := Iff.rfl
  have htracked : c.grammar.tracked = c.grammar.single := rfl
  rcases c.rule_cases (DataItemType.ofCode (dataItemFormat.visitAt m off).tag) with
    ⟨t, hk, hs, hr⟩ | ⟨t, hk, hs, ha, hr⟩ | ⟨hnot, hr⟩
  · have hsingle := (c.single_grammar_some t).mpr hs
    by_cases hseen : some t ∈ seen
    · simp [Grammar.step, checkItem, htag, hk, hr, hsingle, hseen, Checked.Stands]
    · simpa [Grammar.step, checkItem, htag, hk, hr, hsingle, htracked, hseen, hadm,
        Contents.Admits, hs, hbody, hoff] using stands_of_check c m t (off + 4)
        (dataItemFormat.visitAt m off).len (some t :: seen)
  · have hsingle : c.grammar.single (some t) = false := by
      simpa using mt (c.single_grammar_some t).mp hs
    simpa [Grammar.step, checkItem, htag, hk, hr, hsingle, htracked, hadm, Contents.Admits, ha,
      hbody, hoff] using stands_of_check c m t (off + 4) (dataItemFormat.visitAt m off).len seen
  · have hsingle : c.grammar.single (DataItemType.ofCode (dataItemFormat.visitAt m off).tag) =
        false := by
      refine Bool.eq_false_iff.mpr (mt (c.single_grammar_iff _).mp ?_)
      rintro ⟨t, ht, hk⟩
      exact (hnot t hk.symm).1 ht
    have hadm' : c.Admits (dataItemFormat.itemAt m off) ↔ c.othersIgnored = true := by
      rw [Contents.Admits, htag]
      cases hk : DataItemType.ofCode (dataItemFormat.visitAt m off).tag with
      | none => rfl
      | some t => simp [hnot t hk]
    simp only [Grammar.step, checkItem, Contents.key_grammar, htag, hr, hsingle, htracked, hadm,
      hadm', Contents.defaultRule]
    cases c.othersIgnored <;> simp [Checked.Stands]

/-- The loop of a validator runs the grammar of its contents. -/
theorem recognises_checkItem :
    Recognises dataItems c.grammar m (fun st => st.sc = .success) (checkItem c.rule)
      Checked.Stands where
  go_eq st r h := by
    cases r with
    | none => simp [show st.sc = .invalidData from h]
    | some seen => simp [show st = ⟨.success, seen⟩ from h]
  step off st seen h := by
    obtain rfl : st = ⟨.success, seen⟩ := h
    exact stands_checkItem c m off seen
  silent := outputs_checkItem c m

end Loop

end DlepRouter
