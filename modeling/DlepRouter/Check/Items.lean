import DlepRouter.Util

/-!
# The checks of single data items (`check.c`)

Every check gets the address of a payload and its declared length. Those that only differ in a
length or a bound are instances of one definition. `WellFormed` says what the payload of an item
of each type must be, and every check is shown to accept exactly the well-formed payloads.
-/

namespace DlepRouter

open Tlv Scan

/-! ### The checks -/

def checkLength (itemLen expectedLen : ℕ) : StatusCode :=
  if itemLen ≠ expectedLen then .invalidData else .success

/-- `check_peer_type`. The scan for NUL characters, up to the last but one octet, only warns. -/
def checkPeerType (p itemLen : ℕ) : Reader StatusCode :=
  if itemLen < 1 then pure .invalidData else do
    let flags ← load p
    if flags &&& 0xFE ≠ 0 then pure .invalidData else do
      let _ ← loadRange (p + 1) (itemLen - 2)
      pure .success

def checkHeartbeatInterval (p itemLen : ℕ) : Reader StatusCode :=
  if checkLength itemLen 4 = .success then do
    let hb ← readUint32 p
    if hb = 0 then pure .invalidData else pure .success
  else pure (checkLength itemLen 4)

/-- The connection point checks: one of two lengths, and no reserved flag. -/
def checkConnectionPoint (short long : ℕ) (p itemLen : ℕ) : Reader StatusCode :=
  if itemLen ≠ short ∧ itemLen ≠ long then pure .invalidData else do
    let flags ← load p
    if flags &&& 0xFE ≠ 0 then pure .invalidData else pure .success

def checkIpv4ConnectionPoint : ℕ → ℕ → Reader StatusCode := checkConnectionPoint 5 7

def checkIpv6ConnectionPoint : ℕ → ℕ → Reader StatusCode := checkConnectionPoint 17 19

/-- The address checks: a fixed length and a flag that, under `addOnly`, may not say Drop. -/
def checkAddress (expectedLen : ℕ) (p itemLen : ℕ) (addOnly : Bool) : Reader StatusCode :=
  if checkLength itemLen expectedLen = .success then do
    let flags ← load p
    if flags &&& 0xFE ≠ 0 then pure .invalidData
    else if addOnly ∧ flags = 0 then pure .invalidData
    else pure .success
  else pure (checkLength itemLen expectedLen)

def checkIpv4Address : ℕ → ℕ → Bool → Reader StatusCode := checkAddress 5

def checkIpv6Address : ℕ → ℕ → Bool → Reader StatusCode := checkAddress 17

/-- The attached subnet checks: as for addresses, with a bounded prefix length in the last
octet. -/
def checkAttachedSubnet (expectedLen : ℕ) (maxPrefix : UInt8) (p itemLen : ℕ) (addOnly : Bool) :
    Reader StatusCode :=
  if checkLength itemLen expectedLen = .success then do
    let flags ← load p
    if flags &&& 0xFE ≠ 0 then pure .invalidData
    else if addOnly ∧ flags = 0 then pure .invalidData
    else do
      let prefixLen ← load (p + (expectedLen - 1))
      if prefixLen > maxPrefix then pure .invalidData else pure .success
  else pure (checkLength itemLen expectedLen)

def checkIpv4AttachedSubnet : ℕ → ℕ → Bool → Reader StatusCode := checkAttachedSubnet 6 32

def checkIpv6AttachedSubnet : ℕ → ℕ → Bool → Reader StatusCode := checkAttachedSubnet 18 128

/-- The checks of items that only have a length. -/
def checkOnlyLength (expectedLen : ℕ) (_p itemLen : ℕ) : Reader StatusCode :=
  pure (checkLength itemLen expectedLen)

def checkMdrr : ℕ → ℕ → Reader StatusCode := checkOnlyLength 8

def checkMdrt : ℕ → ℕ → Reader StatusCode := checkOnlyLength 8

def checkCdrr : ℕ → ℕ → Reader StatusCode := checkOnlyLength 8

def checkCdrt : ℕ → ℕ → Reader StatusCode := checkOnlyLength 8

def checkMtu : ℕ → ℕ → Reader StatusCode := checkOnlyLength 2

def checkMacAddress : ℕ → ℕ → Reader StatusCode := checkOnlyLength 6

/-- `check_latency` reads the value only to comment on a zero. -/
def checkLatency (p itemLen : ℕ) : Reader StatusCode :=
  if checkLength itemLen 8 = .success then do
    let _ ← readUint64 p
    pure .success
  else pure (checkLength itemLen 8)

/-- The checks of one octet with values up to 100. -/
def checkPercentage (p itemLen : ℕ) : Reader StatusCode :=
  if checkLength itemLen 1 = .success then do
    let v ← load p
    if v > 100 then pure .invalidData else pure .success
  else pure (checkLength itemLen 1)

def checkResources : ℕ → ℕ → Reader StatusCode := checkPercentage

def checkRlqr : ℕ → ℕ → Reader StatusCode := checkPercentage

def checkRlqt : ℕ → ℕ → Reader StatusCode := checkPercentage

/-- The loop of `check_extensions_supported`: every id is looked at, also after a bad one. -/
def checkExtensionIds (p : ℕ) : ℕ → StatusCode → Reader StatusCode
  | 0, sc => pure sc
  | n + 1, sc => do
    let extId ← readUint16 p
    checkExtensionIds (p + 2) n (if extId = 0 ∨ extId = 65535 then .invalidData else sc)

def checkExtensionsSupported (p itemLen : ℕ) : Reader StatusCode :=
  if itemLen = 0 then pure .success
  else if itemLen % 2 = 1 then pure .invalidData
  else checkExtensionIds p (itemLen / 2) .success

/-- `check_status`. The comparison with the assigned codes and the scan for NUL characters only
warn. -/
def checkStatus (p itemLen : ℕ) : Reader StatusCode :=
  if itemLen < 1 then pure .invalidData else do
    let _ ← load p
    let _ ← loadRange (p + 1) (itemLen - 2)
    pure .success

/-! ### Well-formed payloads -/

/-- No reserved bit is set in the leading flags octet. -/
def FlagsClear (l : List UInt8) : Prop :=
  l.getD 0 0 &&& 0xFE = 0

/-- The leading flags octet says Add, or, unless only that is allowed, Drop. -/
def ActionFlag (addOnly : Bool) (l : List UInt8) : Prop :=
  l.getD 0 0 = 1 ∨ addOnly = false ∧ l.getD 0 0 = 0

/-- The extension ids listed in a payload. -/
def extensionIds (l : List UInt8) : List ℕ :=
  (List.range (l.length / 2)).map fun i => bigEndian ((l.drop (2 * i)).take 2)

/-- What the payload of a data item must be. The flag of addresses and subnets depends on whether
the message may drop them. -/
def WellFormed (addOnly : Bool) : DataItemType → List UInt8 → Prop
  | .status, l => 1 ≤ l.length
  | .ipv4ConnPoint, l => (l.length = 5 ∨ l.length = 7) ∧ FlagsClear l
  | .ipv6ConnPoint, l => (l.length = 17 ∨ l.length = 19) ∧ FlagsClear l
  | .peerType, l => 1 ≤ l.length ∧ FlagsClear l
  | .heartbeatInterval, l => l.length = 4 ∧ bigEndian l ≠ 0
  | .extsSupp, l => l.length % 2 = 0 ∧ ∀ id ∈ extensionIds l, id ≠ 0 ∧ id ≠ 65535
  | .macAddress, l => l.length = 6
  | .ipv4Address, l => l.length = 5 ∧ ActionFlag addOnly l
  | .ipv6Address, l => l.length = 17 ∧ ActionFlag addOnly l
  | .ipv4AttSubnet, l => l.length = 6 ∧ ActionFlag addOnly l ∧ l.getD 5 0 ≤ 32
  | .ipv6AttSubnet, l => l.length = 18 ∧ ActionFlag addOnly l ∧ l.getD 17 0 ≤ 128
  | .mdrr, l | .mdrt, l | .cdrr, l | .cdrt, l | .latency, l => l.length = 8
  | .resources, l | .rlqr, l | .rlqt, l => l.length = 1 ∧ l.getD 0 0 ≤ 100
  | .mtu, l => l.length = 2

instance (l : List UInt8) : Decidable (FlagsClear l) := inferInstanceAs (Decidable (_ = _))

instance (addOnly : Bool) (l : List UInt8) : Decidable (ActionFlag addOnly l) :=
  inferInstanceAs (Decidable (_ ∨ _))

instance (addOnly : Bool) (t : DataItemType) (l : List UInt8) :
    Decidable (WellFormed addOnly t l) := by
  cases t <;> unfold WellFormed <;> infer_instance

/-! ### The checks decide well-formedness -/

/-- The status with which a check answers a condition. -/
def verdict (c : Prop) [Decidable c] : StatusCode :=
  if c then .success else .invalidData

@[simp] lemma verdict_eq_success {c : Prop} [Decidable c] : verdict c = .success ↔ c := by
  simp [verdict]

lemma verdict_congr {c c' : Prop} [Decidable c] [Decidable c'] (h : c ↔ c') :
    verdict c = verdict c' := by
  simp [verdict, h]

section Values

variable (m : Memory UInt8) (p n : ℕ) (addOnly : Bool)

lemma getD_slice {i : ℕ} (h : i < n) : (m.slice p n).getD i 0 = m (p + i) := by
  simp [h]

lemma checkLength_eq (k : ℕ) : checkLength n k = verdict (n = k) := by
  simp [checkLength, verdict]

lemma flagsClear_slice_iff (h : 0 < n) : FlagsClear (m.slice p n) ↔ m p &&& 0xFE = 0 := by
  rw [FlagsClear, getD_slice m p n h, Nat.add_zero]

/-- The flag tests of the source leave Add and, where allowed, Drop. -/
lemma actionFlag_slice_iff (h : 0 < n) :
    ActionFlag addOnly (m.slice p n) ↔ m p &&& 0xFE = 0 ∧ ¬ (addOnly = true ∧ m p = 0) := by
  have hbits : ∀ b : BitVec 8, b &&& 0xFE = 0 ↔ b = 1 ∨ b = 0 := by decide
  have hb : m p &&& 0xFE = 0 ↔ m p = 1 ∨ m p = 0 := by
    simpa [← UInt8.toBitVec_inj] using hbits (m p).toBitVec
  rw [ActionFlag, getD_slice m p n h, hb, Nat.add_zero]
  cases addOnly
  · simp
  · constructor
    · rintro (h1 | ⟨h1, -⟩)
      · simp [h1]
      · cases h1
    · rintro ⟨h1 | h1, h0⟩
      · exact .inl h1
      · exact absurd ⟨rfl, h1⟩ h0

lemma value_checkPeerType :
    (checkPeerType p n).value m = verdict (WellFormed addOnly .peerType (m.slice p n)) := by
  by_cases hn : n < 1
  · simp [checkPeerType, WellFormed, verdict, hn]
  · simp only [checkPeerType, hn, if_false, WellFormed, flagsClear_slice_iff m p n (by omega),
      Memory.length_slice]
    by_cases hc : m p &&& 0xFE = 0 <;> simp [hc, verdict]
    omega

lemma value_checkStatus :
    (checkStatus p n).value m = verdict (WellFormed addOnly .status (m.slice p n)) := by
  by_cases hn : n < 1
  · simp [checkStatus, WellFormed, verdict, hn]
  · simp [checkStatus, WellFormed, verdict, hn]

lemma value_checkHeartbeatInterval :
    (checkHeartbeatInterval p n).value m =
      verdict (WellFormed addOnly .heartbeatInterval (m.slice p n)) := by
  by_cases hn : n = 4
  · subst hn
    have hb : (readUint32 p).value m = 0 ↔ bigEndian (m.slice p 4) = 0 := by
      rw [← toNat_readUint32, ← UInt32.toNat_inj]
      rfl
    simp only [checkHeartbeatInterval, checkLength_eq, verdict_eq_success, if_true, WellFormed,
      Memory.length_slice, Scan.value_bind]
    by_cases h0 : bigEndian (m.slice p 4) = 0 <;> simp [hb, h0, verdict]
  · simp [checkHeartbeatInterval, checkLength_eq, WellFormed, verdict, hn]

/-- A connection point check accepts its two lengths with clear reserved flags. -/
lemma value_checkConnectionPoint {short long : ℕ} (hs : 0 < short) (hl : 0 < long) :
    (checkConnectionPoint short long p n).value m =
      verdict ((n = short ∨ n = long) ∧ FlagsClear (m.slice p n)) := by
  by_cases hn : n = short ∨ n = long
  · have h0 : ¬ (n ≠ short ∧ n ≠ long) := by omega
    simp only [checkConnectionPoint, h0, if_false, hn, true_and,
      flagsClear_slice_iff m p n (by omega)]
    by_cases hc : m p &&& 0xFE = 0 <;> simp [hc, verdict]
  · have h0 : n ≠ short ∧ n ≠ long := by omega
    simp [checkConnectionPoint, verdict, h0]

/-- An address check accepts its length with an admissible flag. -/
lemma value_checkAddress {k : ℕ} (hk : 0 < k) :
    (checkAddress k p n addOnly).value m =
      verdict (n = k ∧ ActionFlag addOnly (m.slice p n)) := by
  by_cases hn : n = k
  · simp only [checkAddress, checkLength_eq, hn, verdict_eq_success, if_true, true_and,
      actionFlag_slice_iff m p k addOnly hk]
    by_cases hc : m p &&& 0xFE = 0 <;> by_cases h0 : addOnly = true ∧ m p = 0 <;>
      simp [hc, h0, verdict]
  · simp [checkAddress, checkLength_eq, verdict, hn]

/-- An attached subnet check accepts its length with an admissible flag and prefix length. -/
lemma value_checkAttachedSubnet {k : ℕ} (hk : 0 < k) (maxPrefix : UInt8) :
    (checkAttachedSubnet k maxPrefix p n addOnly).value m =
      verdict (n = k ∧ ActionFlag addOnly (m.slice p n) ∧
        (m.slice p n).getD (k - 1) 0 ≤ maxPrefix) := by
  by_cases hn : n = k
  · simp only [checkAttachedSubnet, checkLength_eq, hn, verdict_eq_success, if_true, true_and,
      actionFlag_slice_iff m p k addOnly hk, getD_slice m p k (show k - 1 < k by omega)]
    by_cases hc : m p &&& 0xFE = 0 <;> by_cases h0 : addOnly = true ∧ m p = 0 <;>
      by_cases hm : maxPrefix < m (p + (k - 1)) <;>
      simp [hc, h0, hm, verdict, ← UInt8.not_lt]
  · simp [checkAttachedSubnet, checkLength_eq, verdict, hn]

lemma value_checkOnlyLength (k : ℕ) :
    (checkOnlyLength k p n).value m = verdict (n = k) := by
  simp [checkOnlyLength, checkLength_eq]

lemma value_checkLatency :
    (checkLatency p n).value m = verdict (WellFormed addOnly .latency (m.slice p n)) := by
  by_cases hn : n = 8 <;> simp [checkLatency, checkLength_eq, WellFormed, verdict, hn]

lemma value_checkPercentage :
    (checkPercentage p n).value m = verdict (n = 1 ∧ (m.slice p n).getD 0 0 ≤ 100) := by
  by_cases hn : n = 1
  · subst hn
    simp only [checkPercentage, checkLength_eq, verdict_eq_success, if_true, true_and,
      getD_slice m p 1 (show 0 < 1 by omega)]
    by_cases hv : 100 < m p <;> simp [hv, verdict, ← UInt8.not_lt]
  · simp [checkPercentage, checkLength_eq, verdict, hn]

/-- The loop over extension ids fails where one of them is reserved. -/
lemma value_checkExtensionIds (k : ℕ) (sc : StatusCode) :
    (checkExtensionIds p k sc).value m =
      if ∀ i < k, bigEndian (m.slice (p + 2 * i) 2) ≠ 0 ∧ bigEndian (m.slice (p + 2 * i) 2) ≠ 65535
      then sc else .invalidData := by
  induction k generalizing p sc with
  | zero => simp [checkExtensionIds]
  | succ k ih =>
    have hid : ((readUint16 p).value m = 0 ∨ (readUint16 p).value m = 65535) ↔
        bigEndian (m.slice p 2) = 0 ∨ bigEndian (m.slice p 2) = 65535 := by
      rw [← toNat_readUint16, ← UInt16.toNat_inj, ← UInt16.toNat_inj]
      rfl
    have hstep : ∀ i, p + 2 * (i + 1) = p + 2 + 2 * i := fun i => by ring
    simp only [checkExtensionIds, Scan.value_bind, ih, hid, Nat.forall_lt_succ_left, hstep,
      Nat.mul_zero, Nat.add_zero]
    by_cases h : bigEndian (m.slice p 2) = 0 ∨ bigEndian (m.slice p 2) = 65535
    · simp only [h, if_true, ite_self]
      rw [if_neg (by tauto)]
    · rw [if_neg h]
      simp [not_or.mp h]

lemma value_checkExtensionsSupported :
    (checkExtensionsSupported p n).value m =
      verdict (WellFormed addOnly .extsSupp (m.slice p n)) := by
  have hids : (∀ id ∈ extensionIds (m.slice p n), id ≠ 0 ∧ id ≠ 65535) ↔
      ∀ i < n / 2, bigEndian (m.slice (p + 2 * i) 2) ≠ 0 ∧
        bigEndian (m.slice (p + 2 * i) 2) ≠ 65535 := by
    simp only [extensionIds, Memory.length_slice, List.mem_map, List.mem_range,
      forall_exists_index, and_imp, forall_apply_eq_imp_iff₂]
    apply forall₂_congr
    intro i hi
    rw [Memory.drop_slice m p (by omega), Memory.take_slice m _ (by omega)]
  simp only [checkExtensionsSupported, WellFormed, Memory.length_slice, hids]
  by_cases h0 : n = 0
  · simp [h0, verdict]
  · by_cases hodd : n % 2 = 1
    · simp [h0, hodd, verdict]
    · simp [h0, show n % 2 = 0 by omega, value_checkExtensionIds, verdict]

lemma reads_checkExtensionIds (k : ℕ) (sc : StatusCode) :
    (checkExtensionIds p k sc).reads m = List.range' p (2 * k) := by
  induction k generalizing p sc with
  | zero => rfl
  | succ k ih =>
    rw [checkExtensionIds, Scan.reads_bind, ih, reads_readUint16, List.range'_append_1]
    congr 1
    ring

lemma outputs_checkExtensionIds (k : ℕ) (sc : StatusCode) :
    (checkExtensionIds p k sc).outputs m = [] := by
  induction k generalizing p sc with
  | zero => rfl
  | succ k ih => simp [checkExtensionIds, ih]

end Values

/-- What a check is for: it answers whether a payload satisfies `P`, reads nothing but the payload
and emits nothing. -/
structure Decides (check : ℕ → ℕ → Reader StatusCode) (P : List UInt8 → Prop) [DecidablePred P] :
    Prop where
  value : ∀ m p n, (check p n).value m = verdict (P (m.slice p n))
  within : ∀ m p n, ∀ a ∈ (check p n).reads m, p ≤ a ∧ a < p + n
  silent : ∀ m p n, (check p n).outputs m = []

section Decides

variable (addOnly : Bool)

lemma decides_checkPeerType : Decides checkPeerType (WellFormed addOnly .peerType) where
  value m p n := value_checkPeerType m p n addOnly
  within m p n a := by
    simp only [checkPeerType, reads_ite, reads_bind, reads_load, reads_loadRange]
    split_ifs <;> simp <;> omega
  silent m p n := by simp [checkPeerType]

lemma decides_checkStatus : Decides checkStatus (WellFormed addOnly .status) where
  value m p n := value_checkStatus m p n addOnly
  within m p n a := by
    simp only [checkStatus, reads_ite, reads_bind, reads_load, reads_loadRange]
    split_ifs <;> simp
    omega
  silent m p n := by simp [checkStatus]

lemma decides_checkHeartbeatInterval :
    Decides checkHeartbeatInterval (WellFormed addOnly .heartbeatInterval) where
  value m p n := value_checkHeartbeatInterval m p n addOnly
  within m p n a := by
    simp only [checkHeartbeatInterval, checkLength_eq, verdict_eq_success, reads_ite, reads_bind,
      reads_readUint32]
    split_ifs <;> simp <;> omega
  silent m p n := by simp [checkHeartbeatInterval]

lemma decides_checkConnectionPoint {short long : ℕ} (hs : 0 < short) (hl : 0 < long) :
    Decides (checkConnectionPoint short long)
      fun l => (l.length = short ∨ l.length = long) ∧ FlagsClear l where
  value m p n := by simpa using value_checkConnectionPoint m p n hs hl
  within m p n a := by
    simp only [checkConnectionPoint, reads_ite, reads_bind, reads_load]
    split_ifs <;> simp <;> omega
  silent m p n := by simp [checkConnectionPoint]

lemma decides_checkAddress {k : ℕ} (hk : 0 < k) :
    Decides (checkAddress k · · addOnly) fun l => l.length = k ∧ ActionFlag addOnly l where
  value m p n := by simpa using value_checkAddress m p n addOnly hk
  within m p n a := by
    simp only [checkAddress, checkLength_eq, verdict_eq_success, reads_ite, reads_bind, reads_load]
    split_ifs <;> simp <;> omega
  silent m p n := by simp [checkAddress]

lemma decides_checkAttachedSubnet {k : ℕ} (hk : 0 < k) (maxPrefix : UInt8) :
    Decides (checkAttachedSubnet k maxPrefix · · addOnly)
      fun l => l.length = k ∧ ActionFlag addOnly l ∧ l.getD (k - 1) 0 ≤ maxPrefix where
  value m p n := by simpa using value_checkAttachedSubnet m p n addOnly hk maxPrefix
  within m p n a := by
    simp only [checkAttachedSubnet, checkLength_eq, verdict_eq_success, reads_ite, reads_bind,
      reads_load]
    split_ifs <;> simp <;> omega
  silent m p n := by simp [checkAttachedSubnet]

lemma decides_checkOnlyLength (k : ℕ) : Decides (checkOnlyLength k) fun l => l.length = k where
  value m p n := by simpa using value_checkOnlyLength m p n k
  within m p n a := by simp [checkOnlyLength]
  silent m p n := by simp [checkOnlyLength]

lemma decides_checkLatency : Decides checkLatency (WellFormed addOnly .latency) where
  value m p n := value_checkLatency m p n addOnly
  within m p n a := by
    simp only [checkLatency, checkLength_eq, verdict_eq_success, reads_ite, reads_bind,
      reads_readUint64]
    split_ifs <;> simp
    omega
  silent m p n := by simp [checkLatency]

lemma decides_checkPercentage :
    Decides checkPercentage fun l => l.length = 1 ∧ l.getD 0 0 ≤ 100 where
  value m p n := by simpa using value_checkPercentage m p n
  within m p n a := by
    simp only [checkPercentage, checkLength_eq, verdict_eq_success, reads_ite, reads_bind,
      reads_load]
    split_ifs <;> simp <;> omega
  silent m p n := by simp [checkPercentage]

lemma decides_checkExtensionsSupported :
    Decides checkExtensionsSupported (WellFormed addOnly .extsSupp) where
  value m p n := value_checkExtensionsSupported m p n addOnly
  within m p n a := by
    simp only [checkExtensionsSupported, reads_ite, reads_checkExtensionIds]
    split_ifs <;> simp
    omega
  silent m p n := by simp [checkExtensionsSupported, outputs_checkExtensionIds]

end Decides

end DlepRouter
