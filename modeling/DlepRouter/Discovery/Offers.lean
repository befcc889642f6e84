import DlepRouter.Discovery.Address
import DlepRouter.Parse.Reads

/-!
# What discovery makes of the datagrams it gets

Timeouts and datagrams that are not accepted only lead to another round of `get_peer_offer`. The
first Peer Offer ends the waiting, and its last connection point decides the result.
-/

namespace DlepRouter

open Interaction Tlv Scan

/-! ### Arrivals -/

/-- What a round of `get_peer_offer` can meet with, if nothing fails: no datagram in time, or one
that fits the buffer. -/
inductive Arrival where
  | timeout
  | datagram : { bs : List UInt8 // bs.length ≤ 1500 } → Arrival

/-- A network on which no call fails and the arrivals of a list come one after the other. -/
def network : Handler netSig (List Arrival) where
  answer s
    | .socket _ | .bindToDevice _ | .bind _ | .multicastLoop _ => (true, s)
    | .geteuid => (0, s)
    | .ifNametoindex _ => (1, s)
    | .sendto _ msg => (some ⟨msg.length, Nat.lt_succ_self _⟩, s)
    | .select _ => match s with
      | .datagram _ :: _ => (some true, s)
      | _ => (some false, s.tail)
    | .recvfrom n => match s with
      | .datagram bs :: rest => (some ⟨bs.val.take n, List.length_take_le ..⟩, rest)
      | _ => (some ⟨[], Nat.zero_le _⟩, s)
    | .close => ((), s)

/-- `check_peer_offer_signal` accepts the datagram, whatever lies behind it in the buffer. -/
def Accepted (bs : List UInt8) : Prop :=
  ∀ rest, (checkPeerOfferSignal bs.length).value (.overlay bs rest) = .success

/-- Any number of timeouts and datagrams that are not accepted, and then one that is. -/
structure Hearing where
  before : List Arrival
  offer : { bs : List UInt8 // bs.length ≤ 1500 }
  refused : ∀ bs, .datagram bs ∈ before → ¬ Accepted bs.val
  accepted : Accepted offer.val

namespace Hearing

variable (h : Hearing)

/-- The arrivals, up to the offer. -/
def arrivals : List Arrival := h.before ++ [.datagram h.offer]

/-- The data items of the offer. -/
def items : List DataItem := (dataItemFormat.decode (h.offer.val.drop 8)).1

end Hearing

/-! ### Rounds -/

section Rounds

variable (destAddr : List UInt8) (msg : Memory UInt8)

lemma check_overlay_iff (bs : List UInt8) (rest : Memory UInt8) :
    (checkPeerOfferSignal bs.length).value (.overlay bs rest) = .success ↔ IsPeerOffer bs := by
  rw [value_checkPeerOfferSignal, verdict_eq_success, isPeerOffer_iff bs rest]

/-- What lies behind a datagram makes no difference. -/
lemma accepted_iff {bs : List UInt8} : Accepted bs ↔ IsPeerOffer bs := by
  simp only [Accepted, check_overlay_iff, forall_const]

lemma run_sendPeerDiscoverySignal (s : List Arrival) :
    ((sendPeerDiscoverySignal destAddr).run network s).value = true ∧
      ((sendPeerDiscoverySignal destAddr).run network s).state = s := by
  refine ⟨?_, rfl⟩
  have htaken : ∀ msg, ((Net.call (.sendto destAddr msg)).run network s).value =
      some ⟨msg.length, Nat.lt_succ_self _⟩ := fun _ => rfl
  simp [sendPeerDiscoverySignal, Program.run_bind, Outcome.andThen, htaken]

lemma run_recvPeerOffer_timeout (secs : ℕ) (s : List Arrival) :
    ((recvPeerOffer secs msg).run network (.timeout :: s)).value = (some 0, msg) ∧
      ((recvPeerOffer secs msg).run network (.timeout :: s)).state = s :=
  ⟨rfl, rfl⟩

lemma run_recvPeerOffer_datagram (secs : ℕ) (bs : { bs : List UInt8 // bs.length ≤ 1500 })
    (s : List Arrival) :
    ((recvPeerOffer secs msg).run network (.datagram bs :: s)).value =
        (some bs.val.length, .overlay bs.val msg) ∧
      ((recvPeerOffer secs msg).run network (.datagram bs :: s)).state = s := by
  refine ⟨?_, rfl⟩
  change (some (bs.val.take 1500).length, msg.patch 0 (bs.val.take 1500)) = _
  rw [List.take_of_length_le bs.property, Memory.patch_zero]

/-- A round without a datagram to accept leads to another one. -/
lemma run_offerRound_refused {a : Arrival} (s : List Arrival)
    (ha : ∀ bs, a = .datagram bs → ¬ Accepted bs.val) :
    ∃ msg', ((offerRound destAddr msg).run network (a :: s)).value = .inl msg' ∧
      ((offerRound destAddr msg).run network (a :: s)).state = s := by
  obtain ⟨hsend, hstate⟩ := run_sendPeerDiscoverySignal destAddr (a :: s)
  rw [offerRound, Program.run_bind]
  simp only [Outcome.andThen, hsend, hstate, if_true, Program.run_bind]
  cases a with
  | timeout =>
    obtain ⟨hvalue, hrest⟩ := run_recvPeerOffer_timeout msg defaultDiscoveryRetry s
    rw [hvalue, hrest]
    exact ⟨msg, rfl, rfl⟩
  | datagram bs =>
    obtain ⟨hvalue, hrest⟩ := run_recvPeerOffer_datagram msg defaultDiscoveryRetry bs s
    have hno := mt ((check_overlay_iff bs.val msg).trans accepted_iff.symm).mp (ha bs rfl)
    rw [hvalue, hrest]
    refine ⟨.overlay bs.val msg, ?_⟩
    by_cases hlen : bs.val.length = 0
    · simp [hlen]
    · simp [hlen, hno]

/-- A round with one ends the waiting. -/
lemma run_offerRound_accepted {bs : { bs : List UInt8 // bs.length ≤ 1500 }} (s : List Arrival)
    (hbs : Accepted bs.val) :
    ((offerRound destAddr msg).run network (.datagram bs :: s)).value =
      .inr (.offer bs.val.length (.overlay bs.val msg)) := by
  obtain ⟨hsend, hstate⟩ := run_sendPeerDiscoverySignal destAddr (.datagram bs :: s)
  obtain ⟨hvalue, hrest⟩ := run_recvPeerOffer_datagram msg defaultDiscoveryRetry bs s
  have hyes := hbs msg
  have hlen : bs.val.length ≠ 0 := by
    have := (accepted_iff.mp hbs).1
    omega
  rw [offerRound, Program.run_bind]
  simp only [Outcome.andThen, hsend, hstate, if_true, Program.run_bind, hvalue, hrest]
  simp [hlen, hyes]

/-- The waiting ends with the first datagram that is accepted, over what the rounds before have left
in the buffer. -/
lemma run_waiting (h : Hearing) (k : ℕ) (rest : List Arrival) :
    ∃ stale, ((Program.forever (offerRound destAddr) (fun _ => .unfinished)
        (h.before.length + 1 + k) msg).run network (h.arrivals ++ rest)).value =
      .offer h.offer.val.length (.overlay h.offer.val stale) := by
  obtain ⟨before, offer, refused, accepted⟩ := h
  simp only [Hearing.arrivals, List.append_assoc]
  induction before generalizing msg with
  | nil =>
    have hround := run_offerRound_accepted destAddr msg rest accepted
    refine ⟨msg, ?_⟩
    rw [List.length_nil, Nat.zero_add, Nat.add_comm, Program.forever, Program.run_bind]
    simp only [Outcome.andThen, List.nil_append, List.cons_append, hround]
    rfl
  | cons a before ih =>
    obtain ⟨msg', hround, hstate⟩ := run_offerRound_refused destAddr msg
      (before ++ ([.datagram offer] ++ rest)) fun bs ha => refused bs (ha ▸ List.mem_cons_self)
    rw [List.length_cons, Nat.add_right_comm, Nat.add_right_comm _ 1 k, Program.forever,
      Program.run_bind]
    simp only [Outcome.andThen]
    rw [List.cons_append, hround, hstate, Sum.elim_inl, Nat.add_right_comm]
    exact ih msg' fun bs hbs => refused bs (List.mem_cons_of_mem a hbs)

end Rounds

/-! ### The result -/

namespace Hearing

variable (h : Hearing)

/-- The items of an offer are those that the scan meets, whatever is left behind the datagram. -/
lemma offerItems_eq (stale : Memory UInt8) :
    offerItems (.overlay h.offer.val stale) h.offer.val.length = h.items ∧ OfferItems h.items := by
  obtain ⟨hhead, his, hend⟩ := (isPeerOffer_iff h.offer.val stale).mp (accepted_iff.mp h.accepted)
  have htiles := Format.tiles_iff_walkEnd.mpr ⟨hhead.1, hend⟩
  have heq : offerItems (.overlay h.offer.val stale) h.offer.val.length = h.items := by
    rw [offerItems, Format.items_eq_of_tiles htiles, Format.slice_overlay_payload hhead.1]
    rfl
  exact ⟨heq, heq ▸ his⟩

variable {h} in
lemma isConnPoint_of_mem {i : DataItem} (hi : i ∈ connPoints h.items) :
    IsConnPoint .inet i ∨ IsConnPoint .inet6 i := by
  simpa using (List.mem_filter.mp hi).2

variable {h} in
lemma offerItem_of_mem {i : DataItem} (hi : i ∈ connPoints h.items) : OfferItem i :=
  (h.offerItems_eq fun _ => 0).2.1 i (List.mem_filter.mp hi).1

lemma connPoints_ne_nil : connPoints h.items ≠ [] := by
  obtain ⟨-, -, i, hi, hconn⟩ := (h.offerItems_eq fun _ => 0).2
  exact List.ne_nil_of_mem (List.mem_filter.mpr ⟨hi, decide_eq_true hconn⟩)

/-- The last connection point of the offer. -/
def last : DataItem := (connPoints h.items).getLast h.connPoints_ne_nil

variable {h} in
lemma last_eq (before : List DataItem) {i : DataItem} (hi : connPoints h.items = before ++ [i]) :
    h.last = i := by
  have hlast : ∀ l (hl : l ≠ []), l = before ++ [i] → l.getLast hl = i := by
    rintro l hl rfl
    exact List.getLast_concat
  exact hlast _ _ hi

lemma last_mem : h.last ∈ connPoints h.items := List.getLast_mem _

variable {h} in
lemma length_connAddress_of_mem {i : DataItem} (hi : i ∈ connPoints h.items) :
    (connAddress i).length = (connFamily i).addressSize :=
  length_connAddress (offerItem_of_mem hi) (isConnPoint_of_mem hi)

variable (k : ℕ) (destAddr : List UInt8) (msg storage : Memory UInt8) (length : ℕ)
  (rest : List Arrival)

/-- What `get_peer_offer` returns and leaves behind, with at least as many rounds as it takes to get
the offer. More may arrive behind it. -/
def outcome : Option (Bool × ModemAddress) :=
  ((getPeerOffer (h.before.length + 1 + k) destAddr msg storage length).run network
    (h.arrivals ++ rest)).value

/-- What the connection points of the offer make of the storage. -/
def found : ModemAddress :=
  (connPoints h.items).foldl .meet ⟨storage.patch 0 [0, 0], length, 0⟩

lemma exists_found_eq_meet : ∃ st, h.found storage length = ModemAddress.meet st h.last := by
  have hconcat := List.dropLast_append_getLast h.connPoints_ne_nil
  rw [found, ← hconcat, List.foldl_append]
  exact ⟨_, rfl⟩

lemma shows_found : (h.found storage length).Shows h.last := by
  obtain ⟨st, hst⟩ := h.exists_found_eq_meet storage length
  rw [hst]
  exact shows_meet st (length_connAddress_of_mem h.last_mem)

/-- What the scan of the offer leaves, and whether it is used. -/
lemma settleAddress_scanPeerOffer (stale : Memory UInt8) :
    settleAddress ((scanPeerOffer h.offer.val.length ⟨storage, length, 0⟩).value
        (.overlay h.offer.val stale)) =
      (decide (connPort h.last ≠ 0), h.found storage length) := by
  have hscan := value_scanPeerOffer (h.accepted stale) ⟨storage, length, 0⟩
  rw [(h.offerItems_eq stale).1] at hscan
  obtain ⟨st, hst⟩ := h.exists_found_eq_meet storage length
  rw [hscan, ← found, hst]
  exact settleAddress_meet st (length_connAddress_of_mem h.last_mem)

lemma outcome_eq :
    h.outcome k destAddr msg storage length rest =
      some (decide (connPort h.last ≠ 0), h.found storage length) := by
  obtain ⟨stale, hwaited⟩ := run_waiting destAddr msg h k rest
  rw [outcome, getPeerOffer, Program.run_bind]
  simp only [Outcome.andThen, hwaited]
  rw [← h.settleAddress_scanPeerOffer storage length stale]
  rfl

end Hearing

/-- Whatever comes before the first Peer Offer, and whatever the storage and the buffer hold, the
last connection point of the offer alone decides what `get_peer_offer` returns, and behind
`modem_address` stand its family, address and port. The scan does not leave the datagram. -/
theorem getPeerOffer_shows (h : Hearing) (k : ℕ) (destAddr : List UInt8)
    (msg storage : Memory UInt8) (length : ℕ) (rest : List Arrival) :
    ∃ found,
      h.outcome k destAddr msg storage length rest = some (decide (connPort h.last ≠ 0), found) ∧
      found.Shows h.last ∧
      ∀ stale st, ∀ a ∈ (scanPeerOffer h.offer.val.length st).reads (.overlay h.offer.val stale),
        a < h.offer.val.length := by
  refine ⟨h.found storage length, h.outcome_eq .., h.shows_found .., ?_⟩
  intro stale st
  exact reads_scanPeerOffer_lt (h.accepted stale) st

end DlepRouter
