import DlepRouter.Discovery.Residue

/-!
# When discovery gives up

`get_peer_offer` goes on after a timeout and after a datagram that its validator refuses, and gives
up when a call fails. It also gives up on a Peer Offer that the validator accepts and whose last
connection point has the port 0: that test comes behind the loop.
-/

namespace DlepRouter

open Interaction Tlv Scan

/-! ### Calls and datagrams -/

/-- `sendto` took all of the message. -/
def TakenInFull (msg : List UInt8) (taken : Option (Fin (msg.length + 1))) : Prop :=
  taken.map Fin.val = some msg.length

/-- The calls on which `get_peer_offer` gives up: the signal was not sent, or `select` or `recvfrom`
returned -1. -/
def CallFailed : Event netSig → Prop
  | ⟨.sendto _ msg, taken⟩ => ¬ TakenInFull msg taken
  | ⟨.select _, ready⟩ => ready = none
  | ⟨.recvfrom _, received⟩ => received = none
  | _ => False

/-- The data items in a datagram. -/
def datagramItems (bs : List UInt8) : List DataItem := (dataItemFormat.decode (bs.drop 8)).1

/-- The validator accepts the datagram, and its last connection point has a port. -/
def Usable (bs : List UInt8) : Prop :=
  Accepted bs ∧ ∃ i ∈ (connPoints (datagramItems bs)).getLast?, connPort i ≠ 0

/-- The validator accepts the datagram, but the port of its last connection point is 0. -/
def LacksPort (bs : List UInt8) : Prop :=
  Accepted bs ∧ ∃ i ∈ (connPoints (datagramItems bs)).getLast?, connPort i = 0

/-- The datagrams received, in order. -/
def datagrams (t : List (Event netSig)) : List (List UInt8) :=
  t.filterMap fun e => match e with
    | ⟨.recvfrom _, some bs⟩ => some bs.val
    | _ => none

/-- The event is the arrival of a datagram that does not yield an address and a port. -/
def Useless (e : Event netSig) : Prop :=
  ∃ bs ∈ datagrams [e], ¬ Usable bs

/-- The Peer Discovery signal of the router. -/
def peerDiscoverySignal : List UInt8 := sent (fillPeerDiscovery peerType) fun _ => 0

/-- `get_peer_offer` returns 0 only if a call has failed. After a datagram that is of no use the
signal is sent once more, unless the run is cut off there. -/
structure Persistent (destAddr : List UInt8) (ret : Option (Bool × ModemAddress))
    (t : List (Event netSig)) : Prop where
  failed : ∀ found, ret = some (false, found) → ∃ e ∈ t, CallFailed e
  again : t.IsChain fun e e' => Useless e → e'.op = .sendto destAddr peerDiscoverySignal
  last : ∀ e ∈ t.getLast?, Useless e → ret = none

section Datagrams

variable {bs : List UInt8}

/-- An accepted datagram as the only one that arrives. -/
def Hearing.ofDatagram (hle : bs.length ≤ 1500) (hacc : Accepted bs) : Hearing where
  before := []
  offer := ⟨bs, hle⟩
  refused _ h := absurd h List.not_mem_nil
  accepted := hacc

lemma Hearing.getLast?_ofDatagram (hle : bs.length ≤ 1500) (hacc : Accepted bs) :
    (connPoints (datagramItems bs)).getLast? = some (ofDatagram hle hacc).last :=
  List.getLast?_eq_some_getLast (ofDatagram hle hacc).connPoints_ne_nil

lemma usable_iff (hle : bs.length ≤ 1500) (hacc : Accepted bs) :
    Usable bs ↔ connPort (Hearing.ofDatagram hle hacc).last ≠ 0 := by
  simp [Usable, hacc, Hearing.getLast?_ofDatagram hle hacc]

lemma lacksPort_iff (hle : bs.length ≤ 1500) (hacc : Accepted bs) :
    LacksPort bs ↔ connPort (Hearing.ofDatagram hle hacc).last = 0 := by
  simp [LacksPort, hacc, Hearing.getLast?_ofDatagram hle hacc]

end Datagrams

/-! ### The waiting loop -/

/-- How the waiting loop goes: one of its calls fails, or another round follows a timeout or a
datagram that is refused, or a datagram is accepted. -/
inductive Waiting (destAddr : List UInt8) : Waited → List (Event netSig) → Prop where
  | unfinished : Waiting destAddr .unfinished []
  | unsent (taken : (NetCall.sendto destAddr peerDiscoverySignal).Answer) :
    ¬ TakenInFull _ taken →
    Waiting destAddr .failed [⟨.sendto destAddr peerDiscoverySignal, taken⟩]
  | unselected (taken : (NetCall.sendto destAddr peerDiscoverySignal).Answer) (secs : ℕ) :
    TakenInFull _ taken →
    Waiting destAddr .failed [⟨.sendto destAddr peerDiscoverySignal, taken⟩, ⟨.select secs, none⟩]
  | unreceived (taken : (NetCall.sendto destAddr peerDiscoverySignal).Answer) (secs : ℕ) :
    TakenInFull _ taken →
    Waiting destAddr .failed [⟨.sendto destAddr peerDiscoverySignal, taken⟩,
      ⟨.select secs, some true⟩, ⟨.recvfrom 1500, none⟩]
  | timeout {w : Waited} {t : List (Event netSig)}
    (taken : (NetCall.sendto destAddr peerDiscoverySignal).Answer) (secs : ℕ) :
    TakenInFull _ taken → Waiting destAddr w t →
    Waiting destAddr w (⟨.sendto destAddr peerDiscoverySignal, taken⟩ ::
      ⟨.select secs, some false⟩ :: t)
  | refused {w : Waited} {t : List (Event netSig)}
    (taken : (NetCall.sendto destAddr peerDiscoverySignal).Answer) (secs : ℕ)
    (bs : { bs : List UInt8 // bs.length ≤ 1500 }) :
    TakenInFull _ taken → ¬ Accepted bs.val →
    Waiting destAddr w t →
    Waiting destAddr w (⟨.sendto destAddr peerDiscoverySignal, taken⟩ ::
      ⟨.select secs, some true⟩ :: ⟨.recvfrom 1500, some bs⟩ :: t)
  | accepted (taken : (NetCall.sendto destAddr peerDiscoverySignal).Answer) (secs : ℕ)
    (bs : { bs : List UInt8 // bs.length ≤ 1500 }) (stale : Memory UInt8) :
    TakenInFull _ taken → Accepted bs.val →
    Waiting destAddr (.offer bs.val.length (.overlay bs.val stale))
      [⟨.sendto destAddr peerDiscoverySignal, taken⟩, ⟨.select secs, some true⟩,
        ⟨.recvfrom 1500, some bs⟩]

section Loop

variable {ok : Assumption netSig} {destAddr : List UInt8}

lemma ensures_sendPeerDiscoverySignal :
    (sendPeerDiscoverySignal destAddr).Ensures ok fun taken t =>
      ∃ answer, t = [⟨.sendto destAddr peerDiscoverySignal, answer⟩] ∧
        (taken = true ↔ TakenInFull _ answer) := by
  intro answer _
  exact ⟨answer, rfl, decide_eq_true_iff⟩

/-- A wait for an offer fails, times out or puts a datagram into the buffer. -/
lemma ensures_recvPeerOffer (secs : ℕ) (msg : Memory UInt8) :
    (recvPeerOffer secs msg).Ensures ok fun r t =>
      (t = [⟨.select secs, none⟩] ∧ r.1 = none) ∨
      (t = [⟨.select secs, some false⟩] ∧ r = (some 0, msg)) ∨
      (t = [⟨.select secs, some true⟩, ⟨.recvfrom 1500, none⟩] ∧ r.1 = none) ∨
      ∃ bs : { bs : List UInt8 // bs.length ≤ 1500 },
        t = [⟨.select secs, some true⟩, ⟨.recvfrom 1500, some bs⟩] ∧
          r = (some bs.val.length, .overlay bs.val msg) := by
  intro ready _
  match ready with
  | none => exact .inl ⟨rfl, rfl⟩
  | some false => exact .inr (.inl ⟨rfl, rfl⟩)
  | some true =>
    intro arrived _
    cases arrived with
    | none => exact .inr (.inr (.inl ⟨rfl, rfl⟩))
    | some bs => exact .inr (.inr (.inr ⟨bs, rfl, by rw [← Memory.patch_zero]⟩))

/-- A round is the front of a way to go on, or it ends the waiting. -/
lemma ensures_offerRound (msg : Memory UInt8) :
    (offerRound destAddr msg).Ensures ok fun v t =>
      Sum.elim (fun _ => ∀ w t', Waiting destAddr w t' → Waiting destAddr w (t ++ t'))
        (fun w => Waiting destAddr w t) v := by
  apply ensures_sendPeerDiscoverySignal.bind
  rintro sent _ ⟨taken, rfl, htaken⟩
  by_cases hsent : sent = true
  · rw [if_pos hsent]
    apply (ensures_recvPeerOffer defaultDiscoveryRetry msg).bind
    rintro ⟨received, msg'⟩ t h
    rcases h with ⟨rfl, rfl⟩ | ⟨rfl, hr⟩ | ⟨rfl, rfl⟩ | ⟨bs, rfl, hr⟩
    · exact .unselected taken _ (htaken.mp hsent)
    · cases hr
      exact fun w t' => .timeout taken _ (htaken.mp hsent)
    · exact .unreceived taken _ (htaken.mp hsent)
    · cases hr
      have hiff := (check_overlay_iff bs.val msg).trans accepted_iff.symm
      by_cases hacc : Accepted bs.val
      · have hlen : bs.val.length ≠ 0 := by
          have := (accepted_iff.mp hacc).1
          omega
        simp only [hiff.mpr hacc, ne_eq, not_true, and_false, if_false, hlen]
        exact .accepted taken _ bs msg (htaken.mp hsent) hacc
      · have hcheck := mt hiff.mp hacc
        by_cases hlen : bs.val.length = 0
        · simp only [hlen, ne_eq, not_true, false_and, if_false, if_true]
          exact fun w t' => .refused taken _ bs (htaken.mp hsent) hacc
        · simp only [hlen, hcheck, ne_eq, not_false_iff, and_self, if_true]
          exact fun w t' => .refused taken _ bs (htaken.mp hsent) hacc
  · rw [if_neg hsent]
    exact .unsent taken (mt htaken.mpr hsent)

/-- The waiting loop goes in one of these ways. -/
lemma ensures_waiting (n : ℕ) (msg : Memory UInt8) :
    (Program.forever (offerRound destAddr) (fun _ => .unfinished) n msg).Ensures ok
      (Waiting destAddr) := by
  refine Program.ensures_forever (Q := Waiting destAddr)
    (I := fun _ t => ∀ w t', Waiting destAddr w t' → Waiting destAddr w (t ++ t')) ?_ ?_ n msg []
    fun w t' h => h
  · intro s t hfront
    simpa using hfront _ _ .unfinished
  · intro s t hfront
    apply (ensures_offerRound s).mono
    intro v t' hround
    cases v with
    | inl msg' =>
      intro w t'' h
      rw [List.append_assoc]
      exact hfront w _ (hround w t'' h)
    | inr w => exact hfront w t' hround

end Loop

/-! ### What the ways have in common -/

section Datagrams

@[simp] lemma datagrams_nil : datagrams [] = [] := rfl

@[simp] lemma datagrams_cons_recvfrom (n : ℕ) (bs : { bs : List UInt8 // bs.length ≤ n })
    (t : List (Event netSig)) :
    datagrams (⟨.recvfrom n, some bs⟩ :: t) = bs.val :: datagrams t := rfl

@[simp] lemma datagrams_cons_sendto (address msg : List UInt8)
    (taken : (NetCall.sendto address msg).Answer) (t : List (Event netSig)) :
    datagrams (⟨.sendto address msg, taken⟩ :: t) = datagrams t := rfl

@[simp] lemma datagrams_cons_select (secs : ℕ) (ready : Option Bool) (t : List (Event netSig)) :
    datagrams (⟨.select secs, ready⟩ :: t) = datagrams t := rfl

@[simp] lemma datagrams_cons_none (n : ℕ) (t : List (Event netSig)) :
    datagrams (⟨.recvfrom n, none⟩ :: t) = datagrams t := rfl

end Datagrams

namespace Waiting

variable {destAddr : List UInt8} {w : Waited} {t : List (Event netSig)}

/-- A round starts with sending the signal. -/
lemma head (h : Waiting destAddr w t) :
    ∀ e ∈ t.head?, e.op = .sendto destAddr peerDiscoverySignal := by
  cases h with
  | unfinished => exact nofun
  | _ =>
    rintro _ ⟨⟩
    rfl

lemma eq_unfinished (h : Waiting destAddr w []) : w = .unfinished := by
  cases h
  rfl

/-- Giving up is due to a call, and where a datagram is accepted none has failed. -/
lemma failed_iff (h : Waiting destAddr w t) : (∃ e ∈ t, CallFailed e) ↔ w = .failed := by
  induction h with
  | unfinished => simp
  | unsent taken hnot => simp [CallFailed, hnot]
  | unselected taken secs hsent => simp [CallFailed]
  | unreceived taken secs hsent => simp [CallFailed]
  | timeout taken secs hsent _ ih | refused taken secs _ hsent _ _ ih =>
    simpa [CallFailed, hsent] using ih
  | accepted taken secs bs stale hsent => simp [CallFailed, hsent]

/-- A datagram that is accepted is the last one. -/
lemma offer_of_accepted (h : Waiting destAddr w t) {bs : List UInt8} (hbs : bs ∈ datagrams t)
    (hacc : Accepted bs) :
    ∃ stale, bs.length ≤ 1500 ∧ w = .offer bs.length (.overlay bs stale) := by
  induction h with
  | unfinished | unsent | unselected | unreceived => simp at hbs
  | timeout taken secs hsent _ ih => exact ih (by simpa using hbs)
  | refused taken secs bs' hsent hnot _ ih =>
    rw [datagrams_cons_sendto, datagrams_cons_select, datagrams_cons_recvfrom, List.mem_cons] at hbs
    rcases hbs with rfl | hbs
    · exact absurd hacc hnot
    · exact ih hbs
  | accepted taken secs bs' stale =>
    obtain rfl : bs = bs'.val := by simpa using hbs
    exact ⟨stale, bs'.property, rfl⟩

lemma accepted_of_offer {len : ℕ} {msg : Memory UInt8} (h : Waiting destAddr (.offer len msg) t) :
    ∃ bs ∈ datagrams t, Accepted bs := by
  generalize hw : Waited.offer len msg = w at h
  induction h with
  | unfinished | unsent | unselected | unreceived => cases hw
  | timeout _ _ _ _ ih => exact ih hw
  | refused _ _ bs' _ _ _ ih =>
    obtain ⟨bs, hbs, hacc⟩ := ih hw
    exact ⟨bs, List.mem_cons_of_mem bs'.val hbs, hacc⟩
  | accepted _ _ bs _ _ hacc => exact ⟨bs.val, List.mem_cons_self, hacc⟩

/-- The signal is sent again behind every datagram, if anything comes behind it. -/
lemma isChain (h : Waiting destAddr w t) :
    t.IsChain fun e e' => Useless e → e'.op = .sendto destAddr peerDiscoverySignal := by
  induction h with
  | unfinished => exact .nil
  | unsent => exact .singleton _
  | unselected => simp [Useless]
  | unreceived | accepted => simp [Useless]
  | timeout taken secs _ hrest ih =>
    refine .cons_cons (by simp [Useless]) (List.isChain_cons.mpr ⟨?_, ih⟩)
    simp [Useless]
  | refused taken secs bs _ _ hrest ih =>
    refine .cons_cons (by simp [Useless]) (.cons_cons (by simp [Useless]) ?_)
    exact List.isChain_cons.mpr ⟨fun e he _ => hrest.head e he, ih⟩

/-- A run that ends behind a datagram that was refused has been cut off. -/
lemma unfinished_of_getLast (h : Waiting destAddr w t) {e : Event netSig} (he : e ∈ t.getLast?)
    {bs : List UInt8} (hbs : bs ∈ datagrams [e]) (hnot : ¬ Accepted bs) : w = .unfinished := by
  induction h with
  | unfinished => cases he
  | unsent | unselected | unreceived =>
    obtain rfl := Option.some.inj he
    cases hbs
  | @timeout w t taken secs _ hrest ih =>
    cases t with
    | nil =>
      obtain rfl := Option.some.inj he
      cases hbs
    | cons e' t => exact ih (by simpa using he)
  | @refused w t taken secs bs' _ _ hrest ih =>
    cases t with
    | nil => exact hrest.eq_unfinished
    | cons e' t => exact ih (by simpa using he)
  | accepted taken secs bs' stale _ hacc =>
    obtain rfl := Option.some.inj he
    obtain rfl : bs = bs'.val := by simpa using hbs
    exact absurd hacc hnot

end Waiting

/-! ### The result -/

/-- What `get_peer_offer` returns after waiting. -/
def Waited.result (storage : Memory UInt8) (length : ℕ) : Waited → Option (Bool × ModemAddress)
  | .unfinished => none
  | .failed => some (false, ⟨storage, length, 0⟩)
  | .offer len msg => some (settleAddress ((scanPeerOffer len ⟨storage, length, 0⟩).value msg))

section Result

variable {destAddr : List UInt8} {storage : Memory UInt8} {length : ℕ}

/-- What is returned depends on how the waiting went. -/
lemma ensures_getPeerOffer {ok : Assumption netSig} (n : ℕ) (msg : Memory UInt8) :
    (getPeerOffer n destAddr msg storage length).Ensures ok fun ret t =>
      ∃ w, Waiting destAddr w t ∧ ret = w.result storage length := by
  apply (ensures_waiting n msg).bind
  intro w t h
  cases w with
  | unfinished => exact ⟨.unfinished, by simpa using h, rfl⟩
  | failed => exact ⟨.failed, by simpa using h, rfl⟩
  | offer len msg => exact ⟨.offer len msg, by simpa using h, rfl⟩

/-- An offer is used exactly if its last connection point has a port. -/
lemma result_offer {bs : List UInt8} (hle : bs.length ≤ 1500) (hacc : Accepted bs)
    (stale : Memory UInt8) (storage : Memory UInt8) (length : ℕ) : ∃ used found,
    (Waited.offer bs.length (.overlay bs stale)).result storage length = some (used, found) ∧
      (used = true ↔ ¬ LacksPort bs) := by
  have hsettle := (Hearing.ofDatagram hle hacc).settleAddress_scanPeerOffer storage length stale
  refine ⟨_, _, congrArg some hsettle, ?_⟩
  rw [decide_eq_true_iff, lacksPort_iff hle hacc]

/-- A run goes on as it should exactly if no datagram is accepted that lacks a port. -/
lemma Waiting.persistent_iff {w : Waited} {t : List (Event netSig)} (h : Waiting destAddr w t) :
    Persistent destAddr (w.result storage length) t ↔ ∀ bs ∈ datagrams t, ¬ LacksPort bs := by
  constructor
  · intro hp bs hbs hlacks
    obtain ⟨stale, hle, rfl⟩ := h.offer_of_accepted hbs hlacks.1
    obtain ⟨used, found, hret, hused⟩ := result_offer hle hlacks.1 stale storage length
    have hunused : used = false := by simpa [hlacks] using hused
    rw [hunused] at hret
    exact absurd (h.failed_iff.mp (hp.failed found hret)) nofun
  · intro hall
    refine ⟨?_, h.isChain, ?_⟩
    · intro found hret
      apply h.failed_iff.mpr
      cases w with
      | unfinished => cases hret
      | failed => rfl
      | offer len msg =>
        obtain ⟨bs, hbs, hacc⟩ := h.accepted_of_offer
        obtain ⟨stale, hle, heq⟩ := h.offer_of_accepted hbs hacc
        obtain ⟨used, found', hret', hused⟩ := result_offer hle hacc stale storage length
        rw [heq, hret', hused.mpr (hall bs hbs)] at hret
        cases hret
    · rintro e he ⟨bs, hbs, hunusable⟩
      have hmem : bs ∈ datagrams t := by
        obtain ⟨e', he', heq⟩ := List.mem_filterMap.mp hbs
        obtain rfl : e' = e := by simpa using he'
        exact List.mem_filterMap.mpr ⟨e', List.mem_of_getLast? he, heq⟩
      by_cases hacc : Accepted bs
      · obtain ⟨-, hle, -⟩ := h.offer_of_accepted hmem hacc
        have hport := mt (lacksPort_iff hle hacc).mpr (hall bs hmem)
        exact absurd ((usable_iff hle hacc).mpr hport) hunusable
      · rw [h.unfinished_of_getLast he hbs hacc]
        rfl

end Result

/-- In every run, discovery gives up only on a call that failed and goes on after every datagram
that is of no use, exactly if no datagram that the validator accepts has a last connection point
with the port 0. -/
theorem getPeerOffer_persistent_iff {S : Type} (H : Handler netSig S) (s : S) (n : ℕ)
    (destAddr : List UInt8) (msg storage : Memory UInt8) (length : ℕ) :
    Persistent destAddr ((getPeerOffer n destAddr msg storage length).run H s).value
        ((getPeerOffer n destAddr msg storage length).run H s).trace ↔
      ∀ bs ∈ datagrams ((getPeerOffer n destAddr msg storage length).run H s).trace,
        ¬ LacksPort bs := by
  obtain ⟨w, hwaiting, hret⟩ := (ensures_getPeerOffer n msg).run_any H s
  rw [hret]
  exact hwaiting.persistent_iff

/-- The IPv4 connection point 192.0.2.1 with the port 0. -/
def portlessItems : List DataItem :=
  [⟨DataItemType.ipv4ConnPoint.code, [0, 192, 0, 2, 1, 0, 0]⟩]

/-- The offer with it. -/
def portlessOffer : Hearing :=
  .ofItems portlessItems (by decide) (by decide)

lemma meets_network : network.Meets fun op r => ¬ CallFailed ⟨op, r⟩ := by
  intro s op
  cases op with
  | sendto address msg => simp [network, CallFailed, TakenInFull]
  | select secs => cases s with
    | nil => simp [network, CallFailed]
    | cons a s => cases a <;> simp [network, CallFailed]
  | recvfrom n => cases s with
    | nil => simp [network, CallFailed]
    | cons a s => cases a <;> simp [network, CallFailed]
  | _ => exact nofun

/-- One offer with it, and discovery has failed although no call has. -/
theorem not_persistent :
    ¬ ∀ (S : Type) (H : Handler netSig S) (s : S) (n : ℕ) (destAddr : List UInt8)
      (msg storage : Memory UInt8) (length : ℕ),
        Persistent destAddr ((getPeerOffer n destAddr msg storage length).run H s).value
          ((getPeerOffer n destAddr msg storage length).run H s).trace := by
  intro hall
  have hlast : portlessOffer.last = portlessItems[0] := by
    apply Hearing.last_eq []
    rw [portlessOffer, Hearing.items_ofItems]
    rfl
  have houtcome := portlessOffer.outcome_eq 0 [] (fun _ => 0) (fun _ => 0) 0 []
  rw [hlast] at houtcome
  have hpersistent := hall (List Arrival) network (portlessOffer.arrivals ++ [])
    (portlessOffer.before.length + 1 + 0) [] (fun _ => 0) (fun _ => 0) 0
  obtain ⟨e, he, hfailed⟩ := hpersistent.failed _ houtcome
  exact Program.of_mem_trace meets_network he hfailed

end DlepRouter
