import DlepRouter.Discovery.Socket
import DlepRouter.Main.Calls
import DlepRouter.Router.Machine
import DlepRouter.Session.Dialogue

/-!
# The operation of the router

What the router is meant to do, seen from outside: without the address of a modem it announces
itself until it is offered one, it holds a dialogue with the modem that was offered last, and when
the dialogue has ended in order it starts over. Every run of the router is an operation of this
kind.
-/

namespace DlepRouter

open Interaction Tlv Scan Libc

/-! ### Observations -/

/-- What can be observed of the router. -/
inductive RouterObservation where
  | announced : (address msg : List UInt8) → (taken : Bool) → RouterObservation
  | offered : (bs : List UInt8) → RouterObservation
  | dialogue : Observation → RouterObservation

/-- What a call of discovery shows. -/
def observeNet : Event netSig → List RouterObservation
  | ⟨.sendto address msg, taken⟩ =>
    [.announced address msg (taken.map Fin.val = some msg.length)]
  | ⟨.recvfrom _, some bs⟩ => [.offered bs.val]
  | _ => []

/-- What an event shows. -/
def observeRouter : Event routerSig → List RouterObservation
  | ⟨.inl _, _⟩ => []
  | ⟨.inr (.inl c), r⟩ => observeNet ⟨c, r⟩
  | ⟨.inr (.inr c), r⟩ => (observe ⟨c, r⟩).map .dialogue

/-! ### The operation -/

/-- The phases of the operation. -/
inductive RouterPhase where
  | seeking
  | listening
  | chosen : (address : List UInt8) → RouterPhase
  | talking : (address : List UInt8) → Phase → RouterPhase
  | stopped : Exit → RouterPhase

/-- How the router ends that has come to a phase. -/
def RouterPhase.Yields : RouterPhase → Option Exit → Prop
  | stopped e, v => v = some e
  | seeking, v => v = none
  | talking _ q, v => q.Yields none ∧ v = none
  | _, _ => False

/-- The address that the Peer Discovery signal goes to. -/
def IsDiscoveryAddress (set : Settings) (address : List UInt8) : Prop :=
  if set.useIpv6 then
    ∃ scopeId, (set.iface = none → scopeId = 0) ∧
      address = sockaddrIn6 wellKnownPort wellKnownMulticastAddress6 scopeId
  else address = sockaddrIn wellKnownPort wellKnownMulticastAddress

/-- The datagram is a Peer Offer, and `i` is the last connection point in it. -/
def OffersLast (bs : List UInt8) (i : DataItem) : Prop :=
  IsPeerOffer bs ∧ (connPoints (datagramItems bs)).getLast? = some i

/-- One step of the operation. If the modem is not given, it is the one that is offered. -/
inductive Operation (set : Settings) (given : Option (List UInt8)) :
    Machine RouterPhase RouterObservation where
  | isGiven {address : List UInt8} (h : given = some address) :
    Operation set given .seeking [] (.chosen address)
  | unprepared (h : given = none) : Operation set given .seeking [] (.stopped .discoveryFailed)
  | unannounced {address : List UInt8} (h : given = none)
    (haddress : IsDiscoveryAddress set address) :
    Operation set given .seeking [.announced address peerDiscoverySignal false]
      (.stopped .discoveryFailed)
  | announces {address : List UInt8} (h : given = none)
    (haddress : IsDiscoveryAddress set address) :
    Operation set given .seeking [.announced address peerDiscoverySignal true] .listening
  | waitsAgain : Operation set given .listening [] .seeking
  | breaksOff : Operation set given .listening [] (.stopped .discoveryFailed)
  | refuses {bs : List UInt8} (h : ¬ IsPeerOffer bs) :
    Operation set given .listening [.offered bs] .seeking
  | finds {bs : List UInt8} {i : DataItem} {address : List UInt8} (h : OffersLast bs i)
    (hport : connPort i ≠ 0)
    (haddress : IsSockaddr (connFamily i) (connAddress i) (connPort i) address) :
    Operation set given .listening [.offered bs] (.chosen address)
  | findsNoPort {bs : List UInt8} {i : DataItem} (h : OffersLast bs i) (hport : connPort i = 0) :
    Operation set given .listening [.offered bs] (.stopped .discoveryFailed)
  | starts {address : List UInt8} :
    Operation set given (.chosen address) [] (.talking address .connecting)
  | talks {address : List UInt8} {q q' : Phase} {w : List Observation}
    (h : Turn address set.routerHeartbeatInterval q w q') :
    Operation set given (.talking address q) (w.map .dialogue) (.talking address q')
  | startsOver {address : List UInt8} :
    Operation set given (.talking address .ended) [] .seeking
  | givesUp {address : List UInt8} :
    Operation set given (.talking address .failed) [] (.stopped .sessionFailed)

/-! ### Discovery -/

section Discovery

open Program (Refines)

variable {ok : Assumption netSig} {set : Settings} {destAddr : List UInt8}

/-- What is shown up to the end of the waiting loop. A datagram that was accepted is still to be
judged. -/
def Waited.Shown (set : Settings) (w : List RouterObservation) : Waited → Prop
  | unfinished => (Operation set none).Run .seeking w .seeking
  | failed => (Operation set none).Run .seeking w (.stopped .discoveryFailed)
  | offer len msg => ∃ bs stale, bs.length ≤ 1500 ∧ Accepted bs ∧ len = bs.length ∧
      msg = .overlay bs stale ∧ ∀ q, Operation set none .listening [.offered bs] q →
        (Operation set none).Run .seeking w q

lemma Waited.Shown.prepend {w w' : List RouterObservation} {r : Waited}
    (h : (Operation set none).Run .seeking w .seeking) (hr : r.Shown set w') :
    r.Shown set (w ++ w') := by
  cases r with
  | unfinished | failed => exact h.trans hr
  | offer len msg =>
    obtain ⟨bs, stale, hle, hacc, hlen, hmsg, hrun⟩ := hr
    exact ⟨bs, stale, hle, hacc, hlen, hmsg, fun q hq => h.trans (hrun q hq)⟩

/-- The waiting loop announces the router, again and again. -/
lemma Waiting.shown {w : Waited} {t : List (Event netSig)} (h : Waiting destAddr w t)
    (haddress : IsDiscoveryAddress set destAddr) : w.Shown set (t.flatMap observeNet) := by
  have hsent : ∀ taken : (NetCall.sendto destAddr peerDiscoverySignal).Answer,
      TakenInFull _ taken → (Operation set none).Run .seeking
        (observeNet ⟨.sendto destAddr peerDiscoverySignal, taken⟩) .listening := by
    intro taken htaken
    have hall : taken.map Fin.val = some peerDiscoverySignal.length := htaken
    rw [observeNet, decide_eq_true hall]
    exact .single (.announces rfl haddress)
  induction h with
  | unfinished => exact .refl _
  | unsent taken hnot =>
    have hpart : ¬ taken.map Fin.val = some peerDiscoverySignal.length := hnot
    rw [List.flatMap_cons, observeNet, decide_eq_false hpart]
    exact .single (.unannounced rfl haddress)
  | unselected taken secs htaken | unreceived taken secs htaken =>
    exact (hsent taken htaken).trans (.single .breaksOff)
  | timeout taken secs htaken _ ih =>
    exact Waited.Shown.prepend ((hsent taken htaken).trans (.single .waitsAgain)) ih
  | refused taken secs bs htaken hrefused _ ih =>
    have hround := (hsent taken htaken).trans (.single (.refuses (mt accepted_iff.mpr hrefused)))
    simpa [observeNet] using Waited.Shown.prepend hround ih
  | accepted taken secs bs stale htaken hacc =>
    refine ⟨bs.val, stale, bs.property, hacc, rfl, rfl, ?_⟩
    intro q hq
    exact (hsent taken htaken).trans (.single hq)

/-- The phase that a discovery leads to. -/
def Discovered : Option (Bool × ModemAddress) → RouterPhase → Prop
  | none, q => q = .seeking
  | some (false, _), q => q = .stopped .discoveryFailed
  | some (true, found), q => q = .chosen (Sockaddr.octets ⟨found.storage, found.length⟩)

/-- What is shown when `get_peer_offer` returns. An address that was found may still be changed
where it does not show what was offered. -/
def OfferShown (set : Settings) (w : List RouterObservation) : Option (Bool × ModemAddress) → Prop
  | none => (Operation set none).Run .seeking w .seeking
  | some (false, _) => (Operation set none).Run .seeking w (.stopped .discoveryFailed)
  | some (true, found) => ∃ i, found.Shows i ∧ ∀ address,
      IsSockaddr (connFamily i) (connAddress i) (connPort i) address →
        (Operation set none).Run .seeking w (.chosen address)

lemma ensures_getPeerOffer_shown (n : ℕ) (msg storage : Memory UInt8) (length : ℕ)
    (haddress : IsDiscoveryAddress set destAddr) :
    (getPeerOffer n destAddr msg storage length).Ensures ok fun r t =>
      OfferShown set (t.flatMap observeNet) r := by
  apply (ensures_getPeerOffer n msg).mono
  rintro r t ⟨w, hwaiting, rfl⟩
  have hshown := hwaiting.shown haddress
  cases w with
  | unfinished | failed => exact hshown
  | offer len msg =>
    obtain ⟨bs, stale, hle, hacc, rfl, rfl, hrun⟩ := hshown
    let h := Hearing.ofDatagram hle hacc
    have hlast : OffersLast bs h.last :=
      ⟨accepted_iff.mp hacc, Hearing.getLast?_ofDatagram hle hacc⟩
    have hsettle := h.settleAddress_scanPeerOffer storage length stale
    change OfferShown set _ (some (settleAddress _))
    rw [show (scanPeerOffer bs.length ⟨storage, length, 0⟩).value (.overlay bs stale) =
      (scanPeerOffer h.offer.val.length ⟨storage, length, 0⟩).value
        (.overlay h.offer.val stale) from rfl, hsettle]
    by_cases hport : connPort h.last = 0
    · rw [decide_eq_false (not_not.mpr hport)]
      exact hrun _ (.findsNoPort hlast hport)
    · rw [decide_eq_true hport]
      refine ⟨h.last, h.shows_found storage length, ?_⟩
      intro address hsockaddr
      exact hrun _ (.finds hlast hport hsockaddr)

/-- An address shows a connection point whatever is in its scope id. -/
lemma isSockaddr_of_shows {found : ModemAddress} {i : DataItem} (h : found.Shows i)
    (storage : Memory UInt8) (hsame : ∀ a < 24, storage a = found.storage a) :
    IsSockaddr (connFamily i) (connAddress i) (connPort i)
      (Sockaddr.octets ⟨storage, found.length⟩) := by
  have hslice : ∀ off k, off + k ≤ 24 → storage.slice off k = found.storage.slice off k := by
    intro off k hle
    exact Memory.slice_congr fun a ha => hsame (off + a) (by omega)
  have hat : 4 ≤ (connFamily i).addressAt := by cases connFamily i <;> decide
  have hend : (connFamily i).addressAt + (connFamily i).addressSize ≤
      min (connFamily i).addressLength 24 := by cases connFamily i <;> decide
  rw [h.length]
  change IsSockaddr _ _ _ (storage.slice 0 (connFamily i).addressLength)
  refine ⟨Memory.length_slice .., ?_, ?_, ?_⟩
  · rw [Memory.take_slice _ _ (by omega), hslice 0 2 (by omega), h.family]
  · rw [Memory.drop_slice _ _ (by omega), Memory.take_slice _ _ (by omega), Nat.zero_add,
      hslice 2 2 (by omega), h.port]
  · rw [Memory.drop_slice _ _ (by omega), Memory.take_slice _ _ (by omega), Nat.zero_add,
      hslice _ _ (by omega), h.address]

/-- What is set up before is not seen. -/
lemma refines_discoverIpv4 (hset : set.useIpv6 = false) (n : ℕ) (msg storage : Memory UInt8)
    (length : ℕ) :
    (discoverIpv4 n msg storage length).Refines ok (Operation set none) observeNet .seeking
      Discovered := by
  have haddress : IsDiscoveryAddress set (sockaddrIn wellKnownPort wellKnownMulticastAddress) := by
    simp [IsDiscoveryAddress, hset]
  apply Refines.call
  intro bound _
  refine ⟨.seeking, .refl _, ?_⟩
  cases bound with
  | false => exact ⟨_, .single (.unprepared rfl), rfl⟩
  | true =>
    apply Refines.call
    intro looped _
    refine ⟨.seeking, .refl _, ?_⟩
    cases looped with
    | false => exact ⟨_, .single (.unprepared rfl), rfl⟩
    | true =>
      apply (ensures_getPeerOffer_shown n msg storage length haddress).refines
      intro r t h
      match r with
      | none => exact ⟨_, h, rfl⟩
      | some (false, found) => exact ⟨_, h, rfl⟩
      | some (true, found) =>
        obtain ⟨i, hshows, hrun⟩ := h
        exact ⟨_, hrun _ (isSockaddr_of_shows hshows found.storage fun _ _ => rfl), rfl⟩

/-- The scope id that is stored behind an IPv6 discovery belongs to no address that is shown. -/
lemma refines_discoverIpv6 (hset : set.useIpv6 = true) (n : ℕ) (msg storage : Memory UInt8)
    (length : ℕ) :
    (discoverIpv6 n set.iface msg storage length).Refines ok (Operation set none) observeNet
      .seeking Discovered := by
  have hoffer : ∀ scopeId, (set.iface = none → scopeId = 0) →
      (getPeerOffer n (sockaddrIn6 wellKnownPort wellKnownMulticastAddress6 scopeId) msg storage
        length >>= storeScopeId scopeId).Refines ok (Operation set none) observeNet .seeking
          Discovered := by
    intro scopeId hid
    have haddress : IsDiscoveryAddress set
        (sockaddrIn6 wellKnownPort wellKnownMulticastAddress6 scopeId) := by
      rw [IsDiscoveryAddress, if_pos hset]
      exact ⟨scopeId, hid, rfl⟩
    apply Program.Ensures.bind (ensures_getPeerOffer_shown n msg storage length haddress)
    intro r t h
    match r with
    | none => exact ⟨_, (List.append_nil t).symm ▸ h, rfl⟩
    | some (false, found) => exact ⟨_, (List.append_nil t).symm ▸ h, rfl⟩
    | some (true, found) =>
      obtain ⟨i, hshows, hrun⟩ := h
      have hsame : ∀ a < 24, found.storage.patch 24 (hostUint32 scopeId) a = found.storage a :=
        fun a ha => Memory.patch_of_lt _ _ ha
      exact ⟨_, (List.append_nil t).symm ▸ hrun _ (isSockaddr_of_shows hshows _ hsame), rfl⟩
  rw [discoverIpv6_eq]
  apply Refines.call
  intro bound _
  refine ⟨.seeking, .refl _, ?_⟩
  cases bound with
  | false => exact ⟨_, .single (.unprepared rfl), rfl⟩
  | true =>
    apply Refines.call
    intro looped _
    refine ⟨.seeking, .refl _, ?_⟩
    cases looped with
    | false => exact ⟨_, .single (.unprepared rfl), rfl⟩
    | true =>
      cases hiface : set.iface with
      | none => exact hoffer 0 fun _ => rfl
      | some iface =>
        apply Refines.call
        intro scopeId _
        exact ⟨.seeking, .refl _, hoffer scopeId (by simp [hiface])⟩

/-- A discovery seeks a modem until it is offered one. -/
lemma refines_discover (n : ℕ) (msg storage : Memory UInt8) (length : ℕ) :
    (discover n set.useIpv6 set.iface msg storage length).Refines ok (Operation set none) observeNet
      .seeking Discovered := by
  rw [discover_eq]
  apply Refines.call
  intro created _
  refine ⟨.seeking, .refl _, ?_⟩
  cases created with
  | false => exact ⟨_, .single (.unprepared rfl), rfl⟩
  | true =>
    have hbound : (bindToInterface set.iface).Refines ok (Operation set none) observeNet .seeking
        fun _ q => q = .seeking := by
      cases set.iface with
      | none => exact .ret rfl
      | some iface =>
        apply Refines.call
        intro uid _
        refine ⟨.seeking, .refl _, ?_⟩
        change Refines ok _ observeNet
          (if (show ℕ from uid) ≠ 0 then pure true else Net.call (.bindToDevice iface)) _ _
        split_ifs
        · exact .ret rfl
        · exact fun _ _ => ⟨.seeking, .refl _, rfl⟩
    apply hbound.bind
    rintro bound _ rfl
    have hfound : (discoverBound n set.useIpv6 set.iface msg storage length bound).Refines ok
        (Operation set none) observeNet .seeking Discovered := by
      unfold discoverBound
      split_ifs with hbound hset
      · exact refines_discoverIpv6 hset n msg storage length
      · exact refines_discoverIpv4 (by simpa using hset) n msg storage length
      · exact ⟨_, .single (.unprepared rfl), rfl⟩
    apply hfound.bind
    intro r q hr
    cases r with
    | none => exact .ret hr
    | some r => exact fun _ _ => ⟨q, .refl q, hr⟩

end Discovery

/-! ### The loop of `main` -/

section Loop

open Program (Refines)

variable {ok : Assumption routerSig} {set : Settings} {given : Option (List UInt8)} (n : ℕ)

/-- The phase that a round of the loop leads to. -/
def RoundDone (discovers : Bool) (address : Sockaddr) :
    Option (Sockaddr ⊕ Option Exit) → RouterPhase → Prop
  | none, q => q.Yields none
  | some (.inl address'), q => q = .seeking ∧ (discovers = false → address' = address)
  | some (.inr v), q => q.Yields v

/-- A session is a dialogue with the modem that was chosen. -/
lemma refines_session_router (modemAddress : List UInt8) :
    (Router.sys (session n modemAddress set.routerHeartbeatInterval)).Refines ok
      (Operation set given) observeRouter (.chosen modemAddress)
      fun r q => ∃ q₀, q = .talking modemAddress q₀ ∧ q₀.Yields r := by
  have htalks : (session n modemAddress set.routerHeartbeatInterval).Refines
      (fun op => ok (.inr (.inr op))) (Operation set given) (fun e => observeRouter e.inr.inr)
      (.talking modemAddress .connecting)
      fun r q => ∃ q₀, q = .talking modemAddress q₀ ∧ q₀.Yields r :=
    (refines_session modemAddress set.routerHeartbeatInterval n).map
      (RouterPhase.talking modemAddress) RouterObservation.dialogue
      fun _ _ _ h => .single (Operation.talks h)
  have hsys := Program.refines_inr.mpr (Program.refines_inr.mpr htalks)
  exact hsys.of_run (.single .starts)

/-- What follows in a round when there is an address. -/
def sessionCall (set : Settings) (address : Sockaddr) : Main (Sockaddr ⊕ Option Exit) := do
  let ret ← Main.call (.session address.octets set.routerHeartbeatInterval)
  if ret ≠ 0 then pure (.inr (some .sessionFailed)) else pure (.inl address)

lemma refines_sessionCall (discovers : Bool) (address address' : Sockaddr)
    (hsame : discovers = false → address' = address) :
    ((sessionCall set address').implement (routerCall n)).Refines ok (Operation set given)
      observeRouter (.chosen address'.octets) (RoundDone discovers address) := by
  rw [sessionCall, Program.implement_bind]
  have hcall : ((Main.call (.session address'.octets set.routerHeartbeatInterval)).implement
      (routerCall n)).Refines ok (Operation set given) observeRouter (.chosen address'.octets)
        fun r q => ∃ q₀, q = .talking address'.octets q₀ ∧ q₀.Yields r := by
    rw [Main.call, Program.implement_perform]
    exact refines_session_router n address'.octets
  apply hcall.andThen
  · rintro _ ⟨q₀, rfl, hq₀⟩
    exact ⟨hq₀, rfl⟩
  · rintro ret _ ⟨q₀, rfl, hq₀⟩
    have hended : q₀ = .ended ∧ ret = 0 ∨ q₀ = .failed ∧ ret = -1 := by
      cases q₀ with
      | ended => exact .inl ⟨rfl, Option.some.inj hq₀⟩
      | failed => exact .inr ⟨rfl, Option.some.inj hq₀⟩
      | inSession | terminating => cases hq₀
      | _ => exact hq₀.elim
    rcases hended with ⟨rfl, rfl⟩ | ⟨rfl, rfl⟩
    · exact ⟨.seeking, .single .startsOver, rfl, hsame⟩
    · exact ⟨.stopped .sessionFailed, .single .givesUp, rfl⟩

/-- A discovery is seen as it is. -/
lemma refines_discover_router (address : Sockaddr) :
    (routerCall n (.discover set.useIpv6 set.iface address)).Refines ok (Operation set none)
      observeRouter .seeking fun r q => match r with
        | none => q = .seeking
        | some (false, _) => q = .stopped .discoveryFailed
        | some (true, address') => q = .chosen address'.octets := by
  apply Refines.call
  intro msg _
  refine ⟨.seeking, .refl _, ?_⟩
  have hnet : (Router.net (discover n set.useIpv6 set.iface msg address.storage
      address.length)).Refines ok (Operation set none) observeRouter .seeking Discovered :=
    Program.refines_inr.mpr (Program.refines_inl.mpr
      (refines_discover n msg address.storage address.length))
  apply hnet.bind
  intro r q hq
  match r with
  | none => exact .ret hq
  | some (false, found) => exact .ret hq
  | some (true, found) => exact .ret hq

lemma refines_mainRound (discovers : Bool) (address : Sockaddr)
    (hgiven : given = if discovers then none else some address.octets) :
    ((mainRound set discovers address).implement (routerCall n)).Refines ok (Operation set given)
      observeRouter .seeking (RoundDone discovers address) := by
  cases discovers with
  | true =>
    rw [if_pos rfl] at hgiven
    subst hgiven
    have hround : mainRound set true address =
        Main.call (.discover set.useIpv6 set.iface address) >>= fun r =>
          if r.1 then sessionCall set r.2 else pure (.inr (some .discoveryFailed)) := rfl
    rw [hround, Program.implement_bind, Main.call, Program.implement_perform]
    apply (refines_discover_router n address).andThen
    · rintro _ rfl
      exact rfl
    · rintro ⟨found, address'⟩ q hq
      cases found with
      | true =>
        obtain rfl := hq
        exact refines_sessionCall n true address address' nofun
      | false =>
        obtain rfl := hq
        exact .ret rfl
  | false =>
    have hround : mainRound set false address = sessionCall set address := rfl
    rw [hround]
    exact (refines_sessionCall n false address address fun _ => rfl).of_run
      (.single (.isGiven (hgiven.trans (if_neg (by simp)))))

lemma refines_mainLoop (discovers : Bool) (address : Sockaddr)
    (hgiven : given = if discovers then none else some address.octets) :
    ((mainLoop n set discovers address).implement (routerCall n)).Refines ok (Operation set given)
      observeRouter .seeking fun r q => q.Yields r.join := by
  rw [mainLoop, Program.implement_forever]
  apply Refines.forever (I := fun address' q => q = .seeking ∧
    (discovers = false → address' = address))
  · rintro _ _ ⟨rfl, -⟩
    exact rfl
  · rintro address' _ ⟨rfl, hsame⟩
    have hgiven' : given = if discovers then none else some address'.octets := by
      cases discovers with
      | true => exact hgiven
      | false => rw [hgiven, hsame rfl]
    apply (refines_mainRound n discovers address' hgiven').bind
    intro r q hr
    match r with
    | none => exact .ret hr
    | some (.inl address'') =>
      refine .ret ⟨hr.1, fun hd => ?_⟩
      rw [hr.2 hd, hsame hd]
    | some (.inr v) => exact .ret hr
  · exact ⟨rfl, fun _ => rfl⟩

end Loop

end DlepRouter
