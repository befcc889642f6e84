import DlepRouter.Discovery.Retries
import DlepRouter.Interaction.Refinement

/-!
# The socket of a discovery

A discovery has one datagram socket. A monitor says in which order the router may use it and what
for, and it looks at every single call. It admits all calls of every discovery: nothing but the Peer
Discovery signal is sent, only what is readable is received, after a call that failed the socket is
only closed, and it is closed before the discovery returns.
-/

namespace DlepRouter

open Interaction Tlv Scan

/-! ### The parts of `discover` -/

/-- The end of `discover_ipv6`, which stores the scope id of the discovery address. -/
def storeScopeId (scopeId : UInt32) :
    Option (Bool × ModemAddress) → Net (Option (Bool × ModemAddress))
  | some (true, found) =>
    pure (some (true, { found with storage := found.storage.patch 24 (hostUint32 scopeId) }))
  | r => pure r

/-- The scope id of the discovery address. -/
def interfaceIndex : Option (List UInt8) → Net UInt32
  | some iface => Net.call (.ifNametoindex iface)
  | none => pure 0

/-- Root binds the socket of a discovery to the interface. -/
def bindToInterface : Option (List UInt8) → Net Bool
  | none => pure true
  | some iface => do
    let uid ← Net.call .geteuid
    if uid ≠ 0 then pure true else Net.call (.bindToDevice iface)

/-- What `discover` does with its socket, once it is bound. -/
def discoverBound (n : ℕ) (useIpv6 : Bool) (iface : Option (List UInt8))
    (msg storage : Memory UInt8) (length : ℕ) (bound : Bool) : Net (Option (Bool × ModemAddress)) :=
  if bound then
    if useIpv6 then discoverIpv6 n iface msg storage length
    else discoverIpv4 n msg storage length
  else pure (some (false, ⟨storage, length, 0⟩))

/-- The socket of a discovery is closed, once there is something to return. -/
def closeDiscovery : Option (Bool × ModemAddress) → Net (Option (Bool × ModemAddress))
  | none => pure none
  | some r => do
    Net.call .close
    pure (some r)

lemma discover_eq (n : ℕ) (useIpv6 : Bool) (iface : Option (List UInt8))
    (msg storage : Memory UInt8) (length : ℕ) :
    discover n useIpv6 iface msg storage length = (do
      if ← Net.call (.socket (if useIpv6 then .inet6 else .inet)) then
        let bound ← bindToInterface iface
        let r ← discoverBound n useIpv6 iface msg storage length bound
        closeDiscovery r
      else pure (some (false, ⟨storage, length, 0⟩))) := by
  have hclose : ∀ bound : Bool, (do
      let r ← discoverBound n useIpv6 iface msg storage length bound
      closeDiscovery r) =
      if bound then
        if useIpv6 then discoverIpv6 n iface msg storage length >>= closeDiscovery
        else discoverIpv4 n msg storage length >>= closeDiscovery
      else pure (some (false, ⟨storage, length, 0⟩)) >>= closeDiscovery := by
    intro bound
    unfold discoverBound
    split_ifs <;> rfl
  apply bind_congr
  intro created
  cases created with
  | false => rfl
  | true =>
    simp only [hclose, if_true]
    cases iface with
    | none => rfl
    | some iface =>
      rw [bindToInterface, Program.bind_assoc]
      apply bind_congr
      intro uid
      split_ifs <;> rfl

lemma discoverIpv6_eq (n : ℕ) (iface : Option (List UInt8)) (msg storage : Memory UInt8)
    (length : ℕ) :
    discoverIpv6 n iface msg storage length = (do
      if ← Net.call (.bind (sockaddrIn6 0 (List.replicate 16 0) 0)) then
        if ← Net.call (.multicastLoop .inet6) then
          let scopeId ← interfaceIndex iface
          let r ← getPeerOffer n
            (sockaddrIn6 wellKnownPort wellKnownMulticastAddress6 scopeId) msg storage length
          storeScopeId scopeId r
        else pure (some (false, ⟨storage, length, 0⟩))
      else pure (some (false, ⟨storage, length, 0⟩))) := by
  cases iface <;> rfl

/-! ### The monitor -/

/-- How far the router has come with the socket of a discovery. -/
inductive DatagramUse where
  | closed
  | created : Family → DatagramUse
  | privileged : Family → DatagramUse
  | prepared : Family → DatagramUse
  | bound : Family → DatagramUse
  | ready : Family → DatagramUse
  | waiting : Family → DatagramUse
  | readable : Family → DatagramUse
  | received : Family → DatagramUse
  | broken

namespace DatagramUse

/-- An address is that of a socket: both are of one family. -/
def bindAfter (f : Family) (address : List UInt8) (done : Bool) : Option DatagramUse :=
  if address.take 2 = f.octets then some (if done then .bound f else .broken) else none

/-- Nothing is sent but the Peer Discovery signal. -/
def sendAfter (f : Family) (address msg : List UInt8) (taken : Bool) : Option DatagramUse :=
  if address.take 2 = f.octets ∧ msg = peerDiscoverySignal then
    some (if taken then .waiting f else .broken)
  else none

/-- The monitor of the calls of a discovery. Only what `select` has found readable is received. The
socket may be bound to an interface, but it need not be: only root does that. -/
def after : DatagramUse → Event netSig → Option DatagramUse
  | closed, ⟨.socket f, done⟩ => some (if done then .created f else .closed)
  | created f, ⟨.geteuid, uid⟩ => some (if uid = (0 : ℕ) then .privileged f else .prepared f)
  | privileged f, ⟨.bindToDevice _, done⟩ => some (if done then .prepared f else .broken)
  | created f, ⟨.bind address, done⟩ | prepared f, ⟨.bind address, done⟩ =>
    bindAfter f address done
  | bound f, ⟨.multicastLoop f', done⟩ =>
    if f' = f then some (if done then .ready f else .broken) else none
  | ready f, ⟨.ifNametoindex _, _⟩ => some (.ready f)
  | ready f, ⟨.sendto address msg, taken⟩ | received f, ⟨.sendto address msg, taken⟩ =>
    sendAfter f address msg (taken.map Fin.val = some msg.length)
  | waiting _, ⟨.select _, none⟩ => some .broken
  | waiting f, ⟨.select _, some r⟩ => some (if r then .readable f else .ready f)
  | readable _, ⟨.recvfrom _, none⟩ => some .broken
  | readable f, ⟨.recvfrom n, some _⟩ => if n ≤ 1500 then some (.received f) else none
  | received _, ⟨.close, _⟩ | broken, ⟨.close, _⟩ => some .closed
  | _, _ => none

/-- The socket may announce the router. -/
def Announces (f : Family) (u : DatagramUse) : Prop := u = .ready f ∨ u = .received f

end DatagramUse

/-! ### Every discovery -/

section Discovery

open Program (Refines Admitted)

variable {ok : Assumption netSig} {f : Family} {destAddr : List UInt8}

/-- How a discovery leaves its socket: anyhow if it was cut off, and else only to be closed. -/
def DatagramUse.Left {α : Type} (f : Family) (r : Option α) (u : DatagramUse) : Prop :=
  r.isSome → u = .received f ∨ u = .broken

/-- The same at the end of the waiting loop. -/
def Waited.Left (f : Family) : Waited → DatagramUse → Prop
  | unfinished, _ => True
  | failed, u => u = .broken
  | offer _ _, u => u = .received f

namespace DatagramUse.Announces

variable {u : DatagramUse} {taken : (NetCall.sendto destAddr peerDiscoverySignal).Answer}

/-- A signal that is sent from an open socket is admitted. -/
lemma after_sendto (hu : u.Announces f) (hdest : destAddr.take 2 = f.octets) :
    u.after ⟨.sendto destAddr peerDiscoverySignal, taken⟩ =
      some (if taken.map Fin.val = some peerDiscoverySignal.length then .waiting f
        else .broken) := by
  have hsend : sendAfter f destAddr peerDiscoverySignal
      (taken.map Fin.val = some peerDiscoverySignal.length) =
      some (if taken.map Fin.val = some peerDiscoverySignal.length then .waiting f
        else .broken) := by
    rw [sendAfter, if_pos ⟨hdest, rfl⟩]
    simp only [decide_eq_true_eq]
  rcases hu with rfl | rfl
  · exact hsend
  · exact hsend

lemma after_sent (hu : u.Announces f) (hdest : destAddr.take 2 = f.octets)
    (h : TakenInFull _ taken) :
    u.after ⟨.sendto destAddr peerDiscoverySignal, taken⟩ = some (.waiting f) :=
  (hu.after_sendto hdest).trans (congrArg some (if_pos h))

lemma after_unsent (hu : u.Announces f) (hdest : destAddr.take 2 = f.octets)
    (h : ¬ TakenInFull _ taken) :
    u.after ⟨.sendto destAddr peerDiscoverySignal, taken⟩ = some .broken :=
  (hu.after_sendto hdest).trans (congrArg some (if_neg h))

end DatagramUse.Announces

/-- The waiting loop goes on with its socket in one of two states. -/
lemma Waiting.admitted {w : Waited} {t : List (Event netSig)} (h : Waiting destAddr w t)
    (hdest : destAddr.take 2 = f.octets) {u : DatagramUse} (hu : u.Announces f) :
    ∃ u', t.foldlM DatagramUse.after u = some u' ∧ w.Left f u' := by
  induction h generalizing u with
  | unfinished => exact ⟨u, rfl, trivial⟩
  | unsent taken hnot =>
    rw [List.foldlM_cons, hu.after_unsent hdest hnot]
    exact ⟨.broken, rfl, rfl⟩
  | unselected taken secs htaken | unreceived taken secs htaken =>
    rw [List.foldlM_cons, hu.after_sent hdest htaken]
    exact ⟨.broken, rfl, rfl⟩
  | timeout taken secs htaken _ ih =>
    rw [List.foldlM_cons, hu.after_sent hdest htaken]
    exact ih (.inl rfl)
  | refused taken secs bs htaken _ _ ih =>
    rw [List.foldlM_cons, hu.after_sent hdest htaken]
    exact ih (.inr rfl)
  | accepted taken secs bs stale htaken =>
    rw [List.foldlM_cons, hu.after_sent hdest htaken]
    exact ⟨.received f, rfl, rfl⟩

lemma admitted_getPeerOffer (n : ℕ) (msg storage : Memory UInt8) (length : ℕ)
    (hdest : destAddr.take 2 = f.octets) :
    (getPeerOffer n destAddr msg storage length).Admitted ok DatagramUse.after (.ready f)
      (DatagramUse.Left f) := by
  apply (ensures_getPeerOffer n msg).refines
  rintro r t ⟨w, hwaiting, rfl⟩
  obtain ⟨u, hu, hleft⟩ := hwaiting.admitted hdest (.inl rfl)
  refine ⟨u, ?_, ?_⟩
  · rw [List.flatMap_singleton']
    exact Machine.run_ofMonitor_iff.mpr hu
  · cases w with
    | unfinished => exact nofun
    | failed => exact fun _ => .inr hleft
    | offer len msg => exact fun _ => .inl hleft

lemma admitted_discoverIpv4 (n : ℕ) (msg storage : Memory UInt8) (length : ℕ) {u : DatagramUse}
    (hu : u = .created .inet ∨ u = .prepared .inet) :
    (discoverIpv4 n msg storage length).Admitted ok DatagramUse.after u
      (DatagramUse.Left .inet) := by
  apply Admitted.call
  intro bound _
  refine ⟨if bound then .bound .inet else .broken, ?_, ?_⟩
  · rcases hu with rfl | rfl <;> rfl
  cases bound with
  | false => exact .ret fun _ => .inr rfl
  | true =>
    apply Admitted.call
    intro looped _
    refine ⟨if looped then .ready .inet else .broken, rfl, ?_⟩
    cases looped with
    | false => exact .ret fun _ => .inr rfl
    | true => exact admitted_getPeerOffer n msg storage length rfl

lemma admitted_discoverIpv6 (n : ℕ) (iface : Option (List UInt8)) (msg storage : Memory UInt8)
    (length : ℕ) {u : DatagramUse} (hu : u = .created .inet6 ∨ u = .prepared .inet6) :
    (discoverIpv6 n iface msg storage length).Admitted ok DatagramUse.after u
      (DatagramUse.Left .inet6) := by
  have hoffer : ∀ scopeId,
      (getPeerOffer n (sockaddrIn6 wellKnownPort wellKnownMulticastAddress6 scopeId) msg storage
        length >>= storeScopeId scopeId).Admitted ok DatagramUse.after (.ready .inet6)
          (DatagramUse.Left .inet6) := by
    intro scopeId
    apply (admitted_getPeerOffer n msg storage length rfl).bind
    intro r u' hleft
    match r with
    | none => exact .ret hleft
    | some (false, found) => exact .ret hleft
    | some (true, found) => exact .ret fun _ => hleft rfl
  rw [discoverIpv6_eq]
  apply Admitted.call
  intro bound _
  refine ⟨if bound then .bound .inet6 else .broken, ?_, ?_⟩
  · rcases hu with rfl | rfl <;> rfl
  cases bound with
  | false => exact .ret fun _ => .inr rfl
  | true =>
    apply Admitted.call
    intro looped _
    refine ⟨if looped then .ready .inet6 else .broken, rfl, ?_⟩
    cases looped with
    | false => exact .ret fun _ => .inr rfl
    | true =>
      cases iface with
      | none => exact hoffer 0
      | some iface =>
        apply Admitted.call
        intro scopeId _
        exact ⟨.ready .inet6, rfl, hoffer scopeId⟩

lemma admitted_bindToInterface (iface : Option (List UInt8)) :
    (bindToInterface iface).Admitted ok DatagramUse.after (.created f) fun bound u =>
      if bound then u = .created f ∨ u = .prepared f else u = .broken := by
  cases iface with
  | none => exact .ret (.inl rfl)
  | some iface =>
    apply Admitted.call
    intro (uid : ℕ) _
    refine ⟨if uid = 0 then .privileged f else .prepared f, rfl, ?_⟩
    change (if uid ≠ 0 then pure true else Net.call (.bindToDevice iface)).Admitted ok _ _ _
    by_cases hroot : uid = 0
    · rw [if_pos hroot, if_neg (not_not.mpr hroot)]
      apply Admitted.call
      intro bound _
      refine ⟨if bound then .prepared f else .broken, rfl, .ret ?_⟩
      cases bound with
      | false => rfl
      | true => exact .inr rfl
    · rw [if_neg hroot, if_pos hroot]
      exact .ret (.inr rfl)

/-- A discovery opens a socket and closes it. -/
lemma admitted_discover (n : ℕ) (useIpv6 : Bool) (iface : Option (List UInt8))
    (msg storage : Memory UInt8) (length : ℕ) :
    (discover n useIpv6 iface msg storage length).Admitted ok DatagramUse.after .closed
      fun r u => r.isSome → u = .closed := by
  rw [discover_eq]
  apply Admitted.call
  intro created _
  refine ⟨if created then .created (if useIpv6 then .inet6 else .inet) else .closed, rfl, ?_⟩
  cases created with
  | false => exact .ret fun _ => rfl
  | true =>
    apply (admitted_bindToInterface iface).bind
    intro bound u hu
    have hfound : (discoverBound n useIpv6 iface msg storage length bound).Admitted ok
        DatagramUse.after u (DatagramUse.Left (if useIpv6 then .inet6 else .inet)) := by
      unfold discoverBound
      cases bound with
      | false => exact .ret fun _ => .inr hu
      | true =>
        cases useIpv6 with
        | true => exact admitted_discoverIpv6 n iface msg storage length hu
        | false => exact admitted_discoverIpv4 n msg storage length hu
    apply hfound.bind
    intro r u' hleft
    cases r with
    | none => exact .ret nofun
    | some r =>
      apply Admitted.call
      intro _ _
      refine ⟨.closed, ?_, .ret fun _ => rfl⟩
      rcases hleft rfl with rfl | rfl <;> rfl

end Discovery

end DlepRouter
