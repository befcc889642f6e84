import DlepRouter.Session.Progress

/-!
# Heartbeats keep their distance

A heartbeat goes out at the time that the clock showed when the session woke up. From one heartbeat
to the next, and from the time at which the session starts to watch the clock to the first of them,
more than the interval of the router passes, however often the session wakes up and whatever it
receives and sends in between.
-/

namespace DlepRouter

open Interaction Tlv Scan

/-! ### The times of heartbeats -/

/-- The times at which heartbeats are sent, where the clock was last read at `now`. -/
def heartbeatTimes : Timespec → List (Event sysSig) → List Timespec
  | _, [] => []
  | _, ⟨.clockGettime, now⟩ :: t => heartbeatTimes now t
  | now, ⟨.send msg, _⟩ :: t =>
    if msg = heartbeat then now :: heartbeatTimes now t else heartbeatTimes now t
  | now, _ :: t => heartbeatTimes now t

section HeartbeatTimes

variable {t t' : List (Event sysSig)}

lemma heartbeatTimes_append (now : Timespec) (t t' : List (Event sysSig)) :
    heartbeatTimes now (t ++ t') =
      heartbeatTimes now t ++ heartbeatTimes ((clockReadings t).getLastD now) t' := by
  induction t generalizing now with
  | nil => rfl
  | cons e t ih =>
    obtain ⟨c, r⟩ := e
    cases c with
    | clockGettime =>
      rw [clockReadings_cons_clockGettime, List.getLastD_cons]
      exact ih r
    | send msg =>
      simp only [List.cons_append, heartbeatTimes]
      split_ifs
      · exact congrArg (now :: ·) (ih now)
      · exact ih now
    | _ => exact ih now

/-- Between two readings of the clock, all heartbeats are sent at one time. -/
lemma heartbeatTimes_of_clockReadings_nil (h : clockReadings t = []) (now : Timespec) :
    heartbeatTimes now t = ((sends t).filter (· = heartbeat)).map fun _ => now := by
  induction t with
  | nil => rfl
  | cons e t ih =>
    obtain ⟨c, r⟩ := e
    cases c with
    | clockGettime => simp at h
    | send msg =>
      have ht : clockReadings t = [] := h
      simp only [heartbeatTimes, sends_cons_send, List.filter_cons, decide_eq_true_eq, ih ht]
      split_ifs <;> rfl
    | _ => exact ih h

lemma heartbeatTimes_of_not_mem (h : heartbeat ∉ sends t) (now : Timespec) :
    heartbeatTimes now t = [] := by
  induction t generalizing now with
  | nil => rfl
  | cons e t ih =>
    obtain ⟨c, r⟩ := e
    cases c with
    | clockGettime => exact ih h r
    | send msg =>
      rw [sends_cons_send, List.mem_cons, not_or] at h
      rw [heartbeatTimes, if_neg (Ne.symm h.1)]
      exact ih h.2 now
    | _ => exact ih h now

end HeartbeatTimes

/-- The first reading of the clock, and the times of the heartbeats. -/
def paceTimes (t : List (Event sysSig)) : List Timespec :=
  (clockReadings t).take 1 ++ heartbeatTimes ⟨0, 0⟩ t

/-- What comes before the first reading does not count if it is not a heartbeat. -/
lemma paceTimes_prepend {t : List (Event sysSig)} (hread : clockReadings t = [])
    (hquiet : heartbeat ∉ sends t) (t' : List (Event sysSig)) :
    paceTimes (t ++ t') = paceTimes t' := by
  rw [paceTimes, clockReadings_append, heartbeatTimes_append, hread,
    heartbeatTimes_of_not_mem hquiet]
  rfl

/-- Behind a reading, only heartbeats count. -/
lemma paceTimes_append {t : List (Event sysSig)} (h : clockReadings t ≠ [])
    (t' : List (Event sysSig)) :
    paceTimes (t ++ t') =
      paceTimes t ++ heartbeatTimes ((clockReadings t).getLastD ⟨0, 0⟩) t' := by
  have hone : 1 ≤ (clockReadings t).length := List.length_pos_iff.mpr h
  rw [paceTimes, clockReadings_append, List.take_append_of_le_length hone, heartbeatTimes_append,
    ← List.append_assoc]
  rfl

/-! ### The pace -/

/-- All times that the clock shows are in normal form. -/
def ClockNormal (t : List (Event sysSig)) : Prop := ∀ now ∈ clockReadings t, now.Normal

instance (t : List (Event sysSig)) : Decidable (ClockNormal t) :=
  inferInstanceAs (Decidable (∀ now ∈ clockReadings t, now.Normal))

lemma ClockNormal.of_append {t t' : List (Event sysSig)} (h : ClockNormal (t ++ t')) :
    ClockNormal t ∧ ClockNormal t' := by
  unfold ClockNormal at h
  simp only [clockReadings_append, List.mem_append] at h
  exact ⟨fun now hnow => h now (.inl hnow), fun now hnow => h now (.inr hnow)⟩

/-- More than `k` seconds pass from each of the times to the next. -/
def Spaced (k : ℕ) (times : List Timespec) : Prop :=
  times.IsChain fun now later => seconds k < elapsed now later

/-- The session has kept the pace, and its last heartbeat was at `last`, or it watches the clock
since then. -/
structure Paced (k : ℕ) (last : Timespec) (t : List (Event sysSig)) : Prop where
  mem : last ∈ clockReadings t
  latest : (paceTimes t).getLast? = some last
  spaced : Spaced k (paceTimes t)

namespace Paced

variable {k : ℕ} {last now : Timespec} {t t' : List (Event sysSig)}

lemma start : Paced k now [⟨.clockGettime, now⟩] where
  mem := List.mem_singleton_self now
  latest := rfl
  spaced := List.isChain_singleton now

/-- Anything but heartbeats may follow. -/
lemma quiet (h : Paced k last t) (hquiet : heartbeat ∉ sends t') : Paced k last (t ++ t') := by
  have htimes : paceTimes (t ++ t') = paceTimes t := by
    rw [paceTimes_append (List.ne_nil_of_mem h.mem), heartbeatTimes_of_not_mem hquiet,
      List.append_nil]
  refine ⟨?_, ?_, ?_⟩
  · rw [clockReadings_append]
    exact List.mem_append_left _ h.mem
  · rw [htimes]
    exact h.latest
  · rw [htimes]
    exact h.spaced

/-- A heartbeat may follow when the time has passed. -/
lemma beat (h : Paced k last t) (hmem : now ∈ clockReadings t')
    (htimes : ∀ before, heartbeatTimes before t' = [now]) (hdue : seconds k < elapsed last now) :
    Paced k now (t ++ t') := by
  have hsplit : paceTimes (t ++ t') = paceTimes t ++ [now] := by
    rw [paceTimes_append (List.ne_nil_of_mem h.mem), htimes]
  refine ⟨?_, ?_, ?_⟩
  · rw [clockReadings_append]
    exact List.mem_append_right _ hmem
  · rw [hsplit, List.getLast?_concat]
  · rw [hsplit, Spaced, List.isChain_append]
    refine ⟨h.spaced, List.isChain_singleton now, ?_⟩
    intro x hx y hy
    rw [h.latest, Option.mem_some_iff] at hx
    rw [List.head?_cons, Option.mem_some_iff] at hy
    subst hx hy
    exact hdue

/-- What comes before a session is no part of it. -/
lemma prepend (h : Paced k last t') (hread : clockReadings t = []) (hquiet : heartbeat ∉ sends t) :
    Paced k last (t ++ t') := by
  have htimes : paceTimes (t ++ t') = paceTimes t' := paceTimes_prepend hread hquiet t'
  refine ⟨?_, ?_, ?_⟩
  · rw [clockReadings_append, hread]
    exact h.mem
  · rw [htimes]
    exact h.latest
  · rw [htimes]
    exact h.spaced

end Paced

/-! ### In session -/

section Loops

variable {ok : Assumption sysSig}

/-- A heartbeat that is due is sent at once and noted, and no other. -/
lemma ensures_heartbeatIfDue_times (ri : UInt32) (nowTime : Timespec) (st : SessionState) :
    (heartbeatIfDue ri nowTime st).Ensures ok fun st' t =>
      if 0 < intervalCompare st.lastSentTime nowTime ri then
        heartbeatTimes nowTime t = [nowTime] ∧ st'.lastSentTime = nowTime
      else t = [] ∧ st'.lastSentTime = st.lastSentTime := by
  unfold heartbeatIfDue
  split_ifs
  · apply (ensures_sendHeartbeat.and (ensures_clockReadings_nil (onlyCalls_send _) id)).bind
    rintro _ t ⟨ht, hread⟩
    refine ⟨?_, rfl⟩
    rw [List.append_nil, heartbeatTimes_of_clockReadings_nil hread, ht]
    rfl
  · exact ⟨rfl, rfl⟩

/-- From a termination on there is no heartbeat. -/
lemma ensures_sendSessionTerm_quiet (n : ℕ) (sc : StatusCode) (b : Buffer) (mi : UInt32) :
    (sendSessionTerm n sc b mi).Ensures ok fun _ t => heartbeat ∉ sends t := by
  apply (ensures_sendSessionTerm n sc b mi).mono
  rintro _ t ⟨-, hsends | ⟨hsends, -⟩⟩
  · simp [hsends, heartbeat_ne_termination]
  · simp [hsends]

/-- When its heartbeat has been seen to, a round sends no other, and what it goes on with keeps the
time of the last one. -/
lemma SessionWoken.quiet {n : ℕ} {mi : UInt32} {ready : Selected} {nowTime : Timespec}
    {st : SessionState} {v : SessionState ⊕ Option ℤ} {t : List (Event sysSig)}
    (h : SessionWoken ok n mi ready nowTime st v t) :
    heartbeat ∉ sends t ∧ ∀ st', v = .inl st' → st'.lastSentTime = st.lastSentTime := by
  have hhandling : ∀ {b : Buffer} {len : ℕ} {r : Option ℤ} {t : List (Event sysSig)},
      (handleMessage n b len mi).Path ok r t → heartbeat ∉ sends t := by
    intro b len r t hpath hmem
    exact ((ensures_handleMessage_ne n b len mi).of_path hpath _ hmem).1 rfl
  cases h with
  | expired _ _ hterm =>
    exact ⟨(ensures_sendSessionTerm_quiet n .timedOut _ mi).of_path hterm, nofun⟩
  | idle =>
    refine ⟨List.not_mem_nil, ?_⟩
    rintro _ ⟨⟩
    rfl
  | unreceived _ hpath =>
    have hsends := (silent_recvMessage _).of_path hpath
    exact ⟨by simp [hsends], nofun⟩
  | left _ hpath _ hhandled =>
    have hsends := (silent_recvMessage _).of_path hpath
    exact ⟨by simpa [hsends] using hhandling hhandled, nofun⟩
  | handled _ hpath _ hhandled =>
    have hsends := (silent_recvMessage _).of_path hpath
    refine ⟨by simpa [hsends] using hhandling hhandled, ?_⟩
    rintro _ ⟨⟩
    rfl

/-- A round keeps the pace. -/
lemma ensures_sessionRound_paced (n : ℕ) (mi ri : UInt32) (st : SessionState)
    {t : List (Event sysSig)} (h : ClockNormal t → Paced ri.toNat st.lastSentTime t) :
    (sessionRound n mi ri st).Ensures ok fun r t' => ClockNormal (t ++ t') →
      ∃ last, Paced ri.toNat last (t ++ t') ∧ ∀ st', r = .inl st' → st'.lastSentTime = last := by
  apply (ensures_sessionRound_goes n mi ri st).mono
  intro r t' hround hnormal
  have hpaced := h hnormal.of_append.1
  cases hround with
  | unselected => exact ⟨st.lastSentTime, hpaced.quiet List.not_mem_nil, nofun⟩
  | @woken ready nowTime st' v t₁ t₂ hheartbeat hwoken =>
    obtain ⟨hquiet, hkept⟩ := hwoken.quiet
    have hbeat := (ensures_heartbeatIfDue_times ri nowTime _).of_path hheartbeat
    split_ifs at hbeat with hdue
    · obtain ⟨htimes, hsent⟩ := hbeat
      refine ⟨nowTime, hpaced.beat List.mem_cons_self ?_ ?_, ?_⟩
      · intro before
        have hrest := heartbeatTimes_append nowTime t₁ t₂
        rw [htimes, heartbeatTimes_of_not_mem hquiet] at hrest
        exact hrest
      · exact (intervalCompare_pos_iff (hnormal _ (by simp [hpaced.mem]))
          (hnormal _ (by simp)) ri).mp hdue
      · intro st' hst'
        rw [hkept st' hst', hsent]
    · obtain ⟨rfl, hsent⟩ := hbeat
      refine ⟨st.lastSentTime, hpaced.quiet hquiet, ?_⟩
      intro st' hst'
      rw [hkept st' hst', hsent]

/-- In session, the pace is kept from the first reading of the clock on. -/
lemma ensures_inSession_paced (n : ℕ) (b : Buffer) (mi ri : UInt32) :
    (inSession n b mi ri).Ensures ok fun _ t =>
      ClockNormal t → ∃ last, Paced ri.toNat last t := by
  apply ensures_call_bind
  intro nowTime _
  refine Program.ensures_forever
    (I := fun (st : SessionState) t => ClockNormal t → Paced ri.toNat st.lastSentTime t)
    (Q := fun _ t => ClockNormal t → ∃ last, Paced ri.toNat last t) ?_ ?_ n _
    [⟨.clockGettime, nowTime⟩] fun _ => .start
  · intro st t h hnormal
    exact ⟨st.lastSentTime, h hnormal⟩
  · intro st t h
    apply (ensures_sessionRound_paced n mi ri st h).mono
    intro r t' hround
    cases r with
    | inl st' =>
      intro hnormal
      obtain ⟨last, hpaced, hlast⟩ := hround hnormal
      rwa [hlast st' rfl]
    | inr v =>
      intro hnormal
      obtain ⟨last, hpaced, -⟩ := hround hnormal
      exact ⟨last, hpaced⟩

/-! ### The whole session -/

/-- There is no heartbeat, or the pace is kept. -/
def Paces (k : ℕ) (t : List (Event sysSig)) : Prop :=
  heartbeat ∉ sends t ∨ (ClockNormal t → ∃ last, Paced k last t)

lemma Paces.spaced {k : ℕ} {t : List (Event sysSig)} (h : Paces k t) (hnormal : ClockNormal t) :
    Spaced k (paceTimes t) := by
  rcases h with hquiet | hpaced
  · rw [paceTimes, heartbeatTimes_of_not_mem hquiet, List.append_nil]
    cases clockReadings t with
    | nil => exact .nil
    | cons now _ => exact List.isChain_singleton now
  · obtain ⟨last, hpaced⟩ := hpaced hnormal
    exact hpaced.spaced

lemma Paces.append {k : ℕ} {t t' : List (Event sysSig)} (h : Paces k t)
    (hquiet : heartbeat ∉ sends t') : Paces k (t ++ t') := by
  rcases h with h | hpaced
  · left
    simp [h, hquiet]
  · right
    intro hnormal
    obtain ⟨last, hpaced⟩ := hpaced hnormal.of_append.1
    exact ⟨last, hpaced.quiet hquiet⟩

lemma Paces.prepend {k : ℕ} {t t' : List (Event sysSig)} (h : Paces k t')
    (hread : clockReadings t = []) (hquiet : heartbeat ∉ sends t) : Paces k (t ++ t') := by
  rcases h with h | hpaced
  · left
    simp [h, hquiet]
  · right
    intro hnormal
    obtain ⟨last, hpaced⟩ := hpaced hnormal.of_append.2
    exact ⟨last, hpaced.prepend hread hquiet⟩

lemma ensures_runSession_paces (n : ℕ) (b : Buffer) (sc : StatusCode) (resp : InitResp)
    (ri : UInt32) : (runSession n b sc resp ri).Ensures ok fun _ t => Paces ri.toNat t := by
  unfold runSession
  split_ifs
  · apply (ensures_sendSessionTerm_quiet n sc b _).bind
    intro _ t hquiet
    exact .inl (by simpa using hquiet)
  · exact (ensures_sendSessionTerm_quiet n .shutdown b _).mono fun _ _ => .inl
  · exact (ensures_inSession_paced n b _ ri).mono fun _ _ => .inr

/-- The calls that neither wait nor read the clock. -/
def SysCall.Calm : SysCall → Prop
  | select _ | clockGettime => False
  | _ => True

lemma SysCall.Sends.calm {c : SysCall} (h : c.Sends) : c.Calm := by
  cases c with
  | send msg => trivial
  | _ => exact h.elim

lemma SysCall.Receives.calm {c : SysCall} (h : c.Receives) : c.Calm := by
  cases c with
  | realloc n | recv n => trivial
  | _ => exact h.elim

/-- The opening of a session makes no others. -/
lemma onlyCalls_openSession (modemAddress : List UInt8) (ri : UInt32) :
    (openSession modemAddress ri).OnlyCalls ok SysCall.Calm := by
  refine .bind (.perform trivial) fun created => ?_
  cases created with
  | false => exact .ret _
  | true =>
    refine .bind (.perform trivial) fun connected => ?_
    cases connected with
    | false => exact .ret _
    | true =>
      refine .bind ((onlyCalls_send _).weaken fun _ h => h.calm) fun sent => ?_
      cases sent with
      | false => exact .ret _
      | true =>
        refine .bind ((onlyCalls_recvMessage _).weaken fun _ h => h.calm) fun r => ?_
        obtain ⟨received, b⟩ := r
        cases received with
        | none => exact .ret _
        | some len =>
          cases len with
          | zero => exact .ret _
          | succ len =>
            refine .bind ((onlyCalls_scan _ _).weaken fun _ h => h.calm) fun sc => ?_
            split_ifs
            · exact .bind ((onlyCalls_scan _ _).weaken fun _ h => h.calm) fun _ => .ret _
            · exact .ret _

/-- Until the response to the initialization has been looked at, the clock is not read and no
heartbeat is sent. -/
lemma ensures_openSession_quiet (modemAddress : List UInt8) (ri : UInt32) :
    (openSession modemAddress ri).Ensures ok fun _ t =>
      clockReadings t = [] ∧ heartbeat ∉ sends t := by
  apply (ensures_clockReadings_nil (onlyCalls_openSession modemAddress ri) id).and
  apply (ensures_openSession modemAddress ri).mono
  intro o t hleaves
  have hne : heartbeat ≠ sessionInitMessage peerType ri := by
    intro h
    have htype := congrArg (fun l : List UInt8 => l.getD 1 0) h
    cases htype
  cases o with
  | noSocket | unconnected =>
    rw [Opening.Leaves] at hleaves
    simp [hleaves]
  | unanswered | rejected =>
    rw [Opening.Leaves] at hleaves
    simp [hleaves, hne]
  | accepted => simp [hleaves.1, hne]

lemma ensures_session_paces (n : ℕ) (modemAddress : List UInt8) (ri : UInt32) :
    (session n modemAddress ri).Ensures ok fun _ t => Paces ri.toNat t := by
  have hclose : ∀ (ret : Option ℤ) (t : List (Event sysSig)), Paces ri.toNat t →
      (closeSession ret).Ensures ok fun _ t' => Paces ri.toNat (t ++ t') := by
    intro ret t hpaces
    apply (silent_closeSession ret).mono
    intro _ t' hsilent
    exact hpaces.append (by simp [hsilent])
  apply (ensures_openSession_quiet modemAddress ri).bind
  rintro o t ⟨hread, hquiet⟩
  cases o with
  | noSocket => exact .inl (by simpa using hquiet)
  | unconnected | unanswered | rejected => exact hclose _ t (.inl hquiet)
  | accepted b sc resp =>
    apply (ensures_runSession_paces n b sc resp ri).bind
    intro ret t' hpaces
    simpa only [List.append_assoc] using hclose ret (t ++ t') (hpaces.prepend hread hquiet)

end Loops

/-- From the time at which a session starts to watch the clock to its first heartbeat, and from each
heartbeat to the next, more than the interval passes, taken for seconds. -/
theorem session_keepsPace {S : Type} (H : Handler sysSig S) (s : S) (n : ℕ)
    (modemAddress : List UInt8) (routerHeartbeatInterval : UInt32)
    (hnormal : ClockNormal ((session n modemAddress routerHeartbeatInterval).run H s).trace) :
    Spaced routerHeartbeatInterval.toNat
      (paceTimes ((session n modemAddress routerHeartbeatInterval).run H s).trace) :=
  ((ensures_session_paces n modemAddress routerHeartbeatInterval).run_any H s).spaced hnormal

/-- The modem is heard at four wake-ups, the last one after 2.2 seconds. -/
def steadyModem : Script where
  readable := [true, true, true, true]
  clock := [⟨0, 0⟩, ⟨0, 600000000⟩, ⟨1, 100000000⟩, ⟨1, 600000000⟩, ⟨2, 200000000⟩]
  received := minimalResponse ++ [heartbeat, heartbeat, heartbeat, heartbeat]
  taken := []

set_option maxRecDepth 10000 in
/-- Two of them bring a heartbeat. -/
theorem session_keepsPace_steadyModem :
    paceTimes ((session 4 [] 1).run scripted steadyModem).trace =
        [⟨0, 0⟩, ⟨1, 100000000⟩, ⟨2, 200000000⟩] ∧
      Spaced 1 (paceTimes ((session 4 [] 1).run scripted steadyModem).trace) :=
  ⟨by decide +kernel, session_keepsPace scripted steadyModem 4 [] 1 (by decide +kernel)⟩

end DlepRouter
