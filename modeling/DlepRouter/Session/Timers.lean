import DlepRouter.Interaction.Rounds
import DlepRouter.Interval
import DlepRouter.Session.Protocol

/-!
# Heartbeat timers

`in_session` and `term_session` compare the time since the last message with the heartbeat interval
of the modem at each wake-up, and `in_session` the time since its last heartbeat with its own. The
intervals are numbers of milliseconds on the wire; `interval_compare` takes them for seconds, and
the multiples of an interval are computed in 32 bits.
-/

namespace DlepRouter

open Interaction

/-! ### Clocks -/

/-- The clock readings in a list of events. -/
def clockReadings (t : List (Event sysSig)) : List Timespec :=
  t.filterMap fun e => match e with
    | ⟨.clockGettime, now⟩ => some now
    | _ => none

@[simp] lemma clockReadings_nil : clockReadings [] = [] := rfl

@[simp] lemma clockReadings_cons_clockGettime (now : Timespec) (t : List (Event sysSig)) :
    clockReadings (⟨.clockGettime, now⟩ :: t) = now :: clockReadings t := rfl

/-- The other calls do not read the clock. -/
@[simp] lemma clockReadings_cons_of_ne {c : SysCall} (h : c ≠ .clockGettime) (r : c.Answer)
    (t : List (Event sysSig)) : clockReadings (⟨c, r⟩ :: t) = clockReadings t := by
  cases c with
  | clockGettime => exact absurd rfl h
  | _ => rfl

lemma mem_clockReadings {t : List (Event sysSig)} {now : Timespec} :
    now ∈ clockReadings t ↔ (⟨.clockGettime, now⟩ : Event sysSig) ∈ t := by
  induction t with
  | nil => simp
  | cons e t ih =>
    obtain ⟨c, r⟩ := e
    cases c with
    | clockGettime => simp [ih]
    | _ => simp [ih]

/-- A clock that never goes back. -/
structure ClockRuns (t : List (Event sysSig)) : Prop where
  normal : ∀ now ∈ clockReadings t, now.Normal
  nonDecreasing : (clockReadings t).Pairwise fun now later => now.nanos ≤ later.nanos

/-! ### Wake-ups -/

section Wakes

variable {α S : Type}

/-- A round in which `select` returned: the state before it, whether the socket is readable, the
clock reading, what happens then, and how the round ends. -/
structure Wake (α : Type) where
  state : α
  ready : Selected
  now : Timespec
  rest : List (Event sysSig)
  next : α ⊕ Option ℤ

/-- The events of the round, which starts with a wait for at most `timeout`. -/
def Wake.trace (w : Wake α) (timeout : Timeval) : List (Event sysSig) :=
  ⟨.select timeout, some w.ready⟩ :: ⟨.clockGettime, w.now⟩ :: w.rest

/-- The wake-ups in the rounds of a loop. -/
def WakesIn (H : Handler sysSig S) (body : α → Sys (α ⊕ Option ℤ)) (timeout : α → Timeval)
    (rounds : List (α × S)) (w : Wake α) : Prop :=
  ∃ s, (w.state, s) ∈ rounds ∧ ((body w.state).run H s).trace = w.trace (timeout w.state) ∧
    ((body w.state).run H s).value = w.next

/-- The state in which `in_session` starts its loop. -/
def SessionState.start (b : Buffer) (mi ri : UInt32) (nowTime : Timespec) : SessionState where
  lastRecvTime := nowTime
  lastSentTime := nowTime
  timeout :=
    ⟨(if mi < ri then mi else ri).toNat / 1000, (if mi < ri then mi else ri).toNat % 1000 * 1000⟩
  buffer := b

/-- The state in which `term_session` starts its loop. -/
def TermState.start (b : Buffer) (mi : UInt32) (nowTime : Timespec) : TermState where
  lastRecvTime := nowTime
  timeout := ⟨(mi / 1000).toNat, ((mi % 1000) * 1000).toNat⟩
  buffer := b

variable (H : Handler sysSig S) (s : S) (n : ℕ) (b : Buffer) (mi ri : UInt32)

/-- The rounds of a run of `in_session`. -/
def inSessionRounds : List (SessionState × S) :=
  Program.rounds H (sessionRound n mi ri) n
    (.start b mi ri (H.answer s .clockGettime).1) (H.answer s .clockGettime).2

/-- The rounds of a run of `term_session`. -/
def termSessionRounds : List (TermState × S) :=
  Program.rounds H (termRound mi) n
    (.start b mi (H.answer s .clockGettime).1) (H.answer s .clockGettime).2

/-- The wake-ups of a run of `in_session`. -/
def InSessionWake (w : Wake SessionState) : Prop :=
  WakesIn H (sessionRound n mi ri) SessionState.timeout (inSessionRounds H s n b mi ri) w

/-- The wake-ups of a run of `term_session`. -/
def TermSessionWake (w : Wake TermState) : Prop :=
  WakesIn H (termRound mi) TermState.timeout (termSessionRounds H s n b mi) w

/-- A run of `in_session` is a clock reading and its rounds. -/
lemma trace_inSession :
    ((inSession n b mi ri).run H s).trace =
      ⟨.clockGettime, (H.answer s .clockGettime).1⟩ ::
        (inSessionRounds H s n b mi ri).flatMap fun r =>
          ((sessionRound n mi ri r.1).run H r.2).trace :=
  congrArg (_ :: ·) (Program.trace_forever H (sessionRound n mi ri) _ n _ _)

/-- A run of `term_session` is a clock reading and its rounds. -/
lemma trace_termSession :
    ((termSession n b mi).run H s).trace =
      ⟨.clockGettime, (H.answer s .clockGettime).1⟩ ::
        (termSessionRounds H s n b mi).flatMap fun r => ((termRound mi r.1).run H r.2).trace :=
  congrArg (_ :: ·) (Program.trace_forever H (termRound mi) _ n _ _)

end Wakes

/-! ### What a wake-up leads to -/

section Rounds

variable {ok : Assumption sysSig}

/-- The session is left with a Session Termination that says so, unless no memory is left for it. -/
def Wake.TimesOut {α : Type} (w : Wake α) : Prop :=
  (∃ r, w.next = .inr r) ∧
    (termination StatusCode.timedOut.code ∈ sends w.rest ∨ AllocationFailed w.rest)

/-- Closing messages are no heartbeats, and only a timeout sends the status Timed Out. -/
lemma closingMessage_ne (type : ℕ) :
    closingMessage type ≠ heartbeat ∧
      closingMessage type ≠ termination StatusCode.timedOut.code := by
  unfold closingMessage
  split_ifs <;> decide

lemma IsDestinationResp.ne {msg : List UInt8} (h : IsDestinationResp msg) :
    msg ≠ heartbeat ∧ msg ≠ termination StatusCode.timedOut.code := by
  have hlength := h.length
  refine ⟨?_, ?_⟩ <;>
  · rintro rfl
    cases hlength

/-- The heartbeat that is sent at a wake-up, if there is one. -/
def dueHeartbeat (ri : UInt32) (nowTime : Timespec) (st : SessionState) : List (List UInt8) :=
  if 0 < intervalCompare st.lastSentTime nowTime ri then [heartbeat] else []

lemma mem_dueHeartbeat {ri : UInt32} {nowTime : Timespec} {st : SessionState}
    {msg : List UInt8} : msg ∈ dueHeartbeat ri nowTime st ↔
      msg = heartbeat ∧ 0 < intervalCompare st.lastSentTime nowTime ri := by
  unfold dueHeartbeat
  split_ifs with hdue <;> simp [hdue]

lemma ensures_heartbeatIfDue_sends (ri : UInt32) (nowTime : Timespec) (st : SessionState) :
    (heartbeatIfDue ri nowTime st).Ensures ok fun st' t =>
      sends t = dueHeartbeat ri nowTime st ∧ st'.lastRecvTime = st.lastRecvTime ∧
        (st'.lastSentTime = st.lastSentTime ∨ st'.lastSentTime = nowTime) := by
  unfold heartbeatIfDue dueHeartbeat
  split_ifs with hdue
  · apply ensures_sendHeartbeat.bind
    intro _ t ht
    exact ⟨by simpa using ht, rfl, .inr rfl⟩
  · exact ⟨rfl, rfl, .inl rfl⟩

/-- Handling a message neither sends a heartbeat nor reports a timeout. -/
lemma ensures_handleMessage_ne (n : ℕ) (b : Buffer) (len : ℕ) (mi : UInt32) :
    (handleMessage n b len mi).Ensures ok fun _ t => ∀ msg ∈ sends t,
      msg ≠ heartbeat ∧ msg ≠ termination StatusCode.timedOut.code := by
  apply (ensures_handleMessage n b len mi).mono
  intro r t h msg hmsg
  rcases h with ⟨hc, -, hsends⟩ | ⟨-, -, hcloses | ⟨hnone, -⟩⟩
  · exact (hc.isDestinationResp msg (hsends ▸ hmsg)).ne
  · rw [hcloses, List.mem_singleton] at hmsg
    subst hmsg
    exact closingMessage_ne _
  · rw [hnone] at hmsg
    cases hmsg

/-- What `in_session` does after waking up: it handles a message, gives up on the modem or waits on.
In each case the heartbeat comes first. -/
inductive SessionWake (mi ri : UInt32) (w : Wake SessionState) : Prop where
  | handled (others : List (List UInt8)) :
    w.ready.readable = true →
    sends w.rest = dueHeartbeat ri w.now w.state ++ others →
    (∀ msg ∈ others, msg ≠ heartbeat ∧ msg ≠ termination StatusCode.timedOut.code) →
    (∀ st, w.next = .inl st → st.lastRecvTime = w.now ∧
      (st.lastSentTime = w.state.lastSentTime ∨ st.lastSentTime = w.now)) →
    SessionWake mi ri w
  | gaveUp (others : List (List UInt8)) :
    w.ready.readable = false →
    0 < intervalCompare w.state.lastRecvTime w.now (mi * 2) →
    sends w.rest = dueHeartbeat ri w.now w.state ++ others →
    (others = [termination StatusCode.timedOut.code] ∨ others = [] ∧ AllocationFailed w.rest) →
    (∃ r, w.next = .inr r) →
    SessionWake mi ri w
  | waits (st : SessionState) :
    w.ready.readable = false →
    ¬ 0 < intervalCompare w.state.lastRecvTime w.now (mi * 2) →
    sends w.rest = dueHeartbeat ri w.now w.state →
    w.next = .inl st → st.lastRecvTime = w.state.lastRecvTime →
    (st.lastSentTime = w.state.lastSentTime ∨ st.lastSentTime = w.now) →
    SessionWake mi ri w

/-- A round of `in_session` is a wait that fails or a wake-up. -/
lemma ensures_sessionRound_wake (n : ℕ) (mi ri : UInt32) (st : SessionState) :
    (sessionRound n mi ri st).Ensures ok fun v t =>
      t = [⟨.select st.timeout, none⟩] ∧ v = .inr (some (-1)) ∨
      ∃ w, w.state = st ∧ w.next = v ∧ t = w.trace st.timeout ∧ SessionWake mi ri w := by
  apply (ensures_sessionRound_goes n mi ri st).mono
  intro v t h
  cases h with
  | unselected => exact .inl ⟨rfl, rfl⟩
  | @woken ready nowTime _ v t t' hheartbeat hwoken =>
    refine .inr ⟨⟨st, ready, nowTime, _, v⟩, rfl, rfl, rfl, ?_⟩
    obtain ⟨ht, hrecv, hsent⟩ := (ensures_heartbeatIfDue_sends ri nowTime _).of_path hheartbeat
    cases hwoken with
    | @expired r _ hidle hdue hterm =>
      rw [hrecv] at hdue
      have h := ((ensures_sendSessionTerm n .timedOut _ mi).of_path hterm).2
      refine .gaveUp (sends t') hidle hdue (by simp [ht, dueHeartbeat]) ?_ ⟨r, rfl⟩
      rcases h with hsend | ⟨hnone, hfailed⟩
      · exact .inl hsend
      · exact .inr ⟨hnone, hfailed.append⟩
    | idle hidle hdue =>
      rw [hrecv] at hdue
      exact .waits _ hidle hdue (by simp [ht, dueHeartbeat]) rfl hrecv hsent
    | unreceived hready hpath =>
      have ht' := (silent_recvMessage _).of_path hpath
      exact .handled [] hready (by simp [ht, ht', dueHeartbeat]) nofun nofun
    | @left _ _ _ _ t₂ hready hpath _ hhandled =>
      have ht' := (silent_recvMessage _).of_path hpath
      have hothers := (ensures_handleMessage_ne n _ _ mi).of_path hhandled
      exact .handled (sends t₂) hready (by simp [ht, ht', dueHeartbeat]) hothers nofun
    | @handled _ _ _ t₂ hready hpath _ hhandled =>
      have ht' := (silent_recvMessage _).of_path hpath
      have hothers := (ensures_handleMessage_ne n _ _ mi).of_path hhandled
      refine .handled (sends t₂) hready (by simp [ht, ht', dueHeartbeat]) hothers ?_
      rintro _ ⟨⟩
      exact ⟨rfl, hsent⟩

namespace SessionWake

variable {mi ri : UInt32} {w : Wake SessionState}

/-- A heartbeat is sent exactly if its timer has expired. -/
lemma heartbeat_mem_iff (h : SessionWake mi ri w) :
    heartbeat ∈ sends w.rest ↔ 0 < intervalCompare w.state.lastSentTime w.now ri := by
  cases h with
  | handled others _ hsends hothers =>
    have hnot : heartbeat ∉ others := fun hmem => absurd rfl (hothers _ hmem).1
    simp [hsends, mem_dueHeartbeat, hnot]
  | gaveUp others _ _ hsends hothers =>
    have hnot : heartbeat ∉ others := by
      rcases hothers with rfl | ⟨rfl, -⟩
      · simp [heartbeat_ne_termination]
      · simp
    simp [hsends, mem_dueHeartbeat, hnot]
  | waits st _ _ hsends => simp [hsends, mem_dueHeartbeat]

/-- A session without a message is left exactly if the timer of the modem has expired. -/
lemma timesOut_iff (h : SessionWake mi ri w) (hidle : w.ready.readable = false) :
    w.TimesOut ↔ 0 < intervalCompare w.state.lastRecvTime w.now (mi * 2) := by
  cases h with
  | handled _ hready => simp [hready] at hidle
  | gaveUp others _ hdue hsends hothers hleft =>
    refine iff_of_true ⟨hleft, ?_⟩ hdue
    rcases hothers with rfl | ⟨-, hfailed⟩
    · simp [hsends]
    · exact .inr hfailed
  | waits st _ hdue _ hnext =>
    refine iff_of_false ?_ hdue
    rintro ⟨⟨r, hr⟩, -⟩
    rw [hnext] at hr
    cases hr

/-- Only an expired timer makes `in_session` send a termination with the status Timed Out. -/
lemma expired_of_termination_mem (h : SessionWake mi ri w)
    (hmem : termination StatusCode.timedOut.code ∈ sends w.rest) :
    0 < intervalCompare w.state.lastRecvTime w.now (mi * 2) := by
  have hnot : termination StatusCode.timedOut.code ∉ dueHeartbeat ri w.now w.state := by
    intro hdue
    exact heartbeat_ne_termination _ (mem_dueHeartbeat.mp hdue).1.symm
  cases h with
  | handled others _ hsends hothers =>
    rw [hsends, List.mem_append] at hmem
    rcases hmem with hmem | hmem
    · exact absurd hmem hnot
    · exact absurd rfl (hothers _ hmem).2
  | gaveUp _ _ hdue => exact hdue
  | waits st _ _ hsends => exact absurd (hsends ▸ hmem) hnot

/-- The times kept are old ones or that of the wake-up. -/
lemma times (h : SessionWake mi ri w) {st : SessionState} (hnext : w.next = .inl st) :
    (st.lastRecvTime = w.state.lastRecvTime ∨ st.lastRecvTime = w.now) ∧
      (st.lastSentTime = w.state.lastSentTime ∨ st.lastSentTime = w.now) := by
  cases h with
  | handled _ _ _ _ htimes => exact ⟨.inr (htimes st hnext).1, (htimes st hnext).2⟩
  | gaveUp _ _ _ _ _ hleft =>
    obtain ⟨r, hr⟩ := hleft
    rw [hr] at hnext
    cases hnext
  | waits st' _ _ _ hst hrecv hsent =>
    rw [hst] at hnext
    cases hnext
    exact ⟨.inl hrecv, hsent⟩

end SessionWake

/-- What `term_session` does after waking up, in terms of its timer. -/
structure TermWake (mi : UInt32) (w : Wake TermState) : Prop where
  leaves_iff : w.ready.readable = false →
    ((∃ r, w.next = .inr r) ↔ 0 < intervalCompare w.state.lastRecvTime w.now (mi * 4))
  times : ∀ st, w.next = .inl st → st.lastRecvTime = w.state.lastRecvTime

/-- A round of `term_session` is a wait that fails or a wake-up. -/
lemma ensures_termRound_wake (mi : UInt32) (st : TermState) :
    (termRound mi st).Ensures ok fun v t =>
      t = [⟨.select st.timeout, none⟩] ∧ v = .inr (some (-1)) ∨
      ∃ w, w.state = st ∧ w.next = v ∧ t = w.trace st.timeout ∧ TermWake mi w := by
  apply (ensures_termRound_goes mi st).mono
  intro v t h
  cases h with
  | unselected => exact .inl ⟨rfl, rfl⟩
  | woken ready nowTime hwoken =>
    refine .inr ⟨⟨st, ready, nowTime, _, v⟩, rfl, rfl, rfl, ?_⟩
    cases hwoken with
    | expired hidle hdue => exact ⟨fun _ => iff_of_true ⟨_, rfl⟩ hdue, nofun⟩
    | idle hidle hdue =>
      refine ⟨fun _ => iff_of_false ?_ hdue, ?_⟩
      · rintro ⟨r, ⟨⟩⟩
      · rintro _ ⟨⟩
        rfl
    | unreceived hready | received hready =>
      have hidle : ready.readable ≠ false := by simp [hready]
      exact ⟨fun h => absurd h hidle, nofun⟩

end Rounds

/-! ### The times of a run -/

section Times

variable {S : Type} {H : Handler sysSig S} {s : S} {n : ℕ} {b : Buffer} {mi ri : UInt32}

/-- A wake-up is known by its events. -/
lemma Wake.ext_of_trace {α : Type} {w w' : Wake α} {timeout timeout' : Timeval}
    (hstate : w.state = w'.state) (hnext : w.next = w'.next)
    (htrace : w.trace timeout = w'.trace timeout') : w = w' := by
  obtain ⟨state, ready, now, rest, next⟩ := w
  obtain ⟨state', ready', now', rest', next'⟩ := w'
  simp only [trace, List.cons.injEq, Event.mk.injEq] at htrace hstate hnext
  obtain ⟨⟨-, hready⟩, ⟨-, hnow⟩, hrest⟩ := htrace
  cases hready
  cases hnow
  cases hrest
  cases hstate
  cases hnext
  rfl

lemma Wake.trace_ne {α : Type} (w : Wake α) (timeout : Timeval) (e : Event sysSig) :
    w.trace timeout ≠ [e] := nofun

lemma Wake.now_mem_clockReadings {α : Type} (w : Wake α) (timeout : Timeval) :
    w.now ∈ clockReadings (w.trace timeout) :=
  mem_clockReadings.mpr (List.mem_cons_of_mem _ List.mem_cons_self)

/-- What every round that wakes up is like holds of the wake-ups of a run. -/
lemma WakesIn.of_ensures {α : Type} {body : α → Sys (α ⊕ Option ℤ)} {timeout : α → Timeval}
    {rounds : List (α × S)} {P : Wake α → Prop} {w : Wake α} (h : WakesIn H body timeout rounds w)
    (hbody : (body w.state).Ensures (fun _ _ => True) fun v t =>
      t = [⟨.select (timeout w.state), none⟩] ∧ v = .inr (some (-1)) ∨
      ∃ w', w'.state = w.state ∧ w'.next = v ∧ t = w'.trace (timeout w.state) ∧ P w') : P w := by
  obtain ⟨s', -, htrace, hvalue⟩ := h
  rcases hbody.run_any H s' with ⟨hfail, -⟩ | ⟨w', hstate, hnext, hwake, hspec⟩
  · exact absurd (htrace ▸ hfail) (w.trace_ne _ _)
  · have heq : w' = w := Wake.ext_of_trace hstate (hnext.trans hvalue) (hwake ▸ htrace)
    exact heq ▸ hspec

lemma InSessionWake.sessionWake {w : Wake SessionState} (h : InSessionWake H s n b mi ri w) :
    SessionWake mi ri w :=
  WakesIn.of_ensures h (ensures_sessionRound_wake n mi ri w.state)

lemma TermSessionWake.termWake {w : Wake TermState} (h : TermSessionWake H s n b mi w) :
    TermWake mi w :=
  WakesIn.of_ensures h (ensures_termRound_wake mi w.state)

/-- The events of a round are events of the run. -/
lemma clockReadings_round {α : Type} {rounds : List α} {r : α} {x now : Timespec}
    {t : List (Event sysSig)} {events : α → List (Event sysSig)}
    (ht : t = ⟨.clockGettime, now⟩ :: rounds.flatMap events) (hr : r ∈ rounds)
    (hx : x ∈ clockReadings (events r)) : x ∈ clockReadings t := by
  rw [mem_clockReadings] at hx ⊢
  rw [ht]
  exact List.mem_cons_of_mem _ (List.mem_flatMap.mpr ⟨r, hr, hx⟩)

/-- The times that `in_session` keeps are readings of the clock. -/
lemma times_mem_inSession :
    ∀ r ∈ inSessionRounds H s n b mi ri,
      r.1.lastRecvTime ∈ clockReadings ((inSession n b mi ri).run H s).trace ∧
        r.1.lastSentTime ∈ clockReadings ((inSession n b mi ri).run H s).trace := by
  have hstart : (H.answer s .clockGettime).1 ∈
      clockReadings ((inSession n b mi ri).run H s).trace := by
    rw [trace_inSession]
    exact mem_clockReadings.mpr List.mem_cons_self
  apply Program.forall_mem_rounds (I := fun st : SessionState =>
    st.lastRecvTime ∈ clockReadings ((inSession n b mi ri).run H s).trace ∧
      st.lastSentTime ∈ clockReadings ((inSession n b mi ri).run H s).trace)
  · exact ⟨hstart, hstart⟩
  · intro r hr hI st hst
    rcases (ensures_sessionRound_wake n mi ri r.1).run_any H r.2 with
      ⟨-, hleft⟩ | ⟨w, hstate, hnext, htrace, hspec⟩
    · rw [hleft] at hst
      cases hst
    · have hnow := clockReadings_round (trace_inSession ..) hr
        (htrace ▸ w.now_mem_clockReadings _)
      obtain ⟨hrecv, hsent⟩ := hspec.times (hnext.trans hst)
      rw [hstate] at hrecv hsent
      constructor
      · rcases hrecv with h | h
        · exact h ▸ hI.1
        · exact h ▸ hnow
      · rcases hsent with h | h
        · exact h ▸ hI.2
        · exact h ▸ hnow

/-- The time that `term_session` keeps is a reading of the clock. -/
lemma times_mem_termSession :
    ∀ r ∈ termSessionRounds H s n b mi,
      r.1.lastRecvTime ∈ clockReadings ((termSession n b mi).run H s).trace := by
  apply Program.forall_mem_rounds (I := fun st : TermState =>
    st.lastRecvTime ∈ clockReadings ((termSession n b mi).run H s).trace)
  · rw [trace_termSession]
    exact mem_clockReadings.mpr List.mem_cons_self
  · intro r _ hI st hst
    rcases (ensures_termRound_wake mi r.1).run_any H r.2 with
      ⟨-, hleft⟩ | ⟨w, hstate, hnext, -, hspec⟩
    · rw [hleft] at hst
      cases hst
    · rw [hspec.times st (hnext.trans hst), hstate]
      exact hI

/-- At a wake-up of `in_session`, all times are in normal form. -/
lemma InSessionWake.normal {w : Wake SessionState} (h : InSessionWake H s n b mi ri w)
    (hclock : ClockRuns ((inSession n b mi ri).run H s).trace) :
    w.state.lastRecvTime.Normal ∧ w.state.lastSentTime.Normal ∧ w.now.Normal := by
  obtain ⟨s', hmem, htrace, -⟩ := h
  have htimes := times_mem_inSession _ hmem
  have hnow := clockReadings_round (trace_inSession ..) hmem
    (htrace ▸ w.now_mem_clockReadings _)
  exact ⟨hclock.normal _ htimes.1, hclock.normal _ htimes.2, hclock.normal _ hnow⟩

/-- At a wake-up of `term_session`, both times are in normal form. -/
lemma TermSessionWake.normal {w : Wake TermState} (h : TermSessionWake H s n b mi w)
    (hclock : ClockRuns ((termSession n b mi).run H s).trace) :
    w.state.lastRecvTime.Normal ∧ w.now.Normal := by
  obtain ⟨s', hmem, htrace, -⟩ := h
  have hnow := clockReadings_round (trace_termSession ..) hmem
    (htrace ▸ w.now_mem_clockReadings _)
  exact ⟨hclock.normal _ (times_mem_termSession _ hmem), hclock.normal _ hnow⟩

end Times

end DlepRouter
