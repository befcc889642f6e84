import DlepRouter.Session.Dialogue
import DlepRouter.Session.Framing
import DlepRouter.Session.Timers

/-!
# Sessions come to an end

A session may go on for ever, but not with a modem that has fallen silent. At every wake-up the
clock has advanced since it was last read, and at most so many wake-ups without a message fall into
the time after which the modem is given up on. So the rounds of a session are bounded by the number
of its messages, and with enough rounds it returns.
-/

namespace DlepRouter

open Interaction Tlv Scan

/-! ### Clocks that advance -/

@[simp] lemma clockReadings_append (t t' : List (Event sysSig)) :
    clockReadings (t ++ t') = clockReadings t ++ clockReadings t' := by
  simp [clockReadings]

/-- The last reading of the clock is made somewhere. -/
lemma exists_of_getLast?_clockReadings {t : List (Event sysSig)} {now : Timespec}
    (h : (clockReadings t).getLast? = some now) :
    ∃ t₁ t₂, t = t₁ ++ ⟨.clockGettime, now⟩ :: t₂ ∧ clockReadings t₂ = [] := by
  obtain ⟨front, hfront⟩ := List.getLast?_eq_some_iff.mp h
  obtain ⟨t₁, t₂, rfl, -, hlast⟩ := List.filterMap_eq_append_iff.mp hfront
  obtain ⟨t₃, ⟨c, r⟩, t₄, rfl, -, hnow, hnone⟩ := List.filterMap_eq_cons_iff.mp hlast
  cases c with
  | clockGettime =>
    obtain rfl := Option.some.inj hnow
    exact ⟨t₁ ++ t₃, t₄, (List.append_assoc ..).symm, hnone⟩
  | _ => cases hnow

/-- The clock is read at times in normal form, and at each wake-up it is at least `δ` nanoseconds
later than when it was last read. -/
structure ClockTicks (δ : ℕ) (t : List (Event sysSig)) : Prop where
  normal : ∀ now ∈ clockReadings t, now.Normal
  ticks : ∀ (t₁ t₂ t₃ : List (Event sysSig)) (now later : Timespec) (timeout : Timeval)
    (ready : Selected),
    t = t₁ ++ ⟨.clockGettime, now⟩ ::
      (t₂ ++ ⟨.select timeout, some ready⟩ :: ⟨.clockGettime, later⟩ :: t₃) →
    clockReadings t₂ = [] → (δ : ℤ) ≤ elapsed now later

namespace ClockTicks

variable {δ : ℕ} {t t' : List (Event sysSig)}

lemma of_append (h : ClockTicks δ (t ++ t')) : ClockTicks δ t := by
  constructor
  · intro now hnow
    apply h.normal
    rw [clockReadings_append]
    exact List.mem_append_left _ hnow
  · rintro t₁ t₂ t₃ now later timeout ready rfl
    exact h.ticks t₁ t₂ (t₃ ++ t') now later timeout ready (by simp)

lemma of_append_right (h : ClockTicks δ (t ++ t')) : ClockTicks δ t' := by
  constructor
  · intro now hnow
    apply h.normal
    rw [clockReadings_append]
    exact List.mem_append_right _ hnow
  · rintro t₁ t₂ t₃ now later timeout ready rfl
    exact h.ticks (t ++ t₁) t₂ t₃ now later timeout ready (by simp)

/-- So it is with a clock that advances from each reading to the next. -/
lemma of_isChain (hnormal : ∀ now ∈ clockReadings t, now.Normal)
    (h : (clockReadings t).IsChain fun now later => (δ : ℤ) ≤ elapsed now later) :
    ClockTicks δ t := by
  refine ⟨hnormal, ?_⟩
  rintro t₁ t₂ t₃ now later timeout ready rfl hnone
  have hreadings : clockReadings (t₁ ++ ⟨.clockGettime, now⟩ ::
      (t₂ ++ ⟨.select timeout, some ready⟩ :: ⟨.clockGettime, later⟩ :: t₃)) =
      clockReadings t₁ ++ now :: later :: clockReadings t₃ := by simp [hnone]
  rw [hreadings, List.isChain_append] at h
  exact (List.isChain_cons_cons.mp h.2.1).1

end ClockTicks

/-- A wake-up with something to read. -/
def isReadable : Event sysSig → Bool
  | ⟨.select _, some ready⟩ => ready.readable
  | _ => false

/-- How many of them there are. -/
def readables (t : List (Event sysSig)) : ℕ := t.countP isReadable

lemma readables_append (t t' : List (Event sysSig)) :
    readables (t ++ t') = readables t + readables t' := List.countP_append

/-! ### Silence -/

/-- So many wake-ups fit into so many seconds. -/
def wakeUps (k δ : ℕ) : ℕ := k * 1000000000 / δ

/-- Since `last`, the clock was read at `q` wake-ups without a message, and at none of them had more
than `k` seconds passed. -/
structure Silence (δ k q : ℕ) (last : Timespec) (t : List (Event sysSig)) : Prop where
  mem : last ∈ clockReadings t
  latest : ∃ now, (clockReadings t).getLast? = some now ∧ (q : ℤ) * δ ≤ elapsed last now ∧
    elapsed last now ≤ seconds k

namespace Silence

variable {δ k q : ℕ} {last now : Timespec} {t t' : List (Event sysSig)}

/-- Behind a message there was none yet. -/
lemma start (h : (clockReadings t).getLast? = some now) : Silence δ k 0 now t := by
  have helapsed : elapsed now now = 0 := sub_self _
  refine ⟨List.mem_of_getLast? h, now, h, ?_, ?_⟩
  · simp [helapsed]
  · rw [helapsed, seconds]
    omega

/-- A wake-up within the time is one more. -/
lemma wait {timeout : Timeval} {ready : Selected} (h : Silence δ k q last t)
    (hticks : ClockTicks δ (t ++ ⟨.select timeout, some ready⟩ :: ⟨.clockGettime, now⟩ :: t'))
    (hread : clockReadings (⟨.select timeout, some ready⟩ :: ⟨.clockGettime, now⟩ :: t') = [now])
    (hidle : elapsed last now ≤ seconds k) :
    Silence δ k (q + 1) last
      (t ++ ⟨.select timeout, some ready⟩ :: ⟨.clockGettime, now⟩ :: t') := by
  obtain ⟨hmem, before, hlatest, hlong, -⟩ := h
  have hstep : (δ : ℤ) ≤ elapsed before now := by
    obtain ⟨t₁, t₂, rfl, hnone⟩ := exists_of_getLast?_clockReadings hlatest
    exact hticks.ticks t₁ t₂ t' before now timeout ready (by simp) hnone
  refine ⟨?_, now, ?_, ?_, hidle⟩
  · rw [clockReadings_append]
    exact List.mem_append_left _ hmem
  · rw [clockReadings_append, hread, List.getLast?_append]
    rfl
  · have hsplit : elapsed last now = elapsed last before + elapsed before now := by
      unfold elapsed
      omega
    rw [hsplit]
    push_cast
    linarith

/-- Only so many fit into the time. -/
lemma le (h : Silence δ k q last t) (hδ : 0 < δ) : q ≤ wakeUps k δ := by
  obtain ⟨-, now, -, hlong, hshort⟩ := h
  have hle : (q : ℤ) * δ ≤ k * 1000000000 := hlong.trans hshort
  apply (Nat.le_div_iff_mul_le hδ).mpr
  exact_mod_cast hle

/-- A timer that has not expired leaves the time within so many seconds. -/
lemma within {interval : UInt32} (h : Silence δ interval.toNat q last t)
    (hticks : ClockTicks δ (t ++ t')) (hread : now ∈ clockReadings t')
    (hidle : ¬ 0 < intervalCompare last now interval) :
    elapsed last now ≤ seconds interval.toNat := by
  have hmem : ∀ x, x ∈ clockReadings t ∨ x ∈ clockReadings t' → x.Normal := by
    intro x hx
    apply hticks.normal
    rw [clockReadings_append]
    exact List.mem_append.mpr hx
  rw [intervalCompare_pos_iff (hmem last (.inl h.mem)) (hmem now (.inr hread))] at hidle
  exact not_lt.mp hidle

end Silence

/-! ### The termination state -/

section Loops

variable {ok : Assumption sysSig} {δ : ℕ}

/-- A program that never reads the clock leaves the silence as it is. -/
lemma ensures_clockReadings_nil {α : Type} {P : SysCall → Prop} {p : Sys α}
    (h : p.OnlyCalls ok P) (hP : ¬ P .clockGettime) :
    p.Ensures ok fun _ t => clockReadings t = [] := by
  apply h.filterMap_eq_nil
  rintro ⟨c, r⟩ hc
  cases c with
  | clockGettime => exact absurd hc hP
  | _ => rfl

/-- A round of the termination state that goes on is one more wake-up without a message. -/
lemma ensures_termRound_silence (mi : UInt32) (st : TermState) {q : ℕ} {t : List (Event sysSig)}
    (h : ClockTicks δ t → Silence δ (mi * 4).toNat q st.lastRecvTime t) :
    (termRound mi st).Ensures ok fun r t' =>
      Sum.elim (fun st' : TermState => ClockTicks δ (t ++ t') →
        Silence δ (mi * 4).toNat (q + 1) st'.lastRecvTime (t ++ t')) (fun v => v ≠ none) r := by
  apply (ensures_termRound_goes mi st).mono
  intro r t' hround
  cases hround with
  | unselected => exact nofun
  | woken ready nowTime hwoken =>
    cases hwoken with
    | expired | unreceived | received => exact nofun
    | idle _ hidle =>
      intro hticks
      have hsilence := h hticks.of_append
      have hread : clockReadings [⟨.select st.timeout, some ready⟩, ⟨.clockGettime, nowTime⟩] =
        [nowTime] := rfl
      apply hsilence.wait hticks hread
      exact hsilence.within hticks (hread ▸ List.mem_singleton_self _) hidle

/-- In the termination state, no more wake-ups without a message go by than fit into the time. -/
lemma ensures_termSession_ends (hδ : 0 < δ) (n : ℕ) (b : Buffer) (mi : UInt32) :
    (termSession n b mi).Ensures ok fun r t =>
      ClockTicks δ t → r = none → n ≤ wakeUps (mi * 4).toNat δ := by
  apply ensures_call_bind
  intro nowTime _
  refine Program.ensures_forever_counting (I := fun j (st : TermState) t =>
    ClockTicks δ t → Silence δ (mi * 4).toNat j st.lastRecvTime t)
    (Q := fun r t => ClockTicks δ t → r = none → n ≤ wakeUps (mi * 4).toNat δ)
    ?_ ?_ _ [⟨.clockGettime, nowTime⟩] ?_
  · intro st t h hticks _
    exact (h hticks).le hδ
  · intro j st t h
    apply (ensures_termRound_silence mi st h).mono
    intro r t' hr
    cases r with
    | inl st' => exact hr
    | inr v => exact fun _ hnone => absurd hnone hr
  · intro _
    exact .start rfl

/-- If the program is cut off, then after no more rounds than there are wake-ups of the termination
state. -/
def EndsTermination (δ n : ℕ) (mi : UInt32) (r : Option ℤ) (t : List (Event sysSig)) : Prop :=
  ClockTicks δ t → r = none → n ≤ wakeUps (mi * 4).toNat δ

lemma EndsTermination.prepend {n : ℕ} {mi : UInt32} {r : Option ℤ} {t' : List (Event sysSig)}
    (h : EndsTermination δ n mi r t') (t : List (Event sysSig)) :
    EndsTermination δ n mi r (t ++ t') :=
  fun hticks hnone => h hticks.of_append_right hnone

lemma ensures_sendSessionTerm_ends (hδ : 0 < δ) (n : ℕ) (sc : StatusCode) (b : Buffer)
    (mi : UInt32) : (sendSessionTerm n sc b mi).Ensures ok (EndsTermination δ n mi) := by
  apply (ensures_sendSessionTerm_goes n sc b mi).mono
  intro r t h
  cases h with
  | unallocated | unsent => exact fun _ => nofun
  | @sent fresh b r t t' hsend hterm =>
    have hends : EndsTermination δ n mi r t' :=
      (ensures_termSession_ends hδ n b mi).of_path hterm
    exact hends.prepend (⟨.realloc 9, some fresh⟩ :: t)

/-! ### In session -/

/-- A message that is handled takes no time, or it leads to the termination state. -/
lemma ensures_handleMessage_ends (hδ : 0 < δ) (n : ℕ) (b : Buffer) (len : ℕ) (mi : UInt32) :
    (handleMessage n b len mi).Ensures ok fun r t =>
      (r = some 1 → clockReadings t = []) ∧ EndsTermination δ n mi r t := by
  apply (ensures_clockReadings_nil (onlyCalls_scan b.octets (dispatch len)) id).bind
  intro verdict t ht
  cases verdict with
  | respond =>
    apply Program.Ensures.bind (ensures_send _)
    intro taken t' _
    cases taken with
    | false => exact ⟨nofun, fun _ => nofun⟩
    | true => exact ⟨nofun, fun _ => nofun⟩
  | status sc =>
    dsimp only
    split_ifs
    · apply ((ensures_sendSessionTerm n sc b mi).and
        (ensures_sendSessionTerm_ends hδ n sc b mi)).mono
      rintro r t' ⟨⟨hr, -⟩, hends⟩
      exact ⟨fun h => absurd h hr, hends.prepend t⟩
    · exact ⟨fun _ => by rw [List.append_nil, ht], fun _ => nofun⟩

/-- So many rounds fit into a session with `k` messages. -/
def sessionRounds (δ : ℕ) (mi : UInt32) (k : ℕ) : ℕ :=
  (k + 1) * (wakeUps (mi * 2).toNat δ + 1)

/-- The rounds so far are those with a message and those without one in front of each. -/
def RoundsSoFar (δ : ℕ) (mi : UInt32) (j : ℕ) (st : SessionState) (t : List (Event sysSig)) :
    Prop :=
  ClockTicks δ t → ∃ q, Silence δ (mi * 2).toNat q st.lastRecvTime t ∧
    j ≤ readables t * (wakeUps (mi * 2).toNat δ + 1) + q

/-- What is known of a session that is cut off: it has used up all of its rounds or those of the
termination state. -/
def EndsSession (δ n : ℕ) (mi : UInt32) (r : Option ℤ) (t : List (Event sysSig)) : Prop :=
  ClockTicks δ t → r = none →
    n < sessionRounds δ mi (readables t) ∨ n ≤ wakeUps (mi * 4).toNat δ

lemma ensures_sessionRound_ends (hδ : 0 < δ) (n : ℕ) (mi ri : UInt32) (st : SessionState) {j : ℕ}
    {t : List (Event sysSig)} (h : RoundsSoFar δ mi j st t) :
    (sessionRound n mi ri st).Ensures ok fun r t' =>
      Sum.elim (fun st' => RoundsSoFar δ mi (j + 1) st' (t ++ t'))
        (fun v => EndsTermination δ n mi v t') r := by
  apply (ensures_sessionRound_goes n mi ri st).mono
  intro r t' hround
  cases hround with
  | unselected => exact fun _ => nofun
  | @woken ready nowTime st' v t₁ t₂ hheartbeat hwoken =>
    have hbeat := (ensures_clockReadings_nil (onlyCalls_heartbeatIfDue ri nowTime _) id).of_path
      hheartbeat
    obtain ⟨-, hrecv, -⟩ := (ensures_heartbeatIfDue_sends ri nowTime _).of_path hheartbeat
    cases hwoken with
    | @expired r _ _ _ hterm =>
      have hends := (ensures_sendSessionTerm_ends hδ n _ _ mi).of_path hterm
      exact hends.prepend (⟨.select st.timeout, some ready⟩ :: ⟨.clockGettime, nowTime⟩ :: t₁)
    | unreceived => exact fun _ => nofun
    | @left len b r t₂ t₃ _ hpath _ hhandled _ =>
      obtain ⟨-, hends⟩ := (ensures_handleMessage_ends hδ n b len mi).of_path hhandled
      simpa using hends.prepend
        (⟨.select st.timeout, some ready⟩ :: ⟨.clockGettime, nowTime⟩ :: (t₁ ++ t₂))
    | idle hidle hdue =>
      intro hticks
      obtain ⟨q, hsilence, hj⟩ := h hticks.of_append
      have hread : clockReadings (⟨.select st.timeout, some ready⟩ ::
          ⟨.clockGettime, nowTime⟩ :: (t₁ ++ [])) = [nowTime] := by simp [hbeat]
      rw [hrecv] at hdue ⊢
      refine ⟨q + 1, hsilence.wait hticks hread ?_, ?_⟩
      · exact hsilence.within hticks (hread ▸ List.mem_singleton_self _) hdue
      · rw [readables_append, Nat.add_mul]
        omega
    | @handled len b t₂ t₃ hready hpath _ hhandled =>
      intro hticks
      obtain ⟨q, hsilence, hj⟩ := h hticks.of_append
      have hbody := (ensures_clockReadings_nil (onlyCalls_recvMessage _) id).of_path hpath
      obtain ⟨hsilent, -⟩ := (ensures_handleMessage_ends hδ n b len mi).of_path hhandled
      have hread : clockReadings (⟨.select st.timeout, some ready⟩ ::
          ⟨.clockGettime, nowTime⟩ :: (t₁ ++ (t₂ ++ t₃))) = [nowTime] := by
        simp [hbeat, hbody, hsilent rfl]
      have hmore : 1 ≤ readables (⟨.select st.timeout, some ready⟩ ::
          ⟨.clockGettime, nowTime⟩ :: (t₁ ++ (t₂ ++ t₃))) := by
        have hfirst : isReadable ⟨.select st.timeout, some ready⟩ := hready
        rw [readables, List.countP_cons_of_pos hfirst]
        exact Nat.le_add_left 1 _
      refine ⟨0, .start ?_, ?_⟩
      · rw [clockReadings_append, hread, List.getLast?_append]
        rfl
      · rw [readables_append]
        have hwindow := hsilence.le hδ
        have hstep := Nat.mul_le_mul_right (wakeUps (mi * 2).toNat δ + 1)
          (Nat.add_le_add_left hmore (readables t))
        rw [Nat.succ_mul] at hstep
        omega

lemma ensures_inSession_ends (hδ : 0 < δ) (n : ℕ) (b : Buffer) (mi ri : UInt32) :
    (inSession n b mi ri).Ensures ok (EndsSession δ n mi) := by
  apply ensures_call_bind
  intro nowTime _
  refine Program.ensures_forever_counting (I := RoundsSoFar δ mi) (Q := EndsSession δ n mi)
    ?_ ?_ _ [⟨.clockGettime, nowTime⟩] ?_
  · intro st t h hticks _
    obtain ⟨q, hsilence, hn⟩ := h hticks
    have hwindow := hsilence.le hδ
    left
    rw [sessionRounds, Nat.add_mul, Nat.one_mul]
    omega
  · intro j st t h
    apply (ensures_sessionRound_ends hδ n mi ri st h).mono
    intro r t' hr
    cases r with
    | inl st' => exact hr
    | inr v => exact fun hticks hnone => .inr ((hr.prepend t) hticks hnone)
  · intro _
    exact ⟨0, .start rfl, Nat.zero_le _⟩

/-! ### The whole session -/

/-- So many rounds fit into a session with `k` messages, whatever the interval of the modem is. -/
def maxRounds (δ k : ℕ) : ℕ := (k + 1) * (wakeUps (2 ^ 32) δ + 1)

lemma wakeUps_le (δ : ℕ) (interval : UInt32) : wakeUps interval.toNat δ ≤ wakeUps (2 ^ 32) δ :=
  Nat.div_le_div_right (Nat.mul_le_mul_right _ (Nat.le_of_lt interval.toNat_lt))

lemma maxRounds_mono (δ : ℕ) {k k' : ℕ} (h : k ≤ k') : maxRounds δ k ≤ maxRounds δ k' :=
  Nat.mul_le_mul_right _ (Nat.succ_le_succ h)

/-- What is known of any session that is cut off. -/
def EndsWithin (δ n : ℕ) (r : Option ℤ) (t : List (Event sysSig)) : Prop :=
  ClockTicks δ t → r = none → n < maxRounds δ (readables t)

lemma EndsTermination.endsWithin {n : ℕ} {mi : UInt32} {r : Option ℤ} {t : List (Event sysSig)}
    (h : EndsTermination δ n mi r t) : EndsWithin δ n r t := by
  intro hticks hnone
  have hn := (h hticks hnone).trans (wakeUps_le δ _)
  have hone := Nat.le_mul_of_pos_left (wakeUps (2 ^ 32) δ + 1) (Nat.succ_pos (readables t))
  exact Nat.lt_of_lt_of_le (Nat.lt_succ_of_le hn) hone

lemma EndsSession.endsWithin {n : ℕ} {mi : UInt32} {r : Option ℤ} {t : List (Event sysSig)}
    (h : EndsSession δ n mi r t) : EndsWithin δ n r t := by
  intro hticks hnone
  rcases h hticks hnone with hn | hn
  · exact Nat.lt_of_lt_of_le hn
      (Nat.mul_le_mul_left _ (Nat.succ_le_succ (wakeUps_le δ (mi * 2))))
  · have hends : EndsTermination δ n mi r t := fun _ _ => hn
    exact hends.endsWithin hticks hnone

lemma EndsWithin.prepend {n : ℕ} {r : Option ℤ} {t' : List (Event sysSig)}
    (h : EndsWithin δ n r t') (t : List (Event sysSig)) : EndsWithin δ n r (t ++ t') := by
  intro hticks hnone
  have hmore : readables t' ≤ readables (t ++ t') := by
    rw [readables_append]
    exact Nat.le_add_left _ _
  exact Nat.lt_of_lt_of_le (h hticks.of_append_right hnone) (maxRounds_mono δ hmore)

lemma ensures_runSession_ends (hδ : 0 < δ) (n : ℕ) (b : Buffer) (sc : StatusCode) (resp : InitResp)
    (ri : UInt32) : (runSession n b sc resp ri).Ensures ok (EndsWithin δ n) := by
  unfold runSession
  split_ifs
  · apply (ensures_sendSessionTerm_ends hδ n sc b _).bind
    intro r t hends hticks hnone
    rw [List.append_nil] at hticks ⊢
    exact hends.endsWithin hticks (Option.map_eq_none_iff.mp hnone)
  · exact (ensures_sendSessionTerm_ends hδ n .shutdown b _).mono fun _ _ h => h.endsWithin
  · exact (ensures_inSession_ends hδ n b _ ri).mono fun _ _ h => h.endsWithin

lemma ensures_session_ends (hδ : 0 < δ) (n : ℕ) (modemAddress : List UInt8) (ri : UInt32) :
    (session n modemAddress ri).Ensures ok (EndsWithin δ n) := by
  have hclose : ∀ (ret : Option ℤ) (t : List (Event sysSig)), EndsWithin δ n ret t →
      (closeSession ret).Ensures ok fun r t' => EndsWithin δ n r (t ++ t') := by
    intro ret t hret
    cases ret with
    | none =>
      rw [← List.append_nil t] at hret
      exact hret
    | some ret => exact fun _ _ _ => nofun
  apply Program.ensures_bind_of_forall
  intro o t
  cases o with
  | noSocket => exact fun _ => nofun
  | unconnected | unanswered | rejected => exact hclose _ t fun _ => nofun
  | accepted b sc resp =>
    apply (ensures_runSession_ends hδ n b sc resp ri).bind
    intro ret t' hret
    simpa only [List.append_assoc] using hclose ret (t ++ t') (hret.prepend t)

end Loops

/-- A session returns if at each wake-up the clock has advanced since it was last read, and the
modem is heard at no more than `k` wake-ups: it has enough rounds if no more fit into the time after
which a modem that is silent is given up on. -/
theorem session_ends {S : Type} (H : Handler sysSig S) (s : S) (n : ℕ) (modemAddress : List UInt8)
    (routerHeartbeatInterval : UInt32) {δ k : ℕ} (hδ : 0 < δ)
    (hclock : ClockTicks δ ((session n modemAddress routerHeartbeatInterval).run H s).trace)
    (hsilent : readables ((session n modemAddress routerHeartbeatInterval).run H s).trace ≤ k)
    (hn : maxRounds δ k ≤ n) :
    ((session n modemAddress routerHeartbeatInterval).run H s).value = some 0 ∨
      ((session n modemAddress routerHeartbeatInterval).run H s).value = some (-1) := by
  have hends := (ensures_session_ends hδ n modemAddress routerHeartbeatInterval).run_any H s hclock
  obtain ⟨q, -, hq⟩ := (refines_session modemAddress routerHeartbeatInterval n).run_any H s
  cases q with
  | ended => exact .inl hq
  | failed => exact .inr hq
  | inSession | terminating =>
    have hcut := hends hq
    have hle := (maxRounds_mono δ hsilent).trans hn
    omega
  | _ => exact hq.elim

/-- The modem answers the initialization and then says nothing, while the clock advances by `2 ^ 33`
seconds from reading to reading. -/
def mute : Script where
  readable := []
  clock := [⟨0, 0⟩, ⟨2 ^ 33, 0⟩, ⟨2 ^ 34, 0⟩, ⟨3 * 2 ^ 33, 0⟩]
  received := minimalResponse
  taken := []

set_option maxRecDepth 10000 in
/-- One round is enough for it. -/
theorem session_ends_mute :
    ((session 1 [] 1).run scripted mute).value = some 0 ∨
      ((session 1 [] 1).run scripted mute).value = some (-1) := by
  have hreadings : clockReadings ((session 1 [] 1).run scripted mute).trace = mute.clock := by
    decide +kernel
  have hclock : ClockTicks (2 ^ 33 * 1000000000) ((session 1 [] 1).run scripted mute).trace := by
    apply ClockTicks.of_isChain
    · rw [hreadings]
      decide
    · rw [hreadings]
      decide
  exact session_ends scripted mute 1 [] 1 (by decide) hclock
    (Nat.le_of_eq (by decide +kernel : readables _ = 0)) (by decide)

end DlepRouter
