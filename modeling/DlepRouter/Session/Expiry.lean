import DlepRouter.Session.Timers

/-!
# When the timers expire

A modem that says nothing is given up on once the timer has expired, and the router sends a
heartbeat once its own has. How far that is from what the intervals mean in milliseconds depends
on the intervals alone where the modem is given up on too early, and on the times of the wake-ups
where heartbeats and terminations come too late.
-/

namespace DlepRouter

open Interaction

/-! ### A modem that says nothing -/

section Quiet

/-- The environment of a modem that says nothing. Messages are taken in full, memory never runs
out, and the clock is read off `clock`. -/
def quiet (clock : ℕ → Timespec) : Handler sysSig ℕ where
  answer k
    | .socket _ | .connect _ => (true, k)
    | .close => ((), k)
    | .send msg => (some (Fin.last msg.length), k)
    | .recv _ => (none, k)
    | .select timeout => (some ⟨false, timeout⟩, k)
    | .clockGettime => (clock k, k + 1)
    | .realloc _ => (some fun _ => 0, k)

/-- A clock that is read once, and then again when so many milliseconds have passed. -/
def clockAfter (ms : ℕ) : ℕ → Timespec
  | 0 => ⟨0, 0⟩
  | _ + 1 => ⟨ms / 1000, ms % 1000 * 1000000⟩

lemma elapsed_clockAfter (ms : ℕ) :
    elapsed (clockAfter ms 0) (clockAfter ms 1) = milliseconds ms := by
  simp only [elapsed, Timespec.nanos, clockAfter, milliseconds]
  omega

lemma normal_clockAfter (ms k : ℕ) : (clockAfter ms k).Normal := by
  cases k with
  | zero => exact ⟨Int.le_refl 0, by simp [clockAfter]⟩
  | succ k =>
    simp only [Timespec.Normal, clockAfter]
    omega

lemma nanos_clockAfter_le (ms : ℕ) {i j : ℕ} (h : i ≤ j) :
    (clockAfter ms i).nanos ≤ (clockAfter ms j).nanos := by
  cases i with
  | zero =>
    cases j with
    | zero => exact Int.le_refl _
    | succ j =>
      simp only [Timespec.nanos, clockAfter]
      omega
  | succ i =>
    obtain ⟨j, rfl⟩ := Nat.exists_eq_add_of_le' (Nat.lt_of_lt_of_le (Nat.succ_pos i) h)
    exact Int.le_refl _

variable (clock : ℕ → Timespec) {α : Type}

/-- The clock readings of a run are those of the clock, one after the other. -/
lemma clockReadings_quiet (p : Sys α) (k : ℕ) :
    ∃ l, clockReadings (p.run (quiet clock) k).trace = (List.range' k l).map clock := by
  induction p generalizing k with
  | ret a => exact ⟨0, rfl⟩
  | call c f ih =>
    rw [Program.run_call]
    cases c with
    | clockGettime =>
      obtain ⟨l, hl⟩ := ih (clock k) (k + 1)
      exact ⟨l + 1, congrArg (clock k :: ·) hl⟩
    | _ => exact ih _ k

variable {clock}

lemma clockRuns_quiet (hnormal : ∀ k, (clock k).Normal)
    (hle : ∀ i j, i ≤ j → (clock i).nanos ≤ (clock j).nanos) (p : Sys α) (k : ℕ) :
    ClockRuns (p.run (quiet clock) k).trace := by
  obtain ⟨l, hl⟩ := clockReadings_quiet clock p k
  constructor
  · intro now hnow
    rw [hl] at hnow
    obtain ⟨i, -, rfl⟩ := List.mem_map.mp hnow
    exact hnormal i
  · rw [hl, List.pairwise_map]
    apply List.Pairwise.imp _ List.pairwise_lt_range'
    intro i j hij
    exact hle i j (Nat.le_of_lt hij)

lemma clockRuns_clockAfter (ms : ℕ) (p : Sys α) :
    ClockRuns (p.run (quiet (clockAfter ms)) 0).trace :=
  clockRuns_quiet (normal_clockAfter ms) (fun _ _ => nanos_clockAfter_le ms) p 0

variable (clock) in
/-- No allocation fails. -/
lemma not_allocationFailed_quiet (p : Sys α) (k : ℕ) :
    ¬ AllocationFailed (p.run (quiet clock) k).trace := by
  rintro ⟨n, hn⟩
  induction p generalizing k with
  | ret a => cases hn
  | call c f ih =>
    rcases List.mem_cons.mp hn with h | h
    · cases c <;> cases h
    · exact ih _ _ h

variable (clock)

/-- A first wake-up of `in_session` when nothing has been received. -/
lemma inSessionWake_quiet (mi ri : UInt32) :
    ∃ w, InSessionWake (quiet clock) 0 1 .null mi ri w ∧ w.ready.readable = false ∧
      w.state.lastRecvTime = clock 0 ∧ w.state.lastSentTime = clock 0 ∧ w.now = clock 1 := by
  let st : SessionState := .start .null mi ri (clock 0)
  let o := (sessionRound 1 mi ri st).run (quiet clock) 1
  exact ⟨⟨st, ⟨false, st.timeout⟩, clock 1, o.trace.drop 2, o.value⟩,
    ⟨1, List.mem_cons_self, rfl, rfl⟩, rfl, rfl, rfl, rfl⟩

/-- A first wake-up of `term_session` when nothing has been received. -/
lemma termSessionWake_quiet (mi : UInt32) :
    ∃ w, TermSessionWake (quiet clock) 0 1 .null mi w ∧ w.ready.readable = false ∧
      w.state.lastRecvTime = clock 0 ∧ w.now = clock 1 := by
  let st : TermState := .start .null mi (clock 0)
  let o := (termRound mi st).run (quiet clock) 1
  exact ⟨⟨st, ⟨false, st.timeout⟩, clock 1, o.trace.drop 2, o.value⟩,
    ⟨1, List.mem_cons_self, rfl, rfl⟩, rfl, rfl, rfl⟩

variable {clock}

/-- No memory is missed at a wake-up. -/
lemma not_allocationFailed_wake {w : Wake SessionState} {mi ri : UInt32}
    (hw : InSessionWake (quiet clock) 0 1 .null mi ri w) : ¬ AllocationFailed w.rest := by
  rintro ⟨n, hn⟩
  obtain ⟨k, -, htrace, -⟩ := hw
  apply not_allocationFailed_quiet clock (sessionRound 1 mi ri w.state) k
  refine ⟨n, ?_⟩
  rw [htrace]
  exact List.mem_cons_of_mem _ (List.mem_cons_of_mem _ hn)

end Quiet

/-! ### Too early -/

section Early

/-- `in_session` sends a Session Termination with the status Timed Out only if more than two
heartbeat intervals have passed since the last message, in every run. -/
def SessionPatient (m : UInt32) : Prop :=
  ∀ (S : Type) (H : Handler sysSig S) (s : S) (n : ℕ) (b : Buffer) (ri : UInt32),
    ClockRuns ((inSession n b m ri).run H s).trace →
    ∀ w, InSessionWake H s n b m ri w → termination StatusCode.timedOut.code ∈ sends w.rest →
      milliseconds (2 * m.toNat) < elapsed w.state.lastRecvTime w.now

/-- `term_session` gives up on a silent modem only if more than four heartbeat intervals have passed
since the last message, in every run. -/
def TermPatient (m : UInt32) : Prop :=
  ∀ (S : Type) (H : Handler sysSig S) (s : S) (n : ℕ) (b : Buffer),
    ClockRuns ((termSession n b m).run H s).trace →
    ∀ w, TermSessionWake H s n b m w → w.ready.readable = false → (∃ r, w.next = .inr r) →
      milliseconds (4 * m.toNat) < elapsed w.state.lastRecvTime w.now

/-- So many seconds are at least so many milliseconds. -/
lemma milliseconds_le_iff (ms sec : ℕ) : milliseconds ms ≤ seconds sec ↔ ms ≤ 1000 * sec := by
  unfold milliseconds seconds
  omega

lemma toNat_mul_two (m : UInt32) : (m * 2).toNat = 2 * m.toNat % 2 ^ 32 := by
  simp [UInt32.toNat_mul, Nat.mul_comm]

lemma toNat_mul_four (m : UInt32) : (m * 4).toNat = 4 * m.toNat % 2 ^ 32 := by
  simp [UInt32.toNat_mul, Nat.mul_comm]

lemma sessionPatient_iff (m : UInt32) :
    SessionPatient m ↔ 2 * m.toNat ≤ 1000 * (2 * m.toNat % 2 ^ 32) := by
  rw [← toNat_mul_two, ← milliseconds_le_iff]
  constructor
  · intro h
    obtain ⟨w, hw, hidle, hlast, -, hnow⟩ := inSessionWake_quiet (clockAfter (2 * m.toNat)) m 0
    have hclock := clockRuns_clockAfter (2 * m.toNat) (inSession 1 .null m 0)
    have hnormal := hw.normal hclock
    have helapsed : elapsed w.state.lastRecvTime w.now = milliseconds (2 * m.toNat) := by
      rw [hlast, hnow, elapsed_clockAfter]
    by_contra hlt
    have hdue : 0 < intervalCompare w.state.lastRecvTime w.now (m * 2) := by
      rw [intervalCompare_pos_iff hnormal.1 hnormal.2.2, helapsed]
      exact not_le.mp hlt
    obtain ⟨-, hsent | hfailed⟩ := (hw.sessionWake.timesOut_iff hidle).mpr hdue
    · have hmore := h ℕ _ 0 1 .null 0 hclock w hw hsent
      exact absurd helapsed (ne_of_gt hmore)
    · exact not_allocationFailed_wake hw hfailed
  · intro hle S H s n b ri hclock w hw hsent
    obtain ⟨hrecv, -, hnow⟩ := hw.normal hclock
    have hexpired := hw.sessionWake.expired_of_termination_mem hsent
    exact lt_of_le_of_lt hle ((intervalCompare_pos_iff hrecv hnow _).mp hexpired)

lemma termPatient_iff (m : UInt32) :
    TermPatient m ↔ 4 * m.toNat ≤ 1000 * (4 * m.toNat % 2 ^ 32) := by
  rw [← toNat_mul_four, ← milliseconds_le_iff]
  constructor
  · intro h
    obtain ⟨w, hw, hidle, hlast, hnow⟩ := termSessionWake_quiet (clockAfter (4 * m.toNat)) m
    have hclock := clockRuns_clockAfter (4 * m.toNat) (termSession 1 .null m)
    have hnormal := hw.normal hclock
    have helapsed : elapsed w.state.lastRecvTime w.now = milliseconds (4 * m.toNat) := by
      rw [hlast, hnow, elapsed_clockAfter]
    by_contra hlt
    have hdue : 0 < intervalCompare w.state.lastRecvTime w.now (m * 4) := by
      rw [intervalCompare_pos_iff hnormal.1 hnormal.2, helapsed]
      exact not_le.mp hlt
    have hleft := (hw.termWake.leaves_iff hidle).mpr hdue
    have hmore := h ℕ _ 0 1 .null hclock w hw hidle hleft
    exact absurd helapsed (ne_of_gt hmore)
  · intro hle S H s n b hclock w hw hidle hleft
    obtain ⟨hrecv, hnow⟩ := hw.normal hclock
    have hexpired := (hw.termWake.leaves_iff hidle).mp hleft
    exact lt_of_le_of_lt hle ((intervalCompare_pos_iff hrecv hnow _).mp hexpired)

/-- Exactly the intervals whose multiples do not wrap around to less than a thousandth of what they
are in truth keep the router from giving up too early. -/
theorem patient_iff (m : UInt32) :
    (SessionPatient m ↔ 2 * m.toNat ≤ 1000 * (2 * m.toNat % 2 ^ 32)) ∧
      (TermPatient m ↔ 4 * m.toNat ≤ 1000 * (4 * m.toNat % 2 ^ 32)) :=
  ⟨sessionPatient_iff m, termPatient_iff m⟩

/-- An interval of `2 ^ 31` milliseconds is doubled to 0. -/
theorem not_patient : ¬ ∀ m : UInt32, 1 ≤ m.toNat → SessionPatient m ∧ TermPatient m := by
  intro h
  have hpatient := (h 2147483648 (by decide)).1
  exact absurd ((sessionPatient_iff 2147483648).mp hpatient) (by decide)

end Early

/-! ### Too late -/

section Late

/-- At a wake-up where more than a heartbeat interval has passed a heartbeat is sent, and at one
without a message where more than two heartbeat intervals of the modem have passed the session is
left with a Session Termination. -/
def Prompt (m r : UInt32) (w : Wake SessionState) : Prop :=
  (milliseconds r.toNat < elapsed w.state.lastSentTime w.now → heartbeat ∈ sends w.rest) ∧
    (w.ready.readable = false →
      milliseconds (2 * m.toNat) < elapsed w.state.lastRecvTime w.now → w.TimesOut)

/-- The time since the last heartbeat, or at a wake-up without a message that since the last
message, is more than so many milliseconds but not more than so many seconds. -/
def Overlooked (m r : UInt32) (w : Wake SessionState) : Prop :=
  milliseconds r.toNat < elapsed w.state.lastSentTime w.now ∧
      elapsed w.state.lastSentTime w.now ≤ seconds r.toNat ∨
    w.ready.readable = false ∧ milliseconds (2 * m.toNat) < elapsed w.state.lastRecvTime w.now ∧
      elapsed w.state.lastRecvTime w.now ≤ seconds (2 * m.toNat)

variable {S : Type} (H : Handler sysSig S) (s : S) (n : ℕ) (b : Buffer) {m : UInt32} (r : UInt32)

lemma prompt_iff (hm : m.toNat < 2 ^ 31) (hclock : ClockRuns ((inSession n b m r).run H s).trace)
    {w : Wake SessionState} (hw : InSessionWake H s n b m r w) :
    Prompt m r w ↔ ¬ Overlooked m r w := by
  obtain ⟨hrecv, hsent, hnow⟩ := hw.normal hclock
  have htwo : (m * 2).toNat = 2 * m.toNat := by
    rw [toNat_mul_two]
    omega
  have hbeat : heartbeat ∈ sends w.rest ↔
      ¬ elapsed w.state.lastSentTime w.now ≤ seconds r.toNat := by
    rw [hw.sessionWake.heartbeat_mem_iff, intervalCompare_pos_iff hsent hnow, not_le]
  have hend : w.ready.readable = false →
      (w.TimesOut ↔ ¬ elapsed w.state.lastRecvTime w.now ≤ seconds (2 * m.toNat)) := by
    intro hidle
    rw [hw.sessionWake.timesOut_iff hidle, intervalCompare_pos_iff hrecv hnow, htwo, not_le]
  unfold Prompt Overlooked
  simp only [hbeat, not_or, not_and]
  apply and_congr_right'
  apply forall_congr'
  intro hidle
  rw [hend hidle]

/-- In every run, heartbeats and terminations are prompt at all wake-ups exactly if none of them
falls between an interval in milliseconds and the same number of seconds. -/
theorem inSession_prompt_iff (hm : m.toNat < 2 ^ 31)
    (hclock : ClockRuns ((inSession n b m r).run H s).trace) :
    (∀ w, InSessionWake H s n b m r w → Prompt m r w) ↔
      ∀ w, InSessionWake H s n b m r w → ¬ Overlooked m r w := by
  apply forall_congr'
  intro w
  apply imp_congr_right
  intro hw
  exact prompt_iff H s n b r hm hclock hw

/-- A modem that says nothing for 121 seconds, where both intervals are a minute. -/
theorem inSession_prompt_iff_quiet :
    (∀ w, InSessionWake (quiet (clockAfter 121000)) 0 1 .null 60000 60000 w →
        Prompt 60000 60000 w) ↔
      ∀ w, InSessionWake (quiet (clockAfter 121000)) 0 1 .null 60000 60000 w →
        ¬ Overlooked 60000 60000 w :=
  inSession_prompt_iff _ 0 1 .null 60000 (by decide) (clockRuns_clockAfter 121000 _)

/-- Neither a heartbeat nor a termination is sent to it. -/
theorem not_inSession_prompt :
    ¬ ∀ (m r : UInt32), 1 ≤ m.toNat → m.toNat < 2 ^ 31 → 1 ≤ r.toNat →
      ∀ (S : Type) (H : Handler sysSig S) (s : S) (n : ℕ) (b : Buffer),
        ClockRuns ((inSession n b m r).run H s).trace →
        ∀ w, InSessionWake H s n b m r w → Prompt m r w := by
  intro h
  have hclock := clockRuns_clockAfter 121000 (inSession 1 .null 60000 60000)
  obtain ⟨w, hw, -, -, hlast, hnow⟩ := inSessionWake_quiet (clockAfter 121000) 60000 60000
  have hprompt := h 60000 60000 (by decide) (by decide) (by decide) ℕ _ 0 1 .null hclock w hw
  have helapsed : elapsed w.state.lastSentTime w.now = milliseconds 121000 := by
    rw [hlast, hnow, elapsed_clockAfter]
  apply (prompt_iff _ 0 1 .null 60000 (by decide) hclock hw).mp hprompt
  left
  rw [helapsed]
  exact ⟨by decide, by decide⟩

end Late

end DlepRouter
