import DlepRouter.Session.Expiry

/-!
# The timeouts of the event loops

Both loops compute the timeout of `select` once, before they start, and hand the same `timeval` to
every call. As `select` writes into it the time that it did not wait for, only the first call is
sure to be given the timeout that was meant. A run of `in_session` calls `select` at the start of
each round, and otherwise only in the `term_session` that it may end in.
-/

namespace DlepRouter

open Interaction

/-! ### Calls of `select` -/

/-- A call of `select`: the timeout it is given, and its answer. -/
structure Wait where
  timeout : Timeval
  answer : Option Selected

/-- The calls of `select` in a list of events. -/
def waits (t : List (Event sysSig)) : List Wait :=
  t.filterMap fun e => match e with
    | ⟨.select timeout, answer⟩ => some ⟨timeout, answer⟩
    | _ => none

@[simp] lemma waits_nil : waits [] = [] := rfl

@[simp] lemma waits_cons_select (timeout : Timeval) (answer : Option Selected)
    (t : List (Event sysSig)) :
    waits (⟨.select timeout, answer⟩ :: t) = ⟨timeout, answer⟩ :: waits t := rfl

/-- The other calls do not wait. -/
@[simp] lemma waits_cons_of_ne {c : SysCall} (h : ∀ timeout, c ≠ .select timeout) (r : c.Answer)
    (t : List (Event sysSig)) : waits (⟨c, r⟩ :: t) = waits t := by
  cases c with
  | select timeout => exact absurd rfl (h timeout)
  | _ => rfl

@[simp] lemma waits_append (t t' : List (Event sysSig)) :
    waits (t ++ t') = waits t ++ waits t' := by
  simp [waits]

namespace Wait

/-- The wait is one of `q` milliseconds: its timeout is in normal form, and it does not poll. -/
structure LastsFor (q : ℕ) (w : Wait) : Prop where
  timeout_eq : w.timeout = ⟨q / 1000, q % 1000 * 1000⟩
  normal : w.timeout.usec < 1000000
  waits : w.timeout ≠ ⟨0, 0⟩

/-- `select` returns and leaves the timeout as it was. -/
def LeavesTimeout (w : Wait) : Prop :=
  ∃ ready, w.answer = some ready ∧ ready.timeout = w.timeout

lemma lastsFor_iff {q : ℕ} (hq : 1 ≤ q) {w : Wait} :
    w.LastsFor q ↔ w.timeout = ⟨q / 1000, q % 1000 * 1000⟩ := by
  constructor
  · exact LastsFor.timeout_eq
  · intro h
    refine ⟨h, ?_, ?_⟩
    · rw [h]
      change q % 1000 * 1000 < 1000000
      omega
    · rw [h, Ne, Timeval.mk.injEq]
      omega

/-- Where each wait is given what the one before left, all are given the same timeout exactly if
none but the last changes it. -/
lemma forall_timeout_eq_iff {ws : List Wait} {timeout : Timeval}
    (hfirst : ∀ w ∈ ws.head?, w.timeout = timeout)
    (hchain : ws.IsChain fun w w' => ∃ ready, w.answer = some ready ∧ w'.timeout = ready.timeout) :
    (∀ w ∈ ws, w.timeout = timeout) ↔ ∀ w ∈ ws.dropLast, w.LeavesTimeout := by
  induction ws with
  | nil => simp
  | cons w ws ih =>
    have hw : w.timeout = timeout := hfirst w rfl
    cases ws with
    | nil => simp [hw]
    | cons w' ws =>
      obtain ⟨⟨ready, hanswer, hnext⟩, hchain⟩ := List.isChain_cons_cons.mp hchain
      have hleaves : w.LeavesTimeout ↔ w'.timeout = timeout := by
        simp [LeavesTimeout, hanswer, hnext, hw]
      rw [List.dropLast_cons_cons]
      constructor
      · intro hall
        obtain ⟨-, hrest⟩ := List.forall_mem_cons.mp hall
        have hw' := hrest w' List.mem_cons_self
        have hleft := (ih (by simpa using hw') hchain).mp hrest
        exact List.forall_mem_cons.mpr ⟨hleaves.mpr hw', hleft⟩
      · intro hall
        obtain ⟨hfirst, hleft⟩ := List.forall_mem_cons.mp hall
        have hrest := (ih (by simpa using hleaves.mp hfirst) hchain).mpr hleft
        exact List.forall_mem_cons.mpr ⟨hw, hrest⟩

end Wait

/-! ### The loops -/

section Loops

variable {α S : Type} {ok : Assumption sysSig}

/-- The call of `select` that a round starts with. -/
def firstWait (H : Handler sysSig S) (timeout : α → Timeval) (r : α × S) : Wait :=
  ⟨timeout r.1, (H.answer r.2 (.select (timeout r.1))).1⟩

/-- A round that goes on keeps the timeout that `select` left. -/
def KeepsTimeout (body : α → Sys (α ⊕ Option ℤ)) (timeout : α → Timeval) : Prop :=
  ∀ a, (body a).Ensures (fun _ _ => True) fun v t => ∀ a', v = .inl a' →
    ∃ ready rest, t = ⟨.select (timeout a), some ready⟩ :: rest ∧ timeout a' = ready.timeout

lemma ensures_heartbeatIfDue_timeout (ri : UInt32) (nowTime : Timespec) (st : SessionState) :
    (heartbeatIfDue ri nowTime st).Ensures ok fun st' _ => st'.timeout = st.timeout := by
  unfold heartbeatIfDue
  split_ifs
  · exact ensures_sendHeartbeat.bind fun _ _ _ => rfl
  · rfl

lemma keepsTimeout_sessionRound (n : ℕ) (mi ri : UInt32) :
    KeepsTimeout (sessionRound n mi ri) SessionState.timeout := by
  intro st
  apply (ensures_sessionRound_goes n mi ri st).mono
  intro v t h st' hst'
  cases h with
  | unselected => cases hst'
  | woken ready nowTime hheartbeat hwoken =>
    refine ⟨ready, _, rfl, ?_⟩
    have hkeeps := (ensures_heartbeatIfDue_timeout ri nowTime _).of_path hheartbeat
    cases hwoken with
    | expired | unreceived | left => cases hst'
    | idle | handled =>
      cases hst'
      exact hkeeps

lemma keepsTimeout_termRound (mi : UInt32) : KeepsTimeout (termRound mi) TermState.timeout := by
  intro st
  apply (ensures_termRound_goes mi st).mono
  intro v t h st' hst'
  cases h with
  | unselected => cases hst'
  | woken ready nowTime hwoken =>
    refine ⟨ready, _, rfl, ?_⟩
    cases hwoken with
    | expired | unreceived | received => cases hst'
    | idle =>
      cases hst'
      rfl

/-- A program that never calls `select` does not wait. -/
lemma ensures_waits_nil {P : SysCall → Prop} {p : Sys α} (h : p.OnlyCalls ok P)
    (hP : ∀ timeout, ¬ P (.select timeout)) : p.Ensures ok fun _ t => waits t = [] := by
  apply h.filterMap_eq_nil
  rintro ⟨c, r⟩ hc
  cases c with
  | select timeout => exact absurd hc (hP timeout)
  | _ => rfl

/-- A round of `term_session` waits once. -/
lemma waits_termRound (H : Handler sysSig S) (mi : UInt32) (r : TermState × S) :
    waits ((termRound mi r.1).run H r.2).trace = [firstWait H TermState.timeout r] := by
  have hone : (termRound mi r.1).Ensures (fun _ _ => True) fun _ t =>
      ∃ answer rest, t = ⟨.select r.1.timeout, answer⟩ :: rest ∧ waits rest = [] := by
    apply (ensures_termRound_goes mi r.1).mono
    intro v t h
    cases h with
    | unselected => exact ⟨none, [], rfl, rfl⟩
    | woken ready nowTime hwoken =>
      refine ⟨some ready, _, rfl, ?_⟩
      cases hwoken with
      | expired | idle => rfl
      | unreceived _ hrecv | received _ hrecv =>
        simpa using (ensures_waits_nil (onlyCalls_recvMessage _) fun _ => id).of_path hrecv
  obtain ⟨answer, rest, htrace, hrest⟩ := hone.run_any H r.2
  have hanswer := Program.answer_of_trace_cons htrace
  rw [htrace, waits_cons_select, hrest, firstWait, hanswer]

/-- In a loop that keeps the timeout, the rounds start with waits of the same timeout exactly if no
wait but the last one changes it. -/
lemma KeepsTimeout.forall_firstWait_iff {body : α → Sys (α ⊕ Option ℤ)} {timeout : α → Timeval}
    (hbody : KeepsTimeout body timeout) (H : Handler sysSig S) (n : ℕ) (a : α) (s : S) :
    (∀ w ∈ (Program.rounds H body n a s).map (firstWait H timeout), w.timeout = timeout a) ↔
      ∀ w ∈ ((Program.rounds H body n a s).map (firstWait H timeout)).dropLast,
        w.LeavesTimeout := by
  apply Wait.forall_timeout_eq_iff
  · cases n with
    | zero => exact nofun
    | succ n =>
      rintro _ ⟨⟩
      rfl
  · rw [List.isChain_map]
    apply (Program.isChain_rounds H body n a s).imp
    intro r r' hgoes
    obtain ⟨ready, rest, htrace, hkeeps⟩ := (hbody r.1).run_any H r.2 r'.1 hgoes
    exact ⟨ready, Program.answer_of_trace_cons htrace, hkeeps⟩

end Loops

/-! ### The timeouts of a run -/

section Runs

variable {S : Type} (H : Handler sysSig S) (s : S) (n : ℕ) (b : Buffer) (mi ri : UInt32)

/-- The calls of `select` that `in_session` makes, one at the start of each round. Those behind it
are made by `term_session`. -/
def inSessionWaits : List Wait :=
  (inSessionRounds H s n b mi ri).flatMap fun r =>
    (waits ((sessionRound n mi ri r.1).run H r.2).trace).take 1

/-- The calls of `select` that `term_session` makes. -/
def termSessionWaits : List Wait :=
  waits ((termSession n b mi).run H s).trace

lemma inSessionWaits_eq :
    inSessionWaits H s n b mi ri =
      (inSessionRounds H s n b mi ri).map (firstWait H SessionState.timeout) := by
  rw [inSessionWaits, List.map_eq_flatMap]
  rfl

lemma waits_flatMap {α : Type} (rs : List α) (f : α → List (Event sysSig)) :
    waits (rs.flatMap f) = rs.flatMap fun r => waits (f r) := by
  induction rs with
  | nil => rfl
  | cons r rs ih => simp [ih]

lemma termSessionWaits_eq :
    termSessionWaits H s n b mi =
      (termSessionRounds H s n b mi).map (firstWait H TermState.timeout) := by
  rw [termSessionWaits, trace_termSession, waits_cons_of_ne (c := .clockGettime) nofun,
    waits_flatMap, List.map_eq_flatMap]
  simp only [waits_termRound]

/-- A part of `in_session` waits only in a run of `term_session`, and does not go on then. -/
def WaitsInTerm {α : Type} (goesOn : α → Prop) (o : Outcome sysSig S α) : Prop :=
  waits o.trace = [] ∨ ¬ goesOn o.value ∧ ∃ s b, waits o.trace = termSessionWaits H s n b mi

namespace WaitsInTerm

variable {H n mi} {α β : Type} {goesOn : β → Prop} {p : Sys α} {f : α → Sys β}

/-- What comes behind something that does not wait. -/
lemma bind (hp : p.Ensures (fun _ _ => True) fun _ t => waits t = [])
    (hf : ∀ a s, WaitsInTerm H n mi goesOn ((f a).run H s)) (s : S) :
    WaitsInTerm H n mi goesOn ((p >>= f).run H s) := by
  have hwaits := hp.run_any H s
  rw [Program.run_bind]
  simpa [WaitsInTerm, Outcome.andThen, hwaits] using hf (p.run H s).value (p.run H s).state

/-- What is made of its value does not matter, if it goes on only where that did. -/
lemma map {goesOn' : α → Prop} (hp : ∀ s, WaitsInTerm H n mi goesOn' (p.run H s))
    (hf : ∀ a, ∃ v, f a = pure v ∧ (goesOn v → goesOn' a)) (s : S) :
    WaitsInTerm H n mi goesOn ((p >>= f).run H s) := by
  obtain ⟨v, hv, hgoes⟩ := hf (p.run H s).value
  rw [Program.run_bind, hv]
  rcases hp s with hnone | ⟨hends, hterm⟩
  · exact .inl (by simpa [Outcome.andThen] using hnone)
  · exact .inr ⟨mt hgoes hends, by simpa [Outcome.andThen] using hterm⟩

end WaitsInTerm

lemma waitsInTerm_sendSessionTerm (sc : StatusCode) (b : Buffer) (s : S) :
    WaitsInTerm H n mi (· = some 1) ((sendSessionTerm n sc b mi).run H s) := by
  have hrealloc : (Sys.call (.realloc 9)).Ensures (fun _ _ => True) fun _ t => waits t = [] :=
    fun _ _ => rfl
  refine .bind hrealloc (fun fresh s => ?_) s
  cases fresh with
  | none => exact .inl rfl
  | some fresh =>
    refine .bind (ensures_waits_nil (onlyCalls_send _) fun _ => id) (fun sent s => ?_) s
    cases sent with
    | false => exact .inl rfl
    | true => exact .inr ⟨((ensures_termSession n _ mi).run_any H s).2, s, _, rfl⟩

lemma waitsInTerm_handleMessage (b : Buffer) (len : ℕ) (s : S) :
    WaitsInTerm H n mi (· = some 1) ((handleMessage n b len mi).run H s) := by
  refine .bind (ensures_waits_nil (onlyCalls_scan _ _) fun _ => id) (fun v s => ?_) s
  cases v with
  | respond =>
    exact .inl ((ensures_waits_nil onlyCalls_sendSessionTermResp fun _ => id).run_any H s)
  | status sc =>
    dsimp only
    split_ifs
    · exact waitsInTerm_sendSessionTerm H n mi sc b s
    · exact .inl rfl

/-- Behind its `select`, a round waits only in a `term_session` that ends it. -/
lemma waitsInTerm_sessionRound (st : SessionState) :
    ∃ k, sessionRound n mi ri st = Program.call (σ := sysSig) (.select st.timeout) k ∧
      ∀ ready s, WaitsInTerm H n mi (fun v => ∃ st', v = .inl st') ((k ready).run H s) := by
  refine ⟨_, rfl, fun ready s => ?_⟩
  cases ready with
  | none => exact .inl rfl
  | some ready =>
    have hclock : (Sys.call .clockGettime).Ensures (fun _ _ => True) fun _ t => waits t = [] :=
      fun _ _ => rfl
    refine .bind hclock (fun nowTime s => ?_) s
    refine .bind (ensures_waits_nil (onlyCalls_heartbeatIfDue ri nowTime _) fun _ => id)
      (fun st' s => ?_) s
    by_cases hready : ready.readable
    · rw [if_neg (not_not.mpr hready)]
      refine .bind (ensures_waits_nil (onlyCalls_recvMessage _) fun _ => id)
        (fun received s => ?_) s
      obtain ⟨received, b⟩ := received
      dsimp only
      split
      · exact .inl rfl
      · exact .inl rfl
      · refine .map (waitsInTerm_handleMessage H n mi b _) (fun r => ?_) s
        by_cases hr : r = some 1
        · exact ⟨_, if_neg (not_not.mpr hr), fun _ => hr⟩
        · exact ⟨_, if_pos hr, by simp⟩
    · rw [if_pos hready]
      split_ifs
      · exact .map (waitsInTerm_sendSessionTerm H n mi _ _) (fun r => ⟨_, rfl, by simp⟩) s
      · exact .inl rfl

/-- A round of `in_session` waits once, and after that only in a `term_session` that ends it. -/
lemma waits_sessionRound (r : SessionState × S) :
    waits ((sessionRound n mi ri r.1).run H r.2).trace = [firstWait H SessionState.timeout r] ∨
      (¬ ∃ st, ((sessionRound n mi ri r.1).run H r.2).value = .inl st) ∧ ∃ s b,
        waits ((sessionRound n mi ri r.1).run H r.2).trace =
          firstWait H SessionState.timeout r :: termSessionWaits H s n b mi := by
  obtain ⟨k, hk, hrest⟩ := waitsInTerm_sessionRound H n mi ri r.1
  rw [hk, Program.run_call, waits_cons_select]
  rcases hrest _ _ with hnone | ⟨hends, s, b, hterm⟩
  · exact .inl (congrArg (firstWait H SessionState.timeout r :: ·) hnone)
  · exact .inr ⟨hends, s, b, congrArg (firstWait H SessionState.timeout r :: ·) hterm⟩

/-- The calls of `select` in a run of `in_session` are those that its rounds start with, and those
of the `term_session` that it ends in, if it ends in one. -/
theorem waits_inSession :
    waits ((inSession n b mi ri).run H s).trace = inSessionWaits H s n b mi ri ∨
      ∃ s' b', waits ((inSession n b mi ri).run H s).trace =
        inSessionWaits H s n b mi ri ++ termSessionWaits H s' n b' mi := by
  rw [trace_inSession, waits_cons_of_ne (c := .clockGettime) nofun, waits_flatMap,
    inSessionWaits_eq]
  have hchain := Program.isChain_rounds H (sessionRound n mi ri) n
    (.start b mi ri (H.answer s .clockGettime).1) (H.answer s .clockGettime).2
  rw [← inSessionRounds] at hchain
  generalize inSessionRounds H s n b mi ri = rs at hchain
  induction rs with
  | nil => exact .inl rfl
  | cons r rs ih =>
    rw [List.flatMap_cons, List.map_cons]
    rcases waits_sessionRound H n mi ri r with hone | ⟨hends, s', b', hterm⟩
    · rw [hone]
      rcases ih hchain.tail with hrest | ⟨s', b', hrest⟩
      · exact .inl (by rw [hrest, List.singleton_append])
      · exact .inr ⟨s', b', by rw [hrest, List.singleton_append, List.cons_append]⟩
    · -- The round does not go on, so it is the last one.
      cases rs with
      | nil => exact .inr ⟨s', b', by simp [hterm]⟩
      | cons r' rs => exact absurd ⟨_, (List.isChain_cons_cons.mp hchain).1⟩ hends

variable {mi ri}

/-- Every wait of `in_session` lasts as long as the shorter interval, and every wait of
`term_session` as long as that of the modem, exactly if no wait with another one after it changes
the timeout. -/
theorem waits_lastFor_iff (hm : 1 ≤ mi.toNat) (hr : 1 ≤ ri.toNat) :
    ((∀ w ∈ inSessionWaits H s n b mi ri, w.LastsFor (min mi.toNat ri.toNat)) ↔
        ∀ w ∈ (inSessionWaits H s n b mi ri).dropLast, w.LeavesTimeout) ∧
      ((∀ w ∈ termSessionWaits H s n b mi, w.LastsFor mi.toNat) ↔
        ∀ w ∈ (termSessionWaits H s n b mi).dropLast, w.LeavesTimeout) := by
  have hshorter : (if mi < ri then mi else ri).toNat = min mi.toNat ri.toNat := by
    simp only [UInt32.lt_iff_toNat_lt]
    split_ifs <;> omega
  constructor
  · simp only [Wait.lastsFor_iff (Nat.le_min.mpr ⟨hm, hr⟩), inSessionWaits_eq]
    rw [← hshorter]
    exact (keepsTimeout_sessionRound n mi ri).forall_firstWait_iff H n _ _
  · have hstart : (⟨mi.toNat / 1000, mi.toNat % 1000 * 1000⟩ : Timeval) =
        ⟨(mi / 1000).toNat, ((mi % 1000) * 1000).toNat⟩ := by
      have hrest : mi.toNat % 1000 * 1000 < 2 ^ 32 := by omega
      simpa [UInt32.toNat_mul] using (Nat.mod_eq_of_lt hrest).symm
    simp only [Wait.lastsFor_iff hm, termSessionWaits_eq, hstart]
    exact (keepsTimeout_termRound mi).forall_firstWait_iff H n _ _

end Runs

/-! ### Linux -/

/-- The microseconds of a timeout. -/
def Timeval.micros (t : Timeval) : ℕ := t.sec * 1000000 + t.usec

/-- `select` on Linux overwrites the timeout with the time not slept, of which there is none after
a timeout. -/
def linuxSelect : Assumption sysSig
  | .select timeout, some ready =>
    ready.timeout.usec < 1000000 ∧ ready.timeout.micros ≤ timeout.micros ∧
      (ready.readable = false → ready.timeout = ⟨0, 0⟩)
  | _, _ => True

/-- A modem that says nothing while `select` sleeps until it times out, at once on this clock. -/
def asleep : Handler sysSig ℕ where
  answer k
    | .select _ => (some ⟨false, ⟨0, 0⟩⟩, k)
    | c => (quiet fun _ => ⟨0, 0⟩).answer k c

lemma meets_linuxSelect_asleep : asleep.Meets linuxSelect := by
  intro k c
  cases c with
  | select timeout => exact ⟨by decide, Nat.zero_le _, fun _ => rfl⟩
  | _ => trivial

theorem waits_lastFor_iff_asleep :
    ((∀ w ∈ inSessionWaits asleep 0 2 .null 60000 90000, w.LastsFor 60000) ↔
        ∀ w ∈ (inSessionWaits asleep 0 2 .null 60000 90000).dropLast, w.LeavesTimeout) ∧
      ((∀ w ∈ termSessionWaits asleep 0 2 .null 60000, w.LastsFor 60000) ↔
        ∀ w ∈ (termSessionWaits asleep 0 2 .null 60000).dropLast, w.LeavesTimeout) :=
  waits_lastFor_iff asleep 0 2 .null (by decide) (by decide)

/-- After the first timeout `in_session` polls. -/
theorem not_waits_lastFor :
    ¬ ∀ (S : Type) (H : Handler sysSig S) (s : S) (n : ℕ) (b : Buffer) (m r : UInt32),
      1 ≤ m.toNat → 1 ≤ r.toNat → H.Meets linuxSelect →
        (∀ w ∈ inSessionWaits H s n b m r, w.LastsFor (min m.toNat r.toNat)) ∧
          ∀ w ∈ termSessionWaits H s n b m, w.LastsFor m.toNat := by
  intro h
  have hwaits := (h ℕ asleep 0 2 .null 60000 60000 (by decide) (by decide)
    meets_linuxSelect_asleep).1
  rw [inSessionWaits_eq] at hwaits
  have hsecond := hwaits ⟨⟨0, 0⟩, some ⟨false, ⟨0, 0⟩⟩⟩
    (List.mem_cons_of_mem _ List.mem_cons_self)
  exact hsecond.waits rfl

end DlepRouter
