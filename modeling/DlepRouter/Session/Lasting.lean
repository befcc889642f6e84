import DlepRouter.Session.Answers
import DlepRouter.Session.Pace

/-!
# Sessions last

A session is left because of the modem or the system: a wait fails, a message is none of the
session, or the modem is silent for too long. As long as nothing of that happens the session goes
on, and it says nothing but heartbeats and responses to destinations.
-/

namespace DlepRouter

open Interaction Tlv Scan

/-! ### Modems that keep their part -/

/-- A wait that fails. -/
def isFailure : Event sysSig → Bool
  | ⟨.select _, none⟩ => true
  | _ => false

/-- What is heard at each of the wake-ups with something to read. -/
def heardAtWakes : List (Event sysSig) → List (List UInt8)
  | [] => []
  | e :: t =>
    if isReadable e then heardNext (t.flatMap observe) :: heardAtWakes t else heardAtWakes t

/-- How long the modem has been silent at each of the wake-ups with nothing to read. It was heard at
`last`, or `heard` says that it will have been when the clock is read next. -/
def silences (last : Timespec) (heard : Bool) : List (Event sysSig) → List ℤ
  | [] => []
  | ⟨.select _, some ready⟩ :: t => silences last ready.readable t
  | ⟨.clockGettime, now⟩ :: t =>
    if heard then silences now false t else elapsed last now :: silences last false t
  | _ :: t => silences last heard t

/-- No wait fails, the messages are complete and those of a session, and the modem is never silent
for longer than two of its intervals, taken for seconds. -/
structure Kept (mi : UInt32) (t : List (Event sysSig)) : Prop where
  selected : ∀ e ∈ t, isFailure e = false
  normal : ClockNormal t
  understood : ∀ bs ∈ heardAtWakes t, ∃ k, IsSessionMessage k bs
  attended : ∀ d ∈ silences ⟨0, 0⟩ true t, d ≤ seconds (mi * 2).toNat

section Silences

variable {last : Timespec} {heard : Bool} {t t' : List (Event sysSig)}

lemma silences_append_of_calm (h : ∀ e ∈ t, e.op.Calm) :
    silences last heard (t ++ t') = silences last heard t' := by
  induction t with
  | nil => rfl
  | cons e t ih =>
    obtain ⟨hcalm, hrest⟩ := List.forall_mem_cons.mp h
    obtain ⟨c, r⟩ := e
    cases c with
    | select timeout | clockGettime => exact hcalm.elim
    | _ => exact ih hrest

lemma silences_subset_append : silences last heard t ⊆ silences last heard (t ++ t') := by
  induction t generalizing last heard with
  | nil => exact List.nil_subset _
  | cons e t ih =>
    obtain ⟨c, r⟩ := e
    cases c with
    | select timeout => cases r <;> exact ih
    | clockGettime =>
      cases heard with
      | false => exact List.cons_subset_cons _ ih
      | true => exact ih
    | _ => exact ih

lemma heardAtWakes_append : heardAtWakes t' ⊆ heardAtWakes (t ++ t') := by
  induction t with
  | nil => exact List.Subset.refl _
  | cons e t ih =>
    rw [List.cons_append, heardAtWakes]
    split_ifs
    · exact List.subset_cons_of_subset _ ih
    · exact ih

end Silences

/-- Nothing is heard when the socket is closed. -/
lemma heardAtWakes_close (t : List (Event sysSig)) (r : SysCall.close.Answer) :
    heardAtWakes (t ++ [⟨.close, r⟩]) = heardAtWakes t := by
  induction t with
  | nil => rfl
  | cons e t ih =>
    have hobs : List.flatMap observe (t ++ [⟨.close, r⟩]) = t.flatMap observe := by
      rw [List.flatMap_append]
      exact List.append_nil _
    rw [List.cons_append, heardAtWakes, heardAtWakes, hobs, ih]

/-- The modem was last heard at `last`. -/
structure Since (last : Timespec) (t : List (Event sysSig)) : Prop where
  mem : last ∈ clockReadings t
  silences : ∃ ds, ∀ t', silences ⟨0, 0⟩ true (t ++ t') = ds ++ DlepRouter.silences last false t'

namespace Since

variable {last now : Timespec} {timeout : Timeval} {ready : Selected} {t t' : List (Event sysSig)}

lemma start : Since now [⟨.clockGettime, now⟩] where
  mem := List.mem_singleton_self now
  silences := ⟨[], fun _ => rfl⟩

/-- A wake-up with nothing to read does not change that. -/
lemma wait (h : Since last t) (hready : ready.readable = false) (hcalm : ∀ e ∈ t', e.op.Calm) :
    Since last (t ++ ⟨.select timeout, some ready⟩ :: ⟨.clockGettime, now⟩ :: t') := by
  obtain ⟨hmem, ds, hds⟩ := h
  refine ⟨?_, ds ++ [elapsed last now], ?_⟩
  · rw [clockReadings_append]
    exact List.mem_append_left _ hmem
  · intro t''
    rw [List.append_assoc, hds, List.append_assoc]
    simp only [List.cons_append, DlepRouter.silences, hready, silences_append_of_calm hcalm]
    rfl

/-- At one with something to read, the modem is heard. -/
lemma hear (h : Since last t) (hready : ready.readable = true) (hcalm : ∀ e ∈ t', e.op.Calm) :
    Since now (t ++ ⟨.select timeout, some ready⟩ :: ⟨.clockGettime, now⟩ :: t') := by
  obtain ⟨-, ds, hds⟩ := h
  refine ⟨?_, ds, ?_⟩
  · simp
  · intro t''
    rw [List.append_assoc, hds]
    simp only [List.cons_append, DlepRouter.silences, hready, silences_append_of_calm hcalm]
    rfl

/-- The silence at a wake-up is one of those that count. -/
lemma elapsed_mem (h : Since last t) (hready : ready.readable = false) :
    elapsed last now ∈ DlepRouter.silences ⟨0, 0⟩ true
      (t ++ ⟨.select timeout, some ready⟩ :: ⟨.clockGettime, now⟩ :: t') := by
  obtain ⟨-, ds, hds⟩ := h
  rw [hds, DlepRouter.silences, hready]
  exact List.mem_append_right _ List.mem_cons_self

end Since

/-! ### In session -/

section Lasting

variable {ok : Assumption sysSig}

/-- A message that is handled makes calls of `send` only. -/
lemma ensures_handleMessage_calm (n : ℕ) (b : Buffer) (len : ℕ) (mi : UInt32) :
    (handleMessage n b len mi).Ensures ok fun r t => r = some 1 → ∀ e ∈ t, e.op.Sends := by
  apply Program.Ensures.bind (onlyCalls_scan b.octets (dispatch len))
  intro verdict t ht
  cases verdict with
  | respond =>
    apply ensures_sendSessionTermResp.mono
    rintro r t' ⟨hr, -⟩ hone
    exact absurd hone hr
  | status sc =>
    dsimp only
    split_ifs
    · apply (ensures_sendSessionTerm n sc b mi).mono
      rintro r t' ⟨hr, -⟩ hone
      exact absurd hone hr
    · intro _
      rwa [List.append_nil]

/-- A heartbeat does not come between a wake-up and what is heard then. -/
lemma ensures_heartbeatIfDue_heardNext (ri : UInt32) (nowTime : Timespec) (st : SessionState) :
    (heartbeatIfDue ri nowTime st).Ensures ok fun st' t =>
      st'.lastRecvTime = st.lastRecvTime ∧
        ∀ w, heardNext (t.flatMap observe ++ w) = heardNext w := by
  unfold heartbeatIfDue
  split_ifs
  · rw [sendHeartbeat, heartbeatMessage_eq, Program.bind_assoc]
    apply Program.Ensures.bind (ensures_send_observed heartbeat)
    intro taken t ht
    refine ⟨rfl, ?_⟩
    intro w
    rw [List.flatMap_append, ht]
    exact heardNext_said not_isTermType_heartbeat.1
  · exact ⟨rfl, fun _ => rfl⟩

/-- What `recv_message` fails on is no message. -/
lemma not_isSessionMessage_of_unreceived {b : Buffer} {r : Option ℕ × Buffer}
    {t : List (Event sysSig)} (hrecv : (recvMessage b).Path ok r t)
    (hnone : r.1 = none ∨ r.1 = some 0) (k : SessionMessage) :
    ¬ IsSessionMessage k (heardNext (t.flatMap observe)) := by
  intro hk
  obtain ⟨bs, hobs, hincomplete, hstored⟩ := (ensures_recvMessage_hears b).of_path hrecv
  rw [hobs, ← List.append_nil (heard bs), heardNext_heard_append, heardNext, List.append_nil] at hk
  exact incomplete_of_none hnone hincomplete hstored _ hk.announces.isComplete

/-- A message for which the session is left is none of the session. -/
lemma not_isSessionMessage_of_left {n len : ℕ} {b b' : Buffer} {mi : UInt32} {r : Option ℤ}
    {t t' : List (Event sysSig)} (hrecv : (recvMessage b).Path ok (some len, b') t)
    (hhandled : (handleMessage n b' len mi).Path ok r t') (hr : r ≠ some 1) (k : SessionMessage) :
    ¬ IsSessionMessage k (heardNext ((t ++ t').flatMap observe)) := by
  intro hk
  obtain ⟨bs, hobs, -, hstored⟩ := (ensures_recvMessage_hears b).of_path hrecv
  obtain ⟨rfl, hstored⟩ := hstored len rfl
  have hrefused : ¬ Continues b'.octets bs.length := by
    rcases (ensures_handleMessage n b' _ mi).of_path hhandled with ⟨-, hone, -⟩ | ⟨hc, -⟩
    · exact absurd hone hr
    · exact hc
  obtain ⟨q, hrun, hq⟩ := (refines_handleMessage_refused [] 0 mi hrefused).of_path hhandled
  obtain ⟨hnext, -⟩ := pays_of_run hrun hq (isTermType_closingMessage _)
  rw [List.flatMap_append, hobs, heardNext_heard_append, hnext, List.append_nil] at hk
  exact hrefused (understood_iff.mp (hk.understood hstored)).1

/-- A round goes on if the modem and the system keep their part. -/
lemma ensures_sessionRound_lasts (n : ℕ) (mi ri : UInt32) (st : SessionState)
    {t : List (Event sysSig)} (h : Since st.lastRecvTime t) :
    (sessionRound n mi ri st).Ensures ok fun r t' =>
      Sum.elim (fun st' => Since st'.lastRecvTime (t ++ t')) (fun _ => ¬ Kept mi (t ++ t')) r := by
  apply (ensures_sessionRound_goes n mi ri st).mono
  intro r t' hround
  cases hround with
  | unselected =>
    intro hkept
    cases hkept.selected ⟨.select st.timeout, none⟩ (by simp)
  | @woken ready nowTime st' v t₁ t₂ hheartbeat hwoken =>
    obtain ⟨hrecv, hnext⟩ := (ensures_heartbeatIfDue_heardNext ri nowTime _).of_path hheartbeat
    have hcalm : ∀ e ∈ t₁, e.op.Calm := fun e he =>
      ((onlyCalls_heartbeatIfDue ri nowTime _).of_path hheartbeat e he).calm
    have hmem : ready.readable = true → heardNext (t₂.flatMap observe) ∈ heardAtWakes
        (t ++ ⟨.select st.timeout, some ready⟩ :: ⟨.clockGettime, nowTime⟩ :: (t₁ ++ t₂)) := by
      intro hready
      have hwake : isReadable ⟨.select st.timeout, some ready⟩ = true := hready
      apply heardAtWakes_append
      rw [heardAtWakes, if_pos hwake, List.flatMap_cons, List.flatMap_append]
      exact List.mem_cons.mpr (.inl (hnext _).symm)
    cases hwoken with
    | expired hidle hdue =>
      intro hkept
      rw [hrecv, intervalCompare_pos_iff (hkept.normal _ (by simp [h.mem]))
        (hkept.normal _ (by simp))] at hdue
      exact absurd (hkept.attended _ (h.elapsed_mem hidle)) (not_le.mpr hdue)
    | idle hidle =>
      rw [Sum.elim_inl, hrecv, List.append_nil]
      exact h.wait hidle hcalm
    | unreceived hready hpath hnone =>
      intro hkept
      obtain ⟨k, hk⟩ := hkept.understood _ (hmem hready)
      exact not_isSessionMessage_of_unreceived hpath hnone k hk
    | left hready hpath _ hhandled hr =>
      intro hkept
      obtain ⟨k, hk⟩ := hkept.understood _ (hmem hready)
      exact not_isSessionMessage_of_left hpath hhandled hr k hk
    | @handled len b t₂ t₃ hready hpath _ hhandled =>
      refine h.hear hready ?_
      intro e he
      rcases List.mem_append.mp he with he | he
      · exact hcalm e he
      · rcases List.mem_append.mp he with he | he
        · exact ((onlyCalls_recvMessage _).of_path hpath e he).calm
        · exact ((ensures_handleMessage_calm n b len mi).of_path hhandled rfl e he).calm

lemma ensures_inSession_lasts (n : ℕ) (b : Buffer) (mi ri : UInt32) :
    (inSession n b mi ri).Ensures ok fun r t => Kept mi t → r = none ∧ Steady (sends t) := by
  apply ensures_call_bind
  intro nowTime _
  refine Program.ensures_forever
    (I := fun (st : SessionState) t => Since st.lastRecvTime t ∧ Steady (sends t))
    (Q := fun r t => Kept mi t → r = none ∧ Steady (sends t)) ?_ ?_ n _
    [⟨.clockGettime, nowTime⟩] ⟨.start, steady_nil⟩
  · rintro st t ⟨-, hsteady⟩ _
    exact ⟨rfl, hsteady⟩
  · rintro st t ⟨hsince, hsteady⟩
    apply ((ensures_sessionRound_lasts n mi ri st hsince).and
      (ensures_sessionRound n mi ri st)).mono
    rintro r t' ⟨hlasts, hsends⟩
    cases r with
    | inl st' =>
      refine ⟨hlasts, ?_⟩
      rw [sends_append]
      exact hsteady.append hsends
    | inr v => exact fun hkept => absurd hkept hlasts

/-! ### The whole session -/

/-- What is kept over a whole session is kept in its later part. -/
lemma Kept.of_append {mi : UInt32} {t t' : List (Event sysSig)} (h : Kept mi (t ++ t'))
    (hcalm : ∀ e ∈ t, e.op.Calm) : Kept mi t' where
  selected := fun e he => h.selected e (List.mem_append_right _ he)
  normal := h.normal.of_append.2
  understood := fun bs hbs => h.understood bs (heardAtWakes_append hbs)
  attended := by
    rw [← silences_append_of_calm hcalm]
    exact h.attended

/-- The opening leads into the session, with this interval of the modem. -/
def Opening.Enters (mi : UInt32) : Opening → Prop
  | accepted _ _ resp => resp.sc = 0 ∧ resp.heartbeatInterval = mi
  | _ => False

instance (mi : UInt32) : DecidablePred (Opening.Enters mi)
  | .accepted _ _ _ => inferInstanceAs (Decidable (_ ∧ _))
  | .noSocket | .unconnected | .unanswered | .rejected => .isFalse id

lemma Kept.of_close {mi : UInt32} {t : List (Event sysSig)} {r : SysCall.close.Answer}
    (h : Kept mi (t ++ [⟨.close, r⟩])) : Kept mi t where
  selected := fun e he => h.selected e (List.mem_append_left _ he)
  normal := h.normal.of_append.1
  understood := by
    rw [← heardAtWakes_close t r]
    exact h.understood
  attended := fun d hd => h.attended d (silences_subset_append hd)

lemma ensures_runSession_lasts (n : ℕ) (b : Buffer) (resp : InitResp) (ri : UInt32)
    (h : resp.sc = 0) : (runSession n b .success resp ri >>= closeSession).Ensures ok fun r t =>
      Kept resp.heartbeatInterval t → r = none ∧ Steady (sends t) := by
  have hsuccess : resp.sc = StatusCode.success.code := h
  rw [runSession, if_neg (by simp), if_neg (not_not.mpr hsuccess)]
  apply (ensures_inSession_lasts n b _ ri).bind
  intro ret t hlasts
  cases ret with
  | none =>
    intro hkept
    rw [List.append_nil] at hkept ⊢
    exact hlasts hkept
  | some ret =>
    intro _ _ hkept
    cases (hlasts hkept.of_close).1

end Lasting

/-- A session that has been entered goes on, round after round, and says nothing but heartbeats and
responses to destinations, as long as its waits do not fail, its messages are complete and those of
a session, and the modem is never silent for longer than two of its intervals. -/
theorem session_lasts {S : Type} (H : Handler sysSig S) (s : S) (n : ℕ) (modemAddress : List UInt8)
    (routerHeartbeatInterval mi : UInt32)
    (henters : ((openSession modemAddress routerHeartbeatInterval).run H s).value.Enters mi)
    (hkept : Kept mi ((session n modemAddress routerHeartbeatInterval).run H s).trace) :
    ((session n modemAddress routerHeartbeatInterval).run H s).value = none ∧
      ∃ msgs, Steady msgs ∧ sends ((session n modemAddress routerHeartbeatInterval).run H s).trace =
        sessionInitMessage peerType routerHeartbeatInterval :: msgs := by
  have hopen := (ensures_openSession modemAddress routerHeartbeatInterval).run_any H s
  have hcalm := (onlyCalls_openSession modemAddress routerHeartbeatInterval).run_any H s
  rw [session, Program.run_bind] at hkept ⊢
  generalize (openSession modemAddress routerHeartbeatInterval).run H s = o at *
  cases ho : o.value with
  | accepted b sc resp =>
    rw [ho] at hopen henters hkept
    obtain ⟨hinit, rfl, -⟩ := hopen
    obtain ⟨hstatus, rfl⟩ := henters
    have hlasts := (ensures_runSession_lasts n b resp routerHeartbeatInterval hstatus).run_any H
      o.state (hkept.of_append hcalm)
    exact ⟨hlasts.1, _, hlasts.2, (sends_append _ _).trans (congrArg (· ++ _) hinit)⟩
  | _ =>
    rw [ho] at henters
    exact henters.elim

/-- The modem is heard at two of four wake-ups. -/
def attentiveModem : Script where
  readable := [true, false, true, false]
  clock := [⟨0, 0⟩, ⟨1, 0⟩, ⟨3, 0⟩, ⟨4, 0⟩, ⟨5, 500000000⟩]
  received := minimalResponse ++ [heartbeat, heartbeat]
  taken := []

lemma isSessionMessage_heartbeat : IsSessionMessage .heartbeat heartbeat where
  announces := ⟨by decide, by decide, by decide⟩
  tiles := congrArg Prod.snd Format.decode_nil
  accepts := by
    have hitems : (dataItemFormat.decode (heartbeat.drop 4)).1 = [] :=
      congrArg Prod.fst Format.decode_nil
    rw [hitems]
    decide

set_option maxRecDepth 10000 in
/-- The silences of two seconds and of one and a half are not too long for an interval of one. -/
theorem session_lasts_attentiveModem :
    ((session 4 [] 1).run scripted attentiveModem).value = none ∧
      ∃ msgs, Steady msgs ∧ sends ((session 4 [] 1).run scripted attentiveModem).trace =
        sessionInitMessage peerType 1 :: msgs := by
  have hheard : heardAtWakes ((session 4 [] 1).run scripted attentiveModem).trace =
      [heartbeat, heartbeat] := by
    decide +kernel
  refine session_lasts scripted attentiveModem 4 [] 1 1 (by decide +kernel) ?_
  refine ⟨by decide +kernel, by decide +kernel, ?_, by decide +kernel⟩
  rw [hheard]
  intro bs hbs
  refine ⟨.heartbeat, ?_⟩
  rcases List.mem_pair.mp hbs with rfl | rfl <;> exact isSessionMessage_heartbeat

end DlepRouter
