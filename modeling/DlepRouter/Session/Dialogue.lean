import DlepRouter.Interaction.Refinement
import DlepRouter.Session.Protocol
import DlepRouter.Session.Receiving

/-!
# The dialogue with a modem

What passes between a router and a modem, seen from outside: octets that are heard, messages that
are said, and waits that come to an end. `Turn` is the dialogue that a session is meant to hold. It
knows nothing of buffers, of clocks and of how the validators and parsers work: a message is
understood if its data items are those of its kind, and it is then answered for its data items.
Every session refines it, whatever the modem and the system do.
-/

namespace DlepRouter

open Interaction Tlv Scan

/-! ### Observations -/

/-- What can be observed of a session. A message that is said was taken in full or it was not. -/
inductive Observation where
  | called : (address : List UInt8) → (connected : Bool) → Observation
  | woke
  | heard : UInt8 → Observation
  | said : (msg : List UInt8) → (taken : Bool) → Observation

/-- What an event shows. -/
def observe : Event sysSig → List Observation
  | ⟨.connect address, connected⟩ => [.called address connected]
  | ⟨.select _, some _⟩ => [.woke]
  | ⟨.recv _, some bs⟩ => bs.val.map .heard
  | ⟨.send msg, sent⟩ => [.said msg (sent.map Fin.val = some msg.length)]
  | _ => []

/-- Octets that are heard. -/
abbrev heard (bs : List UInt8) : List Observation := bs.map .heard

/-! ### The dialogue -/

/-- The phases of a dialogue. In `answering` and `closing` there is something left to say. -/
inductive Phase where
  | connecting
  | connected
  | initiating
  | inSession
  | awake
  | attentive
  | answering : (owed : List (List UInt8)) → Phase
  | closing : (owed : List UInt8) → Phase
  | terminating
  | ended
  | failed

/-- How a session ends that has come to a phase: it returns 0 or -1, or it is cut off between two
rounds of its loop. -/
def Phase.Yields : Phase → Option ℤ → Prop
  | ended, r => r = some 0
  | failed, r => r = some (-1)
  | inSession, r | terminating, r => r = none
  | _, _ => False

/-- The octets heard may be no complete message. -/
def Incomplete (bs : List UInt8) : Prop :=
  ∀ type, ¬ IsComplete type bs

/-- A message that begins with the octets heard is stored in `m`. -/
def Stored (bs : List UInt8) (m : Memory UInt8) : Prop :=
  m.slice 0 bs.length = bs

/-- The message is a response to the initialization that has the right data items, and among them
this status. -/
structure Agreed (m : Memory UInt8) (len : ℕ) (status : UInt8) : Prop where
  headed : Headed m len .sessionInitResp
  accepts : MessageKind.sessionInitResp.contents.Accepts (dataItemFormat.items m len 4)
  status : HasStatus (dataItemFormat.items m len 4) status

/-- The message is one of the session that has the right data items, and `answers` are those to its
data items. -/
def Understood (m : Memory UInt8) (len : ℕ) (answers : List (List UInt8)) : Prop :=
  ∃ k : SessionMessage, Headed m len k.kind.messageType ∧
    k.kind.contents.Accepts (dataItemFormat.items m len 4) ∧
    answers = k.answers (dataItemFormat.items m len 4)

/-- One turn of the dialogue. What lies behind the octets that were heard is not known, but a
message is understood as it is stored. -/
inductive Turn (modemAddress : List UInt8) (routerHeartbeatInterval : UInt32) :
    Machine Phase Observation where
  | noSocket : Turn modemAddress routerHeartbeatInterval .connecting [] .failed
  | unconnected : Turn modemAddress routerHeartbeatInterval .connecting
      [.called modemAddress false] .failed
  | connects : Turn modemAddress routerHeartbeatInterval .connecting
      [.called modemAddress true] .connected
  | uninitiated : Turn modemAddress routerHeartbeatInterval .connected
      [.said (sessionInitMessage peerType routerHeartbeatInterval) false] .failed
  | initiated : Turn modemAddress routerHeartbeatInterval .connected
      [.said (sessionInitMessage peerType routerHeartbeatInterval) true] .initiating
  | unanswered {bs : List UInt8} (h : Incomplete bs) :
    Turn modemAddress routerHeartbeatInterval .initiating (heard bs) .failed
  | rejected {bs : List UInt8} {m : Memory UInt8} (hstored : Stored bs m)
    (h : ∀ status, ¬ Agreed m bs.length status) :
    Turn modemAddress routerHeartbeatInterval .initiating (heard bs) .failed
  | agreed {bs : List UInt8} {m : Memory UInt8} (hstored : Stored bs m)
    (h : Agreed m bs.length 0) :
    Turn modemAddress routerHeartbeatInterval .initiating (heard bs) .inSession
  | declined {bs : List UInt8} {m : Memory UInt8} {status : UInt8} (hstored : Stored bs m)
    (h : Agreed m bs.length status) (hstatus : status ≠ 0) :
    Turn modemAddress routerHeartbeatInterval .initiating (heard bs) (.closing (termination 255))
  | unselected : Turn modemAddress routerHeartbeatInterval .inSession [] .failed
  | wakes : Turn modemAddress routerHeartbeatInterval .inSession [.woke] .awake
  | beats (taken : Bool) :
    Turn modemAddress routerHeartbeatInterval .awake [.said heartbeat taken] .attentive
  | keepsStill : Turn modemAddress routerHeartbeatInterval .awake [] .attentive
  | waits : Turn modemAddress routerHeartbeatInterval .attentive [] .inSession
  | timesOut : Turn modemAddress routerHeartbeatInterval .attentive [] (.closing (termination 132))
  | breaksOff {bs : List UInt8} (h : Incomplete bs) :
    Turn modemAddress routerHeartbeatInterval .attentive (heard bs) .failed
  | understands {bs : List UInt8} {m : Memory UInt8} {answers : List (List UInt8)}
    (hstored : Stored bs m) (h : Understood m bs.length answers) :
    Turn modemAddress routerHeartbeatInterval .attentive (heard bs) (.answering answers)
  | refuses {bs : List UInt8} {m : Memory UInt8} (hstored : Stored bs m) (hbs : bs ≠ [])
    (h : ∀ answers, ¬ Understood m bs.length answers) :
    Turn modemAddress routerHeartbeatInterval .attentive (heard bs)
      (.closing (closingMessage (bigEndian (m.slice 0 2))))
  | answers (msg : List UInt8) (owed : List (List UInt8)) (taken : Bool) :
    Turn modemAddress routerHeartbeatInterval (.answering (msg :: owed)) [.said msg taken]
      (.answering owed)
  | answered : Turn modemAddress routerHeartbeatInterval (.answering []) [] .inSession
  | unclosed {msg : List UInt8} :
    Turn modemAddress routerHeartbeatInterval (.closing msg) [.said msg false] .failed
  | acknowledges : Turn modemAddress routerHeartbeatInterval (.closing terminationResp)
      [.said terminationResp true] .ended
  | unallocated {status : UInt8} :
    Turn modemAddress routerHeartbeatInterval (.closing (termination status)) [] .failed
  | terminates {status : UInt8} :
    Turn modemAddress routerHeartbeatInterval (.closing (termination status))
      [.said (termination status) true] .terminating
  | idles : Turn modemAddress routerHeartbeatInterval .terminating [.woke] .terminating
  | givesUp : Turn modemAddress routerHeartbeatInterval .terminating [.woke] .failed
  | unwatched : Turn modemAddress routerHeartbeatInterval .terminating [] .failed
  | hearsNothing {bs : List UInt8} (h : Incomplete bs) :
    Turn modemAddress routerHeartbeatInterval .terminating (.woke :: heard bs) .failed
  | hears {bs : List UInt8} (hbs : bs ≠ []) :
    Turn modemAddress routerHeartbeatInterval .terminating (.woke :: heard bs) .ended

/-! ### Messages that are understood -/

section Understood

variable {m : Memory UInt8} {len : ℕ}

/-- A session goes on after the messages that are understood, and answers as it should. -/
lemma understood_iff {answers : List (List UInt8)} : Understood m len answers ↔
    Continues m len ∧ answers = responses ((dispatch len).outputs m) := by
  constructor
  · rintro ⟨k, hhead, hacc, rfl⟩
    have hsc := (k.kind.check_eq_success_iff m len).mpr ⟨hhead, hacc⟩
    exact ⟨⟨k, hhead.2.1, hsc⟩, (responses_dispatch m len hhead.2.1 hsc).symm⟩
  · rintro ⟨⟨k, htype, hsc⟩, rfl⟩
    obtain ⟨hhead, hacc⟩ := (k.kind.check_eq_success_iff m len).mp hsc
    exact ⟨k, hhead, hacc, responses_dispatch m len htype hsc⟩

lemma not_understood (h : ¬ Continues m len) (answers : List (List UInt8)) :
    ¬ Understood m len answers := by
  intro hunderstood
  exact h (understood_iff.mp hunderstood).1

/-- A response is agreed to exactly if the validator accepts it and it has the status. -/
lemma agreed_iff {status : UInt8} : Agreed m len status ↔
    (checkSessionInitRespMessage len).value m = .success ∧
      HasStatus (dataItemFormat.items m len 4) status := by
  have hcheck := MessageKind.sessionInitResp.check_eq_success_iff m len
  constructor
  · rintro ⟨hhead, hacc, hstatus⟩
    exact ⟨hcheck.mpr ⟨hhead, hacc⟩, hstatus⟩
  · rintro ⟨hsc, hstatus⟩
    obtain ⟨hhead, hacc⟩ := hcheck.mp hsc
    exact ⟨hhead, hacc, hstatus⟩

end Understood

/-! ### What the functions of a session show -/

section Observed

variable {ok : Assumption sysSig}

lemma ensures_send_observed (msg : List UInt8) :
    (Sys.send msg).Ensures ok fun taken t => t.flatMap observe = [.said msg taken] :=
  fun _ _ => rfl

/-- A scan that responds to nothing makes no calls. -/
lemma ensures_scan_silent {α : Type} {m : Memory UInt8} {p : Reader α}
    (h : responses (p.outputs m) = []) :
    (scan m p).Ensures ok fun a t => a = p.value m ∧ t = [] := by
  rw [scan_eq, h]
  exact ⟨rfl, rfl⟩

/-- Calls that receive show the octets received. -/
lemma heard_receivedFrom {t : List (Event sysSig)} (h : ∀ e ∈ t, e.op.Receives)
    (acc : List UInt8) : heard (receivedFrom acc t) = heard acc ++ t.flatMap observe := by
  induction t generalizing acc with
  | nil => exact (List.append_nil _).symm
  | cons e t ih =>
    obtain ⟨hop, hrest⟩ := List.forall_mem_cons.mp h
    obtain ⟨c, r⟩ := e
    cases c with
    | realloc n => exact ih hrest acc
    | recv n =>
      cases r with
      | none => exact ih hrest acc
      | some bs =>
        rw [receivedFrom, ih hrest, List.flatMap_cons, ← List.append_assoc]
        exact congrArg (· ++ t.flatMap observe) List.map_append
    | _ => exact hop.elim

/-- What is heard is stored, or it is incomplete. -/
lemma ensures_recvMessage_hears (b : Buffer) :
    (recvMessage b).Ensures ok fun r t => ∃ bs, t.flatMap observe = heard bs ∧
      (r.1 = none → Incomplete bs) ∧
      ∀ len, r.1 = some len → len = bs.length ∧ Stored bs r.2.octets := by
  apply ((ensures_recvMessage_receipt b).and (onlyCalls_recvMessage b)).mono
  rintro r t ⟨hreceipt, hcalls⟩
  refine ⟨received t, (heard_receivedFrom hcalls []).symm, hreceipt.incomplete, ?_⟩
  intro len hlen
  have hlength := hreceipt.length len hlen
  refine ⟨hlength.symm, ?_⟩
  rw [Stored, hlength]
  exact hreceipt.stored len hlen

/-- A failure or the end of the stream leaves no complete message. -/
lemma incomplete_of_none {r : Option ℕ × Buffer} {bs : List UInt8} (h : r.1 = none ∨ r.1 = some 0)
    (hnone : r.1 = none → Incomplete bs)
    (hsome : ∀ len, r.1 = some len → len = bs.length ∧ Stored bs r.2.octets) :
    Incomplete bs := by
  rcases h with h | h
  · exact hnone h
  · have hnil := List.length_eq_zero_iff.mp (hsome 0 h).1.symm
    exact hnil ▸ not_isComplete_nil

end Observed

/-! ### Refinement of the dialogue -/

section Refinement

open Program (Refines)

variable {ok : Assumption sysSig} (address : List UInt8) (ri : UInt32)

/-- A run that has come to an end does not go on. -/
lemma Phase.Yields.ne {q : Phase} {r : Option ℤ} (h : q.Yields r) : r ≠ some 1 := by
  rintro rfl
  cases q <;> cases h

/-- What is owed is said in its order. -/
lemma refines_sendAll (msgs : List (List UInt8)) :
    (sendAll msgs).Refines ok (Turn address ri) observe (.answering msgs)
      fun _ q => q = .inSession := by
  induction msgs with
  | nil => exact ⟨.inSession, .single .answered, rfl⟩
  | cons msg msgs ih =>
    have hsend : (Sys.send msg).Refines ok (Turn address ri) observe (.answering (msg :: msgs))
        fun _ q => q = .answering msgs := by
      apply (ensures_send_observed msg).refines
      intro taken t ht
      rw [ht]
      exact ⟨.answering msgs, .single (.answers msg msgs taken), rfl⟩
    apply hsend.bind
    rintro _ _ rfl
    exact ih

lemma refines_sendSessionTermResp :
    sendSessionTermResp.Refines ok (Turn address ri) observe (.closing terminationResp)
      (fun r q => q.Yields r) := by
  rw [sendSessionTermResp, sessionTermRespMessage_eq]
  apply Program.Ensures.bind (ensures_send_observed terminationResp)
  intro taken t ht
  cases taken with
  | false => exact ⟨.failed, by simpa [ht] using .single .unclosed, rfl⟩
  | true => exact ⟨.ended, by simpa [ht] using .single .acknowledges, rfl⟩

/-- A round of the termination state waits on, or it comes to an end. -/
lemma refines_termRound (mi : UInt32) (st : TermState) :
    (termRound mi st).Refines ok (Turn address ri) observe .terminating fun r q =>
      Sum.elim (fun _ => q = .terminating) (fun v => q.Yields v) r := by
  apply (ensures_termRound_goes mi st).refines
  intro r t h
  cases h with
  | unselected => exact ⟨.failed, .single .unwatched, rfl⟩
  | woken ready nowTime hwoken =>
    cases hwoken with
    | expired => exact ⟨.failed, .single .givesUp, rfl⟩
    | idle => exact ⟨.terminating, .single .idles, rfl⟩
    | unreceived _ hrecv hnone =>
      obtain ⟨bs, hobs, hincomplete, hstored⟩ := (ensures_recvMessage_hears _).of_path hrecv
      have hbs := incomplete_of_none hnone hincomplete hstored
      refine ⟨.failed, ?_, rfl⟩
      simpa [observe, hobs] using .single (.hearsNothing hbs)
    | received _ hrecv hpos =>
      obtain ⟨bs, hobs, -, hstored⟩ := (ensures_recvMessage_hears _).of_path hrecv
      have hbs : bs ≠ [] := by
        rintro rfl
        exact hpos (hstored _ rfl).1
      refine ⟨.ended, ?_, rfl⟩
      simpa [observe, hobs] using .single (.hears hbs)

lemma refines_termSession (n : ℕ) (b : Buffer) (mi : UInt32) :
    (termSession n b mi).Refines ok (Turn address ri) observe .terminating
      (fun r q => q.Yields r) := by
  apply Refines.call
  intro nowTime _
  refine ⟨.terminating, .refl _, ?_⟩
  apply Refines.forever (I := fun _ q => q = .terminating)
  · rintro st _ rfl
    exact rfl
  · rintro st _ rfl
    exact refines_termRound address ri mi st
  · rfl

lemma refines_sendSessionTerm (n : ℕ) (sc : StatusCode) (b : Buffer) (mi : UInt32) :
    (sendSessionTerm n sc b mi).Refines ok (Turn address ri) observe
      (.closing (termination sc.code)) (fun r q => q.Yields r) := by
  apply (ensures_sendSessionTerm_goes n sc b mi).refines
  intro r t h
  cases h with
  | unallocated => exact ⟨.failed, .single .unallocated, rfl⟩
  | unsent fresh hsend =>
    have ht := (ensures_send_observed _).of_path hsend
    rw [sessionTermMessage_eq] at ht
    exact ⟨.failed, by simpa [observe, ht] using .single .unclosed, rfl⟩
  | @sent fresh b' r t t' hsend hterm =>
    have ht := (ensures_send_observed _).of_path hsend
    rw [sessionTermMessage_eq] at ht
    obtain ⟨q, hrun, hq⟩ := (refines_termSession address ri n b' mi).of_path hterm
    refine ⟨q, ?_, hq⟩
    simpa [observe, ht] using Machine.Run.step .terminates hrun

/-! ### In session -/

/-- A message that is understood is answered. -/
lemma refines_handleMessage_continues {n : ℕ} {b : Buffer} {len : ℕ} (mi : UInt32)
    (hc : Continues b.octets len) :
    (handleMessage n b len mi).Refines ok (Turn address ri) observe
      (.answering (responses ((dispatch len).outputs b.octets)))
      fun r q => r = some 1 ∧ q = .inSession := by
  unfold handleMessage
  rw [scan_eq, Program.bind_assoc]
  apply (refines_sendAll address ri _).bind
  rintro _ _ rfl
  rw [Program.pure_eq_ret, Program.ret_bind, hc.value_dispatch]
  exact .ret ⟨rfl, rfl⟩

/-- Another one is not, and closes the session. -/
lemma refines_handleMessage_refused {n : ℕ} {b : Buffer} {len : ℕ} (mi : UInt32)
    (hc : ¬ Continues b.octets len) :
    (handleMessage n b len mi).Refines ok (Turn address ri) observe
      (.closing (closingMessage (bigEndian (b.octets.slice 0 2)))) (fun r q => q.Yields r) := by
  obtain ⟨hends, hclosing, -, hresp⟩ := refused hc
  rw [← hclosing]
  apply Program.Ensures.bind (ensures_scan_silent hresp)
  rintro _ _ ⟨rfl, rfl⟩
  simp only [List.nil_append]
  cases hv : (dispatch len).value b.octets with
  | respond => exact refines_sendSessionTermResp address ri
  | status sc =>
    have hge : sc ≠ .success ∧ StatusCode.unknownMessage.code ≤ sc.code := by rwa [hv] at hends
    dsimp only
    rw [if_pos hge]
    exact refines_sendSessionTerm address ri n sc b mi

lemma refines_heartbeatIfDue (nowTime : Timespec) (st : SessionState) :
    (heartbeatIfDue ri nowTime st).Refines ok (Turn address ri) observe .awake
      fun _ q => q = .attentive := by
  unfold heartbeatIfDue
  split_ifs
  · rw [sendHeartbeat, heartbeatMessage_eq, Program.bind_assoc]
    apply Program.Ensures.bind (ensures_send_observed heartbeat)
    intro taken t ht
    exact ⟨.attentive, by simpa [ht] using .single (.beats taken), rfl⟩
  · exact ⟨.attentive, .single .keepsStill, rfl⟩

/-- What follows a wake-up and its heartbeat: the next wait or the end. -/
lemma SessionWoken.run {n : ℕ} {mi : UInt32} {ready : Selected} {nowTime : Timespec}
    {st : SessionState} {v : SessionState ⊕ Option ℤ} {t : List (Event sysSig)}
    (h : SessionWoken ok n mi ready nowTime st v t) :
    ∃ q, (Turn address ri).Run .attentive (t.flatMap observe) q ∧
      Sum.elim (fun _ => q = .inSession) (fun r => q.Yields r) v := by
  cases h with
  | expired _ _ hterm =>
    obtain ⟨q, hrun, hq⟩ := (refines_sendSessionTerm address ri n .timedOut _ mi).of_path hterm
    exact ⟨q, .step .timesOut hrun, hq⟩
  | idle => exact ⟨.inSession, .single .waits, rfl⟩
  | unreceived _ hrecv hnone =>
    obtain ⟨bs, hobs, hincomplete, hstored⟩ := (ensures_recvMessage_hears _).of_path hrecv
    rw [hobs]
    exact ⟨.failed, .single (.breaksOff (incomplete_of_none hnone hincomplete hstored)), rfl⟩
  | @left len b r t₁ t₂ _ hrecv hpos hhandled hr =>
    obtain ⟨bs, hobs, -, hstored⟩ := (ensures_recvMessage_hears _).of_path hrecv
    obtain ⟨rfl, hstored⟩ := hstored len rfl
    by_cases hc : Continues b.octets bs.length
    · obtain ⟨-, -, hone, -⟩ :=
        (refines_handleMessage_continues address ri mi hc).of_path hhandled
      exact absurd hone hr
    · obtain ⟨q, hrun, hq⟩ := (refines_handleMessage_refused address ri mi hc).of_path hhandled
      have hbs : bs ≠ [] := mt List.length_eq_zero_iff.mpr hpos
      rw [List.flatMap_append, hobs]
      exact ⟨q, .step (.refuses hstored hbs (not_understood hc)) hrun, hq⟩
  | @handled len b t₁ t₂ _ hrecv _ hhandled =>
    obtain ⟨bs, hobs, -, hstored⟩ := (ensures_recvMessage_hears _).of_path hrecv
    obtain ⟨rfl, hstored⟩ := hstored len rfl
    by_cases hc : Continues b.octets bs.length
    · obtain ⟨q, hrun, -, rfl⟩ :=
        (refines_handleMessage_continues address ri mi hc).of_path hhandled
      rw [List.flatMap_append, hobs]
      exact ⟨.inSession,
        .step (.understands hstored (understood_iff.mpr ⟨hc, rfl⟩)) hrun, rfl⟩
    · obtain ⟨q, -, hq⟩ := (refines_handleMessage_refused address ri mi hc).of_path hhandled
      exact absurd rfl hq.ne

lemma refines_sessionRound (n : ℕ) (mi : UInt32) (st : SessionState) :
    (sessionRound n mi ri st).Refines ok (Turn address ri) observe .inSession fun r q =>
      Sum.elim (fun _ => q = .inSession) (fun v => q.Yields v) r := by
  apply (ensures_sessionRound_goes n mi ri st).refines
  intro r t h
  cases h with
  | unselected => exact ⟨.failed, .single .unselected, rfl⟩
  | woken ready nowTime hheartbeat hwoken =>
    obtain ⟨_, hbeat, rfl⟩ := (refines_heartbeatIfDue address ri nowTime _).of_path hheartbeat
    obtain ⟨q, hrest, hq⟩ := hwoken.run address ri
    refine ⟨q, ?_, hq⟩
    simpa [observe] using Machine.Run.step .wakes (hbeat.trans hrest)

lemma refines_inSession (n : ℕ) (b : Buffer) (mi : UInt32) :
    (inSession n b mi ri).Refines ok (Turn address ri) observe .inSession
      (fun r q => q.Yields r) := by
  apply Refines.call
  intro nowTime _
  refine ⟨.inSession, .refl _, ?_⟩
  apply Refines.forever (I := fun _ q => q = .inSession)
  · rintro st _ rfl
    exact rfl
  · rintro st _ rfl
    exact refines_sessionRound address ri n mi st
  · rfl

/-! ### The whole session -/

/-- The phase that an opening leads to. -/
def Opening.phase : Opening → Phase
  | accepted _ _ resp => if resp.sc = 0 then .inSession else .closing (termination 255)
  | _ => .failed

lemma Answered.run {o : Opening} {t : List (Event sysSig)} (h : Answered ok o t) :
    (Turn address ri).Run .initiating (t.flatMap observe) o.phase ∧
      ∀ b sc resp, o = .accepted b sc resp → sc = .success := by
  cases h with
  | unanswered hrecv hnone =>
    obtain ⟨bs, hobs, hincomplete, hstored⟩ := (ensures_recvMessage_hears _).of_path hrecv
    rw [hobs]
    exact ⟨.single (.unanswered (incomplete_of_none hnone hincomplete hstored)), nofun⟩
  | @rejected len b sc t t' hrecv hcheck hsc =>
    obtain ⟨bs, hobs, -, hstored⟩ := (ensures_recvMessage_hears _).of_path hrecv
    obtain ⟨rfl, hstored⟩ := hstored len rfl
    obtain ⟨rfl, rfl⟩ := (ensures_scan_silent
      (MessageKind.silent_check .sessionInitResp b.octets _).2).of_path hcheck
    rw [List.append_nil, hobs]
    refine ⟨.single (.rejected hstored ?_), nofun⟩
    intro status hagreed
    exact hsc (agreed_iff.mp hagreed).1
  | @accepted len b sc resp t t' t'' hrecv hcheck hparse =>
    obtain ⟨bs, hobs, -, hstored⟩ := (ensures_recvMessage_hears _).of_path hrecv
    obtain ⟨rfl, hstored⟩ := hstored len rfl
    obtain ⟨hsc, rfl⟩ := (ensures_scan_silent
      (MessageKind.silent_check .sessionInitResp b.octets _).2).of_path hcheck
    obtain ⟨hvalue, rfl⟩ := (ensures_scan_silent
      (ParsedMessage.responses_parseSessionInitResp _ _ hsc.symm)).of_path hparse
    obtain ⟨hsucc, hstatus⟩ := hasStatus_parseSessionInitResp hsc.symm
    rw [← hvalue] at hsucc hstatus
    have hagreed := agreed_iff.mpr ⟨hsc.symm, hstatus⟩
    simp only [List.append_nil, hobs, Opening.phase]
    constructor
    · split_ifs with hzero
      · exact .single (.agreed hstored (hzero ▸ hagreed))
      · exact .single (.declined hstored hagreed hzero)
    · rintro _ _ _ ⟨⟩
      exact hsucc

lemma refines_openSession :
    (openSession address ri).Refines ok (Turn address ri) observe .connecting fun o q =>
      q = o.phase ∧ ∀ b sc resp, o = .accepted b sc resp → sc = .success := by
  have hcalls : (Turn address ri).Run .connecting [.called address true] .connected :=
    .single .connects
  apply (ensures_openSession_goes address ri).refines
  intro o t h
  cases h with
  | noSocket => exact ⟨.failed, .single .noSocket, rfl, nofun⟩
  | unconnected => exact ⟨.failed, .single .unconnected, rfl, nofun⟩
  | unsent hsend =>
    have ht := (ensures_send_observed _).of_path hsend
    refine ⟨.failed, ?_, rfl, nofun⟩
    simpa [observe, ht] using hcalls.trans (.single .uninitiated)
  | @sent o t t' hsend hanswered =>
    have ht := (ensures_send_observed _).of_path hsend
    obtain ⟨hrun, hsc⟩ := hanswered.run address ri
    refine ⟨o.phase, ?_, rfl, hsc⟩
    simpa [observe, ht] using hcalls.trans (.step .initiated hrun)

lemma refines_closeSession (ret : Option ℤ) (q : Phase) :
    (closeSession ret).Refines ok (Turn address ri) observe q fun v q' => v = ret ∧ q' = q := by
  cases ret with
  | none => exact .ret ⟨rfl, rfl⟩
  | some ret => exact fun _ _ => ⟨q, .refl q, rfl, rfl⟩

lemma refines_runSession (n : ℕ) (b : Buffer) (resp : InitResp) (o : Opening)
    (ho : o = .accepted b .success resp) :
    (runSession n b .success resp ri).Refines ok (Turn address ri) observe o.phase
      (fun r q => q.Yields r) := by
  rw [runSession, if_neg (by simp), ho, Opening.phase]
  by_cases hsc : resp.sc = StatusCode.success.code
  · have hzero : resp.sc = 0 := hsc
    rw [if_neg (not_not.mpr hsc), if_pos hzero]
    exact refines_inSession address ri n b _
  · have hzero : ¬ resp.sc = 0 := hsc
    rw [if_pos hsc, if_neg hzero]
    exact refines_sendSessionTerm address ri n .shutdown b _

lemma refines_session (n : ℕ) :
    (session n address ri).Refines ok (Turn address ri) observe .connecting
      fun r q => q.Yields r := by
  apply (refines_openSession address ri).bind
  rintro o _ ⟨rfl, hsc⟩
  have hclose : ∀ ret q, q.Yields ret → (closeSession ret).Refines ok (Turn address ri) observe q
      fun r q' => q'.Yields r := by
    intro ret q hq
    apply (refines_closeSession address ri ret q).mono
    rintro _ _ ⟨rfl, rfl⟩
    exact hq
  cases o with
  | noSocket => exact .ret rfl
  | unconnected | unanswered | rejected => exact hclose _ _ rfl
  | accepted b sc resp =>
    obtain rfl := hsc b sc resp rfl
    exact (refines_runSession address ri n b resp _ rfl).bind hclose

/-- Every session holds a dialogue: in every environment, what can be observed of a run is what the
dialogue shows from `connecting` to the phase where the run ends. The session returns 0 in `ended`
and -1 in `failed`, and it is cut off between two rounds of a loop otherwise. -/
theorem session_refines_dialogue {S : Type} (H : Handler sysSig S) (s : S) (n : ℕ)
    (modemAddress : List UInt8) (routerHeartbeatInterval : UInt32) :
    ∃ q, (Turn modemAddress routerHeartbeatInterval).Run .connecting
        (((session n modemAddress routerHeartbeatInterval).run H s).trace.flatMap observe) q ∧
      q.Yields ((session n modemAddress routerHeartbeatInterval).run H s).value :=
  (refines_session modemAddress routerHeartbeatInterval n).run_any H s

end Refinement

end DlepRouter
