import DlepRouter.Session.Dispatch

/-!
# The messages of a whole session

A session sends its initialization first. Only after an accepted response with status 0 does it
send heartbeats and responses to destinations, and a closing message is the last that it sends.
Nothing is assumed of the environment: these are postconditions over all answers.
-/

namespace DlepRouter

open Interaction Tlv Scan

/-! ### The protocol -/

/-- A response to a destination: up or down, with status Success and a MAC address of six octets. -/
def IsDestinationResp (msg : List UInt8) : Prop :=
  ∃ mac : List UInt8, mac.length = 6 ∧
    (msg = destinationUpRespMessage mac .success ∨ msg = destinationDownRespMessage mac .success)

lemma IsDestinationResp.length {msg : List UInt8} (h : IsDestinationResp msg) :
    msg.length = 19 := by
  obtain ⟨mac, hmac, rfl | rfl⟩ := h
  · exact length_destinationRespMessage _ _ hmac
  · exact length_destinationRespMessage _ _ hmac

/-- What may be sent again and again in session. -/
def Steady (msgs : List (List UInt8)) : Prop :=
  ∀ msg ∈ msgs, msg = heartbeat ∨ IsDestinationResp msg

/-- A message that ends a session. -/
def IsClosing (msg : List UInt8) : Prop :=
  msg = terminationResp ∨ ∃ status ∈ [128, 129, 130, 132], msg = termination status

/-- What a session sends from the accepted response on: steady messages, then at most one closing
message. -/
def SentInSession (msgs : List (List UInt8)) : Prop :=
  ∃ ms closing, msgs = ms ++ closing ∧ Steady ms ∧
    (closing = [] ∨ ∃ msg, closing = [msg] ∧ IsClosing msg)

lemma Steady.append {ms ms' : List (List UInt8)} (h : Steady ms) (h' : Steady ms') :
    Steady (ms ++ ms') := by
  intro msg hmsg
  rcases List.mem_append.mp hmsg with hmsg | hmsg
  · exact h msg hmsg
  · exact h' msg hmsg

lemma steady_nil : Steady [] := by
  intro msg hmsg
  cases hmsg

lemma Steady.sentInSession {ms : List (List UInt8)} (h : Steady ms) : SentInSession ms :=
  ⟨ms, [], (List.append_nil ms).symm, h, .inl rfl⟩

/-- Steady messages may come before anything a session sends. -/
lemma SentInSession.append {ms msgs : List (List UInt8)} (h : Steady ms)
    (h' : SentInSession msgs) : SentInSession (ms ++ msgs) := by
  obtain ⟨ms', closing, rfl, hsteady, hclosing⟩ := h'
  exact ⟨ms ++ ms', closing, (List.append_assoc ms ms' closing).symm, h.append hsteady, hclosing⟩

lemma Closes.sentInSession {msg : List UInt8} {t : List (Event sysSig)} (h : Closes msg t)
    (hmsg : IsClosing msg) : SentInSession (sends t) := by
  rcases h with h | ⟨h, -⟩
  · exact ⟨[], [msg], h, steady_nil, .inr ⟨msg, rfl, hmsg⟩⟩
  · rw [h]
    exact steady_nil.sentInSession

/-- How a session must go on that has opened with the events `t`, and then has the events `t'`. An
accepted response is one that the validator accepts, and its status decides. -/
def Opening.Permits (routerHeartbeatInterval : UInt32) (t t' : List (Event sysSig)) :
    Opening → Prop
  | noSocket | unconnected => sends t = [] ∧ sends t' = []
  | unanswered | rejected =>
    sends t = [sessionInitMessage peerType routerHeartbeatInterval] ∧ sends t' = []
  | accepted b _ resp =>
    sends t = [sessionInitMessage peerType routerHeartbeatInterval] ∧
      (∃ len, (checkSessionInitRespMessage len).value b.octets = .success ∧
        HasStatus (dataItemFormat.items b.octets len 4) resp.sc) ∧
      (resp.sc ≠ 0 → Closes (termination 255) t') ∧ (resp.sc = 0 → SentInSession (sends t'))

/-! ### What a message leads to -/

section Message

variable {ok : Assumption sysSig}

lemma isClosing_closingMessage (type : ℕ) : IsClosing (closingMessage type) := by
  unfold closingMessage
  split_ifs
  · exact .inl rfl
  · exact .inr ⟨130, by simp, rfl⟩
  · exact .inr ⟨129, by simp, rfl⟩
  · exact .inr ⟨128, by simp, rfl⟩

/-- A parser answers the MAC addresses of an accepted message, and those have six octets. -/
lemma ParsedMessage.isDestinationResp_answers (k : ParsedMessage) {m : Memory UInt8} {len : ℕ}
    (h : (k.kind.check len).value m = .success) :
    ∀ msg ∈ k.answers (dataItemFormat.items m len 4), IsDestinationResp msg := by
  have hadm := ((k.kind.check_eq_success_iff m len).mp h).2.1
  intro msg hmsg
  obtain ⟨i, hi, hmsg⟩ := List.mem_flatMap.mp hmsg
  cases k with
  | destinationUp =>
    unfold answerTo at hmsg
    split at hmsg
    · rename_i ht
      have hwf := Contents.wellFormed_of_admits (hadm i hi) ht (.inl (by decide))
      exact ⟨i.body, hwf, .inl (List.mem_singleton.mp hmsg)⟩
    · contradiction
    · cases hmsg
  | destinationDown =>
    unfold answerTo at hmsg
    split at hmsg
    · contradiction
    · rename_i ht
      have hwf := Contents.wellFormed_of_admits (hadm i hi) ht (.inl (by decide))
      exact ⟨i.body, hwf, .inr (List.mem_singleton.mp hmsg)⟩
    · cases hmsg
  | _ => cases hmsg

/-- Only destinations are answered for an accepted message. -/
lemma Continues.isDestinationResp {m : Memory UInt8} {len : ℕ} (h : Continues m len) :
    ∀ msg ∈ responses ((dispatch len).outputs m), IsDestinationResp msg := by
  obtain ⟨k, hk, hsc⟩ := h
  rw [responses_dispatch m len hk hsc]
  cases k with
  | heartbeat => exact nofun
  | sessionUpdate => exact ParsedMessage.isDestinationResp_answers .sessionUpdate hsc
  | destinationUp => exact ParsedMessage.isDestinationResp_answers .destinationUp hsc
  | destinationUpdate => exact ParsedMessage.isDestinationResp_answers .destinationUpdate hsc
  | destinationDown => exact ParsedMessage.isDestinationResp_answers .destinationDown hsc

/-- What is sent for an accepted message is steady. -/
lemma Continues.steady {m : Memory UInt8} {len : ℕ} (h : Continues m len) :
    Steady (responses ((dispatch len).outputs m)) := by
  intro msg hmsg
  exact .inr (h.isDestinationResp msg hmsg)

/-- A message that is handled leads to steady messages, or to a closing message and an end. -/
lemma ensures_handleMessage_sends (n : ℕ) (b : Buffer) (len : ℕ) (m : UInt32) :
    (handleMessage n b len m).Ensures ok fun r t =>
      if r = some 1 then Steady (sends t) else SentInSession (sends t) := by
  apply (ensures_handleMessage n b len m).mono
  intro r t h
  rcases h with ⟨hc, rfl, hsends⟩ | ⟨-, hr, hcloses⟩
  · rw [if_pos rfl, hsends]
    exact hc.steady
  · rw [if_neg hr]
    exact hcloses.sentInSession (isClosing_closingMessage _)

end Message

/-! ### In session -/

section InSession

variable {ok : Assumption sysSig}

lemma ensures_heartbeatIfDue (r : UInt32) (nowTime : Timespec) (st : SessionState) :
    (heartbeatIfDue r nowTime st).Ensures ok fun _ t => Steady (sends t) := by
  unfold heartbeatIfDue
  split_ifs
  · apply ensures_sendHeartbeat.bind
    intro _ t ht
    simp only [Program.pure_eq_ret, Program.ensures_ret, List.append_nil, ht]
    intro msg hmsg
    exact .inl (List.mem_singleton.mp hmsg)
  · exact steady_nil

/-- A round of `in_session` goes on after steady messages, or ends with a closing message. -/
lemma ensures_sessionRound (n : ℕ) (mi ri : UInt32) (st : SessionState) :
    (sessionRound n mi ri st).Ensures ok fun r t =>
      Sum.elim (fun _ => Steady (sends t)) (fun _ => SentInSession (sends t)) r := by
  apply (ensures_sessionRound_goes n mi ri st).mono
  intro r t h
  cases h with
  | unselected => exact steady_nil.sentInSession
  | woken ready nowTime hheartbeat hwoken =>
    have ht := (ensures_heartbeatIfDue ri nowTime _).of_path hheartbeat
    cases hwoken with
    | expired _ _ hterm =>
      have h := ((ensures_sendSessionTerm n .timedOut _ mi).of_path hterm).2
      simpa using SentInSession.append ht (h.sentInSession (.inr ⟨132, by simp, rfl⟩))
    | idle => simpa using ht
    | unreceived _ hrecv =>
      have ht' := (silent_recvMessage _).of_path hrecv
      simpa [ht'] using ht.sentInSession
    | left _ hrecv _ hhandled hr =>
      have ht' := (silent_recvMessage _).of_path hrecv
      have h := (ensures_handleMessage_sends n _ _ mi).of_path hhandled
      rw [if_neg hr] at h
      simpa [ht'] using SentInSession.append ht h
    | handled _ hrecv _ hhandled =>
      have ht' := (silent_recvMessage _).of_path hrecv
      have h := (ensures_handleMessage_sends n _ _ mi).of_path hhandled
      simpa [ht'] using ht.append h

/-- In session, steady messages are followed by at most one closing message. -/
lemma ensures_inSession (n : ℕ) (b : Buffer) (mi ri : UInt32) :
    (inSession n b mi ri).Ensures ok fun _ t => SentInSession (sends t) := by
  apply ensures_call_bind
  intro nowTime _
  refine Program.ensures_forever (I := fun _ t => Steady (sends t))
    (Q := fun _ t => SentInSession (sends t)) ?_ ?_ n _ [] steady_nil
  · intro st t ht
    exact ht.sentInSession
  · intro st t ht
    apply (ensures_sessionRound n mi ri st).mono
    intro r t' ht'
    cases r with
    | inl st' => exact (sends_append t t').symm ▸ ht.append ht'
    | inr v => exact (sends_append t t').symm ▸ SentInSession.append ht ht'

end InSession

/-! ### From the opening to the end -/

section Whole

variable {ok : Assumption sysSig}

/-- How the events of an opening relate to its outcome. -/
def Opening.Leaves (routerHeartbeatInterval : UInt32) (t : List (Event sysSig)) : Opening → Prop
  | noSocket | unconnected => sends t = []
  | unanswered | rejected =>
    sends t = [sessionInitMessage peerType routerHeartbeatInterval]
  | accepted b sc resp =>
    sends t = [sessionInitMessage peerType routerHeartbeatInterval] ∧ sc = .success ∧
      ∃ len, (checkSessionInitRespMessage len).value b.octets = .success ∧
        HasStatus (dataItemFormat.items b.octets len 4) resp.sc

/-- The opening sends the initialization once connected, and nothing else. -/
lemma ensures_openSession (modemAddress : List UInt8) (ri : UInt32) :
    (openSession modemAddress ri).Ensures ok fun o t => o.Leaves ri t := by
  apply (ensures_openSession_goes modemAddress ri).mono
  intro o t h
  cases h with
  | noSocket | unconnected => rfl
  | unsent hsend =>
    have ht := (ensures_send _).of_path hsend
    simpa [Opening.Leaves] using ht
  | sent hsend hanswered =>
    have ht := (ensures_send _).of_path hsend
    cases hanswered with
    | unanswered hrecv =>
      have ht' := (silent_recvMessage _).of_path hrecv
      simp [Opening.Leaves, ht, ht']
    | @rejected len b sc _ _ hrecv hcheck =>
      have ht' := (silent_recvMessage _).of_path hrecv
      obtain ⟨-, hcheck⟩ := (ensures_scan _ _).of_path hcheck
      have hsilent : responses ((checkSessionInitRespMessage len).outputs b.octets) = [] :=
        (MessageKind.silent_check .sessionInitResp b.octets len).2
      rw [hsilent] at hcheck
      simp [Opening.Leaves, ht, ht', hcheck]
    | @accepted len b _ _ _ _ _ hrecv hcheck hparse =>
      have ht' := (silent_recvMessage _).of_path hrecv
      obtain ⟨hsc, hcheck⟩ := (ensures_scan _ _).of_path hcheck
      have hsilent : responses ((checkSessionInitRespMessage len).outputs b.octets) = [] :=
        (MessageKind.silent_check .sessionInitResp b.octets len).2
      rw [hsilent] at hcheck
      obtain ⟨hvalue, hparse⟩ := (ensures_scan _ _).of_path hparse
      rw [ParsedMessage.responses_parseSessionInitResp _ _ hsc.symm] at hparse
      obtain ⟨hsucc, hstatus⟩ := hasStatus_parseSessionInitResp hsc.symm
      rw [← hvalue] at hsucc hstatus
      refine ⟨?_, hsucc, len, hsc.symm, hstatus⟩
      simp [ht, ht', hcheck, hparse]

lemma silent_closeSession (ret : Option ℤ) : Silent ok (closeSession ret) := by
  cases ret with
  | none => exact .pure _
  | some ret => exact .bind (.call nofun) fun _ => .pure _

/-- After an accepted response, its status decides between a termination and the session. -/
lemma ensures_runSession (n : ℕ) (b : Buffer) (resp : InitResp) (ri : UInt32) :
    (runSession n b .success resp ri >>= closeSession).Ensures ok fun _ t =>
      (resp.sc ≠ 0 → Closes (termination 255) t) ∧ (resp.sc = 0 → SentInSession (sends t)) := by
  rw [runSession, if_neg (by simp)]
  by_cases hsc : resp.sc = StatusCode.success.code
  · rw [if_neg (not_not.mpr hsc)]
    apply (ensures_inSession n b _ ri).bind
    intro ret t ht
    apply (silent_closeSession ret).mono
    intro _ t' ht'
    refine ⟨absurd hsc, ?_⟩
    intro _
    rwa [sends_append, ht', List.append_nil]
  · rw [if_pos hsc]
    apply (ensures_sendSessionTerm n .shutdown b _).bind
    intro ret t ht
    apply (silent_closeSession ret).mono
    intro _ t' ht'
    refine ⟨?_, ?_⟩
    · intro _
      exact ht.2.silent ht'
    · intro h
      exact absurd h hsc

/-- The messages that any session sends follow the protocol, in every environment. -/
theorem session_follows_protocol {S : Type} (H : Handler sysSig S) (s : S) (n : ℕ)
    (modemAddress : List UInt8) (routerHeartbeatInterval : UInt32) :
    ∃ t', ((session n modemAddress routerHeartbeatInterval).run H s).trace =
        ((openSession modemAddress routerHeartbeatInterval).run H s).trace ++ t' ∧
      ((openSession modemAddress routerHeartbeatInterval).run H s).value.Permits
        routerHeartbeatInterval ((openSession modemAddress routerHeartbeatInterval).run H s).trace
        t' := by
  have hopen := (ensures_openSession modemAddress routerHeartbeatInterval).run_any H s
  rw [session, Program.run_bind]
  refine ⟨_, rfl, ?_⟩
  generalize (openSession modemAddress routerHeartbeatInterval).run H s = o at hopen ⊢
  cases ho : o.value with
  | noSocket =>
    rw [ho] at hopen
    exact ⟨hopen, rfl⟩
  | unconnected | unanswered | rejected =>
    rw [ho] at hopen
    exact ⟨hopen, (silent_closeSession _).run_any H o.state⟩
  | accepted b sc resp =>
    rw [ho] at hopen
    obtain ⟨hinit, rfl, hresp⟩ := hopen
    exact ⟨hinit, hresp, (ensures_runSession n b resp _).run_any H o.state⟩

end Whole

end DlepRouter
