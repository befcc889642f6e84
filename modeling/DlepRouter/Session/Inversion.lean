import DlepRouter.Session.Machine

/-!
# How the steps of a session go

A round of `in_session` or `term_session` is taken apart once, into the paths of the functions that
it calls, and so are `send_session_term` and the opening of a session. Whatever is to be shown of a
step is then shown in each of the cases.
-/

namespace DlepRouter

open Interaction Tlv

variable {ok : Assumption sysSig}

/-! ### The termination state -/

/-- What `term_session` does when it has woken up. -/
inductive TermWoken (ok : Assumption sysSig) (mi : UInt32) (ready : Selected) (nowTime : Timespec)
    (st : TermState) : TermState ⊕ Option ℤ → List (Event sysSig) → Prop where
  | expired :
    ready.readable = false →
    0 < intervalCompare st.lastRecvTime nowTime (mi * 4) →
    TermWoken ok mi ready nowTime st (.inr (some (-1))) []
  | idle :
    ready.readable = false →
    ¬ 0 < intervalCompare st.lastRecvTime nowTime (mi * 4) →
    TermWoken ok mi ready nowTime st (.inl st) []
  | unreceived {received : Option ℕ × Buffer} {t : List (Event sysSig)} :
    ready.readable = true →
    (recvMessage st.buffer).Path ok received t →
    received.1 = none ∨ received.1 = some 0 →
    TermWoken ok mi ready nowTime st (.inr (some (-1))) t
  | received {len : ℕ} {b : Buffer} {t : List (Event sysSig)} :
    ready.readable = true →
    (recvMessage st.buffer).Path ok (some len, b) t →
    len ≠ 0 →
    TermWoken ok mi ready nowTime st (.inr (some 0)) t

/-- How a round of `term_session` goes. -/
inductive TermRound (ok : Assumption sysSig) (mi : UInt32) (st : TermState) :
    TermState ⊕ Option ℤ → List (Event sysSig) → Prop where
  | unselected : TermRound ok mi st (.inr (some (-1))) [⟨.select st.timeout, none⟩]
  | woken (ready : Selected) (nowTime : Timespec) {v : TermState ⊕ Option ℤ}
    {t : List (Event sysSig)} :
    TermWoken ok mi ready nowTime { st with timeout := ready.timeout } v t →
    TermRound ok mi st v (⟨.select st.timeout, some ready⟩ :: ⟨.clockGettime, nowTime⟩ :: t)

lemma ensures_termRound_goes (mi : UInt32) (st : TermState) :
    (termRound mi st).Ensures ok (TermRound ok mi st) := by
  apply ensures_call_bind
  intro ready _
  cases ready with
  | none => exact .unselected
  | some ready =>
    apply ensures_call_bind
    intro nowTime _
    refine Program.Ensures.mono ?_ fun v t => TermRound.woken ready nowTime
    dsimp only
    by_cases hready : ready.readable
    · rw [if_neg (not_not.mpr hready)]
      apply (Program.ensures_path (recvMessage _)).bind
      rintro ⟨received, b⟩ t hrecv
      rw [← List.append_nil t] at hrecv
      match received with
      | none => exact .unreceived hready hrecv (.inl rfl)
      | some 0 => exact .unreceived hready hrecv (.inr rfl)
      | some (len + 1) => exact .received hready hrecv (Nat.succ_ne_zero len)
    · rw [if_pos hready]
      split_ifs with hdue
      · exact .expired (by simpa using hready) hdue
      · exact .idle (by simpa using hready) hdue

/-- How `send_session_term` goes. -/
inductive SessionTermSent (ok : Assumption sysSig) (n : ℕ) (sc : StatusCode) (mi : UInt32) :
    Option ℤ → List (Event sysSig) → Prop where
  | unallocated : SessionTermSent ok n sc mi (some (-1)) [⟨.realloc 9, none⟩]
  | unsent (fresh : Memory UInt8) {t : List (Event sysSig)} :
    (Sys.send (sessionTermMessage sc)).Path ok false t →
    SessionTermSent ok n sc mi (some (-1)) (⟨.realloc 9, some fresh⟩ :: t)
  | sent (fresh : Memory UInt8) {b : Buffer} {r : Option ℤ} {t t' : List (Event sysSig)} :
    (Sys.send (sessionTermMessage sc)).Path ok true t →
    (termSession n b mi).Path ok r t' →
    SessionTermSent ok n sc mi r (⟨.realloc 9, some fresh⟩ :: (t ++ t'))

/-- What is sent is the message, whatever the session's buffer held. -/
lemma ensures_sendSessionTerm_goes (n : ℕ) (sc : StatusCode) (b : Buffer) (mi : UInt32) :
    (sendSessionTerm n sc b mi).Ensures ok (SessionTermSent ok n sc mi) := by
  apply ensures_call_bind
  intro fresh _
  cases fresh with
  | none => exact .unallocated
  | some fresh =>
    have hstored : ((b.resize 9 fresh).store 0 (sessionTermMessage sc)).octets.slice 0 9 =
        sessionTermMessage sc := Memory.slice_patch _ 0 (sessionTermMessage sc)
    dsimp only
    rw [hstored]
    apply (Program.ensures_path (Sys.send _)).bind
    intro all t hsend
    cases all with
    | false => exact .unsent fresh (by simpa using hsend)
    | true =>
      apply (Program.ensures_path (termSession n _ mi)).mono
      intro r t' hterm
      exact .sent fresh hsend hterm

/-! ### In session -/

/-- What `in_session` does when it has woken up and its heartbeat has been seen to. -/
inductive SessionWoken (ok : Assumption sysSig) (n : ℕ) (mi : UInt32) (ready : Selected)
    (nowTime : Timespec) (st : SessionState) :
    SessionState ⊕ Option ℤ → List (Event sysSig) → Prop where
  | expired {r : Option ℤ} {t : List (Event sysSig)} :
    ready.readable = false →
    0 < intervalCompare st.lastRecvTime nowTime (mi * 2) →
    (sendSessionTerm n .timedOut st.buffer mi).Path ok r t →
    SessionWoken ok n mi ready nowTime st (.inr r) t
  | idle :
    ready.readable = false →
    ¬ 0 < intervalCompare st.lastRecvTime nowTime (mi * 2) →
    SessionWoken ok n mi ready nowTime st (.inl st) []
  | unreceived {received : Option ℕ × Buffer} {t : List (Event sysSig)} :
    ready.readable = true →
    (recvMessage st.buffer).Path ok received t →
    received.1 = none ∨ received.1 = some 0 →
    SessionWoken ok n mi ready nowTime st (.inr (some (-1))) t
  | left {len : ℕ} {b : Buffer} {r : Option ℤ} {t t' : List (Event sysSig)} :
    ready.readable = true →
    (recvMessage st.buffer).Path ok (some len, b) t →
    len ≠ 0 →
    (handleMessage n b len mi).Path ok r t' →
    r ≠ some 1 →
    SessionWoken ok n mi ready nowTime st (.inr r) (t ++ t')
  | handled {len : ℕ} {b : Buffer} {t t' : List (Event sysSig)} :
    ready.readable = true →
    (recvMessage st.buffer).Path ok (some len, b) t →
    len ≠ 0 →
    (handleMessage n b len mi).Path ok (some 1) t' →
    SessionWoken ok n mi ready nowTime st
      (.inl { st with buffer := b, lastRecvTime := nowTime }) (t ++ t')

/-- How a round of `in_session` goes. -/
inductive SessionRound (ok : Assumption sysSig) (n : ℕ) (mi ri : UInt32) (st : SessionState) :
    SessionState ⊕ Option ℤ → List (Event sysSig) → Prop where
  | unselected : SessionRound ok n mi ri st (.inr (some (-1))) [⟨.select st.timeout, none⟩]
  | woken (ready : Selected) (nowTime : Timespec) {st' : SessionState}
    {v : SessionState ⊕ Option ℤ} {t t' : List (Event sysSig)} :
    (heartbeatIfDue ri nowTime { st with timeout := ready.timeout }).Path ok st' t →
    SessionWoken ok n mi ready nowTime st' v t' →
    SessionRound ok n mi ri st v
      (⟨.select st.timeout, some ready⟩ :: ⟨.clockGettime, nowTime⟩ :: (t ++ t'))

lemma ensures_sessionRound_goes (n : ℕ) (mi ri : UInt32) (st : SessionState) :
    (sessionRound n mi ri st).Ensures ok (SessionRound ok n mi ri st) := by
  apply ensures_call_bind
  intro ready _
  cases ready with
  | none => exact .unselected
  | some ready =>
    apply ensures_call_bind
    intro nowTime _
    apply (Program.ensures_path (heartbeatIfDue ri nowTime _)).bind
    intro st' t hheartbeat
    refine Program.Ensures.mono ?_ fun v t' => SessionRound.woken ready nowTime hheartbeat
    dsimp only
    by_cases hready : ready.readable
    · rw [if_neg (not_not.mpr hready)]
      apply (Program.ensures_path (recvMessage _)).bind
      rintro ⟨received, b⟩ t hrecv
      match received with
      | none => exact .unreceived hready (by simpa using hrecv) (.inl rfl)
      | some 0 => exact .unreceived hready (by simpa using hrecv) (.inr rfl)
      | some (len + 1) =>
        apply (Program.ensures_path (handleMessage n b (len + 1) mi)).bind
        intro r t' hhandled
        rw [← List.append_nil t'] at hhandled
        split_ifs with hr
        · exact .left hready hrecv (Nat.succ_ne_zero len) hhandled hr
        · obtain rfl := not_not.mp hr
          exact .handled hready hrecv (Nat.succ_ne_zero len) hhandled
    · rw [if_pos hready]
      split_ifs with hdue
      · apply (Program.ensures_path (sendSessionTerm n .timedOut _ mi)).bind
        intro r t' hterm
        rw [← List.append_nil t'] at hterm
        exact .expired (by simpa using hready) hdue hterm
      · exact .idle (by simpa using hready) hdue

/-! ### The opening -/

/-- What becomes of the response to a Session Initialization. -/
inductive Answered (ok : Assumption sysSig) : Opening → List (Event sysSig) → Prop where
  | unanswered {received : Option ℕ × Buffer} {t : List (Event sysSig)} :
    (recvMessage .null).Path ok received t →
    received.1 = none ∨ received.1 = some 0 →
    Answered ok .unanswered t
  | rejected {len : ℕ} {b : Buffer} {sc : StatusCode} {t t' : List (Event sysSig)} :
    (recvMessage .null).Path ok (some len, b) t →
    (scan b.octets (checkSessionInitRespMessage len)).Path ok sc t' →
    sc ≠ .success →
    Answered ok .rejected (t ++ t')
  | accepted {len : ℕ} {b : Buffer} {sc : StatusCode} {resp : InitResp}
    {t t' t'' : List (Event sysSig)} :
    (recvMessage .null).Path ok (some len, b) t →
    (scan b.octets (checkSessionInitRespMessage len)).Path ok .success t' →
    (scan b.octets (parseSessionInitRespMessage 4 (len - 4) .initial)).Path ok (sc, resp) t'' →
    Answered ok (.accepted b sc resp) (t ++ (t' ++ t''))

/-- How the opening of a session goes. -/
inductive Opened (ok : Assumption sysSig) (modemAddress : List UInt8) (ri : UInt32) :
    Opening → List (Event sysSig) → Prop where
  | noSocket : Opened ok modemAddress ri .noSocket [⟨.socket (modemAddress.take 2), false⟩]
  | unconnected :
    Opened ok modemAddress ri .unconnected
      [⟨.socket (modemAddress.take 2), true⟩, ⟨.connect modemAddress, false⟩]
  | unsent {t : List (Event sysSig)} :
    (sendSessionInitMessage ri).Path ok false t →
    Opened ok modemAddress ri .unanswered
      (⟨.socket (modemAddress.take 2), true⟩ :: ⟨.connect modemAddress, true⟩ :: t)
  | sent {o : Opening} {t t' : List (Event sysSig)} :
    (sendSessionInitMessage ri).Path ok true t →
    Answered ok o t' →
    Opened ok modemAddress ri o
      (⟨.socket (modemAddress.take 2), true⟩ :: ⟨.connect modemAddress, true⟩ :: (t ++ t'))

lemma ensures_openSession_goes (modemAddress : List UInt8) (ri : UInt32) :
    (openSession modemAddress ri).Ensures ok (Opened ok modemAddress ri) := by
  apply ensures_call_bind
  intro created _
  cases created with
  | false => exact .noSocket
  | true =>
    apply ensures_call_bind
    intro connected _
    cases connected with
    | false => exact .unconnected
    | true =>
      apply (Program.ensures_path (sendSessionInitMessage ri)).bind
      intro sent t hsend
      cases sent with
      | false => exact .unsent (by simpa using hsend)
      | true =>
        refine Program.Ensures.mono ?_ fun o t' => Opened.sent hsend
        apply (Program.ensures_path (recvMessage .null)).bind
        rintro ⟨received, b⟩ t hrecv
        match received with
        | none => exact .unanswered (by simpa using hrecv) (.inl rfl)
        | some 0 => exact .unanswered (by simpa using hrecv) (.inr rfl)
        | some (len + 1) =>
          apply (Program.ensures_path (scan b.octets (checkSessionInitRespMessage (len + 1)))).bind
          intro sc t' hcheck
          split_ifs with hsc
          · subst hsc
            apply (Program.ensures_path (scan b.octets _)).bind
            rintro ⟨sc, resp⟩ t'' hparse
            rw [← List.append_nil t''] at hparse
            exact .accepted hrecv hcheck hparse
          · rw [← List.append_nil t'] at hcheck
            exact .rejected hrecv hcheck hsc

end DlepRouter
