import DlepRouter.Session.Framing
import DlepRouter.Session.Receiving

/-!
# How a session ends

A session has answered a Session Termination of the modem, or it has sent one and waits for a
message, or it has failed. Each function of the session is told what it adds to that.
-/

namespace DlepRouter

open Interaction Tlv Scan

/-! ### Endings -/

/-- What becomes of the wait behind a Session Termination, when `bs` was received there and `failed`
says whether a call failed: it ends in 0 exactly if something was received and nothing failed. -/
structure TermOutcome (v : Option ℤ) (bs : List UInt8) (failed : Bool) : Prop where
  zero : v = some 0 ↔ bs ≠ [] ∧ failed = false
  complete : ∀ type, IsComplete type bs → failed = false

namespace TermOutcome

variable {v : Option ℤ} {bs : List UInt8} {failed : Bool}

lemma unheard (hv : v ≠ some 0) : TermOutcome v [] failed :=
  ⟨⟨fun h => absurd h hv, fun h => absurd rfl h.1⟩,
    fun type h => absurd h (not_isComplete_nil type)⟩

lemma interrupted (hv : v ≠ some 0) (h : ∀ type, ¬ IsComplete type bs) : TermOutcome v bs true :=
  ⟨⟨fun h => absurd h hv, fun h => nomatch h.2⟩, fun type hcomplete => absurd hcomplete (h type)⟩

lemma received (hbs : bs ≠ []) : TermOutcome (some 0) bs false :=
  ⟨⟨fun _ => ⟨hbs, rfl⟩, fun _ => rfl⟩, fun _ _ => rfl⟩

end TermOutcome

/-- What a run that ends in `v` has done about its termination: it has answered a Session
Termination that it received when there were the octets `acc` before, it has sent one, or
neither. -/
inductive Ending (acc : List UInt8) (v : Option ℤ) (t : List (Event sysSig)) : Prop where
  | answered (t₁ t₂ : List (Event sysSig)) (sent : (SysCall.send terminationResp).Answer) :
    t = t₁ ++ ⟨.send terminationResp, sent⟩ :: t₂ →
    (receivedFrom acc t₁).take 2 = [0x00, 0x05] →
    (v = some 0 → sent = some (Fin.last terminationResp.length)) →
    Ending acc v t
  | terminated (t₁ t₂ : List (Event sysSig)) (status : UInt8)
    (sent : (SysCall.send (termination status)).Answer) :
    t = t₁ ++ ⟨.send (termination status), sent⟩ :: t₂ →
    (v = some 0 → sent = some (Fin.last (termination status).length)) →
    TermOutcome v (received t₂) (interrupted t₂) →
    Ending acc v t
  | failed :
    v ≠ some 0 → (∀ status, termination status ∉ sends t) → Ending acc v t

/-- Nothing is received, and nothing is waited for. -/
def Unheard (t : List (Event sysSig)) : Prop :=
  ∀ acc, receivedFrom acc t = acc

/-- Nothing fails, and nothing is waited for. -/
def Uninterrupted (t : List (Event sysSig)) : Prop :=
  ∀ before, interruptedFrom before t = before

/-- Sending receives nothing. -/
lemma unheard_of_sends {t : List (Event sysSig)} (h : ∀ e ∈ t, e.op.Sends) : Unheard t := by
  intro acc
  induction t with
  | nil => rfl
  | cons e t ih =>
    obtain ⟨hop, hrest⟩ := List.forall_mem_cons.mp h
    obtain ⟨c, r⟩ := e
    cases c with
    | send msg => exact ih hrest
    | _ => exact hop.elim

namespace Ending

variable {acc : List UInt8} {v : Option ℤ} {t t' : List (Event sysSig)}

/-- Events in front of which no termination is sent. -/
lemma prepend (h : Ending (receivedFrom acc t) v t')
    (hterm : ∀ status, termination status ∉ sends t) : Ending acc v (t ++ t') := by
  cases h with
  | answered t₁ t₂ sent heq hrecv hsent =>
    apply answered (t ++ t₁) t₂ sent
    · rw [heq, List.append_assoc]
    · rwa [receivedFrom_append]
    · exact hsent
  | terminated t₁ t₂ status sent heq hsent houtcome =>
    apply terminated (t ++ t₁) t₂ status sent
    · rw [heq, List.append_assoc]
    · exact hsent
    · exact houtcome
  | failed hv hnone =>
    apply failed hv
    intro status hmem
    rw [sends_append, List.mem_append] at hmem
    rcases hmem with hmem | hmem
    · exact hterm status hmem
    · exact hnone status hmem

/-- What was received before a wait is gone. -/
lemma wake (h : Ending (received t) v t') (hterm : ∀ status, termination status ∉ sends t)
    (timeout : Timeval) (ready : Option Selected) (nowTime : Timespec) :
    Ending acc v (⟨.select timeout, ready⟩ :: ⟨.clockGettime, nowTime⟩ :: (t ++ t')) := by
  have hsends : ∀ status, termination status ∉
      sends (⟨.select timeout, ready⟩ :: ⟨.clockGettime, nowTime⟩ :: t) := by simpa using hterm
  exact prepend (t := ⟨.select timeout, ready⟩ :: ⟨.clockGettime, nowTime⟩ :: t) h
    hsends

/-- Closing the socket behind it changes nothing. -/
lemma append (h : Ending acc v t) (hunheard : Unheard t') (hquiet : Uninterrupted t')
    (hsends : sends t' = []) :
    Ending acc v (t ++ t') := by
  cases h with
  | answered t₁ t₂ sent heq hrecv hsent =>
    apply answered t₁ (t₂ ++ t') sent
    · rw [heq, List.append_assoc, List.cons_append]
    · exact hrecv
    · exact hsent
  | terminated t₁ t₂ status sent heq hsent houtcome =>
    apply terminated t₁ (t₂ ++ t') status sent
    · rw [heq, List.append_assoc, List.cons_append]
    · exact hsent
    · rwa [received, receivedFrom_append, hunheard, interrupted, interruptedFrom_append, hquiet]
  | failed hv hnone =>
    apply failed hv
    rwa [sends_append, hsends, List.append_nil]

end Ending

section Sending

variable {ok : Assumption sysSig}

/-- A `send` is one event, and it reports whether all was taken. -/
lemma ensures_send_event (msg : List UInt8) :
    (Sys.send msg).Ensures ok fun b t => ∃ sent, t = [⟨.send msg, sent⟩] ∧
      (b = true → sent = some (Fin.last msg.length)) := by
  intro sent _
  refine ⟨sent, rfl, ?_⟩
  intro h
  obtain ⟨k, rfl, hk⟩ := Option.map_eq_some_iff.mp (of_decide_eq_true h)
  exact congrArg some (Fin.ext hk)

/-- A scan receives nothing. -/
lemma ensures_scan_unheard {α : Type} (m : Memory UInt8) (p : Reader α) :
    (scan m p).Ensures ok fun _ t => Unheard t :=
  (onlyCalls_scan m p).mono fun _ _ => unheard_of_sends

/-- A heartbeat changes nothing but its timer. -/
lemma ensures_heartbeatIfDue_unheard (ri : UInt32) (nowTime : Timespec) (st : SessionState) :
    (heartbeatIfDue ri nowTime st).Ensures ok fun st' t =>
      st'.buffer = st.buffer ∧ Unheard t ∧ ∀ status, termination status ∉ sends t := by
  have hsend : sendHeartbeat.Ensures ok fun _ t =>
      Unheard t ∧ ∀ status, termination status ∉ sends t := by
    rw [sendHeartbeat, heartbeatMessage_eq]
    apply (ensures_send_event heartbeat).bind
    intro _ t ht
    obtain ⟨sent, rfl, -⟩ := ht
    refine ⟨fun _ => rfl, ?_⟩
    intro status hmem
    exact heartbeat_ne_termination status (List.mem_singleton.mp hmem).symm
  unfold heartbeatIfDue
  split_ifs
  · apply hsend.bind
    intro _ t ht
    exact ⟨rfl, by simpa using ht⟩
  · exact ⟨rfl, fun _ => rfl, fun _ => List.not_mem_nil⟩

end Sending

/-! ### The termination state -/

section Termination

variable {ok : Assumption sysSig}

/-- A round of `term_session` that goes on has received nothing, and one that ends the wait returns
0 exactly if it has received something and none of its calls has failed. -/
lemma ensures_termRound_outcome (mi : UInt32) (st : TermState) :
    (termRound mi st).Ensures ok fun r t => ∀ acc before,
      Sum.elim (fun _ => receivedFrom acc t = [])
        (fun v => TermOutcome v (receivedFrom acc t) (interruptedFrom before t)) r := by
  apply (ensures_termRound_goes mi st).mono
  intro r t h acc before
  cases h with
  | unselected => exact .unheard (by simp)
  | woken ready nowTime hwoken =>
    cases hwoken with
    | expired => exact .unheard (by simp)
    | idle => rfl
    | unreceived _ hrecv hnone =>
      have hreceipt := (ensures_recvMessage_receipt _).of_path hrecv
      rcases hnone with hnone | hnone
      · have hfailed := (ensures_recvMessage_interrupted _).of_path hrecv
        rw [hnone] at hfailed
        simpa [receivedFrom, interruptedFrom, hfailed] using
          TermOutcome.interrupted (v := some (-1)) (by simp) (hreceipt.incomplete hnone)
      · have hnil := List.length_eq_zero_iff.mp (hreceipt.length 0 hnone)
        simpa [receivedFrom, hnil] using TermOutcome.unheard (v := some (-1)) (by simp)
    | received _ hrecv hpos =>
      have hreceipt := (ensures_recvMessage_receipt _).of_path hrecv
      have hfailed := (ensures_recvMessage_interrupted _).of_path hrecv
      have hne := List.ne_nil_of_length_pos
        (hreceipt.length _ rfl ▸ Nat.pos_of_ne_zero hpos)
      simpa [receivedFrom, interruptedFrom, hfailed] using TermOutcome.received hne

lemma ensures_termSession_outcome (n : ℕ) (b : Buffer) (mi : UInt32) :
    (termSession n b mi).Ensures ok fun v t => TermOutcome v (received t) (interrupted t) := by
  apply ensures_call_bind
  intro nowTime _
  refine Program.ensures_forever (I := fun _ t => received t = [])
    (Q := fun v t => TermOutcome v (received t) (interrupted t)) ?_ ?_ n _ [_] rfl
  · intro st t hnil
    rw [hnil]
    exact .unheard (by simp)
  · intro st t hnil
    apply (ensures_termRound_outcome mi st).mono
    intro r t' h
    rw [received, interrupted, receivedFrom_append, interruptedFrom_append]
    cases r with
    | inl st' => exact h _ false
    | inr v => exact h _ _

/-- `send_session_term` sends its message, or it fails. -/
lemma ensures_sendSessionTerm_ending (n : ℕ) (sc : StatusCode) (b : Buffer) (mi : UInt32)
    (acc : List UInt8) :
    (sendSessionTerm n sc b mi).Ensures ok fun v t => Ending acc v t := by
  apply (ensures_sendSessionTerm_goes n sc b mi).mono
  intro v t h
  cases h with
  | unallocated => exact .failed (by simp) (by simp)
  | unsent fresh hsend =>
    rw [sessionTermMessage_eq] at hsend
    obtain ⟨sent, rfl, -⟩ := (ensures_send_event _).of_path hsend
    exact .terminated [⟨.realloc 9, some fresh⟩] [] sc.code sent rfl (by simp)
      (.unheard (by simp))
  | @sent fresh b' _ _ t' hsend hterm =>
    rw [sessionTermMessage_eq] at hsend
    obtain ⟨sent, rfl, hall⟩ := (ensures_send_event _).of_path hsend
    exact .terminated [⟨.realloc 9, some fresh⟩] t' sc.code sent rfl (fun _ => hall rfl)
      ((ensures_termSession_outcome n b' mi).of_path hterm)

end Termination

/-! ### In session -/

section InSession

variable {ok : Assumption sysSig}

/-- The header in the block is not that of a Session Termination. -/
structure Buffer.Benign (b : Buffer) : Prop where
  size : 4 ≤ b.size
  type : (b.octets 1).toNat ≠ 5

lemma bigEndian_pair (a b : UInt8) : bigEndian [a, b] = a.toNat * 256 + b.toNat := by
  simpa using bigEndian_concat [a] b

/-- The second octet of the type. -/
lemma toNat_octet_one (m : Memory UInt8) :
    (m 1).toNat = bigEndian (m.slice 0 2) % 256 := by
  have hslice : m.slice 0 2 = [m 0, m 1] := rfl
  have hlt := (m 1).toNat_lt
  rw [hslice, bigEndian_pair]
  omega

/-- What closes a session unless it is a termination. -/
lemma eq_five_of_closingMessage {type : ℕ} (h : closingMessage type = terminationResp) :
    type = 5 := by
  unfold closingMessage at h
  split_ifs at h with h5
  · exact h5
  all_goals exact absurd h.symm (terminationResp_ne_termination _)

lemma IsDestinationResp.ne_termination {msg : List UInt8} (h : IsDestinationResp msg)
    (status : UInt8) : msg ≠ termination status := by
  rintro rfl
  cases h.length

/-- Of an accepted message, the second octet of the type is known. -/
lemma Continues.octet_one_ne {m : Memory UInt8} {len : ℕ} (h : Continues m len) :
    (m 1).toNat ≠ 5 := by
  obtain ⟨k, hk, -⟩ := h
  rw [toNat_octet_one, hk]
  cases k <;> decide

/-- Handling a message that was received as `bs`. -/
lemma ensures_handleMessage_ending (n : ℕ) (b : Buffer) (len : ℕ) (mi : UInt32) {bs : List UInt8}
    (htype : bigEndian (b.octets.slice 0 2) = 5 → bs.take 2 = [0x00, 0x05]) :
    (handleMessage n b len mi).Ensures ok fun r t =>
      r = some 1 ∧ Continues b.octets len ∧ (∀ status, termination status ∉ sends t) ∨
      r ≠ some 1 ∧ Ending bs r t := by
  apply ((ensures_scan b.octets (dispatch len)).and
    (ensures_scan_unheard b.octets (dispatch len))).bind
  intro v t h
  obtain ⟨⟨rfl, hsends⟩, hunheard⟩ := h
  by_cases hc : Continues b.octets len
  · rw [hc.value_dispatch]
    refine .inl ⟨rfl, hc, ?_⟩
    intro status hmem
    rw [List.append_nil, hsends] at hmem
    exact (hc.isDestinationResp _ hmem).ne_termination status rfl
  · obtain ⟨hends, hclosing, -, hresp⟩ := refused hc
    rw [hresp] at hsends
    have hnone : ∀ status, termination status ∉ sends t := by simp [hsends]
    cases hv : (dispatch len).value b.octets with
    | respond =>
      rw [hv] at hclosing
      dsimp only
      rw [sendSessionTermResp, sessionTermRespMessage_eq]
      apply (ensures_send_event terminationResp).bind
      intro all t' ht'
      obtain ⟨sent, rfl, hall⟩ := ht'
      have hrecv : (receivedFrom bs t).take 2 = [0x00, 0x05] := by
        rw [hunheard]
        exact htype (eq_five_of_closingMessage hclosing.symm)
      cases all with
      | false => exact .inr ⟨by simp, .answered t [] sent (by simp) hrecv (by simp)⟩
      | true => exact .inr ⟨by simp, .answered t [] sent (by simp) hrecv fun _ => hall rfl⟩
    | status sc =>
      have hge : sc ≠ .success ∧ StatusCode.unknownMessage.code ≤ sc.code := by rwa [hv] at hends
      dsimp only
      rw [if_pos hge]
      apply ((ensures_sendSessionTerm n sc b mi).and
        (ensures_sendSessionTerm_ending n sc b mi (receivedFrom bs t))).mono
      intro r t' h
      exact .inr ⟨h.1.1, h.2.prepend hnone⟩

/-- A message that was received behind a harmless one is taken for a Session Termination only if it
is one. -/
lemma Receipt.take_two {b : Buffer} {r : Option ℕ × Buffer} {bs : List UInt8} {len : ℕ}
    (h : Receipt b r bs) (hb : b.Benign) (hlen : r.1 = some len) (hpos : 0 < len)
    (htype : bigEndian (r.2.octets.slice 0 2) = 5) : bs.take 2 = [0x00, 0x05] := by
  have hone : 2 ≤ len := by
    by_contra hlt
    have hkept := h.kept len hlen hb.size (by omega)
    apply hb.type
    rw [← hkept, toNat_octet_one, htype]
  have htake : bs.take 2 = r.2.octets.slice 0 2 := by
    rw [← h.stored len hlen, Memory.take_slice _ _ hone]
  have hpair : r.2.octets.slice 0 2 = [r.2.octets 0, r.2.octets 1] := rfl
  have hlt := (r.2.octets 1).toNat_lt
  rw [hpair, bigEndian_pair] at htype
  have hzero : (r.2.octets 0).toNat = 0 := by omega
  have hfive : (r.2.octets 1).toNat = 5 := by omega
  rw [htake, hpair, UInt8.toNat_inj.mp (hzero.trans (b := (0 : UInt8).toNat) rfl),
    UInt8.toNat_inj.mp (hfive.trans (b := (5 : UInt8).toNat) rfl)]

/-- A round that goes on leaves a harmless message in the buffer, and no termination has been
sent. -/
lemma ensures_sessionRound_ending (n : ℕ) (mi ri : UInt32) (st : SessionState)
    (hb : st.buffer.Benign) :
    (sessionRound n mi ri st).Ensures ok fun r t =>
      Sum.elim (fun st' => st'.buffer.Benign ∧ ∀ status, termination status ∉ sends t)
        (fun v => ∀ acc, Ending acc v t) r := by
  apply (ensures_sessionRound_goes n mi ri st).mono
  intro v t h
  cases h with
  | unselected => exact fun _ => .failed (by simp) (by simp)
  | @woken ready nowTime st' v t t' hheartbeat hwoken =>
    obtain ⟨hbuffer, hunheard, hnone⟩ :=
      (ensures_heartbeatIfDue_unheard ri nowTime _).of_path hheartbeat
    dsimp only at hbuffer
    rw [← hbuffer] at hb
    cases hwoken with
    | expired _ _ hterm =>
      intro acc
      have hending := (ensures_sendSessionTerm_ending n .timedOut _ mi []).of_path hterm
      have hreceived : received t = [] := hunheard []
      rw [← hreceived] at hending
      exact hending.wake hnone st.timeout (some ready) nowTime
    | idle => exact ⟨hb, by simpa using hnone⟩
    | unreceived _ hrecv =>
      intro acc
      have hsilent := (silent_recvMessage _).of_path hrecv
      exact .failed (by simp) (by simpa [hsilent] using hnone)
    | @left len b r t₁ t₂ _ hrecv hpos hhandled hr =>
      have hsilent := (silent_recvMessage _).of_path hrecv
      have hreceipt := (ensures_recvMessage_receipt _).of_path hrecv
      intro acc
      rcases (ensures_handleMessage_ending n b len mi
        (hreceipt.take_two hb rfl (Nat.pos_of_ne_zero hpos))).of_path hhandled with
        ⟨hone, -⟩ | ⟨-, hending⟩
      · exact absurd hone hr
      · have hnone' : ∀ status, termination status ∉ sends (t ++ t₁) := by
          simpa [hsilent] using hnone
        have hreceived : received (t ++ t₁) = received t₁ := by
          rw [received, receivedFrom_append, hunheard]
        rw [← hreceived] at hending
        simpa using hending.wake hnone' st.timeout (some ready) nowTime
    | @handled len b t₁ t₂ _ hrecv hpos hhandled =>
      have hsilent := (silent_recvMessage _).of_path hrecv
      have hreceipt := (ensures_recvMessage_receipt _).of_path hrecv
      rcases (ensures_handleMessage_ending n b len mi
        (hreceipt.take_two hb rfl (Nat.pos_of_ne_zero hpos))).of_path hhandled with
        ⟨-, hc, hnone'⟩ | ⟨hne, -⟩
      · refine ⟨⟨hreceipt.size len rfl, hc.octet_one_ne⟩, ?_⟩
        intro status
        simp [hsilent, hnone status, hnone' status]
      · exact absurd rfl hne

lemma ensures_inSession_ending (n : ℕ) (b : Buffer) (mi ri : UInt32) (hb : b.Benign) :
    (inSession n b mi ri).Ensures ok fun v t => ∀ acc, Ending acc v t := by
  apply ensures_call_bind
  intro nowTime _
  refine Program.ensures_forever
    (I := fun st t => st.buffer.Benign ∧ ∀ status, termination status ∉ sends t)
    (Q := fun v t => ∀ acc, Ending acc v t) ?_ ?_ n _ [⟨.clockGettime, nowTime⟩] ⟨hb, by simp⟩
  · intro st t h acc
    exact .failed (by simp) h.2
  · intro st t h
    apply (ensures_sessionRound_ending n mi ri st h.1).mono
    intro r t' hr
    cases r with
    | inl st' =>
      refine ⟨hr.1, ?_⟩
      intro status
      simp [h.2 status, hr.2 status]
    | inr v =>
      intro acc
      exact (hr _).prepend h.2

end InSession

/-! ### The whole session -/

section Whole

variable {ok : Assumption sysSig}

/-- The response that opens a session is a harmless message. -/
lemma ensures_openSession_benign (modemAddress : List UInt8) (ri : UInt32) :
    (openSession modemAddress ri).Ensures ok fun o _ => ∀ b sc resp, o = .accepted b sc resp →
      b.Benign := by
  apply (ensures_openSession_goes modemAddress ri).mono
  intro o t h b sc resp ho
  cases h with
  | noSocket | unconnected | unsent => cases ho
  | sent _ hanswered =>
    cases hanswered with
    | unanswered | rejected => cases ho
    | @accepted len b _ _ _ _ _ hrecv hcheck =>
      cases ho
      have hreceipt := (ensures_recvMessage_receipt _).of_path hrecv
      have hsc := ((ensures_scan _ _).of_path hcheck).1
      have hhead := ((MessageKind.sessionInitResp.check_eq_success_iff _ _).mp hsc.symm).1
      have htype : (b.octets 1).toNat ≠ 5 := by
        rw [toNat_octet_one, hhead.2.1]
        decide
      exact ⟨hreceipt.size len rfl, htype⟩

/-- Closing the socket keeps the result. -/
lemma ensures_closeSession (ret : Option ℤ) :
    (closeSession ret).Ensures ok fun v t =>
      v = ret ∧ Unheard t ∧ Uninterrupted t ∧ sends t = [] := by
  cases ret with
  | none => exact ⟨rfl, fun _ => rfl, fun _ => rfl, rfl⟩
  | some ret => exact fun _ _ => ⟨rfl, fun _ => rfl, fun _ => rfl, rfl⟩

lemma sessionInitMessage_ne (ri : UInt32) :
    sessionInitMessage peerType ri ≠ terminationResp ∧
      ∀ status, sessionInitMessage peerType ri ≠ termination status := by
  have hlength : (sessionInitMessage peerType ri).length = 56 := rfl
  constructor
  · intro h
    rw [h] at hlength
    cases hlength
  · intro status h
    rw [h] at hlength
    cases hlength

lemma ensures_session_ending (n : ℕ) (modemAddress : List UInt8) (ri : UInt32) :
    (session n modemAddress ri).Ensures ok fun v t => Ending [] v t := by
  apply ((ensures_openSession modemAddress ri).and
    (ensures_openSession_benign modemAddress ri)).bind
  intro o t h
  obtain ⟨hleaves, hbenign⟩ := h
  have hfails : ∀ ms, sends t = ms → (∀ status, termination status ∉ ms) →
      (closeSession (some (-1))).Ensures ok fun v t' => Ending [] v (t ++ t') := by
    rintro _ rfl hnone
    apply (ensures_closeSession _).mono
    rintro _ t' ⟨rfl, -, -, ht'⟩
    apply Ending.failed (by simp)
    rwa [sends_append, ht', List.append_nil]
  have hinit : ∀ status, termination status ∉ [sessionInitMessage peerType ri] := by
    intro status hmem
    exact (sessionInitMessage_ne ri).2 status (List.mem_singleton.mp hmem).symm
  cases o with
  | noSocket =>
    have hsends : sends t = [] := hleaves
    exact .failed (by simp) (by simp [hsends])
  | unconnected => exact hfails [] hleaves (fun _ => nofun)
  | unanswered | rejected => exact hfails _ hleaves hinit
  | accepted b sc resp =>
    obtain ⟨hsends, rfl, -⟩ := hleaves
    have hb := hbenign b .success resp rfl
    have hrun : (runSession n b .success resp ri).Ensures ok fun v t' =>
        Ending (received t) v t' := by
      rw [runSession, if_neg (by simp)]
      split_ifs
      · exact ensures_sendSessionTerm_ending n .shutdown b _ _
      · apply (ensures_inSession_ending n b _ ri hb).mono
        intro v t' h
        exact h _
    apply hrun.bind
    intro ret t' hending
    apply (ensures_closeSession ret).mono
    rintro _ t'' ⟨rfl, hunheard, hquiet, hsilent⟩
    apply Ending.prepend (hending.append hunheard hquiet hsilent)
    rwa [hsends]

end Whole

end DlepRouter
