import DlepRouter.Parse.Responses
import DlepRouter.Session.Sending

/-!
# What becomes of a message in session

The `switch` of `handle_message` tells four kinds of messages apart: those a modem may send, Session
Termination, the other registered ones, and the rest. Only an accepted message of the first kind
lets the session go on, and only then is anything but a closing message sent.
-/

namespace DlepRouter

open Interaction Tlv Scan

/-! ### The messages of a session -/

/-- The messages that a modem may send in session, besides Session Termination. -/
inductive SessionMessage where
  | heartbeat
  | sessionUpdate
  | destinationUp
  | destinationUpdate
  | destinationDown
  deriving DecidableEq

namespace SessionMessage

def kind : SessionMessage → MessageKind
  | heartbeat => .heartbeat
  | sessionUpdate => .sessionUpdate
  | destinationUp => .destinationUp
  | destinationUpdate => .destinationUpdate
  | destinationDown => .destinationDown

/-- What is done with a message that was accepted. -/
def parse : SessionMessage → ℕ → Reader Unit
  | heartbeat, _ => print (.received .peerHeartbeat)
  | sessionUpdate, len => ParsedMessage.parse .sessionUpdate len
  | destinationUp, len => ParsedMessage.parse .destinationUp len
  | destinationUpdate, len => ParsedMessage.parse .destinationUpdate len
  | destinationDown, len => ParsedMessage.parse .destinationDown len

/-- The messages sent for the data items of a message that was accepted. -/
def answers : SessionMessage → List DataItem → List (List UInt8)
  | heartbeat, _ => []
  | sessionUpdate, is => ParsedMessage.answers .sessionUpdate is
  | destinationUp, is => ParsedMessage.answers .destinationUp is
  | destinationUpdate, is => ParsedMessage.answers .destinationUpdate is
  | destinationDown, is => ParsedMessage.answers .destinationDown is

end SessionMessage

/-- The validator of one of the messages of a session accepts the `len` octets in `m`. -/
def Continues (m : Memory UInt8) (len : ℕ) : Prop :=
  ∃ k : SessionMessage, bigEndian (m.slice 0 2) = k.kind.messageType.code.toNat ∧
    (k.kind.check len).value m = .success

/-- What is sent for a message of a type that is not accepted. -/
def closingMessage (type : ℕ) : List UInt8 :=
  if type = 5 then terminationResp
  else if type ∈ [3, 7, 11, 13, 16] then termination 130
  else if 1 ≤ type ∧ type ≤ 16 then termination 129
  else termination 128

/-! ### Registered numbers -/

namespace MessageType

/-- The registered numbers are 1 to 16. -/
lemma exists_code {n : ℕ} (h : 1 ≤ n ∧ n ≤ 16) : ∃ t : MessageType, t.code.toNat = n := by
  obtain ⟨h1, h16⟩ := h
  have hall : ∀ i : Fin 17, i ≠ 0 → ∃ t ∈ all, t.code.toNat = i.val := by decide
  obtain ⟨t, -, ht⟩ := hall ⟨n, by omega⟩ (by simp [Fin.ext_iff]; omega)
  exact ⟨t, ht⟩

end MessageType

section Registered

variable {m : Memory UInt8} {t : MessageType}

lemma ofCode_readUint16 (h : bigEndian (m.slice 0 2) = t.code.toNat) :
    MessageType.ofCode ((readUint16 0).value m) = some t := by
  rw [MessageType.ofCode_eq_some_iff, ← UInt16.toNat_inj, toNat_readUint16, h]

/-- A message has a registered number or none. -/
lemma type_cases (m : Memory UInt8) :
    (∃ t : MessageType, bigEndian (m.slice 0 2) = t.code.toNat) ∨
      (¬ (1 ≤ bigEndian (m.slice 0 2) ∧ bigEndian (m.slice 0 2) ≤ 16) ∧
        MessageType.ofCode ((readUint16 0).value m) = none) := by
  cases ht : MessageType.ofCode ((readUint16 0).value m) with
  | some t =>
    left
    rw [MessageType.ofCode_eq_some_iff] at ht
    exact ⟨t, by rw [ht, toNat_readUint16]⟩
  | none =>
    right
    refine ⟨?_, rfl⟩
    intro h
    obtain ⟨t, hcode⟩ := MessageType.exists_code h
    rw [ofCode_readUint16 hcode.symm] at ht
    cases ht

/-- A registered message is one of the session, Session Termination, or unexpected. -/
lemma MessageType.cases_in_session (t : MessageType) :
    (∃ k : SessionMessage, t = k.kind.messageType) ∨ t = .sessionTerm ∨
      t ≠ .sessionTerm ∧ (∀ k : SessionMessage, t ≠ k.kind.messageType) ∧
        closingMessage t.code.toNat = termination 129 := by
  cases t with
  | sessionTerm => exact .inr (.inl rfl)
  | sessionUpdate => exact .inl ⟨.sessionUpdate, rfl⟩
  | destUp => exact .inl ⟨.destinationUp, rfl⟩
  | destDown => exact .inl ⟨.destinationDown, rfl⟩
  | destUpdate => exact .inl ⟨.destinationUpdate, rfl⟩
  | peerHeartbeat => exact .inl ⟨.heartbeat, rfl⟩
  | _ => exact .inr (.inr ⟨by decide, fun k => by cases k <;> decide, rfl⟩)

lemma closingMessage_of_unregistered {n : ℕ} (h : ¬ (1 ≤ n ∧ n ≤ 16)) :
    closingMessage n = termination 128 := by
  have h5 : n ≠ 5 := by omega
  have hmem : n ∉ [3, 7, 11, 13, 16] := by
    simp
    omega
  rw [closingMessage, if_neg h5, if_neg hmem, if_neg h]

end Registered

/-! ### The `switch` -/

section Switch

variable (m : Memory UInt8) (len : ℕ)

lemma value_checkThenParse (check : ℕ → Reader StatusCode) (parse : Reader Unit) :
    (checkThenParse check parse len).value m = .status ((check len).value m) := by
  simp [checkThenParse]

lemma outputs_checkThenParse (check : ℕ → Reader StatusCode) (parse : Reader Unit) :
    (checkThenParse check parse len).outputs m = (check len).outputs m ++
      if (check len).value m = .success then parse.outputs m else [] := by
  simp [checkThenParse]

/-- A message of the session is validated, and parsed if it is valid. -/
lemma dispatch_session {k : SessionMessage}
    (h : bigEndian (m.slice 0 2) = k.kind.messageType.code.toNat) :
    (dispatch len).value m = .status ((k.kind.check len).value m) ∧
      (dispatch len).outputs m = (k.kind.check len).outputs m ++
        if (k.kind.check len).value m = .success then (k.parse len).outputs m else [] := by
  simp only [dispatch, value_bind, outputs_bind, outputs_readUint16, List.nil_append,
    ofCode_readUint16 h]
  cases k with
  | heartbeat => exact ⟨value_checkThenParse .., outputs_checkThenParse ..⟩
  | sessionUpdate => exact ⟨value_checkThenParse .., outputs_checkThenParse ..⟩
  | destinationUp => exact ⟨value_checkThenParse .., outputs_checkThenParse ..⟩
  | destinationUpdate => exact ⟨value_checkThenParse .., outputs_checkThenParse ..⟩
  | destinationDown => exact ⟨value_checkThenParse .., outputs_checkThenParse ..⟩

/-- What is sent for an accepted message of the session. -/
lemma responses_dispatch {k : SessionMessage}
    (h : bigEndian (m.slice 0 2) = k.kind.messageType.code.toNat)
    (hsc : (k.kind.check len).value m = .success) :
    responses ((dispatch len).outputs m) = k.answers (dataItemFormat.items m len 4) := by
  rw [(dispatch_session m len h).2, if_pos hsc, responses_append, (k.kind.silent_check m len).2,
    List.nil_append]
  cases k with
  | heartbeat => rfl
  | sessionUpdate => exact ParsedMessage.responses_parse .sessionUpdate m len hsc
  | destinationUp => exact ParsedMessage.responses_parse .destinationUp m len hsc
  | destinationUpdate => exact ParsedMessage.responses_parse .destinationUpdate m len hsc
  | destinationDown => exact ParsedMessage.responses_parse .destinationDown m len hsc

/-- Session Termination is answered whether it is valid or not. -/
lemma dispatch_sessionTerm (h : bigEndian (m.slice 0 2) = MessageType.sessionTerm.code.toNat) :
    (dispatch len).value m = .respond ∧
      reports ((dispatch len).outputs m) ⊆ [.received .sessionTerm] ∧
      responses ((dispatch len).outputs m) = [] := by
  obtain ⟨hrep, hresp⟩ := MessageKind.silent_check .sessionTerm m len
  simp only [MessageKind.check] at hrep hresp
  have hout : (dispatch len).outputs m = (checkSessionTermMessage len).outputs m ++
      if (checkSessionTermMessage len).value m = .success then
        [.report (.received .sessionTerm)] else [] := by
    simp [dispatch, ofCode_readUint16 h]
  refine ⟨by simp [dispatch, ofCode_readUint16 h], ?_, ?_⟩
  · rw [hout, reports_append, hrep]
    split_ifs <;> simp
  · rw [hout, responses_append, hresp]
    split_ifs <;> rfl

/-- Any other message is only refused. -/
lemma dispatch_unexpected {t : MessageType} (h : bigEndian (m.slice 0 2) = t.code.toNat)
    (hterm : t ≠ .sessionTerm) (hk : ∀ k : SessionMessage, t ≠ k.kind.messageType) :
    (dispatch len).value m = .status .unexpectedMessage ∧ (dispatch len).outputs m = [] := by
  have hup := hk .destinationUp
  have hdown := hk .destinationDown
  have hupdate := hk .destinationUpdate
  have hsession := hk .sessionUpdate
  have hbeat := hk .heartbeat
  simp only [dispatch, value_bind, outputs_bind, outputs_readUint16, List.nil_append,
    ofCode_readUint16 h]
  cases t <;> first | exact ⟨rfl, rfl⟩ | contradiction

lemma dispatch_unknown (h : MessageType.ofCode ((readUint16 0).value m) = none) :
    (dispatch len).value m = .status .unknownMessage ∧ (dispatch len).outputs m = [] := by
  simp [dispatch, h]

end Switch

/-! ### Refused messages -/

section Refused

variable {m : Memory UInt8} {len : ℕ}

/-- The verdict on a message of the session that is not accepted. -/
def Verdict.closing : Verdict → List UInt8
  | .respond => terminationResp
  | .status sc => termination sc.code

/-- Whether a verdict ends the session. -/
def Verdict.Ends : Verdict → Prop
  | .respond => True
  | .status sc => sc ≠ .success ∧ StatusCode.unknownMessage.code ≤ sc.code

lemma continues_iff {k : SessionMessage}
    (h : bigEndian (m.slice 0 2) = k.kind.messageType.code.toNat) :
    Continues m len ↔ (k.kind.check len).value m = .success := by
  constructor
  · rintro ⟨k', hk', hsc⟩
    have hcode : k'.kind.messageType.code.toNat = k.kind.messageType.code.toNat :=
      hk'.symm.trans h
    have hkk : k' = k := by
      cases k' <;> cases k <;> first | rfl | exact absurd hcode (by decide)
    rwa [hkk] at hsc
  · intro hsc
    exact ⟨k, h, hsc⟩

/-- An accepted message is as long as its length field says. -/
lemma Continues.length (h : Continues m len) : len = 4 + bigEndian (m.slice 2 2) := by
  obtain ⟨k, -, hsc⟩ := h
  obtain ⟨hle, -, hn⟩ := ((k.kind.check_eq_success_iff m len).mp hsc).1
  omega

/-- An accepted message does not end the session. -/
lemma Continues.value_dispatch (h : Continues m len) :
    (dispatch len).value m = .status .success := by
  obtain ⟨k, hk, hsc⟩ := h
  rw [(dispatch_session m len hk).1, hsc]

/-- A message that is not accepted ends the session, and the scan of it has no effect. -/
lemma refused (h : ¬ Continues m len) :
    ((dispatch len).value m).Ends ∧
      ((dispatch len).value m).closing = closingMessage (bigEndian (m.slice 0 2)) ∧
      reports ((dispatch len).outputs m) ⊆ [.received .sessionTerm] ∧
      responses ((dispatch len).outputs m) = [] := by
  rcases type_cases m with ⟨t, ht⟩ | ⟨hnone, hof⟩
  · rcases t.cases_in_session with ⟨k, rfl⟩ | rfl | ⟨hterm, hk, hclosing⟩
    · have hsc : (k.kind.check len).value m = .invalidData := by
        have hno := mt (continues_iff ht).mpr h
        rw [k.kind.value_check_of_type m len ht] at hno ⊢
        apply if_neg
        intro hyes
        exact hno (if_pos hyes)
      obtain ⟨hvalue, hout⟩ := dispatch_session m len ht
      obtain ⟨hrep, hresp⟩ := k.kind.silent_check m len
      rw [hsc, if_neg (by decide), List.append_nil] at hout
      rw [hvalue, hsc, hout, hrep, hresp, ht]
      exact ⟨by simp [Verdict.Ends]; decide, by cases k <;> decide, by simp, rfl⟩
    · obtain ⟨hvalue, hrep, hresp⟩ := dispatch_sessionTerm m len ht
      rw [hvalue, ht]
      exact ⟨trivial, rfl, hrep, hresp⟩
    · obtain ⟨hvalue, hout⟩ := dispatch_unexpected m len ht hterm hk
      rw [hvalue, hout, ht, hclosing]
      exact ⟨by simp [Verdict.Ends]; decide, rfl, by simp, rfl⟩
  · obtain ⟨hvalue, hout⟩ := dispatch_unknown m len hof
    rw [hvalue, hout, closingMessage_of_unregistered hnone]
    exact ⟨by simp [Verdict.Ends], rfl, by simp, rfl⟩

end Refused

/-! ### Handling a message -/

section Handling

variable {ok : Assumption sysSig}

/-- A message is accepted and answered, or it is refused and closes the session. -/
lemma ensures_handleMessage (n : ℕ) (b : Buffer) (len : ℕ) (modemHeartbeatInterval : UInt32) :
    (handleMessage n b len modemHeartbeatInterval).Ensures ok fun r t =>
      Continues b.octets len ∧ r = some 1 ∧ sends t = responses ((dispatch len).outputs b.octets) ∨
      ¬ Continues b.octets len ∧ r ≠ some 1 ∧
        Closes (closingMessage (bigEndian (b.octets.slice 0 2))) t := by
  apply (ensures_scan b.octets (dispatch len)).bind
  intro v t h
  obtain ⟨rfl, hsends⟩ := h
  by_cases hc : Continues b.octets len
  · rw [hc.value_dispatch]
    exact .inl ⟨hc, rfl, by simpa using hsends⟩
  · obtain ⟨hends, hclosing, -, hresp⟩ := refused hc
    rw [hresp] at hsends
    rw [← hclosing]
    cases hv : (dispatch len).value b.octets with
    | respond =>
      apply ensures_sendSessionTermResp.mono
      intro r t' h
      refine .inr ⟨hc, h.1, .inl ?_⟩
      rw [sends_append, hsends, h.2]
      rfl
    | status sc =>
      have hge : sc ≠ .success ∧ StatusCode.unknownMessage.code ≤ sc.code := by rwa [hv] at hends
      dsimp only
      rw [if_pos hge]
      apply (ensures_sendSessionTerm n sc b _).mono
      intro r t' h
      refine .inr ⟨hc, h.1, ?_⟩
      rcases h.2 with h' | ⟨h', hfailed⟩
      · exact .inl (by rw [sends_append, hsends, h']; rfl)
      · exact .inr ⟨by rw [sends_append, hsends, h']; rfl, hfailed.append⟩

/-- A session goes on after a message exactly if the message is one of the five that a modem may
send and its validator accepts it; the message then has the length it announces. Otherwise no parser
runs (each of them announces its message first) and the closing message of the type is all that is
sent. -/
theorem handleMessage_continues_iff {S : Type} (H : Handler sysSig S) (s : S) (n : ℕ) (b : Buffer)
    (len : ℕ) (modemHeartbeatInterval : UInt32) :
    (((handleMessage n b len modemHeartbeatInterval).run H s).value = some 1 ↔
      Continues b.octets len) ∧
    (Continues b.octets len → len = 4 + bigEndian (b.octets.slice 2 2)) ∧
    (¬ Continues b.octets len →
      ((handleMessage n b len modemHeartbeatInterval).run H s).value ≠ some 1 ∧
      reports ((dispatch len).outputs b.octets) ⊆ [.received .sessionTerm] ∧
      Closes (closingMessage (bigEndian (b.octets.slice 0 2)))
        ((handleMessage n b len modemHeartbeatInterval).run H s).trace) := by
  have hrun := (ensures_handleMessage n b len modemHeartbeatInterval).run_any H s
  refine ⟨?_, Continues.length, ?_⟩
  · rcases hrun with ⟨hc, hr, -⟩ | ⟨hc, hr, -⟩
    · simp [hc, hr]
    · simp [hc, hr]
  · intro hno
    rcases hrun with ⟨hc, -, -⟩ | ⟨-, hr, hcloses⟩
    · exact absurd hc hno
    · exact ⟨hr, (refused hno).2.2.1, hcloses⟩

end Handling

end DlepRouter
