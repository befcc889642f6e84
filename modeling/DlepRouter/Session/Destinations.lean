import DlepRouter.Check.Accept
import DlepRouter.Session.Framing

/-!
# How destinations are answered

A Destination Up or Destination Down is answered from inside the parser's loop, once for every MAC
Address it meets. The validator before it lets one MAC Address pass, so there is one response for
each request, in the order of the requests, and none for anything else.
-/

namespace DlepRouter

open Interaction Tlv Scan

/-! ### Requests and responses -/

/-- A complete message that its validator accepts and whose items tile its payload. -/
structure ValidMessage where
  kind : MessageKind
  len : ℕ
  buffer : Buffer
  accepted : (kind.check len).value buffer.octets = .success
  tiles : dataItemFormat.Tiles buffer.octets 4 len

namespace ValidMessage

variable (msg : ValidMessage)

/-- The data items of a message. -/
def items : List DataItem := (splitPayload msg.buffer.octets msg.len).1

/-- The only MAC Address in the message is `mac`. -/
def HasMac (mac : List UInt8) : Prop :=
  Contents.payloads .macAddress msg.items = [mac] ∧ mac.length = 6

end ValidMessage

/-- Destination responses that answer a sequence of messages: one for each Destination Up and each
Destination Down, in the order of the messages, with the MAC address of the message and status
Success. -/
inductive AnsweredBy : List ValidMessage → List (List UInt8) → Prop where
  | nil : AnsweredBy [] []
  | up {msg : ValidMessage} {msgs : List ValidMessage} {mac : List UInt8}
      {rs : List (List UInt8)} (hkind : msg.kind = .destinationUp) (hmac : msg.HasMac mac)
      (h : AnsweredBy msgs rs) :
      AnsweredBy (msg :: msgs) (destinationUpRespMessage mac .success :: rs)
  | down {msg : ValidMessage} {msgs : List ValidMessage} {mac : List UInt8}
      {rs : List (List UInt8)} (hkind : msg.kind = .destinationDown) (hmac : msg.HasMac mac)
      (h : AnsweredBy msgs rs) :
      AnsweredBy (msg :: msgs) (destinationDownRespMessage mac .success :: rs)
  | other {msg : ValidMessage} {msgs : List ValidMessage} {rs : List (List UInt8)}
      (hup : msg.kind ≠ .destinationUp) (hdown : msg.kind ≠ .destinationDown)
      (h : AnsweredBy msgs rs) : AnsweredBy (msg :: msgs) rs

/-- Handle messages one after the other, whatever becomes of each. -/
def handleMessages (n : ℕ) (modemHeartbeatInterval : UInt32) : List ValidMessage → Sys Unit
  | [] => pure ()
  | msg :: msgs => do
    let _ ← handleMessage n msg.buffer msg.len modemHeartbeatInterval
    handleMessages n modemHeartbeatInterval msgs

/-- The message is a response to a destination, judged by its type. -/
def IsRespType (msg : List UInt8) : Prop :=
  bigEndian (msg.take 2) = MessageType.destUpResp.code.toNat ∨
    bigEndian (msg.take 2) = MessageType.destDownResp.code.toNat

instance : DecidablePred IsRespType := fun _ => inferInstanceAs (Decidable (_ ∨ _))

/-- The destination responses among messages sent. -/
def destinationResps (msgs : List (List UInt8)) : List (List UInt8) :=
  msgs.filter (IsRespType ·)

@[simp] lemma destinationResps_append (msgs msgs' : List (List UInt8)) :
    destinationResps (msgs ++ msgs') = destinationResps msgs ++ destinationResps msgs' :=
  List.filter_append ..

/-! ### What the parsers answer -/

/-- An answer for every item of a type is one for every payload. -/
lemma Contents.map_payloads {α : Type} (t : DataItemType) (f : List UInt8 → α)
    (is : List DataItem) :
    (payloads t is).map f =
      is.flatMap fun i => if DataItemType.ofCode i.tag = some t then [f i.body] else [] := by
  induction is with
  | nil => rfl
  | cons i is ih =>
    rw [List.flatMap_cons, ← ih, payloads, payloads, List.filter_cons]
    by_cases ht : DataItemType.ofCode i.tag = some t
    · simp [ht]
    · simp [ht]

namespace ParsedMessage

/-- A parser that answers each MAC Address, and nothing else, answers the payloads of these. -/
lemma answers_eq_map {k : ParsedMessage} {f : List UInt8 → List UInt8}
    (h : ∀ i, k.answerTo i =
      if DataItemType.ofCode i.tag = some .macAddress then [f i.body] else [])
    (is : List DataItem) : k.answers is = (Contents.payloads .macAddress is).map f := by
  rw [Contents.map_payloads, answers]
  congr 1
  funext i
  exact h i

lemma answers_destinationUp (is : List DataItem) :
    answers .destinationUp is =
      (Contents.payloads .macAddress is).map (destinationUpRespMessage · .success) := by
  apply answers_eq_map
  intro i
  unfold answerTo
  split <;> simp_all

lemma answers_destinationDown (is : List DataItem) :
    answers .destinationDown is =
      (Contents.payloads .macAddress is).map (destinationDownRespMessage · .success) := by
  apply answers_eq_map
  intro i
  unfold answerTo
  split <;> simp_all

end ParsedMessage

/-- Only a destination that comes up or goes down is answered. -/
lemma SessionMessage.answers_eq_nil {k : SessionMessage} (hup : k ≠ .destinationUp)
    (hdown : k ≠ .destinationDown) (is : List DataItem) : k.answers is = [] := by
  cases k with
  | destinationUp => exact absurd rfl hup
  | destinationDown => exact absurd rfl hdown
  | heartbeat => rfl
  | sessionUpdate | destinationUpdate => exact List.flatMap_eq_nil_iff.mpr fun _ _ => rfl

/-! ### One message -/

namespace ValidMessage

variable (msg : ValidMessage)

lemma headed : Headed msg.buffer.octets msg.len msg.kind.messageType :=
  ((msg.kind.check_eq_success_iff _ _).mp msg.accepted).1

lemma items_eq : dataItemFormat.items msg.buffer.octets msg.len 4 = msg.items :=
  Format.items_eq_of_tiles msg.tiles

/-- A message that must have a MAC Address has one, of six octets. -/
lemma exists_hasMac (h : .macAddress ∈ msg.kind.contents.exactlyOnce) : ∃ mac, msg.HasMac mac := by
  obtain ⟨-, hacc⟩ := (msg.kind.check_eq_success_iff _ _).mp msg.accepted
  obtain ⟨v, -, hmac, hwf⟩ := exists_only_visit hacc h
  rw [msg.items_eq] at hmac
  exact ⟨_, hmac, hwf⟩

end ValidMessage

section Handling

variable {ok : Assumption sysSig} (n : ℕ) (modemHeartbeatInterval : UInt32)

/-- What a message that its validator accepts leads to: the answers of a session message, or a
closing message. -/
lemma ensures_handleMessage_valid (msg : ValidMessage) :
    (handleMessage n msg.buffer msg.len modemHeartbeatInterval).Ensures ok fun _ t =>
      (∃ k : SessionMessage, msg.kind = k.kind ∧ sends t = k.answers msg.items) ∨
      ((∀ k : SessionMessage, msg.kind ≠ k.kind) ∧ ∃ type, Closes (closingMessage type) t) := by
  apply (ensures_handleMessage n msg.buffer msg.len _).mono
  intro r t h
  rcases h with ⟨⟨k, htype, hsc⟩, -, hsends⟩ | ⟨hnot, -, hcloses⟩
  · left
    refine ⟨k, MessageKind.code_injective (msg.headed.2.1.symm.trans htype), ?_⟩
    rw [hsends, responses_dispatch _ _ htype hsc, msg.items_eq]
  · right
    refine ⟨?_, _, hcloses⟩
    intro k hk
    apply hnot
    refine ⟨k, ?_, ?_⟩
    · rw [← hk]
      exact msg.headed.2.1
    · rw [← hk]
      exact msg.accepted

/-- A closing message is no response to a destination. -/
lemma destinationResps_closing {type : ℕ} {t : List (Event sysSig)}
    (h : Closes (closingMessage type) t) : destinationResps (sends t) = [] := by
  have hterm : ∀ status, ¬ IsRespType (termination status) := by
    intro status
    change ¬ (bigEndian [0x00, 0x05] = _ ∨ bigEndian [0x00, 0x05] = _)
    decide
  have hclosing : ¬ IsRespType (closingMessage type) := by
    unfold closingMessage
    split_ifs
    · decide
    · exact hterm 130
    · exact hterm 129
    · exact hterm 128
  rcases h with h | ⟨h, -⟩
  · rw [h, destinationResps, List.filter_singleton]
    simp [hclosing]
  · rw [h]
    rfl

/-- One message adds its response, if it calls for one. -/
lemma ensures_handleMessage_answers (msg : ValidMessage) :
    (handleMessage n msg.buffer msg.len modemHeartbeatInterval).Ensures ok fun _ t =>
      ∀ msgs rs, AnsweredBy msgs rs →
        AnsweredBy (msg :: msgs) (destinationResps (sends t) ++ rs) := by
  apply (ensures_handleMessage_valid n modemHeartbeatInterval msg).mono
  intro _ t h msgs rs hrs
  rcases h with ⟨k, hk, hsends⟩ | ⟨hk, type, hcloses⟩
  · rw [hsends]
    cases k with
    | destinationUp =>
      obtain ⟨mac, hmac⟩ := msg.exists_hasMac (by rw [hk]; decide)
      rw [SessionMessage.answers, ParsedMessage.answers_destinationUp, hmac.1]
      exact .up hk hmac hrs
    | destinationDown =>
      obtain ⟨mac, hmac⟩ := msg.exists_hasMac (by rw [hk]; decide)
      rw [SessionMessage.answers, ParsedMessage.answers_destinationDown, hmac.1]
      exact .down hk hmac hrs
    | heartbeat | sessionUpdate | destinationUpdate =>
      rw [SessionMessage.answers_eq_nil (by decide) (by decide)]
      exact .other (by rw [hk]; decide) (by rw [hk]; decide) hrs
  · rw [destinationResps_closing hcloses]
    exact .other (hk .destinationUp) (hk .destinationDown) hrs

/-- The responses to a sequence of messages are those that the messages call for, in every
environment. -/
lemma ensures_handleMessages (msgs : List ValidMessage) :
    (handleMessages n modemHeartbeatInterval msgs).Ensures ok fun _ t =>
      AnsweredBy msgs (destinationResps (sends t)) := by
  induction msgs with
  | nil => exact .nil
  | cons msg msgs ih =>
    apply (ensures_handleMessage_answers n modemHeartbeatInterval msg).bind
    intro _ t ht
    apply ih.mono
    intro _ t' ht'
    rw [sends_append, destinationResps_append]
    exact ht msgs _ ht'

end Handling

/-- Every sequence of complete messages that their validators accept is answered by one destination
response for each Destination Up and Destination Down, in the order of the messages, and by no
other. -/
theorem handleMessages_answeredBy {S : Type} (H : Handler sysSig S) (s : S) (n : ℕ)
    (modemHeartbeatInterval : UInt32) (msgs : List ValidMessage) :
    AnsweredBy msgs
      (destinationResps (sends ((handleMessages n modemHeartbeatInterval msgs).run H s).trace)) :=
  (ensures_handleMessages n modemHeartbeatInterval msgs).run_any H s

/-- A Destination Up with its resources, and with its MAC address behind them. -/
def destinationComes : ValidMessage where
  kind := .destinationUp
  len := 19
  buffer := ⟨19, Memory.overlay [0x00, 0x07, 0x00, 0x0F, 0x00, 0x11, 0x00, 0x01, 0x32,
    0x00, 0x07, 0x00, 0x06, 0x02, 0x00, 0x00, 0x00, 0x00, 0x01] fun _ => 0⟩
  accepted := by decide +kernel
  tiles := .item (by decide) (.item (by decide) (.done 19))

/-- A Destination Down for the same address. -/
def destinationGoes : ValidMessage where
  kind := .destinationDown
  len := 14
  buffer := ⟨14, Memory.overlay [0x00, 0x0B, 0x00, 0x0A,
    0x00, 0x07, 0x00, 0x06, 0x02, 0x00, 0x00, 0x00, 0x00, 0x01] fun _ => 0⟩
  accepted := by decide +kernel
  tiles := .item (by decide) (.done 14)

/-- A destination that comes and goes is answered twice. -/
theorem answeredBy_destinationComes_destinationGoes :
    AnsweredBy [destinationComes, destinationGoes]
      (destinationResps (sends ((handleMessages 1 60000 [destinationComes, destinationGoes]).run
        scripted ⟨[], [], [], []⟩).trace)) ∧
    destinationResps (sends ((handleMessages 1 60000 [destinationComes, destinationGoes]).run
        scripted ⟨[], [], [], []⟩).trace) =
      [destinationUpRespMessage [0x02, 0x00, 0x00, 0x00, 0x00, 0x01] .success,
        destinationDownRespMessage [0x02, 0x00, 0x00, 0x00, 0x00, 0x01] .success] :=
  ⟨handleMessages_answeredBy scripted _ 1 60000 _, by decide +kernel⟩

end DlepRouter
