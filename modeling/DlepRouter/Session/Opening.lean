import DlepRouter.Check.Accept
import DlepRouter.Session.Protocol

/-!
# What a Session Initialization Response leads to

The validator, the parser and the branch of `session` behind them, taken together: an accepted
response leads into `in_session` with the interval of its only Heartbeat Interval, or, if the code
of its only Status is not 0, to a Session Termination.
-/

namespace DlepRouter

open Interaction Tlv Scan

/-! ### The two halves of a session -/

/-- What `session` has in hands when `recv_message` has returned. -/
inductive Reply where
  | noSocket
  | failed
  | message : ℕ → Buffer → Reply

/-- `session` up to the reply: connect, send the Session Initialization and receive a message. -/
def awaitReply (modemAddress : List UInt8) (routerHeartbeatInterval : UInt32) : Sys Reply := do
  let created ← Sys.call (.socket (modemAddress.take 2))
  if ¬ created then pure .noSocket
  else do
    let connected ← Sys.call (.connect modemAddress)
    if ¬ connected then pure .failed
    else if ← sendSessionInitMessage routerHeartbeatInterval then do
      let (received, b) ← recvMessage .null
      match received with
      | none => pure .failed
      | some 0 => pure .failed
      | some len => pure (.message len b)
    else pure .failed

/-- What `session` does with a message of `len` octets that it has received, up to `close`. -/
def answerResponse (n : ℕ) (routerHeartbeatInterval : UInt32) (len : ℕ) (b : Buffer) :
    Sys (Option ℤ) := do
  let sc ← scan b.octets (checkSessionInitRespMessage len)
  if sc = .success then do
    let (sc, resp) ← scan b.octets (parseSessionInitRespMessage 4 (len - 4) .initial)
    runSession n b sc resp routerHeartbeatInterval
  else pure (some (-1))

/-- `session` from the reply on. -/
def answerReply (n : ℕ) (routerHeartbeatInterval : UInt32) : Reply → Sys (Option ℤ)
  | .noSocket => pure (some (-1))
  | .failed => closeSession (some (-1))
  | .message len b => answerResponse n routerHeartbeatInterval len b >>= closeSession

/-- A session is made up of the two halves. -/
lemma session_eq (n : ℕ) (modemAddress : List UInt8) (routerHeartbeatInterval : UInt32) :
    session n modemAddress routerHeartbeatInterval =
      awaitReply modemAddress routerHeartbeatInterval >>=
        answerReply n routerHeartbeatInterval := by
  simp only [session, openSession, awaitReply, Program.bind_assoc]
  apply bind_congr
  intro created
  cases created with
  | false => rfl
  | true =>
    simp only [not_true, if_false, Program.bind_assoc]
    apply bind_congr
    intro connected
    cases connected with
    | false => rfl
    | true =>
      simp only [not_true, if_false, Program.bind_assoc]
      apply bind_congr
      intro sent
      cases sent with
      | false => rfl
      | true =>
        simp only [if_true, Program.bind_assoc]
        apply bind_congr
        intro received
        obtain ⟨received, b⟩ := received
        match received with
        | none | some 0 => rfl
        | some (len + 1) =>
          simp only [Program.pure_eq_ret, Program.ret_bind, answerReply, answerResponse,
            Program.bind_assoc]
          apply bind_congr
          intro sc
          split_ifs
          · simp only [Program.bind_assoc]
            rfl
          · rfl

/-! ### Accepted responses -/

section Answer

variable {b : Buffer} {len : ℕ} (n : ℕ) (routerHeartbeatInterval : UInt32)

/-- A scan that sends nothing is its value. -/
lemma scan_of_silent {α : Type} {m : Memory UInt8} {p : Reader α}
    (h : responses (p.outputs m) = []) : scan m p = pure (p.value m) := by
  rw [scan_eq, h]
  rfl

lemma scan_checkSessionInitResp (m : Memory UInt8) (len : ℕ) :
    scan m (checkSessionInitRespMessage len) = pure ((checkSessionInitRespMessage len).value m) :=
  scan_of_silent (MessageKind.silent_check .sessionInitResp m len).2

/-- A rejected response is not answered. -/
lemma answerResponse_of_rejected
    (h : (checkSessionInitRespMessage len).value b.octets ≠ .success) :
    answerResponse n routerHeartbeatInterval len b = pure (some (-1)) := by
  rw [answerResponse, scan_checkSessionInitResp]
  exact if_neg h

/-- The status of an accepted response decides how the session goes on, and its interval is the one
that the session goes on with. -/
lemma answerResponse_of_accepted {resp : InitResp}
    (h : (checkSessionInitRespMessage len).value b.octets = .success)
    (hresp : resp.Holds (dataItemFormat.items b.octets len 4)) :
    answerResponse n routerHeartbeatInterval len b =
      if resp.sc = 0 then inSession n b resp.heartbeatInterval routerHeartbeatInterval
      else sendSessionTerm n .shutdown b resp.heartbeatInterval := by
  have hsilent := ParsedMessage.responses_parseSessionInitResp b.octets len h
  obtain ⟨resp', hvalue, hholds, -⟩ := parseSessionInitResp_holds h .initial
  obtain rfl := hresp.unique hholds
  have hrun : answerResponse n routerHeartbeatInterval len b =
      runSession n b .success resp routerHeartbeatInterval := by
    rw [answerResponse, scan_checkSessionInitResp, Program.pure_eq_ret, Program.ret_bind, if_pos h,
      scan_of_silent hsilent, hvalue]
    rfl
  rw [hrun, runSession, if_neg (not_not.mpr rfl)]
  exact ite_not ..

end Answer

/-- What an accepted Session Initialization Response, in memory `m`, makes of its parser and of the
session: both values come from its items, whatever the parser is given, and the status decides
between the session and one Session Termination. -/
structure Decisive (m : Memory UInt8) (len : ℕ) (resp : InitResp) : Prop where
  holds : resp.Holds (splitPayload m len).1
  interval_ne_zero : resp.heartbeatInterval ≠ 0
  parsed : ∀ st, (parseSessionInitRespMessage 4 (len - 4) st).value m = (.success, resp)
  enters : ∀ n ri size, resp.sc = 0 →
    answerResponse n ri len ⟨size, m⟩ = inSession n ⟨size, m⟩ resp.heartbeatInterval ri
  terminates : ∀ n ri size, resp.sc ≠ 0 →
    answerResponse n ri len ⟨size, m⟩ =
      sendSessionTerm n .shutdown ⟨size, m⟩ resp.heartbeatInterval

/-- A session enters `in_session` only behind an accepted response, and with what that says. All
other responses end it: one with another status by a Session Termination, a rejected one without a
message. -/
theorem session_follows_response (n : ℕ) (modemAddress : List UInt8)
    (routerHeartbeatInterval : UInt32) :
    session n modemAddress routerHeartbeatInterval =
        awaitReply modemAddress routerHeartbeatInterval >>= answerReply n routerHeartbeatInterval ∧
      (∀ m len, (checkSessionInitRespMessage len).value m = .success →
        dataItemFormat.Tiles m 4 len → ∃ resp, Decisive m len resp) ∧
      (∀ b len, (checkSessionInitRespMessage len).value b.octets ≠ .success →
        answerResponse n routerHeartbeatInterval len b = pure (some (-1))) ∧
      ∀ b interval, (sendSessionTerm n .shutdown b interval).Ensures (fun _ _ => True)
        fun _ t => Closes (termination 255) t := by
  refine ⟨session_eq n modemAddress routerHeartbeatInterval, ?_, ?_, ?_⟩
  · intro m len h htiles
    obtain ⟨resp, -, hholds, hpos⟩ := parseSessionInitResp_holds h .initial
    refine ⟨resp, ?_, hpos, ?_, ?_, ?_⟩
    · rwa [Format.items_eq_of_tiles htiles] at hholds
    · intro st
      obtain ⟨resp', hvalue, hholds', -⟩ := parseSessionInitResp_holds h st
      rw [hvalue, hholds.unique hholds']
    · intro n ri size hsc
      rw [answerResponse_of_accepted (b := ⟨size, m⟩) n ri h hholds, if_pos hsc]
    · intro n ri size hsc
      rw [answerResponse_of_accepted (b := ⟨size, m⟩) n ri h hholds, if_neg hsc]
  · intro b len h
    exact answerResponse_of_rejected n routerHeartbeatInterval h
  · intro b interval
    exact (ensures_sendSessionTerm n .shutdown b interval).mono fun _ _ h => h.2

/-- A response whose items are not in the usual order, with one of an unknown type in front. -/
def shuffledResponse : List UInt8 :=
  [0x00, 0x02, 0x00, 0x53, 0xFF, 0x00, 0x00, 0x01, 0x07,
    0x00, 0x05, 0x00, 0x04, 0x00, 0x00, 0x13, 0x88,
    0x00, 0x10, 0x00, 0x08, 0x00, 0x00, 0x00, 0x00, 0x00, 0x00, 0x00, 0x09,
    0x00, 0x0F, 0x00, 0x08, 0x00, 0x00, 0x00, 0x00, 0x00, 0x00, 0x00, 0x09,
    0x00, 0x0E, 0x00, 0x08, 0x00, 0x00, 0x00, 0x00, 0x00, 0x00, 0x00, 0x09,
    0x00, 0x0D, 0x00, 0x08, 0x00, 0x00, 0x00, 0x00, 0x00, 0x00, 0x00, 0x09,
    0x00, 0x0C, 0x00, 0x08, 0x00, 0x00, 0x00, 0x00, 0x00, 0x00, 0x00, 0x09,
    0x00, 0x04, 0x00, 0x01, 0x00, 0x00, 0x01, 0x00, 0x01, 0x00]

set_option maxRecDepth 10000 in
theorem session_follows_response_shuffled :
    ∃ resp, Decisive (.overlay shuffledResponse fun _ => 0) 87 resp := by
  refine (session_follows_response 1 [] 60000).2.1 _ _ (by decide +kernel) ?_
  iterate 9 apply Format.Tiles.item (by decide +kernel)
  exact .done _

end DlepRouter
