import DlepRouter.Check.Messages
import DlepRouter.Parse.Messages
import DlepRouter.Session.Transport

/-!
# The session (`session.c`)

The states of a session: it opens with a Session Initialization and its response, handles messages
in `in_session`, and ends with a termination. The `switch` over the message type only scans the
buffer, so it is a program of its own that `handle_message` runs.
-/

namespace DlepRouter

open Interaction Tlv Scan

/-! ### Handling a message -/

/-- What `handle_message` does after its `switch`. -/
inductive Verdict where
  | respond
  | status : StatusCode → Verdict
  deriving DecidableEq

/-- A case of the `switch` that validates a message and, if it is valid, parses it. -/
def checkThenParse (check : ℕ → Reader StatusCode) (parse : Reader Unit) (len : ℕ) :
    Reader Verdict := do
  let sc ← check len
  if sc = .success then parse
  pure (.status sc)

/-- The `switch` of `handle_message`. -/
def dispatch (len : ℕ) : Reader Verdict := do
  let msgId ← readUint16 0
  let msgLen ← readUint16 2
  match MessageType.ofCode msgId with
  | some .sessionTerm => do
    let sc ← checkSessionTermMessage len
    if sc = .success then print (.received .sessionTerm)
    -- Always send a response, otherwise it's tough to quit!
    pure .respond
  | some .sessionUpdate =>
    checkThenParse checkSessionUpdateMessage (parseSessionUpdateMessage 4 msgLen.toNat) len
  | some .destUp =>
    checkThenParse checkDestinationUpMessage (parseDestinationUpMessage 4 msgLen.toNat) len
  | some .destDown =>
    checkThenParse checkDestinationDownMessage (parseDestinationDownMessage 4 msgLen.toNat) len
  | some .destUpdate =>
    checkThenParse checkDestinationUpdateMessage (parseDestinationUpdateMessage 4 msgLen.toNat) len
  | some .peerHeartbeat =>
    checkThenParse checkHeartbeatMessage (print (.received .peerHeartbeat)) len
  | some _ => pure (.status .unexpectedMessage)
  | none => pure (.status .unknownMessage)

/-- `handle_message`, on the `len` octets received into the buffer. -/
def handleMessage (n : ℕ) (b : Buffer) (len : ℕ) (modemHeartbeatInterval : UInt32) :
    Sys (Option ℤ) := do
  match ← scan b.octets (dispatch len) with
  | .respond => sendSessionTermResp
  | .status sc =>
    if sc ≠ .success ∧ StatusCode.unknownMessage.code ≤ sc.code then
      sendSessionTerm n sc b modemHeartbeatInterval
    else pure (some 1)

/-! ### In session -/

/-- What `in_session` keeps from round to round. -/
structure SessionState where
  lastRecvTime : Timespec
  lastSentTime : Timespec
  timeout : Timeval
  buffer : Buffer

/-- Send out a heartbeat if the timer has expired. -/
def heartbeatIfDue (routerHeartbeatInterval : UInt32) (nowTime : Timespec) (st : SessionState) :
    Sys SessionState :=
  if intervalCompare st.lastSentTime nowTime routerHeartbeatInterval > 0 then do
    sendHeartbeat
    pure { st with lastSentTime := nowTime }
  else pure st

/-- One round of `in_session`. -/
def sessionRound (n : ℕ) (modemHeartbeatInterval routerHeartbeatInterval : UInt32)
    (st : SessionState) : Sys (SessionState ⊕ Option ℤ) := do
  match ← Sys.call (.select st.timeout) with
  | none => pure (.inr (some (-1)))
  | some ready =>
    let st := { st with timeout := ready.timeout }
    let nowTime ← Sys.call .clockGettime
    let st ← heartbeatIfDue routerHeartbeatInterval nowTime st
    if ¬ ready.readable then
      if intervalCompare st.lastRecvTime nowTime (modemHeartbeatInterval * 2) > 0 then do
        let r ← sendSessionTerm n .timedOut st.buffer modemHeartbeatInterval
        pure (.inr r)
      else pure (.inl st)
    else do
      let (received, b) ← recvMessage st.buffer
      match received with
      | none => pure (.inr (some (-1)))
      | some 0 => pure (.inr (some (-1)))
      | some len => do
        let r ← handleMessage n b len modemHeartbeatInterval
        if r ≠ some 1 then pure (.inr r)
        else pure (.inl { st with buffer := b, lastRecvTime := nowTime })

/-- `in_session`. -/
def inSession (n : ℕ) (b : Buffer) (modemHeartbeatInterval routerHeartbeatInterval : UInt32) :
    Sys (Option ℤ) := do
  let nowTime ← Sys.call .clockGettime
  let shorter :=
    if modemHeartbeatInterval < routerHeartbeatInterval then modemHeartbeatInterval
    else routerHeartbeatInterval
  let timeout : Timeval := ⟨shorter.toNat / 1000, shorter.toNat % 1000 * 1000⟩
  Program.forever (sessionRound n modemHeartbeatInterval routerHeartbeatInterval)
    (fun _ => none) n ⟨nowTime, nowTime, timeout, b⟩

/-! ### The whole session -/

/-- How the opening of a session ended. A response that was accepted comes with the result of its
parser. -/
inductive Opening where
  | noSocket
  | unconnected
  | unanswered
  | rejected
  | accepted : Buffer → StatusCode → InitResp → Opening

/-- The opening of `session`: connect, send the Session Initialization, and receive and check the
response. -/
def openSession (modemAddress : List UInt8) (routerHeartbeatInterval : UInt32) : Sys Opening := do
  let created ← Sys.call (.socket (modemAddress.take 2))
  if ¬ created then pure .noSocket
  else do
    let connected ← Sys.call (.connect modemAddress)
    if ¬ connected then pure .unconnected
    else if ← sendSessionInitMessage routerHeartbeatInterval then do
      let (received, b) ← recvMessage .null
      match received with
      | none => pure .unanswered
      | some 0 => pure .unanswered
      | some len => do
        let sc ← scan b.octets (checkSessionInitRespMessage len)
        if sc = .success then do
          let (sc, resp) ← scan b.octets (parseSessionInitRespMessage 4 (len - 4) .initial)
          pure (.accepted b sc resp)
        else pure .rejected
    else pure .unanswered

/-- What `session` does with an accepted response. -/
def runSession (n : ℕ) (b : Buffer) (sc : StatusCode) (resp : InitResp)
    (routerHeartbeatInterval : UInt32) : Sys (Option ℤ) :=
  if sc ≠ .success then do
    let r ← sendSessionTerm n sc b resp.heartbeatInterval
    pure (r.map fun _ => -1)
  else if resp.sc ≠ StatusCode.success.code then
    sendSessionTerm n .shutdown b resp.heartbeatInterval
  else inSession n b resp.heartbeatInterval routerHeartbeatInterval

/-- `close(s); return ret;`, once there is something to return. -/
def closeSession : Option ℤ → Sys (Option ℤ)
  | none => pure none
  | some ret => do
    Sys.call .close
    pure (some ret)

/-- `session`. -/
def session (n : ℕ) (modemAddress : List UInt8) (routerHeartbeatInterval : UInt32) :
    Sys (Option ℤ) := do
  match ← openSession modemAddress routerHeartbeatInterval with
  | .noSocket => pure (some (-1))
  | .unconnected | .unanswered | .rejected => closeSession (some (-1))
  | .accepted b sc resp => do
    let ret ← runSession n b sc resp routerHeartbeatInterval
    closeSession ret

end DlepRouter
