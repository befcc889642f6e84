import DlepRouter.Session.System

/-!
# Receiving and sending messages (`session.c`)

A function that returns a `ssize_t` yields `none` for -1. A function that ends or continues the
session yields -1, 0 or 1, or `none` if it has not come to an end after `n` rounds of its loop.
-/

namespace DlepRouter

open Interaction Tlv Scan

/-! ### Receiving -/

/-- `recv_message`: the value it returns, and the buffer it leaves behind. -/
def recvMessage (b : Buffer) : Sys (Option ℕ × Buffer) := do
  match ← Sys.call (.realloc 4) with
  | none => pure (none, b)
  | some fresh =>
    let b := b.resize 4 fresh
    match ← Sys.call (.recv 4) with
    | none => pure (none, b)
    | some header =>
      let b := b.store 0 header.val
      if header.val.length = 4 then
        let reportedLen := ((readUint16 2).value b.octets).toNat
        if reportedLen ≠ 0 then
          match ← Sys.call (.realloc (reportedLen + 4)) with
          | none => pure (none, b)
          | some fresh =>
            let b := b.resize (reportedLen + 4) fresh
            match ← Sys.call (.recv reportedLen) with
            | none => pure (none, b)
            | some body => pure (some (body.val.length + 4), b.store 4 body.val)
        else pure (some 4, b)
      else pure (some header.val.length, b)

/-! ### Sending -/

def sendSessionInitMessage (routerHeartbeatInterval : UInt32) : Sys Bool :=
  Sys.send (sessionInitMessage peerType routerHeartbeatInterval)

def sendHeartbeat : Sys Unit := do
  let _ ← Sys.send heartbeatMessage

def sendSessionTermResp : Sys (Option ℤ) := do
  if ← Sys.send sessionTermRespMessage then pure (some 0) else pure (some (-1))

/-! ### The termination state -/

/-- What `term_session` keeps from round to round. -/
structure TermState where
  lastRecvTime : Timespec
  timeout : Timeval
  buffer : Buffer

/-- One round of `term_session`. -/
def termRound (modemHeartbeatInterval : UInt32) (st : TermState) :
    Sys (TermState ⊕ Option ℤ) := do
  match ← Sys.call (.select st.timeout) with
  | none => pure (.inr (some (-1)))
  | some ready =>
    let st := { st with timeout := ready.timeout }
    let nowTime ← Sys.call .clockGettime
    if ¬ ready.readable then
      if intervalCompare st.lastRecvTime nowTime (modemHeartbeatInterval * 4) > 0 then
        pure (.inr (some (-1)))
      else pure (.inl st)
    else do
      let (received, b) ← recvMessage st.buffer
      match received with
      | none => pure (.inr (some (-1)))
      | some 0 => pure (.inr (some (-1)))
      -- The message is not looked at: `r` is 0 instead of the result of `handle_message`.
      | some _ =>
        let r : ℤ := 0
        if r ≠ 1 then pure (.inr (some r))
        else pure (.inl { st with lastRecvTime := nowTime, buffer := b })

/-- `term_session`. -/
def termSession (n : ℕ) (b : Buffer) (modemHeartbeatInterval : UInt32) : Sys (Option ℤ) := do
  let nowTime ← Sys.call .clockGettime
  let timeout : Timeval :=
    ⟨(modemHeartbeatInterval / 1000).toNat, ((modemHeartbeatInterval % 1000) * 1000).toNat⟩
  Program.forever (termRound modemHeartbeatInterval) (fun _ => none) n ⟨nowTime, timeout, b⟩

/-- `send_session_term`, which writes its message into the session's buffer. -/
def sendSessionTerm (n : ℕ) (sc : StatusCode) (b : Buffer) (modemHeartbeatInterval : UInt32) :
    Sys (Option ℤ) := do
  match ← Sys.call (.realloc 9) with
  | none => pure (some (-1))
  | some fresh =>
    let b := (b.resize 9 fresh).store 0 (sessionTermMessage sc)
    if ← Sys.send (b.octets.slice 0 9) then termSession n b modemHeartbeatInterval
    else pure (some (-1))

end DlepRouter
