import DlepRouter.Encode

/-!
# The system a session runs in

The calls that `session.c` makes and the answers it can get: what the kernel, the peer and the
allocator do is left open. A message buffer is a block of memory of some size; the octets behind it
are there too, with any contents, since the validators and parsers may read them.
-/

namespace DlepRouter

open Interaction Tlv Scan

/-! ### Calls -/

/-- `struct timeval`. -/
structure Timeval where
  sec : ℕ
  usec : ℕ
  deriving DecidableEq

/-- The calls of a session, on its one socket. -/
inductive SysCall where
  | socket : (family : List UInt8) → SysCall
  | connect : (address : List UInt8) → SysCall
  | close : SysCall
  | send : List UInt8 → SysCall
  | recv : ℕ → SysCall
  | select : Timeval → SysCall
  | clockGettime : SysCall
  | realloc : ℕ → SysCall

/-- The answer of `select`: whether the socket is readable, and the timeout it leaves behind. -/
structure Selected where
  readable : Bool
  timeout : Timeval

/-- The answers to each call. A `send` takes a part of the message, a `recv` yields at most the
octets asked for, none of them when the peer has closed; `none` stands for an error. A block that
was allocated comes with the memory it lies in. -/
abbrev SysCall.Answer : SysCall → Type
  | socket _ | connect _ => Bool
  | close => Unit
  | send msg => Option (Fin (msg.length + 1))
  | recv n => Option { bs : List UInt8 // bs.length ≤ n }
  | select _ => Option Selected
  | clockGettime => Timespec
  | realloc _ => Option (Memory UInt8)

abbrev sysSig : Signature where
  Op := SysCall
  Ans := SysCall.Answer

/-- Programs that make system calls. -/
abbrev Sys (α : Type) := Program sysSig α

namespace Sys

/-- Make a system call. -/
def call (c : SysCall) : Sys c.Answer := Program.perform (σ := sysSig) c

/-- Hand a message to `send`; the answer says whether all of it was taken. -/
def send (msg : List UInt8) : Sys Bool := do
  let sent ← call (.send msg)
  pure (sent.map Fin.val = some msg.length)

end Sys

/-- The rule of a call: whatever it is answered, what follows ensures the postcondition. -/
lemma ensures_call_bind {ok : Assumption sysSig} {α : Type} {c : SysCall} {f : c.Answer → Sys α}
    {Q : α → List (Event sysSig) → Prop}
    (h : ∀ r, ok c r → (f r).Ensures ok fun a t => Q a (⟨c, r⟩ :: t)) :
    (Sys.call c >>= f).Ensures ok Q :=
  Program.ensures_perform_bind h

/-- The messages handed to `send` in a list of events, whatever became of them. -/
def sends (t : List (Event sysSig)) : List (List UInt8) :=
  t.filterMap fun e => match e.op with
    | .send msg => some msg
    | _ => none

@[simp] lemma sends_nil : sends [] = [] := rfl

@[simp] lemma sends_cons_send (msg : List UInt8) (r : (SysCall.send msg).Answer)
    (t : List (Event sysSig)) : sends (⟨.send msg, r⟩ :: t) = msg :: sends t := rfl

/-- The other calls do not count. -/
@[simp] lemma sends_cons_of_ne {c : SysCall} (h : ∀ msg, c ≠ .send msg) (r : c.Answer)
    (t : List (Event sysSig)) : sends (⟨c, r⟩ :: t) = sends t := by
  cases c with
  | send msg => exact absurd rfl (h msg)
  | _ => rfl

@[simp] lemma sends_append (t t' : List (Event sysSig)) :
    sends (t ++ t') = sends t ++ sends t' := by
  simp [sends]

/-! ### Message buffers -/

/-- The block that `*msg` points to, and the memory it lies in. -/
structure Buffer where
  size : ℕ
  octets : Memory UInt8

namespace Buffer

/-- `msg = NULL`. -/
def null : Buffer := ⟨0, fun _ => 0⟩

/-- The block that `realloc` yields: it keeps what fits, the rest is what lies in memory there. -/
def resize (b : Buffer) (n : ℕ) (fresh : Memory UInt8) : Buffer :=
  ⟨n, fun i => if i < min b.size n then b.octets i else fresh i⟩

/-- Store octets into the block from `off` on. -/
def store (b : Buffer) (off : ℕ) (bs : List UInt8) : Buffer :=
  { b with octets := b.octets.patch off bs }

end Buffer

/-! ### Scans in a session -/

/-- What the calls of a scan come to in a session: loads read the buffer and responses are sent,
their failures being ignored. Marks and printed lines are of no concern to the system. -/
def scanCall (m : Memory UInt8) : (op : ScanOp Output) → Sys ((scanSig UInt8 Output).Ans op)
  | .load a => pure (m a)
  | .emit (.respond msg) => Sys.send msg >>= fun _ => pure ()
  | .emit _ => pure ()

/-- Run a scan over the buffer. -/
def scan {α : Type} (m : Memory UInt8) (p : Reader α) : Sys α :=
  Program.interp (scanCall m) p

/-- Send messages one after the other, ignoring failures. -/
def sendAll : List (List UInt8) → Sys Unit
  | [] => pure ()
  | msg :: msgs => Sys.send msg >>= fun _ => sendAll msgs

/-- For the system, a scan comes to the responses it sends. -/
theorem scan_eq {α : Type} (m : Memory UInt8) (p : Reader α) :
    scan m p = sendAll (responses (p.outputs m)) >>= fun _ => pure (p.value m) := by
  induction p with
  | ret a => rfl
  | call op k ih =>
    cases op with
    | load a => exact ih (m a)
    | emit o =>
      cases o with
      | visit v => exact ih ()
      | report r => exact ih ()
      | respond msg =>
        have hbind : scan m (.call (.emit (.respond msg)) k) =
            Sys.send msg >>= fun _ => scan m (k ()) := Program.bind_assoc ..
        have hresp : responses (outputs m (.call (.emit (.respond msg)) k)) =
          msg :: responses (outputs m (k ())) := rfl
        have hvalue : value m (.call (.emit (.respond msg)) k) = value m (k ()) := rfl
        rw [hbind, hresp, hvalue, sendAll, Program.bind_assoc, ih ()]

/-! ### What is sent -/

section Sends

variable {ok : Assumption sysSig}

lemma ensures_send (msg : List UInt8) : (Sys.send msg).Ensures ok fun _ t => sends t = [msg] :=
  fun _ _ => rfl

/-- All messages are handed to `send`, whatever becomes of each. -/
lemma ensures_sendAll (msgs : List (List UInt8)) :
    (sendAll msgs).Ensures ok fun _ t => sends t = msgs := by
  induction msgs with
  | nil => rfl
  | cons msg msgs ih =>
    apply (ensures_send msg).bind
    intro _ t ht
    apply ih.mono
    intro _ t' ht'
    rw [sends_append, ht, ht', List.singleton_append]

/-- A scan in a session yields its value and sends its responses. -/
lemma ensures_scan {α : Type} (m : Memory UInt8) (p : Reader α) :
    (scan m p).Ensures ok fun a t => a = p.value m ∧ sends t = responses (p.outputs m) := by
  rw [scan_eq]
  apply (ensures_sendAll _).bind
  intro _ t ht
  rw [Program.pure_eq_ret, Program.ensures_ret, List.append_nil]
  exact ⟨rfl, ht⟩

end Sends

end DlepRouter
