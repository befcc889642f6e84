import DlepRouter.Session.Inversion

/-!
# What each state of a session sends

One lemma for each function of the session: which messages it hands to `send`, whatever it
receives and whatever becomes of the messages.
-/

namespace DlepRouter

open Interaction Tlv Scan

variable {ok : Assumption sysSig}

/-! ### The calls of each function -/

/-- The call of functions that only send. -/
def SysCall.Sends : SysCall → Prop
  | send _ => True
  | _ => False

/-- The calls of `recv_message`. -/
def SysCall.Receives : SysCall → Prop
  | realloc _ | recv _ => True
  | _ => False

section Calls

open Program (OnlyCalls)

lemma onlyCalls_send (msg : List UInt8) : OnlyCalls ok SysCall.Sends (Sys.send msg) :=
  .bind (.perform trivial) fun _ => .ret _

lemma onlyCalls_sendAll (msgs : List (List UInt8)) : OnlyCalls ok SysCall.Sends (sendAll msgs) := by
  induction msgs with
  | nil => exact .ret _
  | cons msg msgs ih => exact .bind (onlyCalls_send msg) fun _ => ih

lemma onlyCalls_scan {α : Type} (m : Memory UInt8) (p : Reader α) :
    OnlyCalls ok SysCall.Sends (scan m p) := by
  rw [scan_eq]
  exact .bind (onlyCalls_sendAll _) fun _ => .ret _

lemma onlyCalls_sendSessionTermResp : OnlyCalls ok SysCall.Sends sendSessionTermResp := by
  refine .bind (onlyCalls_send _) fun sent => ?_
  cases sent <;> exact .ret _

lemma onlyCalls_heartbeatIfDue (ri : UInt32) (nowTime : Timespec) (st : SessionState) :
    OnlyCalls ok SysCall.Sends (heartbeatIfDue ri nowTime st) := by
  unfold heartbeatIfDue
  split_ifs
  · exact .bind (onlyCalls_send _) fun _ => .ret _
  · exact .ret _

lemma onlyCalls_recvMessage (b : Buffer) :
    OnlyCalls ok SysCall.Receives (recvMessage b) := by
  refine .bind (.perform trivial) fun fresh => ?_
  cases fresh with
  | none => exact .ret _
  | some fresh =>
    refine .bind (.perform trivial) fun header => ?_
    cases header with
    | none => exact .ret _
    | some header =>
      dsimp only
      split_ifs
      · refine .bind (.perform trivial) fun fresh => ?_
        cases fresh with
        | none => exact .ret _
        | some fresh =>
          refine .bind (.perform trivial) fun body => ?_
          cases body <;> exact .ret _
      · exact .ret _
      · exact .ret _

end Calls

/-! ### Programs that send nothing -/

/-- Nothing is handed to `send`. -/
def Silent (ok : Assumption sysSig) {α : Type} (p : Sys α) : Prop :=
  p.Ensures ok fun _ t => sends t = []

namespace Silent

variable {α β : Type}

lemma pure (a : α) : Silent ok (Pure.pure a) := rfl

lemma bind {p : Sys α} {f : α → Sys β} (hp : Silent ok p) (hf : ∀ a, Silent ok (f a)) :
    Silent ok (p >>= f) := by
  apply Program.Ensures.bind hp
  intro a t ht
  apply (hf a).mono
  intro _ t' ht'
  rw [sends_append, ht, ht']
  rfl

lemma call {c : SysCall} (hc : ∀ msg, c ≠ .send msg) : Silent ok (Sys.call c) := by
  intro r _
  exact sends_cons_of_ne hc r []

/-- A program is silent if it never calls `send`. -/
lemma of_onlyCalls {P : SysCall → Prop} {p : Sys α} (h : p.OnlyCalls ok P)
    (hP : ∀ msg, ¬ P (.send msg)) : Silent ok p := by
  apply Program.OnlyCalls.filterMap_eq_nil h
  rintro ⟨c, r⟩ hc
  cases c with
  | send msg => exact absurd hc (hP msg)
  | _ => rfl

end Silent

/-! ### Transport -/

lemma silent_recvMessage (b : Buffer) : Silent ok (recvMessage b) :=
  .of_onlyCalls (onlyCalls_recvMessage b) fun _ => id

/-- A round of the termination state sends nothing and does not leave with 1. -/
lemma ensures_termRound (m : UInt32) (st : TermState) :
    (termRound m st).Ensures ok fun r t =>
      sends t = [] ∧ Sum.elim (fun _ => True) (fun v => v ≠ some 1) r := by
  apply (ensures_termRound_goes m st).mono
  intro r t h
  cases h with
  | unselected => exact ⟨rfl, by simp⟩
  | woken ready nowTime hwoken =>
    cases hwoken with
    | expired => exact ⟨rfl, by simp⟩
    | idle => exact ⟨rfl, trivial⟩
    | unreceived _ hrecv | received _ hrecv =>
      have hsends := (silent_recvMessage _).of_path hrecv
      exact ⟨by simpa using hsends, by simp⟩

/-- The termination state sends nothing and never lets the session continue. -/
lemma ensures_termSession (n : ℕ) (b : Buffer) (m : UInt32) :
    (termSession n b m).Ensures ok fun r t => sends t = [] ∧ r ≠ some 1 := by
  apply ensures_call_bind
  intro nowTime _
  refine Program.ensures_forever (I := fun _ t => sends t = [])
    (Q := fun r t => sends t = [] ∧ r ≠ some 1) ?_ ?_ n _ [] rfl
  · intro st t ht
    exact ⟨ht, by simp⟩
  · intro st t ht
    apply (ensures_termRound m st).mono
    intro r t' ht'
    obtain ⟨hsends, hr⟩ := ht'
    have happend : sends (t ++ t') = [] := by rw [sends_append, ht, hsends, List.nil_append]
    cases r with
    | inl st' => exact happend
    | inr v => exact ⟨happend, hr⟩

/-! ### Messages on the wire -/

/-- A Session Termination with its Status data item. -/
def termination (status : UInt8) : List UInt8 :=
  [0x00, 0x05, 0x00, 0x05, 0x00, 0x01, 0x00, 0x01, status]

/-- A Session Termination Response. -/
def terminationResp : List UInt8 := [0x00, 0x06, 0x00, 0x00]

/-- A Heartbeat. -/
def heartbeat : List UInt8 := [0x00, 0x10, 0x00, 0x00]

lemma heartbeat_ne_termination (status : UInt8) : heartbeat ≠ termination status := by
  intro h
  cases congrArg List.length h

lemma terminationResp_ne_termination (status : UInt8) : terminationResp ≠ termination status := by
  intro h
  cases congrArg List.length h

lemma sessionTermMessage_eq (sc : StatusCode) : sessionTermMessage sc = termination sc.code := by
  cases sc <;> decide

lemma sessionTermRespMessage_eq : sessionTermRespMessage = terminationResp := by decide

lemma heartbeatMessage_eq : heartbeatMessage = heartbeat := by decide

/-! ### Closing messages -/

/-- An allocation failed. -/
def AllocationFailed (t : List (Event sysSig)) : Prop :=
  ∃ n, (⟨.realloc n, none⟩ : Event sysSig) ∈ t

lemma AllocationFailed.append {t t' : List (Event sysSig)} (h : AllocationFailed t') :
    AllocationFailed (t ++ t') := by
  obtain ⟨n, hn⟩ := h
  exact ⟨n, List.mem_append_right t hn⟩

/-- `msg` is handed to `send` and nothing else, unless no memory is left for it. -/
def Closes (msg : List UInt8) (t : List (Event sysSig)) : Prop :=
  sends t = [msg] ∨ sends t = [] ∧ AllocationFailed t

lemma Closes.silent {msg : List UInt8} {t t' : List (Event sysSig)} (h : Closes msg t)
    (ht' : sends t' = []) : Closes msg (t ++ t') := by
  have hsends : sends (t ++ t') = sends t := by rw [sends_append, ht', List.append_nil]
  rcases h with h | ⟨h, n, hn⟩
  · exact .inl (hsends.trans h)
  · exact .inr ⟨hsends.trans h, n, List.mem_append_left t' hn⟩

/-- `send_session_term` sends its message at most, and never lets the session continue. -/
lemma ensures_sendSessionTerm (n : ℕ) (sc : StatusCode) (b : Buffer) (m : UInt32) :
    (sendSessionTerm n sc b m).Ensures ok fun r t =>
      r ≠ some 1 ∧ Closes (termination sc.code) t := by
  apply (ensures_sendSessionTerm_goes n sc b m).mono
  intro r t h
  rw [← sessionTermMessage_eq]
  cases h with
  | unallocated => exact ⟨by simp, .inr ⟨rfl, 9, by simp⟩⟩
  | unsent fresh hsend =>
    have ht := (ensures_send _).of_path hsend
    exact ⟨by simp, .inl (by simpa using ht)⟩
  | sent fresh hsend hterm =>
    have ht := (ensures_send _).of_path hsend
    obtain ⟨ht', hr⟩ := (ensures_termSession n _ m).of_path hterm
    refine ⟨hr, .inl ?_⟩
    simp [ht, ht']

lemma ensures_sendSessionTermResp :
    sendSessionTermResp.Ensures ok fun r t => r ≠ some 1 ∧ sends t = [terminationResp] := by
  rw [sendSessionTermResp, sessionTermRespMessage_eq]
  apply (ensures_send _).bind
  intro sent t ht
  cases sent <;> exact ⟨by simp, by simpa using ht⟩

lemma ensures_sendHeartbeat : sendHeartbeat.Ensures ok fun _ t => sends t = [heartbeat] := by
  rw [sendHeartbeat, heartbeatMessage_eq]
  exact ensures_send _

end DlepRouter
