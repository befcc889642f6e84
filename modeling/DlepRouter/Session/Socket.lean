import DlepRouter.Interaction.Refinement
import DlepRouter.Session.Machine

/-!
# The socket of a session

A session has one stream socket and one block for its messages. A monitor says in which order the
router may use them, and it looks at every single call. It admits all calls of every session: octets
are received only into a block that has room for them, after a call that failed the socket is only
closed, and it is closed before the session returns.
-/

namespace DlepRouter

open Interaction Tlv Scan

/-! ### The monitor -/

/-- How far the router has come with the socket of a session. In `room` there is a block of some
size, and in `awaiting` a header has announced some octets. -/
inductive StreamUse where
  | closed
  | created : (family : List UInt8) → StreamUse
  | connected
  | room : ℕ → StreamUse
  | awaiting : ℕ → StreamUse
  | roomBehind : ℕ → ℕ → StreamUse
  | broken

namespace StreamUse

/-- What is to be done behind a header: nothing if the modem has closed the stream, and else the
octets that it announces are received. -/
def headed (bs : List UInt8) : StreamUse :=
  if bs = [] then .broken
  else if bs.length = 4 ∧ bigEndian (bs.drop 2) ≠ 0 then .awaiting (bigEndian (bs.drop 2))
  else .connected

/-- The monitor of the calls of a session. Octets are received only where a block was allocated
that has room for them, which for those behind a header begins four octets later, and no more
are asked for than the header announces. -/
def after : StreamUse → Event sysSig → Option StreamUse
  | closed, ⟨.socket family, done⟩ => some (if done then .created family else .closed)
  | created family, ⟨.connect address, done⟩ =>
    if address.take 2 = family then some (if done then .connected else .broken) else none
  | connected, ⟨.send _, _⟩ | connected, ⟨.clockGettime, _⟩ => some .connected
  | connected, ⟨.select _, ready⟩ => some (if ready.isSome then .connected else .broken)
  | connected, ⟨.realloc size, fresh⟩ => some (if fresh.isSome then .room size else .broken)
  | room size, ⟨.send msg, _⟩ => if msg.length ≤ size then some .connected else none
  | room _, ⟨.recv _, none⟩ | roomBehind _ _, ⟨.recv _, none⟩ => some .broken
  | room size, ⟨.recv n, some bs⟩ => if n ≤ size then some (headed bs.val) else none
  | awaiting len, ⟨.realloc size, fresh⟩ =>
    some (if fresh.isSome then .roomBehind len size else .broken)
  | roomBehind len size, ⟨.recv n, some _⟩ =>
    if n = len ∧ 4 + n ≤ size then some .connected else none
  | connected, ⟨.close, _⟩ | broken, ⟨.close, _⟩ => some .closed
  | _, _ => none

end StreamUse

/-! ### Every session -/

section Session

open Program (Refines Admitted)

variable {ok : Assumption sysSig}

/-- How a session leaves its socket: anyhow if it was cut off, and else only to be closed. -/
structure StreamUse.Left (r : Option ℤ) (u : StreamUse) : Prop where
  ends : r ≠ some 1
  last : r.isSome → u = .connected ∨ u = .broken

namespace StreamUse.Left

lemma unfinished (u : StreamUse) : Left none u := ⟨nofun, nofun⟩

lemma failed : Left (some (-1)) .connected := ⟨by decide, fun _ => .inl rfl⟩

lemma failed_broken : Left (some (-1)) .broken := ⟨by decide, fun _ => .inr rfl⟩

lemma ended : Left (some 0) .connected := ⟨by decide, fun _ => .inl rfl⟩

end StreamUse.Left

/-- How the receiving of a message leaves it. -/
def StreamUse.received : Option ℕ → StreamUse
  | none | some 0 => .broken
  | some _ => .connected

lemma admitted_send (msg : List UInt8) :
    (Sys.send msg).Admitted ok StreamUse.after .connected fun _ u => u = .connected := by
  apply Admitted.call
  intro taken _
  exact ⟨.connected, rfl, .ret rfl⟩

@[simp] lemma StreamUse.received_succ (len : ℕ) : received (some (len + 1)) = .connected := rfl

/-- A header that is cut off is the whole message. -/
lemma StreamUse.headed_of_length_ne {bs : List UInt8} (h : bs.length ≠ 4) :
    headed bs = received (some bs.length) := by
  cases bs with
  | nil => rfl
  | cons b bs =>
    have hshort : ¬ ((b :: bs).length = 4 ∧ bigEndian ((b :: bs).drop 2) ≠ 0) :=
      fun hall => h hall.1
    rw [headed, if_neg (List.cons_ne_nil b bs), if_neg hshort]
    rfl

lemma StreamUse.headed_of_length_eq {bs : List UInt8} (h : bs.length = 4) :
    headed bs = if bigEndian (bs.drop 2) ≠ 0 then .awaiting (bigEndian (bs.drop 2))
      else .connected := by
  have hne : bs ≠ [] := by
    rintro rfl
    cases h
  rw [headed, if_neg hne]
  simp only [h, true_and]

lemma admitted_recvMessage (b : Buffer) :
    (recvMessage b).Admitted ok StreamUse.after .connected fun r u => u = .received r.1 := by
  apply Admitted.call
  intro fresh _
  cases fresh with
  | none => exact ⟨.broken, rfl, .ret rfl⟩
  | some fresh =>
    refine ⟨.room 4, rfl, ?_⟩
    apply Admitted.call
    intro header _
    cases header with
    | none => exact ⟨.broken, rfl, .ret rfl⟩
    | some header =>
      obtain ⟨bs, hbs⟩ := header
      refine ⟨.headed bs, rfl, ?_⟩
      have hstored : ((b.resize 4 fresh).store 0 bs).octets.slice 0 bs.length = bs :=
        Memory.slice_patch _ 0 bs
      simp only
      generalize (b.resize 4 fresh).store 0 bs = b₁ at hstored ⊢
      by_cases h4 : bs.length = 4
      · rw [h4] at hstored
        have hn : ((readUint16 2).value b₁.octets).toNat = bigEndian (bs.drop 2) := by
          rw [toNat_readUint16, ← hstored, Memory.drop_slice _ 0 (by decide)]
        rw [if_pos h4, hn, StreamUse.headed_of_length_eq h4]
        split_ifs with h0
        · apply Admitted.call
          intro fresh' _
          cases fresh' with
          | none => exact ⟨.broken, rfl, .ret rfl⟩
          | some fresh' =>
            refine ⟨.roomBehind (bigEndian (bs.drop 2)) (bigEndian (bs.drop 2) + 4), rfl, ?_⟩
            apply Admitted.call
            intro body _
            cases body with
            | none => exact ⟨.broken, rfl, .ret rfl⟩
            | some body =>
              exact ⟨.connected, if_pos ⟨rfl, Nat.le_of_eq (Nat.add_comm ..)⟩, .ret rfl⟩
        · exact .ret rfl
      · rw [if_neg h4]
        exact .ret (StreamUse.headed_of_length_ne h4)

/-- A scan of a message only sends. -/
lemma admitted_scan {α : Type} (m : Memory UInt8) (p : Reader α) :
    (scan m p).Admitted ok StreamUse.after .connected fun _ u => u = .connected := by
  have hall : ∀ msgs : List (List UInt8),
      (sendAll msgs).Admitted ok StreamUse.after .connected fun _ u => u = .connected := by
    intro msgs
    induction msgs with
    | nil => exact .ret rfl
    | cons msg msgs ih =>
      apply (admitted_send msg).bind
      rintro _ _ rfl
      exact ih
  rw [scan_eq]
  apply (hall _).bind
  rintro _ _ rfl
  exact .ret rfl

lemma admitted_sendSessionTermResp :
    sendSessionTermResp.Admitted ok StreamUse.after .connected StreamUse.Left := by
  apply (admitted_send _).bind
  rintro taken _ rfl
  cases taken with
  | false => exact .ret .failed
  | true => exact .ret .ended

/-- A message is received, or the session is left. -/
lemma admitted_recvMessage_bind {α : Type} {b : Buffer} {f : Option ℕ × Buffer → Sys α}
    {R : α → StreamUse → Prop}
    (hbroken : ∀ r, r.1 = none ∨ r.1 = some 0 → (f r).Admitted ok StreamUse.after .broken R)
    (hreceived : ∀ len b', (f (some (len + 1), b')).Admitted ok StreamUse.after .connected R) :
    (recvMessage b >>= f).Admitted ok StreamUse.after .connected R := by
  apply (admitted_recvMessage b).bind
  rintro ⟨received, b'⟩ _ rfl
  match received with
  | none => exact hbroken _ (.inl rfl)
  | some 0 => exact hbroken _ (.inr rfl)
  | some (len + 1) => exact hreceived len b'

/-- A round of the termination state goes on with its socket, or it leaves it. -/
lemma admitted_termRound (mi : UInt32) (st : TermState) :
    (termRound mi st).Admitted ok StreamUse.after .connected fun r u =>
      Sum.elim (fun _ => u = .connected) (fun v => StreamUse.Left v u) r := by
  apply Admitted.call
  intro ready _
  cases ready with
  | none => exact ⟨.broken, rfl, .ret .failed_broken⟩
  | some ready =>
    refine ⟨.connected, rfl, ?_⟩
    apply Admitted.call
    intro nowTime _
    refine ⟨.connected, rfl, ?_⟩
    split_ifs
    · apply admitted_recvMessage_bind
      · rintro ⟨_, b'⟩ (rfl | rfl)
        · exact .ret .failed_broken
        · exact .ret .failed_broken
      · intro len b'
        exact .ret .ended
    · exact .ret .failed
    · exact .ret rfl

lemma admitted_termSession (n : ℕ) (b : Buffer) (mi : UInt32) :
    (termSession n b mi).Admitted ok StreamUse.after .connected StreamUse.Left := by
  apply Admitted.call
  intro nowTime _
  refine ⟨.connected, rfl, ?_⟩
  apply Refines.forever (I := fun _ u => u = .connected)
  · rintro st _ rfl
    exact .unfinished _
  · rintro st _ rfl
    exact admitted_termRound mi st
  · rfl

/-- The message is written into a block that it fits. -/
lemma admitted_sendSessionTerm (n : ℕ) (sc : StatusCode) (b : Buffer) (mi : UInt32) :
    (sendSessionTerm n sc b mi).Admitted ok StreamUse.after .connected StreamUse.Left := by
  apply Admitted.call
  intro fresh _
  cases fresh with
  | none => exact ⟨.broken, rfl, .ret .failed_broken⟩
  | some fresh =>
    refine ⟨.room 9, rfl, ?_⟩
    have hsend : ∀ msg : List UInt8, msg.length = 9 →
        (Sys.send msg).Admitted ok StreamUse.after (.room 9) fun _ u => u = .connected := by
      intro msg hmsg
      apply Admitted.call
      intro taken _
      exact ⟨.connected, if_pos (Nat.le_of_eq hmsg), .ret rfl⟩
    apply (hsend _ (Memory.length_slice ..)).bind
    rintro taken _ rfl
    cases taken with
    | false => exact .ret .failed
    | true => exact admitted_termSession n _ mi

/-- A message that is handled leaves the session, or it goes on with its socket. -/
lemma admitted_handleMessage (n : ℕ) (b : Buffer) (len : ℕ) (mi : UInt32) :
    (handleMessage n b len mi).Admitted ok StreamUse.after .connected fun r u =>
      if r = some 1 then u = .connected else StreamUse.Left r u := by
  apply (admitted_scan b.octets (dispatch len)).bind
  rintro verdict _ rfl
  have hleaves : ∀ r u, StreamUse.Left r u →
      if r = some 1 then u = .connected else StreamUse.Left r u := by
    intro r u hleft
    rw [if_neg hleft.ends]
    exact hleft
  cases verdict with
  | respond => exact admitted_sendSessionTermResp.mono hleaves
  | status sc =>
    dsimp only
    split_ifs
    · exact (admitted_sendSessionTerm n sc b mi).mono hleaves
    · exact .ret rfl

lemma admitted_heartbeatIfDue (ri : UInt32) (nowTime : Timespec) (st : SessionState) :
    (heartbeatIfDue ri nowTime st).Admitted ok StreamUse.after .connected
      fun _ u => u = .connected := by
  unfold heartbeatIfDue
  split_ifs
  · rw [sendHeartbeat, Program.bind_assoc]
    apply (admitted_send _).bind
    rintro taken _ rfl
    exact .ret rfl
  · exact .ret rfl

/-- A round of the session goes on with its socket, or it leaves it. -/
lemma admitted_sessionRound (n : ℕ) (mi ri : UInt32) (st : SessionState) :
    (sessionRound n mi ri st).Admitted ok StreamUse.after .connected fun r u =>
      Sum.elim (fun _ => u = .connected) (fun v => StreamUse.Left v u) r := by
  apply Admitted.call
  intro ready _
  cases ready with
  | none => exact ⟨.broken, rfl, .ret .failed_broken⟩
  | some ready =>
    refine ⟨.connected, rfl, ?_⟩
    apply Admitted.call
    intro nowTime _
    refine ⟨.connected, rfl, ?_⟩
    apply (admitted_heartbeatIfDue ri nowTime _).bind
    rintro st' _ rfl
    dsimp only
    split_ifs
    · apply admitted_recvMessage_bind
      · rintro ⟨_, b'⟩ (rfl | rfl)
        · exact .ret .failed_broken
        · exact .ret .failed_broken
      · intro len b'
        apply (admitted_handleMessage n b' (len + 1) mi).bind
        intro r u hr
        by_cases h1 : r = some 1
        · rw [if_pos h1] at hr
          rw [if_neg (not_not.mpr h1)]
          exact .ret hr
        · rw [if_neg h1] at hr
          rw [if_pos h1]
          exact .ret hr
    · apply (admitted_sendSessionTerm n .timedOut _ mi).bind
      intro r u hleft
      exact .ret hleft
    · exact .ret rfl

lemma admitted_inSession (n : ℕ) (b : Buffer) (mi ri : UInt32) :
    (inSession n b mi ri).Admitted ok StreamUse.after .connected StreamUse.Left := by
  apply Admitted.call
  intro nowTime _
  refine ⟨.connected, rfl, ?_⟩
  apply Refines.forever (I := fun _ u => u = .connected)
  · rintro st _ rfl
    exact .unfinished _
  · rintro st _ rfl
    exact admitted_sessionRound n mi ri st
  · rfl

lemma admitted_runSession (n : ℕ) (b : Buffer) (sc : StatusCode) (resp : InitResp) (ri : UInt32) :
    (runSession n b sc resp ri).Admitted ok StreamUse.after .connected StreamUse.Left := by
  unfold runSession
  split_ifs
  · apply (admitted_sendSessionTerm n sc b _).bind
    intro r u hleft
    cases r with
    | none => exact .ret (.unfinished u)
    | some r => exact .ret ⟨by simp, fun _ => hleft.last rfl⟩
  · exact admitted_sendSessionTerm n .shutdown b _
  · exact admitted_inSession n b _ ri

/-- How the socket of an opening is left. -/
def Opening.Holds : Opening → StreamUse → Prop
  | noSocket, u => u = .closed
  | accepted .., u => u = .connected
  | _, u => u = .connected ∨ u = .broken

lemma admitted_openSession (modemAddress : List UInt8) (ri : UInt32) :
    (openSession modemAddress ri).Admitted ok StreamUse.after .closed Opening.Holds := by
  apply Admitted.call
  intro created _
  refine ⟨if created then .created (modemAddress.take 2) else .closed, rfl, ?_⟩
  cases created with
  | false => exact .ret rfl
  | true =>
    rw [if_pos rfl, if_neg (by simp)]
    apply Admitted.call
    intro connected _
    refine ⟨if connected then .connected else .broken, if_pos rfl, ?_⟩
    cases connected with
    | false => exact .ret (.inr rfl)
    | true =>
      rw [if_pos rfl, if_neg (by simp)]
      apply (admitted_send _).bind
      rintro taken _ rfl
      cases taken with
      | false => exact .ret (.inl rfl)
      | true =>
        apply admitted_recvMessage_bind
        · rintro ⟨_, b'⟩ (rfl | rfl)
          · exact .ret (.inr rfl)
          · exact .ret (.inr rfl)
        · intro len b'
          apply (admitted_scan b'.octets _).bind
          rintro sc _ rfl
          dsimp only
          split_ifs
          · apply (admitted_scan b'.octets _).bind
            rintro ⟨sc', resp⟩ _ rfl
            exact .ret rfl
          · exact .ret (.inl rfl)

lemma admitted_closeSession {ret : Option ℤ} {u : StreamUse}
    (hu : ret.isSome → u = .connected ∨ u = .broken) :
    (closeSession ret).Admitted ok StreamUse.after u fun r u' => r.isSome → u' = .closed := by
  cases ret with
  | none => exact .ret nofun
  | some ret =>
    apply Admitted.call
    intro _ _
    refine ⟨.closed, ?_, .ret fun _ => rfl⟩
    rcases hu rfl with rfl | rfl
    · rfl
    · rfl

/-- A session opens a socket and closes it. -/
lemma admitted_session (n : ℕ) (modemAddress : List UInt8) (ri : UInt32) :
    (session n modemAddress ri).Admitted ok StreamUse.after .closed
      fun r u => r.isSome → u = .closed := by
  apply (admitted_openSession modemAddress ri).bind
  intro o u hu
  cases o with
  | noSocket => exact .ret fun _ => hu
  | unconnected | unanswered | rejected => exact admitted_closeSession fun _ => hu
  | accepted b sc resp =>
    obtain rfl := hu
    apply (admitted_runSession n b sc resp ri).bind
    intro ret u hleft
    exact admitted_closeSession hleft.last

end Session

end DlepRouter
