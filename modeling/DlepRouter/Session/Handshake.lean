import DlepRouter.Session.Ending

/-!
# The termination handshake

A session that returns 0 has answered a Session Termination of the modem, or it has sent one and
then received a message. That message is not looked at: it ends the termination state whatever it
is.
-/

namespace DlepRouter

open Interaction Tlv Scan

/-! ### The handshake -/

section Handshake

/-- A Session Termination was received and a response to it was sent in full. -/
def AnswersTermination (t : List (Event sysSig)) : Prop :=
  ∃ (t₁ t₂ : List (Event sysSig)) (sent : (SysCall.send terminationResp).Answer),
    t = t₁ ++ ⟨.send terminationResp, sent⟩ :: t₂ ∧
      sent = some (Fin.last terminationResp.length) ∧ (received t₁).take 2 = [0x00, 0x05]

/-- A Session Termination was sent in full, and then a complete response to it was received. -/
def TerminationAnswered (t : List (Event sysSig)) : Prop :=
  ∃ (t₁ t₂ : List (Event sysSig)) (status : UInt8)
    (sent : (SysCall.send (termination status)).Answer),
    t = t₁ ++ ⟨.send (termination status), sent⟩ :: t₂ ∧
      sent = some (Fin.last (termination status).length) ∧
      IsComplete MessageType.sessionTermResp.code.toNat (received t₂)

/-- A run returns 0 only after a termination handshake, and no other message than the response ends
the termination state. -/
structure EndsByHandshake (v : Option ℤ) (t : List (Event sysSig)) : Prop where
  zero : v = some 0 → AnswersTermination t ∨ TerminationAnswered t
  ignores : ∀ (t₁ t₂ : List (Event sysSig)) (status : UInt8)
    (sent : (SysCall.send (termination status)).Answer),
    t = t₁ ++ ⟨.send (termination status), sent⟩ :: t₂ →
    ∀ type ≠ MessageType.sessionTermResp.code.toNat, IsComplete type (received t₂) → v = none

variable {ri : UInt32} {v : Option ℤ} {t : List (Event sysSig)}

/-- Nothing is sent behind a message that closes the session. -/
lemma SentBySession.sends_eq_nil {t₁ t₂ : List (Event sysSig)} {msg : List UInt8}
    {sent : (SysCall.send msg).Answer}
    (h : SentBySession ri (sends (t₁ ++ ⟨.send msg, sent⟩ :: t₂)))
    (hmsg : msg = terminationResp ∨ ∃ status, msg = termination status) : sends t₂ = [] := by
  rw [sends_append, sends_cons_send] at h
  rcases h.cases with hpre | hpost | hbeat | hresp
  · rcases h with h | ⟨ms, closing, heq, -⟩
    · simp at h
    · rw [hpre] at heq
      obtain ⟨rfl, -⟩ := List.cons.inj heq
      rcases hmsg with hmsg | ⟨status, hmsg⟩
      · exact absurd hmsg (sessionInitMessage_ne ri).1
      · exact absurd hmsg ((sessionInitMessage_ne ri).2 status)
  · exact hpost
  · rcases hmsg with hmsg | ⟨status, hmsg⟩
    · exact absurd (hbeat.symm.trans hmsg) (by decide)
    · exact absurd (hbeat.symm.trans hmsg) (heartbeat_ne_termination status)
  · rcases hmsg with rfl | ⟨status, hmsg⟩
    · cases hresp.length
    · exact absurd hmsg (hresp.ne_termination status)

/-- The last message is sent in one place. -/
lemma split_unique {t₁ t₂ u₁ u₂ : List (Event sysSig)} {msg msg' : List UInt8}
    {sent : (SysCall.send msg).Answer} {sent' : (SysCall.send msg').Answer}
    (heq : t₁ ++ ⟨.send msg, sent⟩ :: t₂ = u₁ ++ ⟨.send msg', sent'⟩ :: u₂)
    (ht : sends t₂ = []) (hu : sends u₂ = []) : msg = msg' ∧ t₂ = u₂ := by
  rcases List.append_eq_append_iff.mp heq with ⟨as, rfl, has⟩ | ⟨cs, rfl, hcs⟩
  · cases as with
    | nil =>
      cases has
      exact ⟨rfl, rfl⟩
    | cons a as =>
      obtain ⟨-, rfl⟩ := List.cons.inj has
      simp at ht
  · cases cs with
    | nil =>
      cases hcs
      exact ⟨rfl, rfl⟩
    | cons c cs =>
      obtain ⟨-, rfl⟩ := List.cons.inj hcs
      simp at hu

/-- Behind the router's own Session Termination, since the last wait, nothing was received, or a
`recv` or a `realloc` failed, or a complete Session Termination Response was received. -/
def AwaitsResponse (t : List (Event sysSig)) : Prop :=
  ∀ (t₁ t₂ : List (Event sysSig)) (status : UInt8)
    (sent : (SysCall.send (termination status)).Answer),
    t = t₁ ++ ⟨.send (termination status), sent⟩ :: t₂ →
    received t₂ = [] ∨ interrupted t₂ = true ∨
      IsComplete MessageType.sessionTermResp.code.toNat (received t₂)

/-- The router sends no Session Termination of its own. -/
def Unterminated (t : List (Event sysSig)) : Prop :=
  ∀ (t₁ t₂ : List (Event sysSig)) (status : UInt8)
    (sent : (SysCall.send (termination status)).Answer),
    t ≠ t₁ ++ ⟨.send (termination status), sent⟩ :: t₂

lemma Unterminated.endsByHandshake_iff (h : Unterminated t)
    (hzero : v = some 0 → AnswersTermination t) : EndsByHandshake v t ↔ AwaitsResponse t := by
  refine iff_of_true ⟨fun hv => .inl (hzero hv), ?_⟩ ?_
  · exact fun t₁ t₂ status sent heq => absurd heq (h t₁ t₂ status sent)
  · exact fun t₁ t₂ status sent heq => absurd heq (h t₁ t₂ status sent)

lemma endsByHandshake_iff (hend : Ending [] v t) (hsent : SentBySession ri (sends t)) :
    EndsByHandshake v t ↔ AwaitsResponse t := by
  cases hend with
  | failed hv hnone =>
    have hout : Unterminated t := by
      rintro t₁ t₂ status sent rfl
      exact hnone status (by simp)
    exact hout.endsByHandshake_iff fun h => absurd h hv
  | answered u₁ u₂ sent' heq hrecv hall =>
    -- the response is the last message that is sent
    have hout : Unterminated t := by
      rintro t₁ t₂ status sent rfl
      have ht := hsent.sends_eq_nil (.inr ⟨status, rfl⟩)
      rw [heq] at hsent
      have hmsg := (split_unique heq ht (hsent.sends_eq_nil (.inl rfl))).1
      exact terminationResp_ne_termination status hmsg.symm
    exact hout.endsByHandshake_iff fun hv => ⟨u₁, u₂, sent', heq, hall hv, hrecv⟩
  | terminated u₁ u₂ status sent heq hall houtcome =>
    -- there is one place where a message that closes the session is sent
    have htail : ∀ (t₁ t₂ : List (Event sysSig)) (msg : List UInt8)
        (sent : (SysCall.send msg).Answer), t = t₁ ++ ⟨.send msg, sent⟩ :: t₂ →
        (msg = terminationResp ∨ ∃ status, msg = termination status) →
        msg = termination status ∧ t₂ = u₂ := by
      rintro t₁ t₂ msg sent rfl hmsg
      have ht := hsent.sends_eq_nil hmsg
      rw [heq] at hsent
      exact split_unique heq ht (hsent.sends_eq_nil (.inr ⟨status, rfl⟩))
    constructor
    · rintro h t₁ t₂ status' sent' heq'
      obtain ⟨-, rfl⟩ := htail t₁ t₂ _ sent' heq' (.inr ⟨status', rfl⟩)
      by_cases hnil : received t₂ = []
      · exact .inl hnil
      by_cases hfailed : interrupted t₂ = true
      · exact .inr (.inl hfailed)
      have hv := houtcome.zero.mpr ⟨hnil, by simpa using hfailed⟩
      rcases h.zero hv with ⟨v₁, v₂, sent'', heq'', -⟩ | ⟨v₁, v₂, status'', sent'', heq'', -, hresp⟩
      · have hmsg := (htail v₁ v₂ _ sent'' heq'' (.inl rfl)).1
        exact absurd hmsg (terminationResp_ne_termination status)
      · obtain ⟨-, rfl⟩ := htail v₁ v₂ _ sent'' heq'' (.inr ⟨status'', rfl⟩)
        exact .inr (.inr hresp)
    · intro h
      constructor
      · intro hv
        obtain ⟨hne, hfailed⟩ := houtcome.zero.mp hv
        rcases h u₁ u₂ status sent heq with hnil | hinterrupted | hresp
        · exact absurd hnil hne
        · simp [hfailed] at hinterrupted
        · exact .inr ⟨u₁, u₂, status, sent, heq, hall hv, hresp⟩
      · rintro t₁ t₂ status' sent' heq' type htype hcomplete
        obtain ⟨-, rfl⟩ := htail t₁ t₂ _ sent' heq' (.inr ⟨status', rfl⟩)
        rcases h t₁ t₂ status' sent' heq' with hnil | hinterrupted | hresp
        · exact absurd (hnil ▸ hcomplete) (not_isComplete_nil type)
        · simp [houtcome.complete type hcomplete] at hinterrupted
        · exact absurd (hcomplete.1.symm.trans hresp.1) htype

/-- A session ends by a handshake exactly if behind a Session Termination of its own, since the last
wait, nothing was received, or a `recv` or a `realloc` failed, or a complete Session Termination
Response was received. -/
theorem session_endsByHandshake_iff {S : Type} (H : Handler sysSig S) (s : S) (n : ℕ)
    (modemAddress : List UInt8) (routerHeartbeatInterval : UInt32) :
    EndsByHandshake ((session n modemAddress routerHeartbeatInterval).run H s).value
        ((session n modemAddress routerHeartbeatInterval).run H s).trace ↔
      AwaitsResponse ((session n modemAddress routerHeartbeatInterval).run H s).trace :=
  endsByHandshake_iff ((ensures_session_ending n modemAddress _).run_any H s)
    ((ensures_session_writes n modemAddress _).run_any H s).1

/-- The modem is silent for five seconds, and then sends a Heartbeat to the session that is being
terminated. -/
def lateHeartbeat : Script where
  readable := [false, true]
  clock := [⟨0, 0⟩, ⟨5, 0⟩]
  received := minimalResponse ++ [heartbeat]
  taken := []

set_option maxRecDepth 10000 in
/-- The Heartbeat passes for a Session Termination Response. -/
theorem not_session_endsByHandshake :
    ¬ ∀ (S : Type) (H : Handler sysSig S) (s : S) (n : ℕ) (modemAddress : List UInt8)
      (routerHeartbeatInterval : UInt32),
      EndsByHandshake ((session n modemAddress routerHeartbeatInterval).run H s).value
        ((session n modemAddress routerHeartbeatInterval).run H s).trace := by
  intro h
  have hvalue : ((session 2 [] 1).run scripted lateHeartbeat).value = some 0 := by
    decide +kernel
  have hsends : terminationResp ∉ sends ((session 2 [] 1).run scripted lateHeartbeat).trace := by
    decide +kernel
  have hnone : ∀ k < ((session 2 [] 1).run scripted lateHeartbeat).trace.length + 1,
      ¬ IsComplete 6 (received (((session 2 [] 1).run scripted lateHeartbeat).trace.drop k)) := by
    decide +kernel
  rcases (h Script scripted lateHeartbeat 2 [] 1).zero hvalue with
    ⟨t₁, t₂, sent, heq, -⟩ | ⟨t₁, t₂, status, sent, heq, -, hcomplete⟩
  · rw [heq] at hsends
    simp at hsends
  · have hdrop : ((session 2 [] 1).run scripted lateHeartbeat).trace.drop (t₁.length + 1) = t₂ := by
      rw [heq, ← List.drop_drop, List.drop_left]
      rfl
    have hlt : t₁.length + 1 < ((session 2 [] 1).run scripted lateHeartbeat).trace.length + 1 := by
      rw [heq, List.length_append, List.length_cons]
      omega
    exact hnone _ hlt (hdrop ▸ hcomplete)

end Handshake

end DlepRouter
