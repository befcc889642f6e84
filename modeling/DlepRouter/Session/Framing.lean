import DlepRouter.Encode.Sent
import DlepRouter.Session.Protocol
import DlepRouter.Tlv.Writes

/-!
# The framing of the stream to the modem

Every message of a session is well formed, but `send` may take only a part of it. The opening and
the termination of a session end when that happens; heartbeats and the responses to destinations are
only reported as failed, and the session goes on.
-/

namespace DlepRouter

open Interaction Tlv

/-! ### Writes -/

/-- The messages handed to `send` in a list of events, and what was taken of each. -/
def writes (t : List (Event sysSig)) : List (Write UInt8) :=
  t.filterMap fun e => match e with
    | ⟨.send msg, sent⟩ =>
      some ⟨msg, ((sent : Option (Fin (msg.length + 1))).map Fin.val).getD 0, by
        cases (sent : Option (Fin (msg.length + 1))) with
        | none => exact Nat.zero_le _
        | some k => exact Nat.le_of_lt_succ k.isLt⟩
    | _ => none

@[simp] lemma writes_nil : writes [] = [] := rfl

@[simp] lemma writes_append (t t' : List (Event sysSig)) :
    writes (t ++ t') = writes t ++ writes t' := by
  simp [writes]

/-- The other calls write nothing. -/
@[simp] lemma writes_cons_of_ne {c : SysCall} (h : ∀ msg, c ≠ .send msg) (r : c.Answer)
    (t : List (Event sysSig)) : writes (⟨c, r⟩ :: t) = writes t := by
  cases c with
  | send msg => exact absurd rfl (h msg)
  | _ => rfl

/-- The messages written are those handed to `send`. -/
lemma map_cells_writes (t : List (Event sysSig)) : (writes t).map Write.cells = sends t := by
  induction t with
  | nil => rfl
  | cons e t ih =>
    obtain ⟨c, r⟩ := e
    cases c with
    | send msg => exact congrArg (msg :: ·) ih
    | _ => exact ih

/-- A complete message: its type, its length and its data items. -/
def IsMessage (msg : List UInt8) : Prop :=
  ∃ (t : MessageType) (items : List DataItem), Carries 4 (writeUint16 t.code) msg items

/-! ### Messages of a session -/

section Messages

lemma isMessage_sessionInitMessage (peerType : List UInt8) (ri : UInt32) :
    IsMessage (sessionInitMessage peerType ri) := by
  rw [← sent_fillSessionInit peerType ri fun _ => 0]
  exact ⟨.sessionInit, _, (builds_fillSessionInit peerType ri).carries _⟩

lemma isMessage_heartbeat : IsMessage heartbeat := by
  rw [← heartbeatMessage_eq, ← sent_fillHeartbeat fun _ => 0]
  exact ⟨.peerHeartbeat, _, builds_fillHeartbeat.carries _⟩

lemma isMessage_terminationResp : IsMessage terminationResp := by
  rw [← sessionTermRespMessage_eq, ← sent_fillSessionTermResp fun _ => 0]
  exact ⟨.sessionTermResp, _, builds_fillSessionTermResp.carries _⟩

lemma isMessage_termination (status : UInt8) : IsMessage (termination status) := by
  have hsent : sent (fillSessionTerm status) (fun _ => 0) = termination status := by
    rw [(finishes_fillSessionTerm status).sent (Nat.le_of_ble_eq_true rfl)
      (Nat.le_of_ble_eq_true rfl)]
    have htype : writeUint16 MessageType.sessionTerm.code = [0x00, 0x05] := by decide
    have hzero : writeUint16 0 = [0x00, 0x00] := by decide
    have hitem : writeUint16 DataItemType.status.code = [0x00, 0x01] := by decide
    have hone : writeUint16 1 = [0x00, 0x01] := by decide
    have hlength : writeUint16 5 = [0x00, 0x05] := by decide
    simp [fillMessageLength, sessionTermItems, Format.encode, dataItemFormat, termination, htype,
      hzero, hitem, hone, hlength]
  rw [← hsent]
  exact ⟨.sessionTerm, _, (builds_fillSessionTerm status).carries _⟩

lemma isMessage_destinationRespMessage (msgType : MessageType) (sc : StatusCode) {mac : List UInt8}
    (h : mac.length = 6) : IsMessage (destinationRespMessage msgType mac sc) := by
  have hsent := sent_fillDestinationResp ⟨mac.toArray, by simpa using h⟩ (fun _ => 0) msgType sc
  have hmac : (Vector.mk mac.toArray (by simpa using h) : Vector UInt8 6).toList = mac := rfl
  rw [hmac] at hsent
  rw [← hsent]
  exact ⟨msgType, _, (builds_fillDestinationResp _ sc.code msgType).carries _⟩

lemma Steady.isMessage {msgs : List (List UInt8)} (h : Steady msgs) :
    ∀ msg ∈ msgs, IsMessage msg := by
  intro msg hmsg
  rcases h msg hmsg with rfl | ⟨mac, hmac, rfl | rfl⟩
  · exact isMessage_heartbeat
  · exact isMessage_destinationRespMessage _ _ hmac
  · exact isMessage_destinationRespMessage _ _ hmac

lemma IsClosing.isMessage {msg : List UInt8} (h : IsClosing msg) : IsMessage msg := by
  rcases h with rfl | ⟨status, -, rfl⟩
  · exact isMessage_terminationResp
  · exact isMessage_termination status

end Messages

/-! ### The writes of a session -/

section Session

variable {ok : Assumption sysSig}

/-- What a whole session sends: nothing, or its initialization, then steady messages, and then at
most one message that closes it. -/
def SentBySession (ri : UInt32) (msgs : List (List UInt8)) : Prop :=
  msgs = [] ∨ ∃ ms closing, msgs = sessionInitMessage peerType ri :: (ms ++ closing) ∧
    Steady ms ∧ closing.length ≤ 1 ∧ ∀ msg ∈ closing, IsMessage msg

lemma SentInSession.sentBySession {msgs : List (List UInt8)} (h : SentInSession msgs)
    (ri : UInt32) : SentBySession ri (sessionInitMessage peerType ri :: msgs) := by
  obtain ⟨ms, closing, rfl, hsteady, hclosing⟩ := h
  refine .inr ⟨ms, closing, rfl, hsteady, ?_⟩
  rcases hclosing with rfl | ⟨msg, rfl, hmsg⟩
  · exact ⟨Nat.zero_le 1, nofun⟩
  · exact ⟨Nat.le_refl 1, List.forall_mem_singleton.mpr hmsg.isMessage⟩

/-- The initialization may also be followed by a last message alone. -/
lemma Closes.sentBySession {msg : List UInt8} {t : List (Event sysSig)} (h : Closes msg t)
    (hmsg : IsMessage msg) (ri : UInt32) :
    SentBySession ri (sessionInitMessage peerType ri :: sends t) := by
  rcases h with h | ⟨h, -⟩
  · rw [h]
    exact .inr ⟨[], [msg], rfl, steady_nil, Nat.le_refl 1, List.forall_mem_singleton.mpr hmsg⟩
  · rw [h]
    exact .inr ⟨[], [], rfl, steady_nil, Nat.zero_le 1, nofun⟩

lemma SentBySession.isMessage {ri : UInt32} {msgs : List (List UInt8)}
    (h : SentBySession ri msgs) : ∀ msg ∈ msgs, IsMessage msg := by
  intro msg hmsg
  rcases h with rfl | ⟨ms, closing, rfl, hsteady, -, hclosing⟩
  · cases hmsg
  · rcases List.mem_cons.mp hmsg with rfl | hmsg
    · exact isMessage_sessionInitMessage _ _
    · rcases List.mem_append.mp hmsg with hmsg | hmsg
      · exact hsteady.isMessage msg hmsg
      · exact hclosing msg hmsg

/-- Every message of a session is the initialization, a steady message or the last one. -/
lemma SentBySession.cases {ri : UInt32} {pre post : List (List UInt8)} {msg : List UInt8}
    (h : SentBySession ri (pre ++ msg :: post)) :
    pre = [] ∨ post = [] ∨ msg = heartbeat ∨ IsDestinationResp msg := by
  rcases h with h | ⟨ms, closing, heq, hsteady, hlength, -⟩
  · simp at h
  · cases pre with
    | nil => exact .inl rfl
    | cons first pre =>
      right
      obtain ⟨-, heq⟩ := List.cons.inj heq
      rcases List.append_eq_append_iff.mp heq with ⟨as, rfl, has⟩ | ⟨cs, -, hcs⟩
      · cases as with
        | nil =>
          left
          rw [List.nil_append] at has
          rw [← has, List.length_cons] at hlength
          exact List.length_eq_zero_iff.mp (Nat.le_zero.mp (Nat.le_of_succ_le_succ hlength))
        | cons a as =>
          obtain ⟨rfl, -⟩ := List.cons.inj has
          exact .inr (hsteady msg (List.mem_append_right pre List.mem_cons_self))
      · left
        have hlen := congrArg List.length hcs
        rw [List.length_append, List.length_cons] at hlen
        exact List.length_eq_zero_iff.mp (by omega)

/-- Whatever becomes of it, a `send` is one write, and it reports whether all was taken. -/
lemma ensures_send_writes (msg : List UInt8) :
    (Sys.send msg).Ensures ok fun b t => ∃ w : Write UInt8, w.cells = msg ∧ writes t = [w] ∧
      (b = true → w.taken = msg.length) := by
  intro sent _
  refine ⟨_, rfl, rfl, ?_⟩
  intro h
  have hall := of_decide_eq_true h
  change (sent.map Fin.val).getD 0 = msg.length
  rw [hall]
  rfl

/-- The initialization has been taken as a whole when a response is accepted. -/
lemma ensures_openSession_writes (modemAddress : List UInt8) (ri : UInt32) :
    (openSession modemAddress ri).Ensures ok fun o t => ∀ b sc resp, o = .accepted b sc resp →
      ∃ w ∈ writes t, w.taken = w.cells.length := by
  apply (ensures_openSession_goes modemAddress ri).mono
  intro o t h b sc resp ho
  cases h with
  | noSocket | unconnected | unsent => cases ho
  | sent hsend =>
    obtain ⟨w, hw, ht, hsent⟩ := (ensures_send_writes _).of_path hsend
    exact ⟨w, by simp [ht], hw ▸ hsent rfl⟩

lemma writes_eq_nil {t : List (Event sysSig)} (h : sends t = []) : writes t = [] := by
  rw [← map_cells_writes] at h
  exact List.map_eq_nil_iff.mp h

lemma writes_eq_singleton {t : List (Event sysSig)} {msg : List UInt8} {w : Write UInt8}
    (h : sends t = [msg]) (hw : w ∈ writes t) : writes t = [w] := by
  rw [← map_cells_writes] at h
  obtain ⟨v, hv, -⟩ := List.map_eq_singleton_iff.mp h
  rw [hv, List.mem_singleton] at hw
  rw [hv, hw]

/-- What a session hands to `send`; anything behind the initialization requires that all of that
was taken. -/
lemma ensures_session_writes (n : ℕ) (modemAddress : List UInt8) (ri : UInt32) :
    (session n modemAddress ri).Ensures ok fun _ t =>
      SentBySession ri (sends t) ∧
        ∀ w ws, writes t = w :: ws → ws = [] ∨ w.taken = w.cells.length := by
  apply ((ensures_openSession modemAddress ri).and
    (ensures_openSession_writes modemAddress ri)).bind
  intro o t h
  obtain ⟨hleaves, hinit⟩ := h
  have hnothing : ∀ t', sends (t ++ t') = [] → SentBySession ri (sends (t ++ t')) ∧
      ∀ w ws, writes (t ++ t') = w :: ws → ws = [] ∨ w.taken = w.cells.length := by
    intro t' h
    rw [h, writes_eq_nil h]
    exact ⟨.inl rfl, nofun⟩
  have honly : ∀ t', sends (t ++ t') = [sessionInitMessage peerType ri] →
      SentBySession ri (sends (t ++ t')) ∧
        ∀ w ws, writes (t ++ t') = w :: ws → ws = [] ∨ w.taken = w.cells.length := by
    intro t' h
    refine ⟨.inr ⟨[], [], h, steady_nil, Nat.zero_le 1, nofun⟩, ?_⟩
    intro w ws hws
    rw [← map_cells_writes, hws, List.map_cons] at h
    exact .inl (List.map_eq_nil_iff.mp (List.cons.inj h).2)
  cases o with
  | noSocket =>
    have hsends : sends t = [] := hleaves
    exact hnothing [] (by simpa using hsends)
  | unconnected =>
    have hsends : sends t = [] := hleaves
    apply (silent_closeSession _).mono
    intro _ t' ht'
    exact hnothing t' (by simpa [ht'] using hsends)
  | unanswered | rejected =>
    have hsends : sends t = [sessionInitMessage peerType ri] := hleaves
    apply (silent_closeSession _).mono
    intro _ t' ht'
    exact honly t' (by simpa [ht'] using hsends)
  | accepted b sc resp =>
    obtain ⟨hsends, rfl, -⟩ := hleaves
    obtain ⟨w, hw, htaken⟩ := hinit b .success resp rfl
    have hwrites : writes t = [w] := writes_eq_singleton hsends hw
    apply (ensures_runSession n b resp ri).mono
    intro _ t' h
    constructor
    · rw [sends_append, hsends]
      by_cases hsc : resp.sc = 0
      · exact (h.2 hsc).sentBySession ri
      · exact (h.1 hsc).sentBySession (isMessage_termination 255) ri
    · intro v ws hws
      rw [writes_append, hwrites] at hws
      obtain ⟨rfl, -⟩ := List.cons.inj hws
      exact .inr htaken

/-- A message that is followed by another one is taken as a whole, or it is a heartbeat or a
response to a destination. -/
lemma ensures_session_followed (n : ℕ) (modemAddress : List UInt8) (ri : UInt32) :
    (session n modemAddress ri).Ensures ok fun _ t =>
      (∀ msg ∈ sends t, IsMessage msg) ∧
        ∀ ws₁ w ws₂, writes t = ws₁ ++ w :: ws₂ →
          ws₂ = [] ∨ w.taken = w.cells.length ∨
            w.cells = heartbeat ∨ IsDestinationResp w.cells := by
  apply (ensures_session_writes n modemAddress ri).mono
  intro _ t h
  obtain ⟨hsent, hfirst⟩ := h
  refine ⟨hsent.isMessage, ?_⟩
  intro ws₁ w ws₂ hws
  rw [← map_cells_writes, hws, List.map_append, List.map_cons] at hsent
  rcases hsent.cases with hpre | hpost | hsteady
  · obtain rfl := List.map_eq_nil_iff.mp hpre
    rcases hfirst w ws₂ hws with hnil | htaken
    · exact .inl hnil
    · exact .inr (.inl htaken)
  · exact .inl (List.map_eq_nil_iff.mp hpost)
  · exact .inr (.inr hsteady)

end Session

/-! ### The stream -/

/-- The modem receives complete messages, and then at most one that is incomplete, behind which the
router sends nothing more. -/
structure Intact (t : List (Event sysSig)) : Prop where
  messages : ∀ msg ∈ sends t, IsMessage msg
  untorn : Write.Untorn (writes t)

/-- What the modem receives over an intact stream. -/
theorem Intact.wire {t : List (Event sysSig)} (h : Intact t) :
    ∃ (whole : List (List UInt8)) (part : List UInt8),
      Write.wire (writes t) = whole.flatten ++ part ∧ (∀ msg ∈ whole, IsMessage msg) ∧
        (part = [] ∨ ∃ msg, IsMessage msg ∧ part <+: msg) := by
  have hmessage : ∀ w ∈ writes t, IsMessage w.cells := by
    intro w hw
    apply h.messages
    rw [← map_cells_writes]
    exact List.mem_map_of_mem hw
  obtain ⟨whole, part, hmem, hpart, hwire⟩ := h.untorn.wire
  refine ⟨whole.map Write.cells, part, hwire, ?_, ?_⟩
  · intro msg hmsg
    obtain ⟨w, hw, rfl⟩ := List.mem_map.mp hmsg
    exact hmessage w (hmem w hw)
  · rcases hpart with hnil | ⟨w, hw, hprefix⟩
    · exact .inl hnil
    · exact .inr ⟨w.cells, hmessage w hw, hprefix⟩

/-- The stream of a session is intact exactly if no heartbeat and no response to a destination is
cut short before anything else is sent. -/
theorem session_intact_iff {S : Type} (H : Handler sysSig S) (s : S) (n : ℕ)
    (modemAddress : List UInt8) (routerHeartbeatInterval : UInt32) :
    Intact ((session n modemAddress routerHeartbeatInterval).run H s).trace ↔
      ∀ ws₁ w ws₂,
        writes ((session n modemAddress routerHeartbeatInterval).run H s).trace =
          ws₁ ++ w :: ws₂ →
        w.cells = heartbeat ∨ IsDestinationResp w.cells → w.Cut → ∀ v ∈ ws₂, v.taken = 0 := by
  have hrun := (ensures_session_followed n modemAddress routerHeartbeatInterval).run_any H s
  generalize ((session n modemAddress routerHeartbeatInterval).run H s).trace = t at hrun ⊢
  constructor
  · intro h ws₁ w ws₂ hws _
    exact Write.untorn_iff.mp h.untorn ws₁ w ws₂ hws
  · intro h
    refine ⟨hrun.1, Write.untorn_iff.mpr ?_⟩
    intro ws₁ w ws₂ hws hcut
    rcases hrun.2 ws₁ w ws₂ hws with rfl | htaken | hsteady
    · exact nofun
    · exact absurd htaken (Nat.ne_of_lt hcut.2)
    · exact h ws₁ w ws₂ hws hsteady hcut

/-! ### A stream that is torn -/

/-- An environment that follows a script: at each wait whether there is something to read, the
readings of the clock, what each `recv` yields and how much each `send` takes. -/
structure Script where
  readable : List Bool
  clock : List Timespec
  received : List (List UInt8)
  taken : List ℕ

/-- Connections are made and memory never runs out. -/
def scripted : Handler sysSig Script where
  answer s
    | .socket _ | .connect _ => (true, s)
    | .close => ((), s)
    | .send msg =>
      (some ⟨min (s.taken.headD msg.length) msg.length, Nat.lt_succ_of_le (Nat.min_le_right _ _)⟩,
        { s with taken := s.taken.tail })
    | .recv n =>
      (some ⟨(s.received.headD []).take n, List.length_take_le n _⟩,
        { s with received := s.received.tail })
    | .select timeout =>
      (some ⟨s.readable.headD false, timeout⟩, { s with readable := s.readable.tail })
    | .clockGettime => (s.clock.headD ⟨0, 0⟩, { s with clock := s.clock.tail })
    | .realloc _ => (some fun _ => 0, s)

/-- The header of a Session Initialization Response and its items: status, peer type, a heartbeat
interval of one millisecond, four data rates and a latency. -/
def minimalResponse : List (List UInt8) :=
  [[0x00, 0x02, 0x00, 0x4E],
    [0x00, 0x01, 0x00, 0x01, 0x00, 0x00, 0x04, 0x00, 0x01, 0x00,
      0x00, 0x05, 0x00, 0x04, 0x00, 0x00, 0x00, 0x01,
      0x00, 0x0C, 0x00, 0x08, 0x00, 0x00, 0x00, 0x00, 0x00, 0x00, 0x00, 0x09,
      0x00, 0x0D, 0x00, 0x08, 0x00, 0x00, 0x00, 0x00, 0x00, 0x00, 0x00, 0x09,
      0x00, 0x0E, 0x00, 0x08, 0x00, 0x00, 0x00, 0x00, 0x00, 0x00, 0x00, 0x09,
      0x00, 0x0F, 0x00, 0x08, 0x00, 0x00, 0x00, 0x00, 0x00, 0x00, 0x00, 0x09,
      0x00, 0x10, 0x00, 0x08, 0x00, 0x00, 0x00, 0x00, 0x00, 0x00, 0x00, 0x09]]

/-- The modem is silent for five seconds and takes two octets of the heartbeat that is then sent. -/
def cutHeartbeat : Script where
  readable := [false]
  clock := [⟨0, 0⟩, ⟨5, 0⟩]
  received := minimalResponse
  taken := [56, 2, 9]

set_option maxRecDepth 10000 in
/-- The Session Termination that is sent next follows half a heartbeat. -/
theorem not_session_intact :
    ¬ ∀ (S : Type) (H : Handler sysSig S) (s : S) (n : ℕ) (modemAddress : List UInt8)
      (routerHeartbeatInterval : UInt32),
      Intact ((session n modemAddress routerHeartbeatInterval).run H s).trace := by
  intro h
  have hwrites : writes ((session 1 [] 1).run scripted cutHeartbeat).trace =
      [⟨sessionInitMessage peerType 1, 56, by decide⟩] ++ ⟨heartbeat, 2, by decide⟩ ::
        [⟨termination 132, 9, by decide⟩] := by
    decide +kernel
  have huntorn := (h Script scripted cutHeartbeat 1 [] 1).untorn
  have hnone := Write.untorn_iff.mp huntorn _ _ _ hwrites ⟨by decide, by decide⟩
    ⟨termination 132, 9, by decide⟩ List.mem_cons_self
  cases hnone

end DlepRouter
