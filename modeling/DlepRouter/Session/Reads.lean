import DlepRouter.Parse.Reads
import DlepRouter.Session.Dispatch
import DlepRouter.Session.Framing
import DlepRouter.Session.Receiving

/-!
# Which octets a session reads

`recv_message` allocates a block for the header and the length that the header announces, and the
message is then looked at in that block. What is not announced right is given up after the header;
what is reaches to the end of the block, so that everything that is read behind the message is read
behind the block.
-/

namespace DlepRouter

open Interaction Tlv Scan

/-! ### The `switch` -/

section Switch

variable (m : Memory UInt8) (len : ℕ)

lemma reads_checkMessage_lt_four (t : MessageType) : ∀ a ∈ (checkMessage len t).reads m, a < 4 := by
  simp only [checkMessage, reads_ite, reads_bind, reads_readUint16,
    Interaction.Program.pure_eq_ret, reads_ret, ite_self, List.append_nil]
  split_ifs <;> decide

/-- A validator reads nothing but the header of a message whose header is wrong. -/
lemma MessageKind.reads_check_lt_four {k : MessageKind} (h : ¬ Headed m len k.messageType) :
    ∀ a ∈ (k.check len).reads m, a < 4 := by
  have hsc := mt (checkMessage_eq_success_iff m len k.messageType).mp h
  rw [k.check_eq, checkMessageItems, reads_bind, if_neg hsc]
  simpa using reads_checkMessage_lt_four m len k.messageType

lemma reads_checkThenParse (check : ℕ → Reader StatusCode) (parse : Reader Unit) :
    (checkThenParse check parse len).reads m = (check len).reads m ++
      if (check len).value m = .success then parse.reads m else [] := by
  simp [checkThenParse]

/-- Whether a parser is given the length field or reads it again, the header is all that is read for
it. -/
lemma mem_reads_checkThenParse_iff (check : ℕ → Reader StatusCode) (parse : ℕ → Reader Unit)
    {a : ℕ} :
    a < 4 ∨ a ∈ (checkThenParse check (parse ((readUint16 2).value m).toNat) len).reads m ↔
      a < 4 ∨ a ∈ (check len).reads m ∨ (check len).value m = .success ∧
        a ∈ ((readUint16 2 : Reader UInt16) >>= fun msgLen => parse msgLen.toNat).reads m := by
  have hfield : a ∈ List.range' 2 2 → a < 4 := by
    rw [List.mem_range'_1]
    exact And.right
  rw [reads_checkThenParse, reads_bind, reads_readUint16, List.mem_append, List.mem_append]
  by_cases hsc : (check len).value m = .success
  · simp only [hsc, if_true, true_and]
    tauto
  · simp only [hsc, if_false, false_and, List.not_mem_nil]

/-- What is read of a message of the session: its header, what the validator reads and, if it
accepts, what the parser reads. -/
lemma mem_reads_dispatch_iff {k : SessionMessage}
    (h : bigEndian (m.slice 0 2) = k.kind.messageType.code.toNat) {a : ℕ} :
    a ∈ (dispatch len).reads m ↔
      a < 4 ∨ a ∈ (k.kind.check len).reads m ∨
        (k.kind.check len).value m = .success ∧ a ∈ (k.parse len).reads m := by
  have hheader : a ∈ List.range' 0 2 ∨ a ∈ List.range' 2 2 ↔ a < 4 := by
    simp only [List.mem_range'_1]
    omega
  simp only [dispatch, reads_bind, reads_readUint16, ofCode_readUint16 h, List.mem_append,
    ← or_assoc, hheader]
  rw [or_assoc]
  cases k with
  | heartbeat =>
    dsimp only [SessionMessage.kind, MessageKind.messageType]
    rw [reads_checkThenParse]
    simp [print, SessionMessage.parse, MessageKind.check]
  | sessionUpdate => exact mem_reads_checkThenParse_iff m len _ (parseSessionUpdateMessage 4)
  | destinationUp => exact mem_reads_checkThenParse_iff m len _ (parseDestinationUpMessage 4)
  | destinationUpdate =>
    exact mem_reads_checkThenParse_iff m len _ (parseDestinationUpdateMessage 4)
  | destinationDown => exact mem_reads_checkThenParse_iff m len _ (parseDestinationDownMessage 4)

/-- Of a Session Termination, the header and what its validator reads are read. -/
lemma mem_reads_dispatch_sessionTerm_iff
    (h : bigEndian (m.slice 0 2) = MessageType.sessionTerm.code.toNat) {a : ℕ} :
    a ∈ (dispatch len).reads m ↔ a < 4 ∨ a ∈ (checkSessionTermMessage len).reads m := by
  have hheader : a ∈ List.range' 0 2 ∨ a ∈ List.range' 2 2 ↔ a < 4 := by
    simp only [List.mem_range'_1]
    omega
  simp only [dispatch, reads_bind, reads_readUint16, ofCode_readUint16 h, List.mem_append,
    ← or_assoc, hheader]
  simp [print]

/-- A message is one of the session, a Session Termination, or one that is not validated. -/
lemma validated_cases :
    (∃ k : SessionMessage, bigEndian (m.slice 0 2) = k.kind.messageType.code.toNat) ∨
      bigEndian (m.slice 0 2) = MessageType.sessionTerm.code.toNat ∨
      ∀ k : MessageKind, k ≠ .sessionInitResp →
        bigEndian (m.slice 0 2) ≠ k.messageType.code.toNat := by
  by_cases hsession : ∃ k : SessionMessage, bigEndian (m.slice 0 2) = k.kind.messageType.code.toNat
  · exact .inl hsession
  by_cases hterm : bigEndian (m.slice 0 2) = MessageType.sessionTerm.code.toNat
  · exact .inr (.inl hterm)
  refine .inr (.inr ?_)
  intro k hk htype
  cases k with
  | sessionInitResp => exact hk rfl
  | sessionTerm => exact hterm htype
  | heartbeat => exact hsession ⟨.heartbeat, htype⟩
  | sessionUpdate => exact hsession ⟨.sessionUpdate, htype⟩
  | destinationUp => exact hsession ⟨.destinationUp, htype⟩
  | destinationUpdate => exact hsession ⟨.destinationUpdate, htype⟩
  | destinationDown => exact hsession ⟨.destinationDown, htype⟩

/-- Of any other message only the header is read. -/
lemma reads_dispatch_lt_four
    (h : ∀ k : MessageKind, k ≠ .sessionInitResp →
      bigEndian (m.slice 0 2) ≠ k.messageType.code.toNat) :
    ∀ a ∈ (dispatch len).reads m, a < 4 := by
  intro a ha
  simp only [dispatch, reads_bind, reads_readUint16, List.mem_append] at ha
  rcases ha with ha | ha | ha
  · rw [List.mem_range'_1] at ha
    omega
  · rw [List.mem_range'_1] at ha
    omega
  · apply absurd ha
    rcases type_cases m with ⟨t, ht⟩ | ⟨-, hnone⟩
    · rw [ofCode_readUint16 ht]
      cases t with
      | sessionTerm => exact absurd ht (h .sessionTerm (by decide))
      | sessionUpdate => exact absurd ht (h .sessionUpdate (by decide))
      | destUp => exact absurd ht (h .destinationUp (by decide))
      | destDown => exact absurd ht (h .destinationDown (by decide))
      | destUpdate => exact absurd ht (h .destinationUpdate (by decide))
      | peerHeartbeat => exact absurd ht (h .heartbeat (by decide))
      | _ => simp
    · rw [hnone]
      simp

/-! ### Reading behind a message -/

/-- Looking at the `len` octets in `m` as a message of a kind reads behind them: the validator
strays, or it accepts and the parser of the message, if it has one, runs past the end. -/
def MessageKind.Oversteps (k : MessageKind) : Prop :=
  k.Strays m len ∨
    (k.check len).value m = .success ∧ ∃ p : ParsedMessage, p.kind = k ∧ p.RunsPast m len

variable {m len} in
/-- Only a message with a right header is looked at further. -/
lemma MessageKind.Oversteps.headed {k : MessageKind} (h : k.Oversteps m len) :
    Headed m len k.messageType := by
  rcases h with ⟨hhead, -⟩ | ⟨hsc, -⟩
  · exact hhead
  · exact ((k.check_eq_success_iff m len).mp hsc).1

lemma ParsedMessage.kind_injective {p p' : ParsedMessage} (h : p.kind = p'.kind) : p = p' := by
  cases p <;> cases p' <;> first | rfl | cases h

/-- Validating and parsing a message reads behind it exactly if it oversteps. -/
lemma ParsedMessage.reads_check_parse_lt_iff (p : ParsedMessage) :
    ((∀ a ∈ (p.kind.check len).reads m, a < len) ∧
        ((p.kind.check len).value m = .success → ∀ a ∈ (p.parse len).reads m, a < len)) ↔
      ¬ p.kind.Oversteps m len := by
  rw [p.kind.reads_check_lt_iff, MessageKind.Oversteps, not_or, not_and]
  apply and_congr_right
  intro _
  apply imp_congr_right
  intro hsc
  rw [p.reads_parse_lt_iff m hsc, not_iff_not]
  constructor
  · intro h
    exact ⟨p, rfl, h⟩
  · rintro ⟨p', hp', h⟩
    rwa [← ParsedMessage.kind_injective hp']

/-- A message without a parser is only validated. -/
lemma MessageKind.oversteps_iff_strays {k : MessageKind} (h : ∀ p : ParsedMessage, p.kind ≠ k) :
    k.Oversteps m len ↔ k.Strays m len := by
  apply or_iff_left
  rintro ⟨-, p, hp, -⟩
  exact h p hp

/-- Whether a message of the session is validated and parsed within its octets. -/
lemma SessionMessage.reads_check_parse_lt_iff (k : SessionMessage) :
    ((∀ a ∈ (k.kind.check len).reads m, a < len) ∧
        ((k.kind.check len).value m = .success → ∀ a ∈ (k.parse len).reads m, a < len)) ↔
      ¬ k.kind.Oversteps m len := by
  cases k with
  | heartbeat =>
    rw [MessageKind.oversteps_iff_strays m len (by intro p; cases p <;> decide),
      ← MessageKind.reads_check_lt_iff]
    apply and_iff_left
    intro _
    exact List.forall_mem_nil _
  | sessionUpdate => exact ParsedMessage.reads_check_parse_lt_iff m len .sessionUpdate
  | destinationUp => exact ParsedMessage.reads_check_parse_lt_iff m len .destinationUp
  | destinationUpdate => exact ParsedMessage.reads_check_parse_lt_iff m len .destinationUpdate
  | destinationDown => exact ParsedMessage.reads_check_parse_lt_iff m len .destinationDown

/-- The `switch` reads behind a message exactly if the message oversteps as one of its kind. -/
lemma reads_dispatch_lt_iff (hlen : 4 ≤ len) :
    (∀ a ∈ (dispatch len).reads m, a < len) ↔
      ∀ k : MessageKind, k ≠ .sessionInitResp → ¬ k.Oversteps m len := by
  have honly : ∀ k : MessageKind, k ≠ .sessionInitResp →
      bigEndian (m.slice 0 2) = k.messageType.code.toNat →
      ((∀ k' : MessageKind, k' ≠ .sessionInitResp → ¬ k'.Oversteps m len) ↔
        ¬ k.Oversteps m len) := by
    intro k hk htype
    constructor
    · intro h
      exact h k hk
    · intro h k' _ hover
      obtain rfl : k = k' := MessageKind.code_injective (htype.symm.trans hover.headed.2.1)
      exact h hover
  rcases validated_cases m with ⟨k, htype⟩ | hterm | hother
  · rw [honly k.kind (by cases k <;> decide) htype, ← k.reads_check_parse_lt_iff]
    simp only [mem_reads_dispatch_iff m len htype]
    constructor
    · intro h
      exact ⟨fun a ha => h a (.inr (.inl ha)), fun hsc a ha => h a (.inr (.inr ⟨hsc, ha⟩))⟩
    · rintro ⟨hcheck, hparse⟩ a (ha | ha | ⟨hsc, ha⟩)
      · exact Nat.lt_of_lt_of_le ha hlen
      · exact hcheck a ha
      · exact hparse hsc a ha
  · rw [honly .sessionTerm (by decide) hterm,
      MessageKind.oversteps_iff_strays m len (by intro p; cases p <;> decide),
      ← MessageKind.reads_check_lt_iff]
    simp only [mem_reads_dispatch_sessionTerm_iff m len hterm]
    constructor
    · intro h a ha
      exact h a (.inr ha)
    · rintro hcheck a (ha | ha)
      · exact Nat.lt_of_lt_of_le ha hlen
      · exact hcheck a ha
  · apply iff_of_true
    · intro a ha
      exact Nat.lt_of_lt_of_le (reads_dispatch_lt_four m len hother a ha) hlen
    · intro k hk hover
      exact hother k hk hover.headed.2.1

/-- A message whose header is wrong is not looked at behind the header. -/
lemma reads_dispatch_lt_four_of_not_headed (h : ∀ t, ¬ Headed m len t) :
    ∀ a ∈ (dispatch len).reads m, a < 4 := by
  have hcheck : ∀ k : MessageKind, ∀ a ∈ (k.check len).reads m, a < 4 :=
    fun k => k.reads_check_lt_four m len (h _)
  rcases validated_cases m with ⟨k, htype⟩ | hterm | hother
  · intro a ha
    rcases (mem_reads_dispatch_iff m len htype).mp ha with ha | ha | ⟨hsc, -⟩
    · exact ha
    · exact hcheck k.kind a ha
    · exact absurd ((k.kind.check_eq_success_iff m len).mp hsc).1 (h _)
  · intro a ha
    rcases (mem_reads_dispatch_sessionTerm_iff m len hterm).mp ha with ha | ha
    · exact ha
    · exact hcheck .sessionTerm a ha
  · exact reads_dispatch_lt_four m len hother

/-- A message whose items tile it oversteps exactly if it is accepted and an MTU is the last of
them. -/
lemma ParsedMessage.oversteps_iff_of_tiles (p : ParsedMessage)
    (htiles : dataItemFormat.Tiles m 4 len) :
    p.kind.Oversteps m len ↔ (p.kind.check len).value m = .success ∧
      ∃ i, (MessageKind.items m len).getLast? = some i ∧ i.tag = DataItemType.mtu.code := by
  have hnot : ¬ p.kind.Strays m len := by
    rintro ⟨hhead, -, -, hne, -⟩
    exact hne ((Format.tiles_iff_decode hhead.1).mp htiles)
  rw [MessageKind.Oversteps, or_iff_right hnot]
  apply and_congr_right
  intro hsc
  have hacc := ((p.kind.check_eq_success_iff m len).mp hsc).2
  rw [← p.runsPast_iff_of_tiles m hacc htiles]
  constructor
  · rintro ⟨p', hp', h⟩
    rwa [← ParsedMessage.kind_injective hp']
  · intro h
    exact ⟨p, rfl, h⟩

end Switch

/-! ### The block -/

section Block

variable {ok : Assumption sysSig}

/-- The block that `recv_message` leaves has room for a header, and if one was received for what it
announces and no more. -/
lemma ensures_recvMessage_size (b : Buffer) :
    (recvMessage b).Ensures ok fun r _ => ∀ len, r.1 = some len →
      4 ≤ r.2.size ∧ (4 ≤ len → r.2.size = 4 + bigEndian (r.2.octets.slice 2 2)) := by
  apply ensures_call_bind
  intro fresh _
  cases fresh with
  | none => exact nofun
  | some fresh =>
    apply ensures_call_bind
    intro header _
    cases header with
    | none => exact nofun
    | some header =>
      obtain ⟨bs, hbs⟩ := header
      dsimp only
      have hsize : ((b.resize 4 fresh).store 0 bs).size = 4 := rfl
      generalize (b.resize 4 fresh).store 0 bs = b1 at hsize ⊢
      have hn : ((readUint16 2).value b1.octets).toNat = bigEndian (b1.octets.slice 2 2) :=
        toNat_readUint16 _ _
      generalize ((readUint16 2).value b1.octets).toNat = n at hn ⊢
      split_ifs with h4 h0
      · apply ensures_call_bind
        intro fresh' _
        cases fresh' with
        | none => exact nofun
        | some fresh' =>
          apply ensures_call_bind
          intro body _
          cases body with
          | none => exact nofun
          | some body =>
            rintro len ⟨⟩
            have hstored := Memory.slice_patch_of_le (b1.resize (n + 4) fresh').octets body.val
              (Nat.le_refl (2 + 2))
            have hresized : (b1.resize (n + 4) fresh').octets.slice 2 2 = b1.octets.slice 2 2 :=
              Memory.slice_congr fun i hi => if_pos (by omega)
            refine ⟨Nat.le_add_left 4 n, fun _ => ?_⟩
            rw [Buffer.store, hstored, hresized, ← hn]
            exact Nat.add_comm n 4
      · rintro len ⟨⟩
        refine ⟨Nat.le_of_eq hsize.symm, fun _ => ?_⟩
        rw [hsize, ← hn]
        omega
      · rintro len ⟨⟩
        refine ⟨Nat.le_of_eq hsize.symm, fun hle => ?_⟩
        omega

/-- Everything that is read of what was received lies in the block, unless the message oversteps as
one of its kind: in session, and while the response to the initialization is awaited. -/
theorem recvMessage_reads_iff {S : Type} (H : Handler sysSig S) (s : S) (b : Buffer) (len : ℕ)
    (b' : Buffer) (h : ((recvMessage b).run H s).value = (some len, b')) :
    ((∀ a ∈ (dispatch len).reads b'.octets, a < b'.size) ↔
      ∀ k : MessageKind, k ≠ .sessionInitResp → ¬ k.Oversteps b'.octets len) ∧
    (((∀ a ∈ (checkSessionInitRespMessage len).reads b'.octets, a < b'.size) ∧
        ((checkSessionInitRespMessage len).value b'.octets = .success →
          ∀ a ∈ (parseSessionInitRespMessage 4 (len - 4) .initial).reads b'.octets, a < b'.size)) ↔
      ¬ MessageKind.sessionInitResp.Oversteps b'.octets len) := by
  have hblock := (ensures_recvMessage_size b).run_any H s
  rw [h] at hblock
  obtain ⟨hsize, hannounced⟩ := hblock len rfl
  have hparse : (parseSessionInitRespMessage 4 (len - 4) .initial).reads b'.octets =
      (ParsedMessage.parse .sessionInitResp len).reads b'.octets := by
    simp [ParsedMessage.parse]
  have hinit := ParsedMessage.reads_check_parse_lt_iff b'.octets len .sessionInitResp
  by_cases hheader : 4 ≤ len ∧ bigEndian (b'.octets.slice 2 2) = len - 4
  · obtain ⟨h4, hfield⟩ := hheader
    have heq : b'.size = len := by
      rw [hannounced h4, hfield]
      omega
    rw [heq, hparse]
    exact ⟨reads_dispatch_lt_iff b'.octets len h4, hinit⟩
  · have hnot : ∀ t, ¬ Headed b'.octets len t := fun t ht => hheader ⟨ht.1, ht.2.2⟩
    have hover : ∀ k : MessageKind, ¬ k.Oversteps b'.octets len := fun k hk => hnot _ hk.headed
    constructor
    · apply iff_of_true
      · intro a ha
        exact Nat.lt_of_lt_of_le (reads_dispatch_lt_four_of_not_headed _ len hnot a ha) hsize
      · exact fun k _ => hover k
    · apply iff_of_true _ (hover _)
      refine ⟨?_, ?_⟩
      · intro a ha
        have hlt := MessageKind.reads_check_lt_four b'.octets len
          (hnot (MessageKind.messageType .sessionInitResp)) a ha
        exact Nat.lt_of_lt_of_le hlt hsize
      · intro hsc
        exact absurd ((MessageKind.check_eq_success_iff .sessionInitResp _ len).mp hsc).1 (hnot _)

/-- A modem that sends a Destination Up with an MTU at the end. -/
def mtuAtEnd : Script where
  readable := []
  clock := []
  received := [mtuDestination.take 4, mtuDestination.drop 4]
  taken := []

/-- The MTU is read behind the block. -/
theorem not_reads_lt_mtuAtEnd :
    ¬ ∀ a ∈ (dispatch 20).reads ((recvMessage .null).run scripted mtuAtEnd).value.2.octets,
      a < ((recvMessage .null).run scripted mtuAtEnd).value.2.size := by
  have hvalue : ((recvMessage .null).run scripted mtuAtEnd).value =
      (some 20, ((recvMessage .null).run scripted mtuAtEnd).value.2) :=
    Prod.ext (by decide) rfl
  intro hwithin
  have hnot := (recvMessage_reads_iff scripted mtuAtEnd .null 20 _ hvalue).1.mp hwithin
  apply hnot .destinationUp (by decide)
  apply (ParsedMessage.oversteps_iff_of_tiles _ 20 .destinationUp
    (.item (by decide) (.item (by decide) (.done 20)))).mpr
  refine ⟨by decide, ⟨20, [0x05, 0xDC]⟩, ?_, rfl⟩
  rw [MessageKind.items, Format.items_of_lt (by decide), Format.items_of_lt (by decide),
    Format.items_of_le (by decide)]
  decide

end Block

end DlepRouter
