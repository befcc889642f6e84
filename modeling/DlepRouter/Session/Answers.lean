import DlepRouter.Session.Destinations
import DlepRouter.Session.Dialogue
import DlepRouter.Session.Isolation

/-!
# What a whole session answers

A session waits, says its heartbeats and handles messages in turns, and the messages that it is sent
decide which responses to destinations it says: for each one that it hears in session, those that
the message calls for, in the order of the messages. That is a fact about the dialogue, and so it
holds of every session.
-/

namespace DlepRouter

open Interaction Tlv Scan Memory

/-! ### Requests in a dialogue -/

/-- The message belongs to a termination, judged by its type. -/
def IsTermType (msg : List UInt8) : Prop :=
  bigEndian (msg.take 2) = MessageType.sessionTerm.code.toNat ∨
    bigEndian (msg.take 2) = MessageType.sessionTermResp.code.toNat

instance : DecidablePred IsTermType := fun _ => inferInstanceAs (Decidable (_ ∨ _))

/-- The octets heard before the next wake-up or the termination. -/
def heardNext : List Observation → List UInt8
  | [] => []
  | .woke :: _ => []
  | .heard o :: w => o :: heardNext w
  | .called _ _ :: w => heardNext w
  | .said msg _ :: w => if IsTermType msg then [] else heardNext w

/-- The octets heard after each wake-up, up to the termination. -/
def heardInSession : List Observation → List (List UInt8)
  | [] => []
  | .woke :: w => heardNext w :: heardInSession w
  | .heard _ :: w | .called _ _ :: w => heardInSession w
  | .said msg _ :: w => if IsTermType msg then [] else heardInSession w

/-- The messages said. -/
def said (w : List Observation) : List (List UInt8) :=
  w.filterMap fun o => match o with
    | .said msg _ => some msg
    | _ => none

/-- The octets are one message of a kind, and they hold the data items of its kind. -/
structure IsSessionMessage (k : SessionMessage) (bs : List UInt8) : Prop where
  announces : Announces bs k.kind.messageType
  tiles : (dataItemFormat.decode (bs.drop 4)).2 = []
  accepts : k.kind.contents.Accepts (dataItemFormat.decode (bs.drop 4)).1

/-- The data items that a message may be found to hold: those that its payload is tiled with or,
where the last one is cut off, any item that the octets left over are the beginning of in its
place. -/
inductive MayHold (bs : List UInt8) : List DataItem → Prop where
  | tiled : (dataItemFormat.decode (bs.drop 4)).2 = [] →
    MayHold bs (dataItemFormat.decode (bs.drop 4)).1
  | completed {i : DataItem} : (dataItemFormat.decode (bs.drop 4)).2 ≠ [] →
    dataItemFormat.Completes (dataItemFormat.decode (bs.drop 4)).2 i →
    MayHold bs ((dataItemFormat.decode (bs.drop 4)).1 ++ [i])

/-- The octets are a message of a kind that is found to hold `is`, and these are the data items of
its kind. -/
structure ReadsAs (k : SessionMessage) (bs : List UInt8) (is : List DataItem) : Prop where
  announces : Announces bs k.kind.messageType
  mayHold : MayHold bs is
  accepts : k.kind.contents.Accepts is

/-- The responses that a message calls for: one for a destination that comes up or goes down, with
its MAC address, and none otherwise. Of a message whose last data item is cut off it is not known
what that item says, so that it may be read in several ways. It is answered as it is read in one of
them: by no more than one response, of its type, and with its MAC address as far as it was heard. -/
inductive CallsFor (bs : List UInt8) : List (List UInt8) → Prop where
  | up {is : List DataItem} {mac : List UInt8} (h : ReadsAs .destinationUp bs is) :
    Contents.payloads .macAddress is = [mac] →
    mac.length = 6 →
    CallsFor bs [destinationUpRespMessage mac .success]
  | down {is : List DataItem} {mac : List UInt8} (h : ReadsAs .destinationDown bs is) :
    Contents.payloads .macAddress is = [mac] →
    mac.length = 6 →
    CallsFor bs [destinationDownRespMessage mac .success]
  | other {is : List DataItem} (h : MayHold bs is) :
    ¬ ReadsAs .destinationUp bs is → ¬ ReadsAs .destinationDown bs is → CallsFor bs []

/-! ### One message -/

section Message

variable {bs : List UInt8} {m : Memory UInt8}

lemma Stored.overlay_eq (h : Stored bs m) : overlay bs m = m := by
  funext i
  rcases Nat.lt_or_ge i bs.length with hi | hi
  · have hslice := slice_overlay_self bs m
    exact eq_of_slice_eq (hslice.trans h.symm) i.zero_le (by omega)
  · exact overlay_of_le hi

/-- The octets show what message is stored. -/
lemma Stored.headed_iff (h : Stored bs m) {t : MessageType} :
    Headed m bs.length t ↔ Announces bs t := by
  rw [← headed_overlay_iff m, h.overlay_eq]

lemma Stored.items_eq (h : Stored bs m) (hle : 4 ≤ bs.length)
    (htiles : (dataItemFormat.decode (bs.drop 4)).2 = []) :
    dataItemFormat.items m bs.length 4 = (dataItemFormat.decode (bs.drop 4)).1 := by
  rw [← Format.items_overlay_of_tiles hle htiles m, h.overlay_eq]

/-- What is stored is one of the messages that the octets may be. -/
lemma Stored.mayHold (h : Stored bs m) (hle : 4 ≤ bs.length) :
    MayHold bs (dataItemFormat.items m bs.length 4) := by
  by_cases htiles : (dataItemFormat.decode (bs.drop 4)).2 = []
  · rw [h.items_eq hle htiles]
    exact .tiled htiles
  · obtain ⟨i, hi, hitems⟩ := Format.items_overlay hle htiles m
    rw [h.overlay_eq] at hitems
    rw [hitems]
    exact .completed htiles hi

/-- A message that its data items tile is read in one way. -/
lemma MayHold.eq_of_tiles {is : List DataItem} (h : MayHold bs is)
    (htiles : (dataItemFormat.decode (bs.drop 4)).2 = []) :
    is = (dataItemFormat.decode (bs.drop 4)).1 := by
  cases h with
  | tiled => rfl
  | completed hmore => exact absurd htiles hmore

/-- Where a message holds one data item of a type, that was heard, or else it is the one that is cut
off. -/
lemma MayHold.payloads_eq {is : List DataItem} {t : DataItemType} {body : List UInt8}
    (h : MayHold bs is) (hbody : Contents.payloads t is = [body]) :
    Contents.payloads t (dataItemFormat.decode (bs.drop 4)).1 = [body] ∨
      Contents.payloads t (dataItemFormat.decode (bs.drop 4)).1 = [] ∧
        (dataItemFormat.decode (bs.drop 4)).2 <+: dataItemFormat.encode ⟨t.code, body⟩ := by
  cases h with
  | tiled => exact .inl hbody
  | @completed i _ hi =>
    rw [Contents.payloads, List.filter_append, List.map_append, ← Contents.payloads] at hbody
    rcases List.append_eq_singleton_iff.mp hbody with ⟨hnone, hlast⟩ | ⟨hone, -⟩
    · obtain ⟨-, missing, -, happ⟩ := hi
      have ht : DataItemType.ofCode i.tag = some t := by
        by_contra hne
        simp [hne] at hlast
      have hitem : i = ⟨t.code, body⟩ := by
        ext1
        · exact (DataItemType.ofCode_eq_some_iff.mp ht).symm
        · simpa [ht] using hlast
      exact .inr ⟨hnone, missing, hitem ▸ happ⟩
    · exact .inl hone

lemma exists_mayHold (bs : List UInt8) : ∃ is, MayHold bs is := by
  by_cases hle : 4 ≤ bs.length
  · have hstored : Stored bs (overlay bs fun _ => 0) := slice_overlay_self bs _
    exact ⟨_, hstored.mayHold hle⟩
  · have hnil : bs.drop 4 = [] := List.drop_of_length_le (by omega)
    refine ⟨_, .tiled ?_⟩
    rw [hnil, Format.decode_nil]

lemma Announces.isComplete {t : MessageType} (h : Announces bs t) :
    IsComplete t.code.toNat bs := by
  obtain ⟨hle, htype, hlen⟩ := h
  exact ⟨htype, by omega⟩

/-- A message that is stored and has the data items of its kind is understood. -/
lemma IsSessionMessage.understood {k : SessionMessage} (h : IsSessionMessage k bs)
    (hstored : Stored bs m) :
    Understood m bs.length (k.answers (dataItemFormat.decode (bs.drop 4)).1) := by
  have hitems := hstored.items_eq h.announces.1 h.tiles
  refine ⟨k, hstored.headed_iff.mpr h.announces, ?_, ?_⟩
  · rw [hitems]
    exact h.accepts
  · rw [hitems]

/-- What is not understood calls for nothing. -/
lemma callsFor_of_not_understood (hstored : Stored bs m)
    (h : ∀ answers, ¬ Understood m bs.length answers) : CallsFor bs [] := by
  by_cases hle : 4 ≤ bs.length
  · have hnot : ∀ k, ¬ ReadsAs k bs (dataItemFormat.items m bs.length 4) := by
      intro k hk
      exact h _ ⟨k, hstored.headed_iff.mpr hk.announces, hk.accepts, rfl⟩
    exact .other (hstored.mayHold hle) (hnot _) (hnot _)
  · obtain ⟨is, his⟩ := exists_mayHold bs
    exact .other his (fun hk => hle hk.announces.1) fun hk => hle hk.announces.1

lemma callsFor_of_incomplete (h : Incomplete bs) : CallsFor bs [] := by
  obtain ⟨is, his⟩ := exists_mayHold bs
  exact .other his (fun hk => h _ hk.announces.isComplete) fun hk => h _ hk.announces.isComplete

/-- A message is of one kind. -/
lemma ReadsAs.kind_eq {k k' : SessionMessage} {is is' : List DataItem} (h : ReadsAs k bs is)
    (h' : ReadsAs k' bs is') : k = k' := by
  have hcode := h.announces.2.1.symm.trans h'.announces.2.1
  cases k <;> cases k' <;> first | rfl | exact absurd hcode (by decide)

/-- The MAC address of a request. -/
lemma ReadsAs.exists_payloads {k : SessionMessage} {is : List DataItem} (hk : ReadsAs k bs is)
    (honce : .macAddress ∈ k.kind.contents.exactlyOnce) :
    ∃ mac, Contents.payloads .macAddress is = [mac] ∧ mac.length = 6 := by
  obtain ⟨hadm, hexactly, -⟩ := hk.accepts
  obtain ⟨mac, hmac⟩ := List.length_eq_one_iff.mp
    ((Contents.length_payloads .macAddress _).trans (hexactly _ honce))
  refine ⟨mac, hmac, ?_⟩
  have hmem : mac ∈ Contents.payloads .macAddress is := by
    rw [hmac]
    exact List.mem_singleton_self mac
  obtain ⟨i, hi, rfl⟩ := List.mem_map.mp hmem
  obtain ⟨hi, htag⟩ := List.mem_filter.mp hi
  exact Contents.wellFormed_of_admits (hadm i hi) (of_decide_eq_true htag)
    (.inl (List.mem_append_left _ honce))

/-- A message that is understood is answered as it calls for. -/
lemma callsFor_of_understood {answers : List (List UInt8)} (hstored : Stored bs m)
    (h : Understood m bs.length answers) : CallsFor bs answers := by
  obtain ⟨k, hhead, hacc, rfl⟩ := h
  have hannounces := hstored.headed_iff.mp hhead
  have hholds := hstored.mayHold hannounces.1
  have hreads : ReadsAs k bs (dataItemFormat.items m bs.length 4) := ⟨hannounces, hholds, hacc⟩
  by_cases hup : k = .destinationUp
  · subst hup
    obtain ⟨mac, hmac, hlength⟩ := hreads.exists_payloads (by decide)
    rw [SessionMessage.answers, ParsedMessage.answers_destinationUp, hmac]
    exact .up hreads hmac hlength
  by_cases hdown : k = .destinationDown
  · subst hdown
    obtain ⟨mac, hmac, hlength⟩ := hreads.exists_payloads (by decide)
    rw [SessionMessage.answers, ParsedMessage.answers_destinationDown, hmac]
    exact .down hreads hmac hlength
  rw [SessionMessage.answers_eq_nil hup hdown]
  exact .other hholds (fun h => hup (hreads.kind_eq h)) fun h => hdown (hreads.kind_eq h)

namespace CallsFor

variable {rs rs' : List (List UInt8)}

/-- What a message calls for that its data items tile is fixed. -/
lemma eq_of_tiles (h : CallsFor bs rs) (h' : CallsFor bs rs')
    (htiles : (dataItemFormat.decode (bs.drop 4)).2 = []) : rs = rs' := by
  cases h with
  | up hreads hmac =>
    obtain rfl := hreads.mayHold.eq_of_tiles htiles
    cases h' with
    | up hreads' hmac' =>
      obtain rfl := hreads'.mayHold.eq_of_tiles htiles
      cases hmac.symm.trans hmac'
      rfl
    | down hreads' => cases hreads.kind_eq hreads'
    | other hholds hup =>
      obtain rfl := hholds.eq_of_tiles htiles
      exact absurd hreads hup
  | down hreads hmac =>
    obtain rfl := hreads.mayHold.eq_of_tiles htiles
    cases h' with
    | up hreads' => cases hreads.kind_eq hreads'
    | down hreads' hmac' =>
      obtain rfl := hreads'.mayHold.eq_of_tiles htiles
      cases hmac.symm.trans hmac'
      rfl
    | other hholds _ hdown =>
      obtain rfl := hholds.eq_of_tiles htiles
      exact absurd hreads hdown
  | other hholds hup hdown =>
    obtain rfl := hholds.eq_of_tiles htiles
    cases h' with
    | up hreads' =>
      obtain rfl := hreads'.mayHold.eq_of_tiles htiles
      exact absurd hreads' hup
    | down hreads' =>
      obtain rfl := hreads'.mayHold.eq_of_tiles htiles
      exact absurd hreads' hdown
    | other => rfl

/-- So it is with the messages that are heard one after the other. -/
lemma forall₂_eq_of_tiles {msgs : List (List UInt8)} {rss rss' : List (List (List UInt8))}
    (h : List.Forall₂ CallsFor msgs rss) (h' : List.Forall₂ CallsFor msgs rss')
    (htiles : ∀ bs ∈ msgs, (dataItemFormat.decode (bs.drop 4)).2 = []) : rss = rss' := by
  induction h generalizing rss' with
  | nil =>
    cases h'
    rfl
  | cons hbs _ ih =>
    obtain ⟨hfirst, hmore⟩ := List.forall_mem_cons.mp htiles
    cases h' with
    | cons hbs' hrest' => rw [hbs.eq_of_tiles hbs' hfirst, ih hrest' hmore]

/-- The MAC address in a response was heard, or else it begins with what was heard of it. -/
theorem heard_mac {msg : List UInt8} (h : CallsFor bs rs) (hmsg : msg ∈ rs) :
    ∃ mac, (msg = destinationUpRespMessage mac .success ∧ Announces bs .destUp ∨
        msg = destinationDownRespMessage mac .success ∧ Announces bs .destDown) ∧
      (Contents.payloads .macAddress (dataItemFormat.decode (bs.drop 4)).1 = [mac] ∨
        Contents.payloads .macAddress (dataItemFormat.decode (bs.drop 4)).1 = [] ∧
          (dataItemFormat.decode (bs.drop 4)).2 <+:
            dataItemFormat.encode ⟨DataItemType.macAddress.code, mac⟩) := by
  cases h with
  | @up is mac hreads hmac =>
    obtain rfl := List.mem_singleton.mp hmsg
    exact ⟨mac, .inl ⟨rfl, hreads.announces⟩, hreads.mayHold.payloads_eq hmac⟩
  | @down is mac hreads hmac =>
    obtain rfl := List.mem_singleton.mp hmsg
    exact ⟨mac, .inr ⟨rfl, hreads.announces⟩, hreads.mayHold.payloads_eq hmac⟩
  | other => cases hmsg

end CallsFor

end Message

/-! ### Words of a dialogue -/

section Words

variable {w w' : List Observation} {bs msg : List UInt8} {taken : Bool}

@[simp] lemma said_woke : said (.woke :: w) = said w := rfl

@[simp] lemma said_said : said (.said msg taken :: w) = msg :: said w := rfl

lemma said_append : said (w ++ w') = said w ++ said w' := List.filterMap_append

@[simp] lemma said_heard_append : said (heard bs ++ w) = said w := by
  induction bs with
  | nil => rfl
  | cons o bs ih => exact ih

@[simp] lemma heardNext_heard_append : heardNext (heard bs ++ w) = bs ++ heardNext w := by
  induction bs with
  | nil => rfl
  | cons o bs ih => exact congrArg (o :: ·) ih

@[simp] lemma heardInSession_heard_append :
    heardInSession (heard bs ++ w) = heardInSession w := by
  induction bs with
  | nil => rfl
  | cons o bs ih => exact ih

/-- What is not of a termination does not come between. -/
lemma heardNext_said (h : ¬ IsTermType msg) : heardNext (.said msg taken :: w) = heardNext w :=
  if_neg h

lemma heardInSession_said (h : ¬ IsTermType msg) :
    heardInSession (.said msg taken :: w) = heardInSession w :=
  if_neg h

/-- The messages said are those handed to `send`. -/
lemma said_observed (t : List (Event sysSig)) : said (t.flatMap observe) = sends t := by
  induction t with
  | nil => rfl
  | cons e t ih =>
    obtain ⟨c, r⟩ := e
    rw [List.flatMap_cons, said_append, ih]
    cases c with
    | send msg => rfl
    | select timeout => cases r <;> rfl
    | recv n =>
      cases r with
      | none => rfl
      | some bs =>
        have hnone : said (heard bs.val) = [] := by
          rw [← List.append_nil (heard bs.val), said_heard_append]
          rfl
        exact congrArg (· ++ sends t) hnone
    | _ => rfl

end Words

/-! ### The types of what is said -/

lemma isTermType_termination (status : UInt8) : IsTermType (termination status) :=
  .inl (by rfl)

lemma isTermType_closingMessage (type : ℕ) : IsTermType (closingMessage type) := by
  unfold closingMessage
  split_ifs
  · exact .inr (by decide)
  all_goals exact isTermType_termination _

/-- A termination is no response. -/
lemma IsTermType.not_isRespType {msg : List UInt8} (h : IsTermType msg) : ¬ IsRespType msg := by
  rintro (hresp | hresp) <;>
  · rcases h with hterm | hterm
    all_goals exact absurd (hterm.symm.trans hresp) (by decide)

lemma IsDestinationResp.isRespType {msg : List UInt8} (h : IsDestinationResp msg) :
    IsRespType msg := by
  obtain ⟨mac, -, rfl | rfl⟩ := h
  · exact .inl (bigEndian_writeUint16 _)
  · exact .inr (bigEndian_writeUint16 _)

lemma IsDestinationResp.not_isTermType {msg : List UInt8} (h : IsDestinationResp msg) :
    ¬ IsTermType msg :=
  fun hterm => hterm.not_isRespType h.isRespType

/-- A message that is neither changes nothing. -/
lemma not_isTermType_heartbeat : ¬ IsTermType heartbeat ∧ ¬ IsRespType heartbeat := by decide

lemma not_isTermType_sessionInitMessage (ri : UInt32) :
    ¬ IsTermType (sessionInitMessage peerType ri) ∧
      ¬ IsRespType (sessionInitMessage peerType ri) := by
  have htype : bigEndian ((sessionInitMessage peerType ri).take 2) = 1 := rfl
  simp only [IsTermType, IsRespType, htype]
  decide

/-! ### Every turn -/

/-- The responses said in a word are those that the messages call for. -/
def Answers (msgs : List (List UInt8)) (w : List Observation) : Prop :=
  ∃ rss, List.Forall₂ CallsFor msgs rss ∧ destinationResps (said w) = rss.flatten

/-- What is shown from a phase on answers what is heard from there on, and says what is owed. -/
def Phase.Pays : Phase → List Observation → Prop
  | connecting, w | connected, w | initiating, w => Answers (heardInSession w) w
  | inSession, w => heardNext w = [] ∧ Answers (heardInSession w) w
  | awake, w | attentive, w => Answers (heardNext w :: heardInSession w) w
  | answering owed, w => (∀ r ∈ owed, IsDestinationResp r) → heardNext w = [] ∧
      ∃ rss, List.Forall₂ CallsFor (heardInSession w) rss ∧
        destinationResps (said w) = owed ++ rss.flatten
  | closing msg, w => IsTermType msg →
      heardNext w = [] ∧ heardInSession w = [] ∧ destinationResps (said w) = []
  | terminating, w => destinationResps (said w) = []
  | ended, w | failed, w => w = []

section Turns

variable {w : List Observation}

lemma answers_nil : Answers [] [] := ⟨[], .nil, rfl⟩

/-- A message that calls for nothing may have been heard. -/
lemma Answers.cons {msgs : List (List UInt8)} {bs : List UInt8} (hbs : CallsFor bs [])
    (h : Answers msgs w) : Answers (bs :: msgs) w := by
  obtain ⟨rss, hrss, hresps⟩ := h
  exact ⟨[] :: rss, .cons hbs hrss, hresps⟩

lemma destinationResps_cons_of_not {msg : List UInt8} (h : ¬ IsRespType msg)
    (msgs : List (List UInt8)) : destinationResps (msg :: msgs) = destinationResps msgs :=
  List.filter_cons_of_neg (by simpa using h)

/-- A message that is neither of a termination nor a response changes nothing. -/
lemma Answers.said {msgs : List (List UInt8)} {msg : List UInt8} (hmsg : ¬ IsRespType msg)
    (h : Answers msgs w) (taken : Bool) : Answers msgs (.said msg taken :: w) := by
  obtain ⟨rss, hrss, hresps⟩ := h
  exact ⟨rss, hrss, (destinationResps_cons_of_not hmsg _).trans hresps⟩

lemma answers_heard_append {msgs : List (List UInt8)} {bs : List UInt8} (h : Answers msgs w) :
    Answers msgs (heard bs ++ w) := by
  rwa [Answers, said_heard_append]

/-- What is owed for a message is among the responses. -/
lemma pays_understands {bs : List UInt8} {m : Memory UInt8}
    {answers : List (List UInt8)} (hstored : Stored bs m) (h : Understood m bs.length answers)
    (hw : (Phase.answering answers).Pays w) : Phase.attentive.Pays (heard bs ++ w) := by
  have hresps : ∀ r ∈ answers, IsDestinationResp r := by
    obtain ⟨hc, rfl⟩ := understood_iff.mp h
    exact hc.isDestinationResp
  obtain ⟨hnext, rss, hrss, hsaid⟩ := hw hresps
  refine ⟨answers :: rss, ?_, ?_⟩
  · rw [heardNext_heard_append, hnext, List.append_nil, heardInSession_heard_append]
    exact .cons (callsFor_of_understood hstored h) hrss
  · rw [said_heard_append, hsaid, List.flatten_cons]

/-- Before a termination, what was heard last calls for nothing. -/
lemma pays_closing {msg : List UInt8} {bs : List UInt8} (hmsg : IsTermType msg)
    (hbs : CallsFor bs []) (hw : (Phase.closing msg).Pays w) :
    Phase.attentive.Pays (heard bs ++ w) := by
  obtain ⟨hnext, hrest, hsaid⟩ := hw hmsg
  refine ⟨[[]], ?_, ?_⟩
  · rw [heardNext_heard_append, hnext, List.append_nil, heardInSession_heard_append, hrest]
    exact .cons hbs .nil
  · rw [said_heard_append, hsaid]
    rfl

/-- A termination is the last that counts. -/
lemma pays_said_closing {msg : List UInt8} (taken : Bool) (hsaid : destinationResps (said w) = []) :
    (Phase.closing msg).Pays (.said msg taken :: w) := by
  intro hmsg
  refine ⟨if_pos hmsg, if_pos hmsg, ?_⟩
  rw [said_said, destinationResps_cons_of_not hmsg.not_isRespType, hsaid]

/-- A response that is said is no longer owed. -/
lemma pays_answers {msg : List UInt8} {owed : List (List UInt8)} (taken : Bool)
    (hw : (Phase.answering owed).Pays w) :
    (Phase.answering (msg :: owed)).Pays (.said msg taken :: w) := by
  intro hresps
  obtain ⟨hmsg, howed⟩ := List.forall_mem_cons.mp hresps
  obtain ⟨hnext, rss, hrss, hsaid⟩ := hw howed
  refine ⟨(heardNext_said hmsg.not_isTermType).trans hnext, rss, ?_, ?_⟩
  · rwa [heardInSession_said hmsg.not_isTermType]
  · have hfilter : destinationResps (msg :: said w) = msg :: destinationResps (said w) :=
      List.filter_cons_of_pos (by simpa using hmsg.isRespType)
    rw [said_said, hfilter, hsaid, List.cons_append]

/-- Each turn says what it has to. -/
lemma Turn.pays {address : List UInt8} {ri : UInt32} {q q' : Phase} {u : List Observation}
    (h : Turn address ri q u q') (hw : q'.Pays w) : q.Pays (u ++ w) := by
  cases h with
  | noSocket | unconnected =>
    obtain rfl := hw
    exact answers_nil
  | connects => exact hw
  | uninitiated =>
    obtain rfl := hw
    obtain ⟨hterm, hresp⟩ := not_isTermType_sessionInitMessage ri
    rw [List.singleton_append, Phase.Pays, heardInSession_said hterm]
    exact answers_nil.said hresp false
  | initiated =>
    obtain ⟨hterm, hresp⟩ := not_isTermType_sessionInitMessage ri
    rw [List.singleton_append, Phase.Pays, heardInSession_said hterm]
    exact Answers.said hresp hw true
  | unanswered | rejected =>
    obtain rfl := hw
    apply answers_heard_append
    rw [heardInSession_heard_append]
    exact answers_nil
  | agreed =>
    apply answers_heard_append
    rw [heardInSession_heard_append]
    exact hw.2
  | declined =>
    obtain ⟨-, hrest, hsaid⟩ := hw (isTermType_termination 255)
    apply answers_heard_append
    rw [heardInSession_heard_append, hrest]
    exact ⟨[], .nil, hsaid⟩
  | unselected =>
    obtain rfl := hw
    exact ⟨rfl, answers_nil⟩
  | wakes => exact ⟨rfl, hw⟩
  | beats taken =>
    obtain ⟨hterm, hresp⟩ := not_isTermType_heartbeat
    rw [List.singleton_append, Phase.Pays, heardNext_said hterm, heardInSession_said hterm]
    exact Answers.said hresp hw taken
  | keepsStill => exact hw
  | waits =>
    obtain ⟨hnext, hrest⟩ := hw
    rw [List.nil_append, Phase.Pays, hnext]
    exact hrest.cons (callsFor_of_incomplete not_isComplete_nil)
  | timesOut =>
    have hcalls : CallsFor [] [] := callsFor_of_incomplete not_isComplete_nil
    exact pays_closing (isTermType_termination _) hcalls hw
  | @breaksOff bs hbs =>
    obtain rfl := hw
    apply answers_heard_append
    rw [heardNext_heard_append, heardInSession_heard_append, heardNext, List.append_nil]
    exact answers_nil.cons (callsFor_of_incomplete hbs)
  | understands hstored hunderstood => exact pays_understands hstored hunderstood hw
  | refuses hstored _ hrefused =>
    exact pays_closing (isTermType_closingMessage _)
      (callsFor_of_not_understood hstored hrefused) hw
  | answers msg owed taken => exact pays_answers taken hw
  | answered =>
    intro _
    exact hw
  | unclosed =>
    obtain rfl := hw
    exact pays_said_closing false rfl
  | acknowledges =>
    obtain rfl := hw
    exact pays_said_closing true rfl
  | unallocated =>
    obtain rfl := hw
    exact fun _ => ⟨rfl, rfl, rfl⟩
  | terminates => exact pays_said_closing true hw
  | idles => exact hw
  | givesUp | unwatched =>
    obtain rfl := hw
    rfl
  | hearsNothing | hears =>
    obtain rfl := hw
    rw [Phase.Pays, List.cons_append, said_woke, said_heard_append]
    rfl

end Turns

/-! ### Every run -/

/-- A dialogue answers what is heard in session. -/
lemma pays_of_run {address : List UInt8} {ri : UInt32} {q q' : Phase} {w : List Observation}
    {r : Option ℤ} (h : (Turn address ri).Run q w q') (hq : q'.Yields r) : q.Pays w := by
  induction h with
  | refl q =>
    cases q with
    | inSession => exact ⟨rfl, answers_nil⟩
    | terminating | ended | failed => rfl
    | _ => exact hq.elim
  | step hturn _ ih => exact hturn.pays (ih hq)

/-- Over every whole session, in every environment, the destination responses are those that the
messages heard in session call for, one message after the other: none is lost and none is said
twice, however the messages, the heartbeats and the waits fall. Where the data items of every
message tile it, no other responses are called for. A message whose last data item is cut off is
answered as one of those that it may be the beginning of. -/
theorem session_answers {S : Type} (H : Handler sysSig S) (s : S) (n : ℕ)
    (modemAddress : List UInt8) (routerHeartbeatInterval : UInt32) :
    ∃ rss, List.Forall₂ CallsFor
        (heardInSession
          (((session n modemAddress routerHeartbeatInterval).run H s).trace.flatMap observe)) rss ∧
      destinationResps (sends ((session n modemAddress routerHeartbeatInterval).run H s).trace) =
        rss.flatten ∧
      ((∀ bs ∈ heardInSession
          (((session n modemAddress routerHeartbeatInterval).run H s).trace.flatMap observe),
          (dataItemFormat.decode (bs.drop 4)).2 = []) →
        ∀ rss', List.Forall₂ CallsFor
          (heardInSession
            (((session n modemAddress routerHeartbeatInterval).run H s).trace.flatMap observe))
          rss' → rss' = rss) := by
  obtain ⟨q, hrun, hq⟩ := (refines_session modemAddress routerHeartbeatInterval n).run_any H s
  obtain ⟨rss, hrss, hresps⟩ := pays_of_run hrun hq
  rw [said_observed] at hresps
  refine ⟨rss, hrss, hresps, ?_⟩
  intro htiles rss' hrss'
  exact CallsFor.forall₂_eq_of_tiles hrss' hrss htiles

end DlepRouter
