import DlepRouter.Check.Accept
import DlepRouter.Encode.Buffers

/-!
# What the router sends is well formed

Each `send_` function stays inside its buffer, fills in the length of what it sends, and writes
exactly the data items it is meant to send. The validators of the router accept its own Session
Terminations and Heartbeats.
-/

namespace DlepRouter

open Tlv Fill Interaction

/-! ### Pointers and lists -/

section Appends

variable (p : ℕ)

lemma appends_writeUint16At (v : UInt16) : Appends (writeUint16At v p) p (writeUint16 v) :=
  ⟨rfl, rfl⟩

lemma appends_writeUint32At (v : UInt32) : Appends (writeUint32At v p) p (writeUint32 v) :=
  ⟨rfl, rfl⟩

lemma appends_writeOctetAt (octet : UInt8) : Appends (writeOctetAt octet p) p [octet] :=
  .store p octet

lemma appends_writeRangeAt (octets : List UInt8) : Appends (writeRangeAt octets p) p octets :=
  .storeRange p octets

lemma appends_writeMessageHeaderAt (msgType : MessageType) :
    Appends (writeMessageHeaderAt p msgType) p (writeMessageHeader msgType) :=
  (appends_writeUint16At p _).bind (appends_writeUint16At _ _)

lemma appends_writeDataItemAt (type : DataItemType) (length : UInt16) :
    Appends (writeDataItemAt p type length) p (writeDataItem type length) :=
  (appends_writeUint16At p _).bind (appends_writeUint16At _ _)

lemma appends_writeStatusCodeAt (sc : UInt8) :
    Appends (writeStatusCodeAt p sc) p (writeDataItem .status 1 ++ [sc]) :=
  (appends_writeDataItemAt p _ _).bind (appends_writeOctetAt _ _)

end Appends

/-- A fill leaves the message `msg` at the start of the buffer, and stores nothing behind it. -/
structure Fills (w : Writer UInt16) (msg : List UInt8) : Prop where
  within : ∀ s ∈ w.stores, s.addr < msg.length
  value : w.value.toNat = msg.length
  sent : ∀ buffer, sent w buffer = msg

/-- Octets written from the start of the buffer, and a number filled in later. -/
lemma fills_patched {w : Writer UInt16} {bs field : List UInt8} {off : ℕ}
    (hstores : w.stores = consecutive 0 bs ++ consecutive off field)
    (hvalue : w.value.toNat = bs.length) (hoff : off + field.length ≤ bs.length) :
    Fills w (bs.take off ++ (field ++ bs.drop (off + field.length))) := by
  have hlength : (bs.take off ++ (field ++ bs.drop (off + field.length))).length = bs.length := by
    simp only [List.length_append, List.length_take, List.length_drop]
    omega
  refine ⟨?_, by rw [hvalue, hlength], ?_⟩
  · intro s hs
    rw [hlength]
    rw [hstores] at hs
    rcases List.mem_append.mp hs with hs | hs
    · simpa using addr_lt_of_mem_consecutive hs
    · exact Nat.lt_of_lt_of_le (addr_lt_of_mem_consecutive hs) hoff
  · intro buffer
    have hslice : (buffer.patch 0 bs).slice 0 bs.length = bs := Memory.slice_patch buffer 0 bs
    have hafter : buffer.after w.stores = (buffer.patch 0 bs).patch off field := by
      rw [hstores, Memory.after, List.foldl_append]
      exact (after_consecutive _ off field).trans
        (congrArg (Memory.patch · off field) (after_consecutive buffer 0 bs))
    rw [DlepRouter.sent, hvalue, hafter, Memory.slice_patch_of_within _ hoff, hslice]

/-- From the pointer `p` on, `bs` is written, and then the length without `header` octets is filled
in at `off`. -/
structure Finishes (off : ℕ) (header : UInt16) (w : Writer UInt16) (p : ℕ) (bs : List UInt8) :
    Prop where
  stores : w.stores = consecutive p bs ++
    consecutive off (writeUint16 (UInt16.ofNat (p + bs.length) - header))
  value : w.value = UInt16.ofNat (p + bs.length)

namespace Finishes

variable {off : ℕ} {header : UInt16} {p : ℕ} {bs bs' : List UInt8}

lemma message (p : ℕ) : Finishes 2 4 (finishMessage p) p [] := ⟨rfl, rfl⟩

/-- The end of `send_peer_discovery_signal`. -/
lemma signal (p : ℕ) :
    Finishes 6 8
      (writeUint16At (UInt16.ofNat p - 8) 6 >>= fun _ => pure (UInt16.ofNat p)) p [] :=
  ⟨rfl, rfl⟩

lemma bind {w : Writer ℕ} {f : ℕ → Writer UInt16} (hw : Appends w p bs)
    (hf : Finishes off header (f (p + bs.length)) (p + bs.length) bs') :
    Finishes off header (w >>= f) p (bs ++ bs') := by
  have hlength : p + (bs ++ bs').length = p + bs.length + bs'.length := by
    rw [List.length_append, Nat.add_assoc]
  constructor
  · rw [stores_bind, hw.stores, hw.value, hf.stores, hlength, consecutive_append,
      List.append_assoc]
  · rw [value_bind, hw.value, hf.value, hlength]

lemma storeRange {w : Writer UInt16} (hw : Finishes off header w (p + bs.length) bs') :
    Finishes off header (Fill.storeRange p bs >>= fun _ => w) p (bs ++ bs') := by
  have hbind := bind (f := fun _ => w) (Appends.storeRange p bs) hw
  rwa [bind_assoc] at hbind

/-- What is left in the buffer is `bs` with its length. -/
lemma fills {w : Writer UInt16} (hw : Finishes off header w 0 bs) (hoff : off + 2 ≤ bs.length)
    (hlt : bs.length < 2 ^ 16) :
    Fills w (bs.take off ++
      (writeUint16 (UInt16.ofNat bs.length - header) ++ bs.drop (off + 2))) := by
  have hstores : w.stores =
      consecutive 0 bs ++ consecutive off (writeUint16 (UInt16.ofNat bs.length - header)) := by
    rw [hw.stores, Nat.zero_add]
  have hvalue : w.value.toNat = bs.length := by
    rw [hw.value, Nat.zero_add]
    exact UInt16.toNat_ofNat_of_lt' hlt
  exact fills_patched hstores hvalue hoff

/-- What is handed to the socket is `bs` with its length. -/
lemma sent {w : Writer UInt16} (hw : Finishes 2 4 w 0 bs) (hle : 4 ≤ bs.length)
    (hlt : bs.length < 2 ^ 16) (buffer : Memory UInt8) :
    DlepRouter.sent w buffer = fillMessageLength bs :=
  (hw.fills hle hlt).sent buffer

end Finishes

/-! ### Well-formed messages -/

/-- Octets that are well formed as a message or a signal with a header of `header` octets: they
begin with `start`, the last two octets of the header are the length of what follows, and that is
made up of `items`. -/
structure Carries (header : ℕ) (start msg : List UInt8) (items : List DataItem) : Prop where
  starts : start <+: msg
  length : msg.length = header + bigEndian ((msg.drop (header - 2)).take 2)
  payload : dataItemFormat.decode (msg.drop header) = (items, [])

/-- A fill stays inside a buffer of `capacity` octets and hands a well-formed message to the
socket, whatever was in the buffer before. -/
structure Builds (w : Writer UInt16) (capacity header : ℕ) (start : List UInt8)
    (items : List DataItem) : Prop where
  within : ∀ s ∈ w.stores, s.addr < capacity
  value : w.value.toNat ≤ capacity
  carries : ∀ buffer, Carries header start (sent w buffer) items

lemma carries_of_eq {start : List UInt8} {items : List DataItem} {n : UInt16}
    (hn : n.toNat = (dataItemFormat.encodeAll items).length)
    (hitems : ∀ i ∈ items, i.body.length < dataItemFormat.bound) :
    Carries (start.length + 2) start
      (start ++ (writeUint16 n ++ dataItemFormat.encodeAll items)) items := by
  refine ⟨List.prefix_append _ _, ?_, ?_⟩
  · rw [Nat.add_sub_cancel, List.drop_left, List.take_left' (length_writeUint16 n),
      bigEndian_writeUint16, hn]
    simp [Nat.add_assoc]
  · rw [← List.append_assoc, List.drop_left' (by simp)]
    exact Format.decode_encodeAll hitems

/-- A buffer filled with a header and the encodings of data items. -/
lemma Finishes.builds {off capacity : ℕ} {header : UInt16} {w : Writer UInt16} {start : List UInt8}
    {items : List DataItem}
    (hw : Finishes off header w 0
      (start ++ (writeUint16 0 ++ dataItemFormat.encodeAll items)))
    (hoff : off = start.length) (hheader : header.toNat = start.length + 2)
    (hcapacity : start.length + 2 + (dataItemFormat.encodeAll items).length ≤ capacity)
    (hlt : capacity < 2 ^ 16) :
    Builds w capacity (start.length + 2) start items := by
  subst hoff
  have hlength : (start ++ (writeUint16 0 ++ dataItemFormat.encodeAll items)).length =
      start.length + 2 + (dataItemFormat.encodeAll items).length := by
    simp [Nat.add_assoc]
  have hfills := hw.fills (by omega) (by omega)
  have hn : (UInt16.ofNat (start.length + 2 + (dataItemFormat.encodeAll items).length) -
      header).toNat = (dataItemFormat.encodeAll items).length := by
    have hofNat : (UInt16.ofNat
        (start.length + 2 + (dataItemFormat.encodeAll items).length)).toNat =
          start.length + 2 + (dataItemFormat.encodeAll items).length :=
      UInt16.toNat_ofNat_of_lt' (show _ < 2 ^ 16 by omega)
    rw [UInt16.toNat_sub_of_le _ _ (by rw [UInt16.le_iff_toNat_le, hofNat]; omega), hofNat]
    omega
  have hdrop : (start ++ (writeUint16 0 ++ dataItemFormat.encodeAll items)).drop
      (start.length + 2) = dataItemFormat.encodeAll items := by
    rw [← List.append_assoc, List.drop_left' (by simp)]
  rw [hlength, List.take_left, hdrop] at hfills
  have hitems : ∀ i ∈ items, i.body.length < dataItemFormat.bound := by
    intro i hi
    have hle := dataItemFormat.length_le_encodeAll hi
    have hbound : dataItemFormat.bound = 2 ^ 16 := rfl
    omega
  refine ⟨?_, ?_, ?_⟩
  · intro s hs
    have hlt' := hfills.within s hs
    simp only [List.length_append, length_writeUint16] at hlt'
    omega
  · rw [hfills.value]
    simp only [List.length_append, length_writeUint16]
    omega
  · intro buffer
    rw [hfills.sent buffer]
    exact carries_of_eq hn hitems

/-- A well-formed message is the encoding of its items. -/
lemma Carries.eq_message {t : MessageType} {p : Payload} {msg : List UInt8}
    (h : Carries 4 (writeUint16 t.code) msg p.items) : msg = p.message t := by
  obtain ⟨tail, rfl⟩ := h.starts
  have hlength := h.length
  have hpayload := h.payload
  simp only [Nat.reduceSub, List.length_append, length_writeUint16,
    List.drop_left' (length_writeUint16 t.code)] at hlength
  rw [show 4 = 2 + 2 from rfl, ← List.drop_drop, List.drop_left' (length_writeUint16 t.code)]
    at hpayload
  have htail : tail.drop 2 = p.octets := by
    rw [← dataItemFormat.encodeAll_decode (tail.drop 2), hpayload, List.append_nil, Payload.octets]
  have hlen : bigEndian (tail.take 2) = p.octets.length := by
    rw [← htail, List.length_drop]
    omega
  rw [Payload.message, ← hlen, writeUint16_ofNat_bigEndian (by simp; omega), ← htail,
    List.take_append_drop]

/-! ### Each message -/

section Each

variable (peerType : List UInt8) (interval : UInt32) (mac : Vector UInt8 6) (sc : UInt8)

/-- The longest beginning of a string that fits. -/
structure LongestPrefix (Fits : List UInt8 → Prop) (text octets : List UInt8) : Prop where
  isPrefix : text <+: octets
  fits : Fits text
  longest : ∀ l, l <+: octets → Fits l → l.length ≤ text.length

lemma longestPrefix_take {Fits : List UInt8 → Prop} {n : ℕ} (octets : List UInt8)
    (h : ∀ l, Fits l ↔ l.length ≤ n) : LongestPrefix Fits (octets.take n) octets := by
  refine ⟨List.take_prefix n octets, (h _).mpr (List.length_take_le n octets), ?_⟩
  intro l hl hfits
  rw [List.length_take]
  exact Nat.le_min.mpr ⟨(h l).mp hfits, hl.length_le⟩

/-- The length to which a peer type is cut. -/
lemma take_cut (n : ℕ) (octets : List UInt8) :
    octets.take (if octets.length > n then n else octets.length) = octets.take n := by
  split_ifs with h
  · rfl
  · rw [List.take_of_length_le (Nat.le_refl _), List.take_of_length_le (Nat.le_of_not_lt h)]

lemma cut_eq_length_take (n : ℕ) (octets : List UInt8) :
    (if octets.length > n then n else octets.length) = (octets.take n).length := by
  rw [List.length_take]
  split_ifs with h
  · exact (Nat.min_eq_left (Nat.le_of_lt h)).symm
  · exact (Nat.min_eq_right (Nat.le_of_not_lt h)).symm

/-- The items of a Session Initialization: the heartbeat interval, and the peer type behind its
flags. -/
def sessionInitItems (text : List UInt8) : List DataItem :=
  [⟨DataItemType.heartbeatInterval.code, writeUint32 interval⟩,
    ⟨DataItemType.peerType.code, 0 :: text⟩]

/-- The items of a response to a destination. -/
def destinationRespItems : List DataItem :=
  [⟨DataItemType.macAddress.code, mac.toList⟩, ⟨DataItemType.status.code, [sc]⟩]

/-- The item of a Session Termination. -/
def sessionTermItems : List DataItem := [⟨DataItemType.status.code, [sc]⟩]

/-- The item of a Peer Discovery signal. -/
def peerDiscoveryItems (text : List UInt8) : List DataItem :=
  [⟨DataItemType.peerType.code, 0 :: text⟩]

lemma finishes_fillSessionInit :
    Finishes 2 4 (fillSessionInit peerType interval) 0
      (writeUint16 MessageType.sessionInit.code ++ (writeUint16 0 ++
        dataItemFormat.encodeAll (sessionInitItems interval (peerType.take 283)))) := by
  have hcut := cut_eq_length_take 283 peerType
  have hfinishes : Finishes 2 4 (fillSessionInit peerType interval) 0 _ :=
    .bind (appends_writeMessageHeaderAt _ _) <|
    .bind (appends_writeDataItemAt _ _ _) <|
    .bind (appends_writeUint32At _ _) <|
    .bind (appends_writeDataItemAt _ _ _) <|
    .bind (appends_writeOctetAt _ _) <|
    .bind (appends_writeRangeAt _ _) <| .message _
  simp only [take_cut] at hfinishes
  simp only [hcut] at hfinishes
  generalize peerType.take 283 = text at hfinishes ⊢
  simpa [writeMessageHeader, writeDataItem, sessionInitItems, Format.encode, dataItemFormat,
    Nat.add_comm] using hfinishes

lemma finishes_fillHeartbeat :
    Finishes 2 4 fillHeartbeat 0
      (writeUint16 MessageType.peerHeartbeat.code ++ (writeUint16 0 ++
        dataItemFormat.encodeAll [])) := by
  have hfinishes : Finishes 2 4 fillHeartbeat 0 _ :=
    .bind (appends_writeMessageHeaderAt _ _) (.message _)
  simpa [writeMessageHeader] using hfinishes

lemma finishes_fillSessionTermResp :
    Finishes 2 4 fillSessionTermResp 0
      (writeUint16 MessageType.sessionTermResp.code ++ (writeUint16 0 ++
        dataItemFormat.encodeAll [])) := by
  have hfinishes : Finishes 2 4 fillSessionTermResp 0 _ :=
    .bind (appends_writeMessageHeaderAt _ _) (.message _)
  simpa [writeMessageHeader] using hfinishes

lemma finishes_fillSessionTerm :
    Finishes 2 4 (fillSessionTerm sc) 0
      (writeUint16 MessageType.sessionTerm.code ++ (writeUint16 0 ++
        dataItemFormat.encodeAll (sessionTermItems sc))) := by
  have hfinishes : Finishes 2 4 (fillSessionTerm sc) 0 _ :=
    .bind (appends_writeMessageHeaderAt _ _) <|
    .bind (appends_writeStatusCodeAt _ _) <| .message _
  simpa [writeMessageHeader, writeDataItem, sessionTermItems, Format.encode, dataItemFormat]
    using hfinishes

lemma finishes_fillDestinationResp (msgType : MessageType) :
    Finishes 2 4 (fillDestinationResp msgType mac sc) 0
      (writeUint16 msgType.code ++ (writeUint16 0 ++
        dataItemFormat.encodeAll (destinationRespItems mac sc))) := by
  have hfinishes : Finishes 2 4 (fillDestinationResp msgType mac sc) 0 _ :=
    .bind (appends_writeMessageHeaderAt _ _) <|
    .bind (appends_writeDataItemAt _ _ _) <|
    .bind (appends_writeRangeAt _ _) <|
    .bind (appends_writeStatusCodeAt _ _) <| .message _
  simpa [writeMessageHeader, writeDataItem, destinationRespItems, Format.encode, dataItemFormat]
    using hfinishes

lemma finishes_fillPeerDiscovery :
    Finishes 6 8 (fillPeerDiscovery peerType) 0
      (signalMagic ++ writeUint16 Signal.peerDiscovery.code ++ (writeUint16 0 ++
        dataItemFormat.encodeAll (peerDiscoveryItems (peerType.take 87)))) := by
  have hcut := cut_eq_length_take 87 peerType
  have hfinishes : Finishes 6 8 (fillPeerDiscovery peerType) 0 _ :=
    .storeRange <|
    .bind (appends_writeUint16At _ _) <|
    .bind (appends_writeUint16At _ _) <|
    .bind (appends_writeUint16At _ _) <|
    .bind (appends_writeUint16At _ _) <|
    .bind (appends_writeOctetAt _ _) <|
    .bind (appends_writeRangeAt _ _) <| .signal _
  simp only [take_cut] at hfinishes
  simp only [hcut] at hfinishes
  generalize peerType.take 87 = text at hfinishes ⊢
  simpa [peerDiscoveryItems, Format.encode, dataItemFormat, Nat.add_comm] using hfinishes

/-! The octets left behind are those of the messages written as lists. -/

section Lists

variable (buffer : Memory UInt8)

lemma sent_fillSessionInit :
    sent (fillSessionInit peerType interval) buffer = sessionInitMessage peerType interval := by
  have hle : (peerType.take 283).length ≤ 283 := List.length_take_le 283 peerType
  have hbs : writeUint16 MessageType.sessionInit.code ++ (writeUint16 0 ++
      dataItemFormat.encodeAll (sessionInitItems interval (peerType.take 283))) =
        writeMessageHeader .sessionInit ++ writeDataItem .heartbeatInterval 4 ++
          writeUint32 interval ++
          writeDataItem .peerType (UInt16.ofNat (1 + (peerType.take 283).length)) ++ [0x00] ++
          peerType.take 283 := by
    generalize peerType.take 283 = text
    simp [writeMessageHeader, writeDataItem, sessionInitItems, Format.encode, dataItemFormat,
      Nat.add_comm]
  have hfinishes := finishes_fillSessionInit peerType interval
  rw [hbs] at hfinishes
  apply hfinishes.sent
  · simp [writeMessageHeader, ← Nat.add_assoc 2 2]
  · simp [writeMessageHeader, writeDataItem]
    omega

lemma sent_fillHeartbeat : sent fillHeartbeat buffer = heartbeatMessage :=
  finishes_fillHeartbeat.sent (by decide) (by decide) buffer

lemma sent_fillSessionTermResp : sent fillSessionTermResp buffer = sessionTermRespMessage :=
  finishes_fillSessionTermResp.sent (by decide) (by decide) buffer

lemma sent_fillDestinationResp (msgType : MessageType) (sc : StatusCode) :
    sent (fillDestinationResp msgType mac sc.code) buffer =
      destinationRespMessage msgType mac.toList sc := by
  have hbs : writeUint16 msgType.code ++ (writeUint16 0 ++
      dataItemFormat.encodeAll (destinationRespItems mac sc.code)) =
        writeMessageHeader msgType ++ writeDataItem .macAddress 6 ++ mac.toList ++
          writeStatusCode sc := by
    simp [writeMessageHeader, writeDataItem, destinationRespItems, Format.encode, dataItemFormat,
      writeStatusCode]
  have hfinishes := finishes_fillDestinationResp mac sc.code msgType
  rw [hbs] at hfinishes
  apply hfinishes.sent
  · simp [writeMessageHeader, ← Nat.add_assoc 2 2]
  · simp [writeMessageHeader, writeDataItem, writeStatusCode]

end Lists

lemma length_encodeAll_sessionInitItems (text : List UInt8) :
    (dataItemFormat.encodeAll (sessionInitItems interval text)).length = 13 + text.length := by
  simp [sessionInitItems, dataItemFormat, Nat.add_comm]

lemma length_encodeAll_peerDiscoveryItems (text : List UInt8) :
    (dataItemFormat.encodeAll (peerDiscoveryItems text)).length = 5 + text.length := by
  simp [peerDiscoveryItems, dataItemFormat, Nat.add_comm]

lemma builds_fillSessionInit :
    Builds (fillSessionInit peerType interval) 300 4 (writeUint16 MessageType.sessionInit.code)
      (sessionInitItems interval (peerType.take 283)) := by
  have hle : (peerType.take 283).length ≤ 283 := List.length_take_le 283 peerType
  apply (finishes_fillSessionInit peerType interval).builds rfl rfl _ (by decide)
  rw [length_encodeAll_sessionInitItems, length_writeUint16]
  omega

lemma builds_fillHeartbeat :
    Builds fillHeartbeat 30 4 (writeUint16 MessageType.peerHeartbeat.code) [] :=
  finishes_fillHeartbeat.builds rfl rfl (by decide) (by decide)

lemma builds_fillSessionTerm :
    Builds (fillSessionTerm sc) 9 4 (writeUint16 MessageType.sessionTerm.code)
      (sessionTermItems sc) :=
  (finishes_fillSessionTerm sc).builds rfl rfl (Nat.le_refl 9) (by decide)

lemma builds_fillSessionTermResp :
    Builds fillSessionTermResp 30 4 (writeUint16 MessageType.sessionTermResp.code) [] :=
  finishes_fillSessionTermResp.builds rfl rfl (Nat.le_of_ble_eq_true rfl) (by decide)

lemma builds_fillDestinationResp (msgType : MessageType) :
    Builds (fillDestinationResp msgType mac sc) 30 4 (writeUint16 msgType.code)
      (destinationRespItems mac sc) := by
  apply (finishes_fillDestinationResp mac sc msgType).builds rfl rfl _ (by decide)
  simp [destinationRespItems, dataItemFormat]

lemma builds_fillPeerDiscovery :
    Builds (fillPeerDiscovery peerType) 100 8
      (signalMagic ++ writeUint16 Signal.peerDiscovery.code)
      (peerDiscoveryItems (peerType.take 87)) := by
  have hle : (peerType.take 87).length ≤ 87 := List.length_take_le 87 peerType
  have hstart : (signalMagic ++ writeUint16 Signal.peerDiscovery.code).length = 6 := by decide
  rw [show 8 = 6 + 2 from rfl, ← hstart]
  apply (finishes_fillPeerDiscovery peerType).builds hstart.symm (by rw [hstart]; rfl) _ (by decide)
  rw [hstart, length_encodeAll_peerDiscoveryItems]
  omega

/-- The router's Session Terminations are messages that its own validator accepts. -/
lemma value_checkSessionTermMessage_sent (buffer rest : Memory UInt8) :
    (checkSessionTermMessage (sent (fillSessionTerm sc) buffer).length).value
      (.overlay (sent (fillSessionTerm sc) buffer) rest) = .success := by
  let p : Payload := ⟨sessionTermItems sc, by simp [sessionTermItems, dataItemFormat]⟩
  have hsent : sent (fillSessionTerm sc) buffer = p.message .sessionTerm :=
    Carries.eq_message (p := p) ((builds_fillSessionTerm sc).carries buffer)
  have haccepts : MessageKind.sessionTerm.contents.Accepts p.items :=
    Contents.accepts_only_iff.mpr ⟨[sc], Nat.le_refl 1, rfl⟩
  rw [hsent]
  exact (MessageKind.value_check_message p rest .sessionTerm).trans (if_pos haccepts)

/-- The router's Heartbeats are messages that its own validator accepts. -/
lemma value_checkHeartbeatMessage_sent (buffer rest : Memory UInt8) :
    (checkHeartbeatMessage (sent fillHeartbeat buffer).length).value
      (.overlay (sent fillHeartbeat buffer) rest) = .success := by
  let p : Payload := ⟨[], by decide⟩
  have hsent : sent fillHeartbeat buffer = p.message .peerHeartbeat :=
    Carries.eq_message (p := p) (builds_fillHeartbeat.carries buffer)
  have haccepts : MessageKind.heartbeat.contents.Accepts p.items :=
    Contents.accepts_nothing_iff.mpr rfl
  rw [hsent]
  exact (MessageKind.value_check_message p rest .heartbeat).trans (if_pos haccepts)

/-- Every message and signal of the router stays inside its buffer and is well formed. Peer types
that do not fit are cut to the longest beginning that does, and the router's validators accept its
Session Terminations and Heartbeats. -/
theorem builds_messages :
    (∃ text,
      LongestPrefix (fun l => 4 + (dataItemFormat.encodeAll (sessionInitItems interval l)).length ≤
        300) text peerType ∧
      Builds (fillSessionInit peerType interval) 300 4 (writeUint16 MessageType.sessionInit.code)
        (sessionInitItems interval text)) ∧
    bigEndian (writeUint32 interval) = interval.toNat ∧
    Builds fillHeartbeat 30 4 (writeUint16 MessageType.peerHeartbeat.code) [] ∧
    Builds (fillSessionTerm sc) 9 4 (writeUint16 MessageType.sessionTerm.code)
      (sessionTermItems sc) ∧
    Builds fillSessionTermResp 30 4 (writeUint16 MessageType.sessionTermResp.code) [] ∧
    Builds (fillDestinationUpResp mac sc) 30 4 (writeUint16 MessageType.destUpResp.code)
      (destinationRespItems mac sc) ∧
    Builds (fillDestinationDownResp mac sc) 30 4 (writeUint16 MessageType.destDownResp.code)
      (destinationRespItems mac sc) ∧
    (∃ text,
      LongestPrefix (fun l => 8 + (dataItemFormat.encodeAll (peerDiscoveryItems l)).length ≤ 100)
        text peerType ∧
      Builds (fillPeerDiscovery peerType) 100 8
        (signalMagic ++ writeUint16 Signal.peerDiscovery.code) (peerDiscoveryItems text)) ∧
    (∀ buffer rest,
      (checkSessionTermMessage (sent (fillSessionTerm sc) buffer).length).value
        (.overlay (sent (fillSessionTerm sc) buffer) rest) = .success) ∧
    ∀ buffer rest,
      (checkHeartbeatMessage (sent fillHeartbeat buffer).length).value
        (.overlay (sent fillHeartbeat buffer) rest) = .success := by
  have hinit : ∀ l, 4 + (dataItemFormat.encodeAll (sessionInitItems interval l)).length ≤ 300 ↔
      l.length ≤ 283 := by
    intro l
    rw [length_encodeAll_sessionInitItems]
    omega
  have hdiscovery : ∀ l, 8 + (dataItemFormat.encodeAll (peerDiscoveryItems l)).length ≤ 100 ↔
      l.length ≤ 87 := by
    intro l
    rw [length_encodeAll_peerDiscoveryItems]
    omega
  exact ⟨⟨_, longestPrefix_take peerType hinit, builds_fillSessionInit peerType interval⟩,
    bigEndian_writeUint32 interval, builds_fillHeartbeat, builds_fillSessionTerm sc,
    builds_fillSessionTermResp, builds_fillDestinationResp mac sc .destUpResp,
    builds_fillDestinationResp mac sc .destDownResp,
    ⟨_, longestPrefix_take peerType hdiscovery, builds_fillPeerDiscovery peerType⟩,
    value_checkSessionTermMessage_sent sc, value_checkHeartbeatMessage_sent⟩

end Each

end DlepRouter
