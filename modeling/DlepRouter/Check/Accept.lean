import DlepRouter.Check.Validators

/-!
# Accepted messages

On a message that is a header followed by encoded data items, each validator accepts exactly the
contents of the message. On other messages it does not: the message validators never compare where
their loop stops with the end of the message, so a last item may be completed by whatever lies
behind it.
-/

namespace DlepRouter

open Tlv Scan

/-! ### Encoded messages -/

/-- Data items whose encoding fits the length field of a message. -/
structure Payload where
  items : List DataItem
  fits : (dataItemFormat.encodeAll items).length < 2 ^ 16

namespace Payload

variable (p : Payload) (t : MessageType) (rest : Memory UInt8)

/-- The encoding of the items, one after the other. -/
def octets : List UInt8 := dataItemFormat.encodeAll p.items

/-- The header of a message of type `t` and, behind it, the items. -/
def message : List UInt8 :=
  writeUint16 t.code ++ (writeUint16 (UInt16.ofNat p.octets.length) ++ p.octets)

@[simp] lemma length_message : (p.message t).length = 4 + p.octets.length := by
  simp [message]
  omega

lemma body_length_lt {i : DataItem} (hi : i ∈ p.items) : i.body.length < dataItemFormat.bound := by
  have hle := dataItemFormat.length_le_encodeAll hi
  have hfits := p.fits
  change _ < 2 ^ 16
  omega

/-- The header of an encoded message is right, whatever lies behind the message. -/
lemma headed_message :
    Headed (.overlay (p.message t) rest) (p.message t).length t := by
  have hlen := p.length_message t
  refine ⟨by omega, ?_, ?_⟩
  · rw [Memory.slice_overlay (by omega), List.drop_zero, message,
      List.take_left' (length_writeUint16 _), bigEndian_writeUint16]
  · rw [Memory.slice_overlay (by omega), message, List.drop_left' (length_writeUint16 _),
      List.take_left' (length_writeUint16 _), bigEndian_writeUint16, ← message, hlen,
      UInt16.toNat_ofNat_of_lt' (show p.octets.length < _ from p.fits)]
    omega

lemma slice_message :
    (Memory.overlay (p.message t) rest).slice 4 ((p.message t).length - 4) = p.octets := by
  have hlen := p.length_message t
  rw [Memory.slice_overlay (by omega), hlen, message, ← List.append_assoc,
    List.drop_left' (by simp), Nat.add_sub_cancel_left, List.take_length]

/-- The walk over an encoded message visits the items encoded. -/
lemma items_message :
    MessageKind.items (.overlay (p.message t) rest) (p.message t).length = p.items := by
  have hlen := p.length_message t
  have hdec : dataItemFormat.decode p.octets = (p.items, []) :=
    Format.decode_encodeAll fun i hi => p.body_length_lt hi
  rw [MessageKind.items, Format.items_eq (by omega), slice_message, hdec]
  simp [Format.overrun]

end Payload

/-! ### What the validators accept -/

section Accept

variable (p : Payload) (rest : Memory UInt8)

lemma MessageKind.value_check_message (k : MessageKind) :
    (k.check (p.message k.messageType).length).value (.overlay (p.message k.messageType) rest) =
      verdict (k.contents.Accepts p.items) := by
  have hhead := p.headed_message k.messageType rest
  rw [k.value_check_of_type _ _ hhead.2.1, p.items_message]
  exact verdict_congr (and_iff_right hhead)

/-- `check_session_init_resp_message` accepts exactly the contents of a Session Initialization
Response, in any order. -/
theorem value_checkSessionInitRespMessage :
    (checkSessionInitRespMessage (p.message .sessionInitResp).length).value
        (.overlay (p.message .sessionInitResp) rest) =
      if MessageKind.sessionInitResp.contents.Accepts p.items then .success else .invalidData :=
  MessageKind.value_check_message p rest .sessionInitResp

/-- The in-session validators accept exactly the contents of their messages, in any order. -/
theorem value_check_inSession :
    (checkSessionUpdateMessage (p.message .sessionUpdate).length).value
        (.overlay (p.message .sessionUpdate) rest) =
      verdict (MessageKind.sessionUpdate.contents.Accepts p.items) ∧
    (checkDestinationUpdateMessage (p.message .destUpdate).length).value
        (.overlay (p.message .destUpdate) rest) =
      verdict (MessageKind.destinationUpdate.contents.Accepts p.items) ∧
    (checkDestinationUpMessage (p.message .destUp).length).value
        (.overlay (p.message .destUp) rest) =
      verdict (MessageKind.destinationUp.contents.Accepts p.items) ∧
    (checkDestinationDownMessage (p.message .destDown).length).value
        (.overlay (p.message .destDown) rest) =
      verdict (MessageKind.destinationDown.contents.Accepts p.items) ∧
    (checkSessionTermMessage (p.message .sessionTerm).length).value
        (.overlay (p.message .sessionTerm) rest) =
      verdict (MessageKind.sessionTerm.contents.Accepts p.items) ∧
    (checkHeartbeatMessage (p.message .peerHeartbeat).length).value
        (.overlay (p.message .peerHeartbeat) rest) =
      verdict (MessageKind.heartbeat.contents.Accepts p.items) ∧
    (MessageKind.destinationDown.contents.Accepts p.items ↔
      ∃ mac, mac.length = 6 ∧ p.items = [⟨DataItemType.macAddress.code, mac⟩]) ∧
    (MessageKind.sessionTerm.contents.Accepts p.items ↔
      ∃ status, 1 ≤ status.length ∧ p.items = [⟨DataItemType.status.code, status⟩]) ∧
    (MessageKind.heartbeat.contents.Accepts p.items ↔ p.items = []) :=
  ⟨MessageKind.value_check_message p rest .sessionUpdate,
    MessageKind.value_check_message p rest .destinationUpdate,
    MessageKind.value_check_message p rest .destinationUp,
    MessageKind.value_check_message p rest .destinationDown,
    MessageKind.value_check_message p rest .sessionTerm,
    MessageKind.value_check_message p rest .heartbeat,
    Contents.accepts_only_iff, Contents.accepts_only_iff, Contents.accepts_nothing_iff⟩

end Accept

/-! ### What the validators miss -/

section Overrun

variable (k : MessageKind) (m : Memory UInt8) (len : ℕ)

/-- The complete data items behind a message header, and the fragment that ends the message. -/
abbrev splitPayload : List DataItem × List UInt8 := dataItemFormat.decode (m.slice 4 (len - 4))

/-- The message ends inside a data item, and that item, completed by what lies behind the message,
is accepted with the others. -/
def MessageKind.Overruns : Prop :=
  Headed m len k.messageType ∧ (splitPayload m len).2 ≠ [] ∧
    k.contents.Accepts
      ((splitPayload m len).1 ++ [dataItemFormat.itemAt m (len - (splitPayload m len).2.length)])

/-- A validator's success means that the items tile the payload, unless the message ends inside a
data item that the octets behind the message make acceptable. -/
theorem check_success_tiles_iff :
    ((k.check len).value m = .success → dataItemFormat.Tiles m 4 len) ↔ ¬ k.Overruns m len := by
  rw [k.check_eq_success_iff, MessageKind.Overruns]
  by_cases hhead : Headed m len k.messageType
  · have hle : 4 ≤ len := hhead.1
    rw [Format.tiles_iff_decode hle, MessageKind.items, Format.items_eq hle]
    by_cases hfrag : (splitPayload m len).2 = []
    · simp [hhead, hfrag]
    · simp [hhead, hfrag, Format.overrun]
  · simp [hhead]

/-- Eight octets that announce a MAC Address item of six octets without any of them. -/
def truncatedDestinationDown : List UInt8 := [0x00, 0x0B, 0x00, 0x04, 0x00, 0x07, 0x00, 0x06]

/-- `check_destination_down_message` accepts a message that ends behind the header of its item. -/
theorem check_success_not_tiles :
    ¬ ∀ (k : MessageKind) (m : Memory UInt8) (len : ℕ),
      (k.check len).value m = .success → dataItemFormat.Tiles m 4 len := by
  intro h
  have htiles := h .destinationDown (.overlay truncatedDestinationDown fun _ => 0) 8 (by decide)
  cases htiles with
  | item hle _ => exact absurd hle (by decide)

end Overrun

end DlepRouter
