import DlepRouter.Session.Transport

/-!
# Receiving from a stream

The environment of `recv_message` when the modem sends some octets and closes: every `recv` yields
at least one of the octets that are left, but no more than arrive in one segment. `recv_message`
reads the header and the rest of a message with one `recv` each, and the octets that these yield
are what it takes for a message.
-/

namespace DlepRouter

open Interaction Tlv Scan

/-! ### Streams -/

/-- The octets of a stream up to the end, at most how many of them a `recv` at each position
yields, and what lies in the memory that `realloc` hands out. -/
structure Stream where
  octets : List UInt8
  segment : ℕ → ℕ
  segment_pos : ∀ p, 1 ≤ segment p
  fresh : ℕ → Memory UInt8

namespace Stream

variable (str : Stream)

/-- What a `recv` of `n` octets yields at position `p`: between 1 and `n` of the octets left. -/
def recv (p n : ℕ) : List UInt8 :=
  (str.octets.drop p).take (min n (str.segment p))

lemma length_recv_le (p n : ℕ) : (str.recv p n).length ≤ n := by
  simp [recv]

/-- The environment of a stream, whose state is the position. Calls that have nothing to do with
receiving are answered in any way. -/
def handler (others : Oracle sysSig) : Handler sysSig ℕ where
  answer p
    | .recv n => (some ⟨str.recv p n, str.length_recv_le p n⟩, p + (str.recv p n).length)
    | .realloc _ => (some (str.fresh p), p)
    | op => (others op, p)

/-- Messages are framed as data items are: two octets of type, two of length, then the rest. -/
abbrev messageFormat : Format UInt8 UInt16 := dataItemFormat

/-- The complete messages of the stream. -/
def messages : List (List UInt8) :=
  (messageFormat.decode str.octets).1.map messageFormat.encode

/-- The octets behind the last complete message. -/
def fragment : List UInt8 :=
  (messageFormat.decode str.octets).2

/-- Every header and every body arrives in one segment. -/
def Unbroken (segment : ℕ → ℕ) : ℕ → List (Item UInt8 UInt16) → Prop
  | _, [] => True
  | p, i :: is => 4 ≤ segment p ∧ i.body.length ≤ segment (p + 4) ∧
      Unbroken segment (p + (messageFormat.encode i).length) is

end Stream

/-- Receive messages, at most `n` of them, as the loops of the router do: the octets of each, and
whether the stream was reported as closed or failed. -/
def recvMessages : ℕ → Buffer → Sys (List (List UInt8) × Bool)
  | 0, _ => pure ([], false)
  | n + 1, b => do
    let (received, b) ← recvMessage b
    match received with
    | none => pure ([], true)
    | some 0 => pure ([], true)
    | some len => do
      let (msgs, closed) ← recvMessages n b
      pure (b.octets.slice 0 len :: msgs, closed)

/-! ### One message -/

namespace Stream

variable (str : Stream) (others : Oracle sysSig)

/-- What `recv_message` takes for the message at position `p`. -/
def received (p : ℕ) : List UInt8 :=
  if (str.recv p 4).length = 4 then
    str.recv p 4 ++ str.recv (p + 4) (bigEndian ((str.recv p 4).drop 2))
  else str.recv p 4

section Run

variable {α S : Type} (H : Handler sysSig S) (s : S) (c : SysCall) (f : c.Answer → Sys α)

lemma value_call_bind :
    ((Sys.call c >>= f).run H s).value = ((f (H.answer s c).1).run H (H.answer s c).2).value := rfl

lemma state_call_bind :
    ((Sys.call c >>= f).run H s).state = ((f (H.answer s c).1).run H (H.answer s c).2).state := rfl

end Run

/-- Growing a block keeps the octets stored in it. -/
lemma slice_resize (b : Buffer) {n k : ℕ} (fresh : Memory UInt8) (hk : k ≤ b.size) (hn : k ≤ n) :
    (b.resize n fresh).octets.slice 0 k = b.octets.slice 0 k :=
  Memory.slice_congr fun i hi => if_pos (by omega)

/-- `recv_message` takes for a message what its two `recv` yield, and stores just that. -/
lemma run_recvMessage (b : Buffer) (p : ℕ) :
    ((recvMessage b).run (str.handler others) p).value.1 = some (str.received p).length ∧
      ((recvMessage b).run (str.handler others) p).value.2.octets.slice 0 (str.received p).length =
        str.received p ∧
      ((recvMessage b).run (str.handler others) p).state = p + (str.received p).length := by
  unfold recvMessage
  rw [value_call_bind, state_call_bind]
  dsimp only [handler]
  rw [value_call_bind, state_call_bind]
  dsimp only
  generalize hb : (b.resize 4 (str.fresh p)).store 0 (str.recv p 4) = b1
  have hstored : b1.octets.slice 0 (str.recv p 4).length = str.recv p 4 := by
    rw [← hb]
    exact Memory.slice_patch _ 0 _
  by_cases h4 : (str.recv p 4).length = 4
  · have hn : ((readUint16 2).value b1.octets).toNat = bigEndian ((str.recv p 4).drop 2) := by
      rw [toNat_readUint16, ← hstored, h4, Memory.drop_slice _ _ (by omega)]
    rw [h4] at hstored
    rw [if_pos h4, hn]
    generalize hlen : bigEndian ((str.recv p 4).drop 2) = n
    have hrec : str.received p = str.recv p 4 ++ str.recv (p + 4) n := by
      rw [received, if_pos h4, hlen]
    by_cases h0 : n = 0
    · rw [if_neg (not_not.mpr h0)]
      have : str.recv (p + 4) n = [] := by simp [recv, h0]
      rw [hrec, this, List.append_nil, h4]
      exact ⟨rfl, hstored, rfl⟩
    · rw [if_pos h0, value_call_bind, state_call_bind]
      dsimp only
      rw [value_call_bind, state_call_bind]
      dsimp only
      rw [hrec, List.length_append, h4]
      refine ⟨by simp [Nat.add_comm], ?_, by simp [Nat.add_assoc]⟩
      have hsize : b1.size = 4 := by rw [← hb]; rfl
      have hheader : ((b1.resize (n + 4) (str.fresh (p + 4))).store 4
          (str.recv (p + 4) n)).octets.slice 0 4 = str.recv p 4 := by
        rw [Buffer.store, Memory.slice_patch_of_le _ _ (by omega),
          slice_resize b1 _ (by omega) (by omega), hstored]
      rw [Memory.slice_add]
      exact congrArg₂ (· ++ ·) hheader (Memory.slice_patch _ 4 _)
  · rw [if_neg h4]
    have hrec : str.received p = str.recv p 4 := if_neg h4
    rw [hrec]
    exact ⟨rfl, hstored, rfl⟩

/-! ### Many messages -/

/-- What `n` calls of `recv_message` come to from position `p` on. -/
def receivedAll : ℕ → ℕ → List (List UInt8) × Bool
  | 0, _ => ([], false)
  | n + 1, p =>
    if str.received p = [] then ([], true)
    else
      (str.received p :: (receivedAll n (p + (str.received p).length)).1,
        (receivedAll n (p + (str.received p).length)).2)

lemma run_recvMessages (n : ℕ) (b : Buffer) (p : ℕ) :
    ((recvMessages n b).run (str.handler others) p).value = str.receivedAll n p := by
  induction n generalizing b p with
  | zero => rfl
  | succ n ih =>
    obtain ⟨hvalue, hstored, hstate⟩ := str.run_recvMessage others b p
    rw [recvMessages, Program.run_bind, receivedAll]
    generalize (recvMessage b).run (str.handler others) p = o at hvalue hstored hstate ⊢
    obtain ⟨⟨len, b'⟩, state, trace⟩ := o
    obtain rfl : len = some (str.received p).length := hvalue
    obtain rfl : state = p + (str.received p).length := hstate
    by_cases hnil : str.received p = []
    · rw [if_pos hnil]
      simp [Outcome.andThen, hnil]
    · rw [if_neg hnil]
      obtain ⟨len, hlen⟩ := Nat.exists_eq_add_one_of_ne_zero (mt List.length_eq_zero_iff.mp hnil)
      simp only [Outcome.andThen]
      change b'.octets.slice 0 (str.received p).length = str.received p at hstored
      rw [← ih b']
      rw [hlen] at hstored ⊢
      change ((recvMessages n b' >>= fun r =>
        pure (b'.octets.slice 0 (len + 1) :: r.1, r.2)).run (str.handler others) _).value = _
      rw [Program.run_bind, hstored]
      rfl

/-! ### Messages and segments -/

variable {str} {p : ℕ}

lemma received_eq_nil_iff : str.received p = [] ↔ str.octets.drop p = [] := by
  have hpos := str.segment_pos p
  have hlen : (str.recv p 4).length = min (min 4 (str.segment p)) (str.octets.drop p).length := by
    simp [recv]
  rw [← List.length_eq_zero_iff, ← List.length_eq_zero_iff, received]
  split_ifs with h4
  · rw [List.length_append]
    omega
  · omega

lemma length_recv (p n : ℕ) :
    (str.recv p n).length = min (min n (str.segment p)) (str.octets.drop p).length := by
  rw [recv, List.length_take]

/-- A complete message is received as a whole exactly if its header and its body arrive in one
segment each. -/
lemma received_eq_encode_iff (h : messageFormat.Complete (str.octets.drop p)) :
    str.received p = messageFormat.encode (messageFormat.front (str.octets.drop p)) ↔
      4 ≤ str.segment p ∧
        (messageFormat.front (str.octets.drop p)).body.length ≤ str.segment (p + 4) := by
  have hlen : 4 + bigEndian (((str.octets.drop p).take 4).drop 2) ≤
    (str.octets.drop p).length := h
  have hrest : (str.octets.drop (p + 4)).length = (str.octets.drop p).length - 4 := by
    simp [Nat.sub_sub]
  have hheader : 4 ≤ str.segment p → str.recv p 4 = (str.octets.drop p).take 4 := by
    intro h4
    rw [recv, Nat.min_eq_left h4]
  have hencode : messageFormat.encode (messageFormat.front (str.octets.drop p)) =
      (str.octets.drop p).take (4 + bigEndian (((str.octets.drop p).take 4).drop 2)) :=
    Format.encode_front h
  have hbody : (messageFormat.front (str.octets.drop p)).body.length =
      bigEndian (((str.octets.drop p).take 4).drop 2) := Format.length_front h
  rw [hencode, hbody]
  generalize hn : bigEndian (((str.octets.drop p).take 4).drop 2) = n at *
  constructor
  · intro hrec
    have hlength := congrArg List.length hrec
    rw [List.length_take, Nat.min_eq_left hlen, received] at hlength
    have h4 := str.length_recv_le p 4
    split_ifs at hlength with hfull
    · have hseg : 4 ≤ str.segment p := by
        rw [length_recv] at hfull
        omega
      rw [List.length_append, hheader hseg, hn, length_recv, hrest, List.length_take] at hlength
      omega
    · omega
  · rintro ⟨hseg, hseg'⟩
    rw [received, hheader hseg, if_pos (by rw [List.length_take]; omega), hn, recv,
      Nat.min_eq_left hseg', List.take_add, List.drop_drop]

/-- What is received are the messages of the stream exactly if it ends behind a message and all
headers and bodies arrive in one segment each. -/
lemma receivedAll_iff {l : List UInt8} (hl : str.octets.drop p = l) :
    (∀ n, str.receivedAll n p =
      (((messageFormat.decode l).1.map messageFormat.encode).take n,
        decide ((messageFormat.decode l).1.length < n))) ↔
      (messageFormat.decode l).2 = [] ∧ Unbroken str.segment p (messageFormat.decode l).1 := by
  induction l using Format.decode_induction (F := messageFormat) generalizing p with
  | complete l h ih =>
    subst hl
    have hne : str.received p ≠ [] := by
      rw [Ne, received_eq_nil_iff]
      rintro hnil
      rw [hnil] at h
      exact Format.not_complete_nil h
    have hiff := received_eq_encode_iff h
    have hsucc : ∀ n, str.receivedAll (n + 1) p =
        (str.received p :: (str.receivedAll n (p + (str.received p).length)).1,
          (str.receivedAll n (p + (str.received p).length)).2) := fun n => if_neg hne
    rw [Format.decode_of_complete h]
    generalize messageFormat.front (str.octets.drop p) = i at *
    have hrest := @ih (p + (messageFormat.encode i).length) (List.drop_drop ..).symm
    constructor
    · intro hall
      have hwhole : str.received p = messageFormat.encode i := by
        simpa using congrArg (fun r => r.1.head?) ((hsucc 0).symm.trans (hall 1))
      obtain ⟨hseg, hseg'⟩ := hiff.mp hwhole
      obtain ⟨hfrag, hunbroken⟩ := hrest.mp <| by
        intro n
        have hn := (hsucc n).symm.trans (hall (n + 1))
        rw [hwhole] at hn
        apply Prod.ext
        · simpa using congrArg (fun r => r.1.tail) hn
        · simpa using congrArg Prod.snd hn
      exact ⟨hfrag, hseg, hseg', hunbroken⟩
    · rintro ⟨hfrag, hseg, hseg', hunbroken⟩ n
      have hwhole := hiff.mpr ⟨hseg, hseg'⟩
      cases n with
      | zero => rfl
      | succ n => rw [hsucc n, hwhole, hrest.mpr ⟨hfrag, hunbroken⟩ n]; simp
  | fragment l h =>
    rw [Format.decode_of_not_complete h]
    constructor
    · intro hall
      refine ⟨?_, trivial⟩
      by_contra hne
      have hone := hall 1
      rw [receivedAll, if_neg (by rwa [received_eq_nil_iff, hl])] at hone
      cases congrArg Prod.fst hone
    · rintro ⟨rfl, -⟩ n
      cases n with
      | zero => rfl
      | succ n => simp [receivedAll, received_eq_nil_iff.mpr hl]

/-! ### Streams as a whole -/

/-- The calls of `recv_message` yield the messages of a stream, and then report its end, exactly if
the stream ends behind a message and every header and every body arrives in one segment. -/
theorem recvMessages_iff (str : Stream) (others : Oracle sysSig) (b : Buffer) :
    (∀ n, ((recvMessages n b).run (str.handler others) 0).value =
      (str.messages.take n, decide (str.messages.length < n))) ↔
      str.fragment = [] ∧ Unbroken str.segment 0 (messageFormat.decode str.octets).1 := by
  have hstart : str.octets.drop 0 = str.octets := rfl
  simp only [run_recvMessages, messages, fragment, List.length_map]
  exact receivedAll_iff hstart

/-- A Heartbeat that arrives octet by octet. -/
def dripping : Stream where
  octets := [0x00, 0x10, 0x00, 0x00]
  segment _ := 1
  segment_pos _ := Nat.le_refl 1
  fresh _ _ := 0

/-- The system in which every call fails. -/
def allFailing : Oracle sysSig
  | .socket _ | .connect _ => false
  | .close => ()
  | .send _ | .recv _ | .select _ | .realloc _ => none
  | .clockGettime => ⟨0, 0⟩

/-- The first octet of the Heartbeat is taken for a message. -/
theorem recvMessages_dripping :
    ¬ ∀ n, ((recvMessages n .null).run (dripping.handler allFailing) 0).value =
      (dripping.messages.take n, decide (dripping.messages.length < n)) := by
  intro h
  have hone : ((recvMessages 1 .null).run (dripping.handler allFailing) 0).value =
    ([[0x00]], false) := rfl
  have hoctets : dripping.octets = messageFormat.encodeAll [⟨16, []⟩] := by decide
  have hmessages : dripping.messages = [[0x00, 0x10, 0x00, 0x00]] := by
    rw [messages, hoctets, Format.decode_encodeAll (by decide)]
    decide
  have hmore := (h 1).symm.trans hone
  rw [hmessages] at hmore
  cases congrArg Prod.fst hmore

end Stream

end DlepRouter
