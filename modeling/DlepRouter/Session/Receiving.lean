import DlepRouter.Session.Sending
import DlepRouter.Session.Stream

/-!
# What a session has received

The octets that were received since the last wait, whether a call failed on the way, and how
`recv_message` relates them to what it returns and to the buffer it leaves behind.
-/

namespace DlepRouter

open Interaction Tlv Scan

/-! ### Octets -/

/-- The octets received since the last wait, when there were `acc` before. -/
def receivedFrom (acc : List UInt8) : List (Event sysSig) → List UInt8
  | [] => acc
  | ⟨.select _, _⟩ :: t => receivedFrom [] t
  | ⟨.recv _, some bs⟩ :: t => receivedFrom (acc ++ bs.val) t
  | _ :: t => receivedFrom acc t

/-- The octets received since the last wait. -/
abbrev received (t : List (Event sysSig)) : List UInt8 := receivedFrom [] t

lemma receivedFrom_append (acc : List UInt8) (t t' : List (Event sysSig)) :
    receivedFrom acc (t ++ t') = receivedFrom (receivedFrom acc t) t' := by
  fun_induction receivedFrom acc t with
  | case1 acc => rfl
  | case2 acc timeout r t ih => exact ih
  | case3 acc n bs t ih => exact ih
  | case4 acc e t hselect hrecv ih =>
    rw [List.cons_append, receivedFrom]
    · exact ih
    · exact hselect
    · exact hrecv

/-- Whether a `recv` or a `realloc` has failed since the last wait, when `before` says it of what
was before. -/
def interruptedFrom (before : Bool) : List (Event sysSig) → Bool
  | [] => before
  | ⟨.select _, _⟩ :: t => interruptedFrom false t
  | ⟨.recv _, none⟩ :: t => interruptedFrom true t
  | ⟨.realloc _, none⟩ :: t => interruptedFrom true t
  | _ :: t => interruptedFrom before t

/-- Whether a `recv` or a `realloc` has failed since the last wait. -/
abbrev interrupted (t : List (Event sysSig)) : Bool := interruptedFrom false t

lemma interruptedFrom_append (before : Bool) (t t' : List (Event sysSig)) :
    interruptedFrom before (t ++ t') = interruptedFrom (interruptedFrom before t) t' := by
  fun_induction interruptedFrom before t with
  | case1 before => rfl
  | case2 before timeout r t ih => exact ih
  | case3 before n t ih => exact ih
  | case4 before size t ih => exact ih
  | case5 before e t hselect hrecv hrealloc ih =>
    rw [List.cons_append, interruptedFrom]
    · exact ih
    · exact hselect
    · exact hrecv
    · exact hrealloc

/-- Octets that are one message of the type with the given number. -/
def IsComplete (type : ℕ) (bs : List UInt8) : Prop :=
  bigEndian (bs.take 2) = type ∧ bs.length = 4 + bigEndian ((bs.drop 2).take 2)

instance (type : ℕ) (bs : List UInt8) : Decidable (IsComplete type bs) :=
  inferInstanceAs (Decidable (_ ∧ _))

/-! ### Receiving a message -/

section Receiving

variable {ok : Assumption sysSig}

/-- How the octets that `recv_message` received relate to what it returns and to the buffers before
and after it. -/
structure Receipt (b : Buffer) (r : Option ℕ × Buffer) (bs : List UInt8) : Prop where
  length : ∀ len, r.1 = some len → bs.length = len
  stored : ∀ len, r.1 = some len → r.2.octets.slice 0 len = bs
  size : ∀ len, r.1 = some len → 4 ≤ r.2.size
  kept : ∀ len, r.1 = some len → 4 ≤ b.size → len ≤ 1 → r.2.octets 1 = b.octets 1
  incomplete : r.1 = none → ∀ type, ¬ IsComplete type bs

lemma not_isComplete_nil (type : ℕ) : ¬ IsComplete type [] := by
  rintro ⟨-, h⟩
  simp at h

/-- A header whose length field is not 0 is no complete message. -/
lemma not_isComplete_header {bs : List UInt8} (h4 : bs.length = 4) (h0 : bigEndian (bs.drop 2) ≠ 0)
    (type : ℕ) : ¬ IsComplete type bs := by
  rintro ⟨-, h⟩
  rw [List.take_of_length_le (by simp [h4])] at h
  omega

namespace Receipt

variable {b b' : Buffer} {bs : List UInt8}

/-- Nothing is known of a buffer that is not used. -/
lemma failed (h : ∀ type, ¬ IsComplete type bs) : Receipt b (none, b') bs :=
  ⟨nofun, nofun, nofun, nofun, fun _ => h⟩

lemma returned {len : ℕ} (hlength : bs.length = len) (hstored : b'.octets.slice 0 len = bs)
    (hsize : 4 ≤ b'.size) (hkept : 4 ≤ b.size → len ≤ 1 → b'.octets 1 = b.octets 1) :
    Receipt b (some len, b') bs := by
  refine ⟨?_, ?_, ?_, ?_, nofun⟩
  · rintro _ ⟨⟩
    exact hlength
  · rintro _ ⟨⟩
    exact hstored
  · rintro _ ⟨⟩
    exact hsize
  · rintro _ ⟨⟩
    exact hkept

end Receipt

/-- The body of a message goes behind its header. -/
lemma slice_store_body {b : Buffer} {header : List UInt8} (hsize : b.size = 4)
    (hheader : b.octets.slice 0 4 = header) {n : ℕ} (fresh : Memory UInt8) (body : List UInt8) :
    ((b.resize (n + 4) fresh).store 4 body).octets.slice 0 (body.length + 4) = header ++ body := by
  have hresize := Stream.slice_resize b (n := n + 4) fresh (Nat.le_of_eq hsize.symm)
    (Nat.le_add_left 4 n)
  have hfront := Memory.slice_patch_of_le (b.resize (n + 4) fresh).octets body (Nat.le_refl (0 + 4))
  have hbody := Memory.slice_patch (b.resize (n + 4) fresh).octets 4 body
  rw [Nat.add_comm body.length 4, Memory.slice_add, Nat.zero_add]
  exact congrArg₂ (· ++ ·) (hfront.trans (hresize.trans hheader)) hbody

lemma ensures_recvMessage_receipt (b : Buffer) :
    (recvMessage b).Ensures ok fun r t => Receipt b r (received t) := by
  apply ensures_call_bind
  intro fresh _
  cases fresh with
  | none => exact .failed not_isComplete_nil
  | some fresh =>
    apply ensures_call_bind
    intro header _
    cases header with
    | none => exact .failed not_isComplete_nil
    | some header =>
      obtain ⟨bs, hbs⟩ := header
      dsimp only
      have hsize : ((b.resize 4 fresh).store 0 bs).size = 4 := rfl
      have hstored : ((b.resize 4 fresh).store 0 bs).octets.slice 0 bs.length = bs :=
        Memory.slice_patch _ 0 bs
      have hkept : 4 ≤ b.size → bs.length ≤ 1 →
          ((b.resize 4 fresh).store 0 bs).octets 1 = b.octets 1 := by
        intro hsize hlen
        simp [Buffer.store, Buffer.resize, Memory.patch, hlen]
        omega
      generalize (b.resize 4 fresh).store 0 bs = b1 at hsize hstored hkept ⊢
      by_cases h4 : bs.length = 4
      · rw [h4] at hstored hkept
        have hn : ((readUint16 2).value b1.octets).toNat = bigEndian (bs.drop 2) := by
          rw [toNat_readUint16, ← hstored, Memory.drop_slice _ 0 (by decide)]
        have hmore : bigEndian (bs.drop 2) ≠ 0 → ∀ type, ¬ IsComplete type bs :=
          not_isComplete_header h4
        rw [if_pos h4, hn]
        split_ifs with h0
        · apply ensures_call_bind
          intro fresh' _
          cases fresh' with
          | none => exact .failed (hmore h0)
          | some fresh' =>
            apply ensures_call_bind
            intro body _
            cases body with
            | none => exact .failed (hmore h0)
            | some body =>
              have hbody := slice_store_body hsize hstored (n := bigEndian (bs.drop 2)) fresh'
                body.val
              refine .returned ?_ hbody (Nat.le_add_left 4 _) fun _ hle => ?_
              · simp [receivedFrom, h4, Nat.add_comm]
              · omega
        · exact .returned h4 hstored (Nat.le_of_eq hsize.symm) hkept
      · rw [if_neg h4]
        exact .returned rfl hstored (Nat.le_of_eq hsize.symm) hkept

/-- `recv_message` fails exactly if one of its calls does. -/
lemma ensures_recvMessage_interrupted (b : Buffer) :
    (recvMessage b).Ensures ok fun r t => interrupted t = r.1.isNone := by
  apply ensures_call_bind
  intro fresh _
  cases fresh with
  | none => exact rfl
  | some fresh =>
    apply ensures_call_bind
    intro header _
    cases header with
    | none => exact rfl
    | some header =>
      dsimp only
      split_ifs
      · apply ensures_call_bind
        intro fresh' _
        cases fresh' with
        | none => exact rfl
        | some fresh' =>
          apply ensures_call_bind
          intro body _
          cases body <;> exact rfl
      · exact rfl
      · exact rfl

end Receiving

end DlepRouter
