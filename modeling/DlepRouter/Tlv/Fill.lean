import DlepRouter.Interaction.Run
import DlepRouter.Tlv.Memory

/-!
# Programs that fill a buffer

A program that writes a message stores cells at addresses and moves a pointer on. Run, it has a
value and the list of its stores, so a write behind the end of the buffer is seen and not excluded.
Code that only writes at its pointer leaves the cells it wrote one after the other; a length that
is filled in later replaces a few of them.
-/

namespace Tlv

open Interaction

variable {α β γ : Type}

/-- A store: an address, and the cell that goes there. -/
structure Store (β : Type) where
  addr : ℕ
  cell : β

/-- The one call of a program that fills a buffer. -/
def fillSig (β : Type) : Signature where
  Op := Store β
  Ans _ := Unit

/-- Programs that store cells of type `β`. -/
abbrev Fill (β α : Type) := Program (fillSig β) α

/-! ### Stores -/

/-- The memory that a list of stores leaves behind. -/
def Memory.after (m : Memory β) (ss : List (Store β)) : Memory β :=
  ss.foldl (fun m s => m.patch s.addr [s.cell]) m

/-- The stores of `bs` one after the other from `p` on. -/
def consecutive (p : ℕ) : List β → List (Store β)
  | [] => []
  | b :: bs => ⟨p, b⟩ :: consecutive (p + 1) bs

lemma consecutive_append (p : ℕ) (bs bs' : List β) :
    consecutive p (bs ++ bs') = consecutive p bs ++ consecutive (p + bs.length) bs' := by
  induction bs generalizing p with
  | nil => rfl
  | cons b bs ih =>
    simp only [List.cons_append, consecutive, ih, List.length_cons]
    rw [Nat.add_assoc, Nat.add_comm 1]

lemma addr_lt_of_mem_consecutive {p : ℕ} {bs : List β} {s : Store β}
    (h : s ∈ consecutive p bs) : s.addr < p + bs.length := by
  induction bs generalizing p with
  | nil => cases h
  | cons b bs ih =>
    rw [List.length_cons]
    rcases List.mem_cons.mp h with rfl | h
    · exact Nat.lt_add_of_pos_right (Nat.succ_pos _)
    · have hlt := ih h
      omega

/-- Stores one after the other come to one write. -/
lemma after_consecutive (m : Memory β) (p : ℕ) (bs : List β) :
    m.after (consecutive p bs) = m.patch p bs := by
  induction bs generalizing m p with
  | nil =>
    funext i
    simp [consecutive, Memory.after, Memory.patch]
  | cons b bs ih =>
    have hstep : m.after (consecutive p (b :: bs)) =
        (m.patch p [b]).after (consecutive (p + 1) bs) := rfl
    rw [hstep, ih]
    funext i
    simp only [Memory.patch]
    rcases Nat.lt_trichotomy i p with hlt | rfl | hgt
    · rw [if_neg (by omega), if_neg (by omega), if_neg (by omega)]
    · rw [if_neg (by omega), if_pos (Nat.le_refl _), if_pos (Nat.le_refl _), Nat.sub_self]
      rfl
    · obtain ⟨d, rfl⟩ := Nat.exists_eq_add_of_lt hgt
      rw [if_pos (by omega), if_pos (by omega), if_pos (by omega),
        show p + d + 1 - (p + 1) = d by omega, show p + d + 1 - p = d + 1 by omega]
      simp

/-! ### Fills -/

namespace Fill

/-- Store one cell. -/
def store (p : ℕ) (b : β) : Fill β Unit := Program.perform (σ := fillSig β) ⟨p, b⟩

/-- Store cells one after the other, as `memcpy` does. -/
def storeRange (p : ℕ) : List β → Fill β Unit
  | [] => pure ()
  | b :: bs => do
    store p b
    storeRange (p + 1) bs

/-- The value of a fill. -/
def value (w : Fill β α) : α := w.eval fun _ => ()

/-- The stores of a fill, in order. -/
def stores (w : Fill β α) : List (Store β) := w.calls fun _ => ()

@[simp] lemma value_ret (a : α) : value (.ret a : Fill β α) = a := rfl

@[simp] lemma value_bind (w : Fill β α) (f : α → Fill β γ) :
    value (w >>= f) = value (f (value w)) := Program.eval_bind ..

@[simp] lemma stores_ret (a : α) : stores (.ret a : Fill β α) = [] := rfl

@[simp] lemma stores_bind (w : Fill β α) (f : α → Fill β γ) :
    stores (w >>= f) = stores w ++ stores (f (value w)) := Program.calls_bind ..

@[simp] lemma stores_store (p : ℕ) (b : β) : stores (store p b) = [⟨p, b⟩] := rfl

@[simp] lemma stores_storeRange (p : ℕ) (bs : List β) :
    stores (storeRange p bs) = consecutive p bs := by
  induction bs generalizing p with
  | nil => rfl
  | cons b bs ih => simp [storeRange, consecutive, ih]

/-- From the pointer `p` on, `bs` is written, and the pointer behind it is returned. -/
structure Appends (w : Fill β ℕ) (p : ℕ) (bs : List β) : Prop where
  stores : w.stores = consecutive p bs
  value : w.value = p + bs.length

namespace Appends

lemma ret (p : ℕ) : Appends (.ret p : Fill β ℕ) p [] := ⟨rfl, rfl⟩

lemma store (p : ℕ) (b : β) : Appends (Fill.store p b >>= fun _ => .ret (p + 1)) p [b] := ⟨rfl, rfl⟩

lemma storeRange (p : ℕ) (bs : List β) :
    Appends (Fill.storeRange p bs >>= fun _ => .ret (p + bs.length)) p bs := by
  constructor
  · simp
  · rw [value_bind, value_ret]

/-- What is written first is followed by what is written from the pointer returned. -/
lemma bind {w : Fill β ℕ} {f : ℕ → Fill β ℕ} {p : ℕ} {bs bs' : List β} (hw : Appends w p bs)
    (hf : Appends (f (p + bs.length)) (p + bs.length) bs') :
    Appends (w >>= f) p (bs ++ bs') := by
  constructor
  · rw [stores_bind, hw.stores, hw.value, hf.stores, consecutive_append]
  · rw [value_bind, hw.value, hf.value, List.length_append, Nat.add_assoc]

end Appends

end Fill

/-! ### Lengths that are filled in later -/

namespace Memory

/-- Cells written into a slice replace those that stood there. -/
lemma slice_patch_of_within (m : Memory β) {off n : ℕ} {bs : List β} (h : off + bs.length ≤ n) :
    (m.patch off bs).slice 0 n =
      (m.slice 0 n).take off ++ (bs ++ (m.slice 0 n).drop (off + bs.length)) := by
  obtain ⟨d, rfl⟩ := Nat.exists_eq_add_of_le h
  have hbehind : (m.patch off bs).slice (off + bs.length) d = m.slice (off + bs.length) d := by
    apply slice_congr
    intro i _
    have hle : off ≤ off + bs.length + i := by omega
    have hsub : bs.length ≤ off + bs.length + i - off := by omega
    simp [patch, hle, hsub]
  rw [slice_add, slice_add, Nat.zero_add, Nat.zero_add, slice_patch, hbehind,
    slice_patch_of_le m bs (by omega), take_slice m 0 (by omega), drop_slice m 0 (by omega),
    Nat.zero_add, Nat.add_sub_cancel_left, List.append_assoc]

end Memory

end Tlv
