import DlepRouter.Tlv.Memory
import Mathlib.Data.List.Flatten

/-!
# Items with a tag and a length

The generic part of every type-length-value format: a header of fixed width holds a tag and the
length of the body that follows it. `encodeAll` writes a list of items one after the other, and
`decode` splits a list of cells into the complete items at its front and the fragment they leave.
-/

namespace Tlv

/-- A codec for item headers of a fixed width, over cells `β` and tags `τ`. -/
structure Format (β τ : Type) where
  width : ℕ
  bound : ℕ
  read : List β → τ × ℕ
  write : τ → ℕ → List β
  width_pos : 0 < width
  length_write : ∀ t n, (write t n).length = width
  read_write : ∀ t n, n < bound → read (write t n) = (t, n)
  write_read : ∀ l, l.length = width → write (read l).1 (read l).2 = l
  read_lt : ∀ l, l.length = width → (read l).2 < bound

/-- An item: its tag and its body. -/
@[ext] structure Item (β τ : Type) where
  tag : τ
  body : List β
  deriving DecidableEq

namespace Format

variable {β τ : Type} (F : Format β τ)

/-- The encoding of one item. -/
def encode (i : Item β τ) : List β :=
  F.write i.tag i.body.length ++ i.body

/-- The encodings of a list of items, one after the other. -/
def encodeAll (is : List (Item β τ)) : List β :=
  is.flatMap F.encode

@[simp] lemma length_encode (i : Item β τ) : (F.encode i).length = F.width + i.body.length := by
  simp [encode, F.length_write]

@[simp] lemma encodeAll_nil : F.encodeAll [] = [] := rfl

@[simp] lemma encodeAll_cons (i : Item β τ) (is : List (Item β τ)) :
    F.encodeAll (i :: is) = F.encode i ++ F.encodeAll is := by
  simp [encodeAll]

lemma length_le_encodeAll {i : Item β τ} {is : List (Item β τ)} (h : i ∈ is) :
    F.width + i.body.length ≤ (F.encodeAll is).length := by
  induction is with
  | nil => cases h
  | cons j is ih =>
    rw [encodeAll_cons, List.length_append, length_encode]
    rcases List.mem_cons.mp h with rfl | h
    · omega
    · have := ih h
      omega

/-- The whole of an item stands at the front of `l`. -/
def Complete (l : List β) : Prop :=
  F.width + (F.read (l.take F.width)).2 ≤ l.length

instance (l : List β) : Decidable (F.Complete l) :=
  inferInstanceAs (Decidable (_ ≤ _))

/-- The item whose header stands at the front of `l`. -/
def front (l : List β) : Item β τ :=
  ⟨(F.read (l.take F.width)).1, (l.drop F.width).take (F.read (l.take F.width)).2⟩

/-- The complete items at the front of a list of cells, and the fragment behind them. -/
def decode (l : List β) : List (Item β τ) × List β :=
  if F.Complete l then
    ((F.front l) :: (decode (l.drop (F.width + (F.read (l.take F.width)).2))).1,
      (decode (l.drop (F.width + (F.read (l.take F.width)).2))).2)
  else ([], l)
termination_by l.length
decreasing_by
  all_goals
    rename_i h
    have := F.width_pos
    simp only [Complete] at h
    simp only [List.length_drop]
    omega

variable {F}

lemma length_front {l : List β} (h : F.Complete l) :
    (F.front l).body.length = (F.read (l.take F.width)).2 := by
  simp only [Complete] at h
  simp [front]
  omega

lemma encode_front {l : List β} (h : F.Complete l) :
    F.encode (F.front l) = l.take (F.width + (F.read (l.take F.width)).2) := by
  have hw : (l.take F.width).length = F.width := by
    simp only [Complete] at h
    simp
    omega
  rw [encode, length_front h, front, F.write_read _ hw, List.take_add]

lemma decode_of_complete {l : List β} (h : F.Complete l) :
    F.decode l =
      (F.front l :: (F.decode (l.drop (F.encode (F.front l)).length)).1,
        (F.decode (l.drop (F.encode (F.front l)).length)).2) := by
  rw [decode, if_pos h, length_encode, length_front h]

lemma decode_of_not_complete {l : List β} (h : ¬ F.Complete l) : F.decode l = ([], l) := by
  rw [decode, if_neg h]

/-- Decoding follows the complete items of a list. -/
lemma decode_induction {P : List β → Prop}
    (complete : ∀ l, F.Complete l → P (l.drop (F.encode (F.front l)).length) → P l)
    (fragment : ∀ l, ¬ F.Complete l → P l) (l : List β) : P l := by
  by_cases h : F.Complete l
  · exact complete l h (decode_induction complete fragment _)
  · exact fragment l h
termination_by l.length
decreasing_by
  have := F.width_pos
  simp only [Complete] at h
  simp only [List.length_drop, length_encode]
  omega

/-- Nothing is lost: the items and the fragment make up the list. -/
theorem encodeAll_decode (l : List β) : F.encodeAll (F.decode l).1 ++ (F.decode l).2 = l := by
  induction l using decode_induction (F := F) with
  | complete l h ih =>
    rw [decode_of_complete h, encodeAll_cons, List.append_assoc, ih, encode_front h]
    simp only [List.length_take]
    rw [Nat.min_eq_left h, List.take_append_drop]
  | fragment l h => simp [decode_of_not_complete h]

/-- The fragment does not hold another complete item. -/
lemma decode_fragment_not_complete (l : List β) (h : (F.decode l).2 ≠ []) :
    ¬ F.Complete (F.decode l).2 := by
  induction l using decode_induction (F := F) with
  | complete l hc ih =>
    rw [decode_of_complete hc] at h ⊢
    exact ih h
  | fragment l hc => rwa [decode_of_not_complete hc]

lemma read_encode_append {i : Item β τ} (hi : i.body.length < F.bound) (l : List β) :
    F.read ((F.encode i ++ l).take F.width) = (i.tag, i.body.length) := by
  rw [encode, List.append_assoc, List.take_left' (F.length_write _ _), F.read_write _ _ hi]

lemma complete_encode_append {i : Item β τ} (hi : i.body.length < F.bound) (l : List β) :
    F.Complete (F.encode i ++ l) := by
  simp only [Complete, read_encode_append hi, List.length_append, length_encode]
  omega

lemma front_encode_append {i : Item β τ} (hi : i.body.length < F.bound) (l : List β) :
    F.front (F.encode i ++ l) = i := by
  have hb : ((F.encode i ++ l).drop F.width).take i.body.length = i.body := by
    rw [encode, List.append_assoc, List.drop_left' (F.length_write _ _)]
    simp
  simp only [front, read_encode_append hi, hb]

/-- Decoding an encoding yields the items encoded and what follows them. -/
theorem decode_encodeAll_append {is : List (Item β τ)} (his : ∀ i ∈ is, i.body.length < F.bound)
    (l : List β) :
    F.decode (F.encodeAll is ++ l) = (is ++ (F.decode l).1, (F.decode l).2) := by
  induction is with
  | nil => simp
  | cons i is ih =>
    have hi : i.body.length < F.bound := his i (by simp)
    have hfront := front_encode_append hi (F.encodeAll is ++ l)
    rw [encodeAll_cons, List.append_assoc, decode_of_complete (complete_encode_append hi _),
      hfront, List.drop_left, ih fun j hj => his j (by simp [hj])]
    simp

lemma not_complete_nil : ¬ F.Complete [] := by
  have := F.width_pos
  simp [Complete]
  omega

@[simp] lemma decode_nil : F.decode [] = ([], []) :=
  decode_of_not_complete not_complete_nil

/-- Decoding inverts encoding. -/
theorem decode_encodeAll {is : List (Item β τ)} (his : ∀ i ∈ is, i.body.length < F.bound) :
    F.decode (F.encodeAll is) = (is, []) := by
  simpa using decode_encodeAll_append his []

end Format

end Tlv
