import DlepRouter.Tlv.Format

/-!
# Walking over items in memory

The pointer walk that C code makes over a payload: read a header, step over it and over as many
cells as it declares, and go on while the pointer stands before the end. Only the start of an
item is compared with the end, so the last item may run past it. `items_eq` relates the walk to
`decode`: it visits the complete items of the payload and, if they leave a fragment, one more
item whose missing cells come from behind the payload.
-/

namespace Tlv

variable {β τ : Type}

/-- One round of a walk: where a header stands, and the tag and length read there. -/
structure Visit (τ : Type) where
  off : ℕ
  tag : τ
  len : ℕ
  deriving DecidableEq

namespace Format

variable (F : Format β τ) (m : Memory β)

/-- What is read when a header is taken to stand at `off`. -/
def visitAt (off : ℕ) : Visit τ :=
  ⟨off, (F.read (m.slice off F.width)).1, (F.read (m.slice off F.width)).2⟩

/-- The address behind the item at `off`. -/
def next (off : ℕ) : ℕ :=
  off + F.width + (F.visitAt m off).len

/-- The item at `off`, its body taken from memory at the length its header declares. -/
def itemAt (off : ℕ) : Item β τ :=
  ⟨(F.visitAt m off).tag, m.slice (off + F.width) (F.visitAt m off).len⟩

lemma lt_next (off : ℕ) : off < F.next m off := by
  have := F.width_pos
  unfold next
  omega

/-- The rounds of a walk from `off` that goes on while the pointer stands before `stop`. -/
def walk (stop off : ℕ) : List (Visit τ) :=
  if off < stop then F.visitAt m off :: walk stop (F.next m off) else []
termination_by stop - off
decreasing_by
  have := F.lt_next m off
  omega

/-- Where that walk leaves the pointer. -/
def walkEnd (stop off : ℕ) : ℕ :=
  if off < stop then walkEnd stop (F.next m off) else off
termination_by stop - off
decreasing_by
  have := F.lt_next m off
  omega

/-- The items a walk visits. -/
def items (stop off : ℕ) : List (Item β τ) :=
  (F.walk m stop off).map fun v => F.itemAt m v.off

/-- Headers and declared lengths tile the cells from `off` to `stop` exactly. -/
inductive Tiles : ℕ → ℕ → Prop where
  | done (off : ℕ) : Tiles off off
  | item {off stop : ℕ} : F.next m off ≤ stop → Tiles (F.next m off) stop → Tiles off stop

variable {F m}

lemma walk_of_lt {stop off : ℕ} (h : off < stop) :
    F.walk m stop off = F.visitAt m off :: F.walk m stop (F.next m off) := by
  rw [walk, if_pos h]

lemma walk_of_le {stop off : ℕ} (h : stop ≤ off) : F.walk m stop off = [] := by
  rw [walk, if_neg (Nat.not_lt.mpr h)]

lemma walkEnd_of_lt {stop off : ℕ} (h : off < stop) :
    F.walkEnd m stop off = F.walkEnd m stop (F.next m off) := by
  rw [walkEnd, if_pos h]

lemma walkEnd_of_le {stop off : ℕ} (h : stop ≤ off) : F.walkEnd m stop off = off := by
  rw [walkEnd, if_neg (Nat.not_lt.mpr h)]

lemma items_of_lt {stop off : ℕ} (h : off < stop) :
    F.items m stop off = F.itemAt m off :: F.items m stop (F.next m off) := by
  rw [items, walk_of_lt h, List.map_cons, items]
  rfl

@[simp] lemma items_of_le {stop off : ℕ} (h : stop ≤ off) : F.items m stop off = [] := by
  rw [items, walk_of_le h, List.map_nil]

/-- A property of the pointer that every round keeps holds along the whole walk. -/
lemma walk_induction (F : Format β τ) (m : Memory β) (stop : ℕ) {P : ℕ → Prop}
    (round : ∀ off, off < stop → P (F.next m off) → P off)
    (done : ∀ off, stop ≤ off → P off) (off : ℕ) : P off := by
  by_cases h : off < stop
  · exact round off h (walk_induction F m stop round done _)
  · exact done off (Nat.le_of_not_lt h)
termination_by stop - off
decreasing_by
  have := F.lt_next m off
  omega

/-- The rounds of a walk are visits, each with its pointer before the end. -/
lemma eq_visitAt_of_mem_walk {stop off : ℕ} {v : Visit τ} (h : v ∈ F.walk m stop off) :
    v = F.visitAt m v.off ∧ v.off < stop := by
  induction off using walk_induction F m stop with
  | round off hlt ih =>
    rw [walk_of_lt hlt] at h
    rcases List.mem_cons.mp h with rfl | h
    · exact ⟨rfl, hlt⟩
    · exact ih h
  | done off hle => simp [walk_of_le hle] at h

/-- The item of a round has the tag and the length that were read there. -/
lemma itemAt_of_mem_walk {stop off : ℕ} {v : Visit τ} (h : v ∈ F.walk m stop off) :
    F.itemAt m v.off = ⟨v.tag, m.slice (v.off + F.width) v.len⟩ := by
  have hv := (eq_visitAt_of_mem_walk h).1
  rw [itemAt, ← hv]

lemma itemAt_mem_items {stop off : ℕ} {v : Visit τ} (h : v ∈ F.walk m stop off) :
    F.itemAt m v.off ∈ F.items m stop off :=
  List.mem_map_of_mem h

/-- A walk ends: every round consumes at least a header, save that the last may run over. -/
lemma length_walk_le (stop off : ℕ) :
    F.width * (F.walk m stop off).length ≤ stop - off + (F.width - 1) := by
  induction off using walk_induction F m stop with
  | round off hlt ih =>
    have hw := F.width_pos
    have hn : off + F.width ≤ F.next m off := Nat.le_add_right _ _
    rw [walk_of_lt hlt, List.length_cons, Nat.mul_succ]
    by_cases hle : stop ≤ F.next m off
    · simp only [walk_of_le hle, List.length_nil, Nat.mul_zero]
      omega
    · omega
  | done off hle => simp [walk_of_le hle]

lemma tiles_iff_walkEnd {stop off : ℕ} :
    F.Tiles m off stop ↔ off ≤ stop ∧ F.walkEnd m stop off = stop := by
  constructor
  · intro h
    induction h with
    | done off => exact ⟨Nat.le_refl _, walkEnd_of_le (Nat.le_refl _)⟩
    | @item off stop hle _ ih =>
      have hlt : off < stop := Nat.lt_of_lt_of_le (F.lt_next m off) hle
      exact ⟨Nat.le_of_lt hlt, by rw [walkEnd_of_lt hlt, ih.2]⟩
  · rintro ⟨hle, hend⟩
    induction off using walk_induction F m stop with
    | round off h ih =>
      rw [walkEnd_of_lt h] at hend
      have hnext : F.next m off ≤ stop := by
        by_contra hn
        rw [walkEnd_of_le (Nat.le_of_not_le hn)] at hend
        omega
      exact .item hnext (ih hnext hend)
    | done off h =>
      obtain rfl : off = stop := Nat.le_antisymm hle h
      exact .done off

/-- Where the cells tile, every item ends before the end. -/
lemma end_le_of_tiles {stop off : ℕ} (h : F.Tiles m off stop) {v : Visit τ}
    (hv : v ∈ F.walk m stop off) : v.off + F.width + v.len ≤ stop := by
  induction h with
  | done off => simp [walk_of_le] at hv
  | @item off stop hle _ ih =>
    rw [walk_of_lt (Nat.lt_of_lt_of_le (F.lt_next m off) hle)] at hv
    rcases List.mem_cons.mp hv with rfl | hv
    · exact hle
    · exact ih hv

/-! ### The walk and the decoder -/

lemma complete_slice_iff {off n : ℕ} :
    F.Complete (m.slice off n) ↔ F.width + (F.visitAt m off).len ≤ n := by
  rcases Nat.lt_or_ge n F.width with h | h
  · simp only [Complete, Memory.length_slice]
    omega
  · simp only [Complete, Memory.length_slice, Memory.take_slice m off h, visitAt]

lemma front_slice {off n : ℕ} (h : F.Complete (m.slice off n)) :
    F.front (m.slice off n) = F.itemAt m off := by
  rw [complete_slice_iff] at h
  have hw : F.width ≤ n := Nat.le_trans (Nat.le_add_right ..) h
  have hlen : (F.read (m.slice off F.width)).2 ≤ n - F.width := Nat.le_sub_of_add_le' h
  simp only [front, itemAt, visitAt, Memory.take_slice m off hw, Memory.drop_slice m off hw,
    Memory.take_slice m _ hlen]

lemma length_encode_itemAt (off : ℕ) :
    (F.encode (F.itemAt m off)).length = F.width + (F.visitAt m off).len := by
  simp [itemAt]

lemma decode_slice_of_le {off n : ℕ} (h : F.next m off ≤ off + n) :
    F.decode (m.slice off n) =
      (F.itemAt m off :: (F.decode (m.slice (F.next m off) (off + n - F.next m off))).1,
        (F.decode (m.slice (F.next m off) (off + n - F.next m off))).2) := by
  have hle : F.width + (F.visitAt m off).len ≤ n := by
    unfold next at h
    omega
  have hc : F.Complete (m.slice off n) := complete_slice_iff.mpr hle
  rw [decode_of_complete hc, front_slice hc, length_encode_itemAt, Memory.drop_slice m off hle]
  rw [show off + n - F.next m off = n - (F.width + (F.visitAt m off).len) by unfold next; omega,
    show F.next m off = off + (F.width + (F.visitAt m off).len) by unfold next; omega]

lemma decode_slice_of_lt {off n : ℕ} (h : off + n < F.next m off) :
    F.decode (m.slice off n) = ([], m.slice off n) := by
  apply decode_of_not_complete
  intro hc
  rw [complete_slice_iff] at hc
  unfold next at h
  omega

/-- The item a walk reads at a fragment that `n` cells from `off` on leave, if there is one. -/
def overrun (F : Format β τ) (m : Memory β) (stop : ℕ) (fragment : List β) : List (Item β τ) :=
  if fragment = [] then [] else [F.itemAt m (stop - fragment.length)]

/-- A walk visits the complete items and then, past them, the item that starts in the fragment. -/
theorem items_eq {stop off : ℕ} (h : off ≤ stop) :
    F.items m stop off =
      (F.decode (m.slice off (stop - off))).1 ++
        F.overrun m stop (F.decode (m.slice off (stop - off))).2 := by
  induction off using walk_induction F m stop with
  | round off hlt ih =>
    rw [items_of_lt hlt]
    by_cases hn : F.next m off ≤ stop
    · rw [decode_slice_of_le (by rwa [Nat.add_sub_cancel' h]), ih hn, List.cons_append,
        Nat.add_sub_cancel' h]
    · have hlt' := Nat.lt_of_not_le hn
      rw [decode_slice_of_lt (by rwa [Nat.add_sub_cancel' h]), items_of_le (Nat.le_of_lt hlt')]
      have hne : m.slice off (stop - off) ≠ [] := by
        rw [← List.length_pos_iff]
        simp
        omega
      rw [overrun, if_neg hne, Memory.length_slice, Nat.sub_sub_self h]
      rfl
  | done off hle =>
    obtain rfl : off = stop := Nat.le_antisymm h hle
    simp [overrun]

/-- The cells tile exactly when decoding leaves no fragment. -/
theorem tiles_iff_decode {stop off : ℕ} (h : off ≤ stop) :
    F.Tiles m off stop ↔ (F.decode (m.slice off (stop - off))).2 = [] := by
  rw [tiles_iff_walkEnd, and_iff_right h]
  induction off using walk_induction F m stop with
  | round off hlt ih =>
    rw [walkEnd_of_lt hlt]
    by_cases hn : F.next m off ≤ stop
    · rw [decode_slice_of_le (by rwa [Nat.add_sub_cancel' h]), ih hn, Nat.add_sub_cancel' h]
    · have hlt' := Nat.lt_of_not_le hn
      rw [decode_slice_of_lt (by rwa [Nat.add_sub_cancel' h]), walkEnd_of_le (Nat.le_of_lt hlt')]
      have hne : m.slice off (stop - off) ≠ [] := by
        rw [← List.length_pos_iff]
        simp
        omega
      simp only [hne, iff_false]
      omega
  | done off hle =>
    obtain rfl : off = stop := Nat.le_antisymm h hle
    simp [walkEnd_of_le]

lemma items_eq_of_tiles {stop off : ℕ} (h : F.Tiles m off stop) :
    F.items m stop off = (F.decode (m.slice off (stop - off))).1 := by
  have hle : off ≤ stop := (tiles_iff_walkEnd.mp h).1
  rw [items_eq hle, (tiles_iff_decode hle).mp h, overrun, if_pos rfl, List.append_nil]

end Format

end Tlv
