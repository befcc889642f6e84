import Mathlib.Data.List.Basic
import Mathlib.Data.List.Range

/-!
# Memories and slices

A memory gives a cell to every address. What a program received is a prefix of its memory; the
cells behind the prefix are arbitrary, and `overlay` puts a known prefix over an unknown rest.
-/

namespace Tlv

variable {β : Type}

/-- A cell for every address. -/
abbrev Memory (β : Type) := ℕ → β

namespace Memory

/-- The `n` cells from `off` on. -/
def slice (m : Memory β) (off n : ℕ) : List β :=
  (List.range' off n).map m

@[simp] lemma length_slice (m : Memory β) (off n : ℕ) : (m.slice off n).length = n := by
  simp [slice]

@[simp] lemma slice_zero (m : Memory β) (off : ℕ) : m.slice off 0 = [] := rfl

lemma slice_succ (m : Memory β) (off n : ℕ) :
    m.slice off (n + 1) = m off :: m.slice (off + 1) n := rfl

lemma slice_add (m : Memory β) (off n k : ℕ) :
    m.slice off (n + k) = m.slice off n ++ m.slice (off + n) k := by
  simp [slice, ← List.map_append]

@[simp] lemma getElem_slice (m : Memory β) (off n i : ℕ) (h : i < (m.slice off n).length) :
    (m.slice off n)[i] = m (off + i) := by
  simp [slice]

lemma take_slice (m : Memory β) (off : ℕ) {n k : ℕ} (h : k ≤ n) :
    (m.slice off n).take k = m.slice off k := by
  obtain ⟨d, rfl⟩ := Nat.exists_eq_add_of_le h
  rw [slice_add, List.take_left' (length_slice m off k)]

lemma drop_slice (m : Memory β) (off : ℕ) {n k : ℕ} (h : k ≤ n) :
    (m.slice off n).drop k = m.slice (off + k) (n - k) := by
  obtain ⟨d, rfl⟩ := Nat.exists_eq_add_of_le h
  rw [slice_add, List.drop_left' (length_slice m off k), Nat.add_sub_cancel_left]

lemma slice_congr {m m' : Memory β} {off off' n : ℕ}
    (h : ∀ i < n, m (off + i) = m' (off' + i)) : m.slice off n = m'.slice off' n := by
  apply List.ext_getElem (by simp)
  intro i hi _
  simp only [getElem_slice]
  exact h i (by simpa using hi)

lemma eq_of_slice_eq {m m' : Memory β} {p n a : ℕ} (h : m.slice p n = m'.slice p n) (hp : p ≤ a)
    (hn : a < p + n) : m a = m' a := by
  have hi : a - p < n := by omega
  have hcell := congrArg (·[a - p]?) h
  simpa [slice, hi, Nat.add_sub_cancel' hp] using hcell

/-- The cells of `bs`, and those of `rest` at every address behind them. -/
def overlay (bs : List β) (rest : Memory β) : Memory β :=
  fun i => bs[i]?.getD (rest i)

lemma overlay_of_lt {bs : List β} {rest : Memory β} {i : ℕ} (h : i < bs.length) :
    overlay bs rest i = bs[i] := by
  simp [overlay, h]

lemma overlay_of_le {bs : List β} {rest : Memory β} {i : ℕ} (h : bs.length ≤ i) :
    overlay bs rest i = rest i := by
  simp [overlay, h]

lemma slice_overlay {bs : List β} {rest : Memory β} {off n : ℕ} (h : off + n ≤ bs.length) :
    (overlay bs rest).slice off n = (bs.drop off).take n := by
  apply List.ext_getElem (by simp; omega)
  intro i hi _
  simp only [length_slice] at hi
  rw [getElem_slice, overlay_of_lt (by omega)]
  simp

@[simp] lemma slice_overlay_self (bs : List β) (rest : Memory β) :
    (overlay bs rest).slice 0 bs.length = bs := by
  rw [slice_overlay (by omega)]
  simp

/-- Overwrite the cells from `off` on, as `memcpy` does. -/
def patch (m : Memory β) (off : ℕ) (bs : List β) : Memory β :=
  fun i => if off ≤ i then bs[i - off]?.getD (m i) else m i

lemma patch_of_lt (m : Memory β) {off i : ℕ} (bs : List β) (h : i < off) :
    m.patch off bs i = m i := by
  simp [patch, Nat.not_le.mpr h]

lemma patch_of_le (m : Memory β) {off i : ℕ} (bs : List β) (h : off + bs.length ≤ i) :
    m.patch off bs i = m i := by
  rw [patch, if_pos (Nat.le_of_add_right_le h),
    List.getElem?_eq_none (Nat.le_sub_of_add_le' h), Option.getD_none]

/-- What was written is read back. -/
lemma slice_patch (m : Memory β) (off : ℕ) (bs : List β) :
    (m.patch off bs).slice off bs.length = bs := by
  apply List.ext_getElem (by simp)
  intro i hi _
  have hlt : i < bs.length := by simpa using hi
  rw [getElem_slice]
  simp [patch, hlt]

/-- A write behind the cells read leaves them as they are. -/
lemma slice_patch_of_le (m : Memory β) {off p n : ℕ} (bs : List β) (h : p + n ≤ off) :
    (m.patch off bs).slice p n = m.slice p n :=
  slice_congr fun i hi => patch_of_lt m bs (by omega)

/-- So does a write before them. -/
lemma slice_patch_of_ge (m : Memory β) {off p n : ℕ} (bs : List β) (h : off + bs.length ≤ p) :
    (m.patch off bs).slice p n = m.slice p n :=
  slice_congr fun i _ => patch_of_le m bs (by omega)

/-- The same write twice is one write. -/
lemma patch_patch (m : Memory β) (off : ℕ) (bs : List β) :
    (m.patch off bs).patch off bs = m.patch off bs := by
  funext i
  rcases Nat.lt_or_ge i off with hlt | hge
  · rw [patch_of_lt _ _ hlt]
  · rcases Nat.lt_or_ge i (off + bs.length) with h | h
    · simp [patch, hge, show i - off < bs.length by omega]
    · rw [patch_of_le _ _ h]

/-- What is written at the start lies over the rest. -/
lemma patch_zero (m : Memory β) (bs : List β) : m.patch 0 bs = overlay bs m := by
  funext i
  simp [patch, overlay]

end Memory

end Tlv
