import DlepRouter.Tlv.Walk

/-!
# Walks over a received prefix

A walk over the cells received visits the complete items among them and, where those leave a
fragment, one item whose missing cells lie behind. What that item is depends on cells that were
not received: it may be any item that the fragment is a proper prefix of.
-/

namespace Tlv

open Memory

namespace Format

variable {β τ : Type} {F : Format β τ}

/-- Cells behind a fragment complete it to an item. -/
def Completes (F : Format β τ) (fragment : List β) (i : Item β τ) : Prop :=
  i.body.length < F.bound ∧ ∃ missing, missing ≠ [] ∧ fragment ++ missing = F.encode i

/-- A fragment is completed to an item if it is a beginning of the header, or holds the header and
a proper beginning of the body. -/
lemma completes_iff {fragment : List β} {i : Item β τ} :
    F.Completes fragment i ↔ i.body.length < F.bound ∧
      (fragment.length < F.width ∧ fragment <+: F.write i.tag i.body.length ∨
        ∃ f, fragment = F.write i.tag i.body.length ++ f ∧ f.length < i.body.length ∧
          f <+: i.body) := by
  have hwidth := F.length_write i.tag i.body.length
  apply and_congr_right
  intro _
  constructor
  · rintro ⟨missing, hne, happ⟩
    have hpos := List.length_pos_iff.mpr hne
    rcases List.append_eq_append_iff.mp happ with ⟨a, hheader, -⟩ | ⟨f, hfragment, hbody⟩
    · by_cases ha : a = []
      · rw [ha, List.append_nil] at hheader
        have hlen := congrArg List.length happ
        rw [List.length_append, length_encode, ← hheader, hwidth] at hlen
        exact .inr ⟨[], by rw [hheader, List.append_nil], by simp; omega, List.nil_prefix⟩
      · have hlen := congrArg List.length hheader
        have hapos := List.length_pos_iff.mpr ha
        rw [hwidth, List.length_append] at hlen
        exact .inl ⟨by omega, a, hheader.symm⟩
    · have hlen := congrArg List.length hbody
      rw [List.length_append] at hlen
      exact .inr ⟨f, hfragment, by omega, missing, hbody.symm⟩
  · rintro (⟨hlen, a, hheader⟩ | ⟨f, rfl, hlen, missing, hbody⟩)
    · refine ⟨a ++ i.body, ?_, by rw [encode, ← List.append_assoc, hheader]⟩
      have hlen' := congrArg List.length hheader
      rw [hwidth, List.length_append] at hlen'
      exact List.append_ne_nil_of_left_ne_nil (List.ne_nil_of_length_pos (by omega)) _
    · refine ⟨missing, ?_, by rw [encode, List.append_assoc, hbody]⟩
      have hlen' := congrArg List.length hbody
      rw [List.length_append] at hlen'
      exact List.ne_nil_of_length_pos (by omega)

section ItemAt

variable {m : Memory β} {off : ℕ}

lemma length_itemAt_lt : (F.itemAt m off).body.length < F.bound := by
  rw [itemAt, length_slice]
  exact F.read_lt _ (length_slice ..)

/-- The item at a pointer is encoded by the cells up to the next one. -/
lemma encode_itemAt :
    F.encode (F.itemAt m off) = m.slice off (F.width + (F.visitAt m off).len) := by
  have hcomplete : F.Complete (m.slice off (F.width + (F.visitAt m off).len)) :=
    complete_slice_iff.mpr (Nat.le_refl _)
  rw [← front_slice hcomplete, encode_front hcomplete, List.take_of_length_le]
  rw [take_slice m off (Nat.le_add_right _ _), length_slice]
  exact Nat.le_refl _

lemma le_walkEnd (stop off : ℕ) : off ≤ F.walkEnd m stop off := by
  induction off using walk_induction F m stop with
  | round off h ih =>
    rw [walkEnd_of_lt h]
    exact Nat.le_trans (Nat.le_of_lt (F.lt_next m off)) ih
  | done off h => rw [walkEnd_of_le h]

/-- The items of a walk are encoded by the cells it goes over. -/
lemma encodeAll_items (stop off : ℕ) :
    F.encodeAll (F.items m stop off) = m.slice off (F.walkEnd m stop off - off) := by
  induction off using walk_induction F m stop with
  | round off h ih =>
    have hle := le_walkEnd (F := F) (m := m) stop (F.next m off)
    have hnext : F.next m off = off + (F.width + (F.visitAt m off).len) := Nat.add_assoc ..
    rw [items_of_lt h, encodeAll_cons, ih, encode_itemAt, walkEnd_of_lt h, hnext, ← slice_add]
    rw [hnext] at hle
    congr 1
    omega
  | done off h => rw [items_of_le h, walkEnd_of_le h, Nat.sub_self, slice_zero, encodeAll_nil]

/-- Where the encoding of an item stands, that item is read. -/
lemma itemAt_of_slice {i : Item β τ} (hi : i.body.length < F.bound)
    (h : m.slice off (F.encode i).length = F.encode i) : F.itemAt m off = i := by
  have hcomplete := complete_encode_append hi []
  rw [List.append_nil, ← h] at hcomplete
  have hfront := front_encode_append hi []
  rwa [List.append_nil, ← h, front_slice hcomplete] at hfront

end ItemAt

/-! ### Items over a prefix -/

section Prefix

variable {bs : List β} {off : ℕ}

lemma length_fragment_le (l : List β) : (F.decode l).2.length ≤ l.length := by
  have hlen := congrArg List.length (encodeAll_decode (F := F) l)
  rw [List.length_append] at hlen
  omega

/-- The cells that decoding leaves are the last ones. -/
lemma drop_eq_fragment (l : List β) :
    l.drop (l.length - (F.decode l).2.length) = (F.decode l).2 := by
  have happ := encodeAll_decode (F := F) l
  have hlen := congrArg List.length happ
  rw [List.length_append] at hlen
  conv_lhs => rw [← happ]
  exact List.drop_left' (by rw [happ]; omega)

variable (h : off ≤ bs.length)
include h

lemma slice_overlay_payload (rest : Memory β) :
    (overlay bs rest).slice off (bs.length - off) = bs.drop off := by
  rw [slice_overlay (by omega), List.take_of_length_le (by simp)]

/-- The fragment stands where the last item of a walk begins. -/
lemma slice_overlay_fragment (rest : Memory β) :
    (overlay bs rest).slice (bs.length - (F.decode (bs.drop off)).2.length)
      (F.decode (bs.drop off)).2.length = (F.decode (bs.drop off)).2 := by
  have hle := length_fragment_le (F := F) (bs.drop off)
  have hdrop := drop_eq_fragment (F := F) (bs.drop off)
  rw [List.length_drop] at hle hdrop
  have hq : off + (bs.length - off - (F.decode (bs.drop off)).2.length) =
      bs.length - (F.decode (bs.drop off)).2.length := by
    omega
  rw [List.drop_drop, hq] at hdrop
  rw [slice_overlay (by omega), hdrop, List.take_length]

/-- Where decoding leaves no fragment, the cells behind do not matter. -/
lemma items_overlay_of_tiles (hf : (F.decode (bs.drop off)).2 = []) (rest : Memory β) :
    F.items (overlay bs rest) bs.length off = (F.decode (bs.drop off)).1 := by
  rw [items_eq h, slice_overlay_payload h, hf, overrun, if_pos rfl, List.append_nil]

/-- Otherwise one more item is found, which the fragment is the beginning of. -/
lemma items_overlay (hf : (F.decode (bs.drop off)).2 ≠ []) (rest : Memory β) :
    ∃ i, F.Completes (F.decode (bs.drop off)).2 i ∧
      F.items (overlay bs rest) bs.length off = (F.decode (bs.drop off)).1 ++ [i] := by
  refine ⟨_, ⟨length_itemAt_lt, ?_⟩, by
    rw [items_eq h, slice_overlay_payload h, overrun, if_neg hf]⟩
  have hnot := decode_fragment_not_complete (bs.drop off) hf
  rw [← slice_overlay_fragment h rest, complete_slice_iff] at hnot
  obtain ⟨d, hd⟩ := Nat.exists_eq_add_of_lt (Nat.lt_of_not_le hnot)
  rw [encode_itemAt, hd, Nat.add_assoc, slice_add, slice_overlay_fragment h rest]
  refine ⟨_, ?_, rfl⟩
  exact List.ne_nil_of_length_pos (by simp)

/-- Any item that the fragment is the beginning of is found over some cells behind. -/
lemma exists_items_overlay {i : Item β τ} (hi : F.Completes (F.decode (bs.drop off)).2 i)
    (hf : (F.decode (bs.drop off)).2 ≠ []) :
    ∃ rest, F.items (overlay bs rest) bs.length off = (F.decode (bs.drop off)).1 ++ [i] := by
  obtain ⟨hbound, missing, -, happ⟩ := hi
  obtain ⟨c, hc⟩ := List.exists_mem_of_ne_nil _ hf
  let rest : Memory β := patch (fun _ => c) bs.length missing
  have hle := length_fragment_le (F := F) (bs.drop off)
  rw [List.length_drop] at hle
  have hbehind : (overlay bs rest).slice bs.length missing.length = missing := by
    rw [slice_congr fun j _ => overlay_of_le (Nat.le_add_right _ j)]
    exact slice_patch _ _ _
  refine ⟨rest, ?_⟩
  rw [items_eq h, slice_overlay_payload h, overrun, if_neg hf]
  congr 2
  apply itemAt_of_slice hbound
  rw [← happ, List.length_append, slice_add, slice_overlay_fragment h rest,
    Nat.sub_add_cancel (by omega), hbehind]

end Prefix

end Format

end Tlv
