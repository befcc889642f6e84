import DlepRouter.Tlv.Overrun
import DlepRouter.Tlv.Recognise

/-!
# Loops that read within bounds

A loop that recognises a grammar and whose body reads nothing but the item at the pointer reads
behind the end of its cells only in its last round, and only if the items before it were in order.
-/

namespace Tlv

open Scan

variable {β τ ω κ S : Type}

/-- The addresses from `p` on are below `e`. -/
lemma forall_range'_lt_iff {p e : ℕ} (hp : p ≤ e) (k : ℕ) :
    (∀ a ∈ List.range' p k, a < e) ↔ p + k ≤ e := by
  constructor
  · intro h
    cases k with
    | zero => exact hp
    | succ k => exact h (p + k) (List.mem_range'_1.mpr ⟨Nat.le_add_right p k, Nat.lt_succ_self _⟩)
  · intro h a ha
    exact Nat.lt_of_lt_of_le (List.mem_range'_1.mp ha).2 h

namespace Walker

variable {W : Walker β τ ω} {go : S → Bool} {body : Visit τ → S → Scan β ω S} (m : Memory β)

lemma reads_loop_of_lt {stop off : ℕ} {st : S} (h : off < stop) (hgo : go st) :
    (W.loop go body stop off st).reads m =
      List.range' off W.format.width ++ (body (W.format.visitAt m off) st).reads m ++
        (W.loop go body stop (W.format.next m off)
          ((body (W.format.visitAt m off) st).value m)).reads m := by
  rw [reads, trace_loop_of_lt m h hgo, loads_append, loads_append]
  congr 2
  exact W.reads_header m off

end Walker

/-- The fragment that decoding leaves stands right before the end of the cells. -/
lemma Format.slice_fragment {F : Format β τ} {m : Memory β} {stop off : ℕ} (hle : off ≤ stop) :
    m.slice (stop - (F.decode (m.slice off (stop - off))).2.length)
        (F.decode (m.slice off (stop - off))).2.length =
      (F.decode (m.slice off (stop - off))).2 := by
  have hlen := length_fragment_le (F := F) (m.slice off (stop - off))
  have hdrop := drop_eq_fragment (F := F) (m.slice off (stop - off))
  rw [Memory.length_slice] at hlen hdrop
  rw [Memory.drop_slice m off (Nat.sub_le ..), Nat.sub_sub_self hlen] at hdrop
  rwa [show off + (stop - off - (F.decode (m.slice off (stop - off))).2.length) =
    stop - (F.decode (m.slice off (stop - off))).2.length by omega] at hdrop

/-- How far a round reads: before `e`, from a state that stands for the keys `seen` and with the
pointer at `off`, exactly if `P seen off e`; and never behind the item at the pointer. -/
structure Bounded (W : Walker β τ ω) (m : Memory β) (body : Visit τ → S → Scan β ω S)
    (R : S → Option (List κ) → Prop) (P : List κ → ℕ → ℕ → Prop) : Prop where
  reads_lt_iff : ∀ off st seen e, R st (some seen) →
    ((∀ a ∈ (body (W.format.visitAt m off) st).reads m, a < e) ↔ P seen off e)
  within : ∀ off st seen, R st (some seen) →
    ∀ a ∈ (body (W.format.visitAt m off) st).reads m, a < W.format.next m off

namespace Recognises

open Walker

variable [DecidableEq κ] {W : Walker β τ ω} {G : Grammar (Item β τ) κ} [DecidablePred G.Admits]
  {m : Memory β} {go : S → Bool} {body : Visit τ → S → Scan β ω S} {R : S → Option (List κ) → Prop}
  {P : List κ → ℕ → ℕ → Prop}

/-- The last round of a loop that ends at `stop` stays before it. There is such a round if the cells
leave a fragment, and if nothing was wrong with the items decoded before that. -/
def LastWithin (W : Walker β τ ω) (G : Grammar (Item β τ) κ) [DecidablePred G.Admits]
    (P : List κ → ℕ → ℕ → Prop) (stop : ℕ) (seen : List κ)
    (decoded : List (Item β τ) × List β) : Prop :=
  ∀ seen', G.run seen decoded.1 = some seen' → decoded.2 ≠ [] →
    W.format.width ≤ decoded.2.length ∧ P seen' (stop - decoded.2.length) stop

/-- A loop that has begun its last round has only that round. -/
lemma lastWithin_of_lt {stop off : ℕ} (hlt : off < stop) (hnext : stop < W.format.next m off)
    (seen : List κ) :
    LastWithin W G P stop seen (W.format.decode (m.slice off (stop - off))) ↔
      off + W.format.width ≤ stop ∧ P seen off stop := by
  have hle := Nat.le_of_lt hlt
  have hne : m.slice off (stop - off) ≠ [] := by
    apply List.ne_nil_of_length_pos
    rw [Memory.length_slice]
    exact Nat.sub_pos_of_lt hlt
  rw [Format.decode_slice_of_lt (by rwa [Nat.add_sub_cancel' hle])]
  simp only [LastWithin, Grammar.run, Option.some.injEq, Memory.length_slice, Nat.sub_sub_self hle,
    Nat.le_sub_iff_add_le' hle]
  constructor
  · intro h
    exact h seen rfl hne
  · rintro h _ rfl _
    exact h

/-- A loop reads only before the end of its cells exactly if its last round does. -/
theorem reads_lt_iff (h : Recognises W G m go body R) (hbody : Bounded W m body R P)
    {stop off : ℕ} (hle : off ≤ stop) {st : S} {seen : List κ} (hst : R st (some seen)) :
    (∀ a ∈ (W.loop go body stop off st).reads m, a < stop) ↔
      LastWithin W G P stop seen (W.format.decode (m.slice off (stop - off))) := by
  induction off using Format.walk_induction W.format m stop generalizing st seen with
  | round off hlt ih =>
    have hstep := h.step off st seen hst
    have hwidth : off + W.format.width ≤ W.format.next m off := Nat.le_add_right _ _
    rw [reads_loop_of_lt m hlt (h.go_eq _ _ hst), List.forall_mem_append, List.forall_mem_append,
      forall_range'_lt_iff hle]
    by_cases hnext : W.format.next m off ≤ stop
    · have hheader := Nat.le_trans hwidth hnext
      have hround : ∀ a ∈ (body (W.format.visitAt m off) st).reads m, a < stop := by
        intro a ha
        exact Nat.lt_of_lt_of_le (hbody.within off st seen hst a ha) hnext
      have hdecode := Format.decode_slice_of_le (F := W.format) (m := m) (n := stop - off)
        (by rwa [Nat.add_sub_cancel' hle])
      rw [Nat.add_sub_cancel' hle] at hdecode
      rw [and_iff_right ⟨hheader, hround⟩, hdecode]
      cases hr : G.step seen (W.format.itemAt m off) with
      | none =>
        rw [hr] at hstep
        rw [loop_of_not_go (h.go_eq _ _ hstep)]
        apply iff_of_true (List.forall_mem_nil _)
        intro seen' hrun
        rw [Grammar.run, hr] at hrun
        cases hrun
      | some seen1 =>
        rw [hr] at hstep
        rw [ih hnext hstep]
        simp only [LastWithin, Grammar.run, hr, Option.bind_some]
    · have hlt' := Nat.lt_of_not_le hnext
      rw [loop_of_le (Nat.le_of_lt hlt'), hbody.reads_lt_iff off st seen stop hst,
        lastWithin_of_lt hlt hlt']
      exact and_iff_left (List.forall_mem_nil _)
  | done off hge =>
    obtain rfl : off = stop := Nat.le_antisymm hle hge
    rw [loop_of_le hge, Nat.sub_self]
    apply iff_of_true (List.forall_mem_nil _)
    intro seen' _ hne
    simp at hne

end Recognises

end Tlv
