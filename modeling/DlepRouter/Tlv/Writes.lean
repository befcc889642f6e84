import Mathlib.Data.List.Basic
import Mathlib.Data.Nat.Notation
import Mathlib.Tactic.Lemma

/-!
# Writes to a stream

A write hands a message to a stream, which takes all of its cells, some of them or none. The other
end can tell the messages apart only if nothing is written behind a message that was cut short.
-/

namespace Tlv

variable {β : Type}

/-- A message handed to a stream, and how many of its cells were taken. -/
structure Write (β : Type) where
  cells : List β
  taken : ℕ
  taken_le : taken ≤ cells.length
  deriving DecidableEq

namespace Write

/-- A part of the message was taken, but not all of it. -/
def Cut (w : Write β) : Prop := 0 < w.taken ∧ w.taken < w.cells.length

/-- The cells that arrive at the other end. -/
def wire (ws : List (Write β)) : List β := ws.flatMap fun w => w.cells.take w.taken

/-- Writes that are taken as a whole or not at all, then at most one that is cut short, and behind
it none of which anything is taken. -/
def Untorn (ws : List (Write β)) : Prop :=
  ∃ ws₁ ws₂, ws = ws₁ ++ ws₂ ∧ (∀ w ∈ ws₁, ¬ w.Cut) ∧ ∀ w ∈ ws₂.tail, w.taken = 0

/-- A stream is not torn exactly if nothing is taken behind any write that is cut short. -/
lemma untorn_iff {ws : List (Write β)} :
    Untorn ws ↔ ∀ ws₁ w ws₂, ws = ws₁ ++ w :: ws₂ → w.Cut → ∀ v ∈ ws₂, v.taken = 0 := by
  constructor
  · rintro ⟨us₁, us₂, rfl, hwhole, htail⟩ ws₁ w ws₂ heq hcut
    rcases List.append_eq_append_iff.mp heq with ⟨as, rfl, has⟩ | ⟨cs, rfl, hcs⟩
    · cases as with
      | nil =>
        rw [List.nil_append] at has
        rwa [has] at htail
      | cons a as =>
        intro v hv
        apply htail v
        rw [has]
        exact List.mem_append_right as (List.mem_cons_of_mem w hv)
    · cases cs with
      | nil =>
        rw [List.nil_append] at hcs
        rwa [← hcs] at htail
      | cons c cs =>
        obtain ⟨rfl, -⟩ := List.cons.inj hcs
        exact absurd hcut (hwhole w (List.mem_append_right ws₁ List.mem_cons_self))
  · intro h
    induction ws with
    | nil => exact ⟨[], [], rfl, nofun, nofun⟩
    | cons w ws ih =>
      by_cases hcut : w.Cut
      · exact ⟨[], w :: ws, rfl, nofun, h [] w ws rfl hcut⟩
      · obtain ⟨ws₁, ws₂, rfl, hwhole, htail⟩ := ih fun us₁ u us₂ heq =>
          h (w :: us₁) u us₂ (congrArg (w :: ·) heq)
        refine ⟨w :: ws₁, ws₂, rfl, ?_, htail⟩
        intro v hv
        rcases List.mem_cons.mp hv with rfl | hv
        · exact hcut
        · exact hwhole v hv

lemma wire_append (ws ws' : List (Write β)) : wire (ws ++ ws') = wire ws ++ wire ws' :=
  List.flatMap_append

lemma wire_eq_nil {ws : List (Write β)} (h : ∀ w ∈ ws, w.taken = 0) : wire ws = [] := by
  apply List.flatMap_eq_nil_iff.mpr
  intro w hw
  rw [h w hw, List.take_zero]

/-- Writes that are not cut short come to whole messages. -/
lemma wire_of_not_cut {ws : List (Write β)} (h : ∀ w ∈ ws, ¬ w.Cut) :
    ∃ whole : List (Write β), (∀ w ∈ whole, w ∈ ws) ∧
      wire ws = (whole.map Write.cells).flatten := by
  induction ws with
  | nil => exact ⟨[], nofun, rfl⟩
  | cons w ws ih =>
    obtain ⟨whole, hmem, hwire⟩ := ih fun v hv => h v (List.mem_cons_of_mem w hv)
    have hsplit : wire (w :: ws) = w.cells.take w.taken ++ wire ws := List.flatMap_cons
    by_cases hzero : w.taken = 0
    · refine ⟨whole, fun v hv => List.mem_cons_of_mem w (hmem v hv), ?_⟩
      rw [hsplit, hzero, hwire, List.take_zero, List.nil_append]
    · have hall : w.cells.length ≤ w.taken := by
        apply Nat.le_of_not_lt
        intro hlt
        exact h w List.mem_cons_self ⟨Nat.pos_of_ne_zero hzero, hlt⟩
      refine ⟨w :: whole, ?_, ?_⟩
      · intro v hv
        rcases List.mem_cons.mp hv with rfl | hv
        · exact List.mem_cons_self
        · exact List.mem_cons_of_mem w (hmem v hv)
      · rw [hsplit, List.take_of_length_le hall, hwire, List.map_cons, List.flatten_cons]

/-- What arrives over a stream that is not torn: whole messages, and then the beginning of one. -/
theorem Untorn.wire {ws : List (Write β)} (h : Untorn ws) :
    ∃ (whole : List (Write β)) (part : List β), (∀ w ∈ whole, w ∈ ws) ∧
      (part = [] ∨ ∃ w ∈ ws, part <+: w.cells) ∧
      Write.wire ws = (whole.map Write.cells).flatten ++ part := by
  obtain ⟨ws₁, ws₂, rfl, hwhole, htail⟩ := h
  obtain ⟨whole, hmem, hwire⟩ := wire_of_not_cut hwhole
  have hmem' : ∀ w ∈ whole, w ∈ ws₁ ++ ws₂ := fun w hw => List.mem_append_left ws₂ (hmem w hw)
  cases ws₂ with
  | nil =>
    refine ⟨whole, [], hmem', .inl rfl, ?_⟩
    rw [List.append_nil, List.append_nil, hwire]
  | cons w ws₂ =>
    refine ⟨whole, w.cells.take w.taken, hmem', .inr ⟨w, by simp, List.take_prefix _ _⟩, ?_⟩
    have hsplit : Write.wire (w :: ws₂) = w.cells.take w.taken ++ Write.wire ws₂ :=
      List.flatMap_cons
    have hnone : Write.wire ws₂ = [] := wire_eq_nil htail
    rw [wire_append, hwire, hsplit, hnone, List.append_nil]

end Write

end Tlv
