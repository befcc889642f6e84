import Mathlib.Data.List.Count

/-!
# Sequences with multiplicities

A grammar says which items a sequence may contain, which keys may occur at most once and which
must occur. `run` checks a sequence from left to right the way a parser does, with a list of the
keys seen so far, and gives up at the first offence. `exists_run_iff` says that it accepts exactly
the sequences of the grammar, whatever their order.
-/

namespace Tlv

/-- What a sequence of items with keys may contain, and how often. -/
structure Grammar (ι κ : Type) where
  key : ι → κ
  Admits : ι → Prop
  single : κ → Bool
  tracked : κ → Bool
  required : List κ
  tracked_of_single : ∀ k, single k → tracked k
  tracked_of_required : ∀ k ∈ required, tracked k

namespace Grammar

variable {ι κ : Type} [DecidableEq κ] (G : Grammar ι κ)

/-- How often a key occurs. -/
def count (k : κ) (is : List ι) : ℕ :=
  (is.map G.key).count k

/-- The items are all admitted and no key that may occur only once is repeated. -/
def Allows (is : List ι) : Prop :=
  (∀ i ∈ is, G.Admits i) ∧ ∀ i ∈ is, G.single (G.key i) → G.count (G.key i) is ≤ 1

/-- The sequence is allowed and holds all that is required. -/
def Accepts (is : List ι) : Prop :=
  G.Allows is ∧ ∀ k ∈ G.required, k ∈ is.map G.key

/-- Check one item against the keys seen so far. -/
def step [DecidablePred G.Admits] (seen : List κ) (i : ι) : Option (List κ) :=
  if G.Admits i ∧ ¬ (G.single (G.key i) ∧ G.key i ∈ seen) then
    some (if G.tracked (G.key i) then G.key i :: seen else seen)
  else none

/-- Check a sequence from left to right. -/
def run [DecidablePred G.Admits] : List κ → List ι → Option (List κ)
  | seen, [] => some seen
  | seen, i :: is => (G.step seen i).bind fun seen' => run seen' is

variable {G}

lemma count_cons (k : κ) (i : ι) (is : List ι) :
    G.count k (i :: is) = G.count k is + if G.key i = k then 1 else 0 := by
  simp [count, List.count_cons]

lemma one_le_count_of_mem {i : ι} {is : List ι} (h : i ∈ is) : 1 ≤ G.count (G.key i) is :=
  List.one_le_count_iff.mpr (List.mem_map_of_mem h)

lemma count_pos_iff {k : κ} {is : List ι} : 0 < G.count k is ↔ k ∈ is.map G.key :=
  List.count_pos_iff

section Run

variable [DecidablePred G.Admits]

lemma step_eq_some_iff {seen seen' : List κ} {i : ι} :
    G.step seen i = some seen' ↔
      G.Admits i ∧ (G.single (G.key i) → G.key i ∉ seen) ∧
        (if G.tracked (G.key i) then G.key i :: seen else seen) = seen' := by
  simp only [step, Option.ite_none_right_eq_some, Option.some.injEq, not_and, and_assoc]

/-- The keys a successful step has seen are the old ones and, if it is tracked, the item's. -/
lemma mem_of_step {seen seen' : List κ} {i : ι} (h : G.step seen i = some seen') (k : κ) :
    k ∈ seen' ↔ k ∈ seen ∨ G.tracked k ∧ k = G.key i := by
  obtain ⟨-, -, rfl⟩ := step_eq_some_iff.mp h
  split_ifs with ht
  · constructor
    · rintro (_ | ⟨_, h⟩)
      · exact .inr ⟨ht, rfl⟩
      · exact .inl h
    · rintro (h | ⟨-, rfl⟩)
      · exact .tail _ h
      · exact .head _
  · constructor
    · exact .inl
    · rintro (h | ⟨hk, rfl⟩)
      · exact h
      · exact absurd hk ht

/-- The keys a successful run has seen are the old ones and the tracked ones of the sequence. -/
lemma mem_of_run {seen seen' : List κ} {is : List ι} (h : G.run seen is = some seen') (k : κ) :
    k ∈ seen' ↔ k ∈ seen ∨ G.tracked k ∧ k ∈ is.map G.key := by
  induction is generalizing seen with
  | nil =>
    obtain rfl : seen = seen' := by simpa [run] using h
    simp
  | cons i is ih =>
    obtain ⟨mid, hstep, hrun⟩ := Option.bind_eq_some_iff.mp h
    rw [ih hrun, mem_of_step hstep, List.map_cons, List.mem_cons]
    tauto

/-- A run succeeds when the sequence is allowed and repeats no single key seen before. -/
lemma run_isSome_iff {seen : List κ} {is : List ι} :
    (G.run seen is).isSome ↔
      G.Allows is ∧ ∀ i ∈ is, G.single (G.key i) → G.key i ∉ seen := by
  induction is generalizing seen with
  | nil => simp [run, Allows]
  | cons i is ih =>
    cases hstep : G.step seen i with
    | none =>
      have hno : ¬ (G.Admits i ∧ ¬ (G.single (G.key i) ∧ G.key i ∈ seen)) := by
        intro hyes
        rw [step, if_pos hyes] at hstep
        cases hstep
      simp only [run, hstep, Option.bind_none, Option.isSome_none, Bool.false_eq_true, false_iff]
      rintro ⟨⟨hadm, -⟩, hnew⟩
      apply hno
      refine ⟨hadm i (by simp), ?_⟩
      rintro ⟨hs, hmem⟩
      exact hnew i (by simp) hs hmem
    | some mid =>
      obtain ⟨hadm, hnew, -⟩ := step_eq_some_iff.mp hstep
      simp only [run, hstep, Option.bind_some, ih, mem_of_step hstep, Allows, List.forall_mem_cons,
        count_cons]
      constructor
      · rintro ⟨⟨hall, hcount⟩, hseen⟩
        refine ⟨⟨⟨hadm, hall⟩, ?_, ?_⟩, hnew, ?_⟩
        · intro hs
          have hnot : G.key i ∉ is.map G.key := by
            intro hmem
            obtain ⟨j, hj, hkey⟩ := List.mem_map.mp hmem
            exact hseen j hj (hkey ▸ hs) (.inr ⟨hkey ▸ G.tracked_of_single _ hs, hkey⟩)
          have : G.count (G.key i) is = 0 := List.count_eq_zero.mpr hnot
          simp [this]
        · intro j hj hs
          have hne : G.key i ≠ G.key j := by
            intro h
            exact hseen j hj hs (.inr ⟨G.tracked_of_single _ hs, h.symm⟩)
          simpa [hne] using hcount j hj hs
        · intro j hj hs h
          exact hseen j hj hs (.inl h)
      · rintro ⟨⟨⟨-, hall⟩, hcount, hcounts⟩, -, hseen⟩
        refine ⟨⟨hall, ?_⟩, ?_⟩
        · intro j hj hs
          exact Nat.le_trans (Nat.le_add_right _ _) (hcounts j hj hs)
        rintro j hj hs (h | ⟨-, h⟩)
        · exact hseen j hj hs h
        · have hone : 1 ≤ G.count (G.key j) is := one_le_count_of_mem hj
          have htwo := hcounts j hj hs
          rw [if_pos h.symm] at htwo
          omega

/-- What is said of the keys that a run has seen is said of the sequence, if it is allowed. -/
lemma exists_run_and_iff {is : List ι} {P : List κ → Prop} {Q : Prop}
    (h : ∀ seen, G.run [] is = some seen → (P seen ↔ Q)) :
    (∃ seen, G.run [] is = some seen ∧ P seen) ↔ G.Allows is ∧ Q := by
  constructor
  · rintro ⟨seen, hrun, hseen⟩
    exact ⟨(run_isSome_iff.mp (Option.isSome_of_eq_some hrun)).1, (h seen hrun).mp hseen⟩
  · rintro ⟨hallows, hQ⟩
    have hsome : (G.run [] is).isSome := run_isSome_iff.mpr ⟨hallows, by simp⟩
    obtain ⟨seen, hrun⟩ := Option.isSome_iff_exists.mp hsome
    exact ⟨seen, hrun, (h seen hrun).mpr hQ⟩

/-- Checking from left to right accepts exactly the sequences of the grammar. -/
theorem exists_run_iff {is : List ι} :
    (∃ seen, G.run [] is = some seen ∧ ∀ k ∈ G.required, k ∈ seen) ↔ G.Accepts is := by
  apply exists_run_and_iff
  intro seen hrun
  apply forall₂_congr
  intro k hk
  rw [mem_of_run hrun]
  simp [G.tracked_of_required k hk]

end Run

end Grammar

end Tlv
