import DlepRouter.Tlv.Grammar
import DlepRouter.Tlv.Scan

/-!
# Loops that recognise a grammar

A loop over items that leaves at the first offence and whose body checks one item like
`Grammar.step` runs the grammar on the items of the walk. What the loop keeps instead of a list of
keys, such as a flag for each of them, is related to that list by `R`.
-/

namespace Tlv

open Scan

variable {β τ ω κ S : Type} [DecidableEq κ]

/-- On the memory `m`, each round checks one item as the grammar does and emits nothing, and the
loop goes on as long as nothing was wrong. -/
structure Recognises (W : Walker β τ ω) (G : Grammar (Item β τ) κ) [DecidablePred G.Admits]
    (m : Memory β) (go : S → Bool) (body : Visit τ → S → Scan β ω S)
    (R : S → Option (List κ) → Prop) : Prop where
  go_eq : ∀ st r, R st r → go st = r.isSome
  step : ∀ off st seen, R st (some seen) →
    R ((body (W.format.visitAt m off) st).value m) (G.step seen (W.format.itemAt m off))
  silent : ∀ v st, (body v st).outputs m = []

namespace Recognises

variable {W : Walker β τ ω} {G : Grammar (Item β τ) κ} [DecidablePred G.Admits] {m : Memory β}
  {go : S → Bool} {body : Visit τ → S → Scan β ω S} {R : S → Option (List κ) → Prop}

/-- The loop ends in a state that stands for the result of the grammar's run. -/
theorem value (h : Recognises W G m go body R) (stop off : ℕ) {st : S} {seen : List κ}
    (hst : R st (some seen)) :
    R ((W.loop go body stop off st).value m).2 (G.run seen (W.format.items m stop off)) := by
  induction off using Format.walk_induction W.format m stop generalizing st seen with
  | round off hlt ih =>
    have hstep := h.step off st seen hst
    rw [Walker.value_loop_of_lt m hlt (h.go_eq _ _ hst), Format.items_of_lt hlt, Grammar.run]
    cases hr : G.step seen (W.format.itemAt m off) with
    | none =>
      rw [hr] at hstep
      rw [Walker.loop_of_not_go (h.go_eq _ _ hstep), value_ret]
      exact hstep
    | some seen' =>
      rw [hr] at hstep
      exact ih hstep
  | done off hle =>
    rw [Walker.loop_of_le hle, value_ret, Format.items_of_le hle]
    exact hst

/-- Without an offence the loop ends where the walk ends. -/
theorem pointer (h : Recognises W G m go body R) (stop off : ℕ) {st : S} {seen : List κ}
    (hst : R st (some seen)) (hrun : (G.run seen (W.format.items m stop off)).isSome) :
    ((W.loop go body stop off st).value m).1 = W.format.walkEnd m stop off := by
  induction off using Format.walk_induction W.format m stop generalizing st seen with
  | round off hlt ih =>
    have hstep := h.step off st seen hst
    rw [Walker.value_loop_of_lt m hlt (h.go_eq _ _ hst), Format.walkEnd_of_lt hlt]
    rw [Format.items_of_lt hlt, Grammar.run] at hrun
    obtain ⟨seen', hr⟩ := Option.isSome_iff_exists.mp (Option.isSome_of_isSome_bind hrun)
    rw [hr] at hstep hrun
    exact ih hstep hrun
  | done off hle =>
    rw [Walker.loop_of_le hle, value_ret, Format.walkEnd_of_le hle]

/-- Without an offence the loop visits the whole walk. -/
theorem outputs (h : Recognises W G m go body R) (stop off : ℕ) {st : S} {seen : List κ}
    (hst : R st (some seen)) (hrun : (G.run seen (W.format.items m stop off)).isSome) :
    (W.loop go body stop off st).outputs m = (W.format.walk m stop off).map W.mark := by
  induction off using Format.walk_induction W.format m stop generalizing st seen with
  | round off hlt ih =>
    have hstep := h.step off st seen hst
    rw [Walker.outputs_loop_of_lt m hlt (h.go_eq _ _ hst), Format.walk_of_lt hlt, h.silent]
    rw [Format.items_of_lt hlt, Grammar.run] at hrun
    obtain ⟨seen', hr⟩ := Option.isSome_iff_exists.mp (Option.isSome_of_isSome_bind hrun)
    rw [hr] at hstep hrun
    rw [ih hstep hrun, List.map_cons]
    rfl
  | done off hle =>
    rw [Walker.loop_of_le hle, outputs_ret, Format.walk_of_le hle, List.map_nil]

end Recognises

end Tlv
