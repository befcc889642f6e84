import DlepRouter.Tlv.Scan
import Mathlib.Data.List.Induction

/-!
# Scans that overwrite

A scan that keeps a value and overwrites it at some of the items ends with what the last of those
items says. What the items before that one said is lost, and what was there first is left only if
there is no such item.
-/

namespace Tlv

variable {α S γ : Type} {step : S → α → S} {f : S → γ} {p : α → Prop} [DecidablePred p] {g : α → γ}

/-- The last write wins. -/
theorem foldl_overwrite {l : List α} (h : ∀ s, ∀ a ∈ l, f (step s a) = if p a then g a else f s)
    (s : S) : f (l.foldl step s) = ((l.filter p).getLast?.map g).getD (f s) := by
  induction l using List.reverseRecOn with
  | nil => rfl
  | append_singleton l a ih =>
    have hlast := h (l.foldl step s) a (List.mem_append_right l (List.mem_singleton_self a))
    have ih := ih fun s b hb => h s b (List.mem_append_left [a] hb)
    rw [List.foldl_append, List.foldl_cons, List.foldl_nil, hlast, List.filter_append]
    by_cases hp : p a
    · simp [hp]
    · simp [hp, ih]

/-- What a scan keeps of the only item that it looks at. -/
lemma foldl_overwrite_of_only (h : ∀ s a, f (step s a) = if p a then g a else f s) {l : List α}
    {a : α} (hl : l.filter p = [a]) (s : S) : f (l.foldl step s) = g a := by
  rw [foldl_overwrite fun s a _ => h s a, hl]
  rfl

/-- What no step writes is left as it was. -/
lemma foldl_unchanged {l : List α} (h : ∀ s, ∀ a ∈ l, f (step s a) = f s) (s : S) :
    f (l.foldl step s) = f s := by
  induction l generalizing s with
  | nil => rfl
  | cons a l ih =>
    rw [List.foldl_cons, ih fun s b hb => h s b (List.mem_cons_of_mem a hb)]
    exact h s a List.mem_cons_self

end Tlv
