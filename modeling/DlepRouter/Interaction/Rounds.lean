import DlepRouter.Interaction.Logic

/-!
# The rounds of an event loop

A run of `forever` is a sequence of rounds, each started in some state of the loop and of the
environment. Facts about every round of a run follow from what one round keeps.
-/

namespace Interaction

namespace Program

variable {σ : Signature} {α β S : Type} (H : Handler σ S) (body : α → Program σ (α ⊕ β))
  (out : α → β)

/-- The states in which the rounds of a run of `forever` start, those of the loop and of the
environment. -/
def rounds : ℕ → α → S → List (α × S)
  | 0, _, _ => []
  | n + 1, a, s => (a, s) ::
    Sum.elim (fun a' => rounds n a' ((body a).run H s).state) (fun _ => [])
      ((body a).run H s).value

/-- The events of an event loop are those of its rounds. -/
lemma trace_forever (n : ℕ) (a : α) (s : S) :
    ((forever body out n a).run H s).trace =
      (rounds H body n a s).flatMap fun r => ((body r.1).run H r.2).trace := by
  induction n generalizing a s with
  | zero => rfl
  | succ n ih =>
    rw [forever, run_bind, rounds, List.flatMap_cons]
    simp only [Outcome.andThen]
    congr 1
    cases ((body a).run H s).value with
    | inl a' => exact ih a' _
    | inr b => rfl

/-- Every round but the first starts where the one before it went on. -/
theorem isChain_rounds (n : ℕ) (a : α) (s : S) :
    (rounds H body n a s).IsChain fun r r' => ((body r.1).run H r.2).value = .inl r'.1 := by
  induction n generalizing a s with
  | zero => exact .nil
  | succ n ih =>
    rw [rounds]
    cases hvalue : ((body a).run H s).value with
    | inr b => exact .singleton _
    | inl a' =>
      have hrest := ih a' ((body a).run H s).state
      cases n with
      | zero => exact .singleton _
      | succ n => exact .cons_cons hvalue hrest

variable {H body}

/-- What holds of the first state of a loop and is kept by each round that goes on holds wherever a
round starts. -/
theorem forall_mem_rounds {I : α → Prop} {n : ℕ} {a : α} {s : S} (h : I a)
    (hstep : ∀ r ∈ rounds H body n a s, I r.1 →
      ∀ a', ((body r.1).run H r.2).value = .inl a' → I a') :
    ∀ r ∈ rounds H body n a s, I r.1 := by
  induction n generalizing a s with
  | zero =>
    intro r hr
    cases hr
  | succ n ih =>
    rw [rounds] at hstep ⊢
    intro r hr
    rcases List.mem_cons.mp hr with rfl | hr
    · exact h
    · cases hvalue : ((body a).run H s).value with
      | inl a' =>
        rw [hvalue] at hr hstep
        have ha' : I a' := hstep (a, s) List.mem_cons_self h a' hvalue
        exact ih ha' (fun r hr => hstep r (List.mem_cons_of_mem _ hr)) r hr
      | inr b =>
        rw [hvalue] at hr
        cases hr

variable {out}

/-- The rule of an event loop that is cut off: the invariant counts the rounds that have gone on,
and what holds after all of them is all that is known then. -/
theorem ensures_forever_counting {ok : Assumption σ} {I : ℕ → α → List (Event σ) → Prop}
    {Q : β → List (Event σ) → Prop} {n : ℕ} (hout : ∀ a t, I n a t → Q (out a) t)
    (hbody : ∀ j a t, I j a t → (body a).Ensures ok fun r t' =>
      Sum.elim (fun a' => I (j + 1) a' (t ++ t')) (fun b => Q b (t ++ t')) r)
    (a : α) (t : List (Event σ)) (h : I 0 a t) :
    (forever body out n a).Ensures ok fun b t' => Q b (t ++ t') := by
  have hrest : ∀ k j a t, j + k = n → I j a t →
      (forever body out k a).Ensures ok fun b t' => Q b (t ++ t') := by
    intro k
    induction k with
    | zero =>
      rintro j a t rfl h
      simpa [forever] using hout a t h
    | succ k ih =>
      intro j a t hj h
      apply (hbody j a t h).bind
      intro r t' hr
      cases r with
      | inl a' =>
        have hnext := ih (j + 1) a' (t ++ t') (by omega) hr
        simpa only [Sum.elim_inl, List.append_assoc] using hnext
      | inr b => simpa using hr
  exact hrest n 0 a t (Nat.zero_add n) h

end Program

end Interaction
