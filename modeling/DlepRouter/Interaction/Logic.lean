import DlepRouter.Interaction.Run

/-!
# Postconditions over all answers

`p.Ensures ok Q` says that on every path of `p` whose answers are admitted by `ok`, the value and
the events satisfy `Q`. It is computed along the tree, so every program construct has one rule,
and it holds of every run against an environment whose answers are admitted. The paths themselves
serve to say how a program can go in terms of those that it is made of.
-/

namespace Interaction

variable {σ : Signature} {α β S : Type}

/-- Which answers an environment is assumed to give. -/
abbrev Assumption (σ : Signature) := (op : σ.Op) → σ.Ans op → Prop

/-- The environment only gives answers admitted by `ok`. -/
def Handler.Meets (H : Handler σ S) (ok : Assumption σ) : Prop :=
  ∀ s op, ok op (H.answer s op).1

namespace Program

variable {ok : Assumption σ}

/-- On every path with admitted answers, the value and the events satisfy `Q`. -/
def Ensures (ok : Assumption σ) : Program σ α → (α → List (Event σ) → Prop) → Prop
  | .ret a, Q => Q a []
  | .call op k, Q => ∀ r, ok op r → (k r).Ensures ok fun a t => Q a (⟨op, r⟩ :: t)

@[simp] lemma ensures_ret (a : α) (Q : α → List (Event σ) → Prop) :
    (.ret a : Program σ α).Ensures ok Q ↔ Q a [] := Iff.rfl

@[simp] lemma ensures_call (op : σ.Op) (k : σ.Ans op → Program σ α)
    (Q : α → List (Event σ) → Prop) :
    (Program.call op k).Ensures ok Q ↔
      ∀ r, ok op r → (k r).Ensures ok fun a t => Q a (⟨op, r⟩ :: t) := Iff.rfl

lemma Ensures.mono {p : Program σ α} {Q Q' : α → List (Event σ) → Prop}
    (h : p.Ensures ok Q) (hQ : ∀ a t, Q a t → Q' a t) : p.Ensures ok Q' := by
  induction p generalizing Q Q' with
  | ret a => exact hQ a [] h
  | call op k ih =>
    intro r hr
    apply ih r (h r hr)
    intro a t
    exact hQ a (⟨op, r⟩ :: t)

lemma Ensures.and {p : Program σ α} {Q Q' : α → List (Event σ) → Prop} (h : p.Ensures ok Q)
    (h' : p.Ensures ok Q') : p.Ensures ok fun a t => Q a t ∧ Q' a t := by
  induction p generalizing Q Q' with
  | ret a => exact ⟨h, h'⟩
  | call op k ih =>
    intro r hr
    exact ih r (h r hr) (h' r hr)

lemma ensures_of_forall {p : Program σ α} {Q : α → List (Event σ) → Prop}
    (h : ∀ a t, Q a t) : p.Ensures ok Q := by
  induction p generalizing Q with
  | ret a => exact h a []
  | call op k ih =>
    intro r _
    apply ih r
    intro a t
    exact h a (⟨op, r⟩ :: t)

lemma ensures_bind (p : Program σ α) (f : α → Program σ β) (Q : β → List (Event σ) → Prop) :
    (p >>= f).Ensures ok Q ↔
      p.Ensures ok fun a t => (f a).Ensures ok fun b t' => Q b (t ++ t') := by
  induction p generalizing Q with
  | ret a => rfl
  | call op k ih => simp only [call_bind, ensures_call, ih, List.cons_append]

/-- The rule of sequencing: a postcondition of the first program is what the second one needs. -/
lemma Ensures.bind {p : Program σ α} {f : α → Program σ β} {R : α → List (Event σ) → Prop}
    {Q : β → List (Event σ) → Prop} (hp : p.Ensures ok R)
    (hf : ∀ a t, R a t → (f a).Ensures ok fun b t' => Q b (t ++ t')) :
    (p >>= f).Ensures ok Q :=
  (ensures_bind p f Q).mpr (hp.mono hf)

/-- The rule of sequencing where the first program may do what it likes. -/
lemma ensures_bind_of_forall {p : Program σ α} {f : α → Program σ β}
    {Q : β → List (Event σ) → Prop}
    (h : ∀ a t, (f a).Ensures ok fun b t' => Q b (t ++ t')) : (p >>= f).Ensures ok Q :=
  (ensures_bind p f Q).mpr (ensures_of_forall h)

/-- The rule of a call: whatever it is answered, what follows ensures the postcondition. -/
lemma ensures_perform_bind {op : σ.Op} {f : σ.Ans op → Program σ β}
    {Q : β → List (Event σ) → Prop}
    (h : ∀ r, ok op r → (f r).Ensures ok fun b t => Q b (⟨op, r⟩ :: t)) :
    (perform op >>= f).Ensures ok Q := h

/-- What a program ensures holds of its run in every environment that meets the assumption. -/
theorem Ensures.run {p : Program σ α} {Q : α → List (Event σ) → Prop} (h : p.Ensures ok Q)
    {H : Handler σ S} (hH : H.Meets ok) (s : S) :
    Q (p.run H s).value (p.run H s).trace := by
  induction p generalizing s Q with
  | ret a => exact h
  | call op k ih => exact ih _ (h _ (hH s op)) _

/-- The events of a run are answered as the environment promises. -/
lemma of_mem_trace {H : Handler σ S} (hH : H.Meets ok) {p : Program σ α} {s : S} {e : Event σ}
    (he : e ∈ (p.run H s).trace) : ok e.op e.ans := by
  induction p generalizing s with
  | ret a => cases he
  | call op k ih =>
    rcases List.mem_cons.mp he with rfl | he
    · exact hH s op
    · exact ih _ he

/-- What a program ensures over all answers holds of its run in every environment. -/
theorem Ensures.run_any {p : Program σ α} {Q : α → List (Event σ) → Prop}
    (h : p.Ensures (fun _ _ => True) Q) (H : Handler σ S) (s : S) :
    Q (p.run H s).value (p.run H s).trace :=
  h.run (fun _ _ => trivial) s

/-- Two continuations that agree on every value a program can return are interchangeable. -/
lemma bind_congr_of_ensures {p : Program σ α} {f g : α → Program σ β}
    (h : p.Ensures (fun _ _ => True) fun a _ => f a = g a) : p >>= f = p >>= g := by
  induction p with
  | ret a => exact h
  | call op k ih =>
    simp only [call_bind]
    congr 1
    funext r
    exact ih r (h r trivial)

/-! ### Paths -/

/-- There is a path with admitted answers to this value and with these events. -/
def Path (ok : Assumption σ) : Program σ α → α → List (Event σ) → Prop
  | .ret a, a', t => a' = a ∧ t = []
  | .call op k, a, t => ∃ r t', ok op r ∧ (k r).Path ok a t' ∧ t = ⟨op, r⟩ :: t'

/-- What a program ensures holds of its paths. -/
lemma Ensures.of_path {p : Program σ α} {Q : α → List (Event σ) → Prop} {a : α}
    {t : List (Event σ)} (h : p.Ensures ok Q) (hp : p.Path ok a t) : Q a t := by
  induction p generalizing Q t with
  | ret a' =>
    obtain ⟨rfl, rfl⟩ := hp
    exact h
  | call op k ih =>
    obtain ⟨r, t', hr, hp, rfl⟩ := hp
    have hrest := ih r (h r hr) hp
    exact hrest

/-- The value and the events of a program are those of one of its paths. -/
lemma ensures_path (p : Program σ α) : p.Ensures ok (p.Path ok) := by
  induction p with
  | ret a => exact ⟨rfl, rfl⟩
  | call op k ih =>
    intro r hr
    apply (ih r).mono
    intro a t h
    exact ⟨r, t, hr, h, rfl⟩

/-! ### The calls that are made -/

/-- On every path with admitted answers, all calls are of the kind `P`. -/
def OnlyCalls (ok : Assumption σ) (P : σ.Op → Prop) (p : Program σ α) : Prop :=
  p.Ensures ok fun _ t => ∀ e ∈ t, P e.op

namespace OnlyCalls

variable {P P' : σ.Op → Prop} {p : Program σ α} {f : α → Program σ β}

lemma weaken (h : OnlyCalls ok P p) (hP : ∀ op, P op → P' op) : OnlyCalls ok P' p :=
  Ensures.mono h fun _ _ ht e he => hP e.op (ht e he)

lemma ret (a : α) : OnlyCalls ok P (.ret a : Program σ α) :=
  List.forall_mem_nil _

lemma perform {op : σ.Op} (h : P op) : OnlyCalls ok P (Program.perform op) :=
  fun _ _ => List.forall_mem_singleton.mpr h

lemma bind (hp : OnlyCalls ok P p) (hf : ∀ a, OnlyCalls ok P (f a)) :
    OnlyCalls ok P (p >>= f) := by
  apply Ensures.bind hp
  intro a t ht
  apply (hf a).mono
  intro _ t' ht'
  exact List.forall_mem_append.mpr ⟨ht, ht'⟩

/-- Looking for other calls among the events finds nothing. -/
lemma filterMap_eq_nil {γ : Type} {pick : Event σ → Option γ} (h : OnlyCalls ok P p)
    (hpick : ∀ e : Event σ, P e.op → pick e = none) :
    p.Ensures ok fun _ t => t.filterMap pick = [] := by
  apply Ensures.mono h
  intro _ t ht
  exact List.filterMap_eq_nil_iff.mpr fun e he => hpick e (ht e he)

end OnlyCalls

/-! ### Loops with a variant -/

section Variant

variable {cond : α → Bool} {body : α → Program σ α} {μ : α → ℕ}

/-- Rounds beyond the variant of the initial state are never used. -/
lemma whileLoop_eq_of_variant (hpos : ∀ s, cond s → 0 < μ s)
    (hdec : ∀ s, cond s → (body s).Ensures (fun _ _ => True) fun s' _ => μ s' < μ s)
    {n m : ℕ} {s : α} (hn : μ s ≤ n) (hm : μ s ≤ m) :
    whileLoop cond body n s = whileLoop cond body m s := by
  induction n generalizing m s with
  | zero =>
    have hc : cond s = false := by
      by_contra h
      have := hpos s (by simpa using h)
      omega
    cases m <;> simp [whileLoop, hc]
  | succ n ih =>
    by_cases hc : cond s
    · have := hpos s hc
      obtain ⟨m, rfl⟩ : ∃ k, m = k + 1 := Nat.exists_eq_succ_of_ne_zero (by omega)
      simp only [whileLoop, hc, if_true]
      apply bind_congr_of_ensures
      apply (hdec s hc).mono
      intro s' _ hlt
      exact ih (by omega) (by omega)
    · cases m <;> simp [whileLoop, hc]

/-- A loop given as many rounds as its variant satisfies the equation of `while`. -/
theorem whileLoop_unfold (hpos : ∀ s, cond s → 0 < μ s)
    (hdec : ∀ s, cond s → (body s).Ensures (fun _ _ => True) fun s' _ => μ s' < μ s) (s : α) :
    whileLoop cond body (μ s) s =
      if cond s then body s >>= fun s' => whileLoop cond body (μ s') s' else .ret s := by
  rw [whileLoop_eq_of_variant hpos hdec (Nat.le_refl _) (Nat.le_succ (μ s)), whileLoop]
  split_ifs with hc
  · apply bind_congr_of_ensures
    apply (hdec s hc).mono
    intro s' _ hlt
    exact whileLoop_eq_of_variant hpos hdec (Nat.le_of_lt hlt) (Nat.le_refl _)
  · rfl

end Variant

/-! ### Event loops -/

/-- The rule of the event loop: an invariant of the state and the events so far, kept by every
round that goes on, and strong enough for the postcondition wherever the loop is left. -/
theorem ensures_forever {body : α → Program σ (α ⊕ β)} {out : α → β}
    {I : α → List (Event σ) → Prop} {Q : β → List (Event σ) → Prop}
    (hout : ∀ s t, I s t → Q (out s) t)
    (hbody : ∀ s t, I s t → (body s).Ensures ok fun r t' =>
      Sum.elim (fun s' => I s' (t ++ t')) (fun b => Q b (t ++ t')) r)
    (n : ℕ) (s : α) (t : List (Event σ)) (h : I s t) :
    (forever body out n s).Ensures ok fun b t' => Q b (t ++ t') := by
  induction n generalizing s t with
  | zero => simpa [forever] using hout s t h
  | succ n ih =>
    apply (hbody s t h).bind
    intro r t' hr
    cases r with
    | inl s' => simpa only [Sum.elim_inl, List.append_assoc] using ih s' (t ++ t') hr
    | inr b => simpa using hr

end Program

end Interaction
