import DlepRouter.Interaction.Refinement

/-!
# Programs made of programs

The calls of a program may stand for programs over other calls. Such a program need not come to an
end, and then what called it does not either. Implementing calls commutes with the constructs of
programs, so that their rules apply to what is implemented. Programs over different calls are put
together by adding the signatures.
-/

namespace Interaction

variable {σ τ : Signature} {α β : Type}

/-! ### Calls of two kinds -/

/-- The calls of both signatures. -/
abbrev Signature.sum (σ τ : Signature) : Signature where
  Op := σ.Op ⊕ τ.Op
  Ans := Sum.elim σ.Ans τ.Ans

namespace Event

def inl (e : Event σ) : Event (σ.sum τ) := ⟨.inl e.op, e.ans⟩

def inr (e : Event τ) : Event (σ.sum τ) := ⟨.inr e.op, e.ans⟩

end Event

namespace Program

/-- A program that makes the calls on the left only. -/
def inl : Program σ α → Program (σ.sum τ) α
  | .ret a => .ret a
  | .call op k => .call (.inl op) fun r => (k r).inl

/-- A program that makes the calls on the right only. -/
def inr : Program τ α → Program (σ.sum τ) α
  | .ret a => .ret a
  | .call op k => .call (.inr op) fun r => (k r).inr

variable {ok : Assumption (σ.sum τ)}

lemma ensures_inl {p : Program σ α} {Q : α → List (Event (σ.sum τ)) → Prop} :
    p.inl.Ensures ok Q ↔ p.Ensures (fun op => ok (.inl op)) fun a t => Q a (t.map .inl) := by
  induction p generalizing Q with
  | ret a => rfl
  | call op k ih => exact forall₂_congr fun r _ => ih r

lemma ensures_inr {p : Program τ α} {Q : α → List (Event (σ.sum τ)) → Prop} :
    p.inr.Ensures ok Q ↔ p.Ensures (fun op => ok (.inr op)) fun a t => Q a (t.map .inr) := by
  induction p generalizing Q with
  | ret a => rfl
  | call op k ih => exact forall₂_congr fun r _ => ih r

/-! ### Implementations -/

/-- A program that goes on where another one has come to an end. -/
def andThen (p : Program τ (Option α)) (f : α → Program τ (Option β)) : Program τ (Option β) :=
  p >>= fun r => r.elim (.ret none) f

/-- Implement every call of `σ` by a program over `τ` that may not come to an end. -/
def implement (h : (op : σ.Op) → Program τ (Option (σ.Ans op))) :
    Program σ α → Program τ (Option α)
  | .ret a => .ret (some a)
  | .call op k => (h op).andThen fun r => (k r).implement h

section Laws

variable (h : (op : σ.Op) → Program τ (Option (σ.Ans op)))

@[simp] lemma implement_ret (a : α) : (.ret a : Program σ α).implement h = .ret (some a) := rfl

@[simp] lemma implement_perform (op : σ.Op) : (perform op).implement h = h op := by
  have hsome : ∀ r : Option (σ.Ans op), r.elim (.ret none) (fun a => .ret (some a)) =
      (.ret r : Program τ (Option (σ.Ans op))) := by
    intro r
    cases r <;> rfl
  change (h op >>= fun r => r.elim (.ret none) fun a => .ret (some a)) = h op
  simp only [hsome]
  exact bind_ret (h op)

/-- Implementing calls commutes with sequencing. -/
theorem implement_bind (p : Program σ α) (f : α → Program σ β) :
    (p >>= f).implement h = (p.implement h).andThen fun a => (f a).implement h := by
  induction p with
  | ret a => rfl
  | call op k ih =>
    simp only [call_bind, implement, andThen, bind_assoc]
    congr 1
    funext r
    cases r with
    | none => rfl
    | some r => exact ih r

/-- A round of a loop over implemented calls: if a call does not come to an end, the loop is
left. -/
def implementRound (body : α → Program σ (α ⊕ β)) (a : α) : Program τ (α ⊕ Option β) :=
  (body a).implement h >>= fun r => .ret <| match r with
    | none => .inr none
    | some (.inl a') => .inl a'
    | some (.inr b) => .inr (some b)

/-- Implementing calls commutes with the event loop. -/
theorem implement_forever (body : α → Program σ (α ⊕ β)) (out : α → β) (n : ℕ) (a : α) :
    (forever body out n a).implement h =
      forever (implementRound h body) (fun a => some (out a)) n a := by
  induction n generalizing a with
  | zero => rfl
  | succ n ih =>
    rw [forever, forever, implement_bind, implementRound, bind_assoc, andThen]
    congr 1
    funext r
    cases r with
    | none => rfl
    | some r =>
      cases r with
      | inl a' => exact ih a'
      | inr b => rfl

/-- What does not depend on the path holds, if there is one. -/
lemma Ensures.const (hans : ∀ op, Nonempty (σ.Ans op)) {p : Program σ α} {c : Prop}
    (hp : p.Ensures (fun _ _ => True) fun _ _ => c) : c := by
  induction p with
  | ret a => exact hp
  | call op k ih =>
    obtain ⟨r⟩ := hans op
    exact ih r (hp r trivial)

/-- A program that only makes calls whose implementations come to an end does so too, with one of
the values that it may have, and makes only the calls of these. -/
theorem ensures_implement_of_onlyCalls (hans : ∀ op, Nonempty (σ.Ans op)) {ok : Assumption τ}
    {P : σ.Op → Prop} {J : τ.Op → Prop} {Q : α → Prop} {p : Program σ α}
    (hp : p.OnlyCalls (fun _ _ => True) P) (hQ : p.Ensures (fun _ _ => True) fun a _ => Q a)
    (hcall : ∀ op, P op → (h op).Ensures ok fun r t => r.isSome ∧ ∀ e ∈ t, J e.op) :
    (p.implement h).Ensures ok fun r t => (∃ a, r = some a ∧ Q a) ∧ ∀ e ∈ t, J e.op := by
  induction p with
  | ret a => exact ⟨⟨a, rfl, hQ⟩, List.forall_mem_nil _⟩
  | call op k ih =>
    have hfirst : ∀ r, P op ∧ (k r).OnlyCalls (fun _ _ => True) P := by
      intro r
      refine ⟨?_, (hp r trivial).mono fun _ t ht => (List.forall_mem_cons.mp ht).2⟩
      exact Ensures.const hans ((hp r trivial).mono fun _ t ht => (List.forall_mem_cons.mp ht).1)
    obtain ⟨r₀⟩ := hans op
    apply (hcall op (hfirst r₀).1).bind
    rintro r t ⟨hsome, ht⟩
    obtain ⟨r, rfl⟩ := Option.isSome_iff_exists.mp hsome
    apply (ih r (hfirst r).2 (hQ r trivial)).mono
    rintro r' t' ⟨hvalue, ht'⟩
    exact ⟨hvalue, List.forall_mem_append.mpr ⟨ht, ht'⟩⟩

end Laws

/-! ### Refinement of an implementation -/

section Refinement

variable {Q Q' L L' : Type} {ok : Assumption τ} {M : Machine Q L} {M' : Machine Q' L'}
  {obs : Event τ → List L} {q : Q}

namespace Refines

/-- What goes on where another program has come to an end. -/
lemma andThen {p : Program τ (Option α)} {f : α → Program τ (Option β)} {R : Option α → Q → Prop}
    {R' : Option β → Q → Prop} (hp : p.Refines ok M obs q R) (hnone : ∀ q', R none q' → R' none q')
    (hsome : ∀ a q', R (some a) q' → (f a).Refines ok M obs q' R') :
    (p.andThen f).Refines ok M obs q R' := by
  apply bind hp
  intro r q' hr
  cases r with
  | none => exact .ret (hnone q' hr)
  | some a => exact hsome a q' hr

/-- Where every implementation keeps an invariant, so does what is made of them. -/
theorem implement {h : (op : σ.Op) → Program τ (Option (σ.Ans op))} {I : Q → Prop}
    (hcall : ∀ op q, I q → (h op).Refines ok M obs q fun r q' => r.isSome → I q')
    (p : Program σ α) (hq : I q) :
    (p.implement h).Refines ok M obs q fun r q' => r.isSome → I q' := by
  induction p generalizing q with
  | ret a => exact .ret fun _ => hq
  | call op k ih =>
    apply andThen (hcall op q hq)
    · intro q' _ hnone
      cases hnone
    · intro r q' hI
      exact ih r (hI rfl)

/-- A machine that another one simulates is refined by what refines the other. -/
theorem map {p : Program τ α} {R : α → Q → Prop} (f : Q → Q') (g : L → L')
    (hp : p.Refines ok M obs q R)
    (hM : ∀ q w q', M q w q' → M'.Run (f q) (w.map g) (f q')) :
    p.Refines ok M' (fun e => (obs e).map g) (f q) fun a q' => ∃ q₀, q' = f q₀ ∧ R a q₀ := by
  have hrun : ∀ q w q', M.Run q w q' → M'.Run (f q) (w.map g) (f q') := by
    intro q w q' h
    induction h with
    | refl q => exact .refl (f q)
    | step hstep _ ih =>
      rw [List.map_append]
      exact (hM _ _ _ hstep).trans ih
  apply Ensures.mono hp
  rintro a t ⟨q₀, h, hq₀⟩
  refine ⟨f q₀, ?_, q₀, rfl, hq₀⟩
  rw [← List.map_flatMap]
  exact hrun q _ q₀ h

end Refines

lemma refines_inl {p : Program σ α} {ok : Assumption (σ.sum τ)} {obs : Event (σ.sum τ) → List L}
    {R : α → Q → Prop} :
    p.inl.Refines ok M obs q R ↔
      p.Refines (fun op => ok (.inl op)) M (fun e => obs e.inl) q R := by
  simp only [Refines, ensures_inl, List.flatMap_map]

lemma refines_inr {p : Program τ α} {ok : Assumption (σ.sum τ)} {obs : Event (σ.sum τ) → List L}
    {R : α → Q → Prop} :
    p.inr.Refines ok M obs q R ↔
      p.Refines (fun op => ok (.inr op)) M (fun e => obs e.inr) q R := by
  simp only [Refines, ensures_inr, List.flatMap_map]

end Refinement

end Program

end Interaction
