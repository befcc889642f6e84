import DlepRouter.Interaction.Logic

/-!
# Refinement of abstract machines

The steps of an abstract machine show words, which may be empty, and a run shows what its steps
show, one after the other. A program refines the machine if on each of its paths what can be
observed of the events is shown by a run, to a state that fits the value. Each construct of a
program has one rule.
-/

namespace Interaction

variable {Q L : Type}

/-! ### Machines -/

/-- An abstract machine: its steps lead from one state to another and show a word. -/
abbrev Machine (Q L : Type) := Q → List L → Q → Prop

namespace Machine

/-- The runs of a machine, with what they show. -/
inductive Run (M : Machine Q L) : Q → List L → Q → Prop where
  | refl (q : Q) : Run M q [] q
  | step {q q' q'' : Q} {w w' : List L} : M q w q' → Run M q' w' q'' → Run M q (w ++ w') q''

namespace Run

variable {M : Machine Q L} {q q' q'' : Q} {w w' : List L}

lemma single (h : M q w q') : M.Run q w q' := by
  rw [← List.append_nil w]
  exact .step h (.refl q')

lemma trans (h : M.Run q w q') (h' : M.Run q' w' q'') : M.Run q (w ++ w') q'' := by
  induction h with
  | refl q => exact h'
  | step hstep _ ih =>
    rw [List.append_assoc]
    exact .step hstep (ih h')

end Run

/-- The machine that shows the labels that a monitor admits, one in each step. -/
def ofMonitor (f : Q → L → Option Q) : Machine Q L :=
  fun q w q' => ∃ l, w = [l] ∧ f q l = some q'

/-- Its runs show the words that the monitor gets through. -/
theorem run_ofMonitor_iff {f : Q → L → Option Q} {q q' : Q} {w : List L} :
    (ofMonitor f).Run q w q' ↔ w.foldlM f q = some q' := by
  constructor
  · intro h
    induction h with
    | refl q => rfl
    | step hstep _ ih =>
      obtain ⟨l, rfl, hl⟩ := hstep
      rw [List.singleton_append, List.foldlM_cons, hl]
      exact ih
  · intro h
    induction w generalizing q with
    | nil =>
      obtain rfl := Option.some.inj h
      exact .refl q
    | cons l w ih =>
      rw [List.foldlM_cons] at h
      obtain ⟨q₁, hl, hrest⟩ := Option.bind_eq_some_iff.mp h
      exact .step ⟨l, rfl, hl⟩ (ih hrest)

end Machine

/-! ### Refinement -/

namespace Program

variable {σ : Signature} {α β : Type} {ok : Assumption σ} {M : Machine Q L}
  {obs : Event σ → List L}

/-- On every path with admitted answers, what is observed is shown by a run of `M` from `q` to a
state that fits the value. -/
def Refines (ok : Assumption σ) (M : Machine Q L) (obs : Event σ → List L) (p : Program σ α) (q : Q)
    (R : α → Q → Prop) : Prop :=
  p.Ensures ok fun a t => ∃ q', M.Run q (t.flatMap obs) q' ∧ R a q'

namespace Refines

variable {p : Program σ α} {f : α → Program σ β} {q : Q} {R R' : α → Q → Prop}
  {R'' : β → Q → Prop}

lemma mono (h : p.Refines ok M obs q R) (hR : ∀ a q', R a q' → R' a q') :
    p.Refines ok M obs q R' := by
  apply Ensures.mono h
  rintro a t ⟨q', hrun, hq'⟩
  exact ⟨q', hrun, hR a q' hq'⟩

lemma ret {a : α} (h : R a q) : (.ret a : Program σ α).Refines ok M obs q R :=
  ⟨q, .refl q, h⟩

/-- What was shown before does not matter: a refinement may start behind a run. -/
lemma of_run {w : List L} {q' : Q} (hrun : M.Run q w q') (h : p.Refines ok M obs q' R) :
    p.Ensures ok fun a t => ∃ q'', M.Run q (w ++ t.flatMap obs) q'' ∧ R a q'' := by
  apply Ensures.mono h
  rintro a t ⟨q'', hrest, hq''⟩
  exact ⟨q'', hrun.trans hrest, hq''⟩

/-- The rule of sequencing. -/
lemma bind (hp : p.Refines ok M obs q R) (hf : ∀ a q', R a q' → (f a).Refines ok M obs q' R'') :
    (p >>= f).Refines ok M obs q R'' := by
  apply Ensures.bind hp
  rintro a t ⟨q', hrun, hq'⟩
  simpa only [List.flatMap_append] using (hf a q' hq').of_run hrun

/-- The rule of a call: it is a run of the machine whatever it is answered. -/
lemma call {op : σ.Op} {k : σ.Ans op → Program σ β}
    (h : ∀ r, ok op r → ∃ q', M.Run q (obs ⟨op, r⟩) q' ∧ (k r).Refines ok M obs q' R'') :
    (Program.call op k).Refines ok M obs q R'' := by
  intro r hr
  obtain ⟨q', hrun, hrest⟩ := h r hr
  exact hrest.of_run hrun

/-- The rule of the event loop: each round that goes on comes to a state where the next one may
start. -/
theorem forever {body : α → Program σ (α ⊕ β)} {out : α → β} {I : α → Q → Prop}
    (hout : ∀ a q, I a q → R'' (out a) q)
    (hbody : ∀ a q, I a q → (body a).Refines ok M obs q fun r q' =>
      Sum.elim (fun a' => I a' q') (fun b => R'' b q') r) (n : ℕ) (a : α) (h : I a q) :
    (Program.forever body out n a).Refines ok M obs q R'' := by
  induction n generalizing a q with
  | zero => exact .ret (hout a q h)
  | succ n ih =>
    apply bind (hbody a q h)
    intro r q' hr
    cases r with
    | inl a' => exact ih a' hr
    | inr b => exact .ret hr

end Refines

/-- What one run shows from a state is all that is needed of a program whose events are known. -/
lemma Ensures.refines {p : Program σ α} {Q' : α → List (Event σ) → Prop} {q : Q} {R : α → Q → Prop}
    (h : p.Ensures ok Q')
    (hrun : ∀ a t, Q' a t → ∃ q', M.Run q (t.flatMap obs) q' ∧ R a q') :
    p.Refines ok M obs q R :=
  h.mono hrun

/-- A program is admitted by a monitor that sees all of its events. -/
abbrev Admitted (ok : Assumption σ) (f : Q → Event σ → Option Q) (p : Program σ α) (q : Q)
    (R : α → Q → Prop) : Prop :=
  p.Refines ok (.ofMonitor f) (fun e => [e]) q R

/-- The rule of a call that is monitored. -/
lemma Admitted.call {f : Q → Event σ → Option Q} {op : σ.Op} {k : σ.Ans op → Program σ β} {q : Q}
    {R : β → Q → Prop}
    (h : ∀ r, ok op r → ∃ q', f q ⟨op, r⟩ = some q' ∧ (k r).Admitted ok f q' R) :
    (perform op >>= k).Admitted ok f q R := by
  apply Refines.call
  intro r hr
  obtain ⟨q', hstep, hrest⟩ := h r hr
  exact ⟨q', .single ⟨_, rfl, hstep⟩, hrest⟩

/-- A refinement holds of every run, in every environment. -/
theorem Refines.run_any {S : Type} {p : Program σ α} {q : Q} {R : α → Q → Prop}
    (h : p.Refines (fun _ _ => True) M obs q R) (H : Handler σ S) (s : S) :
    ∃ q', M.Run q ((p.run H s).trace.flatMap obs) q' ∧ R (p.run H s).value q' :=
  Ensures.run_any h H s

end Program

end Interaction
