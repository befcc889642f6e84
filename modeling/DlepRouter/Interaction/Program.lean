import Mathlib.Data.Nat.Notation
import Mathlib.Tactic.Lemma

/-!
# Programs over a signature of calls

A program is a finite tree: it either returns a value or makes a call and continues with the
answer. What the calls mean is left open, so one program can be run against a fixed oracle,
against a stateful environment, or reasoned about over all answers at once.
-/

namespace Interaction

/-- The calls a program may make, each with the type of its answers. -/
structure Signature where
  Op : Type
  Ans : Op → Type

/-- Programs making the calls of `σ` and returning a value of type `α`. -/
inductive Program (σ : Signature) (α : Type) where
  | ret : α → Program σ α
  | call : (op : σ.Op) → (σ.Ans op → Program σ α) → Program σ α

namespace Program

variable {σ τ : Signature} {α β γ : Type}

/-- Sequencing: graft `f` onto the returns of a program. -/
def bind : Program σ α → (α → Program σ β) → Program σ β
  | .ret a, f => f a
  | .call op k, f => .call op fun r => (k r).bind f

/-- The program that makes one call and returns its answer. -/
def perform (op : σ.Op) : Program σ (σ.Ans op) :=
  .call op .ret

instance : Monad (Program σ) where
  pure := .ret
  bind := .bind

@[simp] lemma pure_eq_ret (a : α) : (pure a : Program σ α) = .ret a := rfl

@[simp] lemma ret_bind (a : α) (f : α → Program σ β) : (.ret a : Program σ α) >>= f = f a := rfl

@[simp] lemma call_bind (op : σ.Op) (k : σ.Ans op → Program σ α) (f : α → Program σ β) :
    (.call op k : Program σ α) >>= f = .call op fun r => k r >>= f := rfl

@[simp] lemma perform_bind (op : σ.Op) (f : σ.Ans op → Program σ β) :
    perform op >>= f = .call op f := rfl

lemma bind_ret (p : Program σ α) : p >>= .ret = p := by
  induction p with
  | ret a => rfl
  | call op k ih =>
    simp only [call_bind]
    congr 1
    funext r
    exact ih r

lemma bind_assoc (p : Program σ α) (f : α → Program σ β) (g : β → Program σ γ) :
    p >>= f >>= g = p >>= fun a => f a >>= g := by
  induction p with
  | ret a => rfl
  | call op k ih =>
    simp only [call_bind]
    congr 1
    funext r
    exact ih r

instance : LawfulMonad (Program σ) :=
  LawfulMonad.mk' _ bind_ret (fun _ _ => rfl) bind_assoc

/-- Implement every call of `σ` by a program over `τ`. -/
def interp (h : (op : σ.Op) → Program τ (σ.Ans op)) : Program σ α → Program τ α
  | .ret a => .ret a
  | .call op k => h op >>= fun r => (k r).interp h

@[simp] lemma interp_ret (h : (op : σ.Op) → Program τ (σ.Ans op)) (a : α) :
    (.ret a : Program σ α).interp h = .ret a := rfl

@[simp] lemma interp_call (h : (op : σ.Op) → Program τ (σ.Ans op)) (op : σ.Op)
    (k : σ.Ans op → Program σ α) :
    (Program.call op k).interp h = h op >>= fun r => (k r).interp h := rfl

/-! ### Loops -/

/-- `while (cond s) s = body(s);` cut off after `n` rounds. -/
def whileLoop (cond : α → Bool) (body : α → Program σ α) : ℕ → α → Program σ α
  | 0, s => .ret s
  | n + 1, s => if cond s then body s >>= whileLoop cond body n else .ret s

/-- `for (;;) body`: the body either goes on with a new state (`inl`) or leaves the loop with a
result (`inr`). A loop cut off after `n` rounds yields `out` of the state it has reached. -/
def forever (body : α → Program σ (α ⊕ β)) (out : α → β) : ℕ → α → Program σ β
  | 0, s => .ret (out s)
  | n + 1, s => body s >>= Sum.elim (forever body out n) .ret

end Program

end Interaction
