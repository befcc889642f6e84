import DlepRouter.Interaction.Program
import Mathlib.Data.List.Basic

/-!
# Running programs

Two ways to answer the calls of a program. An oracle answers every call by a fixed function, and
a run is its value together with the calls made. A handler has a state that each answer may
change, and a run is recorded as the list of its events. Everything that an environment can do to
a program is some handler.
-/

namespace Interaction

variable {σ : Signature} {α β S : Type}

/-! ### Oracles -/

/-- A fixed answer to every call. -/
abbrev Oracle (σ : Signature) := (op : σ.Op) → σ.Ans op

namespace Program

/-- The value of a program whose calls are answered by `O`. -/
def eval (O : Oracle σ) : Program σ α → α
  | .ret a => a
  | .call op k => (k (O op)).eval O

/-- The calls a program makes when they are answered by `O`, in order. -/
def calls (O : Oracle σ) : Program σ α → List σ.Op
  | .ret _ => []
  | .call op k => op :: (k (O op)).calls O

@[simp] lemma eval_ret (O : Oracle σ) (a : α) : (.ret a : Program σ α).eval O = a := rfl

@[simp] lemma eval_call (O : Oracle σ) (op : σ.Op) (k : σ.Ans op → Program σ α) :
    (Program.call op k).eval O = (k (O op)).eval O := rfl

@[simp] lemma eval_perform (O : Oracle σ) (op : σ.Op) : (perform op).eval O = O op := rfl

@[simp] lemma calls_ret (O : Oracle σ) (a : α) : (.ret a : Program σ α).calls O = [] := rfl

@[simp] lemma calls_call (O : Oracle σ) (op : σ.Op) (k : σ.Ans op → Program σ α) :
    (Program.call op k).calls O = op :: (k (O op)).calls O := rfl

@[simp] lemma calls_perform (O : Oracle σ) (op : σ.Op) : (perform op).calls O = [op] := rfl

@[simp] lemma eval_bind (O : Oracle σ) (p : Program σ α) (f : α → Program σ β) :
    (p >>= f).eval O = (f (p.eval O)).eval O := by
  induction p with
  | ret a => rfl
  | call op k ih => exact ih (O op)

@[simp] lemma calls_bind (O : Oracle σ) (p : Program σ α) (f : α → Program σ β) :
    (p >>= f).calls O = p.calls O ++ (f (p.eval O)).calls O := by
  induction p with
  | ret a => rfl
  | call op k ih =>
    simp only [call_bind, calls_call, eval_call, List.cons_append]
    rw [ih]

end Program

/-! ### Handlers -/

/-- A call together with the answer it got. -/
structure Event (σ : Signature) where
  op : σ.Op
  ans : σ.Ans op

/-- An environment with state `S` that answers every call. -/
structure Handler (σ : Signature) (S : Type) where
  answer : S → (op : σ.Op) → σ.Ans op × S

/-- What a run leaves behind: the value, the state of the environment and the events. -/
structure Outcome (σ : Signature) (S α : Type) where
  value : α
  state : S
  trace : List (Event σ)

/-- Attach the outcome of what runs next. -/
def Outcome.andThen (o : Outcome σ S α) (o' : Outcome σ S β) : Outcome σ S β :=
  ⟨o'.value, o'.state, o.trace ++ o'.trace⟩

namespace Program

/-- Run a program in the environment `H` from the state `s`. -/
def run (H : Handler σ S) : Program σ α → S → Outcome σ S α
  | .ret a, s => ⟨a, s, []⟩
  | .call op k, s =>
    Outcome.andThen (α := σ.Ans op)
      ⟨(H.answer s op).1, (H.answer s op).2, [⟨op, (H.answer s op).1⟩]⟩
      ((k (H.answer s op).1).run H (H.answer s op).2)

@[simp] lemma run_ret (H : Handler σ S) (a : α) (s : S) :
    (.ret a : Program σ α).run H s = ⟨a, s, []⟩ := rfl

lemma run_call (H : Handler σ S) (op : σ.Op) (k : σ.Ans op → Program σ α) (s : S) :
    (Program.call op k).run H s =
      ⟨((k (H.answer s op).1).run H (H.answer s op).2).value,
        ((k (H.answer s op).1).run H (H.answer s op).2).state,
        ⟨op, (H.answer s op).1⟩ :: ((k (H.answer s op).1).run H (H.answer s op).2).trace⟩ := rfl

lemma run_bind (H : Handler σ S) (p : Program σ α) (f : α → Program σ β) (s : S) :
    (p >>= f).run H s =
      (p.run H s).andThen ((f (p.run H s).value).run H (p.run H s).state) := by
  induction p generalizing s with
  | ret a => simp [Outcome.andThen]
  | call op k ih =>
    simp only [call_bind, run_call, ih, Outcome.andThen, List.cons_append]

/-- The first call of a run is answered by the environment as it was at the start. -/
lemma answer_of_trace_cons {H : Handler σ S} {p : Program σ α} {s : S} {op : σ.Op} {r : σ.Ans op}
    {t : List (Event σ)} (h : (p.run H s).trace = ⟨op, r⟩ :: t) : (H.answer s op).1 = r := by
  cases p with
  | ret a => cases h
  | call op' k =>
    rw [run_call] at h
    cases h
    rfl

end Program

end Interaction
