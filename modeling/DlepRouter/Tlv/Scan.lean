import DlepRouter.Interaction.Logic
import DlepRouter.Tlv.Walk

/-!
# Programs that scan a memory

A scan may load a cell and may emit an output; it cannot change the memory. Run on a memory it
has a value, the outputs it emitted and the addresses it read.

`Walker.loop` is the loop of such programs over tagged items. Its lemmas relate it to the walk
over the format: without an early exit it makes exactly the rounds of `Format.walk`.
-/

namespace Tlv

open Interaction

/-- The two calls of a scan. -/
inductive ScanOp (ω : Type) where
  | load : ℕ → ScanOp ω
  | emit : ω → ScanOp ω

/-- The answers to a scan's calls: a cell, or nothing. -/
def scanSig (β ω : Type) : Signature where
  Op := ScanOp ω
  Ans
    | .load _ => β
    | .emit _ => Unit

/-- Programs that load cells of type `β` and emit outputs of type `ω`. -/
abbrev Scan (β ω α : Type) := Program (scanSig β ω) α

/-- The contents of a memory as answers. -/
def Memory.oracle {β : Type} (m : Memory β) (ω : Type) : Oracle (scanSig β ω)
  | .load a => m a
  | .emit _ => ()

namespace Scan

variable {β ω α γ S : Type}

/-- Load the cell at `a`. -/
def load (a : ℕ) : Scan β ω β := Program.perform (σ := scanSig β ω) (.load a)

/-- Emit an output. -/
def emit (o : ω) : Scan β ω Unit := Program.perform (σ := scanSig β ω) (.emit o)

/-- Load the `n` cells from `p` on, as `memcpy` does. -/
def loadRange (p : ℕ) : ℕ → Scan β ω (List β)
  | 0 => pure []
  | n + 1 => do
    let b ← load p
    let bs ← loadRange (p + 1) n
    pure (b :: bs)

/-- The addresses loaded in a list of calls. -/
def loads : List (ScanOp ω) → List ℕ :=
  List.filterMap fun | .load a => some a | .emit _ => none

/-- The outputs emitted in a list of calls. -/
def emitted : List (ScanOp ω) → List ω :=
  List.filterMap fun | .load _ => none | .emit o => some o

variable (m : Memory β)

/-- The value of a scan on a memory. -/
def value (p : Scan β ω α) : α := p.eval (m.oracle ω)

/-- The calls a scan makes on a memory. -/
def trace (p : Scan β ω α) : List (ScanOp ω) := p.calls (m.oracle ω)

/-- The addresses a scan reads on a memory. -/
def reads (p : Scan β ω α) : List ℕ := loads (p.trace m)

/-- The outputs a scan emits on a memory. -/
def outputs (p : Scan β ω α) : List ω := emitted (p.trace m)

variable {m}

@[simp] lemma loads_nil : loads ([] : List (ScanOp ω)) = [] := rfl

@[simp] lemma loads_append (t t' : List (ScanOp ω)) : loads (t ++ t') = loads t ++ loads t' := by
  simp [loads]

@[simp] lemma emitted_nil : emitted ([] : List (ScanOp ω)) = [] := rfl

@[simp] lemma loads_map_load (as : List ℕ) : loads (as.map .load : List (ScanOp ω)) = as := by
  induction as with
  | nil => rfl
  | cons a as ih => exact congrArg (a :: ·) ih

@[simp] lemma emitted_map_load (as : List ℕ) : emitted (as.map .load : List (ScanOp ω)) = [] := by
  induction as with
  | nil => rfl
  | cons a as ih => exact ih

@[simp] lemma emitted_append (t t' : List (ScanOp ω)) :
    emitted (t ++ t') = emitted t ++ emitted t' := by
  simp [emitted]

-- Not proved by `rfl`: values occur in conditions, whose instances `simp` then has to rebuild.
@[simp] lemma value_ret (a : α) : value m (.ret a : Scan β ω α) = a := by
  rw [value, Program.eval_ret]

@[simp] lemma value_load (a : ℕ) : value m (load a : Scan β ω β) = m a := by
  have h := Program.eval_perform (m.oracle ω) (.load a)
  rwa [Memory.oracle] at h

@[simp] lemma value_bind (p : Scan β ω α) (f : α → Scan β ω γ) :
    value m (p >>= f) = value m (f (value m p)) := Program.eval_bind ..

@[simp] lemma trace_ret (a : α) : trace m (.ret a : Scan β ω α) = [] := rfl

@[simp] lemma trace_load (a : ℕ) : trace m (load a : Scan β ω β) = [.load a] := rfl

@[simp] lemma trace_emit (o : ω) : trace m (emit o : Scan β ω Unit) = [.emit o] := rfl

@[simp] lemma trace_bind (p : Scan β ω α) (f : α → Scan β ω γ) :
    trace m (p >>= f) = trace m p ++ trace m (f (value m p)) := Program.calls_bind ..

@[simp] lemma reads_ret (a : α) : reads m (.ret a : Scan β ω α) = [] := rfl

@[simp] lemma reads_load (a : ℕ) : reads m (load a : Scan β ω β) = [a] := rfl

@[simp] lemma reads_emit (o : ω) : reads m (emit o : Scan β ω Unit) = [] := rfl

@[simp] lemma reads_bind (p : Scan β ω α) (f : α → Scan β ω γ) :
    reads m (p >>= f) = reads m p ++ reads m (f (value m p)) := by
  simp [reads]

@[simp] lemma outputs_ret (a : α) : outputs m (.ret a : Scan β ω α) = [] := rfl

@[simp] lemma outputs_load (a : ℕ) : outputs m (load a : Scan β ω β) = [] := rfl

@[simp] lemma outputs_emit (o : ω) : outputs m (emit o : Scan β ω Unit) = [o] := rfl

@[simp] lemma outputs_bind (p : Scan β ω α) (f : α → Scan β ω γ) :
    outputs m (p >>= f) = outputs m p ++ outputs m (f (value m p)) := by
  simp [outputs]

section Conditionals

variable (c : Prop) [Decidable c] (p q : Scan β ω α)

@[simp] lemma value_ite : value m (if c then p else q) = if c then value m p else value m q :=
  apply_ite _ c p q

@[simp] lemma trace_ite : trace m (if c then p else q) = if c then trace m p else trace m q :=
  apply_ite _ c p q

@[simp] lemma reads_ite : reads m (if c then p else q) = if c then reads m p else reads m q :=
  apply_ite _ c p q

@[simp] lemma outputs_ite :
    outputs m (if c then p else q) = if c then outputs m p else outputs m q :=
  apply_ite _ c p q

end Conditionals

@[simp] lemma value_loadRange (p n : ℕ) :
    value m (loadRange p n : Scan β ω (List β)) = m.slice p n := by
  induction n generalizing p with
  | zero => rfl
  | succ n ih => simp [loadRange, ih, Memory.slice_succ]

@[simp] lemma reads_loadRange (p n : ℕ) :
    reads m (loadRange p n : Scan β ω (List β)) = List.range' p n := by
  induction n generalizing p with
  | zero => rfl
  | succ n ih => simp [loadRange, ih, List.range'_succ]

@[simp] lemma outputs_loadRange (p n : ℕ) :
    outputs m (loadRange p n : Scan β ω (List β)) = [] := by
  induction n generalizing p with
  | zero => rfl
  | succ n ih => simp [loadRange, ih]

end Scan

/-! ### Loops over items -/

/-- How a scan reads the headers of a format, and how it marks that it visits an item. -/
structure Walker (β τ ω : Type) where
  format : Format β τ
  header : ℕ → Scan β ω (τ × ℕ)
  mark : Visit τ → ω
  value_header : ∀ m off, (header off).value m = format.read (m.slice off format.width)
  reads_header : ∀ m off, (header off).reads m = List.range' off format.width
  outputs_header : ∀ m off, (header off).outputs m = []

namespace Walker

open Scan

variable {β τ ω S : Type} (W : Walker β τ ω)

/-- One round: read the header at the pointer, mark the visit, run the body and step over the
item. -/
def round (body : Visit τ → S → Scan β ω S) (s : ℕ × S) : Scan β ω (ℕ × S) := do
  let h ← W.header s.1
  emit (W.mark ⟨s.1, h.1, h.2⟩)
  let st ← body ⟨s.1, h.1, h.2⟩ s.2
  pure (s.1 + W.format.width + h.2, st)

/-- `while (pointer < stop && go(state)) round`. Every round moves the pointer on, so there are at
most as many rounds as cells. -/
def loop (go : S → Bool) (body : Visit τ → S → Scan β ω S) (stop off : ℕ) (st : S) :
    Scan β ω (ℕ × S) :=
  Program.whileLoop (fun s => decide (s.1 < stop) && go s.2) (W.round body) (stop - off) (off, st)

variable {W} {go : S → Bool} {body : Visit τ → S → Scan β ω S}

lemma loop_unfold (stop off : ℕ) (st : S) :
    W.loop go body stop off st =
      if off < stop ∧ go st then
        W.round body (off, st) >>= fun s => W.loop go body stop s.1 s.2
      else .ret (off, st) := by
  have hpos : ∀ s : ℕ × S, decide (s.1 < stop) && go s.2 → 0 < stop - s.1 := by
    intro s hs
    simp only [Bool.and_eq_true, decide_eq_true_eq] at hs
    omega
  have hdec : ∀ s : ℕ × S, decide (s.1 < stop) && go s.2 →
      (W.round body s).Ensures (fun _ _ => True) fun s' _ => stop - s'.1 < stop - s.1 := by
    intro s hs
    have hw := W.format.width_pos
    simp only [Bool.and_eq_true, decide_eq_true_eq] at hs
    simp only [round, Program.ensures_bind]
    apply Program.ensures_of_forall
    intro h t
    apply Program.ensures_of_forall
    intro _ _
    apply Program.ensures_of_forall
    intro _ _
    simp only [Program.pure_eq_ret, Program.ensures_ret]
    omega
  simpa [loop] using Program.whileLoop_unfold hpos hdec (off, st)

lemma loop_of_le {stop off : ℕ} (h : stop ≤ off) (st : S) :
    W.loop go body stop off st = .ret (off, st) := by
  rw [loop_unfold, if_neg (fun hlt => Nat.not_lt.mpr h hlt.1)]

lemma loop_of_not_go {st : S} (h : go st = false) (stop off : ℕ) :
    W.loop go body stop off st = .ret (off, st) := by
  rw [loop_unfold, if_neg (by simp [h])]

variable (m : Memory β)

lemma value_round (off : ℕ) (st : S) :
    (W.round body (off, st)).value m =
      (W.format.next m off, (body (W.format.visitAt m off) st).value m) := by
  simp [round, W.value_header, Format.next, Format.visitAt]

lemma outputs_round (off : ℕ) (st : S) :
    (W.round body (off, st)).outputs m =
      W.mark (W.format.visitAt m off) :: (body (W.format.visitAt m off) st).outputs m := by
  simp [round, W.value_header, W.outputs_header, Format.visitAt]

lemma trace_round (off : ℕ) (st : S) :
    (W.round body (off, st)).trace m =
      (W.header off).trace m ++ .emit (W.mark (W.format.visitAt m off)) ::
        (body (W.format.visitAt m off) st).trace m := by
  simp [round, W.value_header, Format.visitAt]

lemma value_loop_of_lt {stop off : ℕ} {st : S} (h : off < stop) (hgo : go st) :
    (W.loop go body stop off st).value m =
      (W.loop go body stop (W.format.next m off)
        ((body (W.format.visitAt m off) st).value m)).value m := by
  rw [loop_unfold, if_pos ⟨h, hgo⟩, value_bind, value_round]

lemma outputs_loop_of_lt {stop off : ℕ} {st : S} (h : off < stop) (hgo : go st) :
    (W.loop go body stop off st).outputs m =
      W.mark (W.format.visitAt m off) :: (body (W.format.visitAt m off) st).outputs m ++
        (W.loop go body stop (W.format.next m off)
          ((body (W.format.visitAt m off) st).value m)).outputs m := by
  rw [loop_unfold, if_pos ⟨h, hgo⟩, outputs_bind, value_round, outputs_round]

lemma trace_loop_of_lt {stop off : ℕ} {st : S} (h : off < stop) (hgo : go st) :
    (W.loop go body stop off st).trace m =
      (W.header off).trace m ++ .emit (W.mark (W.format.visitAt m off)) ::
        (body (W.format.visitAt m off) st).trace m ++
        (W.loop go body stop (W.format.next m off)
          ((body (W.format.visitAt m off) st).value m)).trace m := by
  rw [loop_unfold, if_pos ⟨h, hgo⟩, trace_bind, value_round, trace_round]

/-- A loop without an early exit ends where the walk ends, its state folded over the rounds of
the walk. -/
theorem value_loop (stop off : ℕ) (st : S) :
    (W.loop (fun _ => true) body stop off st).value m =
      (W.format.walkEnd m stop off,
        (W.format.walk m stop off).foldl (fun s v => (body v s).value m) st) := by
  induction off using Format.walk_induction W.format m stop
    generalizing st with
  | round off h ih =>
    rw [value_loop_of_lt m h rfl, ih, Format.walkEnd_of_lt h, Format.walk_of_lt h,
      List.foldl_cons]
  | done off h =>
    rw [loop_of_le h, value_ret, Format.walkEnd_of_le h, Format.walk_of_le h, List.foldl_nil]

/-- Where what the body does depends on the visit alone, a loop without an early exit reads a
header, marks the visit and does that in every round of the walk. -/
theorem trace_loop {calls : Visit τ → List (ScanOp ω)} (hbody : ∀ v s, (body v s).trace m = calls v)
    (stop off : ℕ) (st : S) :
    (W.loop (fun _ => true) body stop off st).trace m =
      (W.format.walk m stop off).flatMap fun v =>
        (W.header v.off).trace m ++ .emit (W.mark v) :: calls v := by
  induction off using Format.walk_induction W.format m stop
    generalizing st with
  | round off h ih =>
    rw [trace_loop_of_lt m h rfl, ih, Format.walk_of_lt h, List.flatMap_cons, hbody]
    rfl
  | done off h => rw [loop_of_le h, trace_ret, Format.walk_of_le h, List.flatMap_nil]

/-- A loop whose body emits nothing emits only marks, also when it is left early. -/
lemma eq_mark_of_mem_outputs_loop (hout : ∀ v s, (body v s).outputs m = []) {stop off : ℕ} {st : S}
    {o : ω} (ho : o ∈ (W.loop go body stop off st).outputs m) : ∃ v, o = W.mark v := by
  induction off using Format.walk_induction W.format m stop generalizing st with
  | round off h ih =>
    cases hgo : go st with
    | false => simp [loop_of_not_go hgo] at ho
    | true =>
      rw [outputs_loop_of_lt m h hgo, hout, List.singleton_append] at ho
      rcases List.mem_cons.mp ho with rfl | ho
      · exact ⟨_, rfl⟩
      · exact ih ho
  | done off h => simp [loop_of_le h] at ho

end Walker

end Tlv
