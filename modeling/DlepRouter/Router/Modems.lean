import DlepRouter.Router.Command

/-!
# The modems that are called

Over a whole run of the router there are many discoveries and many dialogues. Two things hold of
every operation, and so of every run: the router calls no address but the one that it has made of
its operands or that was offered to it last, after the call before; and it neither announces itself
nor calls again before the dialogue has ended in order.
-/

namespace DlepRouter

open Interaction Tlv Scan Libc

section Operation

variable {set : Settings} {given : Option (List UInt8)}

/-! ### Whom the router calls -/

/-- The last connection point of the Peer Offer is a modem at the address. -/
def NamesLast (bs address : List UInt8) : Prop :=
  ∃ i, OffersLast bs i ∧ connPort i ≠ 0 ∧
    IsSockaddr (connFamily i) (connAddress i) (connPort i) address

/-- The router may call the address: it is the one that it operates with, or there is none and the
offer names it. -/
def MayCall (given offer : Option (List UInt8)) (address : List UInt8) : Prop :=
  given = some address ∨ given = none ∧ ∃ bs, offer = some bs ∧ NamesLast bs address

/-- Every address is called as it may be, and each call uses the offer up. -/
def CallsNamed (given : Option (List UInt8)) :
    Option (List UInt8) → List RouterObservation → Prop
  | _, [] => True
  | offer, .announced .. :: w => CallsNamed given offer w
  | _, .offered bs :: w => CallsNamed given (some bs) w
  | offer, .dialogue (.called address _) :: w =>
    MayCall given offer address ∧ CallsNamed given none w
  | offer, .dialogue _ :: w => CallsNamed given offer w

/-- A modem that was chosen may be called, and the router only listens for one if none is given. -/
def RouterPhase.Fits (given offer : Option (List UInt8)) : RouterPhase → Prop
  | listening => given = none
  | chosen address | talking address .connecting => MayCall given offer address
  | _ => True

/-- Nobody is called in the word. -/
def NoCalls (w : List Observation) : Prop :=
  ∀ o ∈ w, ∀ address connected, o ≠ .called address connected

lemma noCalls_heard (bs : List UInt8) : NoCalls (heard bs) := by
  intro o ho
  obtain ⟨b, -, rfl⟩ := List.mem_map.mp ho
  nofun

/-- A turn calls the modem and shows nothing else, or it calls nobody. -/
lemma Turn.calls {address : List UInt8} {ri : UInt32} {q q' : Phase} {w : List Observation}
    (h : Turn address ri q w q') :
    q = .connecting ∧ (∃ connected, w = [.called address connected]) ∨ NoCalls w := by
  cases h with
  | unconnected | connects => exact .inl ⟨rfl, _, rfl⟩
  | unanswered | rejected | agreed | declined | breaksOff | understands | refuses =>
    exact .inr (noCalls_heard _)
  | hearsNothing | hears => exact .inr (List.forall_mem_cons.mpr ⟨nofun, noCalls_heard _⟩)
  | uninitiated | initiated | wakes | beats | answers | unclosed | acknowledges | terminates
  | idles | givesUp => exact .inr (List.forall_mem_singleton.mpr nofun)
  | _ => exact .inr (List.forall_mem_nil _)

/-- No turn leads back to the start. -/
lemma Turn.fits {address : List UInt8} {ri : UInt32} {q q' : Phase} {w : List Observation}
    {offer : Option (List UInt8)} (h : Turn address ri q w q') :
    (RouterPhase.talking address q').Fits given offer := by
  cases h <;> trivial

lemma callsNamed_append {w : List Observation} (hw : NoCalls w) {offer : Option (List UInt8)}
    {w' : List RouterObservation} (h : CallsNamed given offer w') :
    CallsNamed given offer (w.map .dialogue ++ w') := by
  induction w with
  | nil => exact h
  | cons o w ih =>
    obtain ⟨ho, hrest⟩ := List.forall_mem_cons.mp hw
    cases o with
    | called address connected => exact absurd rfl (ho address connected)
    | _ => exact ih hrest

/-- A step calls as it may, if what follows does. -/
lemma Operation.callsNamed {q q' : RouterPhase} {w w' : List RouterObservation}
    {offer : Option (List UInt8)} (h : Operation set given q w q') (hq : q.Fits given offer)
    (hrest : ∀ offer', q'.Fits given offer' → CallsNamed given offer' w') :
    CallsNamed given offer (w ++ w') := by
  cases h with
  | isGiven hgiven => exact hrest offer (.inl hgiven)
  | announces hgiven => exact hrest offer hgiven
  | finds h hport haddress => exact hrest _ (.inr ⟨hq, _, rfl, _, h, hport, haddress⟩)
  | starts => exact hrest offer hq
  | talks hturn =>
    rcases hturn.calls with ⟨rfl, connected, rfl⟩ | hnone
    · exact ⟨hq, hrest none hturn.fits⟩
    · exact callsNamed_append hnone (hrest offer hturn.fits)
  | unprepared | unannounced | waitsAgain | breaksOff | refuses | findsNoPort | startsOver
  | givesUp => exact hrest _ trivial

lemma callsNamed_of_run {q q' : RouterPhase} {w : List RouterObservation}
    {offer : Option (List UInt8)} (h : (Operation set given).Run q w q')
    (hq : q.Fits given offer) : CallsNamed given offer w := by
  induction h generalizing offer with
  | refl q => trivial
  | step hstep _ ih => exact hstep.callsNamed hq fun offer' hfits => ih hfits

/-! ### When the router calls again -/

/-- The dialogue has ended in order: the router has sent a response to a termination in full, or it
has said a termination of its own in full and then waited until it heard something. Whatever octets
it hears there are as good as a response. -/
inductive EndsInOrder : List Observation → Prop where
  | acknowledges (d : List Observation) : EndsInOrder (d ++ [.said terminationResp true])
  | hears (d : List Observation) (status : UInt8) (k : ℕ) {bs : List UInt8} (hbs : bs ≠ []) :
    EndsInOrder (d ++ .said (termination status) true ::
      (List.replicate k .woke ++ .woke :: heard bs))

/-- There was no dialogue, or it has ended in order. -/
def InOrder (d : List Observation) : Prop := d = [] ∨ EndsInOrder d

/-- The router does nothing but hold its dialogue, which `d` is the front of, until it is
settled. -/
def RestartsInOrder : List Observation → List RouterObservation → Prop
  | _, [] => True
  | d, .announced .. :: w | d, .offered _ :: w => InOrder d ∧ RestartsInOrder d w
  | d, .dialogue (.called address connected) :: w =>
    InOrder d ∧ RestartsInOrder [.called address connected] w
  | d, .dialogue o :: w => RestartsInOrder (d ++ [o]) w

/-- What a dialogue has come to in its last phases. -/
def Phase.Closes (d : List Observation) : Phase → Prop
  | connecting | ended => InOrder d
  | terminating =>
    ∃ d' status k, d = d' ++ .said (termination status) true :: List.replicate k .woke
  | _ => True

/-- Outside its dialogues, all that the router has held are settled. -/
def RouterPhase.Closes (d : List Observation) : RouterPhase → Prop
  | seeking | listening | chosen _ => InOrder d
  | talking _ q => q.Closes d
  | stopped _ => True

lemma Turn.closes {address : List UInt8} {ri : UInt32} {q q' : Phase} {w d : List Observation}
    (h : Turn address ri q w q') (hw : NoCalls w) (hq : q.Closes d) : q'.Closes (d ++ w) := by
  cases h with
  | acknowledges => exact .inr (.acknowledges d)
  | @terminates status => exact ⟨d, status, 0, rfl⟩
  | idles =>
    obtain ⟨d', status, k, rfl⟩ := hq
    refine ⟨d', status, k + 1, ?_⟩
    rw [List.replicate_succ', List.append_assoc, List.cons_append]
  | hears hbs =>
    obtain ⟨d', status, k, rfl⟩ := hq
    rw [List.append_assoc, List.cons_append]
    exact .inr (.hears d' status k hbs)
  | _ => trivial

lemma restartsInOrder_append {w d : List Observation} (hw : NoCalls w)
    {w' : List RouterObservation} (h : RestartsInOrder (d ++ w) w') :
    RestartsInOrder d (w.map .dialogue ++ w') := by
  induction w generalizing d with
  | nil => rwa [List.append_nil] at h
  | cons o w ih =>
    obtain ⟨ho, hrest⟩ := List.forall_mem_cons.mp hw
    have hnext : RestartsInOrder (d ++ [o]) (w.map .dialogue ++ w') := by
      apply ih hrest
      rwa [List.append_assoc]
    cases o with
    | called address connected => exact absurd rfl (ho address connected)
    | _ => exact hnext

/-- A step restarts in order, if what follows does. -/
lemma Operation.restartsInOrder {q q' : RouterPhase} {w w' : List RouterObservation}
    {d : List Observation} (h : Operation set given q w q') (hq : q.Closes d)
    (hrest : ∀ d', q'.Closes d' → RestartsInOrder d' w') : RestartsInOrder d (w ++ w') := by
  cases h with
  | isGiven | waitsAgain | starts | startsOver => exact hrest d hq
  | announces | refuses | finds => exact ⟨hq, hrest d hq⟩
  | unannounced | findsNoPort => exact ⟨hq, hrest d trivial⟩
  | unprepared | breaksOff | givesUp => exact hrest d trivial
  | talks hturn =>
    rcases hturn.calls with ⟨rfl, connected, rfl⟩ | hnone
    · refine ⟨hq, hrest _ ?_⟩
      cases hturn <;> trivial
    · exact restartsInOrder_append hnone (hrest _ (hturn.closes hnone hq))

lemma restartsInOrder_of_run {q q' : RouterPhase} {w : List RouterObservation}
    {d : List Observation} (h : (Operation set given).Run q w q') (hq : q.Closes d) :
    RestartsInOrder d w := by
  induction h generalizing d with
  | refl q => trivial
  | step hstep _ ih => exact hstep.restartsInOrder hq fun d' hcloses => ih hcloses

end Operation

/-! ### Every run of the router -/

section Runs

variable {S : Type} (H : Handler routerSig S) (s : S) (lib : CLibrary) (n : ℕ) (opts : List Opt)
  (operands : List Text)

/-- Over every run, the router calls no address but the one that `main` has made of its operands, or
if there are no operands one that the last Peer Offer names, and that offer came after the call
before. -/
theorem router_calls_named :
    ∃ given, CallsNamed given none
        (((router lib n opts operands).run H s).trace.flatMap observeRouter) ∧
      (((router lib n opts operands).run H s).trace.flatMap observeRouter = [] ∨
        ∃ set, parseOptions lib opts .initial = .ok set ∧ GivenBy lib set operands given) := by
  have hrouter : (router lib n opts operands).Ensures (fun _ _ => True) fun _ t =>
      ∃ given, CallsNamed given none (t.flatMap observeRouter) ∧
        (t.flatMap observeRouter = [] ∨
          ∃ set, parseOptions lib opts .initial = .ok set ∧ GivenBy lib set operands given) := by
    apply (conducted_router lib n opts operands).mono
    intro v t h
    generalize t.flatMap observeRouter = w at h ⊢
    cases h with
    | refused => exact ⟨none, trivial, .inl rfl⟩
    | @operates set given _ _ _ hset hgiven hrun _ =>
      exact ⟨given, callsNamed_of_run hrun trivial, .inr ⟨set, hset, hgiven⟩⟩
  exact hrouter.run_any H s

/-- Over every run, the router neither announces itself nor calls a modem before the dialogue that
it holds has ended in order, by a response that it has sent or behind a termination of its own by
anything that it has heard. Where a dialogue ends otherwise, the router does nothing more. -/
theorem router_restarts_in_order :
    RestartsInOrder []
      (((router lib n opts operands).run H s).trace.flatMap observeRouter) := by
  have hrouter : (router lib n opts operands).Ensures (fun _ _ => True) fun _ t =>
      RestartsInOrder [] (t.flatMap observeRouter) := by
    apply (conducted_router lib n opts operands).mono
    intro v t h
    generalize t.flatMap observeRouter = w at h ⊢
    cases h with
    | refused => trivial
    | operates _ _ hrun _ => exact restartsInOrder_of_run hrun (.inl rfl)
  exact hrouter.run_any H s

end Runs

end DlepRouter
