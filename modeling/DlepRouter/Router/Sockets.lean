import DlepRouter.Discovery.Socket
import DlepRouter.Router.Machine
import DlepRouter.Session.Socket

/-!
# The sockets of the router

The router has a socket for each discovery and one for each session. No matter how long it runs and
what it is answered, they are used as their monitors say, there is one at a time, and when the
router has come to an end there is none.
-/

namespace DlepRouter

open Interaction Libc

/-- What the router holds: the socket of a discovery and that of a session. -/
structure Sockets where
  datagram : DatagramUse
  stream : StreamUse

namespace Sockets

/-- There is no socket. -/
def unused : Sockets := ⟨.closed, .closed⟩

/-- The monitor of all calls of the router: one socket is only used while the other is closed. -/
def after : Sockets → Event routerSig → Option Sockets
  | ⟨.closed, .closed⟩, ⟨.inl _, _⟩ => some unused
  | ⟨u, .closed⟩, ⟨.inr (.inl c), r⟩ => (u.after ⟨c, r⟩).map fun u' => ⟨u', .closed⟩
  | ⟨.closed, u⟩, ⟨.inr (.inr c), r⟩ => (u.after ⟨c, r⟩).map fun u' => ⟨.closed, u'⟩
  | _, _ => none

@[simp] lemma after_net (u : DatagramUse) (c : NetCall) (r : c.Answer) :
    after ⟨u, .closed⟩ ⟨.inr (.inl c), r⟩ =
      (u.after ⟨c, r⟩).map fun u' => ⟨u', .closed⟩ := by
  cases u <;> rfl

@[simp] lemma after_sys (u : StreamUse) (c : SysCall) (r : c.Answer) :
    after ⟨.closed, u⟩ ⟨.inr (.inr c), r⟩ =
      (u.after ⟨c, r⟩).map fun u' => ⟨.closed, u'⟩ := by
  cases u <;> rfl

end Sockets

section Router

open Program (Refines Admitted)

variable {ok : Assumption routerSig} (n : ℕ)

/-- What a discovery does with its socket is done by the router. -/
lemma admitted_net {α : Type} {p : Net α} {u : DatagramUse} {R : α → DatagramUse → Prop}
    (h : p.Admitted (fun op => ok (.inr (.inl op))) DatagramUse.after u R) :
    (Router.net p).Admitted ok Sockets.after ⟨u, .closed⟩
      fun a q => ∃ u', q = ⟨u', .closed⟩ ∧ R a u' := by
  apply Program.refines_inr.mpr
  apply Program.refines_inl.mpr
  refine h.map (fun u => (⟨u, .closed⟩ : Sockets)) (fun e => (e.inl.inr : Event routerSig)) ?_
  rintro u _ u' ⟨⟨c, r⟩, rfl, hstep⟩
  refine .single ⟨_, rfl, (Sockets.after_net u c r).trans ?_⟩
  rw [hstep]
  rfl

/-- So is what a session does with its own. -/
lemma admitted_sys {α : Type} {p : Sys α} {u : StreamUse} {R : α → StreamUse → Prop}
    (h : p.Admitted (fun op => ok (.inr (.inr op))) StreamUse.after u R) :
    (Router.sys p).Admitted ok Sockets.after ⟨.closed, u⟩
      fun a q => ∃ u', q = ⟨.closed, u'⟩ ∧ R a u' := by
  apply Program.refines_inr.mpr
  apply Program.refines_inr.mpr
  refine h.map (fun u => (⟨.closed, u⟩ : Sockets)) (fun e => (e.inr.inr : Event routerSig)) ?_
  rintro u _ u' ⟨⟨c, r⟩, rfl, hstep⟩
  refine .single ⟨_, rfl, (Sockets.after_sys u c r).trans ?_⟩
  rw [hstep]
  rfl

/-- Every call of `main` that comes to an end leaves no socket. -/
lemma admitted_routerCall (op : MainCall) :
    (routerCall n op).Admitted ok Sockets.after .unused fun r q => r.isSome → q = .unused := by
  cases op with
  | ifNametoindex iface =>
    apply Admitted.call
    intro scopeId _
    exact ⟨.unused, rfl, .ret fun _ => rfl⟩
  | discover useIpv6 iface address =>
    apply Admitted.call
    intro msg _
    refine ⟨.unused, rfl, ?_⟩
    apply (admitted_net
      (admitted_discover n useIpv6 iface msg address.storage address.length)).bind
    rintro r _ ⟨u, rfl, hu⟩
    refine .ret fun hsome => ?_
    rw [hu (by simpa using hsome)]
    rfl
  | session modemAddress interval =>
    apply (admitted_sys (admitted_session n modemAddress interval)).mono
    rintro r _ ⟨u, rfl, hu⟩ hsome
    rw [hu hsome]
    rfl

/-- Over every run, all calls of the router are admitted by the monitor of its sockets, and when it
has come to an end there is no socket left. -/
theorem router_uses_sockets {S : Type} (H : Handler routerSig S) (s : S) (lib : CLibrary)
    (opts : List Opt) (operands : List Text) :
    ∃ q, ((router lib n opts operands).run H s).trace.foldlM Sockets.after .unused = some q ∧
      (((router lib n opts operands).run H s).value.isSome → q = .unused) := by
  have hmain : ((main lib n opts operands).implement (routerCall n)).Admitted
      (fun _ _ => True) Sockets.after .unused fun r q => r.isSome → q = .unused := by
    refine Refines.implement (I := fun q : Sockets => q = .unused) ?_
      (main lib n opts operands) rfl
    rintro op _ rfl
    exact admitted_routerCall n op
  have hrouter : (router lib n opts operands).Admitted (fun _ _ => True) Sockets.after .unused
      fun v q => v.isSome → q = .unused := by
    apply hmain.bind
    intro r q hq
    cases r with
    | none => exact .ret nofun
    | some r => exact .ret fun _ => hq rfl
  obtain ⟨q, hrun, hq⟩ := hrouter.run_any H s
  rw [List.flatMap_singleton'] at hrun
  exact ⟨q, Machine.run_ofMonitor_iff.mp hrun, hq⟩

end Router

end DlepRouter
