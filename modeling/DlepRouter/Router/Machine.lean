import DlepRouter.Discovery.Machine
import DlepRouter.Interaction.Implement
import DlepRouter.Main.Machine
import DlepRouter.Session.Machine

/-!
# The router as a whole

`main` calls `discover` and `session`, and here the calls are those programs: what is left are the
calls that the router makes of its system. A round of the loop of `main` does not come to an end if
a loop in it does not.
-/

namespace DlepRouter

open Interaction Tlv Libc

/-! ### Calls -/

/-- What the router gets from its system besides the calls of discovery and of sessions. The block
that `get_peer_offer` keeps on the stack holds anything. -/
inductive HostCall where
  | ifNametoindex : (iface : Text) → HostCall
  | stack : HostCall

abbrev HostCall.Answer : HostCall → Type
  | ifNametoindex _ => UInt32
  | stack => Memory UInt8

abbrev hostSig : Signature where
  Op := HostCall
  Ans := HostCall.Answer

/-- All calls of the router. -/
abbrev routerSig : Signature := hostSig.sum (netSig.sum sysSig)

/-- Programs that make the calls of the router. -/
abbrev Router (α : Type) := Program routerSig α

namespace Router

/-- Make a call of the host. -/
def host (c : HostCall) : Router c.Answer := (Program.perform (σ := hostSig) c).inl

/-- Make the calls of discovery. -/
def net {α : Type} (p : Net α) : Router α := p.inl.inr

/-- Make the calls of a session. -/
def sys {α : Type} (p : Sys α) : Router α := p.inr.inr

end Router

/-! ### The program -/

/-- What a call of `main` comes to. All loops are cut off after `n` rounds. -/
def routerCall (n : ℕ) : (op : MainCall) → Router (Option op.Answer)
  | .ifNametoindex iface => do
    let scopeId ← Router.host (.ifNametoindex iface)
    pure (some scopeId)
  | .discover useIpv6 iface address => do
    let msg ← Router.host .stack
    let r ← Router.net (discover n useIpv6 iface msg address.storage address.length)
    pure (r.map fun r => (r.1, ⟨r.2.storage, r.2.length⟩))
  | .session modemAddress routerHeartbeatInterval =>
    Router.sys (session n modemAddress routerHeartbeatInterval)

/-- The router: how it ends, or `none` if it has not come to an end. -/
def router (lib : CLibrary) (n : ℕ) (opts : List Opt) (operands : List Text) :
    Router (Option Exit) :=
  (main lib n opts operands).implement (routerCall n) >>= fun r => pure r.join

end DlepRouter
