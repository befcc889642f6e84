import DlepRouter.Discovery.Address
import DlepRouter.Main.Strtoul

/-!
# The command line (`main.c`)

`main` reads its options and at most two operands, the address of a modem and its port, and then
runs one session after the other, with a discovery before each if there is no address. The calls of
`discover` and `session` are left open here, as are the parts of the C library on which the
standards leave a choice.
-/

namespace DlepRouter

open Interaction Tlv Libc

/-! ### The C library -/

/-- `inet_pton`, which yields the octets of an address and knows no text of both families, and
whether `strtoul` sets `errno` where there is nothing to convert. -/
structure CLibrary where
  inetPton : Family → Text → Option (List UInt8)
  setsEinval : Bool
  length_inetPton : ∀ f text octets, inetPton f text = some octets →
    octets.length = f.addressSize
  one_family : ∀ text, inetPton .inet text = none ∨ inetPton .inet6 text = none

namespace CLibrary

variable (lib : CLibrary)

/-- `inet_pton(f,text,&address_buffer)`: whether the text was valid, and the buffer, which is left
alone if the text was not. -/
def fillBuffer (f : Family) (text : Text) (buffer : Memory UInt8) : Bool × Memory UInt8 :=
  match lib.inetPton f text with
  | some octets => (true, buffer.patch 0 octets)
  | none => (false, buffer)

end CLibrary

/-- `192.0.2.1`. -/
def sampleText : Text := [49, 57, 50, 46, 48, 46, 50, 46, 49]

/-- A library that knows no other address. -/
def CLibrary.sample : CLibrary where
  inetPton f text := if f = .inet ∧ text = sampleText then some [192, 0, 2, 1] else none
  setsEinval := false
  length_inetPton := by
    intro f text octets h
    split_ifs at h with hknown
    obtain rfl := Option.some.inj h
    rw [hknown.1]
    rfl
  one_family := by simp

/-! ### Calls -/

/-- What `address` and `address_length` hold. -/
structure Sockaddr where
  storage : Memory UInt8
  length : ℕ

/-- The octets that `session` is told to look at. -/
def Sockaddr.octets (address : Sockaddr) : List UInt8 := address.storage.slice 0 address.length

/-- The calls that `main` makes when it has read its options. -/
inductive MainCall where
  | ifNametoindex : (iface : Text) → MainCall
  | discover : (useIpv6 : Bool) → (iface : Option Text) → Sockaddr → MainCall
  | session : (modemAddress : List UInt8) → (routerHeartbeatInterval : UInt32) → MainCall

/-- The answers: `discover` says whether it has found a modem, and leaves an address. -/
abbrev MainCall.Answer : MainCall → Type
  | ifNametoindex _ => UInt32
  | discover .. => Bool × Sockaddr
  | session .. => ℤ

abbrev mainSig : Signature where
  Op := MainCall
  Ans := MainCall.Answer

/-- Programs that make the calls of `main`. -/
abbrev Main (α : Type) := Program mainSig α

/-- Make a call. -/
def Main.call (c : MainCall) : Main c.Answer := Program.perform (σ := mainSig) c

/-- An environment in which discovery finds a modem and the session with it fails. -/
def failing : Handler mainSig Unit where
  answer _
    | .ifNametoindex _ => (0, ())
    | .discover _ _ address => ((true, address), ())
    | .session .. => (-1, ())

/-- How `main` comes to an end. -/
inductive Exit where
  | helpShown
  | missingArgument
  | unknownOption
  | tooManyArguments
  | portNotParsed
  | interfaceRequired
  | notRecognised
  | discoveryFailed
  | sessionFailed
  deriving DecidableEq

/-- `EXIT_SUCCESS` or `EXIT_FAILURE`. -/
def Exit.code : Exit → ℕ
  | helpShown => 0
  | _ => 1

/-! ### Options -/

/-- What `getopt_long` yields, up to the end of the options. -/
inductive Opt where
  | interface : (optarg : Text) → Opt
  | ipv6
  | heartbeat : (optarg : Text) → Opt
  | help
  | missingArgument
  | unknown

/-- `DEFAULT_HEARTBEAT_INTERVAL`. -/
def defaultHeartbeatInterval : UInt32 := 30

/-- What the options set, and `errno`, which nothing resets. -/
structure Settings where
  useIpv6 : Bool
  iface : Option Text
  routerHeartbeatInterval : UInt32
  errno : Option Errno

/-- The settings without options. At program startup `errno` is 0. -/
def Settings.initial : Settings := ⟨false, none, defaultHeartbeatInterval, none⟩

section Options

variable (lib : CLibrary)

/-- The loop over the options. -/
def parseOptions : List Opt → Settings → Except Exit Settings
  | [], set => .ok set
  | .interface optarg :: opts, set => parseOptions opts { set with iface := some optarg }
  | .ipv6 :: opts, set => parseOptions opts { set with useIpv6 := true }
  | .heartbeat optarg :: opts, set =>
    let (seconds, errno) := strtoul lib.setsEinval optarg
    let interval := seconds.toUInt32
    parseOptions opts
      { set with routerHeartbeatInterval := interval * 1000, errno := errno.or set.errno }
  | .help :: _, _ => .error .helpShown
  | .missingArgument :: _, _ => .error .missingArgument
  | .unknown :: _, _ => .error .unknownOption

/-! ### Operands -/

/-- The port of the modem, which is kept in an `in_port_t`. -/
def parseModemPort (set : Settings) : Option Text → Except Exit UInt16
  | none => .ok wellKnownPort
  | some text =>
    let (value, errno) := strtoul lib.setsEinval text
    if errno.or set.errno ≠ none then .error .portNotParsed else .ok value.toUInt16

/-- Store family, port and address. The address comes from the front of the buffer. -/
def storeAddress (f : Family) (port : UInt16) (buffer storage : Memory UInt8) : Memory UInt8 :=
  ((storage.patch 0 f.octets).patch 2 (writeUint16 port)).patch f.addressAt
    (buffer.slice 0 f.addressSize)

/-- What is done with an address that is taken for an IPv6 address. -/
def storeIpv6 (set : Settings) (port : UInt16) (buffer storage : Memory UInt8) :
    Main (Except Exit Sockaddr) :=
  let storage := storeAddress .inet6 port buffer storage
  -- `IN6_IS_ADDR_MULTICAST`
  if storage 8 = 0xFF then
    match set.iface with
    | none => pure (.error .interfaceRequired)
    | some iface => do
      let scopeId ← Main.call (.ifNametoindex iface)
      pure (.ok ⟨storage.patch 24 (hostUint32 scopeId), Family.inet6.addressLength⟩)
  else pure (.ok ⟨storage, Family.inet6.addressLength⟩)

/-- The attempts to parse the address of the modem, first as IPv6 and then as IPv4. Both conditions
are disjunctions, and `inet_pton` is not called where the flag decides them. -/
def parseModemAddress (set : Settings) (text : Text) (port : UInt16) :
    Main (Except Exit Sockaddr) := do
  let buffer : Memory UInt8 := fun _ => 0
  let (taken6, buffer) :=
    if set.useIpv6 then (true, buffer) else lib.fillBuffer .inet6 text buffer
  let stored ←
    if taken6 then storeIpv6 set port buffer fun _ => 0 else pure (.ok ⟨fun _ => 0, 0⟩)
  match stored with
  | .error e => pure (.error e)
  | .ok address =>
    -- `use_ipv6` is set by now exactly if the first attempt was taken.
    let (taken4, buffer) :=
      if taken6 then lib.fillBuffer .inet text buffer else (true, buffer)
    if taken4 then
      pure (.ok ⟨storeAddress .inet port buffer address.storage, Family.inet.addressLength⟩)
    else pure (.error .notRecognised)

/-! ### The program -/

/-- One round of the loop of `main`. -/
def mainRound (set : Settings) (discovers : Bool) (address : Sockaddr) :
    Main (Sockaddr ⊕ Option Exit) := do
  let (found, address) ←
    if discovers then Main.call (.discover set.useIpv6 set.iface address) else pure (true, address)
  if found then do
    let ret ← Main.call (.session address.octets set.routerHeartbeatInterval)
    if ret ≠ 0 then pure (.inr (some .sessionFailed)) else pure (.inl address)
  else pure (.inr (some .discoveryFailed))

/-- The loop of `main`. -/
def mainLoop (n : ℕ) (set : Settings) (discovers : Bool) (address : Sockaddr) :
    Main (Option Exit) :=
  Program.forever (mainRound set discovers) (fun _ => none) n address

/-- `main`, on the options and the operands behind them: how it ends, or `none` if its loop has not
ended after `n` rounds. The seed of the random numbers is left out, as nothing depends on it. -/
def main (n : ℕ) (opts : List Opt) (operands : List Text) : Main (Option Exit) :=
  match parseOptions lib opts .initial with
  | .error e => pure (some e)
  | .ok set =>
    if operands.length > 2 then pure (some .tooManyArguments)
    else match operands with
      | [] => mainLoop n set true ⟨fun _ => 0, 0⟩
      | text :: port =>
        match parseModemPort lib set port.head? with
        | .error e => pure (some e)
        | .ok port => do
          match ← parseModemAddress lib set text port with
          | .error e => pure (some e)
          | .ok address => mainLoop n set false address

end Options

end DlepRouter
