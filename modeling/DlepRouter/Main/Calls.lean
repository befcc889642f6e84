import DlepRouter.Main.Machine
import Mathlib.Data.List.Basic

/-!
# The sessions that `main` opens

Every session of a run is opened with the interval that the options have set, and, if the address
of the modem was given, with what the parsing of the operands has made of it.
-/

namespace DlepRouter

open Interaction Tlv Libc

/-- A number of seconds is cut to 32 bits and multiplied, and its error is kept. -/
lemma parseOptions_cons_heartbeat (lib : CLibrary) (optarg : Text) (opts : List Opt)
    (set : Settings) :
    parseOptions lib (.heartbeat optarg :: opts) set =
      parseOptions lib opts
        { set with
          routerHeartbeatInterval := (strtoul lib.setsEinval optarg).1.toUInt32 * 1000
          errno := (strtoul lib.setsEinval optarg).2.or set.errno } := rfl

/-! ### Calls of `session` -/

/-- The calls of `session` in a list of events: the address and the interval. -/
def sessionCalls (t : List (Event mainSig)) : List (List UInt8 × UInt32) :=
  t.filterMap fun e => match e.op with
    | .session modemAddress interval => some (modemAddress, interval)
    | _ => none

@[simp] lemma sessionCalls_nil : sessionCalls [] = [] := rfl

@[simp] lemma sessionCalls_cons_session (modemAddress : List UInt8) (interval : UInt32) (ret : ℤ)
    (t : List (Event mainSig)) :
    sessionCalls (⟨.session modemAddress interval, ret⟩ :: t) =
      (modemAddress, interval) :: sessionCalls t := rfl

@[simp] lemma sessionCalls_cons_discover (useIpv6 : Bool) (iface : Option Text) (address : Sockaddr)
    (ret : Bool × Sockaddr) (t : List (Event mainSig)) :
    sessionCalls (⟨.discover useIpv6 iface address, ret⟩ :: t) = sessionCalls t := rfl

@[simp] lemma sessionCalls_cons_ifNametoindex (iface : Text) (ret : UInt32)
    (t : List (Event mainSig)) :
    sessionCalls (⟨.ifNametoindex iface, ret⟩ :: t) = sessionCalls t := rfl

@[simp] lemma sessionCalls_append (t t' : List (Event mainSig)) :
    sessionCalls (t ++ t') = sessionCalls t ++ sessionCalls t' := by
  simp [sessionCalls]

section Loop

variable {ok : Assumption mainSig} {lib : CLibrary} {set : Settings}

/-- A round opens its session with the interval of the settings. -/
lemma ensures_mainRound_interval (discovers : Bool) (address : Sockaddr) :
    (mainRound set discovers address).Ensures ok fun _ t =>
      ∀ c ∈ sessionCalls t, c.2 = set.routerHeartbeatInterval := by
  cases discovers with
  | true =>
    apply Program.ensures_perform_bind
    rintro ⟨found, address'⟩ _
    cases found with
    | true =>
      apply Program.ensures_perform_bind
      intro ret _
      split_ifs
      all_goals simp
    | false => simp
  | false =>
    apply Program.ensures_perform_bind
    intro ret _
    split_ifs
    all_goals simp

/-- Without a discovery it opens one, and goes on with the address that it was given. -/
lemma ensures_mainRound_address (address : Sockaddr) :
    (mainRound set false address).Ensures ok fun v t =>
      sessionCalls t = [(address.octets, set.routerHeartbeatInterval)] ∧
        ∀ address', v = .inl address' → address' = address := by
  apply Program.ensures_perform_bind
  intro ret _
  split_ifs
  · exact ⟨rfl, nofun⟩
  · refine ⟨rfl, ?_⟩
    rintro _ ⟨⟩
    rfl

/-- The interval of every session is that of the settings. -/
lemma ensures_mainLoop_interval (n : ℕ) (discovers : Bool) (address : Sockaddr) :
    (mainLoop n set discovers address).Ensures ok fun _ t =>
      ∀ c ∈ sessionCalls t, c.2 = set.routerHeartbeatInterval := by
  refine Program.ensures_forever
    (I := fun _ t => ∀ c ∈ sessionCalls t, c.2 = set.routerHeartbeatInterval)
    (Q := fun _ t => ∀ c ∈ sessionCalls t, c.2 = set.routerHeartbeatInterval)
    (fun _ _ h => h) ?_ n address [] (by simp)
  intro address t ht
  apply (ensures_mainRound_interval discovers address).mono
  intro v t' ht'
  have hall : ∀ c ∈ sessionCalls (t ++ t'), c.2 = set.routerHeartbeatInterval := by
    rw [sessionCalls_append]
    exact List.forall_mem_append.mpr ⟨ht, ht'⟩
  cases v with
  | inl address' => exact hall
  | inr ret => exact hall

/-- A given address is that of every session. -/
lemma ensures_mainLoop_address (n : ℕ) (address : Sockaddr) :
    (mainLoop n set false address).Ensures ok fun _ t =>
      ∀ c ∈ sessionCalls t, c.1 = address.octets := by
  refine Program.ensures_forever
    (I := fun address' t => address' = address ∧ ∀ c ∈ sessionCalls t, c.1 = address.octets)
    (Q := fun _ t => ∀ c ∈ sessionCalls t, c.1 = address.octets)
    (fun _ _ h => h.2) ?_ n address [] (by simp)
  rintro address' t ⟨hsame, ht⟩
  rw [hsame]
  apply (ensures_mainRound_address address).mono
  rintro v t' ⟨ht', hnext⟩
  have hall : ∀ c ∈ sessionCalls (t ++ t'), c.1 = address.octets := by
    rw [sessionCalls_append, ht']
    exact List.forall_mem_append.mpr ⟨ht, by simp⟩
  cases v with
  | inl address' => exact ⟨hnext address' rfl, hall⟩
  | inr ret => exact hall

/-- With one, the first round opens a session. -/
lemma ensures_mainLoop_ne_nil (n : ℕ) (address : Sockaddr) :
    (mainLoop (n + 1) set false address).Ensures ok fun _ t => sessionCalls t ≠ [] := by
  apply (ensures_mainRound_address address).bind
  rintro v t ⟨ht, -⟩
  apply Program.ensures_of_forall
  intro _ t'
  simp [ht]

end Loop

/-! ### The address of the modem -/

/-- The octets are a `struct sockaddr_in` or `struct sockaddr_in6` with the address and the port. -/
structure IsSockaddr (f : Family) (address : List UInt8) (port : UInt16) (octets : List UInt8) :
    Prop where
  length : octets.length = f.addressLength
  family : octets.take 2 = f.octets
  port : (octets.drop 2).take 2 = writeUint16 port
  address : (octets.drop f.addressAt).take f.addressSize = address

/-- Octets are one address only. -/
lemma IsSockaddr.unique {f f' : Family} {address address' : List UInt8} {port port' : UInt16}
    {octets : List UInt8} (h : IsSockaddr f address port octets)
    (h' : IsSockaddr f' address' port' octets) : f = f' ∧ address = address' ∧ port = port' := by
  have hf : f = f' := by
    have hoctets := h.family.symm.trans h'.family
    cases f <;> cases f' <;> first | rfl | exact absurd hoctets (by decide)
  subst hf
  have hport := congrArg bigEndian (h.port.symm.trans h'.port)
  rw [bigEndian_writeUint16, bigEndian_writeUint16] at hport
  exact ⟨rfl, h.address.symm.trans h'.address, UInt16.toNat_inj.mp hport⟩

/-- What is stored is an address, whatever the storage holds otherwise. -/
lemma isSockaddr_storeAddress (f : Family) (port : UInt16) (buffer storage : Memory UInt8) :
    IsSockaddr f (buffer.slice 0 f.addressSize) port
      (Sockaddr.octets ⟨storeAddress f port buffer storage, f.addressLength⟩) := by
  have hat : 4 ≤ f.addressAt := by cases f <;> decide
  have hend : f.addressAt + f.addressSize ≤ f.addressLength := by cases f <;> decide
  have hfamily : f.octets.length = 2 := by cases f <;> rfl
  have hoctets : Sockaddr.octets ⟨storeAddress f port buffer storage, f.addressLength⟩ =
    (storeAddress f port buffer storage).slice 0 f.addressLength := rfl
  rw [hoctets]
  refine ⟨Memory.length_slice .., ?_, ?_, ?_⟩
  · rw [Memory.take_slice _ _ (by omega), storeAddress,
      Memory.slice_patch_of_le _ _ (by omega), Memory.slice_patch_of_le _ _ (by omega), ← hfamily]
    exact Memory.slice_patch _ _ _
  · rw [Memory.drop_slice _ _ (by omega), Memory.take_slice _ _ (by omega),
      storeAddress, Memory.slice_patch_of_le _ _ (by omega)]
    exact Memory.slice_patch _ 2 (writeUint16 port)
  · rw [Memory.drop_slice _ _ (by omega), Memory.take_slice _ _ (by omega),
      storeAddress, Nat.zero_add]
    simpa using Memory.slice_patch _ f.addressAt (buffer.slice 0 f.addressSize)

section Operands

variable {ok : Assumption mainSig} (lib : CLibrary) {set : Settings} {text : Text} (port : UInt16)

/-- The IPv4 address that is used for a text: with `-6` the right one, and without it that of an
empty buffer, whatever the text, unless it is an IPv6 address. -/
def usedAddress (set : Settings) (text : Text) : Option (List UInt8) :=
  if set.useIpv6 then lib.inetPton .inet text
  else if (lib.inetPton .inet6 text).isSome then none
  else some [0, 0, 0, 0]

lemma ensures_storeIpv6 (buffer storage : Memory UInt8) :
    (storeIpv6 set port buffer storage).Ensures ok fun _ t => sessionCalls t = [] := by
  unfold storeIpv6
  dsimp only
  split_ifs
  · cases set.iface with
    | none => rfl
    | some iface =>
      intro scopeId _
      rfl
  · rfl

/-- Parsing the address opens no session, and yields the address that is used. -/
lemma ensures_parseModemAddress :
    (parseModemAddress lib set text port).Ensures ok fun v t => sessionCalls t = [] ∧
      match usedAddress lib set text with
      | some octets => ∃ address, v = .ok address ∧ IsSockaddr .inet octets port address.octets
      | none => ∃ e, v = .error e := by
  cases hflag : set.useIpv6 with
  | true =>
    have hused : usedAddress lib set text = lib.inetPton .inet text := if_pos hflag
    -- The buffer is still empty, and so is not multicast.
    have hcell : storeAddress .inet6 port (fun _ => 0) (fun _ => 0) 8 ≠ 0xFF := by
      have hzero : storeAddress .inet6 port (fun _ => 0) (fun _ => 0) 8 = 0 := rfl
      rw [hzero]
      decide
    rw [hused]
    simp only [parseModemAddress, hflag, if_true, storeIpv6, if_neg hcell, CLibrary.fillBuffer]
    cases h4 : lib.inetPton .inet text with
    | none => exact ⟨rfl, _, rfl⟩
    | some octets =>
      refine ⟨rfl, _, rfl, ?_⟩
      have hslice : (Memory.patch (fun _ => 0) 0 octets).slice 0 Family.inet.addressSize =
          octets := by
        rw [← lib.length_inetPton .inet text octets h4]
        exact Memory.slice_patch _ _ _
      have hstored := isSockaddr_storeAddress .inet port (Memory.patch (fun _ => 0) 0 octets)
        (storeAddress .inet6 port (fun _ => 0) fun _ => 0)
      rw [hslice] at hstored
      exact hstored
  | false =>
    cases h6 : lib.inetPton .inet6 text with
    | some octets =>
      have hused : usedAddress lib set text = none := by simp [usedAddress, hflag, h6]
      have h4 : lib.inetPton .inet text = none :=
        (lib.one_family text).resolve_right (by simp [h6])
      rw [hused]
      simp only [parseModemAddress, hflag, if_false, CLibrary.fillBuffer, h6, h4,
        Bool.false_eq_true, if_true]
      apply (ensures_storeIpv6 port _ _).bind
      intro stored t ht
      cases stored with
      | error e => exact ⟨by simp [ht], e, rfl⟩
      | ok address => exact ⟨by simp [ht], _, rfl⟩
    | none =>
      have hused : usedAddress lib set text = some [0, 0, 0, 0] := by simp [usedAddress, hflag, h6]
      rw [hused]
      simp only [parseModemAddress, hflag, if_false, CLibrary.fillBuffer, h6, Bool.false_eq_true]
      exact ⟨rfl, _, rfl, isSockaddr_storeAddress .inet port (fun _ => 0) fun _ => 0⟩

end Operands

end DlepRouter
