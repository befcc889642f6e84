import DlepRouter.Main.Calls

/-!
# The modem on the command line

`main` parses its first operand up to twice, and takes the address from a buffer that only a parse
that succeeded has filled. The port is what `strtoul` returns, cut to 16 bits, and is refused only
if `errno` is set.
-/

namespace DlepRouter

open Interaction Tlv Libc

/-! ### What the command line asks for -/

/-- The options go on to the operands. -/
def Opt.Continues : Opt → Prop
  | interface _ | ipv6 | heartbeat _ => True
  | help | missingArgument | unknown => False

/-- The port that the operand behind the address stands for. -/
def PortGiven : Option Text → UInt16 → Prop
  | none, p => p = wellKnownPort
  | some text, p => 1 ≤ p.toNat ∧ IsDecimal text p.toNat

section Given

variable (lib : CLibrary) (opts : List Opt) (text : Text) (port : Option Text)

/-- The operands stand for an address and a port. A multicast address needs an interface. -/
structure ModemGiven (f : Family) (octets : List UInt8) (p : UInt16) : Prop where
  valid : lib.inetPton f text = some octets
  port : PortGiven port p
  interface : f = .inet6 → octets.head? = some 0xFF → ∃ iface, .interface iface ∈ opts

/-- A session is opened exactly if the operands stand for a modem, and with that one. -/
structure OpensGiven (t : List (Event mainSig)) : Prop where
  opens_iff : sessionCalls t ≠ [] ↔ ∃ f octets p, ModemGiven lib opts text port f octets p
  given : ∀ c ∈ sessionCalls t,
    ∃ f octets p, ModemGiven lib opts text port f octets p ∧ IsSockaddr f octets p c.1

/-- `strtoul` sets no `errno`, neither for the port nor for an interval before it. -/
def PortAccepted : Prop :=
  ∀ text ∈ port, (strtoul lib.setsEinval text).2 = none ∧
    ∀ optarg, .heartbeat optarg ∈ opts → (strtoul lib.setsEinval optarg).2 = none

/-- The operands on which `main` opens the session that they ask for. -/
structure Fits : Prop where
  accepted : ∀ octets, lib.inetPton .inet text = some octets →
    (PortAccepted lib opts port ↔ ∃ p, PortGiven port p)
  ipv4 : ∀ octets, lib.inetPton .inet text = some octets → PortAccepted lib opts port →
    .ipv6 ∈ opts ∨ octets = [0, 0, 0, 0]
  ipv6 : ∀ octets, lib.inetPton .inet6 text = some octets → (∃ p, PortGiven port p) →
    octets.head? = some 0xFF ∧ ∀ iface, .interface iface ∉ opts
  neither : (∀ f, lib.inetPton f text = none) → PortAccepted lib opts port → .ipv6 ∈ opts

end Given

/-! ### The options -/

section Options

variable {lib : CLibrary} {opts : List Opt}

lemma exists_parseOptions (lib : CLibrary) (h : ∀ opt ∈ opts, opt.Continues) (set : Settings) :
    ∃ set', parseOptions lib opts set = .ok set' := by
  induction opts generalizing set with
  | nil => exact ⟨set, rfl⟩
  | cons opt opts ih =>
    obtain ⟨hopt, hopts⟩ := List.forall_mem_cons.mp h
    cases opt with
    | interface | ipv6 | heartbeat => exact ih hopts _
    | help | missingArgument | unknown => exact hopt.elim

/-- What the settings hold when the options have been read. -/
lemma parseOptions_settings {set set' : Settings} (h : parseOptions lib opts set = .ok set') :
    (set'.useIpv6 = true ↔ set.useIpv6 = true ∨ .ipv6 ∈ opts) ∧
    (set'.iface = none ↔ set.iface = none ∧ ∀ iface, .interface iface ∉ opts) ∧
    (set'.errno = none ↔ set.errno = none ∧
      ∀ optarg, .heartbeat optarg ∈ opts → (strtoul lib.setsEinval optarg).2 = none) := by
  induction opts generalizing set with
  | nil =>
    obtain rfl := Except.ok.inj h
    simp
  | cons opt opts ih =>
    cases opt with
    | interface optarg =>
      obtain ⟨huse, hiface, herrno⟩ := ih h
      refine ⟨by simp [huse], ?_, by simp [herrno]⟩
      have hne : set'.iface ≠ none := fun h => Option.some_ne_none _ (hiface.mp h).1
      exact iff_of_false hne fun h => h.2 optarg List.mem_cons_self
    | ipv6 =>
      obtain ⟨huse, hiface, herrno⟩ := ih h
      exact ⟨by simp [huse], by simp [hiface], by simp [herrno]⟩
    | heartbeat optarg =>
      rw [parseOptions_cons_heartbeat] at h
      obtain ⟨huse, hiface, herrno⟩ := ih h
      refine ⟨by simp [huse], by simp [hiface], ?_⟩
      simp only [herrno, Option.or_eq_none_iff, List.mem_cons, Opt.heartbeat.injEq,
        forall_eq_or_imp, and_assoc, and_left_comm]
    | help | missingArgument | unknown => cases h

end Options

/-! ### The session that is opened -/

section Opened

variable (lib : CLibrary) {set : Settings} (text : Text) (port : Option Text)

/-- The address and the port that sessions are opened with, whatever they should be. -/
def opened (set : Settings) : Option (List UInt8 × UInt16) :=
  match parseModemPort lib set port with
  | .error _ => none
  | .ok p => (usedAddress lib set text).map fun octets => (octets, p)

variable {ok : Assumption mainSig}

/-- Every session is opened with them, and the first is opened if there are any. -/
lemma ensures_main_modem (n : ℕ) {opts : List Opt}
    (hopts : parseOptions lib opts .initial = .ok set) :
    (main lib (n + 1) opts (text :: port.toList)).Ensures ok fun _ t =>
      match opened lib text port set with
      | some (octets, p) =>
        sessionCalls t ≠ [] ∧ ∀ c ∈ sessionCalls t, IsSockaddr .inet octets p c.1
      | none => sessionCalls t = [] := by
  have hcount : ¬ (text :: port.toList).length > 2 := by cases port <;> simp
  have hport : port.toList.head? = port := by cases port <;> rfl
  rw [main, hopts]
  dsimp only
  rw [if_neg hcount, hport, opened]
  cases parseModemPort lib set port with
  | error e => rfl
  | ok p =>
    apply (ensures_parseModemAddress lib p).bind
    rintro stored t ⟨ht, hused⟩
    cases hoctets : usedAddress lib set text with
    | none =>
      rw [hoctets] at hused
      obtain ⟨e, rfl⟩ := hused
      simp [ht]
    | some octets =>
      rw [hoctets] at hused
      obtain ⟨address, rfl, haddress⟩ := hused
      have hloop : (mainLoop (n + 1) set false address).Ensures ok _ :=
        (ensures_mainLoop_ne_nil n address).and (ensures_mainLoop_address (n + 1) address)
      apply hloop.mono
      rintro _ t' ⟨hne, hall⟩
      simp only [Option.map_some, sessionCalls_append, ht, List.nil_append]
      exact ⟨hne, fun c hc => hall c hc ▸ haddress⟩

end Opened

section Calls

variable {lib : CLibrary} {opts : List Opt} {text : Text} {port : Option Text}
  {t : List (Event mainSig)}

/-- Without a session the operands must not stand for a modem. -/
lemma opensGiven_iff_of_nil (h : sessionCalls t = []) :
    OpensGiven lib opts text port t ↔ ¬ ∃ f octets p, ModemGiven lib opts text port f octets p := by
  constructor
  · intro hgiven hmodem
    exact hgiven.opens_iff.mpr hmodem h
  · intro hno
    exact ⟨iff_of_false (by simp [h]) hno, by simp [h]⟩

/-- With one they must stand for its address and port, which can be no others. -/
lemma opensGiven_iff_of_isSockaddr {f : Family} {octets : List UInt8} {p : UInt16}
    (hne : sessionCalls t ≠ []) (hall : ∀ c ∈ sessionCalls t, IsSockaddr f octets p c.1) :
    OpensGiven lib opts text port t ↔ ModemGiven lib opts text port f octets p := by
  constructor
  · intro hgiven
    obtain ⟨c, hc⟩ := List.exists_mem_of_ne_nil _ hne
    obtain ⟨f', octets', p', hmodem, haddress⟩ := hgiven.given c hc
    obtain ⟨rfl, rfl, rfl⟩ := haddress.unique (hall c hc)
    exact hmodem
  · intro hmodem
    exact ⟨iff_of_true hne ⟨f, octets, p, hmodem⟩,
      fun c hc => ⟨f, octets, p, hmodem, hall c hc⟩⟩

end Calls

/-! ### The cases -/

section Cases

variable {lib : CLibrary} {opts : List Opt} {set : Settings} {text : Text} {port : Option Text}

/-- A port that is accepted is parsed. -/
lemma portAccepted_iff (port : Option Text)
    (hopts : parseOptions lib opts .initial = .ok set) :
    PortAccepted lib opts port ↔ ∃ p, parseModemPort lib set port = .ok p := by
  obtain ⟨-, -, herrno⟩ := parseOptions_settings hopts
  cases port with
  | none => exact iff_of_true nofun ⟨_, rfl⟩
  | some text =>
    have haccepted : PortAccepted lib opts (some text) ↔
        (strtoul lib.setsEinval text).2.or set.errno = none := by
      rw [Option.or_eq_none_iff, herrno]
      simp [PortAccepted, Settings.initial]
    rw [haccepted, parseModemPort]
    dsimp only
    split_ifs with h
    · simp [h]
    · simp [not_not.mp h]

/-- If it is also one that was given, it is parsed as what it stands for. -/
lemma parseModemPort_of_given {p p' : UInt16} (h : parseModemPort lib set port = .ok p)
    (hgiven : PortGiven port p') : p = p' := by
  cases port with
  | none =>
    obtain rfl := Except.ok.inj h
    exact hgiven.symm
  | some text =>
    have hsmall : p'.toNat < 2 ^ 64 := p'.toNat_lt.trans (by decide)
    rw [parseModemPort, hgiven.2.strtoul_eq hsmall] at h
    dsimp only at h
    split_ifs at h
    obtain rfl := Except.ok.inj h
    simp

/-- What is opened is what was given. -/
def OpensAsGiven (lib : CLibrary) (opts : List Opt) (text : Text) (port : Option Text) :
    Option (List UInt8 × UInt16) → Prop
  | some (octets, p) => ModemGiven lib opts text port .inet octets p
  | none => ¬ ∃ f octets p, ModemGiven lib opts text port f octets p

/-- The text of an IPv4 address. It is opened with `-6`, and without it the empty one is. -/
lemma opensAsGiven_of_inet {octets : List UInt8} (h4 : lib.inetPton .inet text = some octets)
    (hopts : parseOptions lib opts .initial = .ok set) :
    OpensAsGiven lib opts text port (opened lib text port set) ↔
      (PortAccepted lib opts port ↔ ∃ p, PortGiven port p) ∧
        (PortAccepted lib opts port → .ipv6 ∈ opts ∨ octets = [0, 0, 0, 0]) := by
  have h6 : lib.inetPton .inet6 text = none := (lib.one_family text).resolve_left (by simp [h4])
  have hmodem : ∀ f octets' p, ModemGiven lib opts text port f octets' p ↔
      f = .inet ∧ octets' = octets ∧ PortGiven port p := by
    intro f octets' p
    constructor
    · intro h
      cases f with
      | inet => exact ⟨rfl, Option.some.inj (h.valid.symm.trans h4), h.port⟩
      | inet6 => exact absurd h.valid (by simp [h6])
    · rintro ⟨rfl, rfl, hp⟩
      exact ⟨h4, hp, nofun⟩
  have haccepted := portAccepted_iff port hopts
  cases hport : parseModemPort lib set port with
  | error e =>
    have hrefused : ¬ PortAccepted lib opts port := by simp [haccepted, hport]
    simp [opened, hport, OpensAsGiven, hmodem, hrefused]
  | ok p =>
    have htaken : PortAccepted lib opts port := haccepted.mpr ⟨p, hport⟩
    have hgiven : (∃ p, PortGiven port p) ↔ PortGiven port p := by
      constructor
      · rintro ⟨p', hp'⟩
        exact parseModemPort_of_given hport hp' ▸ hp'
      · exact fun hp => ⟨p, hp⟩
    have hflag : .ipv6 ∈ opts ↔ set.useIpv6 = true := by
      simpa [Settings.initial] using (parseOptions_settings hopts).1.symm
    have hused : usedAddress lib set text =
        some (if set.useIpv6 then octets else [0, 0, 0, 0]) := by
      cases hflag : set.useIpv6 <;> simp [usedAddress, hflag, h4, h6]
    simp only [opened, hport, hused, Option.map_some, OpensAsGiven, hmodem, hgiven, htaken,
      true_iff, true_and, true_implies, hflag]
    cases set.useIpv6 with
    | true => simp
    | false => simp [and_comm, eq_comm]

/-- The text of an IPv6 address, which is never used. -/
lemma opensAsGiven_of_inet6 {octets : List UInt8} (h6 : lib.inetPton .inet6 text = some octets) :
    OpensAsGiven lib opts text port (opened lib text port set) ↔
      ((∃ p, PortGiven port p) →
        octets.head? = some 0xFF ∧ ∀ iface, .interface iface ∉ opts) := by
  have h4 : lib.inetPton .inet text = none := (lib.one_family text).resolve_right (by simp [h6])
  have hused : usedAddress lib set text = none := by
    cases hflag : set.useIpv6 <;> simp [usedAddress, hflag, h4, h6]
  have hopened : opened lib text port set = none := by
    rw [opened, hused]
    cases parseModemPort lib set port <;> rfl
  rw [hopened]
  constructor
  · intro hno hgiven
    obtain ⟨p, hp⟩ := hgiven
    by_contra hscoped
    refine hno ⟨.inet6, octets, p, h6, hp, fun _ hmulticast => ?_⟩
    by_contra hiface
    exact hscoped ⟨hmulticast, fun iface h => hiface ⟨iface, h⟩⟩
  · rintro hscoped ⟨f, octets', p, hmodem⟩
    cases f with
    | inet => exact absurd hmodem.valid (by simp [h4])
    | inet6 =>
      obtain rfl := Option.some.inj (h6.symm.trans hmodem.valid)
      obtain ⟨hmulticast, hno⟩ := hscoped ⟨p, hmodem.port⟩
      obtain ⟨iface, hiface⟩ := hmodem.interface rfl hmulticast
      exact hno iface hiface

/-- Any other text. Without `-6` it is taken for an IPv4 address. -/
lemma opensAsGiven_of_neither (hno : ∀ f, lib.inetPton f text = none)
    (hopts : parseOptions lib opts .initial = .ok set) :
    OpensAsGiven lib opts text port (opened lib text port set) ↔
      (PortAccepted lib opts port → .ipv6 ∈ opts) := by
  have hmodem : ∀ f octets p, ¬ ModemGiven lib opts text port f octets p := by
    intro f octets p h
    exact absurd h.valid (by simp [hno])
  have haccepted := portAccepted_iff port hopts
  have hflag : .ipv6 ∈ opts ↔ set.useIpv6 = true := by
    simpa [Settings.initial] using (parseOptions_settings hopts).1.symm
  rw [haccepted, hflag, opened]
  cases hport : parseModemPort lib set port with
  | error e => simp [OpensAsGiven, hmodem]
  | ok p => cases hflag : set.useIpv6 <;> simp [usedAddress, hflag, hno, OpensAsGiven, hmodem]

/-- All together. -/
lemma opensAsGiven_iff (hopts : parseOptions lib opts .initial = .ok set) :
    OpensAsGiven lib opts text port (opened lib text port set) ↔ Fits lib opts text port := by
  cases h4 : lib.inetPton .inet text with
  | some octets =>
    have h6 : lib.inetPton .inet6 text = none := (lib.one_family text).resolve_left (by simp [h4])
    rw [opensAsGiven_of_inet h4 hopts]
    constructor
    · rintro ⟨haccepted, hipv4⟩
      refine ⟨fun _ _ => haccepted, ?_, by simp [h6], fun h => absurd (h .inet) (by simp [h4])⟩
      intro octets' h
      obtain rfl := Option.some.inj (h4.symm.trans h)
      exact hipv4
    · intro h
      exact ⟨h.accepted octets h4, h.ipv4 octets h4⟩
  | none =>
    cases h6 : lib.inetPton .inet6 text with
    | some octets =>
      rw [opensAsGiven_of_inet6 h6]
      constructor
      · intro hipv6
        refine ⟨by simp [h4], by simp [h4], ?_, fun h => absurd (h .inet6) (by simp [h6])⟩
        intro octets' h
        obtain rfl := Option.some.inj (h6.symm.trans h)
        exact hipv6
      · intro h
        exact h.ipv6 octets h6
    | none =>
      have hno : ∀ f, lib.inetPton f text = none := by
        intro f
        cases f with
        | inet => exact h4
        | inet6 => exact h6
      rw [opensAsGiven_of_neither hno hopts]
      constructor
      · intro hneither
        exact ⟨by simp [h4], by simp [h4], by simp [h6], fun _ => hneither⟩
      · intro h
        exact h.neither hno

end Cases

/-- On its operands `main` opens the session that they ask for exactly if they fit: sessions are
always opened with an IPv4 address, which without `-6` is the empty one, and with a port of which
nothing is checked but `errno`. -/
theorem opensGiven_iff_fits {S : Type} (lib : CLibrary) (H : Handler mainSig S) (s : S) (n : ℕ)
    {opts : List Opt} (hopts : ∀ opt ∈ opts, opt.Continues) (text : Text) (port : Option Text) :
    OpensGiven lib opts text port
        ((main lib (n + 1) opts (text :: port.toList)).run H s).trace ↔
      Fits lib opts text port := by
  obtain ⟨set, hset⟩ := exists_parseOptions lib hopts .initial
  have hrun := (ensures_main_modem lib text port n hset).run_any H s
  rw [← opensAsGiven_iff hset]
  cases hopened : opened lib text port set with
  | none =>
    rw [hopened] at hrun
    exact opensGiven_iff_of_nil hrun
  | some modem =>
    rw [hopened] at hrun
    exact opensGiven_iff_of_isSockaddr hrun.1 hrun.2

/-- `-6 192.0.2.1` is fine. -/
theorem opensGiven_iff_fits_with6 :
    OpensGiven .sample [.ipv6] sampleText none
      ((main .sample 1 [.ipv6] [sampleText]).run failing ()).trace := by
  have hfits : Fits .sample [.ipv6] sampleText none :=
    ⟨fun _ _ => iff_of_true nofun ⟨_, rfl⟩, fun _ _ _ => .inl List.mem_cons_self, nofun,
      fun _ _ => List.mem_cons_self⟩
  have hopts : ∀ opt ∈ [Opt.ipv6], opt.Continues := List.forall_mem_singleton.mpr (by trivial)
  exact (opensGiven_iff_fits .sample failing () 0 hopts sampleText none).mpr hfits

/-- With `192.0.2.1` alone the session is opened with `0.0.0.0`. -/
theorem not_opensGiven :
    ¬ OpensGiven .sample [] sampleText none
      ((main .sample 1 [] [sampleText]).run failing ()).trace := by
  have hcalls : sessionCalls ((main .sample 1 [] [sampleText]).run failing ()).trace =
      [(sockaddrIn wellKnownPort [0, 0, 0, 0], defaultHeartbeatInterval)] := rfl
  have haddress : IsSockaddr .inet [0, 0, 0, 0] wellKnownPort
      (sockaddrIn wellKnownPort [0, 0, 0, 0]) := ⟨rfl, rfl, rfl, rfl⟩
  intro h
  have hmodem := (opensGiven_iff_of_isSockaddr (by simp [hcalls])
    (by simpa [hcalls] using haddress)).mp h
  exact absurd (Option.some.inj hmodem.valid) (by decide)

end DlepRouter
