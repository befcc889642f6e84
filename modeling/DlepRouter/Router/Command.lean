import DlepRouter.Router.Operation

/-!
# Commands

A command is a list of options and of operands. It is refused before anything is seen of it, or the
router operates as its options set and with the address that `main` makes of its operands. So every
run of the router is accounted for.
-/

namespace DlepRouter

open Interaction Tlv Libc

open Program (Refines)

variable {lib : CLibrary} {set : Settings}

/-- The address that `main` makes of its operands: that which is used for the text of the first one,
with the port of the second, if there is one. It is what the text says only with `-6`: without, an
IPv4 address is not read, and 0.0.0.0 is used for it. -/
def GivenBy (lib : CLibrary) (set : Settings) : List Text → Option (List UInt8) → Prop
  | [], given => given = none
  | text :: port, given => port.length ≤ 1 ∧ ∃ address octets port', given = some address ∧
      parseModemPort lib set port.head? = .ok port' ∧ usedAddress lib set text = some octets ∧
      IsSockaddr .inet octets port' address

/-- The command is not run. -/
def Exit.IsRefusal (e : Exit) : Prop :=
  e ≠ .discoveryFailed ∧ e ≠ .sessionFailed

lemma nonempty_answer (op : MainCall) : Nonempty op.Answer := by
  cases op with
  | ifNametoindex iface => exact ⟨(0 : UInt32)⟩
  | discover useIpv6 iface address => exact ⟨(false, address)⟩
  | session modemAddress interval => exact ⟨(0 : ℤ)⟩

/-- The call that is made for an address. -/
def MainCall.Indexes : MainCall → Prop
  | ifNametoindex _ => True
  | _ => False

/-- Storing an IPv6 address only looks up an interface. -/
lemma ensures_storeIpv6_indexes (port : UInt16) (buffer storage : Memory UInt8) :
    (storeIpv6 set port buffer storage).Ensures (fun _ _ => True) fun v t =>
      (∀ e ∈ t, MainCall.Indexes e.op) ∧ ∀ e, v = .error e → e.IsRefusal := by
  unfold storeIpv6
  dsimp only
  split_ifs
  · cases set.iface with
    | none =>
      refine ⟨List.forall_mem_nil _, ?_⟩
      rintro _ ⟨⟩
      exact ⟨nofun, nofun⟩
    | some iface =>
      intro scopeId _
      exact ⟨List.forall_mem_singleton.mpr trivial, nofun⟩
  · exact ⟨List.forall_mem_nil _, nofun⟩

/-- So does the parsing of an address. -/
lemma ensures_parseModemAddress_indexes (text : Text) (port : UInt16) :
    (parseModemAddress lib set text port).Ensures (fun _ _ => True) fun v t =>
      (∀ e ∈ t, MainCall.Indexes e.op) ∧ ∀ e, v = .error e → e.IsRefusal := by
  unfold parseModemAddress
  dsimp only
  generalize (if set.useIpv6 then (true, fun _ => (0 : UInt8))
    else lib.fillBuffer .inet6 text fun _ => 0) = first
  cases first.1 with
  | true =>
    apply (ensures_storeIpv6_indexes port first.2 fun _ => 0).bind
    rintro stored t ⟨ht, hstored⟩
    rw [← List.append_nil t] at ht
    cases stored with
    | error e => exact ⟨ht, hstored⟩
    | ok address =>
      simp only [if_true]
      split_ifs
      · exact ⟨ht, nofun⟩
      · refine ⟨ht, ?_⟩
        rintro _ ⟨⟩
        exact ⟨nofun, nofun⟩
  | false => exact ⟨List.forall_mem_nil _, nofun⟩

lemma isRefusal_of_parseOptions {opts : List Opt} {e : Exit}
    (h : parseOptions lib opts set = .error e) : e.IsRefusal := by
  induction opts generalizing set with
  | nil => cases h
  | cons opt opts ih =>
    cases opt with
    | interface optarg => exact ih h
    | ipv6 => exact ih h
    | heartbeat optarg => exact ih h
    | help =>
      obtain rfl := Except.error.inj h
      exact ⟨nofun, nofun⟩
    | missingArgument =>
      obtain rfl := Except.error.inj h
      exact ⟨nofun, nofun⟩
    | unknown =>
      obtain rfl := Except.error.inj h
      exact ⟨nofun, nofun⟩

lemma isRefusal_of_parseModemPort {text : Option Text} {e : Exit}
    (h : parseModemPort lib set text = .error e) : e.IsRefusal := by
  cases text with
  | none => cases h
  | some text =>
    dsimp only [parseModemPort] at h
    split_ifs at h
    obtain rfl := Except.error.inj h
    exact ⟨nofun, nofun⟩

/-- The implemented call comes to an end, and nothing is seen of it. -/
lemma ensures_routerCall_indexes (n : ℕ) (op : MainCall) (h : op.Indexes) :
    (routerCall n op).Ensures (fun _ _ => True) fun r t =>
      r.isSome ∧ ∀ e ∈ t, ∃ c, e.op = .inl c := by
  cases op with
  | ifNametoindex iface =>
    intro scopeId _
    exact ⟨rfl, List.forall_mem_singleton.mpr ⟨_, rfl⟩⟩
  | discover useIpv6 iface address => exact h.elim
  | session modemAddress interval => exact h.elim

/-- What becomes of a command: it is refused, and nothing is seen of it, or it operates, with the
address that is made of its operands. -/
inductive Conducted (lib : CLibrary) (opts : List Opt) (operands : List Text) :
    Option Exit → List RouterObservation → Prop where
  | refused {e : Exit} (h : e.IsRefusal) : Conducted lib opts operands (some e) []
  | operates {set : Settings} {given : Option (List UInt8)} {q : RouterPhase} {v : Option Exit}
    {w : List RouterObservation} (hset : parseOptions lib opts .initial = .ok set)
    (hgiven : GivenBy lib set operands given) (hrun : (Operation set given).Run .seeking w q)
    (hv : q.Yields v) : Conducted lib opts operands v w

/-- A loop of the router operates. -/
lemma conducted_mainLoop {opts : List Opt} {operands : List Text} {given : Option (List UInt8)}
    (hset : parseOptions lib opts .initial = .ok set) (hoperands : GivenBy lib set operands given)
    (n : ℕ) (discovers : Bool) (address : Sockaddr)
    (hgiven : given = if discovers then none else some address.octets) :
    ((mainLoop n set discovers address).implement (routerCall n)).Ensures (fun _ _ => True)
      fun r t => Conducted lib opts operands r.join (t.flatMap observeRouter) := by
  apply Program.Ensures.mono (refines_mainLoop n discovers address hgiven)
  rintro r t ⟨q, hrun, hv⟩
  exact .operates hset hoperands hrun hv

/-- What the parsing of an address leaves: a refusal, or the address that is used. -/
def Parsed (lib : CLibrary) (set : Settings) (text : Text) (port : UInt16) :
    Except Exit Sockaddr → Prop
  | .error e => e.IsRefusal
  | .ok address => ∃ octets, usedAddress lib set text = some octets ∧
      IsSockaddr .inet octets port address.octets

lemma ensures_parseModemAddress_parsed (text : Text) (port : UInt16) :
    (parseModemAddress lib set text port).Ensures (fun _ _ => True) fun v _ =>
      Parsed lib set text port v := by
  apply (ensures_parseModemAddress_indexes text port).and
    (ensures_parseModemAddress lib port) |>.mono
  rintro v t ⟨⟨-, hrefusal⟩, -, hused⟩
  cases v with
  | error e => exact hrefusal e rfl
  | ok address =>
    cases hoctets : usedAddress lib set text with
    | none =>
      rw [hoctets] at hused
      obtain ⟨e, he⟩ := hused
      cases he
    | some octets =>
      rw [hoctets] at hused
      obtain ⟨address', haddress, hstored⟩ := hused
      obtain rfl := Except.ok.inj haddress
      exact ⟨octets, hoctets, hstored⟩

/-- The parsing comes to an end, and nothing is seen of it. -/
lemma ensures_implement_parseModemAddress (n : ℕ) (text : Text) (port : UInt16) :
    ((parseModemAddress lib set text port).implement (routerCall n)).Ensures (fun _ _ => True)
      fun r t => (∃ v, r = some v ∧ Parsed lib set text port v) ∧
        t.flatMap observeRouter = [] := by
  have hcalls : (parseModemAddress lib set text port).OnlyCalls (fun _ _ => True)
      MainCall.Indexes :=
    (ensures_parseModemAddress_indexes text port).mono fun _ _ h => h.1
  apply (Program.ensures_implement_of_onlyCalls (routerCall n) nonempty_answer
    (J := fun op : routerSig.Op => ∃ c, op = .inl c) hcalls
    (ensures_parseModemAddress_parsed text port) (ensures_routerCall_indexes n)).mono
  rintro r t ⟨hparsed, hhost⟩
  refine ⟨hparsed, List.flatMap_eq_nil_iff.mpr ?_⟩
  rintro ⟨op, ans⟩ he
  obtain ⟨c, rfl⟩ := hhost _ he
  rfl

/-- What `main` comes to with an address on its command line. -/
lemma conducted_given (n : ℕ) {opts : List Opt} {text : Text} {port : List Text} {port' : UInt16}
    (hset : parseOptions lib opts .initial = .ok set) (hlength : port.length ≤ 1)
    (hport : parseModemPort lib set port.head? = .ok port') :
    ((parseModemAddress lib set text port' >>= fun v => match v with
      | .error e => pure (some e)
      | .ok address => mainLoop n set false address).implement (routerCall n)).Ensures
      (fun _ _ => True) fun r t =>
        Conducted lib opts (text :: port) r.join (t.flatMap observeRouter) := by
  rw [Program.implement_bind]
  apply (ensures_implement_parseModemAddress n text port').bind
  rintro _ t ⟨⟨v, rfl, hparsed⟩, hnothing⟩
  simp only [List.flatMap_append, hnothing, List.nil_append]
  cases v with
  | error e => exact .refused hparsed
  | ok address =>
    obtain ⟨octets, hoctets, hstored⟩ := hparsed
    have hgiven : GivenBy lib set (text :: port) (some address.octets) :=
      ⟨hlength, address.octets, octets, port', rfl, hport, hoctets, hstored⟩
    exact conducted_mainLoop hset hgiven n false address rfl

lemma conducted_main (n : ℕ) (opts : List Opt) (operands : List Text) :
    ((main lib n opts operands).implement (routerCall n)).Ensures (fun _ _ => True)
      fun r t => Conducted lib opts operands r.join (t.flatMap observeRouter) := by
  unfold main
  cases hset : parseOptions lib opts .initial with
  | error e => exact Conducted.refused (isRefusal_of_parseOptions hset)
  | ok set =>
    dsimp only
    split_ifs with hmany
    · exact Conducted.refused ⟨nofun, nofun⟩
    · cases operands with
      | nil =>
        have hgiven : GivenBy lib set [] none := rfl
        exact conducted_mainLoop hset hgiven n true _ rfl
      | cons text port =>
        dsimp only
        cases hport : parseModemPort lib set port.head? with
        | error e => exact Conducted.refused (isRefusal_of_parseModemPort hport)
        | ok port' =>
          have hlength : port.length ≤ 1 := Nat.le_of_succ_le_succ (not_lt.mp hmany)
          exact conducted_given n hset hlength hport

lemma conducted_router (lib : CLibrary) (n : ℕ) (opts : List Opt) (operands : List Text) :
    (router lib n opts operands).Ensures (fun _ _ => True) fun v t =>
      Conducted lib opts operands v (t.flatMap observeRouter) := by
  apply (conducted_main n opts operands).bind
  intro r t h
  rw [← List.append_nil t] at h
  exact h

/-- Every command that is run operates, whatever it is answered, and for however long. -/
theorem router_refines_operation {S : Type} (H : Handler routerSig S) (s : S) (lib : CLibrary)
    (n : ℕ) (opts : List Opt) (operands : List Text) :
    Conducted lib opts operands ((router lib n opts operands).run H s).value
      (((router lib n opts operands).run H s).trace.flatMap observeRouter) :=
  (conducted_router lib n opts operands).run_any H s

end DlepRouter
