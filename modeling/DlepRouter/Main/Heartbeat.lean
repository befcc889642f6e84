import DlepRouter.Check.Contents
import DlepRouter.Encode.Sent
import DlepRouter.Main.Calls

/-!
# The heartbeat interval on the command line

`-H` takes seconds, `session` milliseconds. The number is cut to 32 bits and multiplied there, and 0
is not refused.
-/

namespace DlepRouter

open Interaction Tlv Scan Libc

/-- The interval is the given number of milliseconds, and the Heartbeat Interval item of the Session
Initialization decodes to it and would be accepted from a peer. -/
structure AnnouncesInterval (ms : ℕ) (interval : UInt32) : Prop where
  exact : interval.toNat = ms
  item : ∀ buffer, ∃ body,
    Contents.payloads .heartbeatInterval
      (dataItemFormat.decode ((sent (fillSessionInit peerType interval) buffer).drop 4)).1 =
        [body] ∧ bigEndian body = ms ∧
    ∀ rest, (checkHeartbeatInterval 0 body.length).value (.overlay body rest) = .success

/-- An interval is announced as it is, and would be accepted unless it is 0. -/
lemma announcesInterval_iff (ms : ℕ) (interval : UInt32) :
    AnnouncesInterval ms interval ↔ interval.toNat = ms ∧ ms ≠ 0 := by
  have hpayloads : ∀ buffer, Contents.payloads .heartbeatInterval
      (dataItemFormat.decode ((sent (fillSessionInit peerType interval) buffer).drop 4)).1 =
        [writeUint32 interval] := by
    intro buffer
    rw [((builds_fillSessionInit peerType interval).carries buffer).payload]
    rfl
  have hcheck : ∀ rest, (checkHeartbeatInterval 0 (writeUint32 interval).length).value
      (.overlay (writeUint32 interval) rest) = .success ↔ interval.toNat ≠ 0 := by
    intro rest
    rw [(decides_checkHeartbeatInterval false).value, verdict_eq_success, Memory.slice_overlay_self,
      WellFormed, bigEndian_writeUint32]
    exact and_iff_right (length_writeUint32 interval)
  constructor
  · intro h
    obtain ⟨body, hbody, -, hsuccess⟩ := h.item fun _ => 0
    rw [hpayloads, List.singleton_inj] at hbody
    subst hbody
    exact ⟨h.exact, h.exact ▸ (hcheck _).mp (hsuccess fun _ => 0)⟩
  · rintro ⟨rfl, hne⟩
    refine ⟨rfl, fun buffer => ⟨_, hpayloads buffer, bigEndian_writeUint32 interval, ?_⟩⟩
    intro rest
    exact (hcheck rest).mpr hne

/-! ### The options -/

section Options

variable (lib : CLibrary)

/-- The arguments of `-H`. -/
def heartbeatArgs (opts : List Opt) : List Text :=
  opts.filterMap fun | .heartbeat optarg => some optarg | _ => none

/-- The number of seconds that `strtoul` reads. -/
def secondsOf (optarg : Text) : UInt64 := (strtoul lib.setsEinval optarg).1

lemma heartbeatArgs_cons_heartbeat (optarg : Text) (opts : List Opt) :
    heartbeatArgs (.heartbeat optarg :: opts) = optarg :: heartbeatArgs opts := rfl

/-- The last `-H` decides the interval. -/
lemma parseOptions_interval {opts : List Opt} {set set' : Settings}
    (h : parseOptions lib opts set = .ok set') :
    set'.routerHeartbeatInterval =
      ((heartbeatArgs opts).getLast?.map fun optarg => (secondsOf lib optarg).toUInt32 * 1000).getD
        set.routerHeartbeatInterval := by
  induction opts generalizing set with
  | nil =>
    obtain rfl := Except.ok.inj h
    rfl
  | cons opt opts ih =>
    cases opt with
    | heartbeat optarg =>
      rw [parseOptions_cons_heartbeat] at h
      rw [ih h, heartbeatArgs_cons_heartbeat, List.getLast?_cons]
      cases (heartbeatArgs opts).getLast? <;> rfl
    | interface | ipv6 =>
      rw [parseOptions] at h
      rw [ih h]
      rfl
    | help | missingArgument | unknown => cases h

variable {ok : Assumption mainSig}

/-- Sessions are opened with the interval of the options. -/
lemma ensures_main_interval (n : ℕ) {opts : List Opt} {set : Settings} (operands : List Text)
    (hopts : parseOptions lib opts .initial = .ok set) :
    (main lib n opts operands).Ensures ok fun _ t =>
      ∀ c ∈ sessionCalls t, c.2 = set.routerHeartbeatInterval := by
  rw [main, hopts]
  dsimp only
  split_ifs
  · simp
  · cases operands with
    | nil => exact ensures_mainLoop_interval n true _
    | cons text port =>
      dsimp only
      cases parseModemPort lib set port.head? with
      | error e => simp
      | ok port =>
        apply (ensures_parseModemAddress lib port).bind
        rintro address t ⟨ht, -⟩
        cases address with
        | error e => simp [ht]
        | ok address => simpa [ht] using ensures_mainLoop_interval n false address

end Options

/-! ### The interval of a session -/

/-- The product of the cut number is right if the number is. -/
lemma toNat_seconds_mul (seconds : UInt64) :
    (seconds.toUInt32 * 1000).toNat = seconds.toNat * 1000 ↔ seconds.toNat * 1000 < 2 ^ 32 := by
  have hproduct : (seconds.toUInt32 * 1000).toNat = seconds.toNat % 2 ^ 32 * 1000 % 2 ^ 32 := by
    rw [UInt32.toNat_mul, UInt64.toNat_toUInt32]
    rfl
  rw [hproduct]
  omega

/-- With `-H` a session announces the number of seconds exactly if it is not 0 and the product with
1000 fits. -/
theorem announcesInterval_secondsOf_iff {S : Type} (lib : CLibrary) (H : Handler mainSig S) (s : S)
    (n : ℕ) {opts : List Opt} (operands : List Text) {optarg : Text}
    (hoptarg : (heartbeatArgs opts).getLast? = some optarg) {modemAddress : List UInt8}
    {interval : UInt32}
    (hcall : (modemAddress, interval) ∈ sessionCalls ((main lib n opts operands).run H s).trace) :
    AnnouncesInterval ((secondsOf lib optarg).toNat * 1000) interval ↔
      1 ≤ (secondsOf lib optarg).toNat ∧ (secondsOf lib optarg).toNat * 1000 < 2 ^ 32 := by
  have hinterval : interval = (secondsOf lib optarg).toUInt32 * 1000 := by
    cases hopts : parseOptions lib opts .initial with
    | error e =>
      rw [main, hopts] at hcall
      cases hcall
    | ok set =>
      have hall := (ensures_main_interval lib n operands hopts).run_any H s
      have hset := parseOptions_interval lib hopts
      rw [hoptarg] at hset
      exact (hall _ hcall).trans hset
  rw [announcesInterval_iff, hinterval, toNat_seconds_mul]
  omega

/-- A minute, with a modem that is discovered and lost again. -/
theorem announcesInterval_secondsOf_iff_minute :
    (heartbeatArgs [.heartbeat [54, 48]]).getLast? = some [54, 48] ∧
    ([], 60000) ∈ sessionCalls
      ((main .sample 1 [.heartbeat [54, 48]] []).run failing ()).trace ∧
    (AnnouncesInterval ((secondsOf .sample [54, 48]).toNat * 1000) 60000 ↔
      1 ≤ (secondsOf .sample [54, 48]).toNat ∧
        (secondsOf .sample [54, 48]).toNat * 1000 < 2 ^ 32) :=
  have hcall : ([], 60000) ∈ sessionCalls
      ((main .sample 1 [.heartbeat [54, 48]] []).run failing ()).trace :=
    List.mem_singleton.mpr rfl
  ⟨rfl, hcall, announcesInterval_secondsOf_iff _ failing () 1 [] rfl hcall⟩

/-- `-H 4294968` is announced as 704 milliseconds. -/
theorem not_announcesInterval_secondsOf :
    ¬ ∀ (optarg : Text) (modemAddress : List UInt8) (interval : UInt32),
      (modemAddress, interval) ∈ sessionCalls
        ((main .sample 1 [.heartbeat optarg] []).run failing ()).trace →
      AnnouncesInterval ((secondsOf .sample optarg).toNat * 1000) interval := by
  intro h
  have hcall : ([], 704) ∈ sessionCalls
      ((main .sample 1 [.heartbeat [52, 50, 57, 52, 57, 54, 56]] []).run
        failing ()).trace :=
    List.mem_singleton.mpr rfl
  have hexact := (h _ _ _ hcall).exact
  exact absurd hexact (by decide)

end DlepRouter
