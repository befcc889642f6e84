import DlepRouter.Check.Accept
import DlepRouter.Check.Fragment
import DlepRouter.Session.Dispatch

/-!
# What depends on octets that were not received

`handle_message` gets the number of octets received, but reads where the data items lead it. Its
reaction to the received octets is a function of the data items that the walk over the buffer
visits, and of those only the one at the end of the message may be completed by what lies behind.
`Settled` tells when that makes no difference.
-/

namespace DlepRouter

open Interaction Tlv Scan Memory

/-! ### Reactions -/

/-- In both memories the `len` octets at the front lead to the same reaction: the session goes on
with the same responses, or it ends with the same closing message. -/
structure SameReaction (m m' : Memory UInt8) (len : ℕ) : Prop where
  continues : Continues m len ↔ Continues m' len
  sent : Continues m len →
    responses ((dispatch len).outputs m) = responses ((dispatch len).outputs m')
  closing : ¬ Continues m len →
    closingMessage (bigEndian (m.slice 0 2)) = closingMessage (bigEndian (m'.slice 0 2))

lemma StatusCode.code_injective : Function.Injective StatusCode.code := by
  intro sc sc' h
  cases sc <;> cases sc' <;> first | rfl | (exact absurd h (by decide))

lemma Verdict.closing_injective : Function.Injective Verdict.closing := by
  intro v v' h
  cases v with
  | respond =>
    cases v' with
    | respond => rfl
    | status sc => cases congrArg List.length h
  | status sc =>
    cases v' with
    | respond => cases congrArg List.length h
    | status sc' =>
      have hcode : sc.code = sc'.code := by simpa [closing, termination] using h
      rw [StatusCode.code_injective hcode]

/-- A message that fills a fresh block leaves nothing of what the block held before. -/
lemma store_resize (b : Buffer) (fresh : Memory UInt8) (msg : List UInt8) :
    (b.resize msg.length fresh).store 0 msg = ⟨msg.length, overlay msg fresh⟩ := by
  simp only [Buffer.store, Buffer.resize, Buffer.mk.injEq, true_and]
  funext i
  by_cases h : i < msg.length
  · simp [patch, overlay, h]
  · simp [patch, overlay, h]

/-- `send_session_term` does not look at what the buffer holds. -/
lemma sendSessionTerm_eq (n : ℕ) (sc : StatusCode) (b b' : Buffer) (interval : UInt32) :
    sendSessionTerm n sc b interval = sendSessionTerm n sc b' interval := by
  have hlen : (sessionTermMessage sc).length = 9 := by rw [sessionTermMessage_eq]; rfl
  apply bind_congr
  intro fresh
  cases fresh with
  | none => rfl
  | some fresh =>
    have hstore := store_resize b fresh (sessionTermMessage sc)
    have hstore' := store_resize b' fresh (sessionTermMessage sc)
    rw [hlen] at hstore hstore'
    simp only [hstore, hstore']

/-- Same reactions come from the same system calls, in every environment. -/
theorem SameReaction.handleMessage_eq {m m' : Memory UInt8} {len : ℕ}
    (h : SameReaction m m' len) (n size size' : ℕ) (interval : UInt32) :
    handleMessage n ⟨size, m⟩ len interval = handleMessage n ⟨size', m'⟩ len interval := by
  have hsame : (dispatch len).value m = (dispatch len).value m' ∧
      responses ((dispatch len).outputs m) =
        responses ((dispatch len).outputs m') := by
    by_cases hc : Continues m len
    · rw [hc.value_dispatch, (h.continues.mp hc).value_dispatch]
      exact ⟨rfl, h.sent hc⟩
    · obtain ⟨-, hclosing, -, hresp⟩ := refused hc
      obtain ⟨-, hclosing', -, hresp'⟩ := refused (mt h.continues.mpr hc)
      refine ⟨Verdict.closing_injective ?_, by rw [hresp, hresp']⟩
      rw [hclosing, hclosing', h.closing hc]
  unfold handleMessage
  rw [scan_eq, scan_eq, hsame.1, hsame.2]
  apply bind_congr
  intro v
  cases v with
  | respond => rfl
  | status sc =>
    dsimp only
    rw [sendSessionTerm_eq n sc ⟨size, m⟩ ⟨size', m'⟩ interval]

/-! ### Behaviour that can be observed -/

/-- How `handle_message` behaves on the octets received does not depend on what lies behind them:
in no environment does the session go on in one case and not in the other, or does the modem get
another message. -/
def Isolated (bs : List UInt8) : Prop :=
  ∀ (S : Type) (H : Handler sysSig S) (s : S) (n size size' : ℕ) (rest rest' : Memory UInt8)
    (interval : UInt32),
    (((handleMessage n ⟨size, overlay bs rest⟩ bs.length interval).run H s).value = some 1 ↔
      ((handleMessage n ⟨size', overlay bs rest'⟩ bs.length interval).run H s).value = some 1) ∧
    sends ((handleMessage n ⟨size, overlay bs rest⟩ bs.length interval).run H s).trace =
      sends ((handleMessage n ⟨size', overlay bs rest'⟩ bs.length interval).run H s).trace

/-- The environment in which every call but an allocation fails. -/
def obliging : Handler sysSig Unit where
  answer _
    | .socket _ | .connect _ => (false, ())
    | .close => ((), ())
    | .send _ | .recv _ | .select _ => (none, ())
    | .clockGettime => (⟨0, 0⟩, ())
    | .realloc _ => (some fun _ => 0, ())

lemma not_allocationFailed_obliging {α : Type} (p : Sys α) :
    ¬ AllocationFailed (p.run obliging ()).trace := by
  have hmeets : obliging.Meets fun op r => match op, r with
      | .realloc _, r => r.isSome
      | _, _ => True := by
    intro s op
    cases op <;> simp [obliging]
  rintro ⟨n, hn⟩
  cases Program.of_mem_trace hmeets hn

/-- Where memory is left, what is sent shows the reaction. -/
lemma run_obliging (size : ℕ) (m : Memory UInt8) (len : ℕ) :
    (Continues m len ∧
      ((handleMessage 0 ⟨size, m⟩ len 0).run obliging ()).value = some 1 ∧
      sends ((handleMessage 0 ⟨size, m⟩ len 0).run obliging ()).trace =
        responses ((dispatch len).outputs m)) ∨
    (¬ Continues m len ∧
      ((handleMessage 0 ⟨size, m⟩ len 0).run obliging ()).value ≠ some 1 ∧
      sends ((handleMessage 0 ⟨size, m⟩ len 0).run obliging ()).trace =
        [closingMessage (bigEndian (m.slice 0 2))]) := by
  rcases (ensures_handleMessage 0 ⟨size, m⟩ len 0).run_any obliging () with h | ⟨hc, hr, hcloses⟩
  · exact .inl h
  · refine .inr ⟨hc, hr, ?_⟩
    rcases hcloses with h | ⟨-, hfailed⟩
    · exact h
    · exact absurd hfailed (not_allocationFailed_obliging _)

/-- Isolation means that all memories behind the octets received lead to the same reaction. -/
theorem isolated_iff_sameReaction (bs : List UInt8) :
    Isolated bs ↔ ∀ rest rest', SameReaction (overlay bs rest) (overlay bs rest') bs.length := by
  constructor
  · intro h rest rest'
    obtain ⟨hvalue, hsends⟩ := h Unit obliging () 0 0 0 rest rest' 0
    rcases run_obliging 0 (overlay bs rest) bs.length with ⟨hc, hr, hs⟩ | ⟨hc, hr, hs⟩ <;>
    rcases run_obliging 0 (overlay bs rest') bs.length with ⟨hc', hr', hs'⟩ | ⟨hc', hr', hs'⟩
    · refine ⟨by simp [hc, hc'], ?_, absurd hc⟩
      intro _
      exact hs.symm.trans (hsends.trans hs')
    · exact absurd (hvalue.mp hr) hr'
    · exact absurd (hvalue.mpr hr') hr
    · refine ⟨by simp [hc, hc'], ?_, ?_⟩
      · intro h
        exact absurd h hc
      · intro _
        simpa using hs.symm.trans (hsends.trans hs')
  · intro h S H s n size size' rest rest' interval
    rw [(h rest rest').handleMessage_eq n size size' interval]
    exact ⟨Iff.rfl, rfl⟩

/-! ### The item at the end -/

namespace SessionMessage

variable {k : SessionMessage} {is : List DataItem} {fragment : List UInt8}

/-- The message is answered with the data items of type `t`. -/
def Echoes (k : SessionMessage) (t : DataItemType) : Prop :=
  t = .macAddress ∧ (k = .destinationUp ∨ k = .destinationDown)

/-- Behind the items `is`, an item that starts with `fragment` may be accepted or not, or be
answered in several ways. A fragment of less than a header leaves the length of the item open. A
longer one must announce an open type and its length, and must not already be wrong; what is
open then is the last octet, if it is checked or echoed, and the flag, if none of the payload is
there. -/
def Undecided (k : SessionMessage) (is : List DataItem) (fragment : List UInt8) : Prop :=
  ∃ t s, t.shape = some s ∧ k.kind.contents.Open is t ∧
    (fragment.length < 4 ∧ fragment <+: dataItemFormat.write t.code s.width ∨
      ∃ f, fragment = dataItemFormat.write t.code s.width ++ f ∧ f.length < s.width ∧
        (s.flagged → f = [] ∨ ActionFlag k.kind.contents.addOnly f) ∧
        (s.limit < 255 ∨ (s.flagged ∧ f = []) ∨ k.Echoes t))

lemma othersIgnored (k : SessionMessage) : k.kind.contents.othersIgnored = false := by
  cases k <;> rfl

lemma exists_shape {t : DataItemType} (h : k.kind.contents.Open is t) : ∃ s, t.shape = some s := by
  have hlisted := h.1
  cases k <;> cases t <;> first | exact ⟨_, rfl⟩ | exact absurd hlisted (by decide)

/-- Items that are not echoed do not change what is sent. -/
lemma answers_concat {t : DataItemType} {i : DataItem} (ht : DataItemType.ofCode i.tag = some t)
    (h : ¬ k.Echoes t) : k.answers (is ++ [i]) = k.answers is := by
  cases k with
  | heartbeat => rfl
  | sessionUpdate | destinationUpdate =>
    simp [answers, ParsedMessage.answers, ParsedMessage.answerTo]
  | destinationUp | destinationDown =>
    have hmac : t ≠ .macAddress := by
      intro hmac
      exact h ⟨hmac, by simp⟩
    simp only [answers, ParsedMessage.answers, List.flatMap_append, List.flatMap_singleton,
      ParsedMessage.answerTo, ht]
    cases t <;> first | contradiction | exact List.append_nil _

/-- The octets of the echoed address can be read off the response. -/
lemma answers_concat_ne {t : DataItemType} {l l' : List UInt8} (hl : l.length = 6)
    (hl' : l'.length = 6) (h : k.Echoes t) (hne : l ≠ l') :
    k.answers (is ++ [⟨t.code, l⟩]) ≠ k.answers (is ++ [⟨t.code, l'⟩]) := by
  obtain ⟨rfl, hk⟩ := h
  obtain ⟨msgType, hmsg⟩ : ∃ msgType, ∀ mac,
      k.answers (is ++ [⟨DataItemType.macAddress.code, mac⟩]) =
        k.answers is ++ [destinationRespMessage msgType mac .success] := by
    rcases hk with rfl | rfl
    · refine ⟨.destUpResp, ?_⟩
      intro mac
      simp [answers, ParsedMessage.answers, ParsedMessage.answerTo, destinationUpRespMessage]
    · refine ⟨.destDownResp, ?_⟩
      intro mac
      simp [answers, ParsedMessage.answers, ParsedMessage.answerTo, destinationDownRespMessage]
  rw [hmsg, hmsg]
  intro heq
  have hresp := List.singleton_inj.mp (List.append_cancel_left heq)
  apply hne
  calc l = ((destinationRespMessage msgType l .success).drop 8).take 6 :=
        (mac_of_destinationRespMessage msgType _ hl).symm
    _ = ((destinationRespMessage msgType l' .success).drop 8).take 6 := by rw [hresp]
    _ = l' := mac_of_destinationRespMessage msgType _ hl'

/-- Items that a fragment with a whole header is completed to agree in type and length. -/
lemma same_header {i i' : DataItem} {f : List UInt8} (hi : i.body.length < dataItemFormat.bound)
    (h : dataItemFormat.Completes (dataItemFormat.write i.tag i.body.length ++ f) i') :
    i'.tag = i.tag ∧ i'.body.length = i.body.length ∧ f <+: i'.body := by
  have hwidth := dataItemFormat.length_write i.tag i.body.length
  rcases Format.completes_iff.mp h with ⟨hbound, ⟨hshort, -⟩ | ⟨f', heq, -, hpre⟩⟩
  · rw [List.length_append, hwidth] at hshort
    omega
  · obtain ⟨hwrite, rfl⟩ := List.append_inj heq (by rw [hwidth, dataItemFormat.length_write])
    have hread := congrArg dataItemFormat.read hwrite
    rw [dataItemFormat.read_write _ _ hi, dataItemFormat.read_write _ _ hbound] at hread
    obtain ⟨htag, hlen⟩ := Prod.mk.inj hread
    exact ⟨htag.symm, hlen.symm, hpre⟩

/-- Where the fragment decides, one accepted item means that all are accepted and answered alike. -/
lemma accepts_of_not_undecided (h : ¬ k.Undecided is fragment) {i i' : DataItem}
    (hi : dataItemFormat.Completes fragment i) (hi' : dataItemFormat.Completes fragment i')
    (hacc : k.kind.contents.Accepts (is ++ [i])) :
    k.kind.contents.Accepts (is ++ [i']) ∧ k.answers (is ++ [i]) = k.answers (is ++ [i']) := by
  obtain ⟨t, ht, hopen, hwf⟩ := (Contents.accepts_concat_iff k.othersIgnored).mp hacc
  obtain ⟨s, hs⟩ := exists_shape hopen
  have htag : i.tag = t.code := (DataItemType.ofCode_eq_some_iff.mp ht).symm
  obtain ⟨hlen, hact, -⟩ := (wellFormed_iff_of_shape hs _).mp hwf
  rcases Format.completes_iff.mp hi with ⟨hbound, ⟨hshort, hpre⟩ | ⟨f, rfl, hf, hpre⟩⟩
  · rw [htag, hlen] at hpre
    exact absurd ⟨t, s, hs, hopen, .inl ⟨hshort, hpre⟩⟩ h
  · rw [htag, hlen] at h
    have hflag : s.flagged → f = [] ∨ ActionFlag k.kind.contents.addOnly f := by
      intro hflagged
      by_cases hnil : f = []
      · exact .inl hnil
      · exact .inr ((actionFlag_iff_of_begins hnil hpre).mpr (hact hflagged))
    have hno : ¬ (s.limit < 255 ∨ (s.flagged ∧ f = []) ∨ k.Echoes t) := by
      intro hopen'
      exact h ⟨t, s, hs, hopen, .inr ⟨f, rfl, hlen ▸ hf, hflag, hopen'⟩⟩
    obtain ⟨hlimit, hnoflag, hnotEchoes⟩ : ¬ s.limit < 255 ∧ ¬ (s.flagged ∧ f = []) ∧
        ¬ k.Echoes t := by
      rwa [not_or, not_or] at hno
    obtain ⟨htag', hlen', hpre'⟩ := same_header hbound hi'
    have ht' : DataItemType.ofCode i'.tag = some t := by rw [htag', ht]
    refine ⟨(Contents.accepts_concat_iff k.othersIgnored).mpr ⟨t, ht', hopen, ?_⟩, ?_⟩
    · apply (wellFormed_iff_of_shape hs _).mpr
      refine ⟨hlen'.trans hlen, ?_, UInt8.le_trans (le_max _) (UInt8.not_lt.mp hlimit)⟩
      intro hflagged
      have hnil : f ≠ [] := by
        intro hnil
        exact hnoflag ⟨hflagged, hnil⟩
      exact (actionFlag_iff_of_begins hnil hpre').mp ((hflag hflagged).resolve_left hnil)
    · rw [answers_concat ht hnotEchoes, answers_concat ht' hnotEchoes]

lemma accepts_concat_iff_of_open {t : DataItemType} (h : k.kind.contents.Open is t)
    (l : List UInt8) : k.kind.contents.Accepts (is ++ [⟨t.code, l⟩]) ↔
      WellFormed k.kind.contents.addOnly t l := by
  simp [Contents.accepts_concat_iff k.othersIgnored, h]

lemma completes_payload {t : DataItemType} {n : ℕ} {f : List UInt8} (hf : f.length < n)
    (hn : n < 2 ^ 16) (first last : UInt8) :
    dataItemFormat.Completes (dataItemFormat.write t.code n ++ f)
      ⟨t.code, payload n f first last⟩ := by
  have hlen : (payload n f first last).length = n := length_payload (by omega)
  refine Format.completes_iff.mpr ⟨?_, .inr ⟨f, ?_, ?_, prefix_payload hf⟩⟩
  · rwa [hlen]
  · rw [hlen]
  · rwa [hlen]

/-- A beginning of the header is completed by every payload of the length. -/
lemma completes_of_short {t : DataItemType} {l : List UInt8} (hl : l.length < 2 ^ 16)
    (hshort : fragment.length < 4)
    (hpre : fragment <+: dataItemFormat.write t.code l.length) :
    dataItemFormat.Completes fragment ⟨t.code, l⟩ :=
  Format.completes_iff.mpr ⟨hl, .inl ⟨hshort, hpre⟩⟩

/-- Where the fragment does not decide, one of two items is refused or answered in another way. -/
lemma exists_of_undecided (h : k.Undecided is fragment) :
    ∃ i i', dataItemFormat.Completes fragment i ∧ dataItemFormat.Completes fragment i' ∧
      k.kind.contents.Accepts (is ++ [i]) ∧
      ¬ (k.kind.contents.Accepts (is ++ [i']) ∧
        k.answers (is ++ [i]) = k.answers (is ++ [i'])) := by
  obtain ⟨t, s, hs, hopen, ⟨hshort, hpre⟩ | ⟨f, rfl, hf, hflag, hdecides⟩⟩ := h
  · obtain ⟨hpos, hwidth, -⟩ := width_of_shape hs
    have hlen : (payload s.width [] 1 0).length = s.width := length_payload hpos
    have hlen' : (payload (s.width + 1) [] 1 0).length = s.width + 1 := length_payload (by omega)
    have hacc := (accepts_concat_iff_of_open hopen _).mpr
      (wellFormed_payload (f := []) hs hpos fun _ => .inl rfl)
    refine ⟨_, ⟨t.code, payload (s.width + 1) [] 1 0⟩,
      completes_of_short (by omega) hshort (by rwa [hlen]),
      completes_of_short (by omega) hshort (by rw [hlen']; exact prefix_write_succ hs hshort hpre),
      hacc, ?_⟩
    intro hacc'
    have hwf := (accepts_concat_iff_of_open hopen _).mp hacc'.1
    have hwidth' := ((wellFormed_iff_of_shape hs _).mp hwf).1
    omega
  · obtain ⟨hpos, hwidth, hflagged⟩ := width_of_shape hs
    have hacc := (accepts_concat_iff_of_open hopen _).mpr (wellFormed_payload hs hf hflag)
    have hi := completes_payload (t := t) hf (by omega) 1 0
    rcases hdecides with hlimit | ⟨hflagged', rfl⟩ | hechoes
    · refine ⟨_, _, hi, completes_payload hf (by omega) 1 255, hacc, ?_⟩
      intro hacc'
      have hwf := (accepts_concat_iff_of_open hopen _).mp hacc'.1
      have hlast := ((wellFormed_iff_of_shape hs _).mp hwf).2.2
      rw [getD_last_payload hpos] at hlast
      exact UInt8.not_lt.mpr hlast hlimit
    · refine ⟨_, _, hi, completes_payload hf (by omega) 2 0, hacc, ?_⟩
      intro hacc'
      have hwf := (accepts_concat_iff_of_open hopen _).mp hacc'.1
      have hact := ((wellFormed_iff_of_shape hs _).mp hwf).2.1 hflagged'
      rw [ActionFlag, getD_zero_payload (hflagged hflagged')] at hact
      simp at hact
    · refine ⟨_, _, hi, completes_payload hf (by omega) 1 1, hacc, ?_⟩
      intro hacc'
      have hsix : s.width = 6 := by
        rw [hechoes.1] at hs
        rw [← Option.some.inj hs]
      have hne : payload s.width f 1 0 ≠ payload s.width f 1 1 := by
        intro heq
        have hlast := congrArg (fun l => l.getD (s.width - 1) 0) heq
        rw [getD_last_payload hpos, getD_last_payload hpos] at hlast
        cases hlast
      apply answers_concat_ne ?_ ?_ hechoes hne hacc'.2
      · rw [length_payload hpos, hsix]
      · rw [length_payload hpos, hsix]

end SessionMessage

/-! ### Isolation -/

section Isolation

variable {bs : List UInt8} {rest rest' : Memory UInt8} {k : SessionMessage}

/-- The octets received begin with the header of a message of type `t` and of their length. -/
def Announces (bs : List UInt8) (t : MessageType) : Prop :=
  4 ≤ bs.length ∧ bigEndian (bs.take 2) = t.code.toNat ∧
    bigEndian ((bs.drop 2).take 2) = bs.length - 4

/-- What is received settles the reaction: there is at least one octet, and more than a zero, and
if it is the header of a message of the session with the right length, then the data items end
with the message or the last one is decided as far as it goes. -/
def Settled (bs : List UInt8) : Prop :=
  bs ≠ [] ∧ bs ≠ [0] ∧ ∀ k : SessionMessage, Announces bs k.kind.messageType →
    (dataItemFormat.decode (bs.drop 4)).2 = [] ∨
      ¬ k.Undecided (dataItemFormat.decode (bs.drop 4)).1 (dataItemFormat.decode (bs.drop 4)).2

lemma headed_overlay_iff (rest : Memory UInt8) {t : MessageType} :
    Headed (overlay bs rest) bs.length t ↔ Announces bs t := by
  apply and_congr_right
  intro h
  rw [slice_overlay (by omega), slice_overlay (by omega), List.drop_zero]

lemma continues_overlay_iff (h : Announces bs k.kind.messageType) :
    Continues (overlay bs rest) bs.length ↔
      k.kind.contents.Accepts (dataItemFormat.items (overlay bs rest) bs.length 4) := by
  have hhead := (headed_overlay_iff rest).mpr h
  rw [continues_iff hhead.2.1, k.kind.check_eq_success_iff, and_iff_right hhead]

lemma exists_announces_of_continues (h : Continues (overlay bs rest) bs.length) :
    ∃ k : SessionMessage, Announces bs k.kind.messageType := by
  obtain ⟨k, -, hsc⟩ := h
  exact ⟨k, (headed_overlay_iff rest).mp ((k.kind.check_eq_success_iff _ _).mp hsc).1⟩

lemma responses_overlay (h : Announces bs k.kind.messageType)
    (hc : Continues (overlay bs rest) bs.length) :
    responses ((dispatch bs.length).outputs (overlay bs rest)) =
      k.answers (dataItemFormat.items (overlay bs rest) bs.length 4) := by
  have htype := ((headed_overlay_iff rest).mpr h).2.1
  exact responses_dispatch _ _ htype ((continues_iff htype).mp hc)

/-- The first two octets are there, or the first one shows that the type is not registered. -/
lemma closing_overlay (hnil : bs ≠ []) (hzero : bs ≠ [0]) :
    closingMessage (bigEndian ((overlay bs rest).slice 0 2)) =
      closingMessage (bigEndian ((overlay bs rest').slice 0 2)) := by
  match bs, hnil, hzero with
  | [b], _, hzero =>
    have hb : 1 ≤ b.toNat := by
      by_contra h
      exact hzero (by rw [UInt8.toNat_inj.mp (show b.toNat = (0 : UInt8).toNat by simpa using h)])
    have hunregistered : ∀ rest : Memory UInt8,
        closingMessage (bigEndian ((overlay [b] rest).slice 0 2)) = termination 128 := by
      intro rest
      refine closingMessage_of_unregistered ?_
      have hfirst : overlay [b] rest 0 = b := rfl
      rw [bigEndian_slice_succ, bigEndian_slice_succ, slice_zero, bigEndian_nil, Nat.zero_add,
        hfirst]
      omega
    rw [hunregistered, hunregistered]
  | a :: b :: bs, _, _ => rfl

/-- Of one octet or none, the type of the message is not known. -/
lemma not_sameReaction_of_short (h : bs = [] ∨ bs = [0]) :
    ¬ SameReaction (overlay bs fun _ => 0) (overlay bs fun i => if i = 1 then 5 else 0)
      bs.length := by
  intro hsame
  have hno : ∀ rest, ¬ Continues (overlay bs rest) bs.length := by
    intro rest hc
    obtain ⟨k, hle, -⟩ := exists_announces_of_continues hc
    rcases h with rfl | rfl <;> simp at hle
  have hclosing := hsame.closing (hno _)
  rcases h with rfl | rfl <;> exact absurd hclosing (by decide)

/-- Where a message of the session is announced, isolation is about the item at its end. -/
lemma sameReaction_of_announces (h : Announces bs k.kind.messageType)
    (hend : (dataItemFormat.decode (bs.drop 4)).2 = [] ∨
      ¬ k.Undecided (dataItemFormat.decode (bs.drop 4)).1 (dataItemFormat.decode (bs.drop 4)).2)
    (hacc : Continues (overlay bs rest) bs.length) :
    Continues (overlay bs rest') bs.length ∧
      responses ((dispatch bs.length).outputs (overlay bs rest)) =
        responses ((dispatch bs.length).outputs (overlay bs rest')) := by
  have hitems : k.kind.contents.Accepts (dataItemFormat.items (overlay bs rest') bs.length 4) ∧
      k.answers (dataItemFormat.items (overlay bs rest) bs.length 4) =
        k.answers (dataItemFormat.items (overlay bs rest') bs.length 4) := by
    have hacc' := (continues_overlay_iff h).mp hacc
    by_cases hf : (dataItemFormat.decode (bs.drop 4)).2 = []
    · rw [Format.items_overlay_of_tiles h.1 hf] at hacc' ⊢
      rw [Format.items_overlay_of_tiles h.1 hf]
      exact ⟨hacc', rfl⟩
    · obtain ⟨i, hi, heq⟩ := Format.items_overlay h.1 hf rest
      obtain ⟨i', hi', heq'⟩ := Format.items_overlay h.1 hf rest'
      rw [heq] at hacc' ⊢
      rw [heq']
      exact SessionMessage.accepts_of_not_undecided (hend.resolve_left hf) hi hi' hacc'
  have hacc' := (continues_overlay_iff h).mpr hitems.1
  exact ⟨hacc', by rw [responses_overlay h hacc, responses_overlay h hacc', hitems.2]⟩

/-- `handle_message` depends on nothing behind the octets received exactly if these settle its
reaction. -/
theorem isolated_iff_settled (bs : List UInt8) : Isolated bs ↔ Settled bs := by
  rw [isolated_iff_sameReaction]
  constructor
  · intro h
    refine ⟨?_, ?_, ?_⟩
    · intro hnil
      exact not_sameReaction_of_short (.inl hnil) (h _ _)
    · intro hzero
      exact not_sameReaction_of_short (.inr hzero) (h _ _)
    intro k hk
    by_contra hopen
    obtain ⟨hf, hundecided⟩ := not_or.mp hopen
    obtain ⟨i, i', hi, hi', hacc, hdiffer⟩ :=
      SessionMessage.exists_of_undecided (not_not.mp hundecided)
    obtain ⟨rest, heq⟩ := Format.exists_items_overlay hk.1 hi hf
    obtain ⟨rest', heq'⟩ := Format.exists_items_overlay hk.1 hi' hf
    rw [← heq] at hacc hdiffer
    rw [← heq'] at hdiffer
    have hc := (continues_overlay_iff hk).mpr hacc
    have hc' := (h rest rest').continues.mp hc
    apply hdiffer
    refine ⟨(continues_overlay_iff hk).mp hc', ?_⟩
    rw [← responses_overlay hk hc, ← responses_overlay hk hc']
    exact (h rest rest').sent hc
  · rintro ⟨hnil, hzero, hend⟩ rest rest'
    have hone : ∀ rest rest', Continues (overlay bs rest) bs.length →
        Continues (overlay bs rest') bs.length ∧
          responses ((dispatch bs.length).outputs (overlay bs rest)) =
            responses ((dispatch bs.length).outputs (overlay bs rest')) := by
      intro rest rest' hc
      obtain ⟨k, hk⟩ := exists_announces_of_continues hc
      exact sameReaction_of_announces hk (hend k hk) hc
    refine ⟨⟨fun hc => (hone _ _ hc).1, fun hc => (hone _ _ hc).1⟩, ?_, ?_⟩
    · intro hc
      exact (hone _ _ hc).2
    · intro _
      exact closing_overlay hnil hzero

/-- A Destination Down without its MAC address is answered with six octets from behind it. -/
theorem not_isolated_truncatedDestinationDown : ¬ Isolated truncatedDestinationDown := by
  intro h
  have hsends := (h Unit obliging () 0 8 8 (fun _ => 0) (fun _ => 1) 0).2
  exact absurd hsends (by decide)

end Isolation

end DlepRouter
