import Mathlib.Algebra.Group.Nat.Defs
import Mathlib.Data.List.TakeWhile
import Mathlib.Data.Nat.Notation
import Mathlib.Tactic.Common

/-!
# Numbers in command line arguments

`strtoul` of the C library with base 10, on an `unsigned long` of 64 bits. It skips white space,
takes a sign, and stops at the first character that is no digit. `IsDecimal` is what an argument
looks like that is a number as a whole.
-/

namespace Libc

/-- The characters of a C string, without the NUL behind them. -/
abbrev Text := List UInt8

/-- The error numbers of `strtoul`. -/
inductive Errno where
  | einval
  | erange
  deriving DecidableEq

/-- `isspace` in the C locale. -/
def isSpace (c : UInt8) : Bool := c = 32 ∨ (9 ≤ c ∧ c ≤ 13)

/-- `isdigit`. -/
def isDigit (c : UInt8) : Bool := 48 ≤ c ∧ c ≤ 57

/-- The number that a list of digits stands for. -/
def decimal (digits : Text) : ℕ :=
  digits.foldl (fun n c => 10 * n + (c.toNat - 48)) 0

/-- Take a sign off the front, and say whether it was a minus. -/
def takeSign : Text → Bool × Text
  | 45 :: text => (true, text)
  | 43 :: text => (false, text)
  | text => (false, text)

/-- `strtoul(text,NULL,10)`: the value, and the error number if one is set. Where there are no
digits to convert the standard leaves open whether it is; `setsEinval` says so. -/
def strtoul (setsEinval : Bool) (text : Text) : UInt64 × Option Errno :=
  let (negative, text) := takeSign (text.dropWhile isSpace)
  let digits := text.takeWhile isDigit
  if digits = [] then (0, if setsEinval then some .einval else none)
  else if 2 ^ 64 ≤ decimal digits then (UInt64.ofNat (2 ^ 64 - 1), some .erange)
  else if negative then (-UInt64.ofNat (decimal digits), none)
  else (UInt64.ofNat (decimal digits), none)

/-- The text is the number `n` in decimal digits, and nothing else. -/
structure IsDecimal (text : Text) (n : ℕ) : Prop where
  nonempty : text ≠ []
  digits : ∀ c ∈ text, isDigit c = true
  decimal_eq : decimal text = n

section IsDecimal

variable {text : Text} {n : ℕ}

lemma not_isSpace_of_isDigit {c : UInt8} (h : isDigit c = true) : isSpace c = false := by
  simp only [isDigit, isSpace, decide_eq_true_eq, decide_eq_false_iff_not, UInt8.le_iff_toNat_le,
    ← UInt8.toNat_inj] at *
  change 48 ≤ c.toNat ∧ c.toNat ≤ 57 at h
  change ¬ (c.toNat = 32 ∨ 9 ≤ c.toNat ∧ c.toNat ≤ 13)
  omega

lemma takeSign_of_isDigit {c : UInt8} (h : isDigit c = true) (text : Text) :
    takeSign (c :: text) = (false, c :: text) := by
  unfold takeSign
  split
  · next heq =>
    obtain ⟨rfl, -⟩ := List.cons.inj heq
    exact absurd h (by decide)
  · next heq =>
    obtain ⟨rfl, -⟩ := List.cons.inj heq
    exact absurd h (by decide)
  · rfl

/-- A number that fits is converted without an error. -/
lemma IsDecimal.strtoul_eq (h : IsDecimal text n) (hn : n < 2 ^ 64) (setsEinval : Bool) :
    strtoul setsEinval text = (UInt64.ofNat n, none) := by
  cases text with
  | nil => exact absurd rfl h.nonempty
  | cons c text =>
    have hc := h.digits c List.mem_cons_self
    have hspace : (c :: text).dropWhile isSpace = c :: text := by
      simp [not_isSpace_of_isDigit hc]
    have hdigits : (c :: text).takeWhile isDigit = c :: text :=
      List.takeWhile_eq_self_iff.mpr h.digits
    have hsmall : ¬ 2 ^ 64 ≤ n := Nat.not_le.mpr hn
    simp only [strtoul, hspace, takeSign_of_isDigit hc, hdigits, h.decimal_eq, if_neg hsmall,
      if_neg h.nonempty, Bool.false_eq_true, if_false]

end IsDecimal

end Libc
