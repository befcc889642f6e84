import Mathlib.Data.Nat.Digits.Lemmas
import Mathlib.Data.Nat.Bitwise

/-!
# Big-endian numbers

The value of a list of octets read as one number with the most significant octet first, and the
shift-and-or step by which C code accumulates it in a machine word.
-/

namespace Tlv

/-- The number whose base-256 digits, most significant first, are the octets of `l`. -/
def bigEndian (l : List UInt8) : ℕ :=
  Nat.ofDigits 256 (l.reverse.map UInt8.toNat)

@[simp] lemma bigEndian_nil : bigEndian [] = 0 := rfl

lemma bigEndian_concat (l : List UInt8) (b : UInt8) :
    bigEndian (l ++ [b]) = bigEndian l * 256 + b.toNat := by
  simp only [bigEndian, List.reverse_append, List.reverse_singleton, List.singleton_append,
    List.map_cons, Nat.ofDigits_cons]
  ring

@[simp] lemma bigEndian_singleton (b : UInt8) : bigEndian [b] = b.toNat := by
  simpa using bigEndian_concat [] b

lemma bigEndian_lt (l : List UInt8) : bigEndian l < 256 ^ l.length := by
  have hdigits : ∀ x ∈ l.reverse.map UInt8.toNat, x < 254 + 2 := by
    intro x hx
    obtain ⟨b, -, rfl⟩ := List.mem_map.mp hx
    exact b.toNat_lt
  simpa [bigEndian] using Nat.ofDigits_lt_base_pow_length' hdigits

/-- Shifting a number left by an octet and or-ing the octet in. -/
lemma shiftLeft_or_octet {a b w : ℕ} (ha : a * 256 < 2 ^ w) (hb : b < 256) :
    (a <<< 8) % 2 ^ w ||| b = a * 256 + b := by
  have hs : a <<< 8 = a * 256 := by simp [Nat.shiftLeft_eq]
  rw [hs, Nat.mod_eq_of_lt ha, ← hs, ← Nat.shiftLeft_add_eq_or_of_lt (by simpa using hb)]

lemma toNat_accumulate16 {v : UInt16} (b : UInt8) (h : v.toNat * 256 < 2 ^ 16) :
    (v <<< 8 ||| b.toUInt16).toNat = v.toNat * 256 + b.toNat := by
  simpa using shiftLeft_or_octet h b.toNat_lt

lemma toNat_accumulate32 {v : UInt32} (b : UInt8) (h : v.toNat * 256 < 2 ^ 32) :
    (v <<< 8 ||| b.toUInt32).toNat = v.toNat * 256 + b.toNat := by
  simpa using shiftLeft_or_octet h b.toNat_lt

lemma toNat_accumulate64 {v : UInt64} (b : UInt8) (h : v.toNat * 256 < 2 ^ 64) :
    (v <<< 8 ||| b.toUInt64).toNat = v.toNat * 256 + b.toNat := by
  simpa using shiftLeft_or_octet h b.toNat_lt

end Tlv
