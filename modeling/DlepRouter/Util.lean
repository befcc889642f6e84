import DlepRouter.Report
import DlepRouter.Tlv.BigEndian

/-!
# Reading and writing numbers (`util.c`)

The readers accumulate octets in a machine word, as the source does; their values are the
big-endian numbers of the octets read. The header of a data item is two such numbers, which makes
data items an instance of the generic item format.
-/

namespace DlepRouter

open Tlv Scan

/-! ### Readers -/

def readUint16 (p : ℕ) : Reader UInt16 := do
  let b0 ← load p
  let v : UInt16 := b0.toUInt16
  let b1 ← load (p + 1)
  pure (v <<< 8 ||| b1.toUInt16)

def readUint32 (p : ℕ) : Reader UInt32 := do
  let b0 ← load p
  let v : UInt32 := b0.toUInt32
  let b1 ← load (p + 1)
  let v := v <<< 8 ||| b1.toUInt32
  let b2 ← load (p + 2)
  let v := v <<< 8 ||| b2.toUInt32
  let b3 ← load (p + 3)
  pure (v <<< 8 ||| b3.toUInt32)

def readUint64 (p : ℕ) : Reader UInt64 := do
  let b0 ← load p
  let v : UInt64 := b0.toUInt64
  let b1 ← load (p + 1)
  let v := v <<< 8 ||| b1.toUInt64
  let b2 ← load (p + 2)
  let v := v <<< 8 ||| b2.toUInt64
  let b3 ← load (p + 3)
  let v := v <<< 8 ||| b3.toUInt64
  let b4 ← load (p + 4)
  let v := v <<< 8 ||| b4.toUInt64
  let b5 ← load (p + 5)
  let v := v <<< 8 ||| b5.toUInt64
  let b6 ← load (p + 6)
  let v := v <<< 8 ||| b6.toUInt64
  let b7 ← load (p + 7)
  pure (v <<< 8 ||| b7.toUInt64)

section Readers

variable (m : Memory UInt8) (p : ℕ)

lemma bigEndian_slice_succ (n : ℕ) :
    bigEndian (m.slice p (n + 1)) = bigEndian (m.slice p n) * 256 + (m (p + n)).toNat := by
  rw [Memory.slice_add, ← bigEndian_concat]
  rfl

lemma bigEndian_slice_lt {n k : ℕ} (h : n < k) :
    bigEndian (m.slice p n) * 256 < 256 ^ k := by
  have hn : bigEndian (m.slice p n) < 256 ^ n := by simpa using bigEndian_lt (m.slice p n)
  calc bigEndian (m.slice p n) * 256 < 256 ^ n * 256 := by omega
    _ = 256 ^ (n + 1) := (Nat.pow_succ ..).symm
    _ ≤ 256 ^ k := Nat.pow_le_pow_right (by omega) h

variable {m p}

lemma accumulate16_slice {v : UInt16} {n : ℕ} (hv : v.toNat = bigEndian (m.slice p n))
    (hn : n < 2) :
    (v <<< 8 ||| (m (p + n)).toUInt16).toNat = bigEndian (m.slice p (n + 1)) := by
  rw [toNat_accumulate16 _ (hv ▸ bigEndian_slice_lt m p hn), bigEndian_slice_succ, hv]

lemma accumulate32_slice {v : UInt32} {n : ℕ} (hv : v.toNat = bigEndian (m.slice p n))
    (hn : n < 4) :
    (v <<< 8 ||| (m (p + n)).toUInt32).toNat = bigEndian (m.slice p (n + 1)) := by
  rw [toNat_accumulate32 _ (hv ▸ bigEndian_slice_lt m p hn), bigEndian_slice_succ, hv]

lemma accumulate64_slice {v : UInt64} {n : ℕ} (hv : v.toNat = bigEndian (m.slice p n))
    (hn : n < 8) :
    (v <<< 8 ||| (m (p + n)).toUInt64).toNat = bigEndian (m.slice p (n + 1)) := by
  rw [toNat_accumulate64 _ (hv ▸ bigEndian_slice_lt m p hn), bigEndian_slice_succ, hv]

variable (m p)

/-- `read_uint16` yields the big-endian number of the two octets at `p`. -/
lemma toNat_readUint16 : ((readUint16 p).value m).toNat = bigEndian (m.slice p 2) := by
  have h1 : (m p).toUInt16.toNat = bigEndian (m.slice p 1) := by simp [Memory.slice_succ]
  simpa [readUint16] using accumulate16_slice h1 (by omega)

/-- `read_uint32` yields the big-endian number of the four octets at `p`. -/
lemma toNat_readUint32 : ((readUint32 p).value m).toNat = bigEndian (m.slice p 4) := by
  have h1 : (m p).toUInt32.toNat = bigEndian (m.slice p 1) := by simp [Memory.slice_succ]
  have h2 := accumulate32_slice h1 (by omega)
  have h3 := accumulate32_slice h2 (by omega)
  exact accumulate32_slice h3 (by omega)

/-- `read_uint64` yields the big-endian number of the eight octets at `p`. -/
lemma toNat_readUint64 : ((readUint64 p).value m).toNat = bigEndian (m.slice p 8) := by
  have h1 : (m p).toUInt64.toNat = bigEndian (m.slice p 1) := by simp [Memory.slice_succ]
  have h2 := accumulate64_slice h1 (by omega)
  have h3 := accumulate64_slice h2 (by omega)
  have h4 := accumulate64_slice h3 (by omega)
  have h5 := accumulate64_slice h4 (by omega)
  have h6 := accumulate64_slice h5 (by omega)
  have h7 := accumulate64_slice h6 (by omega)
  exact accumulate64_slice h7 (by omega)

@[simp] lemma reads_readUint16 : (readUint16 p).reads m = List.range' p 2 := rfl

@[simp] lemma reads_readUint32 : (readUint32 p).reads m = List.range' p 4 := rfl

@[simp] lemma reads_readUint64 : (readUint64 p).reads m = List.range' p 8 := rfl

@[simp] lemma outputs_readUint16 : (readUint16 p).outputs m = [] := rfl

@[simp] lemma outputs_readUint32 : (readUint32 p).outputs m = [] := rfl

@[simp] lemma outputs_readUint64 : (readUint64 p).outputs m = [] := rfl

end Readers

/-! ### Writers -/

/-- `write_uint16`, as the octets it stores. -/
def writeUint16 (v : UInt16) : List UInt8 :=
  [(v >>> 8).toUInt8, (v &&& 0xFF).toUInt8]

/-- `write_uint32`, as the octets it stores. -/
def writeUint32 (v : UInt32) : List UInt8 :=
  [(v >>> 24).toUInt8, (v >>> 16).toUInt8, (v >>> 8).toUInt8, (v &&& 0xFF).toUInt8]

@[simp] lemma length_writeUint16 (v : UInt16) : (writeUint16 v).length = 2 := rfl

@[simp] lemma length_writeUint32 (v : UInt32) : (writeUint32 v).length = 4 := rfl

/-- Writing a number stores its big-endian octets. -/
@[simp] lemma bigEndian_writeUint16 (v : UInt16) : bigEndian (writeUint16 v) = v.toNat := by
  rw [writeUint16, ← List.singleton_append, bigEndian_concat, bigEndian_singleton]
  have hmask : ∀ x : ℕ, x &&& 255 = x % 2 ^ 8 := fun x => Nat.and_two_pow_sub_one_eq_mod x 8
  have hv := v.toNat_lt
  simp [Nat.shiftRight_eq_div_pow, hmask]
  omega

/-- All octets of a 32-bit number are stored. -/
@[simp] lemma bigEndian_writeUint32 (v : UInt32) : bigEndian (writeUint32 v) = v.toNat := by
  have hmask : ∀ x : ℕ, x &&& 255 = x % 2 ^ 8 := fun x => Nat.and_two_pow_sub_one_eq_mod x 8
  have hv := v.toNat_lt
  have hconcat : ∀ a b c d : UInt8, bigEndian [a, b, c, d] =
      ((a.toNat * 256 + b.toNat) * 256 + c.toNat) * 256 + d.toNat := by
    intro a b c d
    rw [show [a, b, c, d] = [a] ++ [b] ++ [c] ++ [d] from rfl, bigEndian_concat,
      bigEndian_concat, bigEndian_concat, bigEndian_singleton]
  rw [writeUint32, hconcat]
  simp [Nat.shiftRight_eq_div_pow, hmask]
  omega

/-- Two octets are the ones written for their number. -/
lemma writeUint16_ofNat_bigEndian {l : List UInt8} (h : l.length = 2) :
    writeUint16 (UInt16.ofNat (bigEndian l)) = l := by
  obtain ⟨a, b, rfl⟩ := List.length_eq_two.mp h
  have ha := a.toNat_lt
  have hb := b.toNat_lt
  have hab : bigEndian [a, b] = a.toNat * 256 + b.toNat := by
    simpa using bigEndian_concat [a] b
  have hmask : ∀ x : ℕ, x &&& 255 = x % 2 ^ 8 := fun x => Nat.and_two_pow_sub_one_eq_mod x 8
  rw [hab, writeUint16]
  congr 1
  · apply UInt8.toNat_inj.mp
    simp [Nat.shiftRight_eq_div_pow]
    omega
  · congr 1
    apply UInt8.toNat_inj.mp
    simp [hmask]

/-! ### Time -/

/-- `struct timespec`. -/
structure Timespec where
  sec : ℤ
  nsec : ℤ
  deriving DecidableEq

/-- `interval_compare`, which takes the interval for a number of seconds. -/
def intervalCompare (start stop : Timespec) (interval : UInt32) : ℤ :=
  let sec := stop.sec - start.sec
  let nsec := stop.nsec - start.nsec
  let (sec, nsec) := if nsec < 0 then (sec - 1, nsec + 1000000000) else (sec, nsec)
  if sec < interval.toNat then -1
  else if sec > interval.toNat ∨ nsec > 0 then 1
  else 0

/-! ### Data items -/

/-- The header of a data item: two octets of type and two of length. -/
def dataItemFormat : Format UInt8 UInt16 where
  width := 4
  bound := 2 ^ 16
  read l := (UInt16.ofNat (bigEndian (l.take 2)), bigEndian (l.drop 2))
  write t n := writeUint16 t ++ writeUint16 (UInt16.ofNat n)
  width_pos := by decide
  length_write _ _ := rfl
  read_write t n hn := by
    have hlen := length_writeUint16 t
    rw [List.take_left' hlen, List.drop_left' hlen, bigEndian_writeUint16, bigEndian_writeUint16,
      UInt16.ofNat_toNat, UInt16.toNat_ofNat_of_lt' hn]
  write_read l hl := by
    rw [writeUint16_ofNat_bigEndian (by simp [hl]), writeUint16_ofNat_bigEndian (by simp [hl]),
      List.take_append_drop]
  read_lt l hl := by
    simpa [hl] using bigEndian_lt (l.drop 2)

/-- A data item: its type and its payload. -/
abbrev DataItem := Item UInt8 UInt16

/-- How every loop of the router reads a data item header. -/
def dataItems : Walker UInt8 UInt16 Output where
  format := dataItemFormat
  header off := do
    let itemId ← readUint16 off
    let itemLen ← readUint16 (off + 2)
    pure (itemId, itemLen.toNat)
  mark := .visit
  value_header m off := by
    have hid : (readUint16 off).value m = UInt16.ofNat (bigEndian (m.slice off 2)) := by
      rw [← toNat_readUint16, UInt16.ofNat_toNat]
    simp [dataItemFormat, hid, toNat_readUint16, Memory.take_slice, Memory.drop_slice]
  reads_header m off := by
    simp [dataItemFormat, List.range'_succ]
  outputs_header m off := by simp

end DlepRouter
