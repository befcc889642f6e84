import DlepRouter.Util

/-!
# Intervals between times (`util.c`)

What `interval_compare` says about two times, in whole numbers and in the 64-bit words that the
source computes with. Both agree unless the seconds are further apart than any clock gets.
-/

namespace DlepRouter

/-! ### Times in nanoseconds -/

namespace Timespec

/-- The nanoseconds are less than a second, as `clock_gettime` leaves them. -/
def Normal (t : Timespec) : Prop := 0 ≤ t.nsec ∧ t.nsec < 1000000000

instance (t : Timespec) : Decidable t.Normal := inferInstanceAs (Decidable (_ ∧ _))

/-- A time in nanoseconds. -/
def nanos (t : Timespec) : ℤ := t.sec * 1000000000 + t.nsec

end Timespec

/-- The nanoseconds from one time to another. -/
def elapsed (start stop : Timespec) : ℤ := stop.nanos - start.nanos

/-- Milliseconds, in nanoseconds. -/
def milliseconds (k : ℕ) : ℤ := k * 1000000

/-- Seconds, in nanoseconds. -/
def seconds (k : ℕ) : ℤ := k * 1000000000

section Exact

variable {start stop : Timespec}

/-- `interval_compare` compares the time that has passed with so many seconds. -/
lemma intervalCompare_eq_sign (hstart : start.Normal) (hstop : stop.Normal) (interval : UInt32) :
    intervalCompare start stop interval =
      (elapsed start stop - seconds interval.toNat).sign := by
  unfold Timespec.Normal at hstart hstop
  unfold intervalCompare elapsed Timespec.nanos seconds
  dsimp only
  split_ifs with hborrow hless hmore
  all_goals symm
  · exact Int.sign_eq_neg_one_of_neg (by omega)
  · exact Int.sign_eq_one_of_pos (by omega)
  · exact Int.sign_eq_zero_iff_zero.mpr (by omega)
  · exact Int.sign_eq_neg_one_of_neg (by omega)
  · exact Int.sign_eq_one_of_pos (by omega)
  · exact Int.sign_eq_zero_iff_zero.mpr (by omega)

/-- `interval_compare` finds out whether more than so many seconds have passed. -/
lemma intervalCompare_pos_iff (hstart : start.Normal) (hstop : stop.Normal) (interval : UInt32) :
    0 < intervalCompare start stop interval ↔ seconds interval.toNat < elapsed start stop := by
  rw [intervalCompare_eq_sign hstart hstop, Int.sign_pos_iff, sub_pos]

end Exact

/-! ### Times in machine words -/

/-- `struct timespec` with a 64-bit `time_t` and a 64-bit `long`. -/
structure Timespec64 where
  sec : Int64
  nsec : Int64
  deriving DecidableEq

namespace Timespec64

/-- The time that the words stand for. -/
def exact (t : Timespec64) : Timespec := ⟨t.sec.toInt, t.nsec.toInt⟩

end Timespec64

/-- `interval_compare` in 64-bit arithmetic. The interval is an `unsigned int`, which is widened for
the comparisons. -/
def intervalCompare64 (start stop : Timespec64) (interval : UInt32) : ℤ :=
  let sec := stop.sec - start.sec
  let nsec := stop.nsec - start.nsec
  let (sec, nsec) := if nsec < 0 then (sec - 1, nsec + 1000000000) else (sec, nsec)
  if sec < Int64.ofNat interval.toNat then -1
  else if sec > Int64.ofNat interval.toNat ∨ nsec > 0 then 1
  else 0

section Machine

/-- A difference that fits is not wrapped around. -/
lemma toInt_sub_of_fits {a b : Int64} (h : -2 ^ 63 ≤ a.toInt - b.toInt)
    (h' : a.toInt - b.toInt < 2 ^ 63) : (a - b).toInt = a.toInt - b.toInt := by
  rw [Int64.toInt_sub]
  exact Int.bmod_eq_of_le (by simpa using h) (by simpa using h')

/-- Nor is such a sum. -/
lemma toInt_add_of_fits {a b : Int64} (h : -2 ^ 63 ≤ a.toInt + b.toInt)
    (h' : a.toInt + b.toInt < 2 ^ 63) : (a + b).toInt = a.toInt + b.toInt := by
  rw [Int64.toInt_add]
  exact Int.bmod_eq_of_le (by simpa using h) (by simpa using h')

variable {start stop : Timespec64}

/-- No word overflows on the way. -/
lemma intervalCompare64_eq (hstart : start.exact.Normal) (hstop : stop.exact.Normal)
    (hsec : |stop.exact.sec - start.exact.sec| < 2 ^ 62) (interval : UInt32) :
    intervalCompare64 start stop interval = intervalCompare start.exact stop.exact interval := by
  obtain ⟨hlow, hhigh⟩ := abs_lt.mp hsec
  obtain ⟨hstart0, hstart1⟩ := hstart
  obtain ⟨hstop0, hstop1⟩ := hstop
  simp only [Timespec64.exact] at hlow hhigh hstart0 hstart1 hstop0 hstop1
  have hone : (1 : Int64).toInt = 1 := rfl
  have hzero : (0 : Int64).toInt = 0 := rfl
  have hbillion : (1000000000 : Int64).toInt = 1000000000 := rfl
  have hwide : (Int64.ofNat interval.toNat).toInt = interval.toNat :=
    Int64.toInt_ofNat_of_lt (Nat.lt_trans interval.toNat_lt (by decide))
  have hs : (stop.sec - start.sec).toInt = stop.sec.toInt - start.sec.toInt :=
    toInt_sub_of_fits (by omega) (by omega)
  have hn : (stop.nsec - start.nsec).toInt = stop.nsec.toInt - start.nsec.toInt :=
    toInt_sub_of_fits (by omega) (by omega)
  unfold intervalCompare64 intervalCompare
  simp only [Timespec64.exact, Int64.lt_iff_toInt_lt, hn, hzero]
  by_cases hborrow : stop.nsec.toInt - start.nsec.toInt < 0
  · have hs' : (stop.sec - start.sec - 1).toInt = stop.sec.toInt - start.sec.toInt - 1 := by
      rw [toInt_sub_of_fits (by omega) (by omega), hs, hone]
    have hn' : (stop.nsec - start.nsec + 1000000000).toInt =
        stop.nsec.toInt - start.nsec.toInt + 1000000000 := by
      rw [toInt_add_of_fits (by omega) (by omega), hn, hbillion]
    simp only [hborrow, if_true, hs', hn', hwide, gt_iff_lt]
  · simp only [hborrow, if_false, hs, hn, hwide, gt_iff_lt]

/-- `interval_compare` returns -1, 0 or 1 as the time from `start` to `stop`, to the nanosecond, is
less than the interval in seconds, equal to it or more. -/
theorem intervalCompare64_eq_sign (hstart : start.exact.Normal) (hstop : stop.exact.Normal)
    (hsec : |stop.exact.sec - start.exact.sec| < 2 ^ 62) (interval : UInt32) :
    intervalCompare64 start stop interval =
      (elapsed start.exact stop.exact - seconds interval.toNat).sign := by
  rw [intervalCompare64_eq hstart hstop hsec, intervalCompare_eq_sign hstart hstop]

/-- A nanosecond less than 61 seconds, from before the zero of the clock, is more than a minute. -/
theorem intervalCompare64_eq_sign_borrow :
    intervalCompare64 ⟨-1, 1⟩ ⟨60, 0⟩ 60 =
      (elapsed (Timespec64.exact ⟨-1, 1⟩) (Timespec64.exact ⟨60, 0⟩) - seconds 60).sign :=
  intervalCompare64_eq_sign (by decide) (by decide) (by decide) 60

end Machine

end DlepRouter
