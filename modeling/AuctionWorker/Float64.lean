import Mathlib

/-!
# Integers as doubles

What a program sees when it converts a 64-bit integer to a double: the nearest
integer with 53 significant bits, the even one of two equally near. A double
that holds an integer is represented by that integer.

- `ofInt` is exact below `2 ^ 53` (`ofInt_eq_self`) and monotone in the absolute
  value (`magnitude_mono`);
- the absolute value of a converted 64-bit integer is smaller than the largest
  double (`abs_ofInt_wrap_lt`).
-/

namespace AuctionWorker

namespace Float64

/-- A signed integer modulo `2 ^ 64`. -/
def wrap (n : ℤ) : ℤ :=
  Int.bmod n (2 ^ 64)

/-- The distance between the doubles around `m`, 1 where all integers are
doubles. -/
def quantum (m : ℕ) : ℕ :=
  2 ^ (m.log2 - 52)

/-- `m / q`, rounded to the nearest integer, ties to even. -/
def roundEven (m q : ℕ) : ℕ :=
  if 2 * (m % q) < q ∨ (2 * (m % q) = q ∧ m / q % 2 = 0) then m / q else m / q + 1

def magnitude (m : ℕ) : ℕ :=
  roundEven m (quantum m) * quantum m

def ofInt (n : ℤ) : ℤ :=
  n.sign * magnitude n.natAbs

/-- The largest finite double. -/
def maxValue : ℤ :=
  ((2 ^ 53 - 1) * 2 ^ 971 : ℕ)

theorem magnitude_eq_self {m : ℕ} (h : m < 2 ^ 53) : magnitude m = m := by
  have hlog : m.log2 - 52 = 0 := by
    rcases Nat.eq_zero_or_pos m with rfl | hpos
    · rfl
    · have := (Nat.log2_lt hpos.ne').mpr h
      omega
  rw [magnitude, quantum, hlog, roundEven]
  simp [Nat.mod_one]

theorem ofInt_eq_self {n : ℤ} (h : |n| < 2 ^ 53) : ofInt n = n := by
  have hnat : n.natAbs < 2 ^ 53 := by
    rw [Int.abs_eq_natAbs] at h
    exact_mod_cast h
  rw [ofInt, magnitude_eq_self hnat, Int.sign_mul_natAbs]

theorem roundEven_le (m q : ℕ) : roundEven m q ≤ m / q + 1 := by
  unfold roundEven
  split <;> omega

theorem magnitude_le (m : ℕ) : magnitude m ≤ 2 * m + 1 := by
  have hround := Nat.mul_le_mul_right (quantum m) (roundEven_le m (quantum m))
  have hdiv : m / quantum m * quantum m ≤ m := Nat.div_mul_le_self m (quantum m)
  have hquantum : quantum m ≤ m + 1 := by
    rcases Nat.eq_zero_or_pos m with rfl | hpos
    · decide
    · have hpow : quantum m ≤ 2 ^ m.log2 := Nat.pow_le_pow_right (by omega) (by omega)
      have := Nat.log2_self_le hpos.ne'
      omega
  rw [Nat.add_mul, Nat.one_mul] at hround
  unfold magnitude
  omega

theorem roundEven_mono {m n q : ℕ} (h : m ≤ n) : roundEven m q ≤ roundEven n q := by
  rcases (Nat.div_le_div_right (c := q) h).lt_or_eq with hlt | heq
  · have hle : n / q ≤ roundEven n q := by
      unfold roundEven
      split <;> omega
    exact (roundEven_le m q).trans (Nat.succ_le_of_lt hlt |>.trans hle)
  · -- the quotients agree, so the remainders decide
    have hm := Nat.div_add_mod m q
    have hn := Nat.div_add_mod n q
    have hmod : m % q ≤ n % q := by
      rw [heq] at hm
      omega
    unfold roundEven
    rw [heq]
    split
    · split <;> omega
    · split <;> omega

/-- The powers of two around `m` are doubles. -/
theorem le_magnitude {m : ℕ} (h : m ≠ 0) :
    2 ^ m.log2 ≤ magnitude m ∧ magnitude m ≤ 2 ^ (m.log2 + 1) := by
  have hdvd : ∀ k, m.log2 ≤ k → quantum m ∣ 2 ^ k := fun k hk =>
    Nat.pow_dvd_pow 2 (by omega)
  have hpos : 0 < quantum m := Nat.pow_pos Nat.two_pos
  obtain ⟨a, ha⟩ := hdvd m.log2 le_rfl
  obtain ⟨b, hb⟩ := hdvd (m.log2 + 1) (Nat.le_succ _)
  have hlow : a ≤ m / quantum m :=
    (Nat.le_div_iff_mul_le hpos).mpr (by rw [Nat.mul_comm, ← ha]; exact Nat.log2_self_le h)
  have hhigh : m / quantum m < b :=
    (Nat.div_lt_iff_lt_mul hpos).mpr (by rw [Nat.mul_comm, ← hb]; exact Nat.lt_log2_self)
  have hround : m / quantum m ≤ roundEven m (quantum m) := by
    unfold roundEven
    split <;> omega
  have hup := roundEven_le m (quantum m)
  rw [magnitude, ha, hb, Nat.mul_comm (quantum m) a, Nat.mul_comm (quantum m) b]
  exact ⟨Nat.mul_le_mul_right _ (by omega), Nat.mul_le_mul_right _ (by omega)⟩

theorem magnitude_mono {m n : ℕ} (h : m ≤ n) : magnitude m ≤ magnitude n := by
  rcases Nat.eq_zero_or_pos m with rfl | hpos
  · rw [magnitude_eq_self (by norm_num)]
    exact Nat.zero_le _
  · have hlog : m.log2 ≤ n.log2 :=
      (Nat.le_log2 (hpos.trans_le h).ne').mpr ((Nat.log2_self_le hpos.ne').trans h)
    rcases hlog.lt_or_eq with hlt | heq
    · calc magnitude m ≤ 2 ^ (m.log2 + 1) := (le_magnitude hpos.ne').2
        _ ≤ 2 ^ n.log2 := Nat.pow_le_pow_right Nat.two_pos hlt
        _ ≤ magnitude n := (le_magnitude (hpos.trans_le h).ne').1
    · unfold magnitude quantum
      rw [heq]
      exact Nat.mul_le_mul_right _ (roundEven_mono h)

theorem abs_ofInt (n : ℤ) : |ofInt n| = magnitude n.natAbs := by
  rcases eq_or_ne n 0 with rfl | hne
  · simp [ofInt, magnitude_eq_self]
  · rw [ofInt, abs_mul, Int.abs_sign_of_ne_zero hne, one_mul, Nat.abs_cast]

theorem abs_ofInt_le (n : ℤ) : |ofInt n| ≤ 2 * |n| + 1 := by
  have hm := magnitude_le n.natAbs
  rw [Int.abs_eq_natAbs, Int.abs_eq_natAbs, ofInt, Int.natAbs_mul, Int.natAbs_natCast]
  have hsign : n.sign.natAbs ≤ 1 := by
    rcases Int.sign_trichotomy n with h | h | h <;> simp [h]
  have hmul : n.sign.natAbs * magnitude n.natAbs ≤ 1 * magnitude n.natAbs :=
    Nat.mul_le_mul_right _ hsign
  omega

theorem abs_wrap_le (n : ℤ) : |wrap n| ≤ 2 ^ 63 := by
  have hle : wrap n < (2 ^ 64 + 1) / 2 := Int.bmod_lt (by norm_num)
  have hge : -(2 ^ 64 / 2) ≤ wrap n := Int.le_bmod (by norm_num)
  rw [abs_le]
  norm_num at hle hge ⊢
  omega

theorem wrap_eq_self {n : ℤ} (h : |n| < 2 ^ 63) : wrap n = n := by
  rw [abs_lt] at h
  exact Int.bmod_eq_of_le (by norm_num at h ⊢; omega) (by norm_num at h ⊢; omega)

/-- Up to `2 ^ 63` the reduction keeps the absolute value: it can change the sign there. -/
theorem abs_wrap_eq_self {n : ℤ} (h : |n| ≤ 2 ^ 63) : |wrap n| = |n| := by
  rcases h.lt_or_eq with hlt | heq
  · rw [wrap_eq_self hlt]
  · rcases (abs_eq (by norm_num)).mp heq with rfl | rfl
    · decide
    · decide

theorem two_pow_le_maxValue : 2 ^ 65 ≤ maxValue := by
  have hmul : ∀ k, 65 ≤ k → 2 ^ 65 ≤ (2 ^ 53 - 1) * 2 ^ k := fun k hk =>
    (Nat.pow_le_pow_right Nat.two_pos hk).trans (Nat.le_mul_of_pos_left _ (by norm_num))
  exact Int.ofNat_le.mpr (hmul 971 (by norm_num))

/-- No difference of 64-bit integers reaches the largest double. -/
theorem abs_ofInt_wrap_lt (n : ℤ) : |ofInt (wrap n)| < maxValue := by
  have h1 := abs_ofInt_le (wrap n)
  have h2 := abs_wrap_le n
  have h3 := two_pow_le_maxValue
  omega

end Float64

end AuctionWorker
