import AuctionWorker.Float64

/-!
# Decimals and doubles

A decimal that is read as a double and printed again. `ofRat` is the double next
to a rational number in the range of normal doubles, with a relative error of at
most `2 ^ -53` (`abs_ofRat_sub_le`). Hence a decimal of at most 15 digits shares
its double with no other decimal on its grid (`eq_of_ofRat_eq`).

`shortest` searches the decimals next to a double for one that reads back as the
same double, from coarse grids to fine ones. Of the double of a decimal of at
most 15 digits it finds this decimal (`shortest_value`).

`positional` writes a decimal without an exponent and without trailing zeros. It
depends on the value only (`Decimal.text_eq`).
-/

namespace AuctionWorker

namespace Float64

/-! ## Doubles -/

/-- The distance between the doubles around `x`. -/
def ulp (x : ℚ) : ℚ :=
  2 ^ (Int.log 2 x - 52)

/-- The nearest double of a number that is not negative, ties to even. -/
def ofRat (x : ℚ) : ℚ :=
  roundEven (x / ulp x).num.natAbs (x / ulp x).den * ulp x

theorem abs_roundEven_sub_le {m q : ℕ} (hq : 0 < q) :
    |(roundEven m q : ℚ) - (m : ℚ) / q| ≤ 1 / 2 := by
  have hq' : (0 : ℚ) < q := Nat.cast_pos.mpr hq
  have hdiv : (m : ℚ) / q = (m / q : ℕ) + ((m % q : ℕ) : ℚ) / q := by
    rw [eq_comm, ← eq_sub_iff_add_eq', div_eq_iff hq'.ne', sub_mul, div_mul_cancel₀ _ hq'.ne']
    have hmod : ((m / q * q + m % q : ℕ) : ℚ) = m := by rw [Nat.div_add_mod']
    push_cast at hmod
    linarith
  have hlt : m % q < q := Nat.mod_lt m hq
  rw [hdiv, abs_le]
  unfold roundEven
  split
  case isTrue h =>
    have hhalf : 2 * (m % q) ≤ q := by omega
    have hle : ((m % q : ℕ) : ℚ) / q ≤ 1 / 2 := by
      rw [div_le_div_iff₀ hq' two_pos]
      exact_mod_cast (by omega : m % q * 2 ≤ 1 * q)
    have hge : 0 ≤ ((m % q : ℕ) : ℚ) / q := by positivity
    constructor <;> linarith
  case isFalse h =>
    have hhalf : q ≤ 2 * (m % q) := by omega
    have hge : 1 / 2 ≤ ((m % q : ℕ) : ℚ) / q := by
      rw [div_le_div_iff₀ two_pos hq']
      exact_mod_cast (by omega : 1 * q ≤ m % q * 2)
    have hle : ((m % q : ℕ) : ℚ) / q < 1 := by
      rw [div_lt_one hq']
      exact_mod_cast hlt
    push_cast
    constructor <;> linarith

theorem ulp_pos (x : ℚ) : 0 < ulp x :=
  zpow_pos two_pos _

theorem natAbs_num_div_den {q : ℚ} (hq : 0 ≤ q) : (q.num.natAbs : ℚ) / q.den = q := by
  have hnum : ((q.num.natAbs : ℤ) : ℚ) = q.num :=
    congrArg Int.cast (Int.natAbs_of_nonneg (Rat.num_nonneg.mpr hq))
  rw [← Int.cast_natCast, hnum, Rat.num_div_den]

/-- The relative error of a double. -/
theorem abs_ofRat_sub_le {x : ℚ} (hx : 0 ≤ x) : |ofRat x - x| ≤ x / 2 ^ 53 := by
  rcases hx.eq_or_lt with rfl | hpos
  · simp [ofRat, roundEven]
  · have hulp := ulp_pos x
    have hround := abs_roundEven_sub_le (m := (x / ulp x).num.natAbs) (x / ulp x).pos
    rw [natAbs_num_div_den (by positivity)] at hround
    have hscale : ofRat x - x
        = (roundEven (x / ulp x).num.natAbs (x / ulp x).den - x / ulp x) * ulp x := by
      rw [sub_mul, div_mul_cancel₀ _ hulp.ne', ofRat]
    have hsmall : ulp x ≤ x / 2 ^ 52 := by
      have hlog : (2 : ℚ) ^ Int.log 2 x ≤ x := by
        exact_mod_cast Int.zpow_log_le_self (b := 2) (by norm_num) hpos
      rw [ulp, zpow_sub₀ two_ne_zero]
      exact div_le_div_of_nonneg_right hlog (by positivity)
    rw [hscale, abs_mul, abs_of_pos hulp]
    calc |(roundEven (x / ulp x).num.natAbs (x / ulp x).den : ℚ) - x / ulp x| * ulp x
        ≤ 1 / 2 * (x / 2 ^ 52) := mul_le_mul hround hsmall hulp.le (by norm_num)
      _ = x / 2 ^ 53 := by ring

/-- On a grid, a decimal of at most 15 digits has a smaller double than all larger
decimals. -/
theorem ofRat_lt_ofRat {a b : ℕ} {u : ℚ} (hu : 0 < u) (ha : a < 10 ^ 15) (h : a < b) :
    ofRat (a * u) < ofRat (b * u) := by
  have herra := abs_ofRat_sub_le (x := a * u) (by positivity)
  have herrb := abs_ofRat_sub_le (x := b * u) (by positivity)
  rw [abs_le] at herra herrb
  have hgap : (a : ℚ) + b < (b - a) * 2 ^ 53 := by
    have hgap' : (a : ℤ) + b < (b - a) * 2 ^ 53 := by omega
    exact_mod_cast hgap'
  have hscaled := mul_lt_mul_of_pos_right hgap hu
  linarith

/-- It shares its double with no other decimal. -/
theorem eq_of_ofRat_eq {a b : ℕ} {u : ℚ} (hu : 0 < u) (ha : a < 10 ^ 15)
    (h : ofRat (a * u) = ofRat (b * u)) : a = b := by
  rcases lt_trichotomy a b with hlt | heq | hgt
  · exact absurd h (ofRat_lt_ofRat hu ha hlt).ne
  · exact heq
  · exact absurd h (ofRat_lt_ofRat hu (hgt.trans ha) hgt).ne'

/-! ## Printing a double -/

/-- `mantissa * 10 ^ exponent` -/
structure Decimal where
  mantissa : ℕ
  exponent : ℤ
deriving Repr, DecidableEq

def Decimal.value (d : Decimal) : ℚ :=
  d.mantissa * 10 ^ d.exponent

/-- The decimals next to `x` with `k` digits down to the last place, the nearer one
first. -/
def candidates (x : ℚ) (k : ℕ) : List Decimal :=
  let exponent := Int.log 10 x + 1 - k
  let below := ⌊x / 10 ^ exponent⌋₊
  if x / 10 ^ exponent - below ≤ 1 / 2 then [⟨below, exponent⟩, ⟨below + 1, exponent⟩]
  else [⟨below + 1, exponent⟩, ⟨below, exponent⟩]

/-- The shortest decimal that reads back as the double `x`, the nearest of them.
Seventeen digits suffice for every double. -/
def shortest (x : ℚ) : Decimal :=
  ((List.range 18).findSome? fun k => (candidates x k).find? fun d => ofRat d.value = x).getD ⟨0, 0⟩

section Candidates

variable {x : ℚ} {d : Decimal} {k : ℕ}

theorem exponent_of_mem_candidates (h : d ∈ candidates x k) :
    d.exponent = Int.log 10 x + 1 - k := by
  simp only [candidates] at h
  split at h
  · rcases List.mem_pair.mp h with rfl | rfl <;> rfl
  · rcases List.mem_pair.mp h with rfl | rfl <;> rfl

/-- A decimal that is nearer than half a step of its grid is a candidate. -/
theorem mem_candidates (hx : 0 ≤ x) (hexponent : d.exponent = Int.log 10 x + 1 - k)
    (h : |x / 10 ^ d.exponent - d.mantissa| < 1 / 2) : d ∈ candidates x k := by
  obtain ⟨mantissa, exponent⟩ := d
  dsimp only at hexponent h
  have hle := Nat.floor_le (a := x / 10 ^ exponent) (by positivity)
  have hlt := Nat.lt_floor_add_one (x / 10 ^ exponent)
  rw [abs_lt] at h
  have hlow : (2 * ⌊x / 10 ^ exponent⌋₊ : ℚ) < 2 * mantissa + 1 := by linarith
  have hhigh : (2 * mantissa : ℚ) < 2 * ⌊x / 10 ^ exponent⌋₊ + 3 := by linarith
  have hlow' : 2 * ⌊x / 10 ^ exponent⌋₊ < 2 * mantissa + 1 := by exact_mod_cast hlow
  have hhigh' : 2 * mantissa < 2 * ⌊x / 10 ^ exponent⌋₊ + 3 := by exact_mod_cast hhigh
  have hcases : mantissa = ⌊x / 10 ^ exponent⌋₊ ∨ mantissa = ⌊x / 10 ^ exponent⌋₊ + 1 := by omega
  rw [candidates, ← hexponent]
  split
  · rcases hcases with heq | heq <;> simp [← heq]
  · rcases hcases with heq | heq <;> simp [← heq]

/-- What is found reads back as `x`, on the grid of any candidate that does, or on a
coarser one. -/
theorem shortest_of_mem_candidates (hk : k < 18) (hd : d ∈ candidates x k)
    (hread : ofRat d.value = x) :
    ofRat (shortest x).value = x ∧ d.exponent ≤ (shortest x).exponent := by
  have hsome : ((candidates x k).find? fun d => ofRat d.value = x).isSome :=
    List.find?_isSome.mpr ⟨d, hd, decide_eq_true hread⟩
  cases hfound : (List.range 18).findSome? fun k =>
      (candidates x k).find? fun d => ofRat d.value = x with
  | none =>
      have hnone := List.findSome?_eq_none_iff.mp hfound k (List.mem_range.mpr hk)
      rw [hnone] at hsome
      cases hsome
  | some found =>
      have hshortest : shortest x = found := by rw [shortest, hfound, Option.getD_some]
      obtain ⟨before, k', after, hsplit, hfind, hbefore⟩ := List.findSome?_eq_some_iff.mp hfound
      have hmem := List.mem_of_find?_eq_some hfind
      have hfits : ofRat found.value = x := by simpa using List.find?_some hfind
      have hle : k' ≤ k := by
        -- a smaller `k` would have been tried before
        by_contra hlt
        have hin : k ∈ before ++ k' :: after := hsplit ▸ List.mem_range.mpr hk
        have hsorted := List.pairwise_lt_range (n := 18)
        rw [hsplit, List.pairwise_append, List.pairwise_cons] at hsorted
        rcases List.mem_append.mp hin with hearlier | hlater
        · rw [hbefore k hearlier] at hsome
          cases hsome
        · rcases List.mem_cons.mp hlater with heq | hafter
          · exact hlt heq.ge
          · exact hlt (hsorted.2.1.1 k hafter).le
      rw [hshortest, exponent_of_mem_candidates hmem, exponent_of_mem_candidates hd]
      exact ⟨hfits, by omega⟩

end Candidates

/-- The decimal logarithm of the double of a decimal with at most 15 digits. -/
theorem log_ofRat_value {d : Decimal} (hpos : 0 < d.mantissa) (hlt : d.mantissa < 10 ^ 15) :
    0 < ofRat d.value ∧ d.exponent - 1 ≤ Int.log 10 (ofRat d.value)
      ∧ Int.log 10 (ofRat d.value) < d.exponent + 15 := by
  have hgrid : (0 : ℚ) < 10 ^ d.exponent := by positivity
  have hone : (1 : ℚ) ≤ d.mantissa := by exact_mod_cast hpos
  have hmax : (d.mantissa : ℚ) ≤ 10 ^ 15 - 1 := by
    have hle : d.mantissa + 1 ≤ 10 ^ 15 := hlt
    have hcast : ((d.mantissa + 1 : ℕ) : ℚ) ≤ (10 ^ 15 : ℕ) := Nat.cast_le.mpr hle
    push_cast at hcast
    linarith
  have herr := abs_ofRat_sub_le (x := d.value) (by unfold Decimal.value; positivity)
  rw [abs_le, Decimal.value] at herr
  have hlow : (10 : ℚ) ^ (d.exponent - 1) ≤ ofRat d.value := by
    have hle := le_mul_of_one_le_left hgrid.le hone
    rw [zpow_sub_one₀ (by norm_num), Decimal.value]
    linarith
  have hhigh : ofRat d.value < (10 : ℚ) ^ (d.exponent + 15) := by
    have hle := mul_le_mul_of_nonneg_right hmax hgrid.le
    rw [zpow_add₀ (by norm_num), Decimal.value]
    norm_num at hle ⊢
    linarith
  have hx : 0 < ofRat d.value := (zpow_pos (by norm_num) _).trans_le hlow
  refine ⟨hx, ?_, ?_⟩
  · exact (Int.zpow_le_iff_le_log (b := 10) (by norm_num) hx).mp (by exact_mod_cast hlow)
  · exact (Int.lt_zpow_iff_log_lt (b := 10) (by norm_num) hx).mp (by exact_mod_cast hhigh)

/-- **Reading and printing.** A decimal of at most 15 digits comes back from its
double. -/
theorem shortest_value {d : Decimal} (hlt : d.mantissa < 10 ^ 15) :
    (shortest (ofRat d.value)).value = d.value := by
  rcases Nat.eq_zero_or_pos d.mantissa with hzero | hpos
  · have hvalue : d.value = 0 := by rw [Decimal.value, hzero, Nat.cast_zero, zero_mul]
    have hofRat : ofRat 0 = 0 := by simp [ofRat, roundEven]
    have hcandidate : (⟨0, 1⟩ : Decimal) ∈ candidates 0 0 :=
      mem_candidates le_rfl (by simp) (by simp)
    have hread := (shortest_of_mem_candidates (by norm_num) hcandidate
      (by simp [Decimal.value, hofRat])).1
    have herr := abs_ofRat_sub_le (x := (shortest 0).value) (by unfold Decimal.value; positivity)
    have hnonneg : 0 ≤ (shortest 0).value := by unfold Decimal.value; positivity
    rw [hread, abs_le] at herr
    rw [hvalue, hofRat]
    linarith
  · obtain ⟨hx, hlow, hhigh⟩ := log_ofRat_value hpos hlt
    have hgrid : (0 : ℚ) < 10 ^ d.exponent := by positivity
    obtain ⟨k, hk⟩ := Int.eq_ofNat_of_zero_le (a := Int.log 10 (ofRat d.value) + 1 - d.exponent)
      (by omega)
    have hcandidate : d ∈ candidates (ofRat d.value) k := by
      refine mem_candidates hx.le (by omega) ?_
      have herr := abs_ofRat_sub_le (x := d.value) (by unfold Decimal.value; positivity)
      have hmantissa : (d.mantissa : ℚ) < 10 ^ 15 := by exact_mod_cast hlt
      have hsmall := mul_lt_mul_of_pos_right hmantissa hgrid
      have hdiff : ofRat d.value / 10 ^ d.exponent - d.mantissa
          = (ofRat d.value - d.value) / 10 ^ d.exponent := by
        rw [sub_div, Decimal.value, mul_div_cancel_right₀ _ hgrid.ne']
      rw [hdiff, abs_div, abs_of_pos hgrid, div_lt_iff₀ hgrid]
      refine herr.trans_lt ?_
      rw [Decimal.value]
      linarith
    obtain ⟨hread, hcoarser⟩ := shortest_of_mem_candidates (by omega) hcandidate rfl
    generalize shortest (ofRat d.value) = found at hread hcoarser ⊢
    obtain ⟨shift, hshift⟩ := Int.eq_ofNat_of_zero_le (a := found.exponent - d.exponent) (by omega)
    -- the decimal found, on the grid of `d`
    have hfound : found.value = (found.mantissa * 10 ^ shift : ℕ) * 10 ^ d.exponent := by
      have hexponent : found.exponent = shift + d.exponent := by omega
      rw [Decimal.value, hexponent, zpow_add₀ (by norm_num), zpow_natCast]
      push_cast
      ring
    rw [hfound] at hread ⊢
    rw [Decimal.value, ← eq_of_ofRat_eq hgrid hlt hread.symm]

/-! ## Positional notation -/

/-- The last `places` digits. -/
def lastDigits (m : ℕ) : ℕ → List Char
  | 0 => []
  | places + 1 => lastDigits (m / 10) places ++ [Nat.digitChar (m % 10)]

/-- The digits of `m / 10 ^ places` after the point, without trailing zeros. -/
def fraction (m places : ℕ) : List Char :=
  (lastDigits m places).rdropWhile fun c => c = '0'

/-- `m / 10 ^ places`; a whole number is followed by `whole`. -/
def positional (whole : List Char) (m places : ℕ) : List Char :=
  Nat.toDigits 10 (m / 10 ^ places)
    ++ if fraction m places = [] then whole else '.' :: fraction m places

def Decimal.text (whole : List Char) (d : Decimal) : List Char :=
  positional whole (d.mantissa * 10 ^ d.exponent.toNat) (-d.exponent).toNat

theorem fraction_mul_ten (m places : ℕ) : fraction (m * 10) (places + 1) = fraction m places := by
  have hdiv : m * 10 / 10 = m := Nat.mul_div_cancel m (by norm_num)
  have hmod : m * 10 % 10 = 0 := Nat.mul_mod_left m 10
  rw [fraction, lastDigits, hdiv, hmod]
  exact List.rdropWhile_concat_pos _ _ _ (by decide)

theorem positional_shift (whole : List Char) (m places shift : ℕ) :
    positional whole (m * 10 ^ shift) (places + shift) = positional whole m places := by
  induction shift with
  | zero => rw [pow_zero, Nat.mul_one, Nat.add_zero]
  | succ shift ih =>
      have hdiv : m * 10 ^ shift * 10 / 10 ^ (places + shift + 1)
          = m * 10 ^ shift / 10 ^ (places + shift) := by
        rw [pow_succ]
        exact Nat.mul_div_mul_right _ _ (by norm_num)
      rw [pow_succ, ← Nat.mul_assoc, ← Nat.add_assoc, ← ih, positional, positional, hdiv,
        fraction_mul_ten]

theorem Decimal.value_eq_div (d : Decimal) :
    d.value = (d.mantissa * 10 ^ d.exponent.toNat : ℕ) / 10 ^ (-d.exponent).toNat := by
  have hsplit : d.exponent = d.exponent.toNat - ((-d.exponent).toNat : ℤ) := by omega
  have hpow : (10 : ℚ) ^ d.exponent
      = 10 ^ d.exponent.toNat / 10 ^ (-d.exponent).toNat := by
    conv_lhs => rw [hsplit]
    rw [zpow_sub₀ (by norm_num), zpow_natCast, zpow_natCast]
  rw [Decimal.value, hpow]
  push_cast
  ring

/-- The text depends on the value only. -/
theorem Decimal.text_eq {d : Decimal} {m places : ℕ} (h : d.value = m / 10 ^ places)
    (whole : List Char) : d.text whole = positional whole m places := by
  rw [d.value_eq_div, div_eq_div_iff (by positivity) (by positivity)] at h
  have hnat : d.mantissa * 10 ^ d.exponent.toNat * 10 ^ places = m * 10 ^ (-d.exponent).toNat := by
    exact_mod_cast h
  calc d.text whole
      = positional whole (d.mantissa * 10 ^ d.exponent.toNat * 10 ^ places)
          ((-d.exponent).toNat + places) := (positional_shift whole _ _ places).symm
    _ = positional whole (m * 10 ^ (-d.exponent).toNat) (places + (-d.exponent).toNat) := by
        rw [hnat, Nat.add_comm]
    _ = positional whole m places := positional_shift whole m places _

/-- A decimal of at most 15 digits is printed as it was read. -/
theorem text_shortest {m places : ℕ} (h : m < 10 ^ 15) (whole : List Char) :
    (shortest (ofRat (m / 10 ^ places))).text whole = positional whole m places := by
  have hvalue : (⟨m, -places⟩ : Decimal).value = m / 10 ^ places := by
    rw [Decimal.value, zpow_neg, zpow_natCast, div_eq_mul_inv]
  have hread := shortest_value (d := ⟨m, -places⟩) h
  rw [hvalue] at hread
  exact Decimal.text_eq hread whole

theorem digitChar_eq_zero_iff {n : ℕ} (h : n < 10) : Nat.digitChar n = '0' ↔ n = 0 := by
  have hall : ∀ n < 10, Nat.digitChar n = '0' ↔ n = 0 := by decide
  exact hall n h

/-- Only a whole number has no fraction. -/
theorem fraction_eq_nil_iff {m places : ℕ} : fraction m places = [] ↔ 10 ^ places ∣ m := by
  induction places generalizing m with
  | zero => simp [fraction, lastDigits]
  | succ places ih =>
      have hlast := digitChar_eq_zero_iff (Nat.mod_lt m (show 0 < 10 by norm_num))
      have hdvd : 10 ^ (places + 1) ∣ m ↔ m % 10 = 0 ∧ 10 ^ places ∣ m / 10 := by
        constructor
        · rintro ⟨q, rfl⟩
          rw [pow_succ, Nat.mul_assoc, Nat.mul_left_comm, Nat.mul_mod_right,
            Nat.mul_div_cancel_left _ (by norm_num)]
          exact ⟨rfl, Nat.dvd_mul_right ..⟩
        · rintro ⟨hzero, q, hq⟩
          refine ⟨q, ?_⟩
          have hm := Nat.div_add_mod m 10
          rw [hzero, hq] at hm
          rw [pow_succ, Nat.mul_right_comm, ← hm]
          ring
      rw [hdvd, ← ih, ← hlast]
      by_cases hc : Nat.digitChar (m % 10) = '0'
      · have hdrop : fraction m (places + 1) = fraction (m / 10) places := by
          rw [fraction, lastDigits]
          exact List.rdropWhile_concat_pos _ _ _ (by simp [hc])
        rw [hdrop]
        exact (and_iff_right hc).symm
      · have hkeep : fraction m (places + 1)
            = lastDigits (m / 10) places ++ [Nat.digitChar (m % 10)] := by
          rw [fraction, lastDigits]
          exact List.rdropWhile_concat_neg _ _ _ (by simp [hc])
        rw [hkeep]
        exact iff_of_false (by simp) fun h => hc h.1

theorem isDigit_of_mem_lastDigits {c : Char} {m places : ℕ} (h : c ∈ lastDigits m places) :
    c.isDigit := by
  induction places generalizing m with
  | zero => cases h
  | succ places ih =>
      rcases List.mem_append.mp h with hinit | hlast
      · exact ih hinit
      · have hall : ∀ n < 10, (Nat.digitChar n).isDigit := by decide
        rw [List.mem_singleton.mp hlast]
        exact hall _ (Nat.mod_lt m (by norm_num))

/-! ### The digits as numbers -/

theorem length_lastDigits (m places : ℕ) : (lastDigits m places).length = places := by
  induction places generalizing m with
  | zero => rfl
  | succ places ih => rw [lastDigits, List.length_append, ih, List.length_singleton]

theorem ofDigitChars_lastDigits (m places : ℕ) :
    Nat.ofDigitChars 10 (lastDigits m places) 0 = m % 10 ^ places := by
  induction places generalizing m with
  | zero => rw [pow_zero, Nat.mod_one]; rfl
  | succ places ih =>
      rw [lastDigits, Nat.ofDigitChars_append, ih,
        Nat.ofDigitChars_cons_digitChar_of_lt_ten (Nat.mod_lt m (by norm_num)),
        Nat.ofDigitChars_nil, pow_succ', Nat.mod_mul]
      omega

/-- The trailing zeros that are left out do not count. -/
theorem ofDigitChars_fraction (m places : ℕ) :
    (Nat.ofDigitChars 10 (fraction m places) 0 : ℚ) / 10 ^ (fraction m places).length
      = (m % 10 ^ places : ℕ) / 10 ^ places := by
  induction places generalizing m with
  | zero => simp [fraction, lastDigits, Nat.mod_one]
  | succ places ih =>
      by_cases hc : Nat.digitChar (m % 10) = '0'
      · have hzero := (digitChar_eq_zero_iff (Nat.mod_lt m (by norm_num))).mp hc
        have hdrop : fraction m (places + 1) = fraction (m / 10) places := by
          rw [fraction, lastDigits]
          exact List.rdropWhile_concat_pos _ _ _ (by simp [hc])
        have hmod : m % 10 ^ (places + 1) = 10 * (m / 10 % 10 ^ places) := by
          rw [pow_succ', Nat.mod_mul, hzero, Nat.zero_add]
        rw [hdrop, ih, hmod, pow_succ']
        push_cast
        rw [mul_div_mul_left _ _ (by norm_num)]
      · have hkeep : fraction m (places + 1) = lastDigits m (places + 1) := by
          rw [fraction, lastDigits]
          exact List.rdropWhile_concat_neg _ _ _ (by simp [hc])
        rw [hkeep, ofDigitChars_lastDigits, length_lastDigits]

/-- A positional text consists of digits, the point, and what is added to whole
numbers. -/
theorem mem_positional {c : Char} {whole : List Char} {m places : ℕ}
    (h : c ∈ positional whole m places) : c.isDigit ∨ c = '.' ∨ c ∈ whole := by
  rcases List.mem_append.mp h with hint | hrest
  · exact Or.inl (Nat.isDigit_of_mem_toDigits (by norm_num) (by norm_num) hint)
  · split at hrest
    · exact Or.inr (Or.inr hrest)
    · rcases List.mem_cons.mp hrest with hpoint | hfraction
      · exact Or.inr (Or.inl hpoint)
      · exact Or.inl (isDigit_of_mem_lastDigits
          ((List.rdropWhile_prefix _ _).subset hfraction))

end Float64

end AuctionWorker
