import AuctionWorker.GoSelection
import AuctionWorker.PySelection

/-!
# The sentinel scans, far from the features

The targeting of Go and Python scans for the nearest feature with a sentinel as
the first best value. Neither parser bounds `zone_feature`, and far from the
features the scans fail for reasons of their own:

- Python computes exactly, and nothing replaces the first element if every
  distance reaches `sys.maxsize`;
- Go subtracts modulo 2^64 and compares doubles. Its sentinel is large enough,
  but two distances can round to the same double, and one beyond 2^63 comes out
  small.

`sentinelScans_iff` says when they return the first nearest feature.
-/

namespace AuctionWorker

namespace SentinelScans

open Loops

/-- The exact distance. -/
def exact (requestFeature : ℤ) (row : AdsFeature) : ℤ :=
  |row.feature - requestFeature|

/-! ## Python -/

/-- Some feature is below the sentinel, or the first one is a nearest one. -/
def InReach (requestFeature : ℤ) (first : AdsFeature) (rest : List AdsFeature) : Prop :=
  (∃ row ∈ first :: rest, exact requestFeature row < Py.maxsize)
    ∨ ∀ row ∈ rest, exact requestFeature first ≤ exact requestFeature row

theorem py_scan {requestFeature : ℤ} {rows : List AdsFeature} {best : AdsFeature}
    (h : rows[(sentinelScan (exact requestFeature) Py.maxsize rows).2]? = some best) :
    Py.featureTargeting rows requestFeature = .ok best := by
  have hexact : exact requestFeature = fun row => |requestFeature - row.feature| :=
    funext fun row => abs_sub_comm _ _
  rw [hexact] at h
  unfold Py.featureTargeting
  dsimp only
  rw [h]

theorem py_iff (requestFeature : ℤ) (first : AdsFeature) (rest : List AdsFeature) :
    (∃ best, Py.featureTargeting (first :: rest) requestFeature = .ok best
        ∧ IsFirstMin (exact requestFeature) (first :: rest) best)
      ↔ InReach requestFeature first rest := by
  by_cases hreach : ∃ row ∈ first :: rest, exact requestFeature row < Py.maxsize
  · refine iff_of_true ?_ (Or.inl hreach)
    have hmin := runningMin_eq_argmin (exact requestFeature) first rest
    exact ⟨_, py_scan ((sentinelScan_eq_argmin_of_exists hreach).trans hmin),
      argmin_eq_some_iff.mp hmin⟩
  · have hzero : (sentinelScan (exact requestFeature) Py.maxsize (first :: rest)).2 = 0 :=
      sentinelScan_eq_zero fun row hrow => not_lt.mp fun hlt => hreach ⟨row, hrow, hlt⟩
    have hok : Py.featureTargeting (first :: rest) requestFeature = .ok first :=
      py_scan (by rw [hzero, List.getElem?_cons_zero])
    rw [InReach, or_iff_right hreach, hok]
    constructor
    · rintro ⟨best, hbest, hmin⟩ row hrow
      obtain rfl := Except.ok.inj hbest
      exact hmin.le row (List.mem_cons_of_mem _ hrow)
    · exact fun hfirst => ⟨first, rfl, isFirstMin_cons.mpr (Or.inl ⟨rfl, hfirst⟩)⟩

/-! ## Go -/

/-- What is left of the distance after the reduction modulo 2^64 and the rounding to
a double. -/
def rounded (requestFeature : ℤ) (row : AdsFeature) : ℤ :=
  Float64.magnitude (Float64.wrap (row.feature - requestFeature)).natAbs

/-- The rounding leaves the nearest row ahead of the rows before it, and the reduction
does not bring a row after it any nearer. -/
def Separated (requestFeature : ℤ) (rows : List AdsFeature) : Prop :=
  ∀ before best after, rows = before ++ best :: after →
    (∀ row ∈ before, exact requestFeature best < exact requestFeature row) →
    (∀ row ∈ after, exact requestFeature best ≤ exact requestFeature row) →
      (∀ row ∈ before, rounded requestFeature best < rounded requestFeature row)
        ∧ ∀ row ∈ after, 2 ^ 63 < exact requestFeature row →
          rounded requestFeature best ≤ rounded requestFeature row

theorem rounded_eq (requestFeature : ℤ) (row : AdsFeature) :
    Go.distance requestFeature row.feature = rounded requestFeature row :=
  Float64.abs_ofInt _

theorem rounded_eq_exact {requestFeature : ℤ} {row : AdsFeature}
    (h : exact requestFeature row < 2 ^ 53) :
    rounded requestFeature row = exact requestFeature row := by
  unfold exact at h
  rw [← rounded_eq, Go.distance, Float64.wrap_eq_self (by omega), Float64.ofInt_eq_self h, exact]

/-- Up to 2^63 the rounding keeps the order. -/
theorem rounded_mono {requestFeature : ℤ} {a b : AdsFeature}
    (h : exact requestFeature a ≤ exact requestFeature b) (hb : exact requestFeature b ≤ 2 ^ 63) :
    rounded requestFeature a ≤ rounded requestFeature b := by
  have hwrap : ∀ row, exact requestFeature row ≤ 2 ^ 63 →
      ((Float64.wrap (row.feature - requestFeature)).natAbs : ℤ) = exact requestFeature row :=
    fun row hrow => by rw [← Int.abs_eq_natAbs, Float64.abs_wrap_eq_self hrow, exact]
  refine Int.ofNat_le.mpr (Float64.magnitude_mono (Int.ofNat_le.mp ?_))
  rw [hwrap a (h.trans hb), hwrap b hb]
  exact h

theorem go_scan (requestFeature : ℤ) (first : AdsFeature) (rest : List AdsFeature) :
    ∃ best, Go.featureTargeting (first :: rest) requestFeature = .ok best
      ∧ IsFirstMin (rounded requestFeature) (first :: rest) best := by
  have hmin := runningMin_eq_argmin (rounded requestFeature) first rest
  refine ⟨_, Go.featureTargeting_eq ?_, argmin_eq_some_iff.mp hmin⟩
  rw [← hmin]
  exact congrArg (fun d => (first :: rest).argmin d) (funext fun row => rounded_eq _ _)

theorem go_iff (requestFeature : ℤ) (first : AdsFeature) (rest : List AdsFeature) :
    (∃ best, Go.featureTargeting (first :: rest) requestFeature = .ok best
        ∧ IsFirstMin (exact requestFeature) (first :: rest) best)
      ↔ Separated requestFeature (first :: rest) := by
  obtain ⟨found, hok, hfound⟩ := go_scan requestFeature first rest
  constructor
  · rintro ⟨best, hok', hbest⟩ before nearest after hrows hbefore hafter
    obtain rfl := Except.ok.inj (hok.symm.trans hok')
    have hnearest : IsFirstMin (exact requestFeature) (first :: rest) nearest :=
      ⟨before, after, hrows, hbefore, hafter⟩
    obtain rfl : found = nearest := Option.some.inj
      ((argmin_eq_some_iff.mpr hbest).symm.trans (argmin_eq_some_iff.mpr hnearest))
    rw [hrows] at hfound
    obtain ⟨hlead, hkeep⟩ := hfound.at_split hbefore
    exact ⟨hlead, fun row hrow _ => hkeep row hrow⟩
  · intro hseparated
    obtain ⟨before, after, hrows, hbefore, hafter⟩ :=
      argmin_eq_some_iff.mp (runningMin_eq_argmin (exact requestFeature) first rest)
    obtain ⟨hlead, hkeep⟩ := hseparated _ _ _ hrows hbefore hafter
    -- the first nearest row is also the first one by the computed distance
    have hrounded : IsFirstMin (rounded requestFeature) (first :: rest)
        (runningMin (exact requestFeature) first rest) := by
      refine ⟨before, after, hrows, hlead, fun row hrow => ?_⟩
      rcases lt_or_ge (2 ^ 63) (exact requestFeature row) with hfar | hnear
      · exact hkeep row hrow hfar
      · exact rounded_mono (hafter row hrow) hnear
    obtain rfl := Option.some.inj
      ((argmin_eq_some_iff.mpr hfound).symm.trans (argmin_eq_some_iff.mpr hrounded))
    exact ⟨_, hok, before, after, hrows, hbefore, hafter⟩

/-- Below 2^53 nothing is rounded. -/
theorem separated_of_lt {requestFeature : ℤ} {rows : List AdsFeature}
    (h : ∀ row ∈ rows, exact requestFeature row < 2 ^ 53) : Separated requestFeature rows := by
  rintro before best after rfl hbefore hafter
  have hbest := rounded_eq_exact (h best (by simp))
  refine ⟨fun row hrow => ?_, fun row hrow _ => ?_⟩
  · rw [hbest, rounded_eq_exact (h row (by simp [hrow]))]
    exact hbefore row hrow
  · rw [hbest, rounded_eq_exact (h row (by simp [hrow]))]
    exact hafter row hrow

/-! ## Both -/

/-- **The scans.** Go returns the first nearest feature exactly if rounding and reduction
leave it ahead, Python exactly if it is in reach of the sentinel or comes first. -/
theorem sentinelScans_iff (requestFeature : ℤ) (first : AdsFeature) (rest : List AdsFeature) :
    ((∃ best, Go.featureTargeting (first :: rest) requestFeature = .ok best
          ∧ IsFirstMin (exact requestFeature) (first :: rest) best)
        ↔ Separated requestFeature (first :: rest))
      ∧ ((∃ best, Py.featureTargeting (first :: rest) requestFeature = .ok best
          ∧ IsFirstMin (exact requestFeature) (first :: rest) best)
        ↔ InReach requestFeature first rest) :=
  ⟨go_iff requestFeature first rest, py_iff requestFeature first rest⟩

/-- At 2^53 the distances of -1 and 0 are one double, and at 2^63 no distance is below
the sentinel of Python: both scans stay at the first feature. -/
theorem sentinelScans_miss :
    (¬∃ best, Go.featureTargeting [⟨1, -1⟩, ⟨2, 0⟩] (2 ^ 53) = .ok best
        ∧ IsFirstMin (exact (2 ^ 53)) [⟨1, -1⟩, ⟨2, 0⟩] best)
      ∧ ¬∃ best, Py.featureTargeting [⟨1, 0⟩, ⟨2, 1⟩] (2 ^ 63) = .ok best
        ∧ IsFirstMin (exact (2 ^ 63)) [⟨1, 0⟩, ⟨2, 1⟩] best := by
  have hgo : Go.featureTargeting [⟨1, -1⟩, ⟨2, 0⟩] (2 ^ 53) = .ok ⟨1, -1⟩ := by decide +kernel
  have hpy : Py.featureTargeting [⟨1, 0⟩, ⟨2, 1⟩] (2 ^ 63) = .ok ⟨1, 0⟩ := by decide +kernel
  constructor
  · rintro ⟨best, hok, hmin⟩
    obtain rfl := Except.ok.inj (hgo.symm.trans hok)
    exact absurd (hmin.le ⟨2, 0⟩ (by simp)) (by decide)
  · rintro ⟨best, hok, hmin⟩
    obtain rfl := Except.ok.inj (hpy.symm.trans hok)
    exact absurd (hmin.le ⟨2, 1⟩ (by simp)) (by decide)

end SentinelScans

end AuctionWorker
