import AuctionWorker.CppSelection

/-!
# The targeting of the C++ auction

Two facts about `featureTargeting` and the loop that calls it. On 32-bit
integers it is exact up to the first overflow (`featureTargeting_iff`). In the
documented ranges there is none, and the loop keeps one ad for every advertiser
that has an offer, the nearest one and among equals the one of the smallest
`ads_id`; the look-up by id below `assert` always finds it
(`adsTargetted_representatives`).
-/

namespace AuctionWorker

namespace Cpp

open Documented

variable {χ : Type} [DecidableEq χ] {db : Database χ} {request : Request χ}

/-! ## The arithmetic -/

/-- **Exact targeting.** `featureTargeting` returns the first nearest feature exactly
if there is nothing to compare or every feature is less than 2^31 away. -/
theorem featureTargeting_iff (requestFeature : ℤ) (first : AdsFeature) (rest : List AdsFeature) :
    (∃ best, featureTargeting (first :: rest) requestFeature = .ok best
        ∧ Loops.IsFirstMin (fun row => dist requestFeature row.feature) (first :: rest) best)
      ↔ Comparable requestFeature (first :: rest) := by
  rcases featureTargeting_eq requestFeature first rest with
    ⟨hcomparable, hok⟩ | ⟨hcomparable, herr⟩
  · refine iff_of_true ⟨_, hok, ?_⟩ hcomparable
    exact Loops.argmin_eq_some_iff.mp (Loops.runningMin_eq_argmin _ first rest)
  · refine iff_of_false ?_ hcomparable
    rintro ⟨best, hok, -⟩
    rw [herr] at hok
    cases hok

/-- The largest `zone_feature` and two features in the middle of the column's range. -/
theorem featureTargeting_overflow :
    featureTargeting [⟨1, -1⟩, ⟨2, 0⟩] 2147483647 = .error .signedOverflow
      ∧ ¬∃ best, featureTargeting [⟨1, -1⟩, ⟨2, 0⟩] 2147483647 = .ok best
        ∧ Loops.IsFirstMin (fun row => dist 2147483647 row.feature) [⟨1, -1⟩, ⟨2, 0⟩] best := by
  have herr : featureTargeting [⟨1, -1⟩, ⟨2, 0⟩] 2147483647 = .error .signedOverflow := by decide
  refine ⟨herr, ?_⟩
  rintro ⟨best, hok, -⟩
  rw [herr] at hok
  cases hok

/-! ## The loop over the advertisers -/

/-- `assert(best_itr != end)` for one advertiser. -/
def AssertHolds (db : Database χ) (request : Request χ) (group : ℕ × List (Ads χ)) : Prop :=
  ∀ bestAds, featureTargeting (adsFeatures db group.2) request.feature = .ok bestAds →
    (group.2.find? fun ads => ads.adsId = bestAds.adsId).isSome

omit [DecidableEq χ] in
/-- The best feature is one of the group's, so the look-up finds its ad. -/
theorem assertHolds (db : Database χ) (request : Request χ) (group : ℕ × List (Ads χ)) :
    AssertHolds db request group := by
  intro bestAds hbest
  rw [adsFeatures_eq] at hbest
  cases hrows : Targeting.features (fetchedFeature db) group.2 with
  | nil =>
      rw [hrows] at hbest
      cases hbest
  | cons first rest =>
      rw [hrows] at hbest
      rcases featureTargeting_eq request.feature first rest with ⟨-, hok⟩ | ⟨-, herr⟩
      · have hmem : bestAds ∈ Targeting.features (fetchedFeature db) group.2 := by
          obtain rfl := Except.ok.inj (hbest.symm.trans hok)
          exact hrows ▸ List.argmin_mem (Loops.runningMin_eq_argmin _ first rest)
        exact Option.isSome_iff_exists.mpr (Targeting.find?_of_mem_features hmem)
      · rw [herr] at hbest
        cases hbest

theorem passedOn_iff {groups : List (ℕ × List (Ads χ))} (htypes : DocumentedTypes db)
    (hok : advertiserAdses db request = .ok groups) (ads : Ads χ) :
    PassedOn groups ads ↔ Eligible db request ads := by
  obtain ⟨groups', hok', hgroups, -⟩ := advertiserAdses_eq request htypes
  obtain rfl := Except.ok.inj (hok'.symm.trans hok)
  rw [PassedOn, hgroups.mem_entries_iff, List.mem_filter, mem_adsSatisfyDomain, decide_eq_true_eq]
  exact ⟨fun ⟨⟨hstored, hsize, hdomain⟩, hcategory⟩ => ⟨hstored, hsize, hdomain, hcategory⟩,
    fun ⟨hstored, hsize, hdomain, hcategory⟩ => ⟨⟨hstored, hsize, hdomain⟩, hcategory⟩⟩

/-- **One representative for each advertiser.** In the documented ranges the survivors
are the eligible ads, and the loop keeps, advertiser by advertiser, the survivor with a
feature that is least in distance and id. -/
theorem adsTargetted_representatives (htypes : DocumentedTypes db)
    (hfeatures : DocumentedFeatures db) (hr : DocumentedFeature request.feature) :
    ∃ groups targetted, advertiserAdses db request = .ok groups
      ∧ adsTargetted db request = .ok targetted
      ∧ (∀ ads, PassedOn groups ads ↔ Eligible db request ads)
      ∧ (∀ ads, ads ∈ targetted
        ↔ Selection.Representative {ads | PassedOn groups ads ∧ HasFeature db ads}
          Ads.advertiserId (near db request) ads)
      ∧ (∀ ads, PassedOn groups ads → HasFeature db ads →
        ∃! kept, kept ∈ targetted ∧ kept.advertiserId = ads.advertiserId)
      ∧ targetted.Pairwise (fun a b => a.advertiserId < b.advertiserId)
      ∧ ∀ group ∈ groups, AssertHolds db request group := by
  obtain ⟨groups, hgroups, -⟩ := advertiserAdses_eq request htypes
  have hpassed := passedOn_iff htypes hgroups
  have hoffers : {ads | PassedOn groups ads ∧ HasFeature db ads} = offers db request := by
    ext ads
    exact and_congr_left fun _ => hpassed ads
  rcases adsTargetted_cases request htypes with ⟨-, targetted, hok, hmem, hsorted⟩ | ⟨hno, -⟩
  · refine ⟨groups, targetted, hgroups, hok, hpassed, fun ads => ?_, fun ads hads hfeature => ?_,
      hsorted, fun group _ => assertHolds db request group⟩
    · rw [hoffers]
      exact hmem ads
    · obtain ⟨kept, hkept, hown, -⟩ := Selection.exists_representative Ads.advertiserId
        (near db request) offers_finite ⟨(hpassed ads).mp hads, hfeature⟩
      refine ⟨kept, ⟨(hmem kept).mpr hkept, hown⟩, ?_⟩
      rintro other ⟨hother, hown'⟩
      exact Candidate.unique ((hmem other).mp hother) hkept (hown'.trans hown.symm)
  · exact absurd (exact_of_documented hfeatures hr) hno

/-- Two advertisers with an ad each. -/
theorem adsTargetted_representatives_tieDatabase :
    ∃ groups targetted, advertiserAdses tieDatabase tieRequest = .ok groups
      ∧ adsTargetted tieDatabase tieRequest = .ok targetted
      ∧ (∀ ads, PassedOn groups ads ↔ Eligible tieDatabase tieRequest ads)
      ∧ (∀ ads, ads ∈ targetted
        ↔ Selection.Representative {ads | PassedOn groups ads ∧ HasFeature tieDatabase ads}
          Ads.advertiserId (near tieDatabase tieRequest) ads)
      ∧ (∀ ads, PassedOn groups ads → HasFeature tieDatabase ads →
        ∃! kept, kept ∈ targetted ∧ kept.advertiserId = ads.advertiserId)
      ∧ targetted.Pairwise (fun a b => a.advertiserId < b.advertiserId)
      ∧ ∀ group ∈ groups, AssertHolds tieDatabase tieRequest group :=
  adsTargetted_representatives (by decide) (by decide) (by decide)

end Cpp

end AuctionWorker
