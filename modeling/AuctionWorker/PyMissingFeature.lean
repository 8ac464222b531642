import AuctionWorker.PySelection

/-!
# Ads without a feature in the Python auction

`fetchAdsFeature` unpacks the row of its query, and raises when there is none.
The feature of an ad is fetched once the ad has passed the three filters, so that
a missing row does no harm to an ad that is filtered out. If every eligible ad
has a feature row the auction completes, and the ads without one might as well be
deleted; otherwise it raises (`auction_withoutFeature_iff`).
-/

namespace AuctionWorker

namespace Py

open Documented

variable {χ : Type} {db : Database χ} {request : Request χ}

/-- The ad has no row in `ads_features`. -/
def withoutFeature (db : Database χ) (adsId : ℕ) : Bool :=
  !db.adsFeatures.any fun row => row.adsId = adsId

theorem withoutFeature_eq_false_iff {ads : Ads χ} :
    withoutFeature db ads.adsId = false ↔ HasFeature db ads := by
  simp [withoutFeature, HasFeature]

/-! ## Fetching features -/

theorem hasFeature_of_fetch {ads : Ads χ} {fetched : Option AdsFeature}
    (h : fetchAdsFeature plainConnector db ads.adsId = .ok fetched) : HasFeature db ads := by
  rcases selectAdsFeature_cases db ads with ⟨row, -, -, hhas, -⟩ | ⟨hsel, -, -⟩
  · exact hhas
  · unfold fetchAdsFeature plainConnector at h
    rw [hsel] at h
    cases h

/-- A group whose features are fetched has features only. -/
theorem hasFeature_of_adsFeatures {adses : List (Ads χ)} {features : List AdsFeature}
    (h : adsFeatures plainConnector db adses = .ok features) :
    ∀ ads ∈ adses, HasFeature db ads := by
  intro ads hads
  obtain ⟨before, after, hstep⟩ := Loops.exists_step_ok h ads hads
  cases hfetch : fetchAdsFeature plainConnector db ads.adsId with
  | error err =>
      rw [featureStep, hfetch] at hstep
      cases hstep
  | ok fetched => exact hasFeature_of_fetch hfetch

/-- A non-empty list of features has a nearest one, or at least a first one. -/
theorem exists_featureTargeting {rows : List AdsFeature} (h : 0 < rows.length)
    (requestFeature : ℤ) : ∃ best, featureTargeting rows requestFeature = .ok best := by
  have hlt := Loops.sentinelScan_lt_length
    (fun row : AdsFeature => |requestFeature - row.feature|) maxsize (List.length_pos_iff.mp h)
  obtain ⟨best, hbest⟩ : ∃ best, rows[_]? = some best := ⟨_, List.getElem?_eq_getElem hlt⟩
  refine ⟨best, ?_⟩
  unfold featureTargeting
  dsimp only
  rw [hbest]

theorem exists_targetStep {group : ℕ × List (Ads χ)} (h : ∀ ads ∈ group.2, HasFeature db ads)
    (acc : List (Ads χ)) : ∃ acc', targetStep plainConnector db request acc group = .ok acc' := by
  rw [targetStep, adsFeatures_eq h]
  by_cases hpos : 0 < (Targeting.features (fetchedFeature db) group.2).length
  · obtain ⟨best, hbest⟩ := exists_featureTargeting hpos request.feature
    show ∃ acc', (if 0 < _ then _ else _) = _
    rw [if_pos hpos, hbest]
    exact ⟨_, rfl⟩
  · show ∃ acc', (if 0 < _ then _ else _) = _
    rw [if_neg hpos]
    exact ⟨_, rfl⟩

theorem hasFeature_of_targetStep {group : ℕ × List (Ads χ)} {acc acc' : List (Ads χ)}
    (h : targetStep plainConnector db request acc group = .ok acc') :
    ∀ ads ∈ group.2, HasFeature db ads := by
  cases hfeatures : adsFeatures plainConnector db group.2 with
  | error err =>
      rw [targetStep, hfeatures] at h
      cases h
  | ok features => exact hasFeature_of_adsFeatures hfeatures

/-! ## Completing -/

section Runs

variable [DecidableEq χ]

/-- What is left of the auction after the three filters. -/
theorem auction_eq (htypes : DocumentedTypes db) :
    auction plainConnector db request
      = ((eligibleGroups db request).foldlM (targetStep plainConnector db request) []).map
        fun targetted => (sortReverse targetted).head?.map (respond request) := by
  rw [auction, auctionWinner,
    advertiserAdses_eq_eligibleGroups fun ads _ _ => htypes.of_ads ads]
  show ((eligibleGroups db request).foldlM (targetStep plainConnector db request) []
    >>= _) >>= _ = _
  cases (eligibleGroups db request).foldlM (targetStep plainConnector db request) [] <;> rfl

/-- The auction completes exactly if every eligible ad has a feature row. -/
theorem exists_auction_iff (htypes : DocumentedTypes db) :
    (∃ result, auction plainConnector db request = .ok result)
      ↔ ∀ ads, Eligible db request ads → HasFeature db ads := by
  have hgroups := groups_eligibleGroups db request
  rw [auction_eq htypes]
  constructor
  · rintro ⟨result, hresult⟩ ads heligible
    obtain ⟨group, hgroup, hads⟩ := hgroups.mem_entries_iff.mpr (mem_eligibleAdses.mpr heligible)
    cases hrun : (eligibleGroups db request).foldlM (targetStep plainConnector db request) [] with
    | error err =>
        rw [hrun] at hresult
        cases hresult
    | ok targetted =>
        obtain ⟨acc, acc', hstep⟩ := Loops.exists_step_ok hrun group hgroup
        exact hasFeature_of_targetStep hstep ads hads
  · intro hfeatures
    have hstep : ∀ acc, ∀ group ∈ eligibleGroups db request,
        ∃ acc', targetStep plainConnector db request acc group = .ok acc' := by
      intro acc group hgroup
      refine exists_targetStep (fun ads hads => hfeatures ads (mem_eligibleAdses.mp ?_)) acc
      exact hgroups.mem_entries_iff.mp ⟨group, hgroup, hads⟩
    obtain ⟨targetted, hrun⟩ := Loops.exists_foldlM_ok hstep []
    exact ⟨_, by rw [hrun]; rfl⟩

/-! ## Deleting the ads without a feature -/

theorem eligibleAdses_deleteAdses (db : Database χ) (request : Request χ) (doomed : ℕ → Bool) :
    eligibleAdses (db.deleteAdses doomed) request
      = (eligibleAdses db request).filter fun ads => !doomed ads.adsId := by
  unfold eligibleAdses
  rw [db.selectAdses_deleteAdses]
  simp only [List.filter_filter]
  refine List.filter_congr fun ads _ => ?_
  -- the three filters do not look at the table of ads
  show (decide (CategoryAllowed db request ads)
      && (decide (SizeMatches db request ads ∧ DomainAllowed db request ads)
        && !doomed ads.adsId)) = _
  rw [← Bool.and_assoc, Bool.and_comm]

omit [DecidableEq χ] in
/-- Targeting fetches the same features of the ads that stay. -/
theorem targetStep_deleteAdses {doomed : ℕ → Bool} {group : ℕ × List (Ads χ)}
    (h : ∀ ads ∈ group.2, doomed ads.adsId = false) (acc : List (Ads χ)) :
    targetStep plainConnector (db.deleteAdses doomed) request acc group
      = targetStep plainConnector db request acc group := by
  have hfeatures : adsFeatures plainConnector (db.deleteAdses doomed) group.2
      = adsFeatures plainConnector db group.2 := by
    refine Loops.foldlM_congr (fun acc ads hads => ?_) []
    unfold featureStep fetchAdsFeature
    rw [db.selectAdsFeature_deleteAdses (h ads hads)]
  rw [targetStep, targetStep, hfeatures]

/-- If every eligible ad has a feature row, deleting the ads without one changes
nothing. -/
theorem auction_deleteAdses_withoutFeature (htypes : DocumentedTypes db)
    (h : ∀ ads, Eligible db request ads → HasFeature db ads) :
    auction plainConnector (db.deleteAdses (withoutFeature db)) request
      = auction plainConnector db request := by
  have hkept : ∀ ads ∈ eligibleAdses db request, withoutFeature db ads.adsId = false :=
    fun ads hads => withoutFeature_eq_false_iff.mpr (h ads (mem_eligibleAdses.mp hads))
  have hgroups : eligibleGroups (db.deleteAdses (withoutFeature db)) request
      = eligibleGroups db request := by
    unfold eligibleGroups
    rw [eligibleAdses_deleteAdses,
      List.filter_eq_self.mpr fun ads hads => by rw [hkept ads hads]; rfl]
  have htypes' : DocumentedTypes (db.deleteAdses (withoutFeature db)) := htypes
  rw [auction_eq htypes', auction_eq htypes, hgroups]
  refine congrArg (Except.map _) (Loops.foldlM_congr (fun acc group hgroup => ?_) [])
  refine targetStep_deleteAdses (fun ads hads => hkept ads ?_) acc
  exact (groups_eligibleGroups db request).mem_entries_iff.mp ⟨group, hgroup, hads⟩

/-- **Missing features.** The auction completes, with the result of the database without
the ads that lack a feature, exactly if every eligible ad has one. -/
theorem auction_withoutFeature_iff (htypes : DocumentedTypes db) :
    (∃ result, auction plainConnector db request = .ok result
        ∧ auction plainConnector (db.deleteAdses (withoutFeature db)) request = .ok result)
      ↔ ∀ ads, Eligible db request ads → HasFeature db ads := by
  constructor
  · rintro ⟨result, hresult, -⟩
    exact (exists_auction_iff htypes).mp ⟨result, hresult⟩
  · intro hfeatures
    obtain ⟨result, hresult⟩ := (exists_auction_iff htypes).mpr hfeatures
    exact ⟨result, hresult, (auction_deleteAdses_withoutFeature htypes hfeatures).trans hresult⟩

end Runs

/-! ## An ad without a feature -/

/-- One advertiser with two ads; the second one has no feature. -/
def featurelessDatabase : Database Char where
  advertisers := [⟨7, "a".toList, some denyType, "a.example".toList⟩]
  adsSizes := [⟨6, 300, 250⟩]
  adses := [⟨8, 7, 50000, "complete".toList, 6⟩, ⟨9, 7, 70000, "featureless".toList, 6⟩]
  categoryBlockings := [⟨7, 4⟩]
  adsFeatures := [⟨8, 10⟩]
  advertisers_pk := by decide
  adsSizes_pk := by decide
  adses_pk := by decide
  categoryBlockings_pk := by decide
  adsFeatures_pk := by decide
  adses_advertiser_fk := by decide
  adses_size_fk := by decide
  categoryBlockings_fk := by decide
  adsFeatures_fk := by decide
  adsFeatures_int := by decide

/-- The auction raises, although ad 8 would win without ad 9. -/
theorem auction_featurelessDatabase :
    DocumentedTypes featurelessDatabase
      ∧ auction plainConnector featurelessDatabase tieRequest = .error .typeError
      ∧ auction plainConnector
          (featurelessDatabase.deleteAdses (withoutFeature featurelessDatabase))
          tieRequest = .ok (some ⟨"auction".toList, "complete".toList, 50000⟩)
      ∧ ¬∃ result, auction plainConnector featurelessDatabase tieRequest = .ok result
        ∧ auction plainConnector (featurelessDatabase.deleteAdses
          (withoutFeature featurelessDatabase)) tieRequest = .ok result := by
  have hraises : auction plainConnector featurelessDatabase tieRequest = .error .typeError := by
    decide
  refine ⟨by decide, hraises, by decide, ?_⟩
  rintro ⟨result, hok, -⟩
  cases hraises.symm.trans hok

theorem auction_withoutFeature_iff_featurelessDatabase :
    (∃ result, auction plainConnector featurelessDatabase tieRequest = .ok result
        ∧ auction plainConnector (featurelessDatabase.deleteAdses
          (withoutFeature featurelessDatabase)) tieRequest = .ok result)
      ↔ ∀ ads, Eligible featurelessDatabase tieRequest ads → HasFeature featurelessDatabase ads :=
  auction_withoutFeature_iff (by decide)

end Py

end AuctionWorker
