import AuctionWorker.PySelection

/-!
# The feature 0 in the Python auction

The Python fetcher tests a feature by its truth value, so that an ad of the
feature 0 is passed over as if it had none. The auction still returns the
documented result if leaving these ads out changes neither the text nor the
price of the documented winner (`ZeroFeatureHarmless`), and only then
(`auction_documented_iff`).
-/

namespace AuctionWorker

namespace Py

open Documented

variable {χ : Type} {db : Database χ} {request : Request χ}

/-- Leaving out the offers of the feature 0, the documented selection still picks
an ad with the text and the price of the documented winner. -/
def ZeroFeatureHarmless (db : Database χ) (request : Request χ) : Prop :=
  ∀ ads, Documented.Winner db request ads →
    ∃ other, Selection.Winner (visible db request) Ads.advertiserId
        (Documented.near db request) rank other
      ∧ other.adsTxt = ads.adsTxt ∧ other.price = ads.price

/-- They do not matter if none of them is nearest for its advertiser. -/
theorem zeroFeatureHarmless_of_candidates
    (h : ∀ ads, Candidate db request ads → featureOf db ads.adsId ≠ 0) :
    ZeroFeatureHarmless db request := by
  intro ads hads
  have hreps : ∀ ads, Selection.Representative (visible db request) Ads.advertiserId
      (Documented.near db request) ads ↔ Candidate db request ads :=
    Selection.representative_of_prune offers_finite (fun _ hvisible => hvisible.1)
      fun candidate hcandidate => ⟨hcandidate.1, h candidate hcandidate⟩
  exact ⟨ads, (Selection.Winner.congr_representative hreps ads).mpr hads, rfl, rfl⟩

/-- In particular if no ad on offer has the feature 0. -/
theorem zeroFeatureHarmless_of_ne (h : ∀ ads ∈ offers db request, featureOf db ads.adsId ≠ 0) :
    ZeroFeatureHarmless db request :=
  zeroFeatureHarmless_of_candidates fun ads hads => h ads hads.1

/-- If every ad on offer has the feature 0, leaving them out is noticed unless there
is none. -/
theorem zeroFeatureHarmless_iff_of_eq (h : ∀ ads ∈ offers db request, featureOf db ads.adsId = 0) :
    ZeroFeatureHarmless db request ↔ offers db request = ∅ := by
  constructor
  · intro hharmless
    rw [Set.eq_empty_iff_forall_notMem]
    intro ads hads
    obtain ⟨winner, hwinner⟩ := Selection.exists_winner Ads.advertiserId
      (Documented.near db request) rank offers_finite ⟨ads, hads⟩
    obtain ⟨other, hother, -⟩ := hharmless winner hwinner
    exact hother.1.1.2 (h other hother.1.1.1)
  · intro hempty ads hads
    exact absurd hads.1.1 (hempty ▸ Set.notMem_empty ads)

/-- **The Python auction against the documentation.** It returns the documented
result exactly when the ads of the feature 0 do not matter. -/
theorem auction_documented_iff [DecidableEq χ] (htypes : DocumentedTypes db)
    (hfeatures : DocumentedFeatures db) (hhas : ∀ ads ∈ db.adses, HasFeature db ads)
    (hr : DocumentedFeature request.feature) :
    (∃ result, auction plainConnector db request = .ok result ∧ IsResult db request result)
      ↔ ZeroFeatureHarmless db request := by
  obtain ⟨winner, hwinner, hselects⟩ := auctionWinner_eq htypes hfeatures hhas hr
  have hauction : auction plainConnector db request = .ok (winner.map (respond request)) := by
    rw [auction, hwinner]
    rfl
  constructor
  · rintro ⟨result, hok, hresult⟩ ads hads
    obtain rfl := Except.ok.inj (hauction.symm.trans hok)
    have hsome := hresult.winner ads hads
    cases winner with
    | none => cases hsome
    | some other =>
        have hrespond := Option.some.inj hsome
        exact ⟨other, (hselects other).mp rfl, congrArg Response.ads hrespond,
          congrArg Response.price hrespond⟩
  · intro hharmless
    refine ⟨_, hauction, fun ads hads => ?_, ?_⟩
    · obtain ⟨other, hother, htxt, hprice⟩ := hharmless ads hads
      rw [(hselects other).mpr hother, Option.map_some, respond, respond, htxt, hprice]
    · rw [Option.map_eq_none_iff]
      constructor
      · rintro hnone ads hads
        obtain ⟨w, hw⟩ := exists_winner_of_candidate hads
        obtain ⟨other, hother, -⟩ := hharmless w hw
        exact hselects.eq_none_iff.mp hnone other hother
      · intro hno
        rw [hselects.eq_none_iff_pool visible_finite]
        refine Set.eq_empty_iff_forall_notMem.mpr fun ads hads => ?_
        obtain ⟨r, hr, -⟩ := Selection.exists_representative Ads.advertiserId
          (Documented.near db request) offers_finite hads.1
        exact hno r hr

/-! ## An ad passed over -/

/-- One advertiser with two ads; the nearer one has the feature 0. -/
def zeroDatabase : Database Char where
  advertisers := [⟨1, "a".toList, some denyType, "a.example".toList⟩]
  adsSizes := [⟨2, 300, 250⟩]
  adses := [⟨1, 1, 50000, "near".toList, 2⟩, ⟨2, 1, 70000, "far".toList, 2⟩]
  categoryBlockings := [⟨1, 4⟩]
  adsFeatures := [⟨1, 0⟩, ⟨2, 900⟩]
  advertisers_pk := by decide
  adsSizes_pk := by decide
  adses_pk := by decide
  categoryBlockings_pk := by decide
  adsFeatures_pk := by decide
  adses_advertiser_fk := by decide
  adses_size_fk := by decide
  categoryBlockings_fk := by decide
  adsFeatures_fk := by decide
  adsFeatures_int := by decide

def zeroRequest : Request Char :=
  ⟨"auction".toList, [1], 0, 300, 250, []⟩

/-- The documented winner is the ad of the feature 0, the Python auction returns
the other one. -/
theorem auction_zeroDatabase :
    (DocumentedTypes zeroDatabase ∧ DocumentedFeatures zeroDatabase
        ∧ (∀ ads ∈ zeroDatabase.adses, HasFeature zeroDatabase ads)
        ∧ DocumentedFeature zeroRequest.feature)
      ∧ auction plainConnector zeroDatabase zeroRequest
        = .ok (some ⟨"auction".toList, "far".toList, 70000⟩)
      ∧ ¬∃ result, auction plainConnector zeroDatabase zeroRequest = .ok result
        ∧ IsResult zeroDatabase zeroRequest result := by
  have hauction : auction plainConnector zeroDatabase zeroRequest
      = .ok (some ⟨"auction".toList, "far".toList, 70000⟩) := by decide
  have hwinner : winner? zeroDatabase zeroRequest
      = some ⟨1, 1, 50000, "near".toList, 2⟩ := by decide
  refine ⟨by decide, hauction, ?_⟩
  rintro ⟨result, hok, hresult⟩
  obtain rfl := Except.ok.inj (hauction.symm.trans hok)
  have hsome := hresult.winner _ ((winner?_selects _).mp hwinner)
  exact absurd hsome (by decide)

theorem auction_documented_iff_zeroDatabase :
    (∃ result, auction plainConnector zeroDatabase zeroRequest = .ok result
        ∧ IsResult zeroDatabase zeroRequest result)
      ↔ ZeroFeatureHarmless zeroDatabase zeroRequest :=
  auction_documented_iff (by decide) (by decide) (by decide) (by decide)

end Py

end AuctionWorker
