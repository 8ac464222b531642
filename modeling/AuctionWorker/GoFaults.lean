import AuctionWorker.GoAuction
import AuctionWorker.Queries

/-!
# What faults let through

Which ads reach the targeting of the Go auction under an assignment of outcomes
to its fetches, as a property of the stored rows and the outcomes. A fetch that
returns an error drops the ad, except in the category stage, which keeps it. A
failing `Ping` returns no error, and the stage decides on zero values:

- the size is 0 × 0;
- the domain is empty, and contains only the empty entry;
- the type is allow, the categories are none;
- the feature is 0.

Without faults the admitted ads are the offers of the documentation
(`admitted_noFaults`), and in the documented ranges the computed nearness is the
documented one (`near_noFaults`).
-/

namespace AuctionWorker

namespace Go

open Documented

variable {χ : Type}

/-! ## The conditions -/

/-- A stage that drops the ad on an error: it decides by `stored` after a success
and by `zero` after a failing ping. -/
def Outcome.Lets (stored zero : Prop) : Outcome → Prop
  | .success => stored
  | .pingError => zero
  | _ => False

instance (stored zero : Prop) [Decidable stored] [Decidable zero] :
    DecidablePred (Outcome.Lets stored zero)
  | .success => inferInstanceAs (Decidable stored)
  | .pingError => inferInstanceAs (Decidable zero)
  | .noRow | .openError | .queryError _ => inferInstanceAs (Decidable False)

theorem Outcome.Failed.not_lets {stored zero : Prop} {outcome : Outcome} (h : outcome.Failed) :
    ¬outcome.Lets stored zero := by
  cases h <;> exact not_false

section Conditions

variable (faults : Faults) (db : Database χ) (request : Request χ) (ads : Ads χ)

def SizePasses : Prop :=
  (faults (.adSize ads.adsId)).Lets (SizeMatches db request ads)
    (0 = request.zoneWidth ∧ 0 = request.zoneHeight)

def DomainPasses : Prop :=
  (faults (.domainAdvertiser ads.adsId)).Lets (DomainAllowed db request ads)
    ([] ∉ request.blockDomains)

/-- The advertiser's type is deny. -/
def Denies : Prop :=
  ∃ row ∈ db.advertisers, row.advertiserId = ads.advertiserId
    ∧ row.categoryBlockingType = some denyType

/-- The category stage, by the outcomes of its two fetches. -/
def CategoryLets : Outcome → Outcome → Prop
  | .success, .success => CategoryAllowed db request ads
  | .pingError, .success =>
      HasCategories db ads.advertiserId → CategoriesMeet db request ads.advertiserId
  | .success, .pingError => Denies db ads
  | .pingError, .pingError => False
  | _, _ => True

def CategoryPasses : Prop :=
  CategoryLets db request ads (faults (.categoryAdvertiser ads.adsId))
    (faults (.categoryBlocking ads.adsId))

def FeaturePasses : Prop :=
  (faults (.adsFeature ads.adsId)).Lets (HasFeature db ads) True

/-- The feature the targeting works with. -/
def featureSeen : ℤ :=
  match faults (.adsFeature ads.adsId) with
  | .success => featureOf db ads.adsId
  | _ => 0

/-- Nearness in the distance that the targeting computes. -/
def near : ℤ ×ₗ ℕ :=
  toLex (distance request.feature (featureSeen faults db ads), ads.adsId)

/-- The ad reaches targeting. -/
structure Passes : Prop where
  fetched : faults .adses = .success
  stored : ads ∈ db.adses
  size : SizePasses faults db request ads
  domain : DomainPasses faults db request ads
  category : CategoryPasses faults db request ads

instance : Decidable (FeaturePasses faults db ads) :=
  inferInstanceAs (Decidable (Outcome.Lets _ _ _))

instance : Decidable (SizePasses faults db request ads) :=
  inferInstanceAs (Decidable (Outcome.Lets _ _ _))

instance [DecidableEq χ] : Decidable (DomainPasses faults db request ads) :=
  inferInstanceAs (Decidable (Outcome.Lets _ _ _))

instance : Decidable (Denies db ads) :=
  inferInstanceAs (Decidable (∃ row ∈ db.advertisers, _))

instance : DecidableRel (CategoryLets db request ads)
  | .success, .success => inferInstanceAs (Decidable (CategoryAllowed db request ads))
  | .pingError, .success => inferInstanceAs (Decidable (_ → _))
  | .success, .pingError => inferInstanceAs (Decidable (Denies db ads))
  | .pingError, .pingError => inferInstanceAs (Decidable False)
  | .noRow, _ | .openError, _ | .queryError _, _ => inferInstanceAs (Decidable True)
  | .success, .noRow | .success, .openError | .success, .queryError _ =>
      inferInstanceAs (Decidable True)
  | .pingError, .noRow | .pingError, .openError | .pingError, .queryError _ =>
      inferInstanceAs (Decidable True)

instance : Decidable (CategoryPasses faults db request ads) :=
  inferInstanceAs (Decidable (CategoryLets _ _ _ _ _))

/-- An error in the category stage keeps the ad. -/
theorem categoryLets_of_failed {advertiser blocking : Outcome}
    (h : advertiser.Failed ∨ blocking.Failed) :
    CategoryLets db request ads advertiser blocking := by
  rcases h with h | h
  · cases h <;> exact trivial
  · cases h <;> cases advertiser <;> exact trivial

end Conditions

/-- The ads that reach targeting and have a feature there. -/
def admitted (faults : Faults) (db : Database χ) (request : Request χ) : Set (Ads χ) :=
  {ads | Passes faults db request ads ∧ FeaturePasses faults db ads}

section Facts

variable {faults : Faults} {db : Database χ} {request : Request χ}

/-- Without faults the offers of the documentation are admitted. -/
theorem admitted_noFaults : admitted noFaults db request = offers db request := by
  ext ads
  constructor
  · rintro ⟨⟨-, hstored, hsize, hdomain, hcategory⟩, hfeature⟩
    exact ⟨⟨hstored, hsize, hdomain, hcategory⟩, hfeature⟩
  · rintro ⟨⟨hstored, hsize, hdomain, hcategory⟩, hfeature⟩
    exact ⟨⟨rfl, hstored, hsize, hdomain, hcategory⟩, hfeature⟩

/-- In the documented range the computed distance is the exact one. -/
theorem distance_eq {requestFeature feature : ℤ} (hr : DocumentedFeature requestFeature)
    (hf : DocumentedFeature feature) :
    distance requestFeature feature = |feature - requestFeature| := by
  have habs := hf.abs_sub_le hr
  rw [distance, Float64.wrap_eq_self (by omega), Float64.ofInt_eq_self (by omega)]

theorem near_noFaults (hfeatures : DocumentedFeatures db)
    (hr : DocumentedFeature request.feature) :
    near noFaults db request = Documented.near db request := by
  funext ads
  have hdist := distance_eq hr (documented_featureOf hfeatures ads.adsId)
  exact congrArg (fun d => toLex (d, ads.adsId)) hdist

theorem denies_iff {row : AdvertiserRow χ} (hrow : row ∈ db.advertisers) {ads : Ads χ}
    (hid : row.advertiserId = ads.advertiserId) :
    Denies db ads ↔ row.categoryBlockingType = some denyType := by
  constructor
  · rintro ⟨row', hrow', hid', htype⟩
    rwa [db.advertisers_inj hrow hrow' (hid.trans hid'.symm)]
  · exact fun htype => ⟨row, hrow, hid, htype⟩

end Facts

end Go

end AuctionWorker
