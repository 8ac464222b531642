import AuctionWorker.Schema
import AuctionWorker.Selection

/-!
# The documented auction

What `doc/` says an auction returns, as a property of the stored rows. Nothing
here is translated from the three implementations; they are compared with it.

- size (`doc/size-scan.md`): the ad's size row equals the requested zone;
- domain (`doc/domain-blocking.md`): no entry of `block_domains` occurs in the
  domain of the ad's advertiser;
- category (`doc/category-blocking.md`): the advertiser's categories meet the
  requested ones if its type is allow, and do not meet them if it is deny. An
  advertiser without categories is left alone (`CategoryAllowed`);
- targeting (`doc/feature-targeting.md`): every advertiser sends the eligible
  ad nearest to the zone's feature, the smallest `ads_id` among equals;
- final auction (`doc/final-auction.md`): the highest price wins, the smallest
  `ads_id` among equals.

The last two are a two-level selection. `winner?` computes it.
-/

namespace AuctionWorker

variable {χ : Type}

/-! ## Documented value ranges -/

/-- `category_blocking_type` is 0 or 1. -/
def DocumentedTypes (db : Database χ) : Prop :=
  ∀ row ∈ db.advertisers,
    row.categoryBlockingType = some allowType ∨ row.categoryBlockingType = some denyType

/-- The ad's advertiser has a documented type. -/
def TypeDocumented (db : Database χ) (ads : Ads χ) : Prop :=
  ∀ row ∈ db.advertisers, row.advertiserId = ads.advertiserId →
    row.categoryBlockingType = some allowType ∨ row.categoryBlockingType = some denyType

theorem DocumentedTypes.of_ads {db : Database χ} (h : DocumentedTypes db) (ads : Ads χ) :
    TypeDocumented db ads :=
  fun row hrow _ => h row hrow

/-- A feature in the documented range. -/
def DocumentedFeature (feature : ℤ) : Prop :=
  -100000 ≤ feature ∧ feature ≤ 100000

theorem DocumentedFeature.abs_sub_le {a b : ℤ} (ha : DocumentedFeature a)
    (hb : DocumentedFeature b) : |a - b| ≤ 200000 := by
  obtain ⟨ha1, ha2⟩ := ha
  obtain ⟨hb1, hb2⟩ := hb
  exact abs_le.mpr ⟨by omega, by omega⟩

def DocumentedFeatures (db : Database χ) : Prop :=
  ∀ row ∈ db.adsFeatures, DocumentedFeature row.feature

instance (feature : ℤ) : Decidable (DocumentedFeature feature) :=
  inferInstanceAs (Decidable (_ ∧ _))

instance (db : Database χ) : Decidable (DocumentedTypes db) :=
  inferInstanceAs (Decidable (∀ row ∈ db.advertisers, _))

instance (db : Database χ) : Decidable (DocumentedFeatures db) :=
  inferInstanceAs (Decidable (∀ row ∈ db.adsFeatures, _))

namespace Documented

/-! ## Eligible ads -/

section Eligibility

variable (db : Database χ) (request : Request χ)

def SizeMatches (ads : Ads χ) : Prop :=
  ∃ size ∈ db.adsSizes, size.sizeId = ads.sizeId
    ∧ size.adsWidth = request.zoneWidth ∧ size.adsHeight = request.zoneHeight

/-- The types that a request makes the implementations look at are documented. -/
def SizedTypes : Prop :=
  ∀ ads ∈ db.adses, SizeMatches db request ads → TypeDocumented db ads

def DomainAllowed (ads : Ads χ) : Prop :=
  ∀ row ∈ db.advertisers, row.advertiserId = ads.advertiserId →
    ∀ entry ∈ request.blockDomains, ¬entry <:+: row.domain

def HasCategories (advertiserId : ℕ) : Prop :=
  ∃ row ∈ db.categoryBlockings, row.advertiserId = advertiserId

/-- The advertiser's categories and the requested ones intersect. -/
def CategoriesMeet (advertiserId : ℕ) : Prop :=
  ∃ row ∈ db.categoryBlockings, row.advertiserId = advertiserId
    ∧ row.categoryId ∈ request.categoryIds

/-- The rule of `doc/category-blocking.md`, read literally: it also covers
advertisers without categories, whose intersection is empty. -/
def CategoryRule (ads : Ads χ) : Prop :=
  ∃ row ∈ db.advertisers, row.advertiserId = ads.advertiserId
    ∧ (row.categoryBlockingType = some allowType ∧ CategoriesMeet db request ads.advertiserId
      ∨ row.categoryBlockingType = some denyType ∧ ¬CategoriesMeet db request ads.advertiserId)

def CategoryAllowed (ads : Ads χ) : Prop :=
  HasCategories db ads.advertiserId → CategoryRule db request ads

structure Eligible (ads : Ads χ) : Prop where
  stored : ads ∈ db.adses
  size : SizeMatches db request ads
  domain : DomainAllowed db request ads
  category : CategoryAllowed db request ads

end Eligibility

/-! ## Candidates and the winner -/

section Selection

variable (db : Database χ) (request : Request χ)

/-- The stored feature of an ad; 0 when there is none. -/
def featureOf (adsId : ℕ) : ℤ :=
  ((db.adsFeatures.find? fun row => row.adsId = adsId).map AdsFeature.feature).getD 0

def HasFeature (ads : Ads χ) : Prop :=
  ∃ row ∈ db.adsFeatures, row.adsId = ads.adsId

/-- The eligible ads that have a feature. -/
def offers : Set (Ads χ) :=
  {ads | Eligible db request ads ∧ HasFeature db ads}

/-- Nearness to the zone, then `ads_id`. -/
def near (ads : Ads χ) : ℤ ×ₗ ℕ :=
  toLex (|featureOf db ads.adsId - request.feature|, ads.adsId)

/-- Falling price, then `ads_id`. -/
def rank (ads : Ads χ) : ℕᵒᵈ ×ₗ ℕ :=
  toLex (OrderDual.toDual ads.price, ads.adsId)

/-- The ad that represents its advertiser. -/
def Candidate (ads : Ads χ) : Prop :=
  Selection.Representative (offers db request) Ads.advertiserId (near db request) ads

/-- The candidate of the highest price. -/
def Winner (ads : Ads χ) : Prop :=
  Selection.Winner (offers db request) Ads.advertiserId (near db request) rank ads

/-- `result` is what the documentation promises: the response for the winner, or
no bid exactly when there is no candidate. -/
structure IsResult (result : Option (Response χ)) : Prop where
  winner : ∀ ads, Winner db request ads → result = some (respond request ads)
  nobid : result = none ↔ ∀ ads, ¬Candidate db request ads

end Selection

/-! ## Basic facts -/

section Facts

variable {db : Database χ} {request : Request χ}

theorem featureOf_eq {row : AdsFeature} (h : row ∈ db.adsFeatures) :
    featureOf db row.adsId = row.feature := by
  have hsome : (db.adsFeatures.find? fun r => r.adsId = row.adsId).isSome :=
    List.find?_isSome.mpr ⟨row, h, by simp⟩
  obtain ⟨r, hr⟩ := Option.isSome_iff_exists.mp hsome
  have hid : r.adsId = row.adsId := by simpa using List.find?_some hr
  have heq : r = row :=
    List.inj_on_of_nodup_map db.adsFeatures_pk (List.mem_of_find?_eq_some hr) h hid
  rw [featureOf, hr, heq]
  rfl

theorem documented_featureOf (hfeatures : DocumentedFeatures db) (adsId : ℕ) :
    DocumentedFeature (featureOf db adsId) := by
  unfold featureOf
  cases hfind : db.adsFeatures.find? fun row => row.adsId = adsId with
  | none => exact ⟨by decide, by decide⟩
  | some row => exact hfeatures row (List.mem_of_find?_eq_some hfind)

theorem offers_stored {ads : Ads χ} (h : ads ∈ offers db request) : ads ∈ db.adses :=
  h.1.stored

theorem offers_finite : (offers db request).Finite :=
  (List.finite_toSet db.adses).subset fun _ => offers_stored

/-- Any order that ends in `ads_id` separates stored ads. -/
theorem injOn_lex_adsId {κ : Type} [LinearOrder κ] {pool : Set (Ads χ)} {f : Ads χ → κ}
    (hstored : ∀ ads ∈ pool, ads ∈ db.adses) :
    Set.InjOn (fun ads => toLex (f ads, ads.adsId)) pool := by
  intro a ha b hb hab
  exact db.adses_inj (hstored a ha) (hstored b hb) (congrArg (fun p => (ofLex p).2) hab)

theorem Candidate.unique {a b : Ads χ} (ha : Candidate db request a)
    (hb : Candidate db request b) (h : a.advertiserId = b.advertiserId) : a = b :=
  Selection.Representative.unique (injOn_lex_adsId fun _ => offers_stored) ha hb h

theorem Winner.unique {a b : Ads χ} (ha : Winner db request a) (hb : Winner db request b) :
    a = b :=
  Selection.Winner.unique (injOn_lex_adsId fun _ h => offers_stored h.1) ha hb

theorem exists_winner_of_candidate {ads : Ads χ} (h : Candidate db request ads) :
    ∃ w, Winner db request w :=
  Selection.exists_winner _ _ _ offers_finite ⟨ads, h.1⟩

/-- An implementation that selects the winner returns the documented result. -/
theorem isResult_of_selects {winner : Option (Ads χ)}
    (h : Selection.Selects winner (Winner db request)) :
    IsResult db request (winner.map (respond request)) := by
  refine ⟨fun ads hads => by rw [(h ads).mpr hads]; rfl, ?_⟩
  rw [Option.map_eq_none_iff, h.eq_none_iff]
  constructor
  · intro hno ads hads
    obtain ⟨w, hw⟩ := exists_winner_of_candidate hads
    exact hno w hw
  · exact fun hno w hw => hno w hw.1

end Facts

/-! ## The documented auction, computed -/

section Compute

variable [DecidableEq χ] (db : Database χ) (request : Request χ)

instance (ads : Ads χ) : Decidable (SizeMatches db request ads) :=
  inferInstanceAs (Decidable (∃ size ∈ db.adsSizes, _))

instance (ads : Ads χ) : Decidable (DomainAllowed db request ads) :=
  inferInstanceAs (Decidable (∀ row ∈ db.advertisers, _))

instance (advertiserId : ℕ) : Decidable (HasCategories db advertiserId) :=
  inferInstanceAs (Decidable (∃ row ∈ db.categoryBlockings, _))

instance (advertiserId : ℕ) : Decidable (CategoriesMeet db request advertiserId) :=
  inferInstanceAs (Decidable (∃ row ∈ db.categoryBlockings, _))

instance (ads : Ads χ) : Decidable (CategoryRule db request ads) :=
  inferInstanceAs (Decidable (∃ row ∈ db.advertisers, _))

instance (ads : Ads χ) : Decidable (CategoryAllowed db request ads) :=
  inferInstanceAs (Decidable (_ → _))

instance (ads : Ads χ) : Decidable (HasFeature db ads) :=
  inferInstanceAs (Decidable (∃ row ∈ db.adsFeatures, _))

/-- The offers as a list. -/
def offerList : List (Ads χ) :=
  db.adses.filter fun ads =>
    SizeMatches db request ads ∧ DomainAllowed db request ads ∧ CategoryAllowed db request ads
      ∧ HasFeature db ads

/-- The candidates as a list. -/
def candidateList : List (Ads χ) :=
  (offerList db request).filter fun ads =>
    ∀ other ∈ offerList db request, other.advertiserId = ads.advertiserId →
      near db request ads ≤ near db request other

def winner? : Option (Ads χ) :=
  (candidateList db request).argmin rank

variable {db request}

theorem mem_offerList {ads : Ads χ} :
    ads ∈ offerList db request ↔ ads ∈ offers db request := by
  simp only [offerList, List.mem_filter, decide_eq_true_eq, offers, Set.mem_ofPred_eq]
  constructor
  · exact fun ⟨h, hs, hd, hc, hf⟩ => ⟨⟨h, hs, hd, hc⟩, hf⟩
  · exact fun ⟨⟨h, hs, hd, hc⟩, hf⟩ => ⟨h, hs, hd, hc, hf⟩

theorem mem_candidateList {ads : Ads χ} :
    ads ∈ candidateList db request ↔ Candidate db request ads := by
  simp only [candidateList, List.mem_filter, decide_eq_true_eq, mem_offerList]
  rfl

theorem winner?_selects : Selection.Selects (winner? db request) (Winner db request) := by
  intro w
  constructor
  · intro h
    refine ⟨mem_candidateList.mp (List.argmin_mem h), fun r hr => ?_⟩
    exact List.le_of_mem_argmin (mem_candidateList.mpr hr) h
  · intro hw
    cases h : winner? db request with
    | none =>
        have hnil := List.argmin_eq_none.mp h
        exact absurd (mem_candidateList.mpr hw.1) (by simp [hnil])
    | some v =>
        have hv : Winner db request v :=
          ⟨mem_candidateList.mp (List.argmin_mem h),
            fun r hr => List.le_of_mem_argmin (mem_candidateList.mpr hr) h⟩
        rw [hv.unique hw]

end Compute

/-! ## Two advertisers that tie -/

/-- Advertiser 1 owns ad 2 and advertiser 2 owns ad 1, at the same price. -/
def tieDatabase : Database Char where
  advertisers :=
    [⟨1, "a".toList, some denyType, "a.example".toList⟩,
      ⟨2, "b".toList, some denyType, "b.example".toList⟩]
  adsSizes := [⟨1, 300, 250⟩]
  adses := [⟨1, 2, 50000, "second".toList, 1⟩, ⟨2, 1, 50000, "first".toList, 1⟩]
  categoryBlockings := [⟨1, 4⟩, ⟨2, 4⟩]
  adsFeatures := [⟨1, 10⟩, ⟨2, 10⟩]
  advertisers_pk := by decide
  adsSizes_pk := by decide
  adses_pk := by decide
  categoryBlockings_pk := by decide
  adsFeatures_pk := by decide
  adses_advertiser_fk := by decide
  adses_size_fk := by decide
  categoryBlockings_fk := by decide
  adsFeatures_fk := by decide
  adsFeatures_int := by decide

def tieRequest : Request Char :=
  ⟨"auction".toList, [1], 10, 300, 250, []⟩

example : winner? tieDatabase tieRequest = some ⟨1, 2, 50000, "second".toList, 1⟩ := by decide

end Documented

end AuctionWorker
