import AuctionWorker.Documented
import AuctionWorker.Loops

/-!
# The documented conditions, read through the queries

The documentation speaks of rows, the implementations of query results. By the
keys of the schema both say the same: a query by primary key returns the one row
that matters, and a stored ad always has its advertiser.
-/

namespace AuctionWorker

namespace Documented

variable {χ : Type} {db : Database χ} {request : Request χ} {ads : Ads χ}

theorem selectAdSize_cases (db : Database χ) (request : Request χ) (ads : Ads χ) :
    (∃ row, db.selectAdSize ads.sizeId = [row]
        ∧ (SizeMatches db request ads
          ↔ row.adsWidth = request.zoneWidth ∧ row.adsHeight = request.zoneHeight))
      ∨ (db.selectAdSize ads.sizeId = [] ∧ ¬SizeMatches db request ads) := by
  rcases selectOne_cases db.adsSizes_pk ads.sizeId with ⟨row, hrow, hid, hsel⟩ | ⟨hno, hsel⟩
  · refine Or.inl ⟨row, hsel, fun ⟨size, hsize, hsid, hzone⟩ => ?_,
      fun hzone => ⟨row, hrow, hid, hzone⟩⟩
    rwa [List.inj_on_of_nodup_map db.adsSizes_pk hrow hsize (hid.trans hsid.symm)]
  · exact Or.inr ⟨hsel, fun ⟨size, hsize, hsid, _⟩ => hno size hsize hsid⟩

/-- The ads of the requested size, as a query result. -/
theorem mem_sized :
    ads ∈ db.selectAdses.filter (fun ads => SizeMatches db request ads)
      ↔ ads ∈ db.adses ∧ SizeMatches db request ads := by
  rw [List.mem_filter, db.mem_selectAdses, decide_eq_true_eq]

theorem selectAdvertiser_of_stored (h : ads ∈ db.adses) :
    ∃ row ∈ db.advertisers, row.advertiserId = ads.advertiserId
      ∧ db.selectAdvertiser ads.advertiserId = [row] := by
  obtain ⟨row, hrow, hid⟩ := db.adses_advertiser_fk ads h
  exact ⟨row, hrow, hid, selectOne_eq_singleton db.advertisers_pk hrow hid⟩

theorem domainAllowed_iff {row : AdvertiserRow χ} (hrow : row ∈ db.advertisers)
    (hid : row.advertiserId = ads.advertiserId) :
    DomainAllowed db request ads ↔ ∀ entry ∈ request.blockDomains, ¬entry <:+: row.domain := by
  constructor
  · exact fun h => h row hrow hid
  · intro h row' hrow' hid'
    obtain rfl := db.advertisers_inj hrow hrow' (hid.trans hid'.symm)
    exact h

/-- The loop over `block_domains`, which raises a flag at every entry that the
domain contains. -/
theorem blocks_iff [DecidableEq χ] {blockDomains : List (List χ)} {domain : List χ} :
    blockDomains.foldl (fun flag entry => if (Text.find domain entry).isSome then true else flag)
        false = true
      ↔ ∃ entry ∈ blockDomains, entry <:+: domain := by
  have hstep : ∀ (flag : Bool) (entry : List χ),
      (if (Text.find domain entry).isSome then true else flag)
        = (flag || (Text.find domain entry).isSome) := by
    intro flag entry
    cases (Text.find domain entry).isSome <;> simp
  rw [Loops.foldl_eq_any hstep, Bool.false_or, List.any_eq_true]
  exact exists_congr fun entry => and_congr_right fun _ => Text.find_isSome_iff

theorem blocks_iff_not_allowed [DecidableEq χ] {row : AdvertiserRow χ}
    (hrow : row ∈ db.advertisers) (hid : row.advertiserId = ads.advertiserId) :
    request.blockDomains.foldl
        (fun flag entry => if (Text.find row.domain entry).isSome then true else flag) false = true
      ↔ ¬DomainAllowed db request ads := by
  rw [blocks_iff, domainAllowed_iff hrow hid]
  simp

theorem hasCategories_iff {advertiserId : ℕ} :
    HasCategories db advertiserId ↔ db.selectCategoryIds advertiserId ≠ [] := by
  constructor
  · rintro ⟨⟨_, categoryId⟩, hrow, rfl⟩
    exact List.ne_nil_of_mem (db.mem_selectCategoryIds.mpr hrow)
  · intro h
    obtain ⟨categoryId, hmem⟩ := List.exists_mem_of_ne_nil _ h
    exact ⟨_, db.mem_selectCategoryIds.mp hmem, rfl⟩

theorem categoriesMeet_iff {advertiserId : ℕ} :
    CategoriesMeet db request advertiserId
      ↔ ∃ categoryId ∈ db.selectCategoryIds advertiserId, categoryId ∈ request.categoryIds := by
  simp only [db.mem_selectCategoryIds]
  constructor
  · rintro ⟨⟨_, categoryId⟩, hrow, rfl, hmem⟩
    exact ⟨categoryId, hrow, hmem⟩
  · exact fun ⟨categoryId, hrow, hmem⟩ => ⟨_, hrow, rfl, hmem⟩

theorem categoryRule_iff {row : AdvertiserRow χ} (hrow : row ∈ db.advertisers)
    (hid : row.advertiserId = ads.advertiserId) :
    CategoryRule db request ads
      ↔ row.categoryBlockingType = some allowType ∧ CategoriesMeet db request ads.advertiserId
        ∨ row.categoryBlockingType = some denyType
          ∧ ¬CategoriesMeet db request ads.advertiserId := by
  constructor
  · rintro ⟨row', hrow', hid', h⟩
    rwa [db.advertisers_inj hrow hrow' (hid.trans hid'.symm)]
  · exact fun h => ⟨row, hrow, hid, h⟩

theorem categoryAllowed_of_nil (h : db.selectCategoryIds ads.advertiserId = []) :
    CategoryAllowed db request ads :=
  fun hhas => absurd h (hasCategories_iff.mp hhas)

variable (request) in
theorem categoryAllowed_allow {row : AdvertiserRow χ} (hrow : row ∈ db.advertisers)
    (hid : row.advertiserId = ads.advertiserId) (htype : row.categoryBlockingType = some allowType)
    (hcats : db.selectCategoryIds ads.advertiserId ≠ []) :
    CategoryAllowed db request ads ↔ CategoriesMeet db request ads.advertiserId := by
  rw [CategoryAllowed, categoryRule_iff hrow hid, htype]
  simp [hasCategories_iff, hcats]

variable (request) in
theorem categoryAllowed_deny {row : AdvertiserRow χ} (hrow : row ∈ db.advertisers)
    (hid : row.advertiserId = ads.advertiserId) (htype : row.categoryBlockingType = some denyType)
    (hcats : db.selectCategoryIds ads.advertiserId ≠ []) :
    CategoryAllowed db request ads ↔ ¬CategoriesMeet db request ads.advertiserId := by
  rw [CategoryAllowed, categoryRule_iff hrow hid, htype]
  simp [hasCategories_iff, hcats]

/-- The feature query of an ad delivers its stored feature, or no row. -/
theorem selectAdsFeature_cases (db : Database χ) (ads : Ads χ) :
    (∃ row, db.selectAdsFeature ads.adsId = [row] ∧ row ∈ db.adsFeatures
        ∧ HasFeature db ads ∧ row.feature = featureOf db ads.adsId)
      ∨ (db.selectAdsFeature ads.adsId = [] ∧ ¬HasFeature db ads
        ∧ featureOf db ads.adsId = 0) := by
  rcases selectOne_cases db.adsFeatures_pk ads.adsId with ⟨row, hrow, hid, hsel⟩ | ⟨hno, hsel⟩
  · exact Or.inl ⟨row, hsel, hrow, ⟨row, hrow, hid⟩, by rw [← hid, featureOf_eq hrow]⟩
  · refine Or.inr ⟨hsel, fun ⟨row, hrow, hid⟩ => hno row hrow hid, ?_⟩
    have hnone : (db.adsFeatures.find? fun row => row.adsId = ads.adsId) = none :=
      List.find?_eq_none.mpr fun row hrow => by simpa using hno row hrow
    rw [featureOf, hnone]
    rfl

end Documented

end AuctionWorker
