import AuctionWorker.GoFaults
import AuctionWorker.Targeting

/-!
# The Go auction selects a winner

Under any assignment of outcomes to the fetches and any runtime, the Go auction
returns without a panic, and its winner is the documented selection among the
ads that reach targeting (`auctionWinner_reaching`); on documented types these
are the ads that the faults let through (`auctionWinner_spec`), and without faults
it returns the documented result (`auction_documented`). The stages, in order:

- size, domain and category filter the ads in the order of their ids, and what
  the category stage keeps is grouped by advertiser (`advertiserAdses_kept`);
- targeting collects one ad for each advertiser (`targetStep_eq`), in whatever
  order the map is ranged over;
- the comparator is a strict order on stored ads, so that the sort leaves no
  choice for the first element (`sortSlice_sorted`).
-/

namespace AuctionWorker

namespace Go

open Documented

variable {χ : Type} {faults : Faults} {db : Database χ} {request : Request χ}

/-! ## Size -/

theorem sizeStep_eq (acc : List (Ads χ)) (ads : Ads χ) :
    sizeStep faults db request acc ads
      = if decide (SizePasses faults db request ads) then acc ++ [ads] else acc := by
  rcases (faults (.adSize ads.adsId)).trichotomy with hout | hout | hout
  · rcases selectAdSize_cases db request ads with ⟨row, hsel, hiff⟩ | ⟨hsel, hno⟩
    · simp [sizeStep, fetchAdSize, fetchModelByID, dbGet, SizePasses, Outcome.Lets, hout, hsel,
        hiff]
    · simp [sizeStep, fetchAdSize, fetchModelByID, dbGet, SizePasses, Outcome.Lets, hout, hsel,
        hno]
  · simp [sizeStep, fetchAdSize, fetchModelByID, SizePasses, Outcome.Lets, hout]
  · obtain ⟨err, herr⟩ := fetchAdSize_failed hout db ads.sizeId
    simp [sizeStep, herr, SizePasses, hout.not_lets]

theorem advertiserSatisfySize_eq (adses : List (Ads χ)) :
    advertiserSatisfySize faults db request adses
      = adses.filter fun ads => SizePasses faults db request ads :=
  Loops.foldl_eq_filter (fun acc ads _ => sizeStep_eq acc ads) []

theorem mem_advertiserSatisfySize {ads : Ads χ} :
    ads ∈ advertiserSatisfySize noFaults db request db.selectAdses
      ↔ ads ∈ db.adses ∧ SizeMatches db request ads := by
  rw [advertiserSatisfySize_eq]
  exact mem_sized

/-! ## Domain -/

/-- A fetch that does not fail delivers the advertiser of a stored ad, unless its type
is NULL. -/
theorem fetchAdvertiser_success {ads : Ads χ} (h : ads ∈ db.adses) :
    ∃ row ∈ db.advertisers, row.advertiserId = ads.advertiserId
      ∧ ((row.categoryBlockingType = none
          ∧ fetchAdvertiser .success db ads.advertiserId = (⟨0, [], 0, []⟩, some .scan))
        ∨ ∃ type, row.categoryBlockingType = some type
          ∧ fetchAdvertiser .success db ads.advertiserId
            = (⟨ads.advertiserId, row.advertiserName, (type.val : ℤ), row.domain⟩, none)) := by
  obtain ⟨row, hrow, hid, hsel⟩ := selectAdvertiser_of_stored h
  refine ⟨row, hrow, hid, ?_⟩
  cases htype : row.categoryBlockingType with
  | none => simp [fetchAdvertiser, fetchModelByID, dbGet, hsel, scanAdvertiser, htype]
  | some type => simp [fetchAdvertiser, fetchModelByID, dbGet, hsel, scanAdvertiser, htype]

theorem fetchAdvertiser_of_stored {ads : Ads χ} (htype : TypeDocumented db ads)
    (h : ads ∈ db.adses) :
    ∃ row ∈ db.advertisers, row.advertiserId = ads.advertiserId
      ∧ fetchAdvertiser .success db ads.advertiserId
        = (⟨ads.advertiserId, row.advertiserName,
            if row.categoryBlockingType = some denyType then DENY else ALLOW, row.domain⟩,
          none) := by
  obtain ⟨row, hrow, hid, ⟨hnull, -⟩ | ⟨type, hsome, hfetch⟩⟩ := fetchAdvertiser_success h
  · rcases htype row hrow hid with htype | htype
    · cases hnull.symm.trans htype
    · cases hnull.symm.trans htype
  · refine ⟨row, hrow, hid, hfetch.trans ?_⟩
    rcases htype row hrow hid with htype | htype
    · obtain rfl := Option.some.inj (hsome.symm.trans htype)
      simp [htype, ALLOW]
    · obtain rfl := Option.some.inj (hsome.symm.trans htype)
      simp [htype, DENY]

section Domain

variable [DecidableEq χ]

/-- The domain stage keeps the ad: its advertiser is delivered and not blocked. -/
def domainKept (faults : Faults) (db : Database χ) (request : Request χ) (ads : Ads χ) : Bool :=
  match fetchAdvertiser (faults (.domainAdvertiser ads.adsId)) db ads.advertiserId with
  | (_, some _) => false
  | (advertiser, none) => !containBlockDomain request.blockDomains advertiser.domain

variable (faults db request) in
theorem domainStep_eq (acc : List (Ads χ)) (ads : Ads χ) :
    domainStep faults db request acc ads
      = if domainKept faults db request ads then acc ++ [ads] else acc := by
  unfold domainStep domainKept
  rcases fetchAdvertiser (faults (.domainAdvertiser ads.adsId)) db ads.advertiserId with
    ⟨advertiser, _ | err⟩
  · by_cases hblock : containBlockDomain request.blockDomains advertiser.domain = true
    · simp [hblock]
    · simp [hblock]
  · rfl

/-- The ads that reach the category stage. -/
theorem advertiserSatisfyDomain_kept (adses : List (Ads χ)) :
    advertiserSatisfyDomain faults db request adses
      = adses.filter fun ads =>
          SizePasses faults db request ads ∧ domainKept faults db request ads := by
  have hfold := Loops.foldl_eq_filter (l := advertiserSatisfySize faults db request adses)
    (fun acc ads _ => domainStep_eq faults db request acc ads) []
  rw [advertiserSatisfyDomain, hfold, advertiserSatisfySize_eq, List.nil_append,
    List.filter_filter]
  exact List.filter_congr fun ads _ => by simp [Bool.and_comm]

variable (faults request) in
/-- The decision of the domain stage on a documented type. -/
theorem domainKept_iff {ads : Ads χ} (htype : TypeDocumented db ads) (h : ads ∈ db.adses) :
    domainKept faults db request ads ↔ DomainPasses faults db request ads := by
  rcases (faults (.domainAdvertiser ads.adsId)).trichotomy with hout | hout | hout
  · obtain ⟨row, hrow, hid, hfetch⟩ := fetchAdvertiser_of_stored htype h
    have hiff : containBlockDomain request.blockDomains row.domain = true
        ↔ ¬DomainAllowed db request ads := blocks_iff_not_allowed hrow hid
    simp [domainKept, hout, hfetch, DomainPasses, Outcome.Lets, ← Bool.not_eq_true, hiff]
  · have hiff : containBlockDomain request.blockDomains ([] : List χ) = true
        ↔ [] ∈ request.blockDomains := by
      rw [containBlockDomain, blocks_iff]
      simp
    simp [domainKept, hout, fetchAdvertiser, fetchModelByID, DomainPasses, Outcome.Lets,
      ← Bool.not_eq_true, hiff]
  · obtain ⟨err, herr⟩ := fetchAdvertiser_failed hout db ads.advertiserId
    simp [domainKept, herr, DomainPasses, hout.not_lets]

variable (request) in
/-- Where the fetch delivers, the stage decides by the stored domain. -/
theorem domainKept_of_fetch {ads : Ads χ} {advertiser : Advertiser χ ℤ} (h : ads ∈ db.adses)
    (hfetch : fetchAdvertiser .success db ads.advertiserId = (advertiser, none)) :
    domainKept noFaults db request ads ↔ DomainAllowed db request ads := by
  obtain ⟨row, hrow, hid, ⟨-, herr⟩ | ⟨type, -, hdelivered⟩⟩ := fetchAdvertiser_success h
  · cases herr.symm.trans hfetch
  · have hiff : containBlockDomain request.blockDomains row.domain = true
        ↔ ¬DomainAllowed db request ads := blocks_iff_not_allowed hrow hid
    simp [domainKept, noFaults, hdelivered, ← Bool.not_eq_true, hiff]

theorem advertiserSatisfyDomain_eq {adses : List (Ads χ)}
    (htypes : ∀ ads ∈ adses, SizePasses faults db request ads → TypeDocumented db ads)
    (h : ∀ ads ∈ adses, ads ∈ db.adses) :
    advertiserSatisfyDomain faults db request adses
      = adses.filter fun ads =>
          SizePasses faults db request ads ∧ DomainPasses faults db request ads := by
  rw [advertiserSatisfyDomain_kept]
  refine List.filter_congr fun ads hads => ?_
  rw [decide_eq_decide]
  exact and_congr_right fun hsize =>
    domainKept_iff faults request (htypes ads hads hsize) (h ads hads)

end Domain

/-! ## Category -/

variable (db) in
theorem fetchCategoryBlocking_success (advertiserId : ℕ) :
    (db.selectCategoryIds advertiserId = []
        ∧ ∃ err, fetchCategoryBlocking .success db advertiserId = (⟨0, []⟩, some err))
      ∨ (db.selectCategoryIds advertiserId ≠ []
        ∧ fetchCategoryBlocking .success db advertiserId
          = (⟨advertiserId, db.selectCategoryIds advertiserId⟩, none)) := by
  unfold fetchCategoryBlocking fetchSliceByID dbSelect
  cases h : db.selectCategoryIds advertiserId with
  | nil => exact Or.inl ⟨rfl, _, rfl⟩
  | cons categoryId rest => exact Or.inr ⟨List.cons_ne_nil _ _, rfl⟩

theorem fetchCategoryBlocking_ping (advertiserId : ℕ) :
    fetchCategoryBlocking .pingError db advertiserId = (⟨advertiserId, []⟩, none) :=
  rfl

/-- Categories decide by polarity: blocked unless they meet, or if they meet. -/
theorem categoryBlocking_eq (advertiser : Advertiser χ ℤ) (blocking : CategoryBlocking)
    (requestCategory : List ℕ) :
    categoryBlocking advertiser blocking requestCategory
      = if advertiser.categoryBlockingType = ALLOW then
          !decide (∃ categoryId ∈ blocking.categoryIds, categoryId ∈ requestCategory)
        else decide (advertiser.categoryBlockingType = DENY)
          && decide (∃ categoryId ∈ blocking.categoryIds, categoryId ∈ requestCategory) := by
  have hfold : blocking.categoryIds.foldl
      (fun includeIds categoryId => includeIds || requestCategory.contains categoryId) false
      = decide (∃ categoryId ∈ blocking.categoryIds, categoryId ∈ requestCategory) := by
    rw [Loops.foldl_eq_any (fun _ _ => rfl), Bool.false_or, Bool.eq_iff_iff]
    simp
  unfold categoryBlocking
  rw [hfold]
  split
  · rfl
  · split <;> simp [*]

/-- The blocking of an advertiser by its stored categories. -/
theorem categoryBlocking_stored (advertiser : Advertiser χ ℤ) (advertiserId : ℕ) :
    categoryBlocking advertiser ⟨advertiserId, db.selectCategoryIds advertiserId⟩
        request.categoryIds
      = if advertiser.categoryBlockingType = ALLOW then
          !decide (CategoriesMeet db request advertiserId)
        else decide (advertiser.categoryBlockingType = DENY)
          && decide (CategoriesMeet db request advertiserId) := by
  rw [categoryBlocking_eq]
  simp only [categoriesMeet_iff]

variable (db request) in
/-- A failed fetch of the category stage blocks nothing. -/
theorem blocked_of_failed {ads : Ads χ}
    (h : (faults (.categoryAdvertiser ads.adsId)).Failed
      ∨ (faults (.categoryBlocking ads.adsId)).Failed) :
    blocked faults db request ads = !decide (CategoryPasses faults db request ads) := by
  have hblocked : blocked faults db request ads = false := by
    rcases h with ha | hc
    · obtain ⟨err, herr⟩ := fetchAdvertiser_failed ha db ads.advertiserId
      simp [blocked, herr]
    · obtain ⟨err, herr⟩ := fetchCategoryBlocking_failed hc db ads.advertiserId
      simp [blocked, herr]
  have hpasses : CategoryPasses faults db request ads := categoryLets_of_failed _ _ _ h
  rw [hblocked, decide_eq_true hpasses]
  rfl

/-- After a failing ping for the advertiser, its zero value allows its categories. -/
theorem blocked_of_ping {ads : Ads χ} (ha : faults (.categoryAdvertiser ads.adsId) = .pingError)
    (hc : ¬(faults (.categoryBlocking ads.adsId)).Failed) :
    blocked faults db request ads = !decide (CategoryPasses faults db request ads) := by
  rcases (faults (.categoryBlocking ads.adsId)).trichotomy with hc' | hc' | hc'
  · rcases fetchCategoryBlocking_success db ads.advertiserId with
      ⟨hnil, err, herr⟩ | ⟨hcats, hblocking⟩
    · simp [blocked, CategoryPasses, CategoryLets, ha, hc', herr, hasCategories_iff, hnil]
    · simp [blocked, CategoryPasses, CategoryLets, ha, hc', fetchAdvertiser, fetchModelByID,
        hblocking, categoryBlocking_stored, hasCategories_iff, hcats, ALLOW]
  · simp [blocked, CategoryPasses, CategoryLets, ha, hc', fetchAdvertiser, fetchModelByID,
      fetchCategoryBlocking_ping, categoryBlocking_eq, ALLOW]
  · exact absurd hc' hc

/-- The decision of the category stage on a documented type. -/
theorem blocked_eq {ads : Ads χ} (htype : TypeDocumented db ads) (h : ads ∈ db.adses) :
    blocked faults db request ads = !decide (CategoryPasses faults db request ads) := by
  by_cases hfailed : (faults (.categoryAdvertiser ads.adsId)).Failed
      ∨ (faults (.categoryBlocking ads.adsId)).Failed
  · exact blocked_of_failed db request hfailed
  · rw [not_or] at hfailed
    obtain ⟨row, hrow, hid, hfetch⟩ := fetchAdvertiser_of_stored htype h
    rcases (faults (.categoryAdvertiser ads.adsId)).trichotomy with ha | ha | ha
    · rcases (faults (.categoryBlocking ads.adsId)).trichotomy with hc | hc | hc
      · rcases fetchCategoryBlocking_success db ads.advertiserId with
          ⟨hnil, err, herr⟩ | ⟨hcats, hblocking⟩
        · have hallowed : CategoryAllowed db request ads := categoryAllowed_of_nil hnil
          simp [blocked, CategoryPasses, CategoryLets, ha, hc, herr, hfetch, hallowed]
        · rcases htype row hrow hid with htype | htype
          · have hiff := categoryAllowed_allow request hrow hid htype hcats
            simp [blocked, CategoryPasses, CategoryLets, ha, hc, hfetch, hblocking, htype,
              categoryBlocking_stored, hiff]
          · have hiff := categoryAllowed_deny request hrow hid htype hcats
            simp [blocked, CategoryPasses, CategoryLets, ha, hc, hfetch, hblocking, htype,
              categoryBlocking_stored, hiff, ALLOW, DENY]
      · have hiff := denies_iff hrow hid
        rcases htype row hrow hid with htype | htype
        · simp [blocked, CategoryPasses, CategoryLets, ha, hc, hfetch, fetchCategoryBlocking_ping,
            categoryBlocking_eq, hiff, htype]
        · simp [blocked, CategoryPasses, CategoryLets, ha, hc, hfetch, fetchCategoryBlocking_ping,
            categoryBlocking_eq, hiff, htype, ALLOW, DENY]
      · exact absurd hc hfailed.2
    · exact blocked_of_ping ha hfailed.2
    · exact absurd ha hfailed.1

/-! ## The groups -/

theorem stored_of_fetchAdses {outcome : Outcome} {adses : List (Ads χ)}
    (h : fetchAdses outcome db = (adses, none)) :
    adses = if outcome = .success then db.selectAdses else [] := by
  rcases outcome.trichotomy with rfl | rfl | hfailed
  · cases hsel : db.selectAdses with
    | nil => simp [fetchAdses, fetchModels, dbSelect, hsel] at h
    | cons first rest => simpa [fetchAdses, fetchModels, dbSelect, hsel] using h.symm
  · simpa [fetchAdses, fetchModels] using h.symm
  · obtain ⟨models, err, herr⟩ := fetchAdses_failed hfailed db
    rw [herr] at h
    cases h

/-- A successful query ends in an error only if there is no ad at all. -/
theorem no_ads_of_fetchAdses {adses : List (Ads χ)} {err : GoError}
    (h : fetchAdses .success db = (adses, some err)) (ads : Ads χ) : ads ∉ db.adses := by
  intro hads
  have hmem := db.mem_selectAdses.mpr hads
  cases hsel : db.selectAdses with
  | nil => rw [hsel] at hmem; cases hmem
  | cons first rest => simp [fetchAdses, fetchModels, dbSelect, hsel] at h

section Stages

variable [DecidableEq χ]

variable (faults db request) in
/-- The groups of the ads that reach targeting. -/
theorem advertiserAdses_kept (adses : List (Ads χ)) :
    Grouping.Groups Ads.advertiserId
      ((advertiserSatisfyDomain faults db request adses).filter fun ads =>
        !blocked faults db request ads)
      (advertiserAdses faults db request adses) := by
  have hstep : ∀ groups ads, categoryStep faults db request groups ads
      = if !blocked faults db request ads then
          Grouping.pushBack groups ads.advertiserId ads else groups := by
    intro groups ads
    unfold categoryStep
    cases blocked faults db request ads <;> rfl
  have hgroups := Grouping.groups_foldl Ads.advertiserId
    (fun ads => !blocked faults db request ads) hstep
    (advertiserSatisfyDomain faults db request adses) Grouping.groups_nil
  rwa [List.nil_append] at hgroups

variable (faults request) in
theorem advertiserAdses_groups {adses : List (Ads χ)}
    (htypes : ∀ ads ∈ adses, SizePasses faults db request ads → TypeDocumented db ads)
    (h : ∀ ads ∈ adses, ads ∈ db.adses) :
    Grouping.Groups Ads.advertiserId
      ((advertiserSatisfyDomain faults db request adses).filter fun ads =>
        CategoryPasses faults db request ads)
      (advertiserAdses faults db request adses) := by
  have hkept : (advertiserSatisfyDomain faults db request adses).filter
      (fun ads => !blocked faults db request ads)
      = (advertiserSatisfyDomain faults db request adses).filter fun ads =>
        CategoryPasses faults db request ads := by
    refine List.filter_congr fun ads hads => ?_
    rw [advertiserSatisfyDomain_kept, List.mem_filter, decide_eq_true_eq] at hads
    rw [blocked_eq (htypes ads hads.1 hads.2.1) (h ads hads.1), Bool.not_not]
  rw [← hkept]
  exact advertiserAdses_kept faults db request adses

end Stages

/-! ## Targeting -/

/-- The feature the fetch delivers to the targeting. -/
def fetchedFeature (faults : Faults) (db : Database χ) (ads : Ads χ) : Option ℤ :=
  match fetchAdsFeature (faults (.adsFeature ads.adsId)) db ads.adsId with
  | (_, some _) => none
  | (adsFeature, none) => some adsFeature.feature

theorem fetchedFeature_spec (faults : Faults) (db : Database χ) (ads : Ads χ) :
    ((fetchedFeature faults db ads).isSome ↔ FeaturePasses faults db ads)
      ∧ (fetchedFeature faults db ads).getD 0 = featureSeen faults db ads := by
  rcases (faults (.adsFeature ads.adsId)).trichotomy with h | h | h
  · rcases selectAdsFeature_cases db ads with ⟨row, hsel, -, hhas, hf⟩ | ⟨hsel, hno, hf⟩
    · simp [fetchedFeature, fetchAdsFeature, fetchModelByID, dbGet, FeaturePasses, Outcome.Lets,
        featureSeen, h, hsel, hhas, hf]
    · simp [fetchedFeature, fetchAdsFeature, fetchModelByID, dbGet, FeaturePasses, Outcome.Lets,
        featureSeen, h, hsel, hno, hf]
  · simp [fetchedFeature, fetchAdsFeature, fetchModelByID, FeaturePasses, Outcome.Lets,
      featureSeen, h]
  · obtain ⟨err, herr⟩ := fetchAdsFeature_failed h db ads.adsId
    have hseen : featureSeen faults db ads = 0 := by
      unfold featureSeen
      generalize faults (.adsFeature ads.adsId) = outcome at h
      cases h <;> rfl
    simp [fetchedFeature, herr, FeaturePasses, h.not_lets, hseen]

theorem adsFeatures_eq (adses : List (Ads χ)) :
    adsFeatures faults db adses = Targeting.features (fetchedFeature faults db) adses := by
  have hstep : ∀ acc, ∀ ads ∈ adses,
      (match fetchAdsFeature (faults (.adsFeature ads.adsId)) db ads.adsId with
        | (_, some _) => acc
        | (adsFeature, none) => acc ++ [adsFeature])
      = acc ++ ((fetchedFeature faults db ads).map fun feature =>
          (⟨ads.adsId, feature⟩ : AdsFeature)).toList := by
    intro acc ads _
    unfold fetchedFeature fetchAdsFeature
    rcases fetchModelByID (faults (.adsFeature ads.adsId))
        (fun row : AdsFeature => some row.feature) 0 (db.selectAdsFeature ads.adsId)
      with ⟨feature, _ | err⟩ <;> simp
  exact (Loops.foldl_eq_filterMap hstep []).trans (List.nil_append _)

/-- The scan finds the first nearest feature: its sentinel exceeds every distance. -/
theorem featureTargeting_eq {adsFeatures : List AdsFeature} {requestFeature : ℤ}
    {best : AdsFeature}
    (h : adsFeatures.argmin (fun row => distance requestFeature row.feature) = some best) :
    featureTargeting adsFeatures requestFeature = .ok best := by
  have hscan := Loops.sentinelScan_eq_argmin
    (d := fun row : AdsFeature => distance requestFeature row.feature) (l := adsFeatures)
    fun row _ => Float64.abs_ofInt_wrap_lt (row.feature - requestFeature)
  unfold featureTargeting
  dsimp only
  rw [hscan, h]

/-- One advertiser sends its representative, if it has one. -/
theorem targetStep_eq (acc : List (Ads χ)) {group : ℕ × List (Ads χ)}
    (hsorted : group.2.Pairwise fun a b => a.adsId < b.adsId) :
    targetStep faults db request acc group
      = .ok (acc ++ (Targeting.representativeOf (fetchedFeature faults db)
          (distance request.feature) group.2).toList) := by
  rw [targetStep, adsFeatures_eq]
  cases hbest : (Targeting.features (fetchedFeature faults db) group.2).argmin
      fun row => distance request.feature row.feature with
  | none =>
      rw [Targeting.representativeOf, hbest, List.argmin_eq_none.mp hbest]
      simp [pure, Except.pure]
  | some best =>
      rw [if_pos (List.length_pos_of_mem (List.argmin_mem hbest)), featureTargeting_eq hbest]
      exact congrArg Except.ok (Targeting.foldl_append_best hsorted hbest acc)

/-! ## The final sort -/

theorem less_iff (a b : Ads χ) : less a b ↔ rank a < rank b := by
  rw [rank, rank, Prod.Lex.toLex_lt_toLex, OrderDual.toDual_lt_toDual, OrderDual.toDual_inj, less]
  split
  · simp [*]
  · simp_all

theorem not_less_iff (a b : Ads χ) : less a b = false ↔ rank b ≤ rank a := by
  rw [← Bool.not_eq_true, less_iff, not_lt]

/-- The comparator suits `sort.Slice`. -/
theorem strictWeak_less : StrictWeak (less : Ads χ → Ads χ → Bool) where
  irrefl a := (not_less_iff a a).mpr le_rfl
  trans a b c hab hbc :=
    (less_iff a c).mpr (((less_iff a b).mp hab).trans ((less_iff b c).mp hbc))
  negTrans a b c hab hbc :=
    (not_less_iff a c).mpr (((not_less_iff b c).mp hbc).trans ((not_less_iff a b).mp hab))

theorem sortSlice_sorted (runtime : Runtime χ) (targetted : List (Ads χ)) :
    (runtime.sortSlice less targetted).Pairwise fun a b => rank a ≤ rank b :=
  (runtime.sortSlice_sorted less targetted strictWeak_less).imp fun h => (not_less_iff _ _).mp h

/-! ## The winner -/

variable [DecidableEq χ]

/-- The stages let the ad through to targeting, whatever is stored as its type. -/
structure Reaches (faults : Faults) (db : Database χ) (request : Request χ) (ads : Ads χ) :
    Prop where
  fetched : faults .adses = .success
  stored : ads ∈ db.adses
  size : SizePasses faults db request ads
  domain : domainKept faults db request ads
  category : blocked faults db request ads = false

/-- The ads that reach targeting and have a feature there. -/
def reaching (faults : Faults) (db : Database χ) (request : Request χ) : Set (Ads χ) :=
  {ads | Reaches faults db request ads ∧ FeaturePasses faults db ads}

/-- On documented types these are the ads that the faults let through. -/
theorem reaching_eq_admitted (htypes : DocumentedTypes db) :
    reaching faults db request = admitted faults db request := by
  ext ads
  have hblocked : ads ∈ db.adses → (blocked faults db request ads = false
      ↔ CategoryPasses faults db request ads) := fun h => by
    rw [blocked_eq (htypes.of_ads ads) h, Bool.not_eq_false', decide_eq_true_eq]
  refine and_congr_left fun _ => ⟨?_, ?_⟩
  · rintro ⟨hfetched, hstored, hsize, hdomain, hcategory⟩
    exact ⟨hfetched, hstored, hsize,
      (domainKept_iff faults request (htypes.of_ads ads) hstored).mp hdomain,
      (hblocked hstored).mp hcategory⟩
  · rintro ⟨hfetched, hstored, hsize, hdomain, hcategory⟩
    exact ⟨hfetched, hstored, hsize,
      (domainKept_iff faults request (htypes.of_ads ads) hstored).mpr hdomain,
      (hblocked hstored).mpr hcategory⟩

theorem reaching_stored {ads : Ads χ} (h : ads ∈ reaching faults db request) : ads ∈ db.adses :=
  h.1.stored

/-- What reaches targeting, once `fetchAdses` has returned no error. -/
theorem offers_eq {adses : List (Ads χ)}
    (h : adses = if faults .adses = .success then db.selectAdses else []) :
    Targeting.offers (fetchedFeature faults db)
        ((advertiserSatisfyDomain faults db request adses).filter fun ads =>
          !blocked faults db request ads)
      = reaching faults db request := by
  have hmem : ∀ ads, ads ∈ adses ↔ faults .adses = .success ∧ ads ∈ db.adses := by
    intro ads
    rw [h]
    split
    · simp [*, db.mem_selectAdses]
    · simp [*]
  ext ads
  simp only [Targeting.offers, reaching, Set.mem_ofPred_eq, List.mem_filter, decide_eq_true_eq,
    advertiserSatisfyDomain_kept, hmem, (fetchedFeature_spec faults db ads).1, Bool.not_eq_true']
  constructor
  · rintro ⟨⟨⟨⟨hfetched, hstored⟩, hsize, hdomain⟩, hcategory⟩, hfeature⟩
    exact ⟨⟨hfetched, hstored, hsize, hdomain, hcategory⟩, hfeature⟩
  · rintro ⟨⟨hfetched, hstored, hsize, hdomain, hcategory⟩, hfeature⟩
    exact ⟨⟨⟨⟨hfetched, hstored⟩, hsize, hdomain⟩, hcategory⟩, hfeature⟩

omit [DecidableEq χ] in
theorem near_eq :
    Targeting.near (fetchedFeature faults db) (distance request.feature)
      = near faults db request := by
  funext ads
  rw [Targeting.near, (fetchedFeature_spec faults db ads).2]
  rfl

variable (request) in
/-- Whatever the order of the map, targeting collects the representatives of the
ads that reach it. -/
theorem adsTargetted_eq (runtime : Runtime χ) {adses : List (Ads χ)}
    (hfetch : fetchAdses (faults .adses) db = (adses, none)) :
    ∃ targetted, (runtime.rangeMap (advertiserAdses faults db request adses)).foldlM
        (targetStep faults db request) [] = Except.ok targetted
      ∧ ∀ ads, ads ∈ targetted ↔ Selection.Representative (reaching faults db request)
          Ads.advertiserId (near faults db request) ads := by
  have hadses := stored_of_fetchAdses hfetch
  have hsorted : ((advertiserSatisfyDomain faults db request adses).filter fun ads =>
      !blocked faults db request ads).Pairwise fun a b => a.adsId < b.adsId := by
    rw [advertiserSatisfyDomain_kept, hadses]
    split
    · exact (db.selectAdses_sorted.filter _).filter _
    · exact List.Pairwise.nil
  have hgroups := (advertiserAdses_kept faults db request adses).perm (runtime.rangeMap_perm _)
  have hstep : ∀ acc, ∀ group ∈ runtime.rangeMap (advertiserAdses faults db request adses),
      targetStep faults db request acc group
        = .ok (acc ++ (Targeting.representativeOf (fetchedFeature faults db)
            (distance request.feature) group.2).toList) := by
    intro acc group hgroup
    refine targetStep_eq acc ?_
    rw [(hgroups.mem_iff.mp hgroup).1]
    exact hsorted.filter _
  refine ⟨_, Targeting.foldlM_representatives hstep, fun ads => ?_⟩
  rw [Targeting.mem_representatives hsorted hgroups, offers_eq hadses, near_eq]

theorem rank_injOn_reaching :
    Set.InjOn rank {ads : Ads χ | Selection.Representative (reaching faults db request)
      Ads.advertiserId (near faults db request) ads} :=
  injOn_lex_adsId fun _ h => reaching_stored h.1

variable (faults db request) in
/-- **The Go auction.** Whatever is stored, whatever fails and however the runtime
behaves, the handler does not panic, and the winner is the selected one among the
ads that reach targeting. -/
theorem auctionWinner_reaching (runtime : Runtime χ) :
    ∃ out, auctionWinner runtime faults db request = .ok out
      ∧ Selection.Selects out.toOption (Selection.Winner (reaching faults db request)
          Ads.advertiserId (near faults db request) rank) := by
  rcases hfetch : fetchAdses (faults .adses) db with ⟨adses, _ | err⟩
  · obtain ⟨targetted, hok, hmem⟩ := adsTargetted_eq request runtime hfetch
    have hselects := Selection.selects_head rank_injOn_reaching
      (fun ads => (runtime.sortSlice_perm less targetted).mem_iff.trans (hmem ads))
      (sortSlice_sorted runtime targetted)
    simp only [auctionWinner, hfetch, hok, bind, Except.bind]
    cases hsort : runtime.sortSlice less targetted with
    | nil =>
        rw [hsort] at hselects
        exact ⟨_, rfl, hselects⟩
    | cons winner rest =>
        rw [hsort] at hselects
        exact ⟨_, rfl, hselects⟩
  · refine ⟨.error err, by simp only [auctionWinner, hfetch]; rfl, fun ads => ?_⟩
    refine iff_of_false (by simp [Except.toOption]) fun hwinner => ?_
    have hreaches := hwinner.1.1
    rw [hreaches.1.fetched] at hfetch
    exact no_ads_of_fetchAdses hfetch ads hreaches.1.stored

variable (faults request) in
theorem auctionWinner_spec (runtime : Runtime χ) (htypes : DocumentedTypes db) :
    ∃ out, auctionWinner runtime faults db request = .ok out
      ∧ Selection.Selects out.toOption (Selection.Winner (admitted faults db request)
          Ads.advertiserId (near faults db request) rank) := by
  rw [← reaching_eq_admitted htypes]
  exact auctionWinner_reaching faults db request runtime

variable (faults db request) in
/-- The handler answers with the response for the winner. -/
theorem auction_reaching (runtime : Runtime χ) :
    ∃ out winner, auction runtime faults db request = .ok out
      ∧ bid out = winner.map (respond request)
      ∧ Selection.Selects winner (Selection.Winner (reaching faults db request)
          Ads.advertiserId (near faults db request) rank) := by
  obtain ⟨out, hout, hselects⟩ := auctionWinner_reaching faults db request runtime
  cases out with
  | error err => exact ⟨_, _, by rw [auction, hout]; rfl, rfl, hselects⟩
  | ok winner => exact ⟨_, _, by rw [auction, hout]; rfl, rfl, hselects⟩

variable (faults request) in
theorem auction_spec (runtime : Runtime χ) (htypes : DocumentedTypes db) :
    ∃ out winner, auction runtime faults db request = .ok out
      ∧ bid out = winner.map (respond request)
      ∧ Selection.Selects winner (Selection.Winner (admitted faults db request)
          Ads.advertiserId (near faults db request) rank) := by
  rw [← reaching_eq_admitted htypes]
  exact auction_reaching faults db request runtime

/-- Without faults, in the documented ranges, the selection is the documented one. -/
theorem auction_noFaults (runtime : Runtime χ) (htypes : DocumentedTypes db)
    (hfeatures : DocumentedFeatures db) (hr : DocumentedFeature request.feature) :
    ∃ out winner, auction runtime noFaults db request = .ok out
      ∧ bid out = winner.map (respond request)
      ∧ Selection.Selects winner (Documented.Winner db request) := by
  obtain ⟨out, winner, hout, hbid, hselects⟩ := auction_spec noFaults request runtime htypes
  rw [admitted_noFaults, near_noFaults hfeatures hr] at hselects
  exact ⟨out, winner, hout, hbid, hselects⟩

/-- **The Go auction against the documentation.** If every fetch succeeds, it returns
the documented result, whatever the order in which the map is ranged over and
whatever the sort does with equal elements. -/
theorem auction_documented (runtime : Runtime χ) (htypes : DocumentedTypes db)
    (hfeatures : DocumentedFeatures db) (hr : DocumentedFeature request.feature) :
    ∃ out, auction runtime noFaults db request = .ok out ∧ IsResult db request (bid out) := by
  obtain ⟨out, winner, hout, hbid, hselects⟩ := auction_noFaults runtime htypes hfeatures hr
  exact ⟨out, hout, hbid ▸ isResult_of_selects hselects⟩

theorem auction_documented_tieDatabase :
    ∃ out, auction stableRuntime noFaults tieDatabase tieRequest = .ok out
      ∧ IsResult tieDatabase tieRequest (bid out) :=
  auction_documented stableRuntime (by decide) (by decide) (by decide)

end Go

end AuctionWorker
