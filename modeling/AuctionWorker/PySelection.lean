import AuctionWorker.PyAuction
import AuctionWorker.Queries
import AuctionWorker.Targeting

/-!
# The Python auction selects a winner

With every access succeeding, on documented types and features, and with a
feature row for every ad, the Python auction does not raise. Its fetcher takes
the feature 0 for a missing one, so that the ads of this feature leave the
selection (`visible`); among the others the winner is the documented one
(`auctionWinner_eq`).
-/

namespace AuctionWorker

namespace Py

open Documented

variable {χ : Type} {db : Database χ} {request : Request χ}

/-! ## The filters -/

theorem sizeStep_eq (acc : List (Ads χ)) (ads : Ads χ) :
    sizeStep plainConnector db request acc ads
      = .ok (if decide (SizeMatches db request ads) then acc ++ [ads] else acc) := by
  rcases selectAdSize_cases db request ads with ⟨row, hsel, hiff⟩ | ⟨hsel, hno⟩
  · simp only [sizeStep, fetchAdSize, plainConnector, hsel, hiff, decide_eq_true_eq]
    show (if _ then Except.ok _ else Except.ok _) = _
    split <;> rfl
  · simp only [sizeStep, fetchAdSize, plainConnector, hsel, hno]
    rfl

section Domain

variable [DecidableEq χ]

omit [DecidableEq χ] in
theorem fetchAdvertiser_of_stored {ads : Ads χ} (htype : TypeDocumented db ads)
    (h : ads ∈ db.adses) :
    ∃ row ∈ db.advertisers, row.advertiserId = ads.advertiserId
      ∧ fetchAdvertiser plainConnector db ads.advertiserId
        = .ok (some ⟨ads.advertiserId, row.advertiserName,
            if row.categoryBlockingType = some denyType then .DENY else .ALLOW, row.domain⟩) := by
  obtain ⟨row, hrow, hid, hsel⟩ := selectAdvertiser_of_stored h
  refine ⟨row, hrow, hid, ?_⟩
  simp only [fetchAdvertiser, plainConnector, hsel]
  rcases htype row hrow hid with htype | htype
  · rw [htype]
    rfl
  · rw [htype]
    rfl

/-- The domain stage keeps the ad; a type that the enumeration does not know raises. -/
def domainKept (db : Database χ) (request : Request χ) (ads : Ads χ) : Except PyException Bool :=
  (fetchAdvertiser plainConnector db ads.advertiserId).map fun fetched =>
    fetched.any fun advertiser => !isContainedBlockDomain request.blockDomains advertiser.domain

theorem domainStep_eq (acc : List (Ads χ)) (ads : Ads χ) :
    domainStep plainConnector db request acc ads
      = (domainKept db request ads).map fun keep => if keep then acc ++ [ads] else acc := by
  unfold domainStep domainKept
  rcases fetchAdvertiser plainConnector db ads.advertiserId with err | _ | advertiser
  · rfl
  · rfl
  · show (if isContainedBlockDomain request.blockDomains advertiser.domain then Except.ok acc
      else Except.ok (acc ++ [ads])) = Except.ok _
    cases hblock : isContainedBlockDomain request.blockDomains advertiser.domain
    · simp [hblock]
    · simp [hblock]

omit [DecidableEq χ] in
theorem adsesSatisfySize_eq :
    db.selectAdses.foldlM (sizeStep plainConnector db request) []
      = .ok (db.selectAdses.filter fun ads => SizeMatches db request ads) :=
  (Loops.foldlM_eq_pure (fun acc ads _ => sizeStep_eq acc ads) []).trans
    (congrArg Except.ok (Loops.foldl_eq_filter (fun _ _ _ => rfl) []))

theorem adsSatisfyDomain_eq_foldlM :
    adsSatisfyDomain plainConnector db request
      = (db.selectAdses.filter fun ads => SizeMatches db request ads).foldlM
          (domainStep plainConnector db request) [] := by
  unfold adsSatisfyDomain fetchAdses
  show (db.selectAdses.foldlM (sizeStep plainConnector db request) [] >>= _) = _
  rw [adsesSatisfySize_eq]
  rfl

/-- The domain stage completes exactly if every ad of the requested size is tested
without an exception. -/
theorem adsSatisfyDomain_eq_ok_iff {reached : List (Ads χ)} :
    adsSatisfyDomain plainConnector db request = .ok reached
      ↔ (∀ ads ∈ db.adses, SizeMatches db request ads
          → ∃ keep, domainKept db request ads = .ok keep)
        ∧ reached = (db.selectAdses.filter fun ads => SizeMatches db request ads).filter
          fun ads => (domainKept db request ads).toOption.getD false := by
  rw [adsSatisfyDomain_eq_foldlM,
    Loops.foldlM_filter_eq_ok_iff fun acc ads _ => domainStep_eq acc ads]
  simp only [List.mem_filter, db.mem_selectAdses, decide_eq_true_eq, and_imp]

variable (request) in
/-- Where the fetch delivers, the stage decides by the stored domain. -/
theorem domainKept_of_fetch {ads : Ads χ} {advertiser : Advertiser χ CategoryBlockingType}
    (h : ads ∈ db.adses)
    (hfetch : fetchAdvertiser plainConnector db ads.advertiserId = .ok (some advertiser)) :
    domainKept db request ads = .ok (decide (DomainAllowed db request ads)) := by
  obtain ⟨row, hrow, hid, hsel⟩ := selectAdvertiser_of_stored h
  have hdomain : advertiser.domain = row.domain := by
    unfold fetchAdvertiser plainConnector at hfetch
    simp only [hsel] at hfetch
    cases htype : CategoryBlockingType.ofColumn row.categoryBlockingType with
    | error err =>
        rw [htype] at hfetch
        cases hfetch
    | ok type =>
        rw [htype] at hfetch
        obtain rfl := Option.some.inj (Except.ok.inj hfetch)
        rfl
  have hiff : isContainedBlockDomain request.blockDomains row.domain = true
      ↔ ¬DomainAllowed db request ads := blocks_iff_not_allowed hrow hid
  rw [domainKept, hfetch]
  refine congrArg Except.ok ?_
  rw [Bool.eq_iff_iff]
  simp [← Bool.not_eq_true, hdomain, hiff]

variable (request) in
/-- The decision of the domain stage on a documented type. -/
theorem domainKept_eq {ads : Ads χ} (htype : TypeDocumented db ads) (h : ads ∈ db.adses) :
    domainKept db request ads = .ok (decide (DomainAllowed db request ads)) := by
  obtain ⟨row, -, -, hfetch⟩ := fetchAdvertiser_of_stored htype h
  exact domainKept_of_fetch request h hfetch

/-- The ads that reach the category stage. -/
theorem adsSatisfyDomain_of_sizedTypes (htypes : SizedTypes db request) :
    adsSatisfyDomain plainConnector db request
      = .ok (db.selectAdses.filter fun ads =>
          SizeMatches db request ads ∧ DomainAllowed db request ads) := by
  refine adsSatisfyDomain_eq_ok_iff.mpr ⟨fun ads hstored hsize => ?_, ?_⟩
  · exact ⟨_, domainKept_eq request (htypes ads hstored hsize) hstored⟩
  · rw [List.filter_filter]
    refine List.filter_congr fun ads hads => ?_
    have hstored := db.mem_selectAdses.mp hads
    by_cases hsize : SizeMatches db request ads
    · simp [domainKept_eq request (htypes ads hstored hsize) hstored, hsize, Except.toOption]
    · simp [hsize]

theorem adsSatisfyDomain_eq (htypes : DocumentedTypes db) :
    adsSatisfyDomain plainConnector db request
      = .ok (db.selectAdses.filter fun ads =>
          SizeMatches db request ads ∧ DomainAllowed db request ads) :=
  adsSatisfyDomain_of_sizedTypes fun ads _ _ => htypes.of_ads ads

end Domain

/-! ## The category stage -/

theorem categoryBlocking_stored (advertiser : Advertiser χ CategoryBlockingType)
    (advertiserId : ℕ) :
    categoryBlocking advertiser ⟨advertiserId, db.selectCategoryIds advertiserId⟩
        request.categoryIds
      = if advertiser.categoryBlockingType = .ALLOW then
          !decide (CategoriesMeet db request advertiserId)
        else decide (CategoriesMeet db request advertiserId) := by
  have hfold : (db.selectCategoryIds advertiserId).foldl
      (fun includingAds categoryId => includingAds || request.categoryIds.contains categoryId)
      false
      = decide (CategoriesMeet db request advertiserId) := by
    rw [Loops.foldl_eq_any (fun _ _ => rfl), Bool.false_or, Bool.eq_iff_iff]
    simp [categoriesMeet_iff]
  unfold categoryBlocking
  rw [hfold]

/-- The decision of the category stage on a documented type. -/
theorem blocked_eq {ads : Ads χ} (htype : TypeDocumented db ads) (h : ads ∈ db.adses) :
    blocked plainConnector db request ads = .ok (!decide (CategoryAllowed db request ads)) := by
  obtain ⟨row, hrow, hid, hfetch⟩ := fetchAdvertiser_of_stored htype h
  have hblocked : blocked plainConnector db request ads
      = .ok (if db.selectCategoryIds ads.advertiserId = [] then false
          else categoryBlocking (χ := χ) ⟨ads.advertiserId, row.advertiserName,
            if row.categoryBlockingType = some denyType then .DENY else .ALLOW, row.domain⟩
            ⟨ads.advertiserId, db.selectCategoryIds ads.advertiserId⟩ request.categoryIds) := by
    rw [blocked, hfetch]
    unfold fetchCategoryBlocking plainConnector
    cases db.selectCategoryIds ads.advertiserId <;> rfl
  rw [hblocked]
  by_cases hcats : db.selectCategoryIds ads.advertiserId = []
  · simp [hcats, categoryAllowed_of_nil hcats]
  · rcases htype row hrow hid with htype | htype
    · have hiff := categoryAllowed_allow request hrow hid htype hcats
      simp [hcats, htype, categoryBlocking_stored, hiff]
    · have hiff := categoryAllowed_deny request hrow hid htype hcats
      simp [hcats, htype, categoryBlocking_stored, hiff]

section Groups

variable [DecidableEq χ]

/-- The ads that targeting is given, in the order of their ids. -/
def eligibleAdses (db : Database χ) (request : Request χ) : List (Ads χ) :=
  (db.selectAdses.filter fun ads =>
    SizeMatches db request ads ∧ DomainAllowed db request ads).filter
      fun ads => CategoryAllowed db request ads

theorem mem_eligibleAdses {ads : Ads χ} :
    ads ∈ eligibleAdses db request ↔ Eligible db request ads := by
  simp only [eligibleAdses, List.mem_filter, decide_eq_true_eq, db.mem_selectAdses]
  exact ⟨fun ⟨⟨hstored, hsize, hdomain⟩, hcategory⟩ => ⟨hstored, hsize, hdomain, hcategory⟩,
    fun ⟨hstored, hsize, hdomain, hcategory⟩ => ⟨⟨hstored, hsize, hdomain⟩, hcategory⟩⟩

/-- The groups of targeting, one for each advertiser of an eligible ad. -/
def eligibleGroups (db : Database χ) (request : Request χ) : List (ℕ × List (Ads χ)) :=
  (eligibleAdses db request).foldl
    (fun groups ads => Grouping.pushBack groups ads.advertiserId ads) []

theorem groups_eligibleGroups (db : Database χ) (request : Request χ) :
    Grouping.Groups Ads.advertiserId (eligibleAdses db request) (eligibleGroups db request) := by
  have hgroups := Grouping.groups_foldl Ads.advertiserId (fun _ => true)
    (fun (_ : List (ℕ × List (Ads χ))) _ => rfl) (eligibleAdses db request) Grouping.groups_nil
  rwa [List.nil_append, List.filter_true] at hgroups

/-- The category stage groups the eligible ads. -/
theorem advertiserAdses_eq_eligibleGroups (htypes : SizedTypes db request) :
    advertiserAdses plainConnector db request = .ok (eligibleGroups db request) := by
  have hstep : ∀ groups, ∀ ads ∈ db.selectAdses.filter fun ads =>
      SizeMatches db request ads ∧ DomainAllowed db request ads,
      categoryStep plainConnector db request groups ads
        = pure (if decide (CategoryAllowed db request ads)
            then Grouping.pushBack groups ads.advertiserId ads else groups) := by
    intro groups ads h
    obtain ⟨hmem, hreach⟩ := List.mem_filter.mp h
    have hstored := db.mem_selectAdses.mp hmem
    rw [categoryStep, blocked_eq (htypes ads hstored (of_decide_eq_true hreach).1) hstored]
    cases decide (CategoryAllowed db request ads) <;> rfl
  rw [advertiserAdses, adsSatisfyDomain_of_sizedTypes htypes, eligibleGroups, eligibleAdses,
    List.foldl_filter]
  exact Loops.foldlM_eq_pure hstep []

end Groups

variable (request) in
theorem advertiserAdses_of_sizedTypes [DecidableEq χ] (htypes : SizedTypes db request) :
    ∃ groups, advertiserAdses plainConnector db request = .ok groups
      ∧ Grouping.Groups Ads.advertiserId
          ((db.selectAdses.filter fun ads =>
              SizeMatches db request ads ∧ DomainAllowed db request ads).filter
            fun ads => CategoryAllowed db request ads) groups :=
  ⟨_, advertiserAdses_eq_eligibleGroups htypes, groups_eligibleGroups db request⟩

variable (request) in
theorem advertiserAdses_eq [DecidableEq χ] (htypes : DocumentedTypes db) :
    ∃ groups, advertiserAdses plainConnector db request = .ok groups
      ∧ Grouping.Groups Ads.advertiserId
          ((db.selectAdses.filter fun ads =>
              SizeMatches db request ads ∧ DomainAllowed db request ads).filter
            fun ads => CategoryAllowed db request ads) groups :=
  advertiserAdses_of_sizedTypes request fun ads _ _ => htypes.of_ads ads

/-! ## Targeting -/

/-- The feature the fetch delivers: 0 counts as missing. -/
def fetchedFeature (db : Database χ) (ads : Ads χ) : Option ℤ :=
  if featureOf db ads.adsId = 0 then none else some (featureOf db ads.adsId)

/-- The offers whose feature the fetch delivers. -/
def visible (db : Database χ) (request : Request χ) : Set (Ads χ) :=
  {ads | ads ∈ Documented.offers db request ∧ featureOf db ads.adsId ≠ 0}

theorem fetchAdsFeature_eq {ads : Ads χ} (h : HasFeature db ads) :
    fetchAdsFeature plainConnector db ads.adsId
      = .ok ((fetchedFeature db ads).map fun feature => ⟨ads.adsId, feature⟩) := by
  rcases selectAdsFeature_cases db ads with ⟨row, hsel, -, -, hf⟩ | ⟨-, hno, -⟩
  · unfold fetchAdsFeature plainConnector fetchedFeature
    simp only [hsel, hf]
    split
    · simp [*]
    · simp [*]
  · exact absurd h hno

theorem adsFeatures_eq {adses : List (Ads χ)} (h : ∀ ads ∈ adses, HasFeature db ads) :
    adsFeatures plainConnector db adses
      = .ok (Targeting.features (fetchedFeature db) adses) := by
  have hstep : ∀ acc, ∀ ads ∈ adses, featureStep plainConnector db acc ads
      = pure (acc ++ ((fetchedFeature db ads).map fun feature =>
          (⟨ads.adsId, feature⟩ : AdsFeature)).toList) := by
    intro acc ads hads
    rw [featureStep, fetchAdsFeature_eq (h ads hads)]
    cases fetchedFeature db ads with
    | none =>
        rw [Option.map_none, Option.toList_none, List.append_nil]
        rfl
    | some feature => rfl
  refine (Loops.foldlM_eq_pure hstep []).trans (congrArg Except.ok ?_)
  exact (Loops.foldl_eq_filterMap (fun _ _ _ => rfl) []).trans (List.nil_append _)

/-- The distance the targeting minimises. -/
def dist (requestFeature feature : ℤ) : ℤ :=
  |requestFeature - feature|

/-- The scan finds the first nearest feature: in the documented range its
sentinel exceeds every distance. -/
theorem featureTargeting_eq {adsFeatures : List AdsFeature} {requestFeature : ℤ}
    {best : AdsFeature} (hr : DocumentedFeature requestFeature)
    (hf : ∀ row ∈ adsFeatures, DocumentedFeature row.feature)
    (h : adsFeatures.argmin (fun row => dist requestFeature row.feature) = some best) :
    featureTargeting adsFeatures requestFeature = .ok best := by
  have hlt : ∀ row ∈ adsFeatures, dist requestFeature row.feature < maxsize := fun row hrow =>
    lt_of_le_of_lt (hr.abs_sub_le (hf row hrow)) (by decide)
  have hscan := (Loops.sentinelScan_eq_argmin hlt).trans h
  unfold dist at hscan
  unfold featureTargeting
  dsimp only
  rw [hscan]

theorem documented_of_mem_features (hfeatures : DocumentedFeatures db) {adses : List (Ads χ)}
    {row : AdsFeature} (h : row ∈ Targeting.features (fetchedFeature db) adses) :
    DocumentedFeature row.feature := by
  obtain ⟨ads, -, -, hfeat⟩ := Targeting.mem_features.mp h
  unfold fetchedFeature at hfeat
  split at hfeat
  · cases hfeat
  · exact Option.some.inj hfeat ▸ documented_featureOf hfeatures ads.adsId

/-- One advertiser sends its representative, if it has one. -/
theorem targetStep_eq (hfeatures : DocumentedFeatures db) (hr : DocumentedFeature request.feature)
    (acc : List (Ads χ)) {group : ℕ × List (Ads χ)}
    (hhas : ∀ ads ∈ group.2, HasFeature db ads)
    (hsorted : group.2.Pairwise fun a b => a.adsId < b.adsId) :
    targetStep plainConnector db request acc group
      = .ok (acc ++ (Targeting.representativeOf (fetchedFeature db) (dist request.feature)
          group.2).toList) := by
  rw [targetStep, adsFeatures_eq hhas]
  cases hbest : (Targeting.features (fetchedFeature db) group.2).argmin
      fun row => dist request.feature row.feature with
  | none =>
      rw [Targeting.representativeOf, hbest, List.argmin_eq_none.mp hbest, Option.bind_none,
        Option.toList_none, List.append_nil]
      rfl
  | some best =>
      have htargeting := featureTargeting_eq hr
        (fun row h => documented_of_mem_features hfeatures h) hbest
      show (if 0 < (Targeting.features (fetchedFeature db) group.2).length then _
        else Except.ok acc) = _
      rw [if_pos (List.length_pos_of_mem (List.argmin_mem hbest)), htargeting]
      exact congrArg Except.ok (Targeting.foldl_append_best hsorted hbest acc)

theorem visible_stored {ads : Ads χ} (h : ads ∈ visible db request) : ads ∈ db.adses :=
  offers_stored h.1

theorem visible_finite : (visible db request).Finite :=
  (List.finite_toSet db.adses).subset fun _ => visible_stored

theorem visible_eq_offers (h : ∀ ads ∈ Documented.offers db request, featureOf db ads.adsId ≠ 0) :
    visible db request = Documented.offers db request :=
  Set.sep_eq_self_iff_mem_true.mpr h

/-- If every ad has a feature row, targeting sees the visible offers. -/
theorem offers_eq [DecidableEq χ] (hhas : ∀ ads ∈ db.adses, HasFeature db ads) :
    Targeting.offers (fetchedFeature db)
        ((db.selectAdses.filter fun ads =>
            SizeMatches db request ads ∧ DomainAllowed db request ads).filter
          fun ads => CategoryAllowed db request ads)
      = visible db request := by
  have hseen : ∀ ads : Ads χ, (fetchedFeature db ads).isSome ↔ featureOf db ads.adsId ≠ 0 := by
    intro ads
    unfold fetchedFeature
    split <;> simp [*]
  ext ads
  simp only [Targeting.offers, visible, Documented.offers, Set.mem_ofPred_eq, List.mem_filter,
    decide_eq_true_eq, db.mem_selectAdses, hseen]
  constructor
  · rintro ⟨⟨⟨hstored, hsize, hdomain⟩, hcategory⟩, hne⟩
    exact ⟨⟨⟨hstored, hsize, hdomain, hcategory⟩, hhas ads hstored⟩, hne⟩
  · rintro ⟨⟨⟨hstored, hsize, hdomain, hcategory⟩, -⟩, hne⟩
    exact ⟨⟨⟨hstored, hsize, hdomain⟩, hcategory⟩, hne⟩

theorem near_eq : Targeting.near (fetchedFeature db) (dist request.feature)
    = Documented.near (χ := χ) db request := by
  funext ads
  have hseen : (fetchedFeature db ads).getD 0 = featureOf db ads.adsId := by
    unfold fetchedFeature
    split <;> simp [*]
  rw [Targeting.near, hseen, dist, abs_sub_comm]
  rfl

/-! ## The final sort -/

theorem sortKey_le_iff (a b : Ads χ) : sortKey b ≤ sortKey a ↔ rank a ≤ rank b := by
  rw [sortKey, sortKey, rank, rank, Prod.Lex.toLex_le_toLex, Prod.Lex.toLex_le_toLex,
    OrderDual.toDual_lt_toDual, OrderDual.toDual_inj]
  dsimp only
  omega

theorem sortReverse_sorted (targetted : List (Ads χ)) :
    (sortReverse targetted).Pairwise fun a b => rank a ≤ rank b := by
  have : Std.Total fun a b : Ads χ => sortKey b ≤ sortKey a := ⟨fun _ _ => le_total _ _⟩
  have : IsTrans (Ads χ) fun a b => sortKey b ≤ sortKey a := ⟨fun _ _ _ h h' => h'.trans h⟩
  exact (List.pairwise_insertionSort _ _).imp fun h => (sortKey_le_iff _ _).mp h

/-! ## The winner -/

/-- **The Python auction.** If every ad has a feature row it does not raise, and
its winner is the documented selection among the visible offers. -/
theorem auctionWinner_eq [DecidableEq χ] (htypes : DocumentedTypes db)
    (hfeatures : DocumentedFeatures db) (hhas : ∀ ads ∈ db.adses, HasFeature db ads)
    (hr : DocumentedFeature request.feature) :
    ∃ winner, auctionWinner plainConnector db request = .ok winner
      ∧ Selection.Selects winner (Selection.Winner (visible db request) Ads.advertiserId
          (Documented.near db request) rank) := by
  obtain ⟨groups, hok, hgroups⟩ := advertiserAdses_eq request htypes
  have hsorted := (db.selectAdses_sorted.filter fun ads =>
      decide (SizeMatches db request ads ∧ DomainAllowed db request ads)).filter
    fun ads => decide (CategoryAllowed db request ads)
  have hstep : ∀ acc, ∀ group ∈ groups, targetStep plainConnector db request acc group
      = .ok (acc ++ (Targeting.representativeOf (fetchedFeature db) (dist request.feature)
          group.2).toList) := by
    intro acc group hgroup
    have hgroup_eq := (hgroups.mem_iff.mp hgroup).1
    refine targetStep_eq hfeatures hr acc (fun ads hads => ?_) ?_
    · rw [hgroup_eq] at hads
      have hmem := List.mem_of_mem_filter (List.mem_of_mem_filter (List.mem_of_mem_filter hads))
      exact hhas ads (db.mem_selectAdses.mp hmem)
    · rw [hgroup_eq]
      exact hsorted.filter _
  have hfold := Targeting.foldlM_representatives hstep
  refine ⟨(sortReverse (Targeting.representatives (fetchedFeature db) (dist request.feature)
    groups)).head?, ?_, ?_⟩
  · rw [auctionWinner, hok]
    show (groups.foldlM (targetStep plainConnector db request) [] >>= _) = _
    rw [hfold]
    rfl
  · refine Selection.selects_head (injOn_lex_adsId fun _ h => visible_stored h.1)
      (fun ads => ?_) (sortReverse_sorted _)
    rw [sortReverse, List.mem_insertionSort, Targeting.mem_representatives hsorted hgroups,
      offers_eq hhas, near_eq]

end Py

end AuctionWorker
