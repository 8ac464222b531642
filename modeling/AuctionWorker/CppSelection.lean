import AuctionWorker.CppAuction
import AuctionWorker.Loops
import AuctionWorker.Queries
import AuctionWorker.Targeting

/-!
# The C++ auction selects a winner

Stage by stage, what the loops of the C++ auction compute from the stored rows, on
a database with documented types:

- size and domain filter the ads in the order of their ids
  (`adsSatisfyDomain_eq`);
- the category stage groups the eligible ads by advertiser and never terminates
  the process (`advertiserAdses_eq`);
- targeting collects the candidates of the documentation in the order of their
  advertisers, or overflows in the distance of two offers that it compares
  (`adsTargetted_cases`);
- the stable sort breaks ties of the price by that order, so that the winner is
  the least candidate for `advertiserRank`, which is not the documented `rank`
  (`auctionWinner_cases`).

In the documented ranges no distance overflows (`Exact`), and the auction returns
(`auctionWinner_eq`).
-/

namespace AuctionWorker

namespace Cpp

open Documented

variable {χ : Type} [DecidableEq χ] {db : Database χ} {request : Request χ}

/-! ## The filters -/

omit [DecidableEq χ] in
theorem sizeStep_eq (acc : List (Ads χ)) (ads : Ads χ) :
    sizeStep db request acc ads
      = if decide (SizeMatches db request ads) then acc ++ [ads] else acc := by
  rcases selectAdSize_cases db request ads with ⟨row, hsel, hiff⟩ | ⟨hsel, hno⟩
  · simp only [sizeStep, fetchAdSize, hsel, hiff, decide_eq_true_eq]
  · simp [sizeStep, fetchAdSize, hsel, hno]

omit [DecidableEq χ] in
theorem adsesSatisfySize_eq :
    adsesSatisfySize db request = db.selectAdses.filter fun ads => SizeMatches db request ads :=
  Loops.foldl_eq_filter (fun acc ads _ => sizeStep_eq acc ads) []

omit [DecidableEq χ] in
theorem mem_adsesSatisfySize {ads : Ads χ} :
    ads ∈ adsesSatisfySize db request ↔ ads ∈ db.adses ∧ SizeMatches db request ads := by
  rw [adsesSatisfySize_eq, mem_sized]

omit [DecidableEq χ] in
theorem fetchAdvertiser_of_stored {ads : Ads χ} (h : ads ∈ db.adses) :
    ∃ row ∈ db.advertisers, row.advertiserId = ads.advertiserId
      ∧ fetchAdvertiser db ads.advertiserId
        = some ⟨ads.advertiserId, row.advertiserName,
            (row.categoryBlockingType.map fun type => (type.val : ℤ)).getD 0, row.domain⟩ := by
  obtain ⟨row, hrow, hid, hsel⟩ := selectAdvertiser_of_stored h
  refine ⟨row, hrow, hid, ?_⟩
  simp only [fetchAdvertiser, hsel]
  cases row.categoryBlockingType <;> rfl

variable (request) in
theorem domainStep_eq (acc : List (Ads χ)) {ads : Ads χ} (h : ads ∈ db.adses) :
    domainStep db request acc ads
      = if decide (DomainAllowed db request ads) then acc ++ [ads] else acc := by
  obtain ⟨row, hrow, hid, hfetch⟩ := fetchAdvertiser_of_stored h
  have hiff : isContainBlockDomain request.blockDomains row.domain = true
      ↔ ¬DomainAllowed db request ads := blocks_iff_not_allowed hrow hid
  simp only [domainStep, hfetch]
  by_cases hd : DomainAllowed db request ads
  · simp [hiff, hd]
  · simp [hiff, hd]

/-- The ads that reach the category stage. -/
theorem adsSatisfyDomain_eq :
    adsSatisfyDomain db request
      = db.selectAdses.filter fun ads =>
          SizeMatches db request ads ∧ DomainAllowed db request ads := by
  have hstored : ∀ ads ∈ adsesSatisfySize db request, ads ∈ db.adses := by
    intro ads h
    rw [adsesSatisfySize_eq] at h
    exact db.mem_selectAdses.mp (List.mem_of_mem_filter h)
  have hfold := Loops.foldl_eq_filter
    (fun acc ads h => domainStep_eq request acc (hstored ads h)) []
  rw [adsSatisfyDomain, hfold, adsesSatisfySize_eq, List.nil_append, List.filter_filter]
  exact List.filter_congr fun ads _ => by simp [and_comm]

theorem mem_adsSatisfyDomain {ads : Ads χ} :
    ads ∈ adsSatisfyDomain db request
      ↔ ads ∈ db.adses ∧ SizeMatches db request ads ∧ DomainAllowed db request ads := by
  simp [adsSatisfyDomain_eq, db.mem_selectAdses]

/-! ## The category stage -/

omit [DecidableEq χ] in
theorem fetchCategoryBlocking_eq (advertiserId : ℕ) :
    fetchCategoryBlocking db advertiserId
      = if db.selectCategoryIds advertiserId = [] then none
        else some ⟨advertiserId, db.selectCategoryIds advertiserId⟩ := by
  simp [fetchCategoryBlocking]

omit [DecidableEq χ] in
theorem includingIds_eq (advertiserId : ℕ) :
    (db.selectCategoryIds advertiserId).any
      (fun categoryId => request.categoryIds.contains categoryId)
      = decide (CategoriesMeet db request advertiserId) := by
  rw [Bool.eq_iff_iff]
  simp [categoriesMeet_iff]

omit [DecidableEq χ] in
/-- The decision of the category stage on a documented type. -/
theorem blocked_eq {ads : Ads χ} (htype : TypeDocumented db ads) (h : ads ∈ db.adses) :
    blocked db request ads = .ok (!decide (CategoryAllowed db request ads)) := by
  obtain ⟨row, hrow, hid, hfetch⟩ := fetchAdvertiser_of_stored h
  rw [blocked, hfetch, fetchCategoryBlocking_eq]
  by_cases hcats : db.selectCategoryIds ads.advertiserId = []
  · simp [hcats, categoryAllowed_of_nil hcats]
  · simp only [hcats, if_false, categoryBlocking, includingIds_eq]
    rcases htype row hrow hid with htype | htype
    · have hiff := categoryAllowed_allow request hrow hid htype hcats
      simp [htype, ALLOW, hiff]
    · have hiff := categoryAllowed_deny request hrow hid htype hcats
      simp [htype, ALLOW, DENY, hiff]

variable (request) in
/-- The groups of the eligible ads, advertiser by advertiser. -/
theorem advertiserAdses_of_sizedTypes (htypes : SizedTypes db request) :
    ∃ groups, advertiserAdses db request = .ok groups
      ∧ Grouping.Groups Ads.advertiserId
          ((adsSatisfyDomain db request).filter fun ads => CategoryAllowed db request ads) groups
      ∧ (groups.map Prod.fst).Pairwise (· < ·) := by
  have hstep : ∀ groups, ∀ ads ∈ adsSatisfyDomain db request,
      categoryStep db request groups ads
        = pure (if decide (CategoryAllowed db request ads)
            then Grouping.pushBackOrd groups ads.advertiserId ads else groups) := by
    intro groups ads h
    obtain ⟨hstored, hsize, -⟩ := mem_adsSatisfyDomain.mp h
    rw [categoryStep, blocked_eq (htypes ads hstored hsize) hstored]
    cases decide (CategoryAllowed db request ads) <;> rfl
  have hgroups := Grouping.groups_foldl_ord Ads.advertiserId
    (fun ads => decide (CategoryAllowed db request ads)) (fun _ _ => rfl)
    (adsSatisfyDomain db request) Grouping.groups_nil List.Pairwise.nil
  exact ⟨_, Loops.foldlM_eq_pure hstep [], hgroups⟩

variable (request) in
theorem advertiserAdses_eq (htypes : DocumentedTypes db) :
    ∃ groups, advertiserAdses db request = .ok groups
      ∧ Grouping.Groups Ads.advertiserId
          ((adsSatisfyDomain db request).filter fun ads => CategoryAllowed db request ads) groups
      ∧ (groups.map Prod.fst).Pairwise (· < ·) :=
  advertiserAdses_of_sizedTypes request fun ads _ _ => htypes.of_ads ads

/-! ## Targeting -/

/-- The feature the fetch delivers. -/
def fetchedFeature (db : Database χ) (ads : Ads χ) : Option ℤ :=
  (fetchAdsFeature db ads.adsId).map AdsFeature.feature

omit [DecidableEq χ] in
theorem fetchedFeature_spec (db : Database χ) (ads : Ads χ) :
    ((fetchedFeature db ads).isSome ↔ HasFeature db ads)
      ∧ (fetchedFeature db ads).getD 0 = featureOf db ads.adsId := by
  rcases selectAdsFeature_cases db ads with ⟨row, hsel, -, hhas, hf⟩ | ⟨hsel, hno, hf⟩
  · simp [fetchedFeature, fetchAdsFeature, hsel, hhas, hf]
  · simp [fetchedFeature, fetchAdsFeature, hsel, hno, hf]

omit [DecidableEq χ] in
theorem adsFeatures_eq (adses : List (Ads χ)) :
    adsFeatures db adses = Targeting.features (fetchedFeature db) adses := by
  rw [adsFeatures, Targeting.features, ← List.nil_append (List.filterMap _ adses)]
  refine Loops.foldl_eq_filterMap (fun acc ads _ => ?_) []
  unfold fetchedFeature fetchAdsFeature
  cases db.selectAdsFeature ads.adsId <;> simp

/-- The distance the targeting minimises. -/
def dist (requestFeature feature : ℤ) : ℤ :=
  |feature - requestFeature|

/-- The arithmetic is exact or overflows. -/
theorem distance_eq (requestFeature feature : ℤ) :
    distance requestFeature feature
      = if dist requestFeature feature < 2 ^ 31 then .ok (dist requestFeature feature)
        else .error .signedOverflow := by
  have habs : (if requestFeature - feature < 0 then -(requestFeature - feature)
      else requestFeature - feature) = dist requestFeature feature := by
    unfold dist
    rw [abs_eq_max_neg]
    omega
  by_cases hsub : -2 ^ 31 ≤ requestFeature - feature ∧ requestFeature - feature < 2 ^ 31
  · have hint : int32 (requestFeature - feature) = .ok (requestFeature - feature) := if_pos hsub
    rw [distance, hint]
    show int32 (if requestFeature - feature < 0 then _ else _) = _
    rw [habs, int32]
    have hnonneg : 0 ≤ dist requestFeature feature := abs_nonneg _
    simp only [show -2 ^ 31 ≤ dist requestFeature feature by omega, true_and]
  · have hint : int32 (requestFeature - feature) = .error .signedOverflow := if_neg hsub
    have hlarge : ¬dist requestFeature feature < 2 ^ 31 := by
      rw [← habs]
      omega
    rw [distance, hint, if_neg hlarge]
    rfl

/-- One comparison needs both distances. -/
theorem minStep_eq (requestFeature : ℤ) (result tmp : AdsFeature) :
    minStep requestFeature result tmp
      = if dist requestFeature result.feature < 2 ^ 31 ∧ dist requestFeature tmp.feature < 2 ^ 31
        then .ok (if dist requestFeature tmp.feature < dist requestFeature result.feature then tmp
          else result)
        else .error .signedOverflow := by
  rw [minStep, distance_eq, distance_eq]
  by_cases htmp : dist requestFeature tmp.feature < 2 ^ 31
  · by_cases hresult : dist requestFeature result.feature < 2 ^ 31
    · simp only [htmp, hresult, if_true, and_self]
      rfl
    · simp only [htmp, hresult, if_true, if_false, false_and]
      rfl
  · simp only [htmp, if_false, and_false]
    rfl

/-- The rows whose minimum is computed without an overflow: a single row is not
compared at all. -/
def Comparable (requestFeature : ℤ) (rows : List AdsFeature) : Prop :=
  rows.length ≤ 1 ∨ ∀ row ∈ rows, dist requestFeature row.feature < 2 ^ 31

/-- Among different rows, those that are compared with another one. -/
theorem comparable_iff_of_nodup {requestFeature : ℤ} {rows : List AdsFeature}
    (hnd : rows.Nodup) :
    Comparable requestFeature rows
      ↔ ∀ a ∈ rows, ∀ b ∈ rows, a ≠ b → dist requestFeature a.feature < 2 ^ 31 := by
  constructor
  · rintro (hlen | hall) a ha b hb hne
    · cases rows with
      | nil => cases ha
      | cons row rest =>
          have hnil : rest = [] := List.length_eq_zero_iff.mp (by simpa using hlen)
          subst hnil
          exact absurd ((List.mem_singleton.mp ha).trans (List.mem_singleton.mp hb).symm) hne
    · exact hall a ha
  · intro h
    refine or_iff_not_imp_left.mpr fun hlen a ha => ?_
    have hother : rows = [] ∨ ∃ b ∈ rows, b ≠ a :=
      (hnd.ne_singleton_iff a).mp fun heq => hlen (by simp [heq])
    rcases hother with rfl | ⟨b, hb, hne⟩
    · cases ha
    · exact h a ha b hb hne.symm

/-- One comparison on, the rows are comparable if its two are and the rest is. -/
theorem comparable_cons_cons {requestFeature : ℤ} {first tmp : AdsFeature}
    {rest : List AdsFeature} :
    Comparable requestFeature (first :: tmp :: rest)
      ↔ (dist requestFeature first.feature < 2 ^ 31 ∧ dist requestFeature tmp.feature < 2 ^ 31)
        ∧ Comparable requestFeature
          ((if dist requestFeature tmp.feature < dist requestFeature first.feature then tmp
            else first) :: rest) := by
  constructor
  · rintro (hlen | hall)
    · simp at hlen
    · have hfirst := hall first (by simp)
      have htmp := hall tmp (by simp)
      refine ⟨⟨hfirst, htmp⟩, Or.inr fun row hrow => ?_⟩
      rcases List.mem_cons.mp hrow with rfl | hrow
      · split
        · exact htmp
        · exact hfirst
      · exact hall row (List.mem_cons_of_mem _ (List.mem_cons_of_mem _ hrow))
  · rintro ⟨⟨hfirst, htmp⟩, hrest⟩
    refine Or.inr fun row hrow => ?_
    rcases List.mem_cons.mp hrow with rfl | hrow
    · exact hfirst
    · rcases List.mem_cons.mp hrow with rfl | hrow
      · exact htmp
      · rcases hrest with hlen | hall
        · rw [List.length_cons] at hlen
          have := List.length_pos_of_mem hrow
          omega
        · exact hall row (List.mem_cons_of_mem _ hrow)

/-- The targeting finds the first nearest feature, or overflows. -/
theorem featureTargeting_eq (requestFeature : ℤ) (first : AdsFeature) (rest : List AdsFeature) :
    (Comparable requestFeature (first :: rest)
        ∧ featureTargeting (first :: rest) requestFeature
          = .ok (Loops.runningMin (fun row => dist requestFeature row.feature) first rest))
      ∨ (¬Comparable requestFeature (first :: rest)
        ∧ featureTargeting (first :: rest) requestFeature = .error .signedOverflow) := by
  induction rest generalizing first with
  | nil => exact Or.inl ⟨Or.inl le_rfl, rfl⟩
  | cons tmp rest ih =>
      have hstep : featureTargeting (first :: tmp :: rest) requestFeature
          = minStep requestFeature first tmp >>= fun result =>
            featureTargeting (result :: rest) requestFeature := rfl
      rw [hstep, minStep_eq, comparable_cons_cons]
      by_cases hboth : dist requestFeature first.feature < 2 ^ 31
          ∧ dist requestFeature tmp.feature < 2 ^ 31
      · rw [if_pos hboth]
        rcases ih (if dist requestFeature tmp.feature < dist requestFeature first.feature then tmp
            else first) with ⟨hrest, hok⟩ | ⟨hrest, herr⟩
        · exact Or.inl ⟨⟨hboth, hrest⟩, hok⟩
        · exact Or.inr ⟨fun h => hrest h.2, herr⟩
      · rw [if_neg hboth]
        exact Or.inr ⟨fun h => hboth h.1, rfl⟩

variable (request) in
omit [DecidableEq χ] in
/-- One advertiser sends its representative, if it has one and its offers compare
without an overflow. -/
theorem targetStep_eq (acc : List (Ads χ)) (group : ℕ × List (Ads χ)) :
    (Comparable request.feature (Targeting.features (fetchedFeature db) group.2)
        ∧ targetStep db request acc group
          = .ok (acc ++ (Targeting.representativeOf (fetchedFeature db) (dist request.feature)
              group.2).toList))
      ∨ (¬Comparable request.feature (Targeting.features (fetchedFeature db) group.2)
        ∧ targetStep db request acc group = .error .signedOverflow) := by
  rw [targetStep, adsFeatures_eq, Targeting.representativeOf]
  cases hrows : Targeting.features (fetchedFeature db) group.2 with
  | nil => exact Or.inl ⟨Or.inl (Nat.zero_le _), by simp [pure, Except.pure]⟩
  | cons first rest =>
      rw [if_neg (by simp)]
      rcases featureTargeting_eq request.feature first rest
        with ⟨hcomparable, hok⟩ | ⟨hcomparable, herr⟩
      · refine Or.inl ⟨hcomparable, ?_⟩
        have hmin := Loops.runningMin_eq_argmin
          (fun row : AdsFeature => dist request.feature row.feature) first rest
        obtain ⟨ads, hfind⟩ := Targeting.find?_of_mem_features (hrows ▸ List.argmin_mem hmin)
        rw [hok, hmin, Option.bind_some, hfind]
        simp only [bind, Except.bind, hfind]
        rfl
      · refine Or.inr ⟨hcomparable, ?_⟩
        rw [herr]
        rfl

/-- The ads that reach targeting, advertiser by advertiser. -/
theorem offers_eq :
    Targeting.offers (fetchedFeature db)
        ((adsSatisfyDomain db request).filter fun ads => CategoryAllowed db request ads)
      = Documented.offers db request := by
  ext ads
  simp only [Targeting.offers, Documented.offers, Set.mem_ofPred_eq, List.mem_filter,
    decide_eq_true_eq, mem_adsSatisfyDomain, (fetchedFeature_spec db ads).1]
  constructor
  · rintro ⟨⟨⟨hstored, hsize, hdomain⟩, hcategory⟩, hfeature⟩
    exact ⟨⟨hstored, hsize, hdomain, hcategory⟩, hfeature⟩
  · rintro ⟨⟨hstored, hsize, hdomain, hcategory⟩, hfeature⟩
    exact ⟨⟨⟨hstored, hsize, hdomain⟩, hcategory⟩, hfeature⟩

omit [DecidableEq χ] in
theorem near_eq :
    Targeting.near (fetchedFeature db) (dist request.feature) = Documented.near db request := by
  funext ads
  rw [Targeting.near, (fetchedFeature_spec db ads).2]
  rfl

/-- No advertiser with several offers has one whose distance overflows. -/
def Exact (db : Database χ) (request : Request χ) : Prop :=
  ∀ a ∈ Documented.offers db request, ∀ b ∈ Documented.offers db request,
    a.advertiserId = b.advertiserId → a ≠ b →
      dist request.feature (featureOf db a.adsId) < 2 ^ 31

omit [DecidableEq χ] in
theorem exact_of_documented (hfeatures : DocumentedFeatures db)
    (hr : DocumentedFeature request.feature) : Exact db request := by
  intro a _ b _ _ _
  have hle := (documented_featureOf hfeatures a.adsId).abs_sub_le hr
  unfold dist
  omega

omit [DecidableEq χ] in
theorem mem_features_iff {adses : List (Ads χ)} {row : AdsFeature} :
    row ∈ Targeting.features (fetchedFeature db) adses
      ↔ ∃ ads ∈ Targeting.offers (fetchedFeature db) adses,
        row = ⟨ads.adsId, featureOf db ads.adsId⟩ := by
  rw [Targeting.mem_features]
  constructor
  · rintro ⟨ads, hads, hid, hfeat⟩
    refine ⟨ads, ⟨hads, by rw [hfeat]; rfl⟩, ?_⟩
    rw [← (fetchedFeature_spec db ads).2, hfeat, hid]
    rfl
  · rintro ⟨ads, ⟨hads, hsome⟩, rfl⟩
    obtain ⟨feature, hfeat⟩ := Option.isSome_iff_exists.mp hsome
    refine ⟨ads, hads, rfl, ?_⟩
    rw [← (fetchedFeature_spec db ads).2, hfeat]
    rfl

omit [DecidableEq χ] in
/-- In a list of increasing ids, the features of different ads are different. -/
theorem comparable_features_iff {adses : List (Ads χ)} {requestFeature : ℤ}
    (hsorted : adses.Pairwise fun a b => a.adsId < b.adsId)
    (hstored : ∀ ads ∈ adses, ads ∈ db.adses) :
    Comparable requestFeature (Targeting.features (fetchedFeature db) adses)
      ↔ ∀ a ∈ Targeting.offers (fetchedFeature db) adses,
          ∀ b ∈ Targeting.offers (fetchedFeature db) adses, a ≠ b →
            dist requestFeature (featureOf db a.adsId) < 2 ^ 31 := by
  have hnd : (Targeting.features (fetchedFeature db) adses).Nodup :=
    (Targeting.features_sorted _ hsorted).imp fun hlt heq => hlt.ne (congrArg AdsFeature.adsId heq)
  rw [comparable_iff_of_nodup hnd]
  constructor
  · intro h a ha b hb hne
    refine h ⟨a.adsId, featureOf db a.adsId⟩ (mem_features_iff.mpr ⟨a, ha, rfl⟩)
      ⟨b.adsId, featureOf db b.adsId⟩ (mem_features_iff.mpr ⟨b, hb, rfl⟩) ?_
    exact fun heq => hne (db.adses_inj (hstored a ha.1) (hstored b hb.1)
      (congrArg AdsFeature.adsId heq))
  · intro h row hrow other hother hne
    obtain ⟨a, ha, rfl⟩ := mem_features_iff.mp hrow
    obtain ⟨b, hb, rfl⟩ := mem_features_iff.mp hother
    exact h a ha b hb fun heq => hne (by rw [heq])

omit [DecidableEq χ] in
/-- The groups compare without an overflow exactly if the offers do. -/
theorem comparable_iff {adses : List (Ads χ)} {groups : List (ℕ × List (Ads χ))}
    (hsorted : adses.Pairwise fun a b => a.adsId < b.adsId)
    (hstored : ∀ ads ∈ adses, ads ∈ db.adses)
    (hoffers : Targeting.offers (fetchedFeature db) adses = Documented.offers db request)
    (hgroups : Grouping.Groups Ads.advertiserId adses groups) :
    (∀ group ∈ groups, Comparable request.feature
        (Targeting.features (fetchedFeature db) group.2))
      ↔ Exact db request := by
  have hmem : ∀ advertiserId ads, ads ∈ Targeting.offers (fetchedFeature db)
      (adses.filter fun ads => ads.advertiserId = advertiserId)
      ↔ ads ∈ Documented.offers db request ∧ ads.advertiserId = advertiserId := by
    intro advertiserId ads
    rw [← hoffers]
    simp only [Targeting.offers, Set.mem_ofPred_eq, List.mem_filter, decide_eq_true_eq]
    tauto
  have hcomparable : ∀ advertiserId, Comparable request.feature
      (Targeting.features (fetchedFeature db)
        (adses.filter fun ads => ads.advertiserId = advertiserId)) ↔ _ := fun advertiserId =>
    comparable_features_iff (hsorted.filter _)
      fun ads hads => hstored ads (List.mem_of_mem_filter hads)
  constructor
  · intro h a ha b hb hown hne
    have ha' := (hmem a.advertiserId a).mpr ⟨ha, rfl⟩
    have hb' := (hmem a.advertiserId b).mpr ⟨hb, hown.symm⟩
    have hgroup := hgroups.mem_iff.mpr ⟨rfl, List.ne_nil_of_mem ha'.1⟩
    exact (hcomparable a.advertiserId).mp (h _ hgroup) a ha' b hb' hne
  · rintro hexact ⟨advertiserId, group⟩ hgroup
    obtain ⟨rfl, -⟩ := hgroups.mem_iff.mp hgroup
    refine (hcomparable advertiserId).mpr fun a ha b hb hne => ?_
    obtain ⟨ha', hown⟩ := (hmem advertiserId a).mp ha
    obtain ⟨hb', hown'⟩ := (hmem advertiserId b).mp hb
    exact hexact a ha' b hb' (hown.trans hown'.symm) hne

variable (request) in
/-- **Targeting.** It collects the candidates, in the order of their advertisers,
unless a distance overflows. -/
theorem adsTargetted_cases (htypes : DocumentedTypes db) :
    (Exact db request ∧ ∃ targetted, adsTargetted db request = .ok targetted
        ∧ (∀ ads, ads ∈ targetted ↔ Candidate db request ads)
        ∧ targetted.Pairwise fun a b => a.advertiserId < b.advertiserId)
      ∨ (¬Exact db request ∧ adsTargetted db request = .error .signedOverflow) := by
  obtain ⟨groups, hok, hgroups, hkeys⟩ := advertiserAdses_eq request htypes
  have hsorted : ((adsSatisfyDomain db request).filter fun ads =>
      CategoryAllowed db request ads).Pairwise fun a b => a.adsId < b.adsId := by
    rw [adsSatisfyDomain_eq]
    exact (db.selectAdses_sorted.filter _).filter _
  have hrun : adsTargetted db request = groups.foldlM (targetStep db request) [] := by
    rw [adsTargetted, hok]
    rfl
  have hstored : ∀ ads ∈ (adsSatisfyDomain db request).filter fun ads =>
      CategoryAllowed db request ads, ads ∈ db.adses := fun ads hads =>
    (mem_adsSatisfyDomain.mp (List.mem_of_mem_filter hads)).1
  have hcomparable := comparable_iff hsorted hstored offers_eq hgroups
  by_cases hexact : Exact db request
  · have hstep : ∀ acc, ∀ group ∈ groups, targetStep db request acc group
        = .ok (acc ++ (Targeting.representativeOf (fetchedFeature db) (dist request.feature)
            group.2).toList) := by
      intro acc group hgroup
      rcases targetStep_eq request acc group with ⟨-, hok⟩ | ⟨hno, -⟩
      · exact hok
      · exact absurd (hcomparable.mpr hexact group hgroup) hno
    refine Or.inl ⟨hexact, _, hrun.trans (Targeting.foldlM_representatives hstep),
      fun ads => ?_, Targeting.representatives_sorted hsorted hgroups hkeys⟩
    rw [Targeting.mem_representatives hsorted hgroups, offers_eq, near_eq]
    rfl
  · refine Or.inr ⟨hexact, hrun.trans ?_⟩
    have hsteps : ∀ acc, ∀ group ∈ groups,
        (∃ acc', targetStep db request acc group = .ok acc')
          ∨ targetStep db request acc group = .error .signedOverflow := by
      intro acc group _
      rcases targetStep_eq request acc group with ⟨-, hok⟩ | ⟨-, herr⟩
      · exact Or.inl ⟨_, hok⟩
      · exact Or.inr herr
    rcases Loops.foldlM_ok_or_error hsteps [] with ⟨_, -, hall⟩ | herr
    · refine absurd (hcomparable.mp fun group hgroup => ?_) hexact
      obtain ⟨acc, acc', hok⟩ := hall group hgroup
      rcases targetStep_eq request acc group with ⟨hcompare, -⟩ | ⟨-, herr⟩
      · exact hcompare
      · rw [herr] at hok
        cases hok
    · exact herr

/-! ## The final sort -/

/-- Falling price, then advertiser: the order in which the C++ auction decides. -/
def advertiserRank (ads : Ads χ) : ℕᵒᵈ ×ₗ ℕ :=
  toLex (OrderDual.toDual ads.price, ads.advertiserId)

omit [DecidableEq χ] in
theorem advertiserRank_inj :
    Set.InjOn advertiserRank {ads : Ads χ | Candidate db request ads} := by
  intro a ha b hb hab
  exact Candidate.unique ha hb (congrArg (fun p => (ofLex p).2) hab)

omit [DecidableEq χ] in
/-- The stable sort keeps the order of the advertisers among equal prices. -/
theorem sortByPrice_sorted {targetted : List (Ads χ)}
    (h : targetted.Pairwise fun a b => a.advertiserId < b.advertiserId) :
    (sortByPrice targetted).Pairwise fun a b => advertiserRank a ≤ advertiserRank b := by
  have : Std.Total fun a b : Ads χ => b.price ≤ a.price := ⟨fun _ _ => Nat.le_total _ _⟩
  have : IsTrans (Ads χ) fun a b => b.price ≤ a.price :=
    ⟨fun _ _ _ hab hbc => Nat.le_trans hbc hab⟩
  refine (Selection.pairwise_stable h).imp fun {a b} hab => ?_
  obtain ⟨hprice, htie⟩ := hab
  rw [advertiserRank, advertiserRank, Prod.Lex.toLex_le_toLex]
  rcases Nat.lt_or_eq_of_le hprice with hlt | heq
  · exact Or.inl (OrderDual.toDual_lt_toDual.mpr hlt)
  · exact Or.inr ⟨congrArg OrderDual.toDual heq.symm, (htie heq.ge).le⟩

variable (request) in
/-- **The C++ auction.** Its winner is the candidate of the highest price with the
smallest advertiser, unless a distance overflows. -/
theorem auctionWinner_cases (htypes : DocumentedTypes db) :
    (Exact db request ∧ ∃ winner, auctionWinner db request = .ok winner
        ∧ Selection.Selects winner (Selection.Winner (Documented.offers db request)
          Ads.advertiserId (Documented.near db request) advertiserRank))
      ∨ (¬Exact db request ∧ auctionWinner db request = .error .signedOverflow) := by
  rcases adsTargetted_cases request htypes with
    ⟨hexact, targetted, hok, hmem, hsorted⟩ | ⟨hexact, herr⟩
  · refine Or.inl ⟨hexact, (sortByPrice targetted).head?, by rw [auctionWinner, hok]; rfl, ?_⟩
    refine Selection.selects_head advertiserRank_inj (fun ads => ?_) (sortByPrice_sorted hsorted)
    exact (List.mem_insertionSort _).trans (hmem ads)
  · exact Or.inr ⟨hexact, by rw [auctionWinner, herr]; rfl⟩

/-- In the documented ranges the auction returns. -/
theorem auctionWinner_eq (htypes : DocumentedTypes db) (hfeatures : DocumentedFeatures db)
    (hr : DocumentedFeature request.feature) :
    ∃ winner, auctionWinner db request = .ok winner
      ∧ Selection.Selects winner (Selection.Winner (Documented.offers db request)
          Ads.advertiserId (Documented.near db request) advertiserRank) := by
  rcases auctionWinner_cases request htypes with ⟨-, h⟩ | ⟨hexact, -⟩
  · exact h
  · exact absurd (exact_of_documented hfeatures hr) hexact

/-! ## The result -/

theorem exists_auction (htypes : DocumentedTypes db) (hfeatures : DocumentedFeatures db)
    (hr : DocumentedFeature request.feature) : ∃ result, auction db request = .ok result := by
  obtain ⟨winner, hwinner, -⟩ := auctionWinner_eq htypes hfeatures hr
  exact ⟨winner.map (respond request), by rw [auction, hwinner]; rfl⟩

/-- An auction that returns has compared exactly, and answers for the winner. -/
theorem auction_eq_ok {result : Option (Response χ)} (htypes : DocumentedTypes db)
    (h : auction db request = .ok result) :
    Exact db request ∧ ∃ winner, result = winner.map (respond request)
      ∧ Selection.Selects winner (Selection.Winner (Documented.offers db request)
        Ads.advertiserId (Documented.near db request) advertiserRank) := by
  rcases auctionWinner_cases request htypes with
    ⟨hexact, winner, hwinner, hselects⟩ | ⟨-, herr⟩
  · rw [auction, hwinner] at h
    exact ⟨hexact, winner, (Except.ok.inj h).symm, hselects⟩
  · rw [auction, herr] at h
    cases h

end Cpp

end AuctionWorker
